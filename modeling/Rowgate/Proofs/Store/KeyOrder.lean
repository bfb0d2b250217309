import Rowgate.Proofs.Sort.Ranked
import Rowgate.Proofs.Store.Rows

/-!
# The order of a scan

A scan puts records in the order of their keys, value by value. Each value in the form of a field has
a rank among lists of numbers; values are equal if they have one rank, and where they can be compared
they are in the order of their ranks. So keys are in the order of the lists of the ranks of their
values, and a scan has the records of the file, none after one with a later key. Nothing is needed for
that except that the keys can be compared, which moments with an offset and moments without refuse.
-/

namespace Rowgate

open Rowgate.Sort Outcome

namespace Value

/-- Where a value stands among the values of one field. Null comes first, and moments without an
offset have ranks apart from those with one. -/
def rank : Value → List ℚ
  | .null => []
  | .int i => [0, i]
  | .decimal (.finite n c e) => [0, Decimal.signed n c e]
  | .str s => 0 :: (Text.codes s.toList).map Nat.cast
  | .bytes octets => 0 :: (octets.map UInt8.toNat).map Nat.cast
  | .date d => [0, d.ordinal]
  | .dateTime t => [if t.offset.isSome then 1 else 0, t.moment]
  | .time t => [if t.offset.isSome then 1 else 0, t.moment]
  | _ => []

end Value

/-- Numbers in a list are in the order of the numbers that they are cast from. -/
theorem linearly_map_cast (a b : List Nat) :
    linearly (a.map (Nat.cast : Nat → ℚ)) (b.map Nat.cast) = linearly a b := by
  induction a generalizing b with
  | nil =>
      cases b with
      | nil => rw [List.map_nil, linearly_self, linearly_self]
      | cons y ys => rw [List.map_nil, List.map_cons, linearly_nil_cons, linearly_nil_cons]
  | cons x xs ih =>
      cases b with
      | nil => rw [List.map_nil, List.map_cons, linearly_cons_nil, linearly_cons_nil]
      | cons y ys =>
          have hcast : linearly (x : ℚ) y = linearly x y := linearly_map Nat.strictMono_cast x y
          rw [List.map_cons, List.map_cons, linearly_cons, linearly_cons, ih, hcast]

theorem linearly_beq_lt {α : Type} [LinearOrder α] (a b : α) :
    (linearly a b == .lt) = decide (a < b) := by
  rw [Bool.eq_iff_iff, beq_iff_eq, decide_eq_true_eq]
  exact cmp_eq_lt_iff a b

theorem linearly_beq_lt_of_le {α : Type} [LinearOrder α] {a b : α} (h : a ≤ b) :
    (linearly b a == .lt) = false := by
  rw [linearly_beq_lt, decide_eq_false (not_lt.mpr h)]

theorem linearly_pair (a p q : ℚ) : linearly [a, p] [a, q] = linearly p q := by
  rw [linearly_cons, linearly_self, Ordering.eq_then, linearly_cons, linearly_self]
  cases linearly p q <;> rfl

theorem linearly_codes (a b : List Nat) :
    linearly ((0 : ℚ) :: a.map Nat.cast) (0 :: b.map Nat.cast) = linearly a b := by
  rw [linearly_cons, linearly_self, Ordering.eq_then, linearly_map_cast]

namespace Fits

variable {k : FieldKind} {v w : Value}

/-- What it means that two values are in the order of their ranks, where they have an order. -/
def Ranked (v w : Value) : Prop :=
  (v.equals w = true ↔ linearly v.rank w.rank = .eq) ∧
    ∀ o, v.compare w = .ok o → o = some (linearly v.rank w.rank)

theorem ranked_numbers (hv : Fits .numeric v) (hw : Fits .numeric w) : Ranked v w := by
  have hrank : ∀ {u p}, Fits .numeric u → u.datum? = some (.number p) → u.rank = [0, p] := by
    intro u p hu hp
    cases hu with
    | int i =>
        cases hp
        rfl
    | decimal n c e =>
        cases hp
        rfl
  obtain ⟨p, q, hp, hq, hcmp, hsame, -⟩ := numbers hv hw
  rw [Ranked, hrank hv hp, hrank hw hq, linearly_pair]
  constructor
  · have heq : v.equals w = v.sameNumber w := by cases hv <;> rfl
    rw [heq, hsame, beq_iff_eq]
    rfl
  · intro o ho
    have heq : v.compare w = v.compareNumbers w := by cases hv <;> rfl
    rw [heq, hcmp] at ho
    exact (Except.ok.inj ho).symm

/-- Moments in the order of their ranks: only those that agree in having an offset are compared. -/
theorem ranked_moments {v w : Value} {a b : Bool} {m n : Int}
    (hv : v.rank = [if a then 1 else 0, (m : ℚ)]) (hw : w.rank = [if b then 1 else 0, (n : ℚ)])
    (hequals : v.equals w = ((if a == b then some (compare m n) else none) == some .eq))
    (hcompare : v.compare w = Value.compareMoments (if a == b then some (compare m n) else none)) :
    Ranked v w := by
  have hcast : linearly (m : ℚ) n = compare m n := by
    rw [← linearly_eq_compare]
    exact linearly_map Int.cast_strictMono m n
  rw [Ranked, hv, hw, hequals, hcompare]
  by_cases hab : a = b
  · subst hab
    rw [linearly_pair, hcast, beq_self_eq_true, if_pos rfl]
    constructor
    · rw [beq_iff_eq, Option.some_inj]
    · intro o ho
      exact (Except.ok.inj ho).symm
  · have hne : (a == b) = false := beq_false_of_ne hab
    simp only [hne, if_neg Bool.false_ne_true]
    constructor
    · refine iff_of_false (by simp) fun h => ?_
      rw [linearly_eq_iff] at h
      cases a <;> cases b <;> simp at hab h
    · intro o ho
      cases ho

theorem ranked (hv : Fits k v) (hw : Fits k w) : Ranked v w := by
  cases hv with
  | int i => exact ranked_numbers (.int i) hw
  | decimal n c e => exact ranked_numbers (.decimal n c e) hw
  | str s =>
      cases hw with
      | str t =>
          rw [Ranked, Value.rank, Value.rank, linearly_codes]
          constructor
          · rw [Value.equals, beq_iff_eq, linearly_eq_iff, Text.codes_inj, String.toList_inj]
          · intro o ho
            rw [Value.compare, Value.compareText, Text.compareCodes_eq_linearly] at ho
            exact (Except.ok.inj ho).symm
  | bytes a =>
      cases hw with
      | bytes b =>
          rw [Ranked, Value.rank, Value.rank, linearly_codes]
          constructor
          · rw [Value.equals, beq_iff_eq, linearly_eq_iff]
            exact (List.map_inj_right fun _ _ h => UInt8.toNat_inj.mp h).symm
          · intro o ho
            rw [Value.compare, Value.compareOctets_eq_linearly] at ho
            exact (Except.ok.inj ho).symm
  | date a =>
      cases hw with
      | date b =>
          have hcast : linearly (a.ordinal : ℚ) b.ordinal = a.compare b := by
            rw [Date.compare, ← linearly_eq_compare]
            exact linearly_map Nat.strictMono_cast a.ordinal b.ordinal
          rw [Ranked, Value.rank, Value.rank, linearly_pair, hcast]
          constructor
          · rw [Value.equals, beq_iff_eq, Date.compare, ← linearly_eq_compare, linearly_eq_iff]
            exact ⟨congrArg Date.ordinal, Date.ordinal_injective⟩
          · intro o ho
            exact (Except.ok.inj ho).symm
  | dateTime a =>
      cases hw with
      | dateTime b => exact ranked_moments rfl rfl rfl rfl
  | time a =>
      cases hw with
      | time b => exact ranked_moments rfl rfl rfl rfl

end Fits

/-! ## Values that can be compared -/

/-- Whether a value has an offset if the moments of its field have one, and else has none. -/
def Value.InStep (aware : Bool) : Value → Prop
  | .dateTime t => t.offset.isSome = aware
  | .time t => t.offset.isSome = aware
  | _ => True

namespace Fits

variable {k : FieldKind} {v w : Value} {aware : Bool}

/-- Only moments have to be in step. -/
theorem inStep (h : Fits k v) (hdateTime : k ≠ .dateTime) (htime : k ≠ .time) : v.InStep aware := by
  cases h with
  | dateTime => exact absurd rfl hdateTime
  | time => exact absurd rfl htime
  | _ => trivial

theorem exists_compare_of_numbers (hv : Fits .numeric v) (hw : Fits .numeric w) :
    ∃ o, v.compare w = .ok o := by
  obtain ⟨p, q, -, -, hcompare, -⟩ := numbers hv hw
  have heq : v.compare w = v.compareNumbers w := by cases hv <;> rfl
  exact ⟨_, heq.trans hcompare⟩

/-- Values of one kind that are in step have an order. -/
theorem exists_compare (hv : Fits k v) (hw : Fits k w) (hv' : v.InStep aware)
    (hw' : w.InStep aware) : ∃ o, v.compare w = .ok o := by
  cases hv with
  | int i => exact exists_compare_of_numbers (.int i) hw
  | decimal n c e => exact exists_compare_of_numbers (.decimal n c e) hw
  | dateTime a =>
      cases hw with
      | dateTime b =>
          have hsame : (a.offset.isSome == b.offset.isSome) = true :=
            beq_iff_eq.mpr (hv'.trans hw'.symm)
          rw [Value.compare, DateTime.compare?, if_pos hsame]
          exact ⟨_, rfl⟩
  | time a =>
      cases hw with
      | time b =>
          have hsame : (a.offset.isSome == b.offset.isSome) = true :=
            beq_iff_eq.mpr (hv'.trans hw'.symm)
          rw [Value.compare, Time.compare?, if_pos hsame]
          exact ⟨_, rfl⟩
  | _ =>
      cases hw
      exact ⟨_, rfl⟩

end Fits

/-! ## Keys -/

namespace Fits

variable {k : FieldKind} {v : Value}

theorem rank_ne_nil (h : Fits k v) : v.rank ≠ [] := by
  cases h <;> exact List.cons_ne_nil _ _

/-- Null is not compared with other values. -/
theorem ranked_null (h : Fits k v) : Ranked .null v ∧ Ranked v .null := by
  refine ⟨⟨iff_of_false ?_ fun heq => h.rank_ne_nil (linearly_eq_iff.mp heq).symm,
    fun o ho => nomatch ho⟩, iff_of_false ?_ fun heq => h.rank_ne_nil (linearly_eq_iff.mp heq), ?_⟩
  · rw [Value.equals, h.not_null]
    exact Bool.false_ne_true
  · cases h <;> exact Bool.false_ne_true
  · intro o ho
    cases h <;> cases ho

theorem not_refusesEquality_null (h : Fits k v) : v.refusesEquality .null = false := by
  cases h <;> rfl

end Fits

namespace Field

variable {f : Field} {v w : Value}

theorem ranked (hv : f.Holds v) (hw : f.Holds w) : Fits.Ranked v w := by
  rcases hv with rfl | hv
  · rcases hw with rfl | hw
    · exact ⟨iff_of_true rfl (linearly_self _), fun o ho => nomatch ho⟩
    · exact hw.ranked_null.1
  · rcases hw with rfl | hw
    · exact hv.ranked_null.2
    · exact Fits.ranked hv hw

theorem not_refusesEquality (hv : f.Holds v) (hw : f.Holds w) : v.refusesEquality w = false := by
  rcases hv with rfl | hv
  · rfl
  · rcases hw with rfl | hw
    · exact hv.not_refusesEquality_null
    · exact Fits.not_refusesEquality hv hw

end Field

namespace Entity

variable {e : Entity} {a b : Record}

/-- The ranks of the values of a key. -/
def keyRank (e : Entity) (r : Record) : List (List ℚ) := (e.keyOf r).map Value.rank

/-- Keys that can be compared are in the order of their ranks. -/
theorem compareItems_keyOf (ha : e.Formed a) (hb : e.Formed b) {o : Option Ordering}
    (h : Value.compareItems (e.keyOf a) (e.keyOf b) = .ok o) :
    o = some (linearly (e.keyRank a) (e.keyRank b)) := by
  rw [keyRank, keyRank]
  rw [keyOf, keyOf] at h ⊢
  have hnames : ∀ name ∈ e.keyNames, ∃ f, fieldNamed? e.fields name = some f :=
    fun _ h => exists_fieldNamed?_of_mem_keyNames h
  generalize e.keyNames = names at h hnames ⊢
  induction names with
  | nil =>
      cases h
      exact congrArg some (linearly_self _).symm
  | cons name names ih =>
      obtain ⟨f, hf⟩ := hnames name List.mem_cons_self
      obtain ⟨hequals, hcompare⟩ := Field.ranked (ha.field hf) (hb.field hf)
      simp only [List.map_cons] at h ⊢
      rw [Value.compareItems, Field.not_refusesEquality (ha.field hf) (hb.field hf),
        if_neg Bool.false_ne_true] at h
      rw [linearly_cons]
      split at h
      · next heq =>
          rw [hequals.mp heq, Ordering.eq_then]
          exact ih h fun name hname => hnames name (List.mem_cons_of_mem _ hname)
      · next hne =>
          have hrank := mt hequals.mpr hne
          rw [hcompare o h]
          cases hl : linearly (Record.field a name).rank (Record.field b name).rank with
          | eq => exact absurd hl hrank
          | lt => rfl
          | gt => rfl

end Entity

namespace File

variable {f : File} {a b : Record}

/-- Whether the keys of any two records can be compared. -/
def Ordered (f : File) : Prop := Decides (· ∈ f.records) f.isBefore

/-- The order of records goes by the ranks of their keys. -/
theorem isBefore_eq_rank (ha : f.entity.Formed a) (hb : f.entity.Formed b) {t : Bool}
    (h : f.isBefore a b = .ok t) :
    t = (linearly (f.entity.keyRank a) (f.entity.keyRank b) == .lt) := by
  rw [isBefore] at h
  cases hc : Value.compareItems (f.keyOf a) (f.keyOf b) with
  | error fault =>
      rw [hc] at h
      cases h
  | ok o =>
      rw [hc] at h
      cases h
      rw [Entity.compareItems_keyOf ha hb hc]
      rfl

/-- A scan has the records of the file in the order of their keys, if the keys can be compared. -/
theorem sure_scan (hformed : ∀ r ∈ f.records, f.entity.Formed r) (hordered : f.Ordered) :
    Sure (fun rs => rs.Perm f.records ∧ rs.Pairwise fun a b => f.isBefore b a = .ok false)
      f.scan := by
  obtain ⟨rs, hrs, -⟩ := sure_sortBy hordered fun r hr => hr
  have hperm : rs.Perm f.records := perm_of_sortBy hrs
  have hrank : ∀ a ∈ f.records, ∀ b ∈ f.records, ∀ t, f.isBefore a b = .ok t →
      t = (linearly (f.entity.keyRank a) (f.entity.keyRank b) == .lt) :=
    fun a ha b hb t ht => isBefore_eq_rank (hformed a ha) (hformed b hb) ht
  have hpairwise := pairwise_of_sortBy
    (fun a ha b hb t ht => (hrank a ha b hb t ht).trans (linearly_beq_lt _ _)) hrs
  refine ⟨rs, hrs, hperm, hpairwise.imp_of_mem fun {a b} ha hb hle => ?_⟩
  have ha' := hperm.mem_iff.mp ha
  have hb' := hperm.mem_iff.mp hb
  obtain ⟨t, ht, -⟩ := hordered b a hb' ha'
  rw [ht, hrank b hb' a ha' t ht, linearly_beq_lt_of_le hle]

end File

end Rowgate
