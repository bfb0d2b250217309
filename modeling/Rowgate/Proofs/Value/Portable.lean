import Mathlib.Data.List.Nodup
import Rowgate.Proofs.Encoding.Utf8
import Rowgate.Proofs.Number.Digits
import Rowgate.Value.Order

/-!
# Values that travel

A value travels if it can be written as JSON and is read back as an equal one: it is built from
null, truth values, numbers of which the integers keep to the digit limit, and texts without halves
of surrogate pairs. What is read back need not be the same value: an integral decimal is written
without a point and comes back as an integer. `Value.reread` is what comes back, and
`Portable.equals_reread` says that it is equal.
-/

namespace Rowgate

/-! ## Records with different names -/

namespace Record

theorem field?_of_mem {r : Record} (hr : (names r).Nodup) {name : String} {v : Value}
    (h : (name, v) ∈ r) : field? r name = some v := by
  induction r with
  | nil => cases h
  | cons first rest ih =>
      obtain ⟨k, w⟩ := first
      have hnodup : k ∉ names rest ∧ (names rest).Nodup := List.nodup_cons.mp hr
      rw [field?]
      rcases List.mem_cons.mp h with heq | h
      · cases heq
        rw [if_pos rfl]
      · rw [if_neg, ih hnodup.2 h]
        rintro rfl
        exact hnodup.1 (List.mem_map_of_mem h)

theorem set_of_not_mem {r : Record} {name : String} (h : name ∉ names r) (v : Value) :
    set r name v = r ++ [(name, v)] := by
  induction r with
  | nil => rfl
  | cons first rest ih =>
      obtain ⟨k, w⟩ := first
      have hne : k ≠ name ∧ name ∉ names rest :=
        ⟨fun heq => h (heq ▸ List.mem_cons_self), fun hmem => h (List.mem_cons_of_mem _ hmem)⟩
      rw [set, if_neg hne.1, ih hne.2, List.cons_append]

/-- Entries with different names are a record as they are. -/
theorem ofEntries_of_nodup {es : List (String × Value)} (h : (names es).Nodup) :
    ofEntries es = es := by
  have hfold : ∀ (es acc : Record), (names (acc ++ es)).Nodup →
      es.foldl (fun r e => set r e.1 e.2) acc = acc ++ es := by
    intro es
    induction es with
    | nil => exact fun acc _ => (List.append_nil acc).symm
    | cons first es ih =>
        obtain ⟨k, v⟩ := first
        intro acc hacc
        have hk : k ∉ names acc := by
          intro hmem
          rw [names, List.map_append] at hacc
          exact (List.disjoint_of_nodup_append hacc) hmem List.mem_cons_self
        have happend : acc ++ (k, v) :: es = acc ++ [(k, v)] ++ es := by
          rw [List.append_assoc, List.singleton_append]
        rw [List.foldl_cons]
        show es.foldl _ (set acc k v) = _
        rw [set_of_not_mem hk, happend]
        exact ih _ (by rwa [← happend])
  exact hfold es [] h

/-- The last value that entries give for a name. -/
def lastNamed : List (String × Value) → String → Option Value
  | [], _ => none
  | (k, v) :: rest, name => (lastNamed rest name).or (if k = name then some v else none)

theorem mem_of_lastNamed {entries : List (String × Value)} {name : String} {v : Value}
    (h : lastNamed entries name = some v) : (name, v) ∈ entries := by
  induction entries with
  | nil => cases h
  | cons entry entries ih =>
      obtain ⟨k, w⟩ := entry
      rw [lastNamed] at h
      rcases Option.or_eq_some_iff.mp h with hrest | ⟨-, hfirst⟩
      · exact List.mem_cons_of_mem _ (ih hrest)
      · split at hfirst
        · next hk =>
            cases hfirst
            rw [hk]
            exact List.mem_cons_self
        · cases hfirst

/-- A record has the last values of its entries. -/
theorem field?_ofEntries (entries : List (String × Value)) (name : String) :
    field? (ofEntries entries) name = lastNamed entries name := by
  have hfold : ∀ acc : Record, field? (entries.foldl (fun r e => set r e.1 e.2) acc) name =
      (lastNamed entries name).or (field? acc name) := by
    induction entries with
    | nil => exact fun acc => rfl
    | cons entry entries ih =>
        obtain ⟨k, v⟩ := entry
        intro acc
        rw [List.foldl_cons, ih, lastNamed]
        by_cases hk : k = name
        · subst hk
          rw [field?_set_self, if_pos rfl, Option.or_assoc]
          rfl
        · rw [field?_set_of_ne acc v (Ne.symm hk), if_neg hk, Option.or_none]
  exact (hfold []).trans Option.or_none

theorem names_set_subset (r : Record) (name : String) (v : Value) :
    ∀ k ∈ names (set r name v), k = name ∨ k ∈ names r := by
  induction r with
  | nil => exact fun k hk => Or.inl (List.mem_singleton.mp hk)
  | cons first rest ih =>
      obtain ⟨k, w⟩ := first
      intro k' hk'
      rw [set] at hk'
      split at hk'
      · exact Or.inr hk'
      · rcases List.mem_cons.mp hk' with rfl | hk'
        · exact Or.inr List.mem_cons_self
        · exact (ih k' hk').imp_right (List.mem_cons_of_mem k)

theorem nodup_set {r : Record} (h : (names r).Nodup) (name : String) (v : Value) :
    (names (set r name v)).Nodup := by
  induction r with
  | nil => exact List.nodup_singleton name
  | cons first rest ih =>
      obtain ⟨k, w⟩ := first
      have hnodup : k ∉ names rest ∧ (names rest).Nodup := List.nodup_cons.mp h
      rw [set]
      split
      · exact h
      · next hne =>
          refine List.nodup_cons.mpr ⟨fun hk => ?_, ih hnodup.2⟩
          rcases names_set_subset rest name v k hk with rfl | hk
          · exact hne rfl
          · exact hnodup.1 hk

theorem nodup_ofEntries (entries : List (String × Value)) : (names (ofEntries entries)).Nodup := by
  have hfold : ∀ acc : Record, (names acc).Nodup →
      (names (entries.foldl (fun r e => set r e.1 e.2) acc)).Nodup := by
    induction entries with
    | nil => exact fun acc hacc => hacc
    | cons entry entries ih => exact fun acc hacc => ih _ (nodup_set hacc _ _)
  exact hfold [] List.nodup_nil

end Record

/-! ## What is read back -/

/-- What is read back of a decimal: an integer if it is integral. -/
def Decimal.reread : Decimal → Value
  | .finite n c e =>
    if (Decimal.finite n c e).isIntegral then .int (truncate n c e) else .decimal (.finite n c e)
  | d => .decimal d

namespace Value

mutual

/-- What is read back of a value that was written as JSON. -/
def reread : Value → Value
  | .decimal d => d.reread
  | .list items => .list (rereadItems items)
  | .dict entries => .dict (rereadEntries entries)
  | v => v

/-- What is read back of the items of a list. -/
def rereadItems : List Value → List Value
  | [] => []
  | v :: vs => reread v :: rereadItems vs

/-- What is read back of the entries of a dictionary. -/
def rereadEntries : List (String × Value) → List (String × Value)
  | [] => []
  | (k, v) :: es => (k, reread v) :: rereadEntries es

end

mutual

/-- How many values lie inside each other, the outermost one included. -/
def depth : Value → Nat
  | .list items => itemsDepth items + 1
  | .dict entries => entriesDepth entries + 1
  | _ => 1

/-- How many values lie inside each other in a list. -/
def itemsDepth : List Value → Nat
  | [] => 0
  | v :: vs => max (depth v) (itemsDepth vs)

/-- How many values lie inside each other in a dictionary. -/
def entriesDepth : List (String × Value) → Nat
  | [] => 0
  | (_, v) :: es => max (depth v) (entriesDepth es)

end

/-- Whether a value can be written as JSON and is read back as an equal one. -/
inductive Portable : Value → Prop
  | null : Portable .null
  | bool (b : Bool) : Portable (.bool b)
  | int {i : Int} (h : digitCount i.natAbs ≤ digitLimit) : Portable (.int i)
  /-- The exponent of a decimal always lies in the range; an integral one keeps to the limit. -/
  | decimal {n : Bool} {c : Nat} {e : Int} (hr : Decimal.inRange c e = true)
      (hd : (Decimal.finite n c e).isIntegral = true →
        digitCount (Decimal.truncate n c e).natAbs ≤ digitLimit) :
      Portable (.decimal (.finite n c e))
  | str {s : String} (h : Text.Whole s.toList) : Portable (.str s)
  | list {items : List Value} (h : ∀ v ∈ items, Portable v) : Portable (.list items)
  | dict {entries : List (String × Value)} (hnames : (Record.names entries).Nodup)
      (htexts : ∀ e ∈ entries, Text.Whole e.1.toList) (h : ∀ e ∈ entries, Portable e.2) :
      Portable (.dict entries)

theorem rereadItems_eq_map (vs : List Value) : rereadItems vs = vs.map reread := by
  induction vs with
  | nil => rfl
  | cons v vs ih => exact congrArg (v.reread :: ·) ih

theorem rereadEntries_eq_map (es : List (String × Value)) :
    rereadEntries es = es.map fun e => (e.1, e.2.reread) := by
  induction es with
  | nil => rfl
  | cons e es ih => exact congrArg ((e.1, e.2.reread) :: ·) ih

theorem itemsDepth_le_iff {vs : List Value} {depth : Nat} :
    itemsDepth vs ≤ depth ↔ ∀ v ∈ vs, v.depth ≤ depth := by
  induction vs with
  | nil => exact ⟨fun _ _ h => (nomatch h), fun _ => Nat.zero_le depth⟩
  | cons v vs ih => rw [itemsDepth, Nat.max_le, ih, List.forall_mem_cons]

theorem entriesDepth_le_iff {es : List (String × Value)} {depth : Nat} :
    entriesDepth es ≤ depth ↔ ∀ e ∈ es, e.2.depth ≤ depth := by
  induction es with
  | nil => exact ⟨fun _ _ h => (nomatch h), fun _ => Nat.zero_le depth⟩
  | cons e es ih => rw [entriesDepth, Nat.max_le, ih, List.forall_mem_cons]

theorem depth_pos (v : Value) : 0 < v.depth := by
  cases v <;> simp [depth]

/-! ## What is read back is equal -/

theorem sameNumber_of_rational {v w : Value} {a b : Decimal} {q : ℚ} (hv : v.number? = some a)
    (hw : w.number? = some b) (ha : a.rational? = some q) (hb : b.rational? = some q) :
    sameNumber v w = true := by
  rw [sameNumber, hv, hw]
  show (a.compareValue b == some .eq) = true
  rw [Decimal.compareValue_of_rational ha hb, cmp_self_eq_eq]
  rfl

theorem sameNumber_reread (n : Bool) (c : Nat) (e : Int) :
    equals (Decimal.finite n c e).reread (.decimal (.finite n c e)) = true := by
  rw [Decimal.reread]
  split
  · next h =>
      show sameNumber (.int (Decimal.truncate n c e)) (.decimal (.finite n c e)) = true
      refine sameNumber_of_rational rfl rfl (Decimal.rational?_ofInt _) ?_
      rw [Decimal.truncate_of_isIntegral h]
      rfl
  · show sameNumber (.decimal (.finite n c e)) (.decimal (.finite n c e)) = true
    exact sameNumber_of_rational rfl rfl rfl rfl

theorem equalItems_reread {vs : List Value} (h : ∀ v ∈ vs, equals v.reread v = true) :
    equalItems (rereadItems vs) vs = true := by
  induction vs with
  | nil => rfl
  | cons v vs ih =>
      rw [rereadItems, equalItems, h v List.mem_cons_self, Bool.true_and]
      exact ih fun w hw => h w (List.mem_cons_of_mem _ hw)

theorem equalEntries_reread {es : List (String × Value)} {r : Record} (hr : (Record.names r).Nodup)
    (hsub : es ⊆ r) (h : ∀ e ∈ es, equals e.2.reread e.2 = true) :
    equalEntries (rereadEntries es) r = true := by
  induction es with
  | nil => rfl
  | cons e es ih =>
      obtain ⟨k, v⟩ := e
      rw [rereadEntries, equalEntries, Record.field?_of_mem hr (hsub List.mem_cons_self)]
      show (equals v.reread v && _) = true
      rw [h (k, v) List.mem_cons_self, Bool.true_and]
      exact ih (List.cons_subset.mp hsub).2 fun w hw => h w (List.mem_cons_of_mem _ hw)

/-- What is read back of a value that travels is equal to it. -/
theorem Portable.equals_reread {v : Value} (h : v.Portable) : equals v.reread v = true := by
  induction h with
  | null => rfl
  | bool b =>
      show sameNumber (.bool b) (.bool b) = true
      exact sameNumber_of_rational rfl rfl (Decimal.rational?_ofInt _) (Decimal.rational?_ofInt _)
  | @int i =>
      show sameNumber (.int i) (.int i) = true
      exact sameNumber_of_rational rfl rfl (Decimal.rational?_ofInt _) (Decimal.rational?_ofInt _)
  | decimal => exact sameNumber_reread _ _ _
  | @str s => exact beq_self_eq_true s
  | list _ ih =>
      rw [reread, equals]
      exact equalItems_reread ih
  | dict hnames _ _ ih =>
      rw [reread, equals, rereadEntries_eq_map, List.length_map, beq_self_eq_true, Bool.true_and,
        ← rereadEntries_eq_map]
      exact equalEntries_reread hnames (List.Subset.refl _) ih

end Value

end Rowgate
