import Rowgate.Proofs.Entity.Prescribed
import Rowgate.Proofs.Store.Alike
import Rowgate.Proofs.Store.Drawing
import Rowgate.Proofs.Store.Operators

/-!
# Predicates that never fail

A compiled filter asks its tests about records one by one, and each test brings the value of the record
to the form of its field before it compares. Two things could go wrong there. The value could have no
form of the field, or the comparison could fail.

The first does not happen since records of a file came out of the fields when they were written. The
second does not happen to operators that compare: both sides have the form of one field, and values of a
field that have no order are in no order, which is an answer. Operators that look for a text need the
text of the value, which every value has but an integer beyond the digit limit. Here it matters that the
value came out of the field and does not only have its form, for a short decimal such as 1E+5000 has the
form of a field without a scale, which makes a long integer of it.

So every test has an answer, and with it every predicate, in whatever way the members of groups count. A
fetch that ends early then differs in nothing from one that asks about all records of the scan.
-/

namespace Rowgate

open Outcome

/-! ## Values that come out of a field once more -/

namespace Field

variable {f : Field} {x v w : Value}

theorem coerce_again (hv : f.coerce x = .ok v) (hlong : ¬ v.HasLongInteger) :
    ∃ w, f.coerce v = .ok w ∧ f.Holds w ∧ ¬ w.HasLongInteger := by
  obtain ⟨w, hw, hholds, -, -, hsame⟩ := coerce_of_holds (coerce_holds hv)
  refine ⟨w, hw, hholds, ?_⟩
  by_cases hk : f.kind = .numeric
  · rcases coerce_holds hv with rfl | hfits
    · cases hw
      exact hlong
    · have hx : x.isNull = false := by
        rw [← Bool.not_eq_true]
        intro hnull
        rw [coerce, if_pos hnull] at hv
        cases hv
        exact absurd hfits.not_null (by decide)
      rw [coerce_of_not_null hx, coerceSome, hk] at hv
      rw [coerce_of_not_null hfits.not_null, coerceSome, hk] at hw
      rcases (prescribes_toNumber hk hv).1 with hprescribed | ⟨hs, b, -, rfl⟩
      · cases (hprescribed.toNumber_eq hk).symm.trans hw
        exact hlong
      · rw [toNumber, if_neg hs] at hw
        cases hw
        intro h
        cases h
  · rw [hsame hk]
    exact hlong

end Field

/-- Whether no integer beyond the digit limit stands in a field of a record. -/
def Entity.Short (e : Entity) (r : Record) : Prop :=
  ∀ f ∈ e.fields, ¬ (Record.field r f.name).HasLongInteger

/-! ## Tests -/

namespace Test

variable {t : Test} {f : Field} {o : Operator} {v condition : Value}

/-- An operator has an answer about a value in the form of the field of a test. -/
theorem exists_holds (ho : t.operator = some o) (hc : t.condition (some f) = .ok condition)
    (hv : f.Holds v) (hlong : ¬ v.HasLongInteger) (fold : Bool) :
    ∃ b, o.holds fold v condition = .ok b := by
  cases hless : o.isValueless with
  | true =>
      cases o <;> first | exact ⟨_, rfl⟩ | cases hless
  | false =>
      rcases hv with rfl | hv
      · exact ⟨false, (o.holds_null hless fold condition).1⟩
      rcases Operator.compares_or_searches hless with ⟨rel, hrel⟩ | hsearch
      · rcases condition_holds ho hrel hc with rfl | hw
        · exact ⟨false, (o.holds_null hless fold v).2⟩
        · exact ⟨_, hv.holds_eq hrel hw fold⟩
      · rcases condition_of_search ho hsearch hc with rfl | ⟨s, rfl⟩
        · exact ⟨false, (o.holds_null hless fold v).2⟩
        · obtain ⟨text, part, hholds⟩ := Operator.exists_holds_of_isSearch (w := .str s) hlong
            (fun h => nomatch h) hv.not_null rfl fold
          exact ⟨_, hholds o hsearch⟩

end Test

/-! ## Predicates -/

namespace Predicate

variable {s : FilterScope} {r : Record} {p : Predicate} {ps : List Predicate}

/-- A group has an answer if each of its members has. -/
theorem exists_accepts_group (h : ∀ p ∈ ps, ∃ b, p.accepts r = .ok b) (logic : Logic) :
    ∃ b, (group logic ps).accepts r = .ok b := by
  induction ps with
  | nil => cases logic <;> exact ⟨_, rfl⟩
  | cons p ps ih =>
      obtain ⟨⟨b, hp⟩, hps⟩ := List.forall_mem_cons.mp h
      obtain ⟨rest, hrest⟩ := ih hps
      cases logic with
      | all =>
          rw [accepts] at hrest
          rw [accepts, acceptsAll, hp]
          cases b with
          | true => exact ⟨rest, hrest⟩
          | false => exact ⟨false, rfl⟩
      | any =>
          rw [accepts] at hrest
          rw [accepts, acceptsAny, hp]
          cases b with
          | true => exact ⟨true, rfl⟩
          | false => exact ⟨rest, hrest⟩

/-- What is compiled for the members that count comes from members of the group. -/
theorem exists_of_mem_ofMembers {ms : List (Option Filter)} {limit : Nat}
    (hps : (ofMembers s limit ms).result = .ok ps) (hp : p ∈ ps) :
    ∃ f, some f ∈ ms ∧ (ofFilter s f).result = .ok p := by
  induction ms generalizing limit ps with
  | nil =>
      cases hps
      cases hp
  | cons m ms ih =>
      cases m with
      | none =>
          rw [ofMembers] at hps
          split at hps
          · cases hps
            cases hp
          · obtain ⟨f, hf, hresult⟩ := ih hps hp
            exact ⟨f, List.mem_cons_of_mem _ hf, hresult⟩
      | some f =>
          rw [ofMembers] at hps
          split at hps
          · cases hps
            cases hp
          · rw [Traced.result_bind] at hps
            obtain ⟨first, hfirst, hps⟩ := bind_eq_ok.mp hps
            rw [Traced.result_bind] at hps
            obtain ⟨rest, hrest, hps⟩ := bind_eq_ok.mp hps
            cases hps
            rcases List.mem_cons.mp hp with rfl | hp
            · exact ⟨f, List.mem_cons_self, hfirst⟩
            · obtain ⟨g, hg, hresult⟩ := ih hrest hp
              exact ⟨g, List.mem_cons_of_mem _ hg, hresult⟩

variable {e : Entity}

theorem exists_accepts_test (hs : s.fields = e.fields) {raw : Record} (hr : e.coerce raw = .ok r)
    (hshort : e.Short r) {t : Test} (hknown : (fieldNamed? s.fields t.fieldName).isSome)
    (hp : ofTest s t = .ok p) : ∃ b, p.accepts r = .ok b := by
  obtain ⟨f, hf⟩ := Option.isSome_iff_exists.mp hknown
  rw [ofTest] at hp
  cases ho : t.operator with
  | none =>
      rw [ho] at hp
      cases hp
  | some o =>
      simp only [ho, hf] at hp
      split at hp
      · obtain ⟨condition, hc, hp⟩ := bind_eq_ok.mp hp
        cases hp
        rw [hs] at hf
        have hlong : ¬ (Record.field r t.fieldName).HasLongInteger := by
          obtain ⟨hmem, hname⟩ := mem_of_fieldNamed? hf
          rw [← hname]
          exact hshort f hmem
        obtain ⟨v, hv, hholds, hshort'⟩ :
            ∃ v, f.coerce (Record.field r t.fieldName) = .ok v ∧ f.Holds v ∧ ¬ v.HasLongInteger := by
          rcases field?_coerceEntries hr t.fieldName with ⟨-, hnone⟩ | ⟨x, v, -, hsome, hx⟩
          · rw [Record.field, hnone]
            refine ⟨.null, rfl, .inl rfl, fun h => ?_⟩
            cases h
          · rw [Record.field, hsome] at hlong ⊢
            rw [hf] at hx
            exact Field.coerce_again hx hlong
        rw [accepts, coerceFor, hv]
        exact Test.exists_holds ho hc hholds hshort' _
      · cases hp

/-- A compiled filter has an answer about every record that came out of the fields. -/
theorem exists_accepts (hs : s.fields = e.fields) {raw : Record} (hr : e.coerce raw = .ok r)
    (hshort : e.Short r) {f : Filter}
    (hknown : f.AllTests fun t => (fieldNamed? s.fields t.fieldName).isSome)
    (hp : (ofFilter s f).result = .ok p) : ∃ b, p.accepts r = .ok b := by
  induction hknown generalizing p with
  | @leaf t logic ht =>
      rw [ofFilter, if_pos List.isEmpty_nil, Traced.result_ofResult] at hp
      exact exists_accepts_test hs hr hshort ht hp
  | @group t logic ms hne _ ih =>
      rw [result_ofFilter_group t logic hne] at hp
      obtain ⟨ps, hps, rfl⟩ := map_eq_ok hp
      refine exists_accepts_group (fun member hmember => ?_) logic
      obtain ⟨f, hf, hresult⟩ := exists_of_mem_ofMembers hps hmember
      exact ih f hf hresult

end Predicate

/-! ## Fetching -/

namespace FileService

variable {s : FileService} {file : File} {p : Predicate} {q : Query} {accepted : Record → Bool}
  {scan : List Record}

/-- A filter on fields that the entity knows, compiled for the records of a file, has an answer about
every record that writes can have put there, unless a long integer stands in one of its fields. So if none
does, there is one set of records that it accepts. A full scan selects these. A query without an order
shows a window of them wherever it ends, and fails only if the records of the file have no order by their
keys, which fails the full scan, too. -/
theorem never_fails (s : FileService) {file : File} {filter : Filter} {p : Predicate}
    (hbuilt : file.Built)
    (hknown : filter.AllTests fun t => (fieldNamed? file.entity.fields t.fieldName).isSome)
    (hp : (Predicate.ofFilter (s.scope file.entity) filter).result = .ok p) :
    (∀ r ∈ file.records, file.entity.Short r → ∃ b, p.accepts r = .ok b) ∧
    ((∀ r ∈ file.records, file.entity.Short r) → ∃ accepted : Record → Bool,
      (∀ r ∈ file.records, p.accepts r = .ok (accepted r)) ∧
      (∀ scan, file.scan = .ok scan → (select p scan).result = .ok (scan.filter accepted)) ∧
      ∀ q : Query, q.condition file.entity.fields = .ok (some filter) → q.sort = [] →
        (s.fetch file q).result = file.scan.map fun scan =>
          ⟨(window q (scan.filter accepted)).map file.entity.project,
            countIf q (scan.filter accepted).length⟩) := by
  have haccepts : ∀ r ∈ file.records, file.entity.Short r → ∃ b, p.accepts r = .ok b := by
    intro r hr hshort
    obtain ⟨raw, hraw⟩ := hbuilt.coerced r hr
    exact Predicate.exists_accepts rfl hraw hshort hknown hp
  refine ⟨haccepts, fun hshort => ?_⟩
  let accepted : Record → Bool := fun r => (p.accepts r).toOption.getD false
  have hanswers : ∀ r ∈ file.records, p.accepts r = .ok (accepted r) := by
    intro r hr
    obtain ⟨b, hb⟩ := haccepts r hr (hshort r hr)
    show p.accepts r = .ok ((p.accepts r).toOption.getD false)
    rw [hb]
    rfl
  have hscanned : ∀ {scan}, file.scan = .ok scan → ∀ r ∈ scan, p.accepts r = .ok (accepted r) := by
    intro scan hscan r hr
    exact hanswers r ((Sort.perm_of_sortBy hscan).subset hr)
  refine ⟨accepted, hanswers, fun scan hscan => ?_, fun q hq hsort => ?_⟩
  · rw [result_select, passing_of_accepts (hscanned hscan)]
    rfl
  · have hcompiled : (s.compile file.entity q).result = .ok p := by
      rw [compile, Traced.result_bind, Traced.result_ofResult, hq]
      exact hp
    rw [result_fetch, hcompiled]
    show (fetchWith file q p).2.result = _
    cases hscan : file.scan with
    | error fault =>
        rw [fetchWith.eq_def, hscan]
        rfl
    | ok scan =>
        rw [result_fetchWith hscan (hscanned hscan), arranged, if_pos hsort]
        rfl

/-- What was noted when, and how much it weighed. -/
def noteFields : List Field := [
  ⟨"Number", none, 0, 0, .numeric, true, true, false⟩,
  ⟨"At", none, 0, 0, .dateTime, false, false, false⟩,
  ⟨"Weight", none, 0, 0, .numeric, false, false, false⟩]

/-- The start of a day, two hours ahead of universal time or in local time. -/
def startOfDay (ahead : Bool) : Value :=
  .dateTime ⟨⟨2024, 5, 17, by decide⟩, Clock.midnight,
    if ahead then some ⟨7200000000, by decide⟩ else none⟩

def notes : File where
  entity := ⟨"Note", none, false, noteFields⟩
  records := [
    [("Number", .int 1), ("At", startOfDay true), ("Weight", .int 100)],
    [("Number", .int 2), ("At", startOfDay false), ("Weight", .null)]]

/-- Asks for a time before a moment with an offset and for a text in a number. The last member does not
count if only two do. -/
def noteFilter : Filter := .group .any [
  some (.leaf (.of "At" .lt (startOfDay true) false)),
  some (.leaf (.of "Weight" .contains (.int 0) true)),
  some (.leaf (.of "Number" .gt (.int 1) false))]

theorem never_fails_notes :
    notes.Built ∧
      (noteFilter.AllTests fun t => (fieldNamed? notes.entity.fields t.fieldName).isSome) ∧
      (∀ r ∈ notes.records, notes.entity.Short r) ∧
      ∃ p, (Predicate.ofFilter (FileService.scope ⟨false, Operator.all, false⟩ notes.entity)
          noteFilter).result = .ok p ∧
        ∃ accepted : Record → Bool, ∀ r ∈ notes.records, p.accepts r = .ok (accepted r) := by
  have hmade : File.ofRecords notes.entity notes.records = .ok notes := rfl
  have hknown :
      noteFilter.AllTests fun t => (fieldNamed? notes.entity.fields t.fieldName).isSome := by
    refine .group _ _ (by decide) fun f hf => ?_
    fin_cases hf <;> exact .leaf _ rfl
  have hshort : ∀ r ∈ notes.records, notes.entity.Short r := by
    intro r hr f hf
    fin_cases hr <;> fin_cases hf <;> intro h <;> cases h <;> contradiction
  obtain ⟨p, hp⟩ : ∃ p, (Predicate.ofFilter (FileService.scope ⟨false, Operator.all, false⟩
      notes.entity) noteFilter).result = .ok p := ⟨_, rfl⟩
  obtain ⟨accepted, haccepts, -⟩ := (never_fails _ (.ofRecords hmade) hknown hp).2 hshort
  exact ⟨.ofRecords hmade, hknown, hshort, p, hp, accepted, haccepts⟩

end FileService

end Rowgate
