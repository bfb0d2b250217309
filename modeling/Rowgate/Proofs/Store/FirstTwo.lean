import Rowgate.Proofs.Filter.Cut
import Rowgate.Proofs.Sql.Refused

/-!
# Only the first two members count

Unless all members of a group are wanted, a filter is compiled for records as if it had been cut
before: the same predicate comes out, or the same fault. So what lies behind the second member of a
group can neither select a record nor be at fault, however deep it lies, and where no group has more
than two members nothing is lost. For every group that loses members there is one warning, unless the
group is lost itself.

The operators are those of a `Registry`, which says what each of them makes of two values. Compiling
needs to know no more of it than which operators it has.
-/

namespace Rowgate

open Outcome

/-- The operators that a store has, and whether a value satisfies one of them with a condition. -/
structure Registry where
  operators : List Operator
  holds : Operator → Bool → Value → Value → Except Fault Bool

/-- The operators that every store has unless it is given others. -/
def Registry.standard : Registry := ⟨Operator.all, Operator.holds⟩

namespace Predicate

mutual

/-- Whether a record satisfies a predicate, its operators being those of a registry. -/
def acceptsBy (g : Registry) (r : Record) : Predicate → Except Fault Bool
  | .test name field operator condition fold =>
    match coerceFor field (Record.field r name) with
    | .ok v => g.holds operator fold v condition
    | .error f => .error (.value f)
  | .group .all ps => allAcceptBy g r ps
  | .group .any ps => anyAcceptsBy g r ps

def allAcceptBy (g : Registry) (r : Record) : List Predicate → Except Fault Bool
  | [] => .ok true
  | p :: ps => do if ← acceptsBy g r p then allAcceptBy g r ps else .ok false

/-- Whether a record satisfies one of the predicates. -/
def anyAcceptsBy (g : Registry) (r : Record) : List Predicate → Except Fault Bool
  | [] => .ok false
  | p :: ps => do if ← acceptsBy g r p then .ok true else anyAcceptsBy g r ps

end

mutual

theorem acceptsBy_standard (r : Record) : ∀ p : Predicate, acceptsBy .standard r p = accepts r p
  | .test name field operator condition fold => by rw [acceptsBy, accepts]; rfl
  | .group .all ps => by rw [acceptsBy, accepts, allAcceptBy_standard r ps]
  | .group .any ps => by rw [acceptsBy, accepts, anyAcceptsBy_standard r ps]

theorem allAcceptBy_standard (r : Record) : ∀ ps : List Predicate,
    allAcceptBy .standard r ps = acceptsAll r ps
  | [] => rfl
  | p :: ps => by rw [allAcceptBy, acceptsAll, acceptsBy_standard r p, allAcceptBy_standard r ps]

theorem anyAcceptsBy_standard (r : Record) : ∀ ps : List Predicate,
    anyAcceptsBy .standard r ps = acceptsAny r ps
  | [] => rfl
  | p :: ps => by rw [anyAcceptsBy, acceptsAny, acceptsBy_standard r p, anyAcceptsBy_standard r ps]

end

/-- What a filter asks of a record, in a mode in which all members of a group count or only the first
two. -/
def compiledBy (g : Registry) (fields : List Field) (allMembers : Bool) (f : Filter) :
    Traced (Record → Except Fault Bool) := do
  let p ← ofFilter ⟨fields, g.operators, allMembers⟩ f
  return fun r => acceptsBy g r p

theorem result_compiledBy (g : Registry) (fields : List Field) (allMembers : Bool) (f : Filter) :
    (compiledBy g fields allMembers f).result =
      (ofFilter ⟨fields, g.operators, allMembers⟩ f).result.map fun p r => acceptsBy g r p := by
  rw [compiledBy, Traced.result_bind]
  cases (ofFilter ⟨fields, g.operators, allMembers⟩ f).result <;> rfl

theorem log_compiledBy (g : Registry) (fields : List Field) (allMembers : Bool) (f : Filter) :
    (compiledBy g fields allMembers f).log = (ofFilter ⟨fields, g.operators, allMembers⟩ f).log := by
  rw [compiledBy, Traced.log_bind]
  cases (ofFilter ⟨fields, g.operators, allMembers⟩ f).result with
  | ok p => exact List.append_nil _
  | error fault => rfl

variable {fields : List Field} {operators : List Operator}

/-! ## What comes out -/

mutual

theorem result_ofFilter_cut : ∀ f : Filter,
    (ofFilter ⟨fields, operators, false⟩ f).result =
      (ofFilter ⟨fields, operators, true⟩ f.cut).result
  | .node t logic [] => rfl
  | .node t logic (m :: ms) => by
      have hcut : (Filter.cutMembers (m :: ms)).take 2 ≠ [] := by
        cases m <;> exact List.cons_ne_nil _ _
      rw [Filter.cut, result_ofFilter_group t logic (List.cons_ne_nil m ms),
        result_ofFilter_group t logic hcut]
      exact congrArg _ (result_ofMembers_cut 2 (m :: ms) (Nat.le_refl _))

/-- The members that count are the ones that are left, and none is left that does not count. -/
theorem result_ofMembers_cut : ∀ (limit : Nat) (ms : List (Option Filter)) {count : Nat},
    ((Filter.cutMembers ms).take limit).length ≤ count →
      (ofMembers ⟨fields, operators, false⟩ limit ms).result =
        (ofMembers ⟨fields, operators, true⟩ count ((Filter.cutMembers ms).take limit)).result
  | _, [], _, _ => by rw [Filter.cutMembers, List.take_nil, ofMembers, ofMembers]
  | 0, none :: ms, _, _ => by rw [List.take_zero, ofMembers, ofMembers, if_pos rfl]
  | 0, some f :: ms, _, _ => by rw [List.take_zero, ofMembers, ofMembers, if_pos rfl]
  | limit + 1, none :: ms, count, hcount => by
      rw [Filter.cutMembers, List.take_succ_cons] at hcount ⊢
      rw [List.length_cons] at hcount
      rw [ofMembers, ofMembers, if_neg (by omega), if_neg (by omega)]
      exact result_ofMembers_cut limit ms (by omega)
  | limit + 1, some f :: ms, count, hcount => by
      rw [Filter.cutMembers, List.take_succ_cons] at hcount ⊢
      rw [List.length_cons] at hcount
      rw [ofMembers, ofMembers, if_neg (by omega), if_neg (by omega)]
      simp only [Traced.result_bind]
      rw [result_ofFilter_cut f, Nat.add_sub_cancel,
        result_ofMembers_cut limit ms (show _ ≤ count - 1 by omega)]

end

/-- What is at fault when a test is compiled for records. -/
theorem blames_of_ofTest {s : FilterScope} {t : Test} {fault : Fault}
    (h : ofTest s t = .error fault) :
    (∃ message, fault = Filter.fault t.fieldName message) ∨
      t.operator.any Operator.isSearch = true ∧ t.value.HasLongInteger := by
  cases ho : t.operator with
  | none =>
      rw [ofTest, ho] at h
      cases h
      exact .inl ⟨_, rfl⟩
  | some o =>
      rw [ofTest, ho] at h
      by_cases hmem : s.operators.contains o = true
      · simp only [hmem, if_true] at h
        rcases bind_eq_error.mp h with h | ⟨_, _, h⟩
        · rw [← ho]
          exact ((Test.condition_eq_error_iff ho).mp h).blames
        · cases h
      · simp only [hmem] at h
        cases h
        exact .inl ⟨_, rfl⟩

/-! ## What is logged -/

/-- The warning about the members of a group that do not count. -/
def warning (g : Filter) : Entry := ⟨.files, .warning, dropped g.logic g.members.length⟩

theorem log_ofFilter_group (s : FilterScope) (t : Test) (logic : Logic) {ms : List (Option Filter)}
    (hne : ms ≠ []) :
    (ofFilter s (.node t logic ms)).log =
      (if FilterScope.limit s ms.length < ms.length then [warning (.node t logic ms)] else []) ++
        (ofMembers s (FilterScope.limit s ms.length) ms).log := by
  rw [ofFilter, if_neg (by simpa using hne)]
  by_cases hlimit : FilterScope.limit s ms.length < ms.length
  · simp only [hlimit, if_true, Traced.log_bind, Traced.result_note, Traced.log_note]
    cases (ofMembers s (FilterScope.limit s ms.length) ms).result with
    | ok ps => exact congrArg _ (List.append_nil _)
    | error fault => rfl
  · simp only [hlimit, if_false, Traced.log_bind, List.nil_append]
    cases (ofMembers s (FilterScope.limit s ms.length) ms).result with
    | ok ps => exact List.append_nil _
    | error fault => rfl

mutual

/-- Where all members count, nothing is logged. -/
theorem log_ofFilter_all {s : FilterScope} (hs : s.allMembers = true) : ∀ f : Filter,
    (ofFilter s f).log = []
  | .node t logic [] => rfl
  | .node t logic (m :: ms) => by
      have hlimit : FilterScope.limit s (m :: ms).length = (m :: ms).length := if_pos hs
      rw [log_ofFilter_group s t logic (List.cons_ne_nil m ms), hlimit,
        if_neg (Nat.lt_irrefl _), List.nil_append]
      exact log_ofMembers_all hs _ (m :: ms)

theorem log_ofMembers_all {s : FilterScope} (hs : s.allMembers = true) :
    ∀ (limit : Nat) (ms : List (Option Filter)), (ofMembers s limit ms).log = []
  | _, [] => rfl
  | limit, none :: ms => by
      rw [ofMembers]
      split
      · rfl
      · exact log_ofMembers_all hs (limit - 1) ms
  | limit, some f :: ms => by
      rw [ofMembers]
      split
      · rfl
      · simp only [Traced.log_bind, log_ofFilter_all hs f, log_ofMembers_all hs (limit - 1) ms]
        cases (ofFilter s f).result with
        | error fault => rfl
        | ok p => cases (ofMembers s (limit - 1) ms).result <;> rfl

end

mutual

/-- If a filter is compiled, the groups that are left and lost members are warned of, each of them
before what lies in it. -/
theorem log_ofFilter_kept : ∀ (f : Filter) {p : Predicate},
    (ofFilter ⟨fields, operators, false⟩ f).result = .ok p →
      (ofFilter ⟨fields, operators, false⟩ f).log = (f.kept.filter Filter.isCrowded).map warning
  | .node t logic [], _, _ => rfl
  | .node t logic (m :: ms), p, hp => by
      rw [result_ofFilter_group t logic (List.cons_ne_nil m ms)] at hp
      obtain ⟨ps, hps, -⟩ := map_eq_ok hp
      have hrest := log_ofMembers_kept 2 (m :: ms) hps
      rw [log_ofFilter_group _ t logic (List.cons_ne_nil m ms), Filter.kept]
      by_cases hcrowded : 2 < (m :: ms).length
      · have hnode : (Filter.node t logic (m :: ms)).isCrowded = true := decide_eq_true hcrowded
        rw [List.filter_cons_of_pos hnode, List.map_cons, ← hrest]
        exact congrArg (· ++ _) (if_pos hcrowded)
      · have hnode : ¬ (Filter.node t logic (m :: ms)).isCrowded = true := fun h =>
          hcrowded (of_decide_eq_true h)
        rw [List.filter_cons_of_neg hnode, ← hrest]
        exact congrArg (· ++ _) (if_neg hcrowded)

theorem log_ofMembers_kept : ∀ (limit : Nat) (ms : List (Option Filter)) {ps : List Predicate},
    (ofMembers ⟨fields, operators, false⟩ limit ms).result = .ok ps →
      (ofMembers ⟨fields, operators, false⟩ limit ms).log =
        ((Filter.keptMembers limit ms).filter Filter.isCrowded).map warning
  | _, [], _, _ => rfl
  | 0, none :: ms, _, _ => rfl
  | 0, some f :: ms, _, _ => rfl
  | limit + 1, none :: ms, _, hps => log_ofMembers_kept limit ms hps
  | limit + 1, some f :: ms, ps, hps => by
      rw [ofMembers, if_neg (by omega), Nat.add_sub_cancel] at hps ⊢
      rw [Traced.result_bind] at hps
      obtain ⟨p, hp, hps⟩ := bind_eq_ok.mp hps
      rw [Traced.result_bind] at hps
      obtain ⟨rest, hrest, -⟩ := bind_eq_ok.mp hps
      rw [Traced.log_bind, hp]
      show _ ++ Traced.log (_ >>= _) = _
      rw [Traced.log_bind, hrest, log_ofFilter_kept f hp, log_ofMembers_kept limit ms hrest]
      show _ ++ (_ ++ []) = _
      rw [List.append_nil, ← List.map_append, ← List.filter_append]
      rfl

end

/-! ## Both modes -/

/-- A filter of which the first two members of each group count is compiled like the filter that is
cut, of which all members count: with the same fault, or to what gives every record the same answer.
What is at fault is the filter, unless a text is looked for that cannot be written. For each node
that is left of the filter and has lost members there is one warning, and where all members count
there is none. The modes are the same where no group has more than two members. -/
theorem only_first_two_count (g : Registry) (fields : List Field) (f : Filter) :
    (compiledBy g fields false f).result = (compiledBy g fields true f.cut).result ∧
    (∀ fault, (compiledBy g fields false f).result = .error fault →
      (∃ errors, fault = .invalid .filter errors) ∨
        ∃ t ∈ f.cut.tests, t.operator.any Operator.isSearch = true ∧ t.value.HasLongInteger) ∧
    (∀ ask, (compiledBy g fields false f).result = .ok ask →
      (compiledBy g fields false f).log = (f.kept.filter Filter.isCrowded).map warning) ∧
    f.cut.nodes = f.kept.map Filter.cut ∧
    (compiledBy g fields true f).log = [] ∧
    ((∀ n ∈ f.nodes, n.isCrowded = false) →
      (compiledBy g fields false f).result = (compiledBy g fields true f).result) := by
  have hresult : ∀ f, (compiledBy g fields false f).result =
      (compiledBy g fields true (Filter.cut f)).result := fun f => by
    rw [result_compiledBy, result_compiledBy, result_ofFilter_cut]
  refine ⟨hresult f, fun fault hfault => ?_, fun ask hask => ?_, f.nodes_cut, ?_, fun hnodes => ?_⟩
  · rw [hresult, result_compiledBy, map_eq_error, ← error?_eq_some_iff, error?_ofFilter rfl] at hfault
    obtain ⟨t, ht, hfault⟩ := List.exists_of_findSome?_eq_some hfault
    rcases blames_of_ofTest (error?_eq_some_iff.mp hfault) with ⟨message, rfl⟩ | hlong
    · exact .inl ⟨_, rfl⟩
    · exact .inr ⟨t, ht, hlong⟩
  · rw [result_compiledBy] at hask
    obtain ⟨p, hp, -⟩ := map_eq_ok hask
    rw [log_compiledBy, log_ofFilter_kept f hp]
  · rw [log_compiledBy, log_ofFilter_all rfl]
  · rw [hresult, f.cut_eq_self hnodes]

/-- Goods that are free or have a name, with a group that has too many members and lies in another one,
and with faults behind the members that count. -/
def crowdedFilter : Filter := .group .any [
  some (.group .all [
    some (.leaf (.of "Price" .eq (.int 0) false)), none,
    some (.leaf (.of "Price" .gt (.str "dear") false))]),
  some (.leaf (.of "Name" .isNotEmpty .null false)),
  some (.group .all [none, none, some (.leaf (.of "Price" .lt (.list []) false))])]

/-- No fault comes out of what does not count, and there are two warnings: the third group is lost
itself. -/
theorem only_first_two_count_crowded :
    (∃ ask, (compiledBy .standard goods.fields false crowdedFilter).result = .ok ask) ∧
    (∀ ask, (compiledBy .standard goods.fields true crowdedFilter).result ≠ .ok ask) ∧
    (compiledBy .standard goods.fields false crowdedFilter).log = [
      ⟨.files, .warning, dropped .any 3⟩, ⟨.files, .warning, dropped .all 3⟩] :=
  ⟨⟨_, rfl⟩, fun _ => nofun,
    (only_first_two_count .standard goods.fields crowdedFilter).2.2.1 _ rfl⟩

/-- A look for a number with more digits than can be written is refused in both modes, but what they
blame is the number and not the filter. -/
theorem long_number_in_both_modes :
    (∀ allMembers,
      (compiledBy .standard goods.fields allMembers (numberedFilter (10 ^ 4300))).result =
        .error (.value (.integer .tooLongToWrite))) ∧
    ∀ errors, Fault.value (.integer .tooLongToWrite) ≠ .invalid .filter errors := by
  have hunfit := unfit_numbered (digitLimit_lt_pow (n := 4300) (by decide))
  generalize (10 ^ 4300 : Int) = number at hunfit ⊢
  refine ⟨fun allMembers => ?_, fun _ => nofun⟩
  have htest : ofTest ⟨goods.fields, Operator.all, allMembers⟩
      (.of "Name" .contains (.int number) false) = .error (.value (.integer .tooLongToWrite)) :=
    (Test.ofTest_file_eq_error_iff (e := goods) (complete_numbered number)).mpr (hunfit _)
  have hresult : (ofFilter ⟨goods.fields, Registry.standard.operators, allMembers⟩
      (numberedFilter number)).result = .error (.value (.integer .tooLongToWrite)) := htest
  rw [result_compiledBy, hresult]
  rfl

end Predicate

end Rowgate
