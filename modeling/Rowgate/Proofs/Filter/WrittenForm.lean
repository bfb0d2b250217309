import Rowgate.Proofs.Query.Parsed
import Rowgate.Sql.FilterClause
import Rowgate.Store.Predicate

/-!
# The written form of a filter

A filter can be written, and as long as it is no higher than a filter that is read may be, it is read
back. What comes back is the tidied filter, so it is the filter itself exactly if it was tidy.
`Filter.survives` finds that out, since it compares the values of the tests for identity.

Nothing else changes on the way: a compiler looks at the test of a node without members and at the
logic of a node with members, and both are written. So the tidied filter is compiled to the very same
predicate, with the same warnings, and to the very same clause.
-/

namespace Rowgate

open Outcome Shape

namespace Filter

variable {f : Filter} {depth : Nat} {P : Test → Prop}

/-! ## How high a filter can be -/

mutual

/-- A filter that is read back, whatever comes back, is no higher than the nodes that may lie inside
each other. -/
theorem height_le_of_nodeOf : ∀ (f : Filter) {depth : Nat} {g : Filter},
    nodeOf depth f.toValue = .ok g → f.height ≤ depth
  | .node t logic members, depth, g, h => by
      cases depth with
      | zero =>
          rw [nodeOf] at h
          cases h
      | succ depth =>
          rw [height]
          refine Nat.succ_le_succ ?_
          cases members with
          | nil => exact Nat.zero_le depth
          | cons m ms =>
              rw [toValue, nodeOf] at h
              obtain ⟨-, -, ns, hmembers, -, -⟩ := ofParts_eq_ok h
              have hfrom : membersFrom depth 0 (memberValues (m :: ms)) = .ok ns :=
                within_eq_ok hmembers
              exact membersHeight_le_of_membersFrom (m :: ms) hfrom

theorem membersHeight_le_of_membersFrom : ∀ (ms : List (Option Filter)) {depth i : Nat}
    {ns : List (Option Filter)}, membersFrom depth i (memberValues ms) = .ok ns →
      membersHeight ms ≤ depth
  | [], depth, _, _, _ => Nat.zero_le depth
  | none :: ms, _, _, _, h => by
      rw [memberValues, membersFrom] at h
      obtain ⟨parts, hboth, -⟩ := bind_eq_ok.mp h
      exact membersHeight_le_of_membersFrom ms (both_eq_ok hboth).2
  | some f :: ms, _, _, _, h => by
      rw [memberValues, membersFrom] at h
      obtain ⟨parts, hboth, -⟩ := bind_eq_ok.mp h
      obtain ⟨hf, hms⟩ := both_eq_ok hboth
      obtain ⟨g, hg, -⟩ := map_eq_ok (within_eq_ok hf)
      exact max_le (height_le_of_nodeOf f hg) (membersHeight_le_of_membersFrom ms hms)

end

mutual

theorem height_tidied : ∀ f : Filter, f.tidied.height = f.height
  | .node t logic [] => rfl
  | .node t logic (m :: ms) => by
      rw [tidied, List.isEmpty_cons, if_neg Bool.false_ne_true, group, height, height,
        membersHeight_tidiedMembers (m :: ms)]

theorem membersHeight_tidiedMembers : ∀ ms : List (Option Filter),
    membersHeight (tidiedMembers ms) = membersHeight ms
  | [] => rfl
  | none :: ms => membersHeight_tidiedMembers ms
  | some f :: ms => by
      rw [tidiedMembers, membersHeight, membersHeight, height_tidied f,
        membersHeight_tidiedMembers ms]

end

/-! ## Tidy filters -/

theorem Tidy.tidied_eq_self (h : f.Tidy P) : f.tidied = f := by
  induction h with
  | leaf _ _ => rfl
  | @group logic ms hne _ ih =>
      have hmembers : ms.map (Option.map Filter.tidied) = ms.map id := by
        refine List.map_congr_left fun m hm => ?_
        cases m with
        | none => rfl
        | some f => exact congrArg some (ih f hm)
      rw [List.map_id] at hmembers
      rw [Filter.group, tidied_group .blank logic hne, hmembers, Filter.group]

/-- Of filters whose tests say what they test, the tidy ones are the ones that tidying leaves alone. -/
theorem AllTests.tidied_eq_self_iff (h : f.AllTests Test.Complete) :
    f.tidied = f ↔ f.Tidy fun _ => True := by
  constructor
  · intro heq
    rw [← heq]
    exact AllTests.tidy (h.imp fun _ ht => ⟨ht, trivial⟩)
  · exact Tidy.tidied_eq_self

/-! ## Reading it back -/

/-- A filter whose tests say what they test is read back without what has no effect, if it is no
higher than a filter that is read may be; otherwise nothing is read. -/
theorem AllTests.read_toValue_iff (h : f.AllTests Test.Complete) (g : Filter) :
    read f.toValue = .ok g ↔ f.height ≤ depthLimit ∧ g = f.tidied := by
  have htidy : f.tidied.Tidy fun _ => True := AllTests.tidy (h.imp fun _ ht => ⟨ht, trivial⟩)
  have hread : f.height ≤ depthLimit → read f.toValue = .ok f.tidied := by
    intro hheight
    have hback := nodeOf_toValue htidy (le_of_eq_of_le (height_tidied f) hheight)
    rw [toValue_tidied] at hback
    rw [read, ofValue, hback]
    rfl
  constructor
  · intro hg
    have hheight := height_le_of_nodeOf f (ok_of_mapError hg)
    refine ⟨hheight, ?_⟩
    rw [hread hheight] at hg
    exact (Except.ok.inj hg).symm
  · rintro ⟨hheight, rfl⟩
    exact hread hheight

/-- What the comparison of a filter with the one that is read back finds. -/
theorem AllTests.survives_eq_ok (h : f.AllTests Test.Complete) (hheight : f.height ≤ depthLimit) :
    ∃ same, f.survives = .ok same ∧ (same = true ↔ f.Tidy fun _ => True) := by
  refine ⟨f.tidied.agrees (· == ·) f, ?_, ?_⟩
  · rw [survives, (h.read_toValue_iff f.tidied).mpr ⟨hheight, rfl⟩]
    rfl
  · rw [agrees_same_iff, h.tidied_eq_self_iff]

end Filter

/-! ## What tidying does not change -/

namespace Predicate

mutual

/-- What has no effect does not matter where a filter is compiled for records. -/
theorem ofFilter_tidied (s : FilterScope) : ∀ f : Filter, ofFilter s f.tidied = ofFilter s f
  | .node t logic [] => rfl
  | .node t logic (m :: ms) => by
      rw [Filter.tidied, List.isEmpty_cons, if_neg Bool.false_ne_true, Filter.group, ofFilter,
        ofFilter, Filter.isEmpty_tidiedMembers, Filter.length_tidiedMembers, List.isEmpty_cons]
      simp only [ofMembers_tidied s _ (m :: ms)]
      rfl

theorem ofMembers_tidied (s : FilterScope) : ∀ (limit : Nat) (ms : List (Option Filter)),
    ofMembers s limit (Filter.tidiedMembers ms) = ofMembers s limit ms
  | _, [] => rfl
  | limit, none :: ms => by
      rw [Filter.tidiedMembers, ofMembers, ofMembers, ofMembers_tidied s (limit - 1) ms]
  | limit, some f :: ms => by
      rw [Filter.tidiedMembers, ofMembers, ofMembers, ofFilter_tidied s f,
        ofMembers_tidied s (limit - 1) ms]

end

end Predicate

namespace Sql.Clause

mutual

/-- What has no effect does not matter where a filter becomes a clause. -/
theorem ofFilter_tidied (s : ClauseScope) : ∀ f : Filter, ofFilter s f.tidied = ofFilter s f
  | .node t logic [] => rfl
  | .node t logic (m :: ms) => by
      rw [Filter.tidied, List.isEmpty_cons, if_neg Bool.false_ne_true, Filter.group, ofFilter,
        ofFilter, Filter.isEmpty_tidiedMembers, List.isEmpty_cons, ofMembers_tidied s (m :: ms)]
      rfl

theorem ofMembers_tidied (s : ClauseScope) : ∀ ms : List (Option Filter),
    ofMembers s (Filter.tidiedMembers ms) = ofMembers s ms
  | [] => rfl
  | none :: ms => by
      rw [Filter.tidiedMembers, ofMembers, ofMembers, ofMembers_tidied s ms]
  | some f :: ms => by
      rw [Filter.tidiedMembers, ofMembers, ofMembers, ofFilter_tidied s f, ofMembers_tidied s ms]

end

end Sql.Clause

/-! ## There and back -/

namespace Filter

variable {f : Filter} {P : Test → Prop}

/-- A filter whose tests say what they test, however high it is, is read back from its written form
exactly if at most `depthLimit` of its nodes lie inside each other, and then as the tidied filter, which
is the filter itself exactly if it is tidy. The tidied filter is compiled for records with the same fault
or to the same predicate, whether all members count or not, and with the same warnings; and for a table
with the same fault or to the same clause, so that texts and parameters of its statements are the same. -/
theorem read_back_as_tidied (h : f.AllTests Test.Complete) :
    (∀ g, read f.toValue = .ok g ↔ f.height ≤ depthLimit ∧ g = f.tidied) ∧
    (f.tidied = f ↔ f.Tidy fun _ => True) ∧
    (f.height ≤ depthLimit → ∃ same, f.survives = .ok same ∧ (same = true ↔ f.Tidy fun _ => True)) ∧
    (∀ s : FilterScope, Predicate.ofFilter s f.tidied = Predicate.ofFilter s f) ∧
    (∀ s : Sql.ClauseScope, Sql.Clause.ofFilter s f.tidied = Sql.Clause.ofFilter s f) :=
  ⟨h.read_toValue_iff, h.tidied_eq_self_iff, h.survives_eq_ok,
    fun s => Predicate.ofFilter_tidied s f, fun s => Sql.Clause.ofFilter_tidied s f⟩

/-- A group that names a field for nothing, with a test that has a logic for nothing. -/
def laxFilter : Filter := .node ⟨some "Name", none, .null, false⟩ .any [
  none, some (.node (.of "Price" .gt (.int 2) false) .any [])]

theorem read_back_as_tidied_lax : laxFilter.survives = .ok false ∧
    read laxFilter.toValue =
      .ok (.group .any [none, some (.leaf (.of "Price" .gt (.int 2) false))]) := by
  have hcomplete : laxFilter.AllTests Test.Complete := by
    refine .group _ _ (by simp) fun f hf => ?_
    obtain rfl : f = .node (.of "Price" .gt (.int 2) false) .any [] := by simpa using hf
    exact .leaf .any ⟨by decide, rfl⟩
  exact ⟨by rfl, ((read_back_as_tidied hcomplete).1 _).mpr ⟨by decide, rfl⟩⟩

/-! ### Filters that are too high -/

theorem height_wrapped (n : Nat) : (wrapped n).height = n + 1 := by
  induction n with
  | zero => rfl
  | succ n ih =>
      rw [wrapped, group, height, membersHeight, membersHeight, ih]
      rfl

theorem Tidy.allTests (h : f.Tidy P) : f.AllTests Test.Complete := by
  induction h with
  | leaf hcomplete _ => exact .leaf .all hcomplete
  | group hne _ ih => exact .group .blank _ hne ih

/-- A test inside as many groups as nodes may lie inside each other is a filter, and a tidy one, but
nothing is read back from what is written of it. -/
theorem wrapped_not_read_back :
    (wrapped depthLimit).AllTests Test.Complete ∧
    (wrapped depthLimit).tidied = wrapped depthLimit ∧
    ∀ g, read (wrapped depthLimit).toValue ≠ .ok g := by
  have htidy := tidy_wrapped depthLimit
  refine ⟨htidy.allTests, htidy.tidied_eq_self, fun g hg => ?_⟩
  have hheight := height_le_of_nodeOf _ (ok_of_mapError hg)
  rw [height_wrapped] at hheight
  exact absurd hheight (Nat.not_succ_le_self depthLimit)

end Filter

end Rowgate
