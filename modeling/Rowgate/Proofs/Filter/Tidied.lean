import Rowgate.Proofs.Filter.RoundTrip
import Rowgate.Proofs.Value.Respelling

/-!
# Filters without what has no effect

A filter that a client sends may say more than matters: a group can have the parts of a test, and a
test a logic. The written form leaves that out, so it is the tidied filter that is read back. Only the
tests that matter count for what a filter means, and `Filter.AllTests` is about these alone.
-/

namespace Rowgate.Filter

/-- Whether all tests of a filter that have an effect satisfy `P`. -/
inductive AllTests (P : Test → Prop) : Filter → Prop
  | leaf {t : Test} (logic : Logic) (h : P t) : AllTests P (.node t logic [])
  | group (t : Test) (logic : Logic) {members : List (Option Filter)} (hne : members ≠ [])
      (h : ∀ f, some f ∈ members → AllTests P f) : AllTests P (.node t logic members)

mutual

/-- A filter without the parts that have no effect. -/
def tidied : Filter → Filter
  | .node t logic members => if members.isEmpty then leaf t else group logic (tidiedMembers members)

/-- The members of a group without parts that have no effect. -/
def tidiedMembers : List (Option Filter) → List (Option Filter)
  | [] => []
  | none :: ms => none :: tidiedMembers ms
  | some f :: ms => some (tidied f) :: tidiedMembers ms

end

variable {P Q R : Test → Prop} {f : Filter}

theorem tidiedMembers_eq_map (ms : List (Option Filter)) :
    tidiedMembers ms = ms.map (Option.map tidied) := by
  induction ms with
  | nil => rfl
  | cons m ms ih => cases m <;> exact congrArg (_ :: ·) ih

theorem length_tidiedMembers (ms : List (Option Filter)) : (tidiedMembers ms).length = ms.length := by
  rw [tidiedMembers_eq_map, List.length_map]

theorem isEmpty_tidiedMembers (ms : List (Option Filter)) :
    (tidiedMembers ms).isEmpty = ms.isEmpty := by
  rw [tidiedMembers_eq_map, List.isEmpty_map]

theorem tidied_group (t : Test) (logic : Logic) {ms : List (Option Filter)} (h : ms ≠ []) :
    (node t logic ms).tidied = group logic (ms.map (Option.map tidied)) := by
  rw [tidied, if_neg (by simpa using h), tidiedMembers_eq_map]

theorem AllTests.imp (h : f.AllTests P) (hPQ : ∀ t, P t → Q t) : f.AllTests Q := by
  induction h with
  | leaf logic ht => exact .leaf logic (hPQ _ ht)
  | group t logic hne _ ih => exact .group t logic hne ih

theorem AllTests.and (hP : f.AllTests P) (hQ : f.AllTests Q) : f.AllTests fun t => P t ∧ Q t := by
  induction hP with
  | leaf logic ht =>
      cases hQ with
      | leaf _ ht' => exact .leaf logic ⟨ht, ht'⟩
      | group _ _ hne _ => exact absurd rfl hne
  | group t logic hne _ ih =>
      cases hQ with
      | leaf _ _ => exact absurd rfl hne
      | group _ _ _ h' => exact .group t logic hne fun g hg => ih g hg (h' g hg)

/-- A filter whose tests say what they test is tidy without the parts that have no effect. -/
theorem AllTests.tidy (h : f.AllTests fun t => t.Complete ∧ P t) : f.tidied.Tidy P := by
  induction h with
  | leaf logic ht => exact .leaf ht.1 ht.2
  | @group t logic ms hne _ ih =>
      rw [tidied_group t logic hne]
      refine .group (by simpa using hne) fun g hg => ?_
      obtain ⟨m, hm, heq⟩ := List.mem_map.mp hg
      obtain ⟨f, rfl, rfl⟩ := Option.map_eq_some_iff.mp heq
      exact ih f hm

/-- The tests of a filter that is read back are those of the filter, read back. -/
theorem AllTests.reread (h : f.AllTests P) (hPQ : ∀ t, P t → Q t.reread) :
    f.tidied.reread.AllTests Q := by
  induction h with
  | leaf logic ht => exact .leaf .all (hPQ _ ht)
  | @group t logic ms hne _ ih =>
      rw [tidied_group t logic hne, Filter.group, Filter.reread, rereadMembers_eq_map, List.map_map]
      refine .group _ _ (by simpa using hne) fun g hg => ?_
      obtain ⟨m, hm, heq⟩ := List.mem_map.mp hg
      cases m with
      | none => cases heq
      | some f =>
          cases heq
          exact ih f hm

mutual

/-- What has no effect is not written. -/
theorem toValue_tidied : ∀ f : Filter, f.tidied.toValue = f.toValue
  | .node t logic [] => rfl
  | .node t logic (m :: ms) => by
      rw [tidied, List.isEmpty_cons, if_neg Bool.false_ne_true, group, toValue, toRecord,
        isEmpty_tidiedMembers, List.isEmpty_cons, if_neg Bool.false_ne_true,
        memberValues_tidied (m :: ms)]
      rfl

theorem memberValues_tidied : ∀ ms : List (Option Filter),
    memberValues (tidiedMembers ms) = memberValues ms
  | [] => rfl
  | none :: ms => congrArg (Value.null :: ·) (memberValues_tidied ms)
  | some f :: ms => by
      have hf : Value.dict f.tidied.toRecord = .dict f.toRecord := toValue_tidied f
      rw [tidiedMembers, memberValues, memberValues, hf, memberValues_tidied ms]

end

/-- The written form of a filter that is read back is as deep as the one that was written. -/
theorem depth_reread_tidied (f : Filter) : f.tidied.reread.toValue.depth = f.toValue.depth := by
  rw [← reread_toValue, Value.depth_reread, toValue_tidied]

end Rowgate.Filter
