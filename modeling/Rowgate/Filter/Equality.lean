import Rowgate.Filter.Tree
import Rowgate.Value.Order

/-!
# Equality of filters

Two filters are equal if they agree in every part of every node, the parts without effect included.
What it means for two values to agree is a parameter: usually `Value.equals`, but a filter that is
read back agrees with the first in the values themselves.
-/

namespace Rowgate

def Test.agrees (same : Value → Value → Bool) (s t : Test) : Bool :=
  s.field == t.field && s.operator == t.operator && same s.value t.value &&
    s.ignoreCase == t.ignoreCase

/-- Tests that agree in the value itself are the same. -/
theorem Test.agrees_same_iff {s t : Test} : s.agrees (· == ·) t = true ↔ s = t := by
  obtain ⟨field, operator, value, ignoreCase⟩ := s
  obtain ⟨field', operator', value', ignoreCase'⟩ := t
  simp only [Test.agrees, Bool.and_eq_true, beq_iff_eq, Test.mk.injEq, and_assoc]

namespace Filter

mutual

/-- Whether two filters agree in every part of every node. -/
def agrees (same : Value → Value → Bool) : Filter → Filter → Bool
  | .node s l ms, g =>
    s.agrees same g.test && l == g.logic && membersAgree same ms g.members

/-- Whether two lists of members agree one by one. -/
def membersAgree (same : Value → Value → Bool) : List (Option Filter) → List (Option Filter) → Bool
  | [], ns => ns.isEmpty
  | none :: ms, ns => match ns with
    | none :: ns => membersAgree same ms ns
    | _ => false
  | some f :: ms, ns => match ns with
    | some g :: ns => agrees same f g && membersAgree same ms ns
    | _ => false

end

mutual

/-- Filters that agree in the values themselves are the same. -/
theorem agrees_same_iff : ∀ f g : Filter, f.agrees (· == ·) g = true ↔ f = g
  | .node t logic ms, .node t' logic' ms' => by
      rw [agrees, Bool.and_eq_true, Bool.and_eq_true, test, Test.agrees_same_iff, Filter.logic,
        beq_iff_eq, members, membersAgree_same_iff ms ms', node.injEq, and_assoc]

theorem membersAgree_same_iff : ∀ ms ns : List (Option Filter),
    membersAgree (· == ·) ms ns = true ↔ ms = ns
  | [], ns => by rw [membersAgree, List.isEmpty_iff, eq_comm]
  | none :: ms, [] => by simp [membersAgree]
  | none :: ms, none :: ns => by
      rw [membersAgree, membersAgree_same_iff ms ns, List.cons.injEq, and_iff_right rfl]
  | none :: ms, some g :: ns => by simp [membersAgree]
  | some f :: ms, [] => by simp [membersAgree]
  | some f :: ms, none :: ns => by simp [membersAgree]
  | some f :: ms, some g :: ns => by
      rw [membersAgree, Bool.and_eq_true, agrees_same_iff f g, membersAgree_same_iff ms ns,
        List.cons.injEq, Option.some.injEq]

end

instance : DecidableEq Filter := fun f g => decidable_of_iff _ (agrees_same_iff f g)

mutual

/-- Whether the comparison of two filters meets two values that cannot be compared. Parts are
compared in order, and nothing is compared after a difference. -/
def refusesEquality : Filter → Filter → Bool
  | .node s l ms, g =>
    s.field == g.test.field && s.operator == g.test.operator &&
      (Value.refusesEquality s.value g.test.value ||
        (s.agrees Value.equals g.test && l == g.logic && ms.length == g.members.length &&
          membersRefuse ms g.members))

/-- Whether the comparison of two lists of members meets such values. -/
def membersRefuse : List (Option Filter) → List (Option Filter) → Bool
  | some f :: ms, some g :: ns =>
    refusesEquality f g || (agrees Value.equals f g && membersRefuse ms ns)
  | none :: ms, none :: ns => membersRefuse ms ns
  | _, _ => false

end

def equals (f g : Filter) : Except Fault Bool :=
  if refusesEquality f g then .error (.order .notANumber) else .ok (agrees Value.equals f g)

/-- Whether a filter is the one that is read back from its written form. -/
def survives (f : Filter) : Except Fault Bool :=
  (read f.toValue).map fun g => agrees (· == ·) g f

end Filter

end Rowgate
