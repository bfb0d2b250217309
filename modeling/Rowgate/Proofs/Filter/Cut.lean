import Rowgate.Filter.Tree

/-!
# Filters that are cut

Where groups are combined two by two, only the first two members of each group count, missing ones
included. `Filter.cut` is what is left of a filter then. The cut goes on inside the members that are
left, and what lies in the others is gone with all its faults.

A filter can also be looked at node by node. `Filter.kept` are the nodes that are left, as they were
before the cut: they still have all of their members, so it shows which of them lost some.
-/

namespace Rowgate.Filter

mutual

/-- A filter with no more than the first two members of each group, missing ones counted. -/
def cut : Filter → Filter
  | .node t logic members => .node t logic ((cutMembers members).take 2)

/-- The members of a group, each of them cut. -/
def cutMembers : List (Option Filter) → List (Option Filter)
  | [] => []
  | none :: ms => none :: cutMembers ms
  | some f :: ms => some (cut f) :: cutMembers ms

end

mutual

/-- The nodes of a filter, each before its members. -/
def nodes : Filter → List Filter
  | .node t logic members => .node t logic members :: memberNodes members

/-- The nodes of the members of a group. -/
def memberNodes : List (Option Filter) → List Filter
  | [] => []
  | none :: ms => memberNodes ms
  | some f :: ms => nodes f ++ memberNodes ms

end

mutual

/-- The nodes of a filter that are left when it is cut, as they were before. -/
def kept : Filter → List Filter
  | .node t logic members => .node t logic members :: keptMembers 2 members

/-- The nodes that are left of the first members of a group. -/
def keptMembers (limit : Nat) : List (Option Filter) → List Filter
  | [] => []
  | none :: ms => if limit = 0 then [] else keptMembers (limit - 1) ms
  | some f :: ms => if limit = 0 then [] else kept f ++ keptMembers (limit - 1) ms

end

/-- Whether a group has more members than count in it. -/
def isCrowded (f : Filter) : Bool := 2 < f.members.length

theorem keptMembers_zero (ms : List (Option Filter)) : keptMembers 0 ms = [] := by
  cases ms with
  | nil => rfl
  | cons m ms => cases m <;> rfl

mutual

/-- The nodes of a filter that was cut are the ones that were left, each of them cut. -/
theorem nodes_cut : ∀ f : Filter, f.cut.nodes = f.kept.map cut
  | .node t logic members => by
      rw [cut, nodes, kept, List.map_cons, cut, memberNodes_cut 2 members]

theorem memberNodes_cut : ∀ (limit : Nat) (ms : List (Option Filter)),
    memberNodes ((cutMembers ms).take limit) = (keptMembers limit ms).map cut
  | 0, ms => by
      rw [List.take_zero, keptMembers_zero]
      rfl
  | limit + 1, [] => rfl
  | limit + 1, none :: ms => memberNodes_cut limit ms
  | limit + 1, some f :: ms => by
      rw [cutMembers, List.take_succ_cons, memberNodes, nodes_cut f, memberNodes_cut limit ms,
        ← List.map_append]
      rfl

end

mutual

/-- A filter in which no group is crowded is not changed by the cut. -/
theorem cut_eq_self : ∀ f : Filter, (∀ g ∈ f.nodes, g.isCrowded = false) → f.cut = f
  | .node t logic members, h => by
      rw [nodes] at h
      obtain ⟨hnode, hmembers⟩ := List.forall_mem_cons.mp h
      have hlength : members.length ≤ 2 := Nat.le_of_not_lt (of_decide_eq_false hnode)
      rw [cut, cutMembers_eq_self members hmembers, List.take_of_length_le hlength]

theorem cutMembers_eq_self : ∀ ms : List (Option Filter),
    (∀ g ∈ memberNodes ms, g.isCrowded = false) → cutMembers ms = ms
  | [], _ => rfl
  | none :: ms, h => congrArg (none :: ·) (cutMembers_eq_self ms h)
  | some f :: ms, h => by
      rw [memberNodes] at h
      obtain ⟨hf, hms⟩ := List.forall_mem_append.mp h
      rw [cutMembers, cut_eq_self f hf, cutMembers_eq_self ms hms]

end

end Rowgate.Filter
