import Mathlib.Data.List.Basic
import Mathlib.Order.Lattice
import Rowgate.Proofs.Sort.Total

/-!
# What a sorted list is

A list that is sorted has the items that it was made of, and if the comparison goes by a rank in a
linear order, no item comes after one of a higher rank. Items that the comparison does not tell apart
stay as they were to each other: of any class of such items the sorted list has the same list. The
sort by insertion gives the list, so all this is proved of it, item by item; the sort by runs only has
to succeed.
-/

namespace Rowgate.Sort

open Outcome

variable {α β ε : Type} {isLess : α → α → Except ε Bool} {P : α → Prop} {x : α}
  {xs ys zs sorted : List α}

/-! ## The same items -/

theorem perm_of_insertDown (h : insertDown isLess x ys = .ok zs) : zs.Perm (x :: ys) := by
  induction ys generalizing zs with
  | nil =>
      cases h
      exact List.Perm.refl _
  | cons y ys ih =>
      rw [insertDown] at h
      obtain ⟨less, -, h⟩ := bind_eq_ok.mp h
      split at h
      · obtain ⟨rest, hrest, h⟩ := bind_eq_ok.mp h
        cases h
        exact ((ih hrest).cons y).trans (List.Perm.swap x y ys)
      · cases h
        exact List.Perm.refl _

theorem perm_of_insertAll (h : insertAll isLess sorted xs = .ok zs) : zs.Perm (xs ++ sorted) := by
  induction xs generalizing sorted with
  | nil =>
      cases h
      exact List.Perm.refl _
  | cons x xs ih =>
      rw [insertAll] at h
      obtain ⟨sorted', hsorted, h⟩ := bind_eq_ok.mp h
      calc zs.Perm (xs ++ sorted') := ih h
        _ |>.Perm (xs ++ x :: sorted) := (perm_of_insertDown hsorted).append_left xs
        _ |>.Perm (x :: xs ++ sorted) := List.perm_middle

theorem perm_of_insertion (h : insertion isLess xs = .ok zs) : zs.Perm xs := by
  rw [insertion] at h
  cases ha : insertAll isLess [] xs with
  | error e =>
      rw [ha] at h
      cases h
  | ok down =>
      rw [ha] at h
      cases h
      have hperm := perm_of_insertAll ha
      rw [List.append_nil] at hperm
      exact down.reverse_perm.trans hperm

/-! ## Success -/

theorem sure_insertDown (hdec : Decides P isLess) (hx : P x) (hys : ∀ y ∈ ys, P y) :
    Sure (fun zs => ∀ z ∈ zs, P z) (insertDown isLess x ys) := by
  induction ys with
  | nil => exact sure_ok (List.forall_mem_singleton.mpr hx)
  | cons y ys ih =>
      obtain ⟨hy, hrest⟩ := List.forall_mem_cons.mp hys
      rw [insertDown]
      refine (hdec x y hx hy).bind fun less _ => ?_
      split
      · exact (ih hrest).bind fun zs hzs => sure_ok (List.forall_mem_cons.mpr ⟨hy, hzs⟩)
      · exact sure_ok (List.forall_mem_cons.mpr ⟨hx, hys⟩)

theorem sure_insertAll (hdec : Decides P isLess) (hsorted : ∀ y ∈ sorted, P y)
    (hxs : ∀ x ∈ xs, P x) : Sure (fun _ => True) (insertAll isLess sorted xs) := by
  induction xs generalizing sorted with
  | nil => exact sure_ok trivial
  | cons x xs ih =>
      obtain ⟨hx, hrest⟩ := List.forall_mem_cons.mp hxs
      exact (sure_insertDown hdec hx hsorted).bind fun sorted' h => ih h hrest

/-- A list of items that can be compared with each other is sorted. -/
theorem sure_sortBy (hdec : Decides P isLess) (h : ∀ x ∈ xs, P x) :
    Sure (fun _ => True) (sortBy isLess xs) := by
  obtain ⟨runs, hruns, -⟩ := sure_byRuns hdec h
  rw [sortBy, hruns]
  exact (sure_insertAll hdec (List.forall_mem_nil P) h).map fun _ _ => trivial

theorem insertion_of_sortBy (h : sortBy isLess xs = .ok zs) : insertion isLess xs = .ok zs := by
  rw [sortBy] at h
  split at h
  · exact h
  · cases h

theorem perm_of_sortBy (h : sortBy isLess xs = .ok zs) : zs.Perm xs :=
  perm_of_insertion (insertion_of_sortBy h)

/-! ## Items that are not told apart -/

section Stable

variable {p : α → Bool}

/-- An item goes behind all items of a class whose members are not told apart, in a list that is read
from behind. -/
theorem filter_insertDown
    (hp : ∀ a b, isLess a b = .ok true → p a = true → p b = false)
    (h : insertDown isLess x ys = .ok zs) : zs.filter p = (x :: ys).filter p := by
  induction ys generalizing zs with
  | nil =>
      cases h
      rfl
  | cons y ys ih =>
      rw [insertDown] at h
      obtain ⟨less, hless, h⟩ := bind_eq_ok.mp h
      split at h
      · next hlt =>
          obtain ⟨rest, hrest, h⟩ := bind_eq_ok.mp h
          cases h
          have hxy : p x = true → p y = false := hp x y (hlt ▸ hless)
          rw [List.filter_cons, ih hrest, List.filter_cons, List.filter_cons, List.filter_cons]
          cases hx : p x with
          | true => rw [hxy hx]; rfl
          | false => rfl
      · cases h
        rfl

theorem filter_insertAll (hp : ∀ a b, isLess a b = .ok true → p a = true → p b = false)
    (h : insertAll isLess sorted xs = .ok zs) :
    zs.filter p = (xs.reverse ++ sorted).filter p := by
  induction xs generalizing sorted with
  | nil =>
      cases h
      rfl
  | cons x xs ih =>
      rw [insertAll] at h
      obtain ⟨sorted', hsorted, h⟩ := bind_eq_ok.mp h
      rw [ih h, List.filter_append, filter_insertDown hp hsorted, ← List.filter_append,
        List.reverse_cons, List.append_assoc, List.singleton_append]

/-- Sorting keeps the places of items to each other that the comparison does not tell apart. -/
theorem filter_of_sortBy (hp : ∀ a b, isLess a b = .ok true → p a = true → p b = false)
    (h : sortBy isLess xs = .ok zs) : zs.filter p = xs.filter p := by
  have hins := insertion_of_sortBy h
  rw [insertion] at hins
  cases ha : insertAll isLess [] xs with
  | error e =>
      rw [ha] at hins
      cases hins
  | ok down =>
      rw [ha] at hins
      cases hins
      rw [List.filter_reverse, filter_insertAll hp ha, List.append_nil, List.filter_reverse,
        List.reverse_reverse]

end Stable

/-! ## Items in the place of others -/

section Map

variable {isLess' : β → β → Except ε Bool} {g : α → β}

theorem insertDown_map (h : ∀ y ∈ ys, isLess' (g x) (g y) = isLess x y) :
    insertDown isLess' (g x) (ys.map g) = (insertDown isLess x ys).map (List.map g) := by
  induction ys with
  | nil => rfl
  | cons y ys ih =>
      obtain ⟨hy, hys⟩ := List.forall_mem_cons.mp h
      rw [List.map_cons, insertDown, insertDown, hy, ih hys]
      cases isLess x y with
      | error e => rfl
      | ok less =>
          cases less with
          | false => rfl
          | true =>
              show Except.bind _ _ = Except.map _ (Except.bind _ _)
              cases insertDown isLess x ys <;> rfl

theorem insertAll_map (h : ∀ a ∈ xs ++ sorted, ∀ b ∈ xs ++ sorted,
    isLess' (g a) (g b) = isLess a b) :
    insertAll isLess' (sorted.map g) (xs.map g) = (insertAll isLess sorted xs).map (List.map g) := by
  induction xs generalizing sorted with
  | nil => rfl
  | cons x xs ih =>
      have hx : x ∈ x :: xs ++ sorted := List.mem_cons_self
      have hsorted : ∀ y ∈ sorted, y ∈ x :: xs ++ sorted := fun y hy => List.mem_append_right _ hy
      rw [List.map_cons, insertAll, insertAll, insertDown_map fun y hy => h x hx y (hsorted y hy)]
      cases hdown : insertDown isLess x sorted with
      | error e => rfl
      | ok sorted' =>
          have hmem : ∀ a ∈ xs ++ sorted', a ∈ x :: xs ++ sorted := fun a ha => by
            rw [List.cons_append, ← List.perm_middle.mem_iff]
            exact ((perm_of_insertDown hdown).append_left xs).mem_iff.mp ha
          exact ih fun a ha b hb => h a (hmem a ha) b (hmem b hb)

/-- A comparison that does not tell items from others sorts the others in the same way. -/
theorem insertion_map (h : ∀ a ∈ xs, ∀ b ∈ xs, isLess' (g a) (g b) = isLess a b) :
    insertion isLess' (xs.map g) = (insertion isLess xs).map (List.map g) := by
  have hall : insertAll isLess' ([].map g) (xs.map g) = (insertAll isLess [] xs).map (List.map g) :=
    insertAll_map (by rwa [List.append_nil])
  rw [insertion, insertion, ← List.map_nil (f := g), hall]
  cases insertAll isLess [] xs with
  | error e => rfl
  | ok down => exact congrArg Except.ok (List.map_reverse).symm

end Map

/-! ## The order -/

section Order

variable [LinearOrder β] {rank : α → β}

/-- A list in which no item has a higher rank than one before it. -/
def Downward (rank : α → β) (xs : List α) : Prop := xs.Pairwise fun a b => rank b ≤ rank a

theorem downward_of_insertDown
    (hrank : ∀ y ∈ ys, ∀ b, isLess x y = .ok b → b = decide (rank x < rank y))
    (hys : Downward rank ys) (h : insertDown isLess x ys = .ok zs) : Downward rank zs := by
  induction ys generalizing zs with
  | nil =>
      cases h
      exact List.pairwise_singleton _ x
  | cons y ys ih =>
      obtain ⟨hfirst, hrest⟩ := List.pairwise_cons.mp hys
      rw [insertDown] at h
      obtain ⟨less, hless, h⟩ := bind_eq_ok.mp h
      have hdecide := hrank y List.mem_cons_self less hless
      split at h
      · next hlt =>
          obtain ⟨rest, hinsert, h⟩ := bind_eq_ok.mp h
          cases h
          have hxy : rank x < rank y := of_decide_eq_true (hdecide ▸ hlt)
          refine List.pairwise_cons.mpr ⟨fun z hz => ?_,
            ih (fun z hz => hrank z (List.mem_cons_of_mem y hz)) hrest hinsert⟩
          rcases List.mem_cons.mp ((perm_of_insertDown hinsert).mem_iff.mp hz) with rfl | hz
          · exact le_of_lt hxy
          · exact hfirst z hz
      · next hge =>
          cases h
          have hyx : rank y ≤ rank x := by
            rw [hdecide, decide_eq_true_eq] at hge
            exact not_lt.mp hge
          refine List.pairwise_cons.mpr ⟨fun z hz => ?_, hys⟩
          rcases List.mem_cons.mp hz with rfl | hz
          · exact hyx
          · exact le_trans (hfirst z hz) hyx

theorem downward_of_insertAll
    (hrank : ∀ a ∈ xs ++ sorted, ∀ b ∈ xs ++ sorted, ∀ t, isLess a b = .ok t →
      t = decide (rank a < rank b))
    (hsorted : Downward rank sorted) (h : insertAll isLess sorted xs = .ok zs) :
    Downward rank zs := by
  induction xs generalizing sorted with
  | nil =>
      cases h
      exact hsorted
  | cons x xs ih =>
      rw [insertAll] at h
      obtain ⟨sorted', hinsert, h⟩ := bind_eq_ok.mp h
      have hmem : ∀ z ∈ xs ++ sorted', z ∈ x :: xs ++ sorted := by
        intro z hz
        have hperm := ((perm_of_insertDown hinsert).append_left xs).trans List.perm_middle
        exact hperm.mem_iff.mp hz
      refine ih (fun a ha b hb => hrank a (hmem a ha) b (hmem b hb)) ?_ h
      refine downward_of_insertDown (fun y hy => ?_) hsorted hinsert
      exact hrank x List.mem_cons_self y (List.mem_append_right _ hy)

/-- In a sorted list no item comes after one of a higher rank. -/
theorem pairwise_of_sortBy
    (hrank : ∀ a ∈ xs, ∀ b ∈ xs, ∀ t, isLess a b = .ok t → t = decide (rank a < rank b))
    (h : sortBy isLess xs = .ok zs) : zs.Pairwise fun a b => rank a ≤ rank b := by
  have hins := insertion_of_sortBy h
  rw [insertion] at hins
  cases ha : insertAll isLess [] xs with
  | error e =>
      rw [ha] at hins
      cases hins
  | ok down =>
      rw [ha] at hins
      cases hins
      refine List.pairwise_reverse.mpr (downward_of_insertAll ?_ List.Pairwise.nil ha)
      simpa using hrank

end Order

end Rowgate.Sort
