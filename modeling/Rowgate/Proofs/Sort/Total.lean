import Rowgate.Proofs.Outcome
import Rowgate.Sort.Runs

/-!
# Sorting succeeds where comparing does

The sort by runs compares items in an order that only matters when comparisons fail. Here they do
not: `Decides P isLess` says that any two items with the property `P` can be compared. Every part of
the sort then comes to a result, and whatever it hands on has the property too, because it is made of
the items that it was given. How many places a search finds does not matter for that, so nothing is
said of the searches except that they end.
-/

namespace Rowgate.Sort

open Outcome

variable {α ε : Type}

/-- Whether any two items with a property can be compared. -/
def Decides (P : α → Prop) (isLess : α → α → Except ε Bool) : Prop :=
  ∀ a b, P a → P b → Sure (fun _ => True) (isLess a b)

/-- Whether a test answers at every place. -/
def Answers (test : Nat → Except ε Bool) : Prop := ∀ i, Sure (fun _ => True) (test i)

/-! ## Searches -/

section Searches

variable {test : Nat → Except ε Bool}

theorem sure_halve (h : Answers test) (low high : Nat) :
    Sure (fun _ => True) (halve test low high) := by
  induction low, high using halve.induct with
  | case1 low high hlt middle ih₁ ih₂ =>
      rw [halve, if_pos hlt]
      refine (h middle).bind fun b _ => ?_
      cases b with
      | true => exact ih₁
      | false => exact ih₂
  | case2 low high hlt =>
      rw [halve, if_neg hlt]
      exact sure_ok trivial

theorem sure_stride (h : Answers test) (bound last next : Nat) :
    Sure (fun _ => True) (stride test bound last next) := by
  induction last, next using stride.induct bound with
  | case1 last next hlt ih =>
      rw [stride, if_pos hlt]
      refine (h next).bind fun b _ => ?_
      cases b with
      | true => exact ih
      | false => exact sure_ok trivial
  | case2 last next hlt =>
      rw [stride, if_neg hlt]
      exact sure_ok trivial

theorem sure_gallop (h : Answers test) (count near : Nat) :
    Sure (fun _ => True) (gallop test count near) := by
  refine (h near).bind fun b _ => ?_
  cases b with
  | true =>
      refine (sure_stride (fun d => h (near + d)) _ _ _).bind fun found _ => ?_
      exact sure_halve h _ _
  | false =>
      -- Going backwards, the search is for the first place that answers no.
      have hnot : Answers fun d => (test (near - d)).map (!·) :=
        fun d => (h (near - d)).map fun _ _ => trivial
      refine (sure_stride hnot _ _ _).bind fun found _ => ?_
      exact sure_halve h _ _

end Searches

/-! ## Merging -/

section Merging

variable {P : α → Prop} {isLess : α → α → Except ε Bool}

theorem answers_testAt {test : α → Except ε Bool} {xs : List α}
    (h : ∀ x ∈ xs, Sure (fun _ => True) (test x)) : Answers (testAt test xs) := by
  intro i
  rw [testAt]
  cases hx : xs[i]? with
  | none => exact sure_ok trivial
  | some x => exact h x (List.mem_of_getElem? hx)

theorem sure_winners {side : Side} {before : α → Except ε Bool} {xs : List α}
    (h : ∀ x ∈ xs, Sure (fun _ => True) (before x)) :
    Sure (fun _ => True) (winners side before xs) := by
  cases side with
  | left => exact sure_gallop (answers_testAt h) _ _
  | right =>
      have hback : ∀ x ∈ xs.reverse, Sure (fun _ => True) (before x) :=
        fun x hx => h x (List.mem_reverse.mp hx)
      exact (sure_gallop (answers_testAt hback) _ _).bind fun _ _ => sure_ok trivial

/-- Whether all items of a front have a property. -/
def Front.Has (P : α → Prop) (f : Front α) : Prop :=
  (∀ x ∈ f.taken, P x) ∧ (∀ x ∈ f.first, P x) ∧ ∀ x ∈ f.second, P x

theorem Front.Has.takeFirst {f : Front α} (h : f.Has P) (count : Nat) :
    (f.takeFirst count).Has P := by
  refine ⟨fun x hx => ?_, fun x hx => h.2.1 x (List.mem_of_mem_drop hx), h.2.2⟩
  rcases List.mem_append.mp hx with hx | hx
  · exact h.2.1 x (List.mem_of_mem_take (List.mem_reverse.mp hx))
  · exact h.1 x hx

theorem Front.Has.takeSecond {f : Front α} (h : f.Has P) (count : Nat) :
    (f.takeSecond count).Has P := by
  refine ⟨fun x hx => ?_, h.2.1, fun x hx => h.2.2 x (List.mem_of_mem_drop hx)⟩
  rcases List.mem_append.mp hx with hx | hx
  · exact h.2.2 x (List.mem_of_mem_take (List.mem_reverse.mp hx))
  · exact h.1 x hx

theorem Front.mem_rest {f : Front α} {side : Side} {x : α}
    (h : x ∈ (f.rest? side).getD (f.first ++ f.second)) : x ∈ f.first ∨ x ∈ f.second := by
  obtain ⟨taken, first, second⟩ := f
  rw [rest?.eq_def] at h
  dsimp only at h ⊢
  split at h
  · exact .inr h
  · exact .inl h
  · exact (List.mem_append.mp h).symm
  · exact List.mem_append.mp h
  · exact List.mem_append.mp h

theorem Front.Has.all {f : Front α} (h : f.Has P) (side : Side) : ∀ x ∈ f.all side, P x := by
  have hitems : ∀ x ∈ f.taken.reverse ++ (f.rest? side).getD (f.first ++ f.second), P x := by
    intro x hx
    rcases List.mem_append.mp hx with hx | hx
    · exact h.1 x (List.mem_reverse.mp hx)
    · exact (Front.mem_rest hx).elim (h.2.1 x) (h.2.2 x)
  intro x hx
  cases side with
  | left => exact hitems x hx
  | right => exact hitems x (List.mem_reverse.mp hx)

theorem Front.Has.unlessFinished {f : Front α} {step : Front α → Front α} {side : Side}
    (h : f.Has P) (hstep : (step f).Has P) : (f.unlessFinished side step).Has P := by
  rw [Front.unlessFinished]
  split
  · exact h
  · exact hstep

variable (hdec : Decides P isLess)

include hdec

theorem sure_leapFirst {side : Side} {f : Front α} (h : f.Has P) :
    Sure (fun out => out.2.Has P) (leapFirst isLess side f) := by
  rw [leapFirst]
  split
  · next y ys hfin hsecond =>
      have hy : P y := h.2.2 y (by rw [hsecond]; exact List.mem_cons_self)
      have htest : ∀ x ∈ f.first, Sure (fun _ => True) ((isLess y x).map (!·)) :=
        fun x hx => (hdec y x hy (h.2.1 x hx)).map fun _ _ => trivial
      exact (sure_winners htest).bind fun count _ => sure_ok (h.takeFirst count)
  · exact sure_ok h

theorem sure_leapSecond {side : Side} {f : Front α} (h : f.Has P) :
    Sure (fun out => out.2.Has P) (leapSecond isLess side f) := by
  rw [leapSecond]
  split
  · next x xs hfin hfirst =>
      have hx : P x := h.2.1 x (by rw [hfirst]; exact List.mem_cons_self)
      exact (sure_winners fun y hy => hdec y x (h.2.2 y hy) hx).bind
        fun count _ => sure_ok (h.takeSecond count)
  · exact sure_ok h

theorem sure_mergeFront (side : Side) (fuel patience : Nat) (pace : Pace) {f : Front α}
    (h : f.Has P) :
    Sure (fun out => ∀ x ∈ out.1, P x) (mergeFront isLess side fuel patience pace f) := by
  induction fuel generalizing patience pace f with
  | zero => exact sure_ok (h.all side)
  | succ fuel ih =>
      rw [mergeFront.eq_def]
      dsimp only
      -- The merge goes on by single items, or by a leap on either side, or one side is used up.
      split
      · next firstWins secondWins x xs y ys hfin hfirst hsecond =>
          have hx : P x := h.2.1 x (by rw [hfirst]; exact List.mem_cons_self)
          have hy : P y := h.2.2 y (by rw [hsecond]; exact List.mem_cons_self)
          refine (hdec y x hy hx).bind fun less _ => ?_
          split
          · split
            · exact ih _ _ (h.takeSecond 1)
            · exact ih _ _ (h.takeSecond 1)
          · split
            · exact ih _ _ (h.takeFirst 1)
            · exact ih _ _ (h.takeFirst 1)
      · refine (sure_leapFirst hdec h).bind fun out hout => ?_
        obtain ⟨firstCount, f₁⟩ := out
        have h₁ : (f₁.unlessFinished side (Front.takeSecond 1)).Has P :=
          hout.unlessFinished (hout.takeSecond 1)
        refine (sure_leapSecond hdec h₁).bind fun out hout => ?_
        obtain ⟨secondCount, f₂⟩ := out
        have h₂ : (f₂.unlessFinished side (Front.takeFirst 1)).Has P :=
          hout.unlessFinished (hout.takeFirst 1)
        dsimp only
        split
        · exact ih _ _ h₂
        · exact ih _ _ h₂
      · exact sure_ok (h.all side)

theorem sure_mergeOverlap (patience : Nat) {xs ys : List α} (hxs : ∀ x ∈ xs, P x)
    (hys : ∀ y ∈ ys, P y) :
    Sure (fun out => ∀ x ∈ out.1, P x) (mergeOverlap isLess patience xs ys) := by
  have hleft : (⟨[], xs, ys⟩ : Front α).Has P := ⟨fun _ h => (nomatch h), hxs, hys⟩
  have hright : (⟨[], xs.reverse, ys.reverse⟩ : Front α).Has P :=
    ⟨fun _ h => (nomatch h), fun x hx => hxs x (List.mem_reverse.mp hx),
      fun y hy => hys y (List.mem_reverse.mp hy)⟩
  rw [mergeOverlap]
  split
  · exact sure_mergeFront hdec .left _ _ _ (hleft.takeSecond 1)
  · exact sure_mergeFront hdec .right _ _ _ (hright.takeFirst 1)

theorem sure_merge (patience : Nat) {xs ys : List α} (hxs : ∀ x ∈ xs, P x)
    (hys : ∀ y ∈ ys, P y) :
    Sure (fun out => ∀ x ∈ out.1, P x) (merge isLess patience xs ys) := by
  have happend : ∀ x ∈ xs ++ ys, P x := fun x hx => (List.mem_append.mp hx).elim (hxs x) (hys x)
  rw [merge.eq_def]
  cases ys with
  | nil => exact sure_ok hxs
  | cons y ys =>
      have hy : P y := hys y List.mem_cons_self
      have hbefore : ∀ x ∈ xs, Sure (fun _ => True) ((isLess y x).map (!·)) :=
        fun x hx => (hdec y x hy (hxs x hx)).map fun _ _ => trivial
      refine (sure_gallop (answers_testAt hbefore) _ _).bind fun before _ => ?_
      cases hlast : (xs.drop before).getLast? with
      | none => exact sure_ok happend
      | some x =>
          have hx : P x := hxs x (List.mem_of_mem_drop (List.mem_of_getLast? hlast))
          have hwithin := fun z hz => hdec z x (hys z hz) hx
          refine (sure_gallop (answers_testAt hwithin) _ _).bind fun within _ => ?_
          split
          · exact sure_ok happend
          · refine (sure_mergeOverlap hdec patience
              (fun z hz => hxs z (List.mem_of_mem_drop hz))
              fun z hz => hys z (List.mem_of_mem_take hz)).bind fun out hout => ?_
            refine sure_ok fun z hz => ?_
            rw [List.mem_append, List.mem_append] at hz
            rcases hz with (hz | hz) | hz
            · exact hxs z (List.mem_of_mem_take hz)
            · exact hout z hz
            · exact hys z (List.mem_of_mem_drop hz)

end Merging

/-! ## Runs -/

section Runs

variable {P : α → Prop} {isLess : α → α → Except ε Bool} (hdec : Decides P isLess)

include hdec

theorem sure_runFrom (descending : Bool) {run : List α} {last : α} {xs : List α}
    (hrun : ∀ x ∈ run, P x) (hlast : P last) (hxs : ∀ x ∈ xs, P x) :
    Sure (fun out => (∀ x ∈ out.1, P x) ∧ ∀ x ∈ out.2, P x)
      (runFrom isLess descending run last xs) := by
  induction xs generalizing run last with
  | nil => exact sure_ok ⟨hrun, hxs⟩
  | cons x xs ih =>
      have hx : P x := hxs x List.mem_cons_self
      rw [runFrom]
      refine (hdec x last hx hlast).bind fun less _ => ?_
      split
      · exact ih (List.forall_mem_cons.mpr ⟨hx, hrun⟩) hx fun z hz =>
          hxs z (List.mem_cons_of_mem x hz)
      · exact sure_ok ⟨hrun, hxs⟩

theorem sure_nextRun {xs : List α} (h : ∀ x ∈ xs, P x) :
    Sure (fun out => (∀ x ∈ out.1, P x) ∧ ∀ x ∈ out.2, P x) (nextRun isLess xs) := by
  match xs with
  | [] => exact sure_ok ⟨h, h⟩
  | [x] => exact sure_ok ⟨h, fun _ hz => nomatch hz⟩
  | x :: y :: xs =>
      obtain ⟨hx, hrest⟩ := List.forall_mem_cons.mp h
      obtain ⟨hy, hxs⟩ := List.forall_mem_cons.mp hrest
      have hrun : ∀ z ∈ [y, x], P z :=
        List.forall_mem_cons.mpr ⟨hy, List.forall_mem_singleton.mpr hx⟩
      rw [nextRun]
      refine (hdec y x hy hx).bind fun descending _ => ?_
      refine (sure_runFrom hdec descending hrun hy hxs).bind fun out hout => ?_
      refine sure_ok ⟨fun z hz => ?_, hout.2⟩
      dsimp only at hz
      split at hz
      · exact hout.1 z hz
      · exact hout.1 z (List.mem_reverse.mp hz)

theorem sure_extend {run xs : List α} (hrun : ∀ x ∈ run, P x) (hxs : ∀ x ∈ xs, P x) :
    Sure (fun out => ∀ x ∈ out, P x) (extend isLess run xs) := by
  induction xs generalizing run with
  | nil => exact sure_ok hrun
  | cons x xs ih =>
      have hx : P x := hxs x List.mem_cons_self
      have htest : ∀ y ∈ run, Sure (fun _ => True) ((isLess x y).map (!·)) :=
        fun y hy => (hdec x y hx (hrun y hy)).map fun _ _ => trivial
      rw [extend]
      refine (sure_halve (answers_testAt htest) _ _).bind fun place _ => ?_
      refine ih (fun z hz => ?_) fun z hz => hxs z (List.mem_cons_of_mem x hz)
      rw [List.mem_append, List.mem_cons] at hz
      rcases hz with hz | rfl | hz
      · exact hrun z (List.mem_of_mem_take hz)
      · exact hx
      · exact hrun z (List.mem_of_mem_drop hz)

/-- Whether the items of runs have a property. -/
def RunsHave (P : α → Prop) (runs : List (Run α)) : Prop := ∀ r ∈ runs, ∀ x ∈ r.items, P x

theorem sure_join (patience : Nat) {r next : Run α} (hr : ∀ x ∈ r.items, P x)
    (hnext : ∀ x ∈ next.items, P x) :
    Sure (fun out => ∀ x ∈ out.1.items, P x) (r.join isLess patience next) :=
  (sure_merge hdec patience hr hnext).bind fun _ hout => sure_ok hout

theorem sure_mergeAbove (power patience : Nat) {last : Run α} {runs : List (Run α)}
    (hlast : ∀ x ∈ last.items, P x) (hruns : RunsHave P runs) :
    Sure (fun out => RunsHave P out.1) (mergeAbove isLess power patience last runs) := by
  induction runs generalizing patience last with
  | nil => exact sure_ok (List.forall_mem_singleton.mpr hlast)
  | cons r rs ih =>
      obtain ⟨hr, hrs⟩ := List.forall_mem_cons.mp hruns
      rw [mergeAbove]
      split
      · exact (sure_join hdec patience hr hlast).bind fun out hout => ih out.2 hout hrs
      · exact sure_ok (List.forall_mem_cons.mpr ⟨hlast, hruns⟩)

theorem sure_mergeAll (patience : Nat) {runs : List (Run α)} (h : RunsHave P runs) :
    Sure (fun _ => True) (mergeAll isLess patience runs) := by
  -- Each join leaves one run less.
  induction hn : runs.length using Nat.strongRecOn generalizing patience runs with
  | _ n ih =>
      match runs with
      | [] => exact ⟨_, by rw [mergeAll], trivial⟩
      | [r] => exact ⟨_, by rw [mergeAll], trivial⟩
      | [r, s] =>
          obtain ⟨hr, hs⟩ := List.forall_mem_cons.mp h
          rw [mergeAll]
          exact (sure_join hdec patience (hs s List.mem_cons_self) hr).bind
            fun _ _ => sure_ok trivial
      | r :: s :: t :: rs =>
          obtain ⟨hr, hrest⟩ := List.forall_mem_cons.mp h
          obtain ⟨hs, hrest⟩ := List.forall_mem_cons.mp hrest
          obtain ⟨ht, hrs⟩ := List.forall_mem_cons.mp hrest
          rw [mergeAll]
          split
          · refine (sure_join hdec patience ht hs).bind fun out hout => ?_
            refine ih _ ?_ out.2 (List.forall_mem_cons.mpr
              ⟨hr, List.forall_mem_cons.mpr ⟨hout, hrs⟩⟩) rfl
            simp only [List.length_cons] at hn ⊢
            omega
          · refine (sure_join hdec patience hs hr).bind fun out hout => ?_
            refine ih _ ?_ out.2 (List.forall_mem_cons.mpr
              ⟨hout, List.forall_mem_cons.mpr ⟨ht, hrs⟩⟩) rfl
            simp only [List.length_cons] at hn ⊢
            omega

theorem sure_mergeRuns (whole fuel patience : Nat) {runs : List (Run α)} {xs : List α}
    (hruns : RunsHave P runs) (hxs : ∀ x ∈ xs, P x) :
    Sure (fun _ => True) (mergeRuns isLess whole fuel patience runs xs) := by
  induction fuel generalizing patience runs xs with
  | zero =>
      rw [mergeRuns]
      exact sure_mergeAll hdec patience hruns
  | succ fuel ih =>
      cases xs with
      | nil =>
          rw [mergeRuns]
          · exact sure_mergeAll hdec patience hruns
          · exact nofun
      | cons x xs =>
          rw [mergeRuns]
          refine (sure_nextRun hdec hxs).bind fun found hfound => ?_
          obtain ⟨out, rest⟩ := found
          obtain ⟨hout, hrest⟩ := hfound
          refine (sure_extend hdec hout fun z hz => hrest z (List.mem_of_mem_take hz)).bind
            fun run hrun => ?_
          have hnext : ∀ pushed : List (Run α) × Nat, RunsHave P pushed.1 →
              Sure (fun _ => True) (mergeRuns isLess whole fuel pushed.2
                (⟨whole - (x :: xs).length, run, 0⟩ :: pushed.1)
                (rest.drop (leastLength whole - out.length))) :=
            fun pushed hall => ih pushed.2 (List.forall_mem_cons.mpr ⟨hrun, hall⟩)
              fun z hz => hrest z (List.mem_of_mem_drop hz)
          cases runs with
          | nil => exact hnext ([], patience) fun _ h => nomatch h
          | cons last runs =>
              obtain ⟨hlast, hruns⟩ := List.forall_mem_cons.mp hruns
              exact (sure_mergeAbove hdec _ _ hlast hruns).bind hnext

/-- Items that can be compared with each other are sorted by runs without a failure. -/
theorem sure_byRuns {xs : List α} (h : ∀ x ∈ xs, P x) :
    Sure (fun _ => True) (byRuns isLess xs) :=
  sure_mergeRuns hdec _ _ _ (fun _ hr => nomatch hr) h

end Runs

end Rowgate.Sort
