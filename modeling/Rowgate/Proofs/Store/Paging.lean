import Rowgate.Proofs.Entity.Form
import Rowgate.Store.Service

/-!
# Pages are cut from what passes

A page without an order is filled while the scan runs, and a page with an order is sliced from a
list. Both show the same thing, a stretch of the records that satisfy the filter, and what is counted
is how many there are of them. `cuts_cut` says so of the page that is filled: how many have passed and
how many are on the page so far is what the induction goes over. If asking fails at some record, a page
is filled all the same where one record more than the page has passed before.
-/

namespace Rowgate.FileService

variable {e : Entity} {p : Predicate} {q : Query} {scan passed : List Record}

/-- The records that still fit on a page. -/
def fill (q : Query) (kept : Nat) (rs : List Record) : List Record :=
  if q.take = 0 then rs else rs.take (q.take - kept)

theorem fill_nil (q : Query) (kept : Nat) : fill q kept [] = [] := by
  rw [fill, List.take_nil, ite_self]

theorem fill_cons {kept : Nat} (h : q.take = 0 ∨ kept < q.take) (r : Record) (rs : List Record) :
    fill q kept (r :: rs) = r :: fill q (kept + 1) rs := by
  rw [fill, fill]
  split
  · rfl
  · next hne =>
      have hlt : kept < q.take := h.resolve_left hne
      rw [show q.take - kept = (q.take - (kept + 1)) + 1 by omega, List.take_succ_cons]

theorem fill_full {kept : Nat} (h : ¬ (q.take = 0 ∨ kept < q.take)) (rs : List Record) :
    fill q kept rs = [] := by
  have htake : q.take ≠ 0 := fun h0 => h (.inl h0)
  have hle : q.take ≤ kept := Nat.not_lt.mp fun hlt => h (.inr hlt)
  rw [fill, if_neg htake, Nat.sub_eq_zero_of_le hle, List.take_zero]

/-! ## What passes -/

/-- The records of a scan that satisfy a predicate, up to one at which asking fails. -/
structure Passing where
  records : List Record
  fault : Option Fault

namespace Passing

def add (r : Record) (l : Passing) : Passing := { l with records := r :: l.records }

/-- All records that pass, if asking never fails. -/
def all (l : Passing) : Except Fault (List Record) :=
  match l.fault with
  | none => .ok l.records
  | some f => .error f

theorem all_add (r : Record) (l : Passing) : (l.add r).all = l.all.map (r :: ·) := by
  rw [all, all, add]
  cases l.fault <;> rfl

end Passing

def passing (p : Predicate) : List Record → Passing
  | [] => ⟨[], none⟩
  | r :: rs =>
    match p.accepts r with
    | .error f => ⟨[], some f⟩
    | .ok true => (passing p rs).add r
    | .ok false => passing p rs

theorem length_passing_le (p : Predicate) (scan : List Record) :
    (passing p scan).records.length ≤ scan.length := by
  induction scan with
  | nil => exact Nat.le_refl 0
  | cons r rs ih =>
      rw [passing]
      split
      · exact Nat.zero_le _
      · exact Nat.succ_le_succ ih
      · exact Nat.le_succ_of_le ih

theorem result_select (p : Predicate) (scan : List Record) :
    (select p scan).result = (passing p scan).all := by
  induction scan with
  | nil => rfl
  | cons r rs ih =>
      rw [select, passing]
      cases p.accepts r with
      | error f => rfl
      | ok accepted =>
          cases accepted with
          | false => exact ih
          | true =>
              dsimp only
              rw [Passing.all_add, ← ih]
              rfl

/-! ## What is cut -/

/-- What can come of cutting a page after some records have passed and some are on the page: the rest
of the page, unless a record that is needed for it makes asking fail. A page without a limit needs all
records, and so does a count. -/
inductive Cuts (e : Entity) (q : Query) (matched kept : Nat) (l : Passing) :
    Except Fault (List Record × Nat) → Prop
  | page {n : Nat} (hreach : l.fault = none ∨
        q.take ≠ 0 ∧ q.skip - matched + (q.take - kept) < l.records.length)
      (hcount : q.withCount = true → n = matched + l.records.length) :
      Cuts e q matched kept l
        (.ok ((fill q kept (l.records.drop (q.skip - matched))).map e.project, n))
  | fault {f : Fault} (h : l.fault = some f) : Cuts e q matched kept l (.error f)

section Cuts

variable {l : Passing} {x : Except Fault (List Record × Nat)} {matched kept : Nat}

theorem Cuts.nothing (matched kept : Nat) : Cuts e q matched kept ⟨[], none⟩ (.ok ([], matched)) := by
  have h : Cuts e q matched kept ⟨[], none⟩ (.ok (_, matched)) := .page (.inl rfl) fun _ => rfl
  rwa [List.drop_nil, fill_nil, List.map_nil] at h

theorem Cuts.skip (h : Cuts e q (matched + 1) kept l x) (hskip : matched + 1 ≤ q.skip) (r : Record) :
    Cuts e q matched kept (l.add r) x := by
  cases h with
  | fault hf => exact .fault hf
  | @page n hreach hcount =>
      have hdrop : l.records.drop (q.skip - (matched + 1)) =
          (l.add r).records.drop (q.skip - matched) := by
        rw [show q.skip - matched = (q.skip - (matched + 1)) + 1 by omega]
        rfl
      rw [hdrop]
      refine .page (hreach.imp_right fun h => ⟨h.1, ?_⟩) fun hq => ?_
      · rw [Passing.add, List.length_cons]
        omega
      · rw [hcount hq, Passing.add, List.length_cons]
        omega

theorem drop_of_not_skipped (hskip : ¬ matched + 1 ≤ q.skip) (rs : List Record) :
    rs.drop (q.skip - matched) = rs ∧ rs.drop (q.skip - (matched + 1)) = rs := by
  rw [show q.skip - matched = 0 by omega, show q.skip - (matched + 1) = 0 by omega]
  exact ⟨rfl, rfl⟩

theorem Cuts.keep (h : Cuts e q (matched + 1) (kept + 1) l x) (hskip : ¬ matched + 1 ≤ q.skip)
    (hroom : q.take = 0 ∨ kept < q.take) (r : Record) :
    Cuts e q matched kept (l.add r) (x.map fun (rest, n) => (e.project r :: rest, n)) := by
  cases h with
  | fault hf => exact .fault hf
  | @page n hreach hcount =>
      have hpage : e.project r :: (fill q (kept + 1) l.records).map e.project =
          (fill q kept ((l.add r).records.drop (q.skip - matched))).map e.project := by
        rw [(drop_of_not_skipped hskip _).1, Passing.add, fill_cons hroom, List.map_cons]
      rw [(drop_of_not_skipped hskip _).2]
      show Cuts e q matched kept (l.add r) (.ok (e.project r :: _, n))
      rw [hpage]
      refine .page (hreach.imp_right fun h => ⟨h.1, ?_⟩) fun hq => ?_
      · rw [Passing.add, List.length_cons]
        omega
      · rw [hcount hq, Passing.add, List.length_cons]
        omega

theorem Cuts.pass (h : Cuts e q (matched + 1) kept l x) (hskip : ¬ matched + 1 ≤ q.skip)
    (hfull : ¬ (q.take = 0 ∨ kept < q.take)) (r : Record) : Cuts e q matched kept (l.add r) x := by
  cases h with
  | fault hf => exact .fault hf
  | @page n hreach hcount =>
      rw [fill_full hfull, ← fill_full hfull ((l.add r).records.drop (q.skip - matched))]
      refine .page (hreach.imp_right fun h => ⟨h.1, ?_⟩) fun hq => ?_
      · rw [Passing.add, List.length_cons]
        omega
      · rw [hcount hq, Passing.add, List.length_cons]
        omega

theorem Cuts.stop (hskip : ¬ matched + 1 ≤ q.skip) (hfull : ¬ (q.take = 0 ∨ kept < q.take))
    (hcount : ¬ q.withCount = true) (r : Record) :
    Cuts e q matched kept (l.add r) (.ok ([], matched + 1)) := by
  have hpage : [] = (fill q kept ((l.add r).records.drop (q.skip - matched))).map e.project := by
    rw [fill_full hfull, List.map_nil]
  rw [hpage]
  refine .page (.inr ⟨fun h => hfull (.inl h), ?_⟩) fun hq => absurd hq hcount
  rw [Passing.add, List.length_cons]
  omega

end Cuts

/-- What is cut from a scan is cut from the records that pass. -/
theorem cuts_cut (e : Entity) (p : Predicate) (q : Query) (scan : List Record) (matched kept : Nat) :
    Cuts e q matched kept (passing p scan) (cut e p q matched kept scan).result := by
  induction scan generalizing matched kept with
  | nil => exact .nothing matched kept
  | cons r rs ih =>
      rw [passing, cut]
      cases p.accepts r with
      | error f => exact .fault rfl
      | ok accepted =>
          cases accepted with
          | false => exact ih matched kept
          | true =>
              dsimp only
              -- The record comes before the page, or is on it, or is only counted, or ends the scan.
              split
              · next hskip => exact (ih (matched + 1) kept).skip hskip r
              · next hskip =>
                  split
                  · next hroom => exact (ih (matched + 1) (kept + 1)).keep hskip hroom r
                  · next hfull =>
                      split
                      · exact (ih (matched + 1) kept).pass hskip hfull r
                      · next hcount => exact .stop hskip hfull hcount r

/-- What can be answered to a query about some records that pass. -/
inductive Shows (e : Entity) (q : Query) (l : Passing) : Except Fault Page → Prop
  | page (hreach : l.fault = none ∨ q.take ≠ 0 ∧ q.skip + q.take < l.records.length) :
      Shows e q l (.ok ⟨(slice q l.records).map e.project, countIf q l.records.length⟩)
  | fault {f : Fault} (h : l.fault = some f) : Shows e q l (.error f)

/-- A page in the order of the scan is a slice of the records that pass. -/
theorem shows_streamed (e : Entity) (p : Predicate) (q : Query) (scan : List Record) :
    Shows e q (passing p scan) (streamed e p q scan).result := by
  have hcut := cuts_cut e p q scan 0 0
  rw [streamed, Drawn.map]
  generalize (cut e p q 0 0 scan).result = x at hcut
  cases hcut with
  | fault hf => exact .fault hf
  | @page n hreach hcount =>
      have hcountIf : countIf q n = countIf q (passing p scan).records.length := by
        rw [countIf, countIf]
        split
        · next hq => rw [hcount hq, Nat.zero_add]
        · rfl
      show Shows e q _ (.ok ⟨(slice q (passing p scan).records).map e.project, countIf q n⟩)
      rw [hcountIf]
      exact .page hreach

theorem Shows.eq_ok {l : Passing} {x : Except Fault Page} (h : Shows e q l x) (hall : l.fault = none) :
    x = .ok ⟨(slice q l.records).map e.project, countIf q l.records.length⟩ := by
  cases h with
  | page => rfl
  | fault hf =>
      rw [hall] at hf
      cases hf

theorem streamed_of_select (h : (select p scan).result = .ok passed) :
    (streamed e p q scan).result =
      .ok ⟨(slice q passed).map e.project, countIf q passed.length⟩ := by
  rw [result_select, Passing.all] at h
  split at h
  · next hall =>
      cases h
      exact (shows_streamed e p q scan).eq_ok hall
  · cases h

/-- Every record passes where there is nothing to satisfy. -/
theorem select_always (scan : List Record) : (select .always scan).result = .ok scan := by
  induction scan with
  | nil => rfl
  | cons r rs ih =>
      show ((select .always rs).map (r :: ·)).result = _
      rw [Drawn.map, ih]
      rfl

theorem result_fetch (s : FileService) (f : File) (q : Query) :
    (s.fetch f q).result =
      (s.compile f.entity q).result.bind fun p => (fetchWith f q p).2.result := by
  rw [fetch, fetchCounting]
  dsimp only
  cases hcompiled : (s.compile f.entity q).result with
  | error e => rfl
  | ok p =>
      dsimp only
      rw [Traced.result_bind, hcompiled]
      show (Traced.result _) = (fetchWith f q p).2.result
      rw [Traced.result_bind]
      cases (fetchWith f q p).2.result <;> rfl

/-- A query for everything is answered with the whole scan. -/
theorem fetch_everything (s : FileService) {f : File} (h : f.scan = .ok scan) :
    (s.fetch f .everything).result = .ok ⟨scan.map f.entity.project, 0⟩ := by
  have hpage : (streamed f.entity .always .everything scan).result =
      .ok ⟨scan.map f.entity.project, 0⟩ := streamed_of_select (select_always scan)
  have hcompiled : (s.compile f.entity .everything).result = .ok .always := rfl
  rw [result_fetch, hcompiled]
  show (fetchWith f .everything .always).2.result = _
  rw [fetchWith.eq_def, h]
  exact hpage

end Rowgate.FileService

namespace Rowgate.File

/-- Whether the records of a file, in the order of a scan, are written as a text. -/
def Shows (f : File) (content : String) : Prop :=
  ∃ scan, f.scan = .ok scan ∧
    Json.write (.dict (Page.toRecord ⟨scan.map f.entity.project, 0⟩)) = .ok content

/-- A query for everything is answered with a page that is written as the file is. -/
theorem Shows.fetch {f : File} {content : String} (h : f.Shows content) (s : FileService) :
    ∃ page, (s.fetch f .everything).result = .ok page ∧
      Json.write (.dict page.toRecord) = .ok content := by
  obtain ⟨scan, hscan, hcontent⟩ := h
  exact ⟨_, FileService.fetch_everything s hscan, hcontent⟩

end Rowgate.File
