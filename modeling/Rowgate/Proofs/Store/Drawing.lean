import Mathlib.Tactic.FinCases
import Rowgate.Proofs.Store.KeyOrder
import Rowgate.Proofs.Store.Paging
import Rowgate.Proofs.Store.Unchanged

/-!
# What a fetch shows and what it draws

A fetch reads a file in the order of its keys. What it shows is a window of the records that satisfy
the filter, put in the order of the query if it has one, and every record is shown with the fields of
the metadata and nothing else. `shows_window` says so of every file that writes can lead to, and of
both ways to fill a page at once.

A page in the order of the scan does not need all records. `draws_cut` counts those that are drawn: the
record that ends the scan is the first that is accepted after the page is full, so what the induction
goes over is how many have still to be accepted before that one.
-/

namespace Rowgate

open Outcome

/-! ## Files that writes lead to -/

namespace File

variable {e : Entity} {f g : File} {r : Record} {records : List Record}

/-- The files of an entity: made of some records, and what any writes make of them. -/
inductive Built : File → Prop
  | ofRecords {e : Entity} {records : List Record} {f : File}
      (h : ofRecords e records = .ok f) : Built f
  | write {f : File} (hf : Built f) (r : Record) : Built ((File.write r).outcome f).2
  | replace {f : File} (hf : Built f) (r : Record) : Built ((File.replace r).outcome f).2
  | delete {f : File} (hf : Built f) (key : List Value) : Built ((File.delete key).outcome f).2
  | clear {f : File} (hf : Built f) : Built f.clear

/-- Whether every record has the form of the fields. -/
def Formed (f : File) : Prop := ∀ r ∈ f.records, f.entity.Formed r

/-- Whether every record came out of the fields, which is more than to have their form: a number that
comes out of a field without a scale is an integer, if it is integral at all. -/
def Coerced (f : File) : Prop := ∀ r ∈ f.records, ∃ raw, f.entity.coerce raw = .ok r

theorem Coerced.store (hf : f.Coerced) (h : f.store r = .ok g) : g.Coerced := by
  rw [File.store] at h
  obtain ⟨s, hs, h⟩ := bind_eq_ok.mp h
  cases h
  split
  · exact forall_put hf ⟨r, ok_of_mapError hs⟩
  · exact forall_append hf ⟨r, ok_of_mapError hs⟩

theorem Coerced.storeAll (hf : f.Coerced) (h : f.storeAll records = .ok g) : g.Coerced := by
  induction records generalizing f with
  | nil =>
      cases h
      exact hf
  | cons r records ih =>
      rw [File.storeAll] at h
      obtain ⟨f', hf', h⟩ := bind_eq_ok.mp h
      exact ih (hf.store hf') h

theorem Built.coerced (h : f.Built) : f.Coerced := by
  induction h with
  | @ofRecords e records f h => exact Coerced.storeAll (f := .empty e) (fun _ h => nomatch h) h
  | @write f _ r ih =>
      rw [Coerced, entity_write r f]
      exact forall_write ih fun c hc => ⟨r, ok_of_mapError hc⟩
  | @replace f _ r ih =>
      rw [Coerced, entity_replace r f]
      exact forall_replace ih fun c hc => ⟨r, ok_of_mapError hc⟩
  | @delete f _ key ih =>
      rw [Coerced, entity_delete key f]
      exact forall_delete ih key
  | clear _ _ => exact fun _ h => nomatch h

theorem Built.formed (h : f.Built) : f.Formed := by
  intro r hr
  obtain ⟨raw, hraw⟩ := h.coerced r hr
  exact Entity.formed_coerceEntries hraw

end File

/-! ## What is shown of a record -/

namespace Entity

theorem set_map (g : String → Value) (names : List String) (name : String) :
    Record.set (names.map fun n => (n, g n)) name (g name) =
      (if name ∈ names then names else names ++ [name]).map fun n => (n, g n) := by
  induction names with
  | nil => rfl
  | cons first names ih =>
      rw [List.map_cons, Record.set, ih]
      by_cases hfirst : first = name
      · rw [if_pos hfirst, if_pos (by rw [hfirst]; exact List.mem_cons_self), List.map_cons, hfirst]
      · have hmem : name ∈ first :: names ↔ name ∈ names := by
          rw [List.mem_cons]
          exact or_iff_right fun h => hfirst h.symm
        rw [if_neg hfirst]
        by_cases hname : name ∈ names
        · rw [if_pos hname, if_pos (hmem.mpr hname), List.map_cons]
        · rw [if_neg hname, if_neg fun h => hname (hmem.mp h)]
          rfl

/-- A name that comes again keeps the place that it has, so what is set is the list of the names
without repetitions. -/
theorem foldl_set_map (g : String → Value) (names before : List String) :
    (names.map fun n => (n, g n)).foldl (fun r (k, v) => Record.set r k v)
        (before.reverse.map fun n => (n, g n)) =
      (List.eraseDupsBy.loop (· == ·) names before).map fun n => (n, g n) := by
  induction names generalizing before with
  | nil => rfl
  | cons name names ih =>
      have hany : before.any (name == ·) = decide (name ∈ before) := by
        rw [List.any_beq, List.contains_eq_mem]
      rw [List.map_cons, List.foldl_cons, List.eraseDupsBy.loop, hany]
      dsimp only
      rw [set_map]
      by_cases hname : name ∈ before
      · rw [if_pos (List.mem_reverse.mpr hname), decide_eq_true hname]
        exact ih before
      · rw [if_neg (mt List.mem_reverse.mp hname), decide_eq_false hname, ← List.reverse_cons]
        exact ih (name :: before)

/-- What is shown of a record: the fields in their order, each once, null where it has none. -/
theorem project_eq_eraseDups (e : Entity) (r : Record) :
    e.project r =
      (e.fields.map (·.name)).eraseDups.map fun name => (name, Record.field r name) := by
  have hentries : e.fields.map (fun f => (f.name, Record.field r f.name)) =
      (e.fields.map (·.name)).map fun n => (n, Record.field r n) := by
    rw [List.map_map]
    rfl
  rw [project, hentries]
  exact foldl_set_map (Record.field r) _ []

end Entity

namespace FileService

variable {s : FileService} {f : File} {e : Entity} {p : Predicate} {q : Query}
  {accepted : Record → Bool} {scan records : List Record} {r : Record}

/-! ## What is shown of a file -/

/-- The records of a page: those from one place on, to another place or to the end. -/
def window (q : Query) (records : List Record) : List Record :=
  if q.take = 0 then records.drop q.skip else (records.take (q.skip + q.take)).drop q.skip

theorem slice_eq_window (q : Query) (records : List Record) : slice q records = window q records := by
  rw [slice, window, List.drop_take, Nat.add_sub_cancel_left]

/-- Records in the order of a query, or as they are if it has none. -/
def arranged (fields : List Field) (q : Query) (records : List Record) : Except Fault (List Record) :=
  if q.sort = [] then .ok records else (sortRecords fields q.sort records).result

theorem passing_of_accepts (h : ∀ r ∈ scan, p.accepts r = .ok (accepted r)) :
    passing p scan = ⟨scan.filter accepted, none⟩ := by
  induction scan with
  | nil => rfl
  | cons r scan ih =>
      obtain ⟨hr, hscan⟩ := List.forall_mem_cons.mp h
      rw [passing, hr, ih hscan, List.filter_cons]
      cases accepted r <;> rfl

/-- A page is a window of what is accepted, in the order of the query, on either way to fill it. -/
theorem result_fetchWith (hscan : f.scan = .ok scan)
    (h : ∀ r ∈ scan, p.accepts r = .ok (accepted r)) :
    (fetchWith f q p).2.result =
      (arranged f.entity.fields q (scan.filter accepted)).map fun records =>
        ⟨(window q records).map f.entity.project, countIf q (scan.filter accepted).length⟩ := by
  have hpassing := passing_of_accepts h
  rw [fetchWith.eq_def, hscan, arranged]
  dsimp only
  by_cases hsort : q.sort = []
  · rw [hsort, List.isEmpty_nil, if_pos rfl, if_pos rfl, Traced.result_ofResult]
    have hshows := shows_streamed f.entity p q scan
    rw [hshows.eq_ok (by rw [hpassing]), hpassing, slice_eq_window]
    rfl
  · rw [List.isEmpty_eq_false_iff.mpr hsort, if_neg Bool.false_ne_true, if_neg hsort,
      Traced.result_bind, Traced.result_ofResult, result_select, hpassing]
    show (sorted f.entity q (scan.filter accepted)).result = _
    rw [sorted, Traced.result_bind]
    cases (sortRecords f.entity.fields q.sort (scan.filter accepted)).result with
    | error fault => rfl
    | ok records =>
        show Except.ok (Page.mk ((slice q records).map f.entity.project) _) = _
        rw [slice_eq_window]
        rfl

/-! ## What is drawn -/

/-- How many records of a scan are drawn until one more than `n` of them is accepted: all up to that
one, or the whole scan if there is none. -/
inductive Draws (accepted : Record → Bool) (n : Nat) (scan : List Record) : Nat → Prop
  | all (h : (scan.filter accepted).length ≤ n) : Draws accepted n scan scan.length
  | upTo {before rest : List Record} {r : Record} (hscan : scan = before ++ r :: rest)
      (hr : accepted r = true) (hbefore : (before.filter accepted).length = n) :
      Draws accepted n scan (before.length + 1)

namespace Draws

variable {n count : Nat}

theorem decline (h : Draws accepted n scan count) (hr : accepted r = false) :
    Draws accepted n (r :: scan) (count + 1) := by
  have hfilter : ∀ rs : List Record, (r :: rs).filter accepted = rs.filter accepted := fun _ =>
    List.filter_cons_of_neg (by rw [hr]; exact Bool.false_ne_true)
  cases h with
  | all h => exact .all ((hfilter scan).symm ▸ h)
  | @upTo before rest last hscan hlast hbefore =>
      have hsplit : r :: scan = (r :: before) ++ last :: rest := by rw [hscan, List.cons_append]
      exact .upTo hsplit hlast ((hfilter before).symm ▸ hbefore)

theorem accept (h : Draws accepted n scan count) (hr : accepted r = true) :
    Draws accepted (n + 1) (r :: scan) (count + 1) := by
  have hlength : ∀ rs : List Record,
      ((r :: rs).filter accepted).length = (rs.filter accepted).length + 1 := fun _ => by
    rw [List.filter_cons_of_pos hr, List.length_cons]
  cases h with
  | all h => exact .all (by rw [hlength]; omega)
  | @upTo before rest last hscan hlast hbefore =>
      have hsplit : r :: scan = (r :: before) ++ last :: rest := by rw [hscan, List.cons_append]
      exact .upTo hsplit hlast (by rw [hlength, hbefore])

end Draws

/-- A page that does not count draws records until one is accepted that has no place on it. -/
theorem draws_cut (h : ∀ r ∈ scan, p.accepts r = .ok (accepted r)) (htake : 0 < q.take)
    (hcount : q.withCount = false) (matched kept : Nat) :
    Draws accepted ((q.skip - matched) + (q.take - kept)) scan
      (cut e p q matched kept scan).count := by
  induction scan generalizing matched kept with
  | nil => exact .all (Nat.zero_le _)
  | cons r scan ih =>
      obtain ⟨hr, hscan⟩ := List.forall_mem_cons.mp h
      rw [cut, hr]
      cases hacc : accepted r with
      | false => exact (ih hscan matched kept).decline hacc
      | true =>
          dsimp only
          split
          · next hskip =>
              have hleft : q.skip - matched + (q.take - kept) =
                  q.skip - (matched + 1) + (q.take - kept) + 1 := by omega
              rw [hleft]
              exact (ih hscan (matched + 1) kept).accept hacc
          · next hskip =>
              split
              · next hroom =>
                  have hleft : q.skip - matched + (q.take - kept) =
                      q.skip - (matched + 1) + (q.take - (kept + 1)) + 1 := by omega
                  rw [hleft]
                  exact (ih hscan (matched + 1) (kept + 1)).accept hacc
              · next hfull =>
                  have hleft : q.skip - matched + (q.take - kept) = 0 := by omega
                  rw [hcount, if_neg Bool.false_ne_true, hleft]
                  exact .upTo (List.nil_append (r :: scan)).symm hacc rfl

theorem draws_fetchCounting (hscan : f.scan = .ok scan)
    (hp : (s.compile f.entity q).result = .ok p) (h : ∀ r ∈ scan, p.accepts r = .ok (accepted r))
    (hsort : q.sort = []) (hcount : q.withCount = false) (htake : 0 < q.take) :
    Draws accepted (q.skip + q.take) scan (s.fetchCounting f q).1 := by
  rw [fetchCounting]
  dsimp only
  rw [hp]
  show Draws accepted (q.skip + q.take) scan (fetchWith f q p).1
  rw [fetchWith.eq_def, hscan]
  dsimp only
  rw [hsort, List.isEmpty_nil, if_pos rfl]
  exact draws_cut (e := f.entity) h htake hcount 0 0

/-- A fetch shows a window of the records that its filter accepts, put in the order of the query if it
has one, each with the fields of the metadata and null for those it lacks, and counts what is accepted
if that is asked for. It draws no more records of the scan than the page and one behind it take, if
nothing has to be ordered or counted. -/
theorem shows_window (hbuilt : f.Built) (hordered : f.Ordered)
    (hp : (s.compile f.entity q).result = .ok p)
    (haccepts : ∀ r ∈ f.records, p.accepts r = .ok (accepted r)) :
    ∃ scan, f.scan = .ok scan ∧ scan.Perm f.records ∧
      scan.Pairwise (fun a b => f.isBefore b a = .ok false) ∧
      (s.fetch f q).result =
        (arranged f.entity.fields q (scan.filter accepted)).map (fun records =>
          { records := (window q records).map fun r =>
              (f.entity.fields.map (·.name)).eraseDups.map fun name => (name, Record.field r name)
            count := (if q.withCount then (scan.filter accepted).length else 0 : Nat) }) ∧
      (q.sort = [] → q.withCount = false → 0 < q.take →
        Draws accepted (q.skip + q.take) scan (s.fetchCounting f q).1) := by
  obtain ⟨scan, hscan, hperm, hpairwise⟩ := File.sure_scan hbuilt.formed hordered
  have hmem : ∀ r ∈ scan, p.accepts r = .ok (accepted r) := fun r hr =>
    haccepts r (hperm.subset hr)
  refine ⟨scan, hscan, hperm, hpairwise, ?_, draws_fetchCounting hscan hp hmem⟩
  have hproject : f.entity.project = fun r =>
      (f.entity.fields.map (·.name)).eraseDups.map fun name => (name, Record.field r name) :=
    funext f.entity.project_eq_eraseDups
  have hfetch : (s.fetch f q).result = (fetchWith f q p).2.result := by
    rw [result_fetch, hp]
    rfl
  rw [hfetch, result_fetchWith hscan hmem, hproject]
  rfl

/-! ## An example -/

def weightField : Field := ⟨"Weight", none, 0, 0, .numeric, false, false, false⟩

def crate (number weight : Int) : Record := [("Number", .int number), ("Weight", .int weight)]

/-- Crates that did not come in the order of their numbers. -/
def crates : File where
  entity := ⟨"Crate", none, false, [⟨"Number", none, 0, 0, .numeric, true, true, false⟩, weightField]⟩
  records := [crate 4 9, crate 1 1, crate 3 5, crate 2 7]

/-- The first of the crates that are heavier than 1. -/
def firstHeavy : Query where
  take := 1
  skip := 0
  sort := []
  filter := some (.leaf (.of "Weight" .gt (.int 1) false))
  search := .null
  withCount := false

def isHeavy (r : Record) : Bool :=
  match Record.field r "Weight" with
  | .int i => 1 < i
  | _ => false

/-- The service of a warehouse. -/
def warehouse : FileService := ⟨false, Operator.all, true⟩

theorem shows_window_crates :
    crates.Built ∧ crates.Ordered ∧
      ∃ p, (warehouse.compile crates.entity firstHeavy).result = .ok p ∧
        (∀ r ∈ crates.records, p.accepts r = .ok (isHeavy r)) ∧
        ∃ scan, crates.scan = .ok scan ∧
          Draws isHeavy 1 scan (warehouse.fetchCounting crates firstHeavy).1 := by
  have hmade : File.ofRecords crates.entity crates.records = .ok crates := rfl
  have hordered : crates.Ordered := by
    intro a b ha hb
    fin_cases ha <;> fin_cases hb <;> exact ⟨_, rfl, trivial⟩
  have hp : (warehouse.compile crates.entity firstHeavy).result =
      .ok (.test "Weight" (some weightField) .gt (.int 1) false) := rfl
  have haccepts : ∀ r ∈ crates.records,
      Predicate.accepts r (.test "Weight" (some weightField) .gt (.int 1) false) =
        .ok (isHeavy r) := by
    intro r hr
    fin_cases hr <;> rfl
  obtain ⟨scan, hscan, -, -, -, hdraws⟩ := shows_window (.ofRecords hmade) hordered hp haccepts
  exact ⟨.ofRecords hmade, hordered, _, hp, haccepts, scan, hscan, hdraws rfl rfl (by decide)⟩

/-- The scan ends at the third crate, which is the second that is heavy. -/
example : (warehouse.fetchCounting crates firstHeavy).1 = 3 ∧
    (warehouse.fetch crates firstHeavy).result = .ok ⟨[crate 2 7], 0⟩ := by
  constructor <;> cbv

end FileService

end Rowgate
