import Rowgate.Proofs.Query.Following
import Rowgate.Proofs.Sort.Ranked
import Rowgate.Proofs.Store.Complete
import Rowgate.Proofs.Store.Paging

/-!
# Following the links

A client that fetches a query and follows the links gets one page after the other until a page is
empty. `pages_make_whole` says that these pages are together what one fetch without a limit shows, if
no test takes as a text a condition that a link spells in another way. The argument has two parts. All
queries on the way have one line of records to show (`lineOf`), since their filters accept the same
records; and what a query shows of that line starts where the page before ended.

Without the condition on texts it fails: `pages_lose_records` is a file of which the second page is
empty.
-/

namespace Rowgate.FileService

variable {s : FileService} {f : File} {q : Query} {p p' : Predicate} {scan : List Record}

/-! ## One line of records -/

/-- Records that are all there or not at all. -/
def Passing.ofResult : Except Fault (List Record) → Passing
  | .ok records => ⟨records, none⟩
  | .error e => ⟨[], some e⟩

/-- The records of a file that pass, in the order of a query. -/
def lineOf (f : File) (sort : List SortKey) (p : Predicate) : Passing :=
  match f.scan with
  | .error e => .ofResult (.error e)
  | .ok scan =>
    if sort.isEmpty then passing p scan
    else .ofResult ((passing p scan).all.bind fun passed =>
      (sortRecords f.entity.fields sort passed).result)

theorem length_sortRecords {fields : List Field} {sort : List SortKey} {records sorted : List Record}
    (h : (sortRecords fields sort records).result = .ok sorted) : sorted.length = records.length := by
  rw [sortRecords, Traced.result_bind] at h
  obtain ⟨keys, -, h⟩ := Outcome.bind_eq_ok.mp h
  exact (Rowgate.Sort.perm_of_sortBy h).length_eq

theorem length_scan {f : File} (h : f.scan = .ok scan) : scan.length = f.records.length :=
  (Rowgate.Sort.perm_of_sortBy h).length_eq

theorem length_lineOf_le (f : File) (sort : List SortKey) (p : Predicate) :
    (lineOf f sort p).records.length ≤ f.records.length := by
  rw [lineOf]
  cases hscan : f.scan with
  | error e => exact Nat.zero_le _
  | ok scan =>
      rw [← length_scan hscan]
      dsimp only
      split
      · exact length_passing_le p scan
      · generalize hsorted : Except.bind (passing p scan).all _ = x
        cases x with
        | error e => exact Nat.zero_le _
        | ok sorted =>
            obtain ⟨passed, hpassed, hsorted⟩ := Outcome.bind_eq_ok.mp hsorted
            rw [Passing.all] at hpassed
            split at hpassed
            · cases hpassed
              exact le_trans (Nat.le_of_eq (length_sortRecords hsorted)) (length_passing_le p scan)
            · cases hpassed

/-- What is fetched is shown of the records that pass, whether a page is filled or sliced. -/
theorem shows_fetchWith (f : File) (q : Query) (p : Predicate) :
    Shows f.entity q (lineOf f q.sort p) (fetchWith f q p).2.result := by
  rw [fetchWith.eq_def, lineOf]
  cases f.scan with
  | error e => exact .fault rfl
  | ok scan =>
      dsimp only
      split
      · exact shows_streamed f.entity p q scan
      · rw [Traced.result_bind, Traced.result_ofResult, result_select]
        cases (passing p scan).all with
        | error e => exact .fault rfl
        | ok passed =>
            show Shows f.entity q (.ofResult (sortRecords f.entity.fields q.sort passed).result)
              (sorted f.entity q passed).result
            rw [sorted, Traced.result_bind]
            cases hsorted : (sortRecords f.entity.fields q.sort passed).result with
            | error e => exact .fault rfl
            | ok records =>
                rw [← length_sortRecords hsorted]
                exact .page (.inl rfl)

theorem shows_fetch (hp : (s.compile f.entity q).result = .ok p) :
    Shows f.entity q (lineOf f q.sort p) (s.fetch f q).result := by
  rw [result_fetch, hp]
  exact shows_fetchWith f q p

theorem passing_congr {fields : List Field} (h : p'.Alike fields p)
    (hscan : ∀ r ∈ scan, r.Scalar fields) :
    passing p' scan = passing p scan := by
  induction scan with
  | nil => rfl
  | cons r rs ih =>
      obtain ⟨hr, hrest⟩ := List.forall_mem_cons.mp hscan
      rw [passing, passing, h r hr, ih hrest]

/-- Records that come into a file by writes have nothing beside the fields. -/
theorem scalar_of_complete (h : f.Complete) : ∀ r ∈ f.records, r.Scalar f.entity.fields := by
  intro r hr entry hentry hunknown
  have hname : entry.1 ∈ f.entity.fields.map (·.name) := h r hr ▸ List.mem_map_of_mem hentry
  obtain ⟨field, hfield⟩ := Entity.exists_fieldNamed?_of_mem hname
  rw [hfield] at hunknown
  cases hunknown

theorem lineOf_congr {fields : List Field} (h : p'.Alike fields p)
    (hscalar : ∀ r ∈ f.records, r.Scalar fields) (sort : List SortKey) :
    lineOf f sort p' = lineOf f sort p := by
  rw [lineOf, lineOf]
  cases hscan : f.scan with
  | error e => rfl
  | ok scan =>
      have hmem : ∀ r ∈ scan, r.Scalar fields := fun r hr =>
        hscalar r ((Rowgate.Sort.perm_of_sortBy hscan).subset hr)
      dsimp only
      rw [passing_congr h hmem]

/-! ## One filter -/

/-- A filter is put before what a search looks for. -/
theorem combine_some (g : Filter) (search : Value) (fields : List Field) :
    Query.combine (some g) search fields = (Query.combine none search fields).map fun found =>
      some (found.elim g fun found => .group .all [some g, some found]) := by
  rw [Query.combine, Query.combine]
  cases search.str? with
  | none => rfl
  | some text =>
      dsimp only
      cases Search.filterIn text fields with
      | error fault => rfl
      | ok found => cases found <;> rfl

/-- What a query filters by is compiled alike for the query that a link leads to. -/
theorem compile_following {e : Entity} (h : q.Linkable e.fields) :
    Predicate.CompiledAlike e.fields (s.compile e q).result (s.compile e q.following).result := by
  have hsearch : q.following.search = q.search := rfl
  have hfilter : q.following.filter = q.filter.map fun g => g.tidied.reread := rfl
  intro p hp
  rw [compile, Traced.result_bind, Traced.result_ofResult, Query.condition] at hp ⊢
  rw [hsearch, hfilter]
  cases hg : q.filter with
  | none =>
      rw [hg] at hp
      exact ⟨p, hp, .refl e.fields p⟩
  | some g =>
      have hmeaning : Predicate.SameMeaning (s.scope e) g g.tidied.reread :=
        Predicate.sameMeaning_reread (h.steady g hg)
      rw [hg, combine_some] at hp
      rw [Option.map_some, combine_some]
      cases hfound : Query.combine none q.search e.fields with
      | error fault =>
          rw [hfound] at hp
          cases hp
      | ok found =>
          rw [hfound] at hp
          cases found with
          | none => exact hmeaning p hp
          | some found =>
              refine Predicate.sameMeaning_group .blank .blank .all (List.cons_ne_nil _ _) ?_ p hp
              exact .cons (.some hmeaning) (.cons (.some (.refl _ _)) .nil)

/-! ## One page after the other -/

/-- What comes of fetching a query and following the links, page by page, until a page is empty or
nothing can be fetched. -/
inductive Browses (s : FileService) (f : File) : Query → Except Fault (List Page) → Prop
  | failed {q : Query} {fault : Fault} (h : (s.fetch f q).result = .error fault) :
      Browses s f q (.error fault)
  | last {q : Query} {page : Page} (h : (s.fetch f q).result = .ok page)
      (hempty : page.records = []) : Browses s f q (.ok [page])
  | more {q next : Query} {page : Page} {link : String} {rest : Except Fault (List Page)}
      (h : (s.fetch f q).result = .ok page) (hfull : page.records ≠ [])
      (hlink : q.nextText = .ok (some link)) (hread : Query.ofText link = .ok (some next))
      (hrest : Browses s f next rest) : Browses s f q (rest.map (page :: ·))

/-- What comes of following the links is determined. -/
theorem Browses.unique {x y : Except Fault (List Page)} (hx : s.Browses f q x)
    (hy : s.Browses f q y) : x = y := by
  induction hx generalizing y with
  | failed h =>
      cases hy with
      | failed h' => rw [h] at h'; cases h'; rfl
      | last h' _ => rw [h] at h'; cases h'
      | more h' _ _ _ _ => rw [h] at h'; cases h'
  | last h hempty =>
      cases hy with
      | failed h' => rw [h] at h'; cases h'
      | last h' _ => rw [h] at h'; cases h'; rfl
      | more h' hfull _ _ _ => rw [h] at h'; cases h'; exact absurd hempty hfull
  | more h hfull hlink hread _ ih =>
      cases hy with
      | failed h' => rw [h] at h'; cases h'
      | last h' hempty => rw [h] at h'; cases h'; exact absurd hempty hfull
      | more h' _ hlink' hread' hrest' =>
          rw [h] at h'
          rw [hlink] at hlink'
          cases h'
          cases hlink'
          rw [hread] at hread'
          cases hread'
          rw [ih hrest']

/-- What pages are together: the records of a page without a limit, each page with its count; where
there is no such page, they fail as it does. -/
inductive MakeUp : Except Fault (List Page) → Except Fault Page → Prop
  | pages {pages : List Page} {whole : Page} (h : pages.flatMap Page.records = whole.records)
      (hcount : ∀ page ∈ pages, page.count = whole.count) : MakeUp (.ok pages) (.ok whole)
  | fault (fault : Fault) : MakeUp (.error fault) (.error fault)

/-- What pages show of a line from some place on: the rest of the line, and its length if they count,
unless the line ends where asking fails. -/
inductive ShowRest (e : Entity) (q : Query) (l : Passing) : Except Fault (List Page) → Prop
  | pages {pages : List Page} (hfault : l.fault = none)
      (h : pages.flatMap Page.records = (l.records.drop q.skip).map e.project)
      (hcount : ∀ page ∈ pages, page.count = countIf q l.records.length) : ShowRest e q l (.ok pages)
  | fault {fault : Fault} (h : l.fault = some fault) : ShowRest e q l (.error fault)

section Rest

variable {e : Entity} {l : Passing} {rest : Except Fault (List Page)}

theorem slice_eq_take (htake : 0 < q.take) (rs : List Record) :
    slice q rs = (rs.drop q.skip).take q.take := if_neg (Nat.ne_of_gt htake)

theorem slice_eq_nil_iff (htake : 0 < q.take) (rs : List Record) :
    slice q rs = [] ↔ rs.length ≤ q.skip := by
  rw [slice_eq_take htake, List.take_eq_nil_iff, List.drop_eq_nil_iff]
  omega

/-- The page after the end of a line. -/
theorem ShowRest.last (htake : 0 < q.take)
    (hreach : l.fault = none ∨ q.take ≠ 0 ∧ q.skip + q.take < l.records.length)
    (hend : l.records.length ≤ q.skip) :
    ShowRest e q l (.ok [⟨(slice q l.records).map e.project, countIf q l.records.length⟩]) := by
  refine .pages (hreach.resolve_right fun h => by omega) ?_ (List.forall_mem_singleton.mpr rfl)
  rw [(slice_eq_nil_iff htake l.records).mpr hend, List.drop_eq_nil_of_le hend]
  rfl

/-- A page goes before those of the query that its link leads to. -/
theorem ShowRest.cons (h : ShowRest e q.following l rest) (htake : 0 < q.take) :
    ShowRest e q l (rest.map (⟨(slice q l.records).map e.project, countIf q l.records.length⟩ :: ·)) := by
  cases h with
  | fault hf => exact .fault hf
  | pages hfault hrecords hcount =>
      refine .pages hfault ?_ (List.forall_mem_cons.mpr ⟨rfl, hcount⟩)
      have hskip : q.following.skip = q.skip + q.take := rfl
      rw [List.flatMap_cons, hrecords, hskip, slice_eq_take htake, ← List.map_append,
        ← List.drop_drop, List.take_append_drop]

/-- What pages show of the rest of a line is what one page without a limit shows of it. -/
theorem ShowRest.makeUp {whole : Except Fault Page} (h : ShowRest e q l rest)
    (hwhole : Shows e { q with take := 0 } l whole) : MakeUp rest whole := by
  cases h with
  | fault hf =>
      cases hwhole with
      | page hreach =>
          rw [hf] at hreach
          exact absurd rfl (hreach.resolve_left nofun).1
      | fault hf' =>
          rw [hf] at hf'
          cases hf'
          exact .fault _
  | pages hfault hrecords hcount =>
      cases hwhole with
      | page => exact .pages hrecords hcount
      | fault hf' =>
          rw [hfault] at hf'
          cases hf'

end Rest

/-- Following the links from a query on shows the rest of its line. -/
theorem browses_rest (hscalar : ∀ r ∈ f.records, r.Scalar f.entity.fields) (hparsed : q.Parsed)
    (hlink : q.Linkable f.entity.fields) (htake : 0 < q.take)
    (hsize : digitCount (f.records.length + q.take) ≤ digitLimit)
    (hp : (s.compile f.entity q).result = .ok p) :
    ∃ outcome, s.Browses f q outcome ∧ ShowRest f.entity q (lineOf f q.sort p) outcome := by
  generalize hleft : (lineOf f q.sort p).records.length - q.skip = left
  -- Every page that is not empty leaves less of the line for the pages after it.
  induction left using Nat.strong_induction_on generalizing q p with
  | _ left ih =>
      have hshows := shows_fetch hp
      generalize hfetch : (s.fetch f q).result = x at hshows
      cases hshows with
      | fault hf => exact ⟨_, .failed hfetch, .fault hf⟩
      | page hreach =>
          by_cases hend : (lineOf f q.sort p).records.length ≤ q.skip
          · refine ⟨_, .last hfetch ?_, .last htake hreach hend⟩
            rw [(slice_eq_nil_iff htake _).mpr hend]
            rfl
          · have hlength := length_lineOf_le f q.sort p
            obtain ⟨link, hwritten, hread⟩ := Query.nextText_reads hparsed hlink htake
              (le_trans (digitCount_mono (by omega)) hsize)
            obtain ⟨p', hp', halike⟩ := compile_following hlink p hp
            have hline : lineOf f q.following.sort p' = lineOf f q.sort p :=
              lineOf_congr halike hscalar q.sort
            have hless : (lineOf f q.following.sort p').records.length - q.following.skip < left := by
              rw [hline]
              show _ - (q.skip + q.take) < left
              omega
            obtain ⟨rest, hrest, hshown⟩ :=
              ih _ hless hparsed.following hlink.following htake hsize hp' rfl
            rw [hline] at hshown
            refine ⟨_, .more hfetch ?_ hwritten hread hrest, hshown.cons htake⟩
            rw [Ne, List.map_eq_nil_iff, slice_eq_nil_iff htake]
            exact hend

/-- Following the links of a query that was read, page by page, shows together what one fetch without
a limit shows. -/
theorem pages_make_whole {text : String} (hread : Query.ofText text = .ok (some q))
    (htake : 0 < q.take) (hlink : q.Linkable f.entity.fields)
    (hsize : digitCount (f.records.length + q.take) ≤ digitLimit)
    (hscalar : ∀ r ∈ f.records, r.Scalar f.entity.fields) :
    ∃ outcome, (∀ x, s.Browses f q x ↔ x = outcome) ∧
      MakeUp outcome (s.fetch f { q with take := 0 }).result := by
  have hdetermined : ∀ outcome, s.Browses f q outcome →
      ∀ x, s.Browses f q x ↔ x = outcome := fun outcome h x =>
    ⟨fun hx => hx.unique h, fun hx => hx ▸ h⟩
  have hcompile : s.compile f.entity { q with take := 0 } = s.compile f.entity q := rfl
  cases hp : (s.compile f.entity q).result with
  | error fault =>
      have hfetch : (s.fetch f q).result = .error fault := by
        rw [result_fetch, hp]
        rfl
      have hwhole : (s.fetch f { q with take := 0 }).result = .error fault := by
        rw [result_fetch, hcompile, hp]
        rfl
      rw [hwhole]
      exact ⟨_, hdetermined _ (.failed hfetch), .fault fault⟩
  | ok p =>
      obtain ⟨outcome, hbrowses, hrest⟩ :=
        browses_rest hscalar (Query.parsed_ofText hread) hlink htake hsize hp
      have hwhole : Shows f.entity { q with take := 0 } (lineOf f q.sort p)
          (s.fetch f { q with take := 0 }).result := shows_fetch (hcompile ▸ hp)
      exact ⟨outcome, hdetermined _ hbrowses, hrest.makeUp hwhole⟩

/-! ## Examples -/

/-- A query string for the first item with a code. The code is a decimal without a fraction, which a
link spells without a point. -/
def codeText : String :=
  "take=1&filter=\x7b\"field\":\"Code\",\"operator\":\"eq\",\"value\":1.0\x7d"

def codeTest : Test := .of "Code" .eq (.decimal (.finite false 10 (-1))) false

def codeQuery : Query := { Query.everything with take := 1, filter := some (.leaf codeTest) }

theorem ofText_codeText : Query.ofText codeText = .ok (some codeQuery) :=
  Outcome.toOption_eq_some_iff.mp (by decide +kernel)

theorem portable_codeTest : codeTest.Portable :=
  ⟨by decide, .decimal (by decide) fun _ => by decide⟩

theorem linkable_codeQuery {fields : List Field} (h : codeTest.Steady fields) :
    codeQuery.Linkable fields where
  sort := fun _ hk => nomatch hk
  portable := by
    rintro _ ⟨⟩
    exact .leaf .all portable_codeTest
  steady := by
    rintro _ ⟨⟩
    exact .leaf .all h
  depth := by
    rintro _ ⟨⟩
    decide
  search := fun _ hs => nomatch hs

/-- Two items with one code. -/
def twoItems (kind : FieldKind) (code : Value) : File where
  entity := ⟨"Item", none, false, [⟨"Id", none, 0, 0, .numeric, true, true, false⟩,
    ⟨"Code", none, 0, 0, kind, true, false, false⟩]⟩
  records := [[("Id", .int 1), ("Code", code)], [("Id", .int 2), ("Code", code)]]

theorem complete_twoItems (kind : FieldKind) (code : Value) : (twoItems kind code).Complete :=
  List.forall_mem_cons.mpr ⟨rfl, List.forall_mem_singleton.mpr rfl⟩

/-- A service without limits. -/
def clerk : FileService := ⟨false, Operator.all, true⟩

/-- Codes that are numbers are found on every page. -/
theorem pages_make_two_items :
    Query.ofText codeText = .ok (some codeQuery) ∧ 0 < codeQuery.take ∧
      codeQuery.Linkable (twoItems .numeric (.int 1)).entity.fields ∧
      digitCount ((twoItems .numeric (.int 1)).records.length + codeQuery.take) ≤ digitLimit ∧
      (∀ r ∈ (twoItems .numeric (.int 1)).records,
        r.Scalar (twoItems .numeric (.int 1)).entity.fields) ∧
      ∃ pages, clerk.Browses (twoItems .numeric (.int 1)) codeQuery (.ok pages) ∧
        pages.flatMap Page.records = (twoItems .numeric (.int 1)).records := by
  have htake : 0 < codeQuery.take := by decide
  have hlink : codeQuery.Linkable (twoItems .numeric (.int 1)).entity.fields :=
    linkable_codeQuery fun h => absurd h (by decide)
  have hsize : digitCount ((twoItems .numeric (.int 1)).records.length + codeQuery.take) ≤
      digitLimit := by decide
  have hscalar := scalar_of_complete (complete_twoItems .numeric (.int 1))
  have hwhole : (clerk.fetch (twoItems .numeric (.int 1)) { codeQuery with take := 0 }).result =
      .ok ⟨(twoItems .numeric (.int 1)).records, 0⟩ :=
    Outcome.toOption_eq_some_iff.mp (by decide +kernel)
  obtain ⟨outcome, hbrowses, hmake⟩ :=
    pages_make_whole (s := clerk) ofText_codeText htake hlink hsize hscalar
  rw [hwhole] at hmake
  cases hmake with
  | pages h hcount =>
      exact ⟨ofText_codeText, htake, hlink, hsize, hscalar, _, (hbrowses _).mpr rfl, h⟩

/-- Codes that are texts are found on the first page, and the page after it is empty. -/
theorem pages_lose_records :
    Query.ofText codeText = .ok (some codeQuery) ∧ codeTest.Portable ∧
      (clerk.fetch (twoItems .string (.str "1.0")) { codeQuery with take := 0 }).result =
        .ok ⟨(twoItems .string (.str "1.0")).records, 0⟩ ∧
      ∃ page, page.records.length = 1 ∧
        clerk.Browses (twoItems .string (.str "1.0")) codeQuery (.ok [page, ⟨[], 0⟩]) := by
  have hwhole : (clerk.fetch (twoItems .string (.str "1.0")) { codeQuery with take := 0 }).result =
      .ok ⟨(twoItems .string (.str "1.0")).records, 0⟩ :=
    Outcome.toOption_eq_some_iff.mp (by decide +kernel)
  have hfirst : (clerk.fetch (twoItems .string (.str "1.0")) codeQuery).result =
      .ok ⟨[[("Id", .int 1), ("Code", .str "1.0")]], 0⟩ :=
    Outcome.toOption_eq_some_iff.mp (by decide +kernel)
  have hsecond : (clerk.fetch (twoItems .string (.str "1.0")) codeQuery.following).result =
      .ok ⟨[], 0⟩ :=
    Outcome.toOption_eq_some_iff.mp (by decide +kernel)
  -- The link does not depend on the fields, and without fields every test of this kind is steady.
  have hlink : codeQuery.Linkable [] := linkable_codeQuery fun h => absurd h (by decide)
  obtain ⟨link, hwritten, hread⟩ :=
    Query.nextText_reads (Query.parsed_ofText ofText_codeText) hlink (by decide) (by decide)
  exact ⟨ofText_codeText, portable_codeTest, hwhole, _, rfl,
    .more hfirst (List.cons_ne_nil _ _) hwritten hread (.last hsecond rfl)⟩

end Rowgate.FileService
