import Rowgate.Proofs.Encoding.Form
import Rowgate.Proofs.Filter.RoundTrip
import Rowgate.Proofs.Json.RoundTrip
import Rowgate.Query.Writer

/-!
# Queries that are read back

A query goes through three writings, one inside the other: filter and order become JSON, the parts
become named texts, and the texts become a query string. Each of them is read back as it is, so what
is left is that a part sets what it was written for and nothing else (`Says`): the parts that are
not written are those that a query for everything has anyway.

The query that is read back is equal to the one that was written, though not the same if a test has
an integral decimal. The one limit is the writer's: a filter whose value is too deep for JSON is not
written at all (`toText_of_too_deep`).
-/

namespace Rowgate

open Shape

namespace Query

/-- Whether the parts of a query can be written and are read back as equal ones. -/
structure Portable (q : Query) : Prop where
  take : digitCount q.take ≤ digitLimit
  skip : digitCount q.skip ≤ digitLimit
  sort : ∀ k ∈ q.sort, Text.Whole k.field.toList
  filter : ∀ f, q.filter = some f → f.Tidy Test.Portable
  search : q.search = .null ∨ ∃ s, q.search = .str s ∧ s ≠ "" ∧ Text.Whole s.toList

/-- What is read back of a query. -/
def reread (q : Query) : Query := { q with filter := q.filter.map Filter.reread }

/-! ## Orders -/

theorem check_direction (d : Direction) : Direction.check (.str d.name) = .ok d := by
  have hname : Direction.ofName? d.name = some d := by cases d <;> decide +kernel
  have hvalue : Direction.ofValue (.str d.name) = .ok d := by
    rw [Direction.ofValue, Value.str?, Option.bind_some, hname]
  rw [Direction.check, hvalue]

theorem ofValue_sortKey (k : SortKey) : SortKey.ofValue k.toValue = .ok k := by
  have hdirection : memberOr [("field", .str k.field), ("direction", .str k.direction.name)]
      (.plain "direction") .ascending Direction.check = .ok k.direction :=
    memberOr_of_find? rfl (check_direction k.direction)
  simp only [SortKey.ofValue, SortKey.toValue, structureOf, bind, Except.bind, SortKey.ofRecord,
    hdirection]
  rfl

theorem readKeys_toValue (ks : List SortKey) : readKeys (ks.map SortKey.toValue) = .ok ks := by
  induction ks with
  | nil => rfl
  | cons k ks ih =>
      rw [List.map_cons, readKeys, ofValue_sortKey, ih]
      rfl

theorem portable_sort {ks : List SortKey} (h : ∀ k ∈ ks, Text.Whole k.field.toList) :
    (Value.list (ks.map SortKey.toValue)).Portable := by
  refine .list fun v hv => ?_
  obtain ⟨k, hk, rfl⟩ := List.mem_map.mp hv
  refine .dict (by decide : ["field", "direction"].Nodup) ?_ ?_
  · exact List.forall_mem_cons.mpr ⟨(by decide : Text.Whole "field".toList),
      List.forall_mem_singleton.mpr (by decide : Text.Whole "direction".toList)⟩
  · exact List.forall_mem_cons.mpr ⟨.str (h k hk),
      List.forall_mem_singleton.mpr (.str (by cases k.direction <;> decide))⟩

theorem reread_sort (ks : List SortKey) :
    (Value.list (ks.map SortKey.toValue)).reread = .list (ks.map SortKey.toValue) := by
  rw [Value.reread, Value.rereadItems_eq_map, List.map_map]
  rfl

theorem depth_sort_le (ks : List SortKey) :
    (Value.list (ks.map SortKey.toValue)).depth ≤ Json.depthLimit := by
  have hitems : Value.itemsDepth (ks.map SortKey.toValue) ≤ 2 := by
    refine Value.itemsDepth_le_iff.mpr fun v hv => ?_
    obtain ⟨k, _, rfl⟩ := List.mem_map.mp hv
    exact Nat.le_refl 2
  rw [Value.depth]
  exact le_trans (Nat.succ_le_succ hitems) (by decide)

/-! ## Parts with their texts -/

/-- Texts as the values that a query string has. -/
def asValues (pairs : List (String × String)) : Record :=
  pairs.map fun (name, text) => (name, .str text)

/-- Pairs for some parts, at most one for each and in order, turn a query into another one. -/
structure Says (parts : List QueryPart) (pairs : List (String × String)) (p p' : Query) : Prop where
  named : (pairs.map (·.1)).Sublist (parts.map QueryPart.name)
  whole : ∀ pair ∈ pairs, Text.Whole pair.2.toList
  read : setParts p (asValues pairs) = .ok p'

theorem ofName?_name (part : QueryPart) : QueryPart.ofName? part.name = some part := by
  cases part <;> decide

theorem normalName_name (part : QueryPart) : normalName part.name = part.name := by
  cases part <;> decide +kernel

theorem whole_name (part : QueryPart) : Text.Whole part.name.toList := by
  cases part <;> decide

theorem setParts_append (p : Query) (a b : Record) :
    setParts p (a ++ b) = (setParts p a).bind fun q => setParts q b := by
  induction a generalizing p with
  | nil => rfl
  | cons entry a ih =>
      obtain ⟨name, v⟩ := entry
      rw [List.cons_append, setParts, setParts]
      cases QueryPart.ofName? name with
      | none => exact ih p
      | some part =>
          show (setPart p part v).bind _ = ((setPart p part v).bind _).bind _
          cases setPart p part v with
          | error fault => rfl
          | ok q => exact ih q

theorem Says.nothing (parts : List QueryPart) (p : Query) : Says parts [] p p where
  named := List.nil_sublist _
  whole := fun _ h => (nomatch h)
  read := rfl

theorem Says.of_pair {part : QueryPart} {s : String} {p p' : Query} (hs : Text.Whole s.toList)
    (h : setPart p part (.str s) = .ok p') : Says [part] [(part.name, s)] p p' where
  named := List.Sublist.refl _
  whole := List.forall_mem_singleton.mpr hs
  read := by
    show setParts p [(part.name, .str s)] = _
    rw [setParts, ofName?_name]
    show (setPart p part (.str s)).bind _ = _
    rw [h]
    rfl

theorem Says.append {parts more : List QueryPart} {pairs rest : List (String × String)}
    {p p' p'' : Query} (h : Says parts pairs p p') (h' : Says more rest p' p'') :
    Says (parts ++ more) (pairs ++ rest) p p'' where
  named := by
    rw [List.map_append, List.map_append]
    exact h.named.append h'.named
  whole := List.forall_mem_append.mpr ⟨h.whole, h'.whole⟩
  read := by
    rw [asValues, List.map_append, setParts_append, ← asValues, h.read]
    exact h'.read

/-- A part is written if it is present, and else it is the same in both queries. -/
theorem says_partIf {part : QueryPart} {present : Bool} {text : Except Fault String} {p p' : Query}
    (hyes : present = true →
      ∃ s, text = .ok s ∧ Text.Whole s.toList ∧ setPart p part (.str s) = .ok p')
    (hno : present = false → p = p') :
    ∃ pairs, partIf present part text = .ok pairs ∧ Says [part] pairs p p' := by
  cases present with
  | false =>
      rw [← hno rfl]
      exact ⟨[], rfl, .nothing [part] p⟩
  | true =>
      obtain ⟨s, rfl, hs, hset⟩ := hyes rfl
      exact ⟨_, rfl, .of_pair hs hset⟩

theorem countText_eq {n : Nat} (h : digitCount n ≤ digitLimit) :
    countText n = .ok (String.ofList (digitsOf n)) := by
  rw [countText, integerText, Int.natAbs_natCast, if_pos h, signedDigits,
    if_neg (Int.not_lt.mpr (Int.natCast_nonneg n)), Int.natAbs_natCast]
  rfl

theorem wholeNumber_digitsOf {n : Nat} (h : digitCount n ≤ digitLimit) :
    wholeNumber (.str (String.ofList (digitsOf n))) = .ok (some (n : Int)) := by
  rw [wholeNumber, String.toList_ofList, readInteger_digitsOf h]
  rfl

theorem whole_digitsOf (n : Nat) : Text.Whole (String.ofList (digitsOf n)).toList := by
  rw [String.toList_ofList]
  exact Json.whole_of_isDigit fun _ => isDigit_of_mem_digitsOf

section Parts

variable {q p : Query}

theorem says_take (h : digitCount q.take ≤ digitLimit) (hp : p.take = 0) :
    ∃ pairs, partIf (q.take != 0) .take (countText q.take) = .ok pairs ∧
      Says [.take] pairs p { p with take := q.take } := by
  refine says_partIf (fun _ => ⟨_, countText_eq h, whole_digitsOf q.take, ?_⟩) fun hno => ?_
  · rw [setPart, wholeNumber_digitsOf h]
    rfl
  · rw [bne_eq_false_iff_eq.mp hno, ← hp]

theorem says_skip (h : digitCount q.skip ≤ digitLimit) (hp : p.skip = 0) :
    ∃ pairs, partIf (q.skip != 0) .skip (countText q.skip) = .ok pairs ∧
      Says [.skip] pairs p { p with skip := q.skip } := by
  refine says_partIf (fun _ => ⟨_, countText_eq h, whole_digitsOf q.skip, ?_⟩) fun hno => ?_
  · rw [setPart, wholeNumber_digitsOf h]
    rfl
  · rw [bne_eq_false_iff_eq.mp hno, ← hp]

theorem truthWord_true : truthWord (.str "true") = .ok (some true) := by
  have htext : (Value.str "true").plainText = .ok "true" := by
    show Except.ok (String.ofList "true".toList) = _
    rw [String.ofList_toList]
  have hword : normalName "true" = "true" := by decide +kernel
  rw [truthWord, htext]
  · simp only [hword, if_true]
  · exact fun _ h => nomatch h

theorem says_withCount (hp : p.withCount = false) :
    Says [.withCount] (if q.withCount then [(QueryPart.withCount.name, "true")] else []) p
      { p with withCount := q.withCount } := by
  cases q.withCount with
  | false =>
      have hsame : { p with withCount := false } = p := by rw [← hp]
      rw [hsame]
      exact .nothing [.withCount] p
  | true =>
      refine .of_pair (by decide) ?_
      rw [setPart, truthWord_true]
      rfl

/-- A part that is a JSON text is read as the value that is read back. -/
theorem loadPart_of_read {part : QueryPart} {text : String} {v : Value}
    (h : Json.read text.toList = .ok v) : loadPart part (.str text) = .ok v := by
  rw [loadPart, if_neg, h]
  · rfl
  · intro hempty
    rw [String.isEmpty_iff.mp hempty] at h
    cases h

theorem says_sort (h : ∀ k ∈ q.sort, Text.Whole k.field.toList) (hp : p.sort = []) :
    ∃ pairs, partIf (!q.sort.isEmpty) .sort
        (jsonText (.list (q.sort.map SortKey.toValue))) = .ok pairs ∧
      Says [.sort] pairs p { p with sort := q.sort } := by
  obtain ⟨text, hwrite, hwhole, hread⟩ := Json.read_write (portable_sort h) (depth_sort_le q.sort)
  refine says_partIf (fun _ => ⟨text, by rw [jsonText, hwrite]; rfl, hwhole, ?_⟩) fun hno => ?_
  · rw [setPart, readSort, loadPart_of_read hread, reread_sort]
    show (readKeys _).bind _ = _
    rw [readKeys_toValue]
    rfl
  · have hempty : q.sort = [] := by simpa using hno
    rw [hempty, ← hp]

theorem readFilter_of_read {text : String} {f : Filter} (hf : f.Tidy Test.Portable)
    (hdepth : f.toValue.depth ≤ Json.depthLimit)
    (h : Json.read text.toList = .ok f.toValue.reread) :
    readFilter (.str text) = .ok (some f.reread) := by
  have hheight : f.reread.height ≤ Filter.depthLimit := by
    rw [Filter.height_reread]
    exact le_trans f.height_le_depth hdepth
  have hread : Filter.ofValue (.dict f.reread.toRecord) = .ok f.reread :=
    Filter.nodeOf_toValue hf.reread hheight
  rw [readFilter, loadPart_of_read h, Filter.reread_toValue]
  show (checkPart .filter (Filter.ofValue (.dict f.reread.toRecord))).map some = _
  rw [hread]
  rfl

theorem says_filter (h : ∀ f, q.filter = some f → f.Tidy Test.Portable)
    (hdepth : ∀ f, q.filter = some f → f.toValue.depth ≤ Json.depthLimit) (hp : p.filter = none) :
    ∃ pairs, (match q.filter with
        | some f => partIf true .filter (jsonText f.toValue)
        | none => .ok []) = .ok pairs ∧
      Says [.filter] pairs p { p with filter := q.filter.map Filter.reread } := by
  cases hfilter : q.filter with
  | none =>
      have hsame : { p with filter := (none : Option Filter).map Filter.reread } = p := by
        rw [Option.map_none, ← hp]
      rw [hsame]
      exact ⟨[], rfl, .nothing [.filter] p⟩
  | some f =>
      obtain ⟨text, hwrite, hwhole, hread⟩ :=
        Json.read_write (h f hfilter).portable_toValue (hdepth f hfilter)
      refine says_partIf (fun _ => ⟨text, by rw [jsonText, hwrite]; rfl, hwhole, ?_⟩)
        fun hno => (nomatch hno)
      rw [setPart, readFilter_of_read (h f hfilter) (hdepth f hfilter) hread]
      rfl

theorem says_search (h : q.search = .null ∨ ∃ s, q.search = .str s ∧ s ≠ "" ∧ Text.Whole s.toList)
    (hp : p.search = .null) :
    ∃ pairs, partIf q.search.isTrue .search (searchText q.search) = .ok pairs ∧
      Says [.search] pairs p { p with search := q.search } := by
  rcases h with h | ⟨s, h, hne, hs⟩
  · rw [h]
    refine says_partIf (fun hyes => (nomatch hyes)) fun _ => ?_
    rw [← hp]
  · have htrue : (Value.str s).isTrue = true := by
      rw [Value.isTrue, Bool.not_eq_true', ← Bool.not_eq_true, String.isEmpty_iff]
      exact hne
    have htext : searchText (.str s) = .ok s := by
      show Except.ok (String.ofList s.toList) = _
      rw [String.ofList_toList]
    rw [h]
    refine says_partIf (fun _ => ⟨s, htext, hs, ?_⟩) fun hno => ?_
    · rw [setPart, if_pos htrue]
    · rw [htrue] at hno
      cases hno

end Parts

/-! ## All parts -/

theorem toPairs_eq {q : Query} {take skip sort filter search : List (String × String)}
    (htake : partIf (q.take != 0) .take (countText q.take) = .ok take)
    (hskip : partIf (q.skip != 0) .skip (countText q.skip) = .ok skip)
    (hsort : partIf (!q.sort.isEmpty) .sort (jsonText (.list (q.sort.map SortKey.toValue))) =
      .ok sort)
    (hfilter : (match q.filter with
      | some f => partIf true .filter (jsonText f.toValue)
      | none => .ok []) = .ok filter)
    (hsearch : partIf q.search.isTrue .search (searchText q.search) = .ok search) :
    q.toPairs = .ok (take ++ skip ++
      (if q.withCount then [(QueryPart.withCount.name, "true")] else []) ++ sort ++ filter ++
      search) := by
  rw [toPairs, hsort]
  cases hf : q.filter with
  | none =>
      rw [hf] at hfilter
      cases hfilter
      rw [htake, hskip, hsearch]
      rfl
  | some f =>
      rw [hf] at hfilter
      have hpart : partIf true .filter (jsonText f.toValue) = .ok filter := hfilter
      simp only [hpart]
      rw [htake, hskip, hsearch]
      rfl

/-- The parts of a query, as they are written, turn the query for everything into it. -/
theorem says_toPairs {q : Query} (h : q.Portable)
    (hdepth : ∀ f, q.filter = some f → f.toValue.depth ≤ Json.depthLimit) :
    ∃ pairs, q.toPairs = .ok pairs ∧ Says QueryPart.all pairs everything q.reread := by
  obtain ⟨take, htake, hsaysTake⟩ := says_take (p := everything) h.take rfl
  obtain ⟨skip, hskip, hsaysSkip⟩ :=
    says_skip (p := { everything with take := q.take }) h.skip rfl
  have hsaysCount := says_withCount (q := q)
    (p := { everything with take := q.take, skip := q.skip }) rfl
  obtain ⟨sort, hsort, hsaysSort⟩ := says_sort
    (p := { everything with take := q.take, skip := q.skip, withCount := q.withCount }) h.sort rfl
  obtain ⟨filter, hfilter, hsaysFilter⟩ := says_filter
    (p := { everything with
      take := q.take, skip := q.skip, withCount := q.withCount, sort := q.sort })
    h.filter hdepth rfl
  obtain ⟨search, hsearch, hsaysSearch⟩ := says_search
    (p := { q.reread with search := .null }) h.search rfl
  exact ⟨_, toPairs_eq htake hskip hsort hfilter hsearch,
    ((((hsaysTake.append hsaysSkip).append hsaysCount).append hsaysSort).append
      hsaysFilter).append hsaysSearch⟩

/-- Pairs for different parts keep their names and their order. -/
theorem Says.normalParts_eq {pairs : List (String × String)} {p p' : Query}
    (h : Says QueryPart.all pairs p p') : normalParts (asValues pairs) = asValues pairs := by
  have hnames : Record.names (asValues pairs) = pairs.map (·.1) := by
    rw [Record.names, asValues, List.map_map]
    rfl
  have hnormal : normalParts (asValues pairs) = Record.ofEntries (asValues pairs) := by
    refine congrArg Record.ofEntries ((List.map_congr_left fun e he => ?_).trans (List.map_id _))
    have hmem : e.1 ∈ Record.names (asValues pairs) := List.mem_map_of_mem he
    rw [hnames] at hmem
    obtain ⟨part, _, hpart⟩ := List.mem_map.mp (h.named.subset hmem)
    show (normalName e.1, e.2) = (e.1, e.2)
    rw [← hpart, normalName_name]
  rw [hnormal, Record.ofEntries_of_nodup]
  rw [hnames]
  exact h.named.nodup (by decide)

/-- Pairs for different parts are read from the query string that is written of them. -/
theorem Says.pairsOf_eq {pairs : List (String × String)} {p p' : Query}
    (h : Says QueryPart.all pairs p p') :
    ∃ cs, Form.encodePairs pairs = .ok cs ∧ pairsOf (String.ofList cs) = asValues pairs := by
  have hwhole : ∀ pair ∈ pairs, Text.Whole pair.1.toList ∧ Text.Whole pair.2.toList := by
    intro pair hpair
    obtain ⟨part, _, hpart⟩ := List.mem_map.mp (h.named.subset (List.mem_map_of_mem hpair))
    rw [← hpart]
    exact ⟨whole_name part, h.whole pair hpair⟩
  have hmark : '?' ∉ Text.joinWith ['&'] (pairs.map Form.piece) := by
    intro hmem
    rcases Text.mem_joinWith hmem with hmem | ⟨_, hpiece, hmem⟩
    · exact absurd hmem (by decide)
    · obtain ⟨pair, _, rfl⟩ := List.mem_map.mp hpiece
      exact Form.not_mem_piece (by decide) (by decide) (by decide) (by decide) pair hmem
  have hdrop : (Text.joinWith ['&'] (pairs.map Form.piece)).dropWhile (· == '?') =
      Text.joinWith ['&'] (pairs.map Form.piece) := by
    cases hcs : Text.joinWith ['&'] (pairs.map Form.piece) with
    | nil => rfl
    | cons c cs =>
        rw [hcs] at hmark
        refine List.dropWhile_cons_of_neg ?_
        rw [beq_iff_eq]
        rintro rfl
        exact hmark List.mem_cons_self
  refine ⟨_, Form.encodePairs_eq hwhole, ?_⟩
  rw [pairsOf, String.toList_ofList, hdrop, Form.decodePairs_joinWith]
  rfl

theorem reread_ne_everything {q : Query} (h : q ≠ everything) : q.reread ≠ everything := by
  intro heq
  obtain ⟨take, skip, sort, filter, search, withCount⟩ := q
  cases filter with
  | none => exact h heq
  | some f => cases congrArg Query.filter heq

/-- A query is written, and what is read back is the query up to the values of its tests. -/
theorem ofText_toText {q : Query} (h : q.Portable)
    (hdepth : ∀ f, q.filter = some f → f.toValue.depth ≤ Json.depthLimit) (hq : q ≠ everything) :
    ∃ text, q.toText = .ok text ∧ ofText text = .ok (some q.reread) := by
  obtain ⟨pairs, hpairs, hsays⟩ := says_toPairs h hdepth
  obtain ⟨cs, hcs, hread⟩ := hsays.pairsOf_eq
  refine ⟨String.ofList cs, ?_, ?_⟩
  · simp only [toText, hpairs, bind, Except.bind, hcs]
  · rw [ofText, hread, ofPairs, hsays.normalParts_eq]
    have hset := hsays.read
    cases hentries : asValues pairs with
    | nil =>
        rw [hentries] at hset
        exact absurd (Except.ok.inj hset).symm (reread_ne_everything hq)
    | cons entry rest =>
        rw [hentries] at hset
        show (setParts everything (entry :: rest)).map some = _
        rw [hset]
        rfl

/-- What is read back of a query is equal to it. -/
theorem agrees_reread {q : Query} (h : q.Portable) : q.reread.agrees Value.equals q = true := by
  have hsearch : Value.equals q.search q.search = true := by
    rcases h.search with hs | ⟨s, hs, _⟩
    · rw [hs]
      rfl
    · rw [hs]
      exact beq_self_eq_true s
  rw [agrees]
  simp only [reread, beq_self_eq_true, hsearch, Bool.true_and, Bool.and_true]
  cases hfilter : q.filter with
  | none => rfl
  | some f => exact (h.filter f hfilter).agrees_reread

/-- A query whose filter is too deep for JSON is not written. -/
theorem toText_of_too_deep {q : Query} {f : Filter} (hfilter : q.filter = some f)
    (hf : f.Tidy Test.Portable) (hdeep : Json.depthLimit < f.toValue.depth) :
    ∃ fault, q.toText = .error fault := by
  obtain ⟨fault, hwrite⟩ := Json.write_of_too_deep hf.portable_toValue hdeep
  have hpart : partIf true .filter (jsonText f.toValue) =
      .error (Fault.ofWriteFault fault) := by
    rw [partIf, jsonText, hwrite]
    rfl
  rw [toText, toPairs, hfilter]
  cases partIf (!q.sort.isEmpty) .sort (jsonText (.list (q.sort.map SortKey.toValue))) with
  | error fault => exact ⟨fault, rfl⟩
  | ok sort =>
      refine ⟨Fault.ofWriteFault fault, ?_⟩
      simp only [hpart]
      rfl

end Query

/-! ## The round trip -/

/-- A query whose filter is not too deep for JSON is written as a query string, and the query that
is read from it is equal to the one that was written. -/
theorem query_comes_back {q : Query} (h : q.Portable)
    (hdepth : ∀ f, q.filter = some f → f.toValue.depth ≤ Json.depthLimit)
    (hq : q ≠ .everything) :
    ∃ text p, q.toText = .ok text ∧ Query.ofText text = .ok (some p) ∧
      p.agrees Value.equals q = true := by
  obtain ⟨text, hwrite, hread⟩ := Query.ofText_toText h hdepth hq
  exact ⟨text, q.reread, hwrite, hread, Query.agrees_reread h⟩

/-! ## Examples -/

/-- A page of a list: whatever has a price above ten, an integral decimal with a point in it, or a
name with signs that query strings have a use for; one member of the filter is missing. -/
def dearGoods : Query where
  take := 10
  skip := 20
  sort := [⟨"Name", .descending⟩]
  filter := some (.group .any [
    some (.leaf (.of "Price" .gt (.decimal (.finite false 1000 (-2))) false)), none,
    some (.leaf (.of "Name" .contains (.str "50% + \"tax\" & more = ü") true))])
  search := .str "? a+b"
  withCount := true

theorem query_comes_back_dearGoods :
    dearGoods.Portable ∧ (∀ f, dearGoods.filter = some f → f.toValue.depth ≤ Json.depthLimit) ∧
      dearGoods ≠ .everything ∧
      ∃ text p, dearGoods.toText = .ok text ∧ Query.ofText text = .ok (some p) ∧
        p.agrees Value.equals dearGoods = true := by
  have hportable : dearGoods.Portable := by
    refine ⟨by decide, by decide, by decide, ?_, Or.inr ⟨_, rfl, by decide, by decide⟩⟩
    rintro _ ⟨⟩
    refine .group (List.cons_ne_nil _ _) fun f hf => ?_
    simp only [List.mem_cons, Option.some.injEq, List.not_mem_nil, or_false] at hf
    rcases hf with rfl | hf | rfl
    · exact .leaf ⟨by decide, rfl⟩ ⟨by decide, .decimal (by decide) fun _ => by decide⟩
    · cases hf
    · exact .leaf ⟨by decide, rfl⟩ ⟨by decide, .str (by decide)⟩
  have hdepth : ∀ f, dearGoods.filter = some f → f.toValue.depth ≤ Json.depthLimit := by
    rintro _ ⟨⟩
    decide
  have hsome : dearGoods ≠ .everything := fun h => absurd (congrArg Query.take h) (by decide)
  exact ⟨hportable, hdepth, hsome, query_comes_back hportable hdepth hsome⟩

theorem depth_wrapped (n : Nat) : (Filter.wrapped n).toValue.depth = 2 * n + 2 := by
  induction n with
  | zero => rfl
  | succ n ih =>
      show max 1 (max (max (Filter.wrapped n).toValue.depth 0 + 1) 0) + 1 = _
      omega

/-- A query for a single test, wrapped in more groups than JSON is written for. -/
def wrappedTest : Query := { Query.everything with filter := some (.wrapped 130) }

theorem wrappedTest_not_written :
    wrappedTest.Portable ∧ wrappedTest ≠ .everything ∧
      ¬ ∃ text p, wrappedTest.toText = .ok text ∧ Query.ofText text = .ok (some p) ∧
        p.agrees Value.equals wrappedTest = true := by
  refine ⟨⟨by decide, by decide, by decide, ?_, Or.inl rfl⟩, ?_, ?_⟩
  · rintro _ ⟨⟩
    exact Filter.tidy_wrapped 130
  · exact fun h => nomatch congrArg Query.filter h
  · rintro ⟨text, p, hwrite, _⟩
    obtain ⟨fault, hfault⟩ := Query.toText_of_too_deep (q := wrappedTest) rfl (Filter.tidy_wrapped 130)
      (by rw [depth_wrapped]; decide)
    rw [hfault] at hwrite
    cases hwrite

end Rowgate
