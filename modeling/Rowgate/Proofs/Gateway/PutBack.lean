import Rowgate.Proofs.Gateway.History
import Rowgate.Proofs.Store.PutBack

/-!
# Reading a record and putting it back

A gateway lists the records of its file, and a client sends one of the objects in the list back as it
is. The file that is left may hold other values than before, an integer where there was an integral
decimal, and still it is listed with the same text. So the text is the invariant here, not the file
(`File.Stays`): what a client has read in it holds for the file that is there when the object comes
back, however many came back before.
-/

namespace Rowgate

/-- Whether a file of an entity can be listed and sent back, and is written as a text. -/
structure File.Stays (e : Entity) (content : String) (f : File) : Prop where
  entity : f.entity = e
  returning : f.Returning
  shows : f.Shows content

/-- Whether a client reads a text as a page with some objects. -/
def Response.Tells (content : String) (shown : List Record) : Prop :=
  Json.read content.toList = .ok (.dict [("data", .list (shown.map .dict)), ("count", .int 0)])

namespace File.Stays

variable {e : Entity} {content : String} {f g : File} {shown : List Record} {object c : Record}

theorem tells (hf : f.Stays e content) :
    ∃ scan : List Record, scan.Perm f.records ∧ Response.Tells content (scan.map e.shown) := by
  obtain ⟨scan, hperm, hread⟩ := hf.returning.read_content hf.shows
  rw [hf.entity] at hread
  refine ⟨scan, hperm, ?_⟩
  rw [Response.Tells, hread, List.map_map]
  rfl

/-- An object that a client has read shows a record of the file that is there. -/
theorem exists_record (hf : f.Stays e content) (htells : Response.Tells content shown)
    (hobject : object ∈ shown) : ∃ r ∈ f.records, object = f.entity.shown r := by
  obtain ⟨scan, hperm, htells'⟩ := hf.tells
  have hdicts : shown.map Value.dict = (scan.map e.shown).map Value.dict := by
    have h := htells.symm.trans htells'
    simpa using h
  have hshown : shown = scan.map e.shown :=
    List.map_injective_iff.mpr (fun _ _ h => Value.dict.inj h) hdicts
  rw [hshown] at hobject
  obtain ⟨r, hr, rfl⟩ := List.mem_map.mp hobject
  exact ⟨r, hperm.subset hr, by rw [hf.entity]⟩

theorem exists_fields (hf : f.Stays e content) (hkeys : e.keyFields ≠ [])
    (htells : Response.Tells content shown) (hobject : object ∈ shown) :
    ∃ c, (e.fieldsIn .put object).result = .ok c ∧ c.isEmpty = false := by
  obtain ⟨r, hr, rfl⟩ := hf.exists_record htells hobject
  obtain ⟨c, hc, -, -, hhas, -⟩ := sure_fieldsIn_shown hf.returning.sound.names
    (hf.returning.sound.formed r hr) (hf.returning.returns r hr) .put
  rw [hf.entity] at hc hhas ⊢
  refine ⟨c, hc, ?_⟩
  obtain ⟨field, hfield⟩ := List.exists_mem_of_ne_nil _ hkeys
  have hhas' := hhas field (List.mem_of_mem_filter hfield)
  cases c with
  | nil => cases hhas'
  | cons => rfl

/-- The file takes what is sent back and is written as before. -/
theorem put_back (hf : f.Stays e content) (hwritable : e.readOnly = false)
    (htells : Response.Tells content shown) (hobject : object ∈ shown)
    (hc : (e.fieldsIn .put object).result = .ok c) (set : FileSet) :
    ∃ g, ((set.service f.entity).update c).outcome f = (.ok [], g) ∧ g.Stays e content := by
  obtain ⟨r, hr, rfl⟩ := hf.exists_record htells hobject
  obtain ⟨c', hc', hformed, hshow, -, hreturns⟩ := sure_fieldsIn_shown hf.returning.sound.names
    (hf.returning.sound.formed r hr) (hf.returning.returns r hr) .put
  rw [← hf.entity] at hc
  cases hc.symm.trans hc'
  have hservice : (set.service f.entity).readOnly = false := by
    rw [FileSet.service, hf.entity, hwritable]
  obtain ⟨g, hg, hentity, hreturning, hshows⟩ :=
    hf.returning.put_back hservice hf.shows hr hformed hshow hreturns
  exact ⟨g, hg, hentity.trans hf.entity, hreturning, hshows⟩

end File.Stays

/-! ## Requests -/

/-- Whether a request asks for all records of an entity. -/
structure Request.Gets (r : Request) (root : List String) (e : Entity) : Prop where
  method : Method.ofName? r.method = some .get
  path : segments r.path = root ++ [e.name]
  query : r.query = ""

/-- Whether a request sends back, as it is, one of the objects that a client has read. -/
structure Request.PutsBack (r : Request) (root : List String) (e : Entity) (shown : List Record) :
    Prop where
  method : Method.ofName? r.method = some .put
  path : segments r.path = root ++ [e.name]
  body : ∃ object ∈ shown, r.body.decode = .ok object

namespace Gateway

variable {g : Gateway} {e : Entity} {f : File} {content : String} {shown : List Record}
  {now : Reading} {r : Request} {object : Record}

theorem get_yields (hname : e.name ≠ metadataSegment) (hr : r.Gets g.root e) :
    (g.handle r).Yields (g.Serves (File.Stays e content) e now) (now.toBinary?.isSome = true)
      (· = some ⟨200, some content⟩) := by
  refine handle_yields_offer (fun _ hf => hf.entity) hname hr.path ?_
  refine (offer_yields_some hr.method rfl
    (serve_shown_yields (fun _ hf => hf.shows) hr.query)).weaken ?_
  rintro _ ⟨_, rfl, rfl⟩
  rfl

theorem fieldsOf_yields_eq {inv : Premises → Prop} {resource : Resource} {body : Body} {c : Record}
    {method : Method} (hbody : body.decode = .ok object)
    (hc : (resource.entity.fieldsIn method object).result = .ok c) (hne : c.isEmpty = false) :
    (fieldsOf method resource body).Yields inv True (· = c) := by
  refine Work.Yields.bind (P := (· = object))
    (Work.yields_ofTraced (fun _ h => (Except.ok.inj (hbody.symm.trans h)).symm)
      fun _ => ⟨object, hbody⟩) ?_
  rintro _ rfl
  refine Work.Yields.bind (P := (· = c))
    (Work.yields_ofTraced (fun _ h => (Except.ok.inj (hc.symm.trans h)).symm)
      fun _ => ⟨c, hc⟩) ?_
  rintro _ rfl
  rw [hne, if_neg Bool.false_ne_true]
  exact Work.yields_pure rfl

theorem put_yields (hwritable : e.readOnly = false) (hname : e.name ≠ metadataSegment)
    (hkeys : e.keyFields ≠ []) (hf : f.Stays e content) (htells : Response.Tells content shown)
    (hr : r.PutsBack g.root e shown) :
    (g.handle r).Yields (g.Serves (File.Stays e content) e now) (now.toBinary?.isSome = true)
      (· = some .done) := by
  obtain ⟨object, hobject, hbody⟩ := hr.body
  -- what the body says is fixed here; which record shows it depends on the file that is there
  obtain ⟨c, hc, hne⟩ := hf.exists_fields hkeys htells hobject
  have hupdate : (Premises.onSite (Resource.update c (.file g.backend 0 e))).Yields
      (g.Serves (File.Stays e content) e now) True (· = []) := by
    rw [Resource.update]
    refine onSite_yields (onFile_yields (fun set f hf => ?_) fun _ set f hf => ?_)
    · obtain ⟨g, hg, hstays⟩ := hf.put_back hwritable htells hobject hc set
      rw [hg]
      exact ⟨hstays, fun _ h => (Except.ok.inj h).symm⟩
    · obtain ⟨g, hg, -⟩ := hf.put_back hwritable htells hobject hc set
      exact ⟨[], congrArg Prod.fst hg⟩
  have hserve : (serve .put (.file g.backend 0 e) r).Yields
      (g.Serves (File.Stays e content) e now) True (· = .done) := by
    have hfields : (fieldsOf .put (.file g.backend 0 e) r.body).Yields
        (g.Serves (File.Stays e content) e now) True (· = c) := fieldsOf_yields_eq hbody hc hne
    refine hfields.bind ?_
    rintro _ rfl
    refine hupdate.bind ?_
    rintro _ rfl
    exact Work.yields_pure rfl
  refine handle_yields_offer (fun _ hf => hf.entity) hname hr.path ?_
  refine (offer_yields_some hr.method ?_ hserve).weaken ?_
  · exact hwritable
  · rintro _ ⟨_, rfl, rfl⟩
    rfl

/-- Requests that list the records or put one back leave a file that is written as before. -/
theorem Serves.stays {p : Premises} (h : g.Serves (File.Stays e content) e now p)
    (hwritable : e.readOnly = false) (hname : e.name ≠ metadataSegment) (hkeys : e.keyFields ≠ [])
    (hf : f.Stays e content) (htells : Response.Tells content shown)
    {visits : List (Reading × Request)}
    (hvisits : ∀ visit ∈ visits, visit.2.Gets g.root e ∨ visit.2.PutsBack g.root e shown) :
    ∃ later, g.Serves (File.Stays e content) e later (g.handleAll p visits) := by
  -- the file and the clock may be others after each visit; the text stays
  induction visits generalizing now p with
  | nil => exact ⟨now, h⟩
  | cons visit visits ih =>
      obtain ⟨later, r⟩ := visit
      obtain ⟨hr, hvisits⟩ := List.forall_mem_cons.mp hvisits
      have hafter : g.Serves (File.Stays e content) e later
          ((g.handle r).run (p.setClock later)).1 := by
        rcases hr with hr | hr
        · exact (get_yields hname hr _ (h.setClock later)).1
        · exact (put_yields hwritable hname hkeys hf htells hr _ (h.setClock later)).1
      exact ih hafter hvisits

/-- Putting back what was read changes nothing that can be read. Listing the records of a file has an
answer that a client reads as a page with one object for each record. However often the records are
listed and objects of this page put back, putting one back is answered with the status 200, and
listing the records is answered with the same text. -/
theorem put_back_unchanged {e : Entity} (hwritable : e.readOnly = false)
    (hname : e.name ≠ metadataSegment) (hkeys : e.keyFields ≠ []) {f : File} (hentity : f.entity = e)
    (hf : f.Returning) (context : String) (operators : List Operator) (allMembers : Bool)
    (root : String) (spelling : Spelling) (ttl : Binary64) {p : Premises} {g : Gateway}
    (hopen : openFile f context operators allMembers root spelling ttl = (p, g)) :
    ∃ content shown, Response.Tells content shown ∧ shown.length = f.records.length ∧
      (∀ object ∈ shown, ∃ text, Body.decode (.text text) = .ok object) ∧
      ∀ visits : List (Reading × Request),
        (∀ visit ∈ visits,
          visit.2.Gets (segments root) e ∨ visit.2.PutsBack (segments root) e shown) →
        ∀ now r, now.toBinary?.isSome = true →
          (r.Gets (segments root) e →
            ((g.handle r).run ((g.handleAll p visits).setClock now)).2.result =
              .ok (some ⟨200, some content⟩)) ∧
          (r.PutsBack (segments root) e shown →
            ((g.handle r).run ((g.handleAll p visits).setClock now)).2.result =
              .ok (some ⟨200, none⟩)) := by
  obtain ⟨content, hshows⟩ := hf.shows
  have hstays : f.Stays e content := ⟨hentity, hf, hshows⟩
  obtain ⟨scan, hperm, htells⟩ := hstays.tells
  have hserves : g.Serves (File.Stays e content) e (.whole 0) p := by
    have h := serves_openFile (e := e) hstays context operators allMembers root spelling ttl
    rwa [hopen] at h
  have hroot : segments root = g.root := by
    cases hopen
    rfl
  rw [hroot]
  refine ⟨content, scan.map e.shown, htells, ?_, ?_, fun visits hvisits now r hnow => ?_⟩
  · rw [List.length_map, hperm.length_eq]
  · refine List.forall_mem_map.mpr fun r hr => ?_
    obtain ⟨text, -, htext⟩ := hf.decode_shown (hperm.subset hr)
    exact ⟨text, hentity ▸ htext⟩
  · obtain ⟨later, hlater⟩ := hserves.stays hwritable hname hkeys hstays htells hvisits
    have hnow' := hlater.setClock now
    refine ⟨fun hr => ?_, fun hr => ?_⟩
    · obtain ⟨-, hanswer, hsure⟩ := get_yields hname hr _ hnow'
      obtain ⟨answer, h⟩ := hsure hnow
      rw [h, hanswer answer h]
    · obtain ⟨-, hanswer, hsure⟩ := put_yields hwritable hname hkeys hstays htells hr _ hnow'
      obtain ⟨answer, h⟩ := hsure hnow
      rw [h, hanswer answer h]
      rfl

/-! ## An example -/

/-- Readings of a meter, with a number for a key. -/
def meter : Entity :=
  ⟨"Reading", none, false,
    [⟨"K", none, 0, 1, .numeric, true, true, false⟩,
      ⟨"At", none, 0, 0, .dateTime, false, false, false⟩,
      ⟨"Raw", none, 0, 0, .byteArray, false, false, false⟩]⟩

/-- Two readings. The key of the first is read as an integer, and comes back as one. -/
def meterFile : File :=
  ⟨meter,
    [[("K", .decimal (.finite false 10 (-1))),
        ("At", .dateTime ⟨⟨2024, 2, 29, by decide⟩, ⟨12, 30, 0, 500000, by decide⟩,
          some ⟨3600000000, by decide⟩⟩),
        ("Raw", .bytes [0, 255])],
      [("K", .decimal (.finite false 25 (-1))), ("At", .null), ("Raw", .null)]]⟩

theorem returning_meterFile : meterFile.Returning where
  sound := by
    have hstored : File.ofRecords meter meterFile.records = .ok meterFile := rfl
    exact (File.sound_ofRecords (by decide) hstored).1
  texts := by decide
  keyed := by decide
  ordered := by
    simp only [File.Ordered, Sort.Decides, meterFile, List.mem_cons, List.not_mem_nil, or_false]
    rintro _ _ (rfl | rfl) (rfl | rfl) <;> exact ⟨_, rfl, trivial⟩
  returns := by
    simp only [meterFile, meter, List.forall_mem_cons, List.not_mem_nil, false_implies,
      implies_true, and_true]
    refine ⟨⟨.decimal (by decide) ?_, .dateTime (by decide), .bytes _⟩,
      .decimal (by decide) ?_, .null, .null⟩
    · decide
    · decide

/-- A request for all readings. -/
def meterListing : Request := ⟨"GET", "/api/Reading", "", .absent⟩

/-- A request to put a reading back. -/
def meterUpdate (text : String) : Request := ⟨"PUT", "/api/Reading", "", .text text⟩

theorem put_back_unchanged_meter :
    meter.readOnly = false ∧ meter.name ≠ metadataSegment ∧ meter.keyFields ≠ [] ∧
      meterFile.Returning ∧
      ∃ content text, ∃ p g, openFile meterFile "desk" Operator.all true "api" .camel .nan = (p, g) ∧
        ((g.handle meterListing).run (p.setClock (.whole 1))).2.result =
          .ok (some ⟨200, some content⟩) ∧
        ((g.handle (meterUpdate text)).run
          ((g.handleAll p [(.whole 1, meterListing)]).setClock (.whole 2))).2.result =
            .ok (some ⟨200, none⟩) ∧
        ((g.handle meterListing).run ((g.handleAll p
          [(.whole 1, meterListing), (.whole 2, meterUpdate text)]).setClock (.whole 3))).2.result =
            .ok (some ⟨200, some content⟩) := by
  have hwritable : meter.readOnly = false := rfl
  have hname : meter.name ≠ metadataSegment := by decide
  have hkeys : meter.keyFields ≠ [] := by decide
  obtain ⟨p, g, hopen⟩ :
      ∃ p g, openFile meterFile "desk" Operator.all true "api" .camel .nan = (p, g) := ⟨_, _, rfl⟩
  obtain ⟨content, shown, -, hlength, htexts, hvisits⟩ :=
    put_back_unchanged hwritable hname hkeys rfl returning_meterFile _ _ _ _ _ _ hopen
  obtain ⟨object, hobject⟩ := List.exists_mem_of_length_pos (hlength ▸ by decide : 0 < shown.length)
  obtain ⟨text, htext⟩ := htexts object hobject
  have hlisting : meterListing.Gets (segments "api") meter := ⟨by decide, by decide, rfl⟩
  have hput : Method.ofName? "PUT" = some .put := by decide
  have hupdate : (meterUpdate text).PutsBack (segments "api") meter shown :=
    ⟨hput, hlisting.path, object, hobject, htext⟩
  have hbefore : ∀ visit ∈ [(Reading.whole 1, meterListing)],
      visit.2.Gets (segments "api") meter ∨ visit.2.PutsBack (segments "api") meter shown :=
    List.forall_mem_singleton.mpr (.inl hlisting)
  have hafter : ∀ visit ∈ [(Reading.whole 1, meterListing), (Reading.whole 2, meterUpdate text)],
      visit.2.Gets (segments "api") meter ∨ visit.2.PutsBack (segments "api") meter shown :=
    List.forall_mem_cons.mpr ⟨.inl hlisting, List.forall_mem_singleton.mpr (.inr hupdate)⟩
  refine ⟨hwritable, hname, hkeys, returning_meterFile, content, text, p, g, hopen, ?_, ?_, ?_⟩
  · exact (hvisits [] (fun _ h => nomatch h) (.whole 1) meterListing (by decide)).1 hlisting
  · exact (hvisits _ hbefore (.whole 2) (meterUpdate text) (by decide)).2 hupdate
  · exact (hvisits _ hafter (.whole 3) meterListing (by decide)).1 hlisting

end Gateway

end Rowgate
