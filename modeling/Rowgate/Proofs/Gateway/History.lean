import Rowgate.Proofs.Gateway.Refusal
import Rowgate.Proofs.Store.Listable
import Rowgate.Proofs.Store.Paging

/-!
# A file after any requests

A gateway is asked again and again, by whomever, for whatever, and at any time. What is left after
that of a file that was empty is one that its entity can have (`File.Kept`), and the cache of the
gateway knows of the file alone. `Work.Yields` carries this through a request.

What a client can still spoil is told by `Entity.Lists`: a request may offer a value that cannot be sent,
or a moment with an offset for a key field that has been offered moments without one. Where no request
does, the records are listed (`readable_after`).
-/

namespace Rowgate

/-! ## The file of a backend -/

/-- Whether a backend has one file and no more, with a property. -/
def Site.Holds (backend : Nat) (F : File → Prop) (s : Site) : Prop :=
  ∃ name f operators allMembers listings, F f ∧
    s[backend]? = some ⟨name, .files ⟨[f], operators, allMembers, listings⟩⟩

section Backends

variable {α : Type} {backend : Nat} {F : File → Prop} {e : Entity} {sure : Prop} {P : α → Prop}

theorem Site.getElem?_setStorage {s : Site} {b : Backend} (h : s[backend]? = some b)
    (storage : Storage) : (Site.setStorage s backend storage)[backend]? = some ⟨b.name, storage⟩ := by
  rw [setStorage, List.getElem?_modify_eq, h]
  rfl

theorem discover_yields (hF : ∀ f, F f → f.entity = e) :
    (discover backend).Yields (Site.Holds backend F) sure (· = [.file backend 0 e]) := by
  rintro s ⟨name, f, operators, allMembers, listings, hf, hs⟩
  have hrun : (discover backend).run s =
      (Site.setStorage s backend (.files ⟨[f], operators, allMembers, listings + 1⟩),
        Traced.ofResult (.ok [.file backend 0 e])) := by
    rw [discover, Work.run_state_bind, hs, ← hF f hf]
    rfl
  rw [hrun]
  exact ⟨⟨_, f, _, _, _, hf, Site.getElem?_setStorage hs _⟩, fun _ h => (Except.ok.inj h).symm,
    fun _ => ⟨_, rfl⟩⟩

/-- Work on the file keeps what is known of it, if the file that it leaves has it too. -/
theorem onFile_yields {work : FileService → Work File α}
    (h : ∀ (set : FileSet) f, F f → F ((work (set.service f.entity)).outcome f).2 ∧
      ∀ a, ((work (set.service f.entity)).outcome f).1 = .ok a → P a)
    (hsure : sure → ∀ (set : FileSet) f, F f →
      ∃ a, ((work (set.service f.entity)).outcome f).1 = .ok a) :
    (onFile backend 0 work).Yields (Site.Holds backend F) sure P := by
  rintro s ⟨name, f, operators, allMembers, listings, hf, hs⟩
  have hset : Site.files? s backend = some ⟨[f], operators, allMembers, listings⟩ := by
    rw [Site.files?, hs]
    rfl
  have hfile : Site.file? s backend 0 = some f := by
    rw [Site.file?, hset]
    rfl
  simp only [onFile, hset, hfile]
  obtain ⟨hleft, hP⟩ := h ⟨[f], operators, allMembers, listings⟩ f hf
  exact ⟨⟨_, _, _, _, _, hleft, Site.getElem?_setStorage hs _⟩, hP, fun h' => hsure h' _ f hf⟩

/-- Fetching leaves the file alone. -/
theorem fetch_yields {q : Query} {e' : Entity} {P : Page → Prop}
    (h : ∀ service f page, F f → (FileService.fetch service f q).result = .ok page → P page)
    (hsure : sure → ∀ service f, F f → ∃ page, (FileService.fetch service f q).result = .ok page) :
    (Resource.fetch q (.file backend 0 e')).Yields (Site.Holds backend F) sure P := by
  rw [Resource.fetch]
  refine onFile_yields (fun set f hf => ?_) fun h' set f hf => ?_
  · rw [Work.outcome_state_bind, Work.outcome_ofTraced]
    exact ⟨hf, fun page hpage => h _ f page hf hpage⟩
  · rw [Work.outcome_state_bind, Work.outcome_ofTraced]
    exact hsure h' _ f hf

theorem insert_yields (e' : Entity) {r : Record}
    (h : ∀ s f, F f → F (FileService.serve s f ⟨.insert, r⟩).2) :
    (Resource.insert r (.file backend 0 e')).Yields (Site.Holds backend F) False fun _ => True := by
  rw [Resource.insert]
  refine onFile_yields (fun set f hf => ⟨?_, fun _ _ => trivial⟩) False.elim
  exact snd_serve_insert _ f r ▸ h _ f hf

theorem update_yields (e' : Entity) {r : Record}
    (h : ∀ s f, F f → F (FileService.serve s f ⟨.update, r⟩).2) :
    (Resource.update r (.file backend 0 e')).Yields (Site.Holds backend F) False fun _ => True := by
  rw [Resource.update]
  refine onFile_yields (fun set f hf => ⟨?_, fun _ _ => trivial⟩) False.elim
  exact snd_serve_update _ f r ▸ h _ f hf

theorem delete_yields (e' : Entity) {r : Record}
    (h : ∀ s f, F f → F (FileService.serve s f ⟨.delete, r⟩).2) :
    (Resource.delete r (.file backend 0 e')).Yields (Site.Holds backend F) False fun _ => True := by
  rw [Resource.delete]
  refine onFile_yields (fun set f hf => ⟨?_, fun _ _ => trivial⟩) False.elim
  exact snd_serve_delete _ f r ▸ h _ f hf

end Backends

/-! ## What a gateway goes by -/

/-- Whether a cache shows a time and has no entries with other values than one. -/
def Premises.Knows (cache : Nat) (now : Reading) (found : List Resource) (p : Premises) : Prop :=
  ∃ c, p.caches[cache]? = some c ∧ c.now = now ∧
    ∀ key entry, c.find? key = some entry → entry.value = found

/-- Whether a gateway has a backend with one file, with a property, and knows of this file only. -/
structure Gateway.Serves (g : Gateway) (F : File → Prop) (e : Entity) (now : Reading)
    (p : Premises) : Prop where
  site : Site.Holds g.backend F p.site
  knows : p.Knows g.cache now [.file g.backend 0 e]

namespace Gateway

variable {α : Type} {g : Gateway} {F : File → Prop} {e : Entity} {now : Reading} {sure : Prop}
  {P : α → Prop}

theorem onSite_yields {work : Work Site α}
    (h : work.Yields (Site.Holds g.backend F) sure P) :
    (Premises.onSite work).Yields (g.Serves F e now) sure P :=
  h.onPart (fun _ hp => hp.site) fun _ _ hp hs => ⟨hs, hp.knows⟩

/-- Where the clock can be read as a floating point number, what is found can be stored. -/
theorem store_yields (key : String) :
    (Premises.store g.cache key [.file g.backend 0 e]).Yields (g.Serves F e now)
      (now.toBinary?.isSome = true) fun _ => True := by
  refine Work.yields_state.bind fun p hp => ?_
  obtain ⟨c, hc, hnow, hvalues⟩ := hp.knows
  rw [hc]
  refine Work.Yields.bind (P := fun c' => ∃ expires, c' = c.put key ⟨[.file g.backend 0 e], expires⟩)
    (Work.yields_ofTraced (fun c' h => ?_) fun h => ?_) fun c' h => Work.yields_change fun p hp => ?_
  · obtain ⟨expires, -, rfl⟩ := Cache.store_eq_ok_iff.mp h
    exact ⟨expires, rfl⟩
  · obtain ⟨time, htime⟩ := Option.isSome_iff_exists.mp h
    refine ⟨_, Cache.store_eq_ok_iff.mpr ⟨time.add c.ttl, ?_, rfl⟩⟩
    rw [Cache.expiry?, hnow, Reading.after?, htime]
    rfl
  · obtain ⟨expires, rfl⟩ := h
    obtain ⟨d, hd, -, -⟩ := hp.knows
    refine ⟨hp.site, c.put key ⟨[.file g.backend 0 e], expires⟩, ?_, hnow, fun other entry h => ?_⟩
    · show (p.caches.modify g.cache _)[g.cache]? = _
      rw [List.getElem?_modify_eq, hd]
      rfl
    · by_cases hkey : other = key
      · rw [hkey, Cache.find?_put_self, Option.some_inj] at h
        rw [← h]
      · rw [Cache.find?_put_of_ne c _ hkey] at h
        exact hvalues other entry h

theorem refresh_yields (hF : ∀ f, F f → f.entity = e) (key : String) :
    (g.refresh key).Yields (g.Serves F e now) (now.toBinary?.isSome = true)
      (· = [.file g.backend 0 e]) := by
  refine (onSite_yields (discover_yields hF)).bind fun found hfound => ?_
  subst hfound
  refine (store_yields key).bind fun _ _ => ?_
  exact (Work.yields_note _ _ _).bind fun _ _ => Work.yields_pure rfl

theorem resources_yields (hF : ∀ f, F f → f.entity = e) :
    g.resources.Yields (g.Serves F e now) (now.toBinary?.isSome = true)
      (· = [.file g.backend 0 e]) := by
  refine Work.yields_state.bind fun p hp => ?_
  dsimp only
  split
  · next found hfresh =>
      obtain ⟨c, hc, -, hvalues⟩ := hp.knows
      rw [hc] at hfresh
      obtain ⟨entry, hentry, rfl⟩ := Cache.find?_of_fresh? hfresh
      rw [hvalues _ entry hentry]
      refine (store_yields _).bind fun _ _ => ?_
      exact (Work.yields_note _ _ _).bind fun _ _ => Work.yields_pure rfl
  · exact refresh_yields hF _

theorem find_yields (hF : ∀ f, F f → f.entity = e) (name : String) :
    (g.find name).Yields (g.Serves F e now) (now.toBinary?.isSome = true)
      (· = resolve (fun r => r.entity.name) [.file g.backend 0 e] name) := by
  refine (resources_yields hF).bind fun all hall => ?_
  subst hall
  exact (Work.yields_note _ _ _).bind fun _ _ => Work.yields_pure rfl

/-! ## Any request -/

/-- Whatever a gateway is asked, its file keeps what outlasts the writes that the request offers. -/
theorem handle_yields (hF : ∀ f, F f → f.entity = e) {r : Request}
    (hserve : ∀ s f w, F f → r.Offers e w.record → F (FileService.serve s f w).2) :
    (g.handle r).Yields (g.Serves F e now) False fun _ => True := by
  refine handle_yields_of (((resources_yields hF).imp False.elim).weaken ?_)
  rintro _ rfl resource hresource
  rw [List.mem_singleton.mp hresource]
  exact {
    fetch := fun q => onSite_yields (fetch_yields (fun _ _ _ _ _ => trivial) False.elim)
    insert := fun said hsaid => onSite_yields (insert_yields e fun s f hf => hserve s f _ hf hsaid)
    update := fun said hsaid => onSite_yields (update_yields e fun s f hf => hserve s f _ hf hsaid)
    delete := fun said hsaid => onSite_yields (delete_yields e fun s f hf => hserve s f _ hf hsaid) }

end Gateway

/-! ## Many requests -/

/-- The premises when all clocks show a time. -/
def Premises.setClock (p : Premises) (now : Reading) : Premises :=
  { p with caches := p.caches.map (·.setClock now) }

/-- Asks a gateway at some times, one after another; the premises after that. A request that fails is
passed over. -/
def Gateway.handleAll (g : Gateway) (p : Premises) : List (Reading × Request) → Premises
  | [] => p
  | (now, r) :: rest => handleAll g ((g.handle r).run (p.setClock now)).1 rest

namespace Gateway

variable {g : Gateway} {F : File → Prop} {e : Entity} {now : Reading} {p : Premises}

theorem Serves.setClock (h : g.Serves F e now p) (later : Reading) :
    g.Serves F e later (p.setClock later) := by
  obtain ⟨c, hc, -, hvalues⟩ := h.knows
  refine ⟨h.site, c.setClock later, ?_, rfl, hvalues⟩
  rw [Premises.setClock, List.getElem?_map, hc]
  rfl

/-- What outlasts the writes that any of the requests offers outlasts the requests. -/
theorem Serves.handleAll (h : g.Serves F e now p) (hF : ∀ f, F f → f.entity = e)
    {visits : List (Reading × Request)} (hserve : ∀ visit ∈ visits, ∀ s f w, F f →
      visit.2.Offers e w.record → F (FileService.serve s f w).2) :
    ∃ later, g.Serves F e later (g.handleAll p visits) := by
  induction visits generalizing now p with
  | nil => exact ⟨now, h⟩
  | cons visit visits ih =>
      obtain ⟨later, r⟩ := visit
      obtain ⟨hvisit, hvisits⟩ := List.forall_mem_cons.mp hserve
      exact ih (handle_yields hF hvisit _ (h.setClock later)).1 hvisits

end Gateway

/-! ## What can be listed -/

/-- Whether all that some requests offer of an entity can be listed. -/
structure Entity.Lists (e : Entity) (requests : List Request) : Prop where
  /-- The names of the fields can be sent. -/
  names : ∀ f ∈ e.fields, Text.Whole f.name.toList
  /-- So can every value that is offered: it is no integral decimal beyond the digit limit and no text
  with half of a surrogate pair. -/
  values : ∀ r ∈ requests, ∀ said, r.Offers e said → ∀ f ∈ e.fields, ∀ v,
    Record.field? said f.name = some v → Json.Sendable v
  /-- Of the moments that are offered for a key field, all have an offset or none has. -/
  keys : ∀ f ∈ e.keyFields, f.kind = .dateTime ∨ f.kind = .time →
    ∃ aware, ∀ r ∈ requests, ∀ said, r.Offers e said → ∀ v,
      Record.field? said f.name = some v → v.InStep aware

namespace Entity

variable {e : Entity} {requests : List Request} {r : Request} {said : Record}

/-- What a request offers of a field came out of the field. -/
theorem made_of_offers (hnames : (e.fields.map (·.name)).Nodup) (h : r.Offers e said) {f : Field}
    (hf : f ∈ e.fields) {v : Value} (hv : Record.field? said f.name = some v) :
    ∃ x, f.coerce x = .ok v := by
  obtain ⟨method, object, -, -, hsaid⟩ := h
  cases hsaid.symm.trans (result_fieldsIn e method object)
  rw [field?_foldl_saying hnames (fun _ _ => rfl) f hf] at hv
  exact Field.made_of_said hv

/-- Moments of one field are in step where a key goes by them, and nothing else has to be. -/
theorem Lists.exists_listable (h : e.Lists requests) (hnames : (e.fields.map (·.name)).Nodup) :
    ∃ aware : Field → Bool, ∀ r ∈ requests, ∀ said, r.Offers e said →
      e.Every (fun f => f.Listable (aware f)) said := by
  have hkeys : ∀ f, ∃ aware, f ∈ e.keyFields → ∀ r ∈ requests, ∀ said, r.Offers e said → ∀ v,
      Record.field? said f.name = some v → v.InStep aware := by
    intro f
    by_cases hmoment : f.kind = .dateTime ∨ f.kind = .time
    · by_cases hf : f ∈ e.keyFields
      · obtain ⟨aware, haware⟩ := h.keys f hf hmoment
        exact ⟨aware, fun _ => haware⟩
      · exact ⟨false, fun h => absurd h hf⟩
    · obtain ⟨hdateTime, htime⟩ := not_or.mp hmoment
      refine ⟨false, fun hf r _ said hsaid v hv => ?_⟩
      obtain ⟨x, hx⟩ := made_of_offers hnames hsaid (List.mem_of_mem_filter hf) hv
      rcases Field.coerce_holds hx with rfl | hfits
      · trivial
      · exact hfits.inStep hdateTime htime
  choose aware haware using hkeys
  refine ⟨aware, fun r hr said hsaid f hf v hv => ⟨made_of_offers hnames hsaid hf hv, ?_, fun hkey => ?_⟩⟩
  · exact h.values r hr said hsaid f hf v hv
  · exact haware f (List.mem_filter.mpr ⟨hf, hkey⟩) r hr said hsaid v hv

end Entity

/-! ## Listing the records -/

namespace File.Kept

variable {e : Entity} {f : File} {records : List Record}

theorem depth_entry (hf : Kept e f) {r : Record} (hr : r ∈ f.records) {entry : String × Value}
    (hentry : entry ∈ r) : entry.2.depth = 1 := by
  have hname : entry.1 ∈ f.entity.fields.map (·.name) :=
    hf.complete r hr ▸ List.mem_map_of_mem hentry
  obtain ⟨found, hfound⟩ := Entity.exists_fieldNamed?_of_mem hname
  exact (hf.sound.formed r hr entry hentry found hfound).depth_eq

/-- A page of stored records that can be sent has a JSON text. -/
theorem sure_write (hf : Kept e f) (hmem : ∀ r ∈ records, r ∈ f.records)
    (hsend : ∀ r ∈ f.records, Json.Sendable (.dict r)) :
    Outcome.Sure (fun _ => True) (Json.write (.dict (Page.toRecord ⟨records, 0⟩))) := by
  refine Json.Sendable.sure_write ?_ ?_
  · refine .dict ?_ fun entry hentry => ?_
    · simp only [Page.toRecord, List.forall_mem_cons, List.not_mem_nil, false_implies, implies_true,
        and_true]
      decide
    · rcases List.mem_cons.mp hentry with rfl | hentry
      · refine .list fun v hv => ?_
        obtain ⟨r, hr, rfl⟩ := List.mem_map.mp hv
        exact hsend r (hmem r hr)
      · rw [List.mem_singleton.mp hentry]
        exact .int 0
  · exact Page.depth_le fun r hr entry hentry => hf.depth_entry (hmem r hr) hentry

end File.Kept

/-- Whether a response has the status 200 and lists the records of a file, in the order of their
keys. -/
def Response.Lists (f : File) (response : Response) : Prop :=
  ∃ records text, records.Perm f.records ∧
    (records.Pairwise fun a b => f.isBefore b a = .ok false) ∧
    Json.write (.dict (Page.toRecord ⟨records, 0⟩)) = .ok text ∧ response = ⟨200, some text⟩

namespace Gateway

variable {g : Gateway} {F : File → Prop} {e : Entity} {f : File} {now : Reading} {text : String}

/-- Files that are all written as one text are listed with it. -/
theorem serve_shown_yields (hF : ∀ f, F f → f.Shows text) {r : Request} (hquery : r.query = "") :
    (serve .get (.file g.backend 0 e) r).Yields (g.Serves F e now) True (· = ⟨200, some text⟩) := by
  refine Work.Yields.bind (P := (· = none)) (Work.yields_ofTraced ?_ fun _ => ⟨none, ?_⟩)
    fun q hq => ?_
  · intro q hq
    rw [hquery] at hq
    exact (Except.ok.inj hq).symm
  · rw [hquery]
    rfl
  · subst hq
    have hpage : (Premises.onSite (Resource.fetch .everything (.file g.backend 0 e))).Yields
        (g.Serves F e now) True fun page => Json.write (.dict page.toRecord) = .ok text := by
      refine onSite_yields (fetch_yields ?_ ?_)
      · intro service f page hf hpage
        obtain ⟨page', hpage', htext⟩ := (hF f hf).fetch service
        cases hpage'.symm.trans hpage
        exact htext
      · intro _ service f hf
        obtain ⟨page, hpage, -⟩ := (hF f hf).fetch service
        exact ⟨page, hpage⟩
    refine hpage.bind fun page htext => ?_
    have hresponse : Response.ofValue 200 (.dict page.toRecord) = .ok ⟨200, some text⟩ := by
      rw [Response.ofValue, htext]
    exact Work.yields_ofTraced (fun _ h => (Except.ok.inj (hresponse.symm.trans h)).symm)
      fun _ => ⟨_, hresponse⟩

/-- What is served to a method that may be used is answered. -/
theorem offer_yields_some {resource : Resource} {r : Request} {method : Method} {P : Response → Prop}
    (hmethod : Method.ofName? r.method = some method)
    (hallowed : (method.isWrite && resource.readOnly) = false)
    (h : (serve method resource r).Yields (g.Serves F e now) True P) :
    (offer resource r).Yields (g.Serves F e now) True
      fun answer => ∃ response, answer = some response ∧ P response := by
  rw [offer, hmethod]
  dsimp only
  rw [hallowed, if_neg Bool.false_ne_true]
  refine Work.Yields.bind (P := P) ?_ fun response h => Work.yields_pure ⟨_, rfl, h⟩
  rw [answering_eq]
  refine h.attempt.bind fun outcome houtcome => ?_
  obtain ⟨response, rfl⟩ := houtcome.2 trivial
  exact Work.yields_pure (houtcome.1 response rfl)

theorem resolve_self (r : Resource) :
    resolve (fun r => r.entity.name) [r] r.entity.name = some r := by
  have hfirst : [r].find? (fun x => Text.lowercase x.entity.name == Text.lowercase r.entity.name) =
      some r := List.find?_cons_of_pos (beq_self_eq_true _)
  rw [resolve, hfirst, Option.orElse_some]

theorem route_of_segments {root : List String} {path name : String}
    (hpath : segments path = root ++ [name]) (hname : name ≠ metadataSegment) :
    Route.ofPath? root path = some (.records name) := by
  rw [Route.ofPath?, hpath, List.take_left, List.drop_left, if_pos rfl, Route.ofRest?,
    if_neg hname]

/-- A request for the records of the file is left to what the file offers. -/
theorem handle_yields_offer {P : Option Response → Prop} (hF : ∀ f, F f → f.entity = e)
    (hname : e.name ≠ metadataSegment) {r : Request} (hpath : segments r.path = g.root ++ [e.name])
    (h : (offer (.file g.backend 0 e) r).Yields (g.Serves F e now) True P) :
    (g.handle r).Yields (g.Serves F e now) (now.toBinary?.isSome = true) P := by
  rw [handle, route_of_segments hpath hname]
  refine (find_yields hF e.name).bind fun found hfound => ?_
  rw [hfound.trans (resolve_self (.file g.backend 0 e))]
  exact h.imp fun _ => trivial

/-- A request for all records of a file is answered with them. -/
theorem handle_everything_yields (hf : File.Kept e f) (hordered : f.Ordered)
    (hsend : ∀ r ∈ f.records, Json.Sendable (.dict r)) (hname : e.name ≠ metadataSegment)
    {r : Request} (hmethod : Method.ofName? r.method = some .get)
    (hpath : segments r.path = g.root ++ [e.name]) (hquery : r.query = "") :
    (g.handle r).Yields (g.Serves (· = f) e now) (now.toBinary?.isSome = true)
      fun answer => ∃ response, answer = some response ∧ response.Lists f := by
  obtain ⟨records, hscan, hperm, hpairwise⟩ := File.sure_scan hf.sound.formed hordered
  have hmem : ∀ r ∈ records, r ∈ f.records := fun r hr => hperm.mem_iff.mp hr
  have hproject : records.map f.entity.project = records := by
    refine (List.map_congr_left fun r hr => ?_).trans (List.map_id _)
    exact (hf.complete r (hmem r hr)).project_eq hf.sound.names
  obtain ⟨text, htext, -⟩ := hf.sure_write hmem hsend
  have hshows : f.Shows text := ⟨records, hscan, hproject.symm ▸ htext⟩
  have hserve : (serve .get (.file g.backend 0 e) r).Yields (g.Serves (· = f) e now) True
      (Response.Lists f) := by
    refine (serve_shown_yields (fun _ heq => heq ▸ hshows) hquery).weaken ?_
    rintro _ rfl
    exact ⟨records, text, hperm, hpairwise, htext, rfl⟩
  exact handle_yields_offer (fun _ heq => heq ▸ hf.entity) hname hpath
    (offer_yields_some hmethod rfl hserve)

/-- The premises of a gateway to one file, and the gateway. -/
def openFile (f : File) (context : String) (operators : List Operator) (allMembers : Bool)
    (root : String) (spelling : Spelling) (ttl : Binary64) : Premises × Gateway :=
  Premises.openGateway ⟨[⟨context, .files ⟨[f], operators, allMembers, 0⟩⟩], []⟩ root spelling 0 ttl
    none

theorem serves_openFile {F : File → Prop} (hf : F f) (context : String) (operators : List Operator)
    (allMembers : Bool) (root : String) (spelling : Spelling) (ttl : Binary64) :
    (openFile f context operators allMembers root spelling ttl).2.Serves F e (.whole 0)
      (openFile f context operators allMembers root spelling ttl).1 :=
  ⟨⟨_, f, _, _, _, hf, rfl⟩, Cache.empty ttl, rfl, rfl, fun _ _ h => nomatch h⟩

/-- The file of an entity that starts empty stays in order, whatever requests a gateway gets: its
records have the fields of the entity and all of their key, no two of them have one key, and showing them
cuts nothing off. If all that the requests offer can be listed, then a request for all records is answered
with the status 200 and lists them, each once, none after one with a greater key. -/
theorem readable_after {e : Entity} (hnames : (e.fields.map (·.name)).Nodup)
    (hname : e.name ≠ metadataSegment) (context : String) (operators : List Operator)
    (allMembers : Bool) (root : String) (spelling : Spelling) (ttl : Binary64)
    (visits : List (Reading × Request)) {p : Premises} {g : Gateway}
    (hopen : openFile (File.empty e) context operators allMembers root spelling ttl = (p, g)) :
    ∃ f, Site.file? (g.handleAll p visits).site 0 0 = some f ∧ f.entity = e ∧ f.Sound ∧
      (∀ r ∈ f.records, e.project r = r ∧ e.missingKeys r = []) ∧
      (e.Lists (visits.map Prod.snd) →
        ∀ now r, now.toBinary?.isSome = true → Method.ofName? r.method = some .get →
          segments r.path = segments root ++ [e.name] → r.query = "" →
          ∃ response, response.Lists f ∧
            ((g.handle r).run ((g.handleAll p visits).setClock now)).2.result =
              .ok (some response)) := by
  obtain ⟨hbackend, hroot⟩ : g.backend = 0 ∧ g.root = segments root := by
    cases hopen
    exact ⟨rfl, rfl⟩
  -- what is known of the file, and what would be known if the requests offered what can be listed
  let Known (f : File) : Prop := f.Kept e ∧ ∀ aware : Field → Bool,
    (∀ visit ∈ visits, ∀ said, visit.2.Offers e said →
      e.Every (fun field => field.Listable (aware field)) said) → f.Listable aware
  have hserves : g.Serves Known e (.whole 0) p := by
    have hempty : Known (File.empty e) := ⟨.empty hnames, fun _ _ _ h => nomatch h⟩
    have h := serves_openFile (e := e) hempty context operators allMembers root spelling ttl
    rwa [hopen] at h
  have hserve : ∀ visit ∈ visits, ∀ s f w, Known f → visit.2.Offers e w.record →
      Known (FileService.serve s f w).2 := by
    intro visit hvisit s f w ⟨hkept, hlistable⟩ hoffers
    refine ⟨hkept.serve s w, fun aware haware => ?_⟩
    exact (hlistable aware haware).serve hkept.sound s w
      (hkept.entity.symm ▸ haware visit hvisit w.record hoffers)
  obtain ⟨later, hlater⟩ := hserves.handleAll (fun f hf => hf.1.entity) hserve
  obtain ⟨name, f, operators', allMembers', listings, ⟨hf, hlistable⟩, hsite⟩ := hlater.site
  rw [hbackend] at hsite
  refine ⟨f, ?_, hf.entity, hf.sound, fun r hr => ⟨?_, ?_⟩, ?_⟩
  · rw [Site.file?, Site.files?, hsite]
    rfl
  · rw [← hf.entity]
    exact (hf.complete r hr).project_eq hf.sound.names
  · rw [← hf.entity]
    exact hf.keyed r hr
  · intro hlists now r hnow hmethod hpath hquery
    obtain ⟨aware, haware⟩ := hlists.exists_listable hnames
    have hlisted := hlistable aware fun visit hvisit => haware _ (List.mem_map_of_mem hvisit)
    have hnow' : g.Serves (· = f) e now ((g.handleAll p visits).setClock now) :=
      ⟨⟨name, f, _, _, _, rfl, hbackend ▸ hsite⟩, (hlater.setClock now).knows⟩
    obtain ⟨-, hanswered, hsure⟩ :=
      handle_everything_yields hf (hlisted.ordered hf.keyed)
        (hlisted.sendable hf.sound hf.complete (hf.entity.symm ▸ hlists.names)) hname hmethod
        (hroot ▸ hpath) hquery _ hnow'
    obtain ⟨answer, hanswer⟩ := hsure hnow
    obtain ⟨response, rfl, h⟩ := hanswered answer hanswer
    exact ⟨response, h, hanswer⟩

/-! ## Examples -/

/-- Things with a key and nothing else. -/
def keyOnly (kind : FieldKind) : Entity :=
  ⟨"Item", none, false, [⟨"K", none, 0, 0, kind, true, true, false⟩]⟩

/-- The premises of a gateway to a file of such things, and the gateway. -/
def desk (kind : FieldKind) : Premises × Gateway :=
  openFile (File.empty (keyOnly kind)) "desk" Operator.all true "api" .camel .nan

/-- A request to insert the thing with a key. -/
def insertion (key : String) : Request :=
  ⟨"POST", "/api/item", "", .text ("\x7b\"K\": \"" ++ key ++ "\"\x7d")⟩

/-- A request for all things. -/
def listing : Request := ⟨"GET", "/api/Item", "", .absent⟩

/-- What is left after two requests to insert one text. -/
def afterOil : Premises :=
  (desk .string).2.handleAll (desk .string).1 [(.whole 1, insertion "oil"), (.whole 2, insertion "oil")]

theorem decode_insertion_oil : (insertion "oil").body.decode = .ok [("K", .str "oil")] :=
  Outcome.toOption_eq_some_iff.mp (by decide +kernel)

/-- Requests to insert texts offer nothing that cannot be listed. -/
theorem lists_oil : (keyOnly .string).Lists [insertion "oil", insertion "oil"] where
  names := List.forall_mem_singleton.mpr (by decide)
  values := by
    intro r hr said hsaid f hf v hv
    have hr : r = insertion "oil" := by simpa using hr
    subst hr
    obtain ⟨method, object, -, hobject, hsaid⟩ := hsaid
    cases hobject.symm.trans decode_insertion_oil
    cases hsaid
    cases List.mem_singleton.mp hf
    cases hv
    exact .str (by decide)
  keys := by
    intro f hf hkind
    cases List.mem_singleton.mp hf
    rcases hkind with h | h <;> cases h

theorem readable_after_oil :
    ((keyOnly .string).fields.map (·.name)).Nodup ∧ (keyOnly .string).name ≠ metadataSegment ∧
      (keyOnly .string).Lists [insertion "oil", insertion "oil"] ∧
      (Site.file? afterOil.site 0 0).map (fun f => f.records.length) = some 1 ∧
      ∃ f response, Site.file? afterOil.site 0 0 = some f ∧ Response.Lists f response ∧
        (((desk .string).2.handle listing).run (afterOil.setClock (.whole 3))).2.result =
          .ok (some response) := by
  have hnames : ((keyOnly .string).fields.map (·.name)).Nodup := by decide
  have hname : (keyOnly .string).name ≠ metadataSegment := by decide
  obtain ⟨f, hfile, -, -, -, hlisted⟩ := readable_after hnames hname "desk" Operator.all true
    "api" .camel .nan [(.whole 1, insertion "oil"), (.whole 2, insertion "oil")]
    (p := (desk .string).1) (g := (desk .string).2) rfl
  obtain ⟨response, hlists, hresult⟩ := hlisted lists_oil (.whole 3) listing (by decide)
    (by decide) (by decide) rfl
  exact ⟨hnames, hname, lists_oil, by decide +kernel, f, response, hfile, hlists, hresult⟩

/-- Both a key without an offset and a key with one are inserted, and then nothing can be listed. -/
theorem mixed_moments_unlisted :
    let before := (desk .dateTime).2.handleAll (desk .dateTime).1
      [(.whole 1, insertion "2024-01-01T00:00:00")]
    let after := (desk .dateTime).2.handleAll before [(.whole 2, insertion "2025-01-01T00:00:00Z")]
    (Site.file? before.site 0 0).map (fun f => f.records.length) = some 1 ∧
      (Site.file? after.site 0 0).map (fun f => f.records.length) = some 2 ∧
      (((desk .dateTime).2.handle listing).run (after.setClock (.whole 3))).2.result.toOption =
        none := by
  decide +kernel

end Gateway

end Rowgate
