import Rowgate.Proofs.Gateway.History
import Rowgate.Proofs.Sql.Dialogue

/-!
# Gateways that share a cache

Any number of gateways to backends of one name may be given one cache. As long as what is in it does
not expire, they discover once between them: the first discovery that comes to a result puts the
result into the given cache, and from then on nothing is looked up. A discovery that fails leaves the
cache as it was, so the next request that has to know what is served tries again; `Premises.lost`
counts the requests that ended so.

A cache that is given is used only if there is something in it. A gateway that is given an empty cache
gets one of its own, so two of them do not share it; `empty_cache_unshared` is what comes of that.

What is looked up is counted at the backends (`Site.looks`), not at the caches. Once a gateway knows
what is served, it looks up nothing more and leaves the caches alone, whatever it is asked.
-/

namespace Rowgate

open Sql

/-! ## Look-ups -/

/-- Whether an event looks up the tables of a schema. -/
def Sql.Event.isLookUp : Event → Bool
  | .inspect _ => true
  | _ => false

/-- How often it was looked up what a backend has. -/
def Storage.looks : Storage → Nat
  | .files set => set.listings
  | .tables source => source.session.events.countP Event.isLookUp
  | .unavailable _ => 0

namespace Site

/-- How often it was looked up what the backends have. -/
def looks (s : Site) : Nat := (s.map fun b => b.storage.looks).sum

def names (s : Site) : List String := s.map (·.name)

theorem names_setStorage (s : Site) (backend : Nat) (storage : Storage) :
    names (setStorage s backend storage) = names s := by
  induction s generalizing backend with
  | nil => cases backend <;> rfl
  | cons b s ih =>
      cases backend with
      | zero => rfl
      | succ backend => exact congrArg (b.name :: ·) (ih backend)

theorem looks_setStorage {s : Site} {backend : Nat} {b : Backend} (h : s[backend]? = some b)
    (storage : Storage) :
    looks (setStorage s backend storage) + b.storage.looks = looks s + storage.looks := by
  induction s generalizing backend with
  | nil => cases h
  | cons b' s ih =>
      cases backend with
      | zero =>
          cases h
          simp only [looks, setStorage, List.modify_zero_cons, List.map_cons, List.sum_cons]
          omega
      | succ backend =>
          have := ih h
          simp only [looks, setStorage, List.modify_succ_cons, List.map_cons, List.sum_cons] at this ⊢
          omega

/-- The look-ups are as many as before, if as many as before are told of what is kept now. -/
theorem looks_setStorage_of_eq {s : Site} {backend : Nat} {b : Backend} (h : s[backend]? = some b)
    {storage : Storage} (hlooks : storage.looks = b.storage.looks) :
    looks (setStorage s backend storage) = looks s := by
  have := looks_setStorage h storage
  omega

theorem exists_of_files? {s : Site} {backend : Nat} {set : FileSet}
    (h : files? s backend = some set) : ∃ name, s[backend]? = some ⟨name, .files set⟩ := by
  obtain ⟨⟨name, storage⟩, hb, hfiles⟩ := Option.bind_eq_some_iff.mp h
  cases storage with
  | files set' =>
      cases hfiles
      exact ⟨name, hb⟩
  | _ => cases hfiles

theorem exists_of_tables? {s : Site} {backend : Nat} {source : SchemaSource}
    (h : tables? s backend = some source) : ∃ name, s[backend]? = some ⟨name, .tables source⟩ := by
  obtain ⟨⟨name, storage⟩, hb, htables⟩ := Option.bind_eq_some_iff.mp h
  cases storage with
  | tables source' =>
      cases htables
      exact ⟨name, hb⟩
  | _ => cases htables

/-- The names of the backends, and how often it was looked up what they have. -/
def census (s : Site) : List String × Nat := (s.names, s.looks)

theorem census_setStorage {s : Site} {backend : Nat} {b : Backend} (h : s[backend]? = some b)
    {storage : Storage} (hlooks : storage.looks = b.storage.looks) :
    census (setStorage s backend storage) = census s := by
  rw [census, census, names_setStorage, looks_setStorage_of_eq h hlooks]

end Site

/-! ## Operations look nothing up -/

section Operations

variable {α : Type} {backend : Nat}

theorem onFile_keeps_census (place : Nat) (work : FileService → Work File α) :
    (onFile backend place work).Keeps Site.census := by
  refine onFile_keeps (fun s set files hset => ?_) place work
  obtain ⟨name, hb⟩ := Site.exists_of_files? hset
  exact Site.census_setStorage hb rfl

theorem countP_isLookUp {s : TableService} {offered : Record → Prop} {before now : Session}
    (h : before.Extends (s.Asks offered) now) :
    now.events.countP Event.isLookUp = before.events.countP Event.isLookUp := by
  obtain ⟨-, later, hlater, hasks⟩ := h
  rw [hlater, List.countP_append, Nat.add_eq_left, List.countP_eq_zero]
  intro e he
  rcases hasks e he with hcontrol | ⟨statement, rfl, -⟩
  · cases e <;> first | exact Bool.false_ne_true | cases hcontrol
  · exact Bool.false_ne_true

theorem onSession_keeps_census (s : TableService) {work : Dialogue α}
    (h : ∀ session : Session,
      work.Yields (session.Extends (s.Asks fun _ => True)) False fun _ => True) :
    (onSession backend fun _ => work).Keeps Site.census := by
  intro site
  rw [onSession]
  dsimp only
  cases hsource : Site.tables? site backend with
  | none => rfl
  | some source =>
      obtain ⟨name, hb⟩ := Site.exists_of_tables? hsource
      exact Site.census_setStorage hb
        (countP_isLookUp (h source.session source.session (.refl _ _)).1)

/-- What requests to gateways can change that is no concern of caches and look-ups is left out. -/
def Premises.known (p : Premises) : (List String × Nat) × List ResourceCache :=
  (p.site.census, p.caches)

theorem onSite_keeps_known {work : Work Site α} (h : work.Keeps Site.census)
    (v : (List String × Nat) × List ResourceCache) :
    (Premises.onSite work).Yields (fun p => p.known = v) False fun _ => True := by
  intro p hp
  refine ⟨?_, fun _ _ => trivial, False.elim⟩
  exact (congrArg (·, p.caches) (h p.site)).trans hp

/-- No operation of a resource looks anything up or changes a cache. -/
theorem steady_known (resource : Resource) (v : (List String × Nat) × List ResourceCache) :
    resource.Steady (fun p => p.known = v) fun _ => True := by
  cases resource with
  | file backend place e =>
      exact {
        fetch := fun q => onSite_keeps_known
          (by rw [Resource.fetch]; exact onFile_keeps_census place _) v
        insert := fun r _ => onSite_keeps_known (onFile_keeps_census place fun s => s.insert r) v
        update := fun r _ => onSite_keeps_known (onFile_keeps_census place fun s => s.update r) v
        delete := fun r _ => onSite_keeps_known (onFile_keeps_census place fun s => s.delete r) v }
  | table backend s =>
      exact {
        fetch := fun q => onSite_keeps_known
          (onSession_keeps_census s fun _ => TableService.fetch_yields q) v
        insert := fun r _ => onSite_keeps_known
          (onSession_keeps_census s fun _ => TableService.insert_yields r) v
        update := fun r _ => onSite_keeps_known
          (onSession_keeps_census s fun _ => TableService.update_yields trivial) v
        delete := fun r _ => onSite_keeps_known
          (onSession_keeps_census s fun _ => TableService.delete_yields trivial) v }

end Operations

/-! ## A discovery -/

theorem events_inConnection_record (e : Sql.Event) (s : Session) :
    ((Dialogue.inConnection (Dialogue.record e)).run s).1.events = s.events ∨
      ((Dialogue.inConnection (Dialogue.record e)).run s).1.events =
        s.events ++ [.connect] ++ [e] ++ [.close] := by
  rw [Dialogue.inConnection, Work.run_bind, Dialogue.ask, Work.run_state_bind, Work.run_bind]
  cases h : s.database.permit s.events .connect with
  | error f => exact .inl rfl
  | ok _ => exact .inr rfl

/-- Looking up the tables of a schema counts once at most; it does not count if the database takes no
connection. -/
theorem looks_catalog_discover (catalog : Catalog) (schema : Option String)
    (operators : List Operator) (name : String) (session : Session) :
    ((catalog.discover schema operators name).run session).1.events.countP Event.isLookUp ≤
      session.events.countP Event.isLookUp + 1 := by
  have hevents : Session.events ((catalog.discover schema operators name).run session).1 =
      Session.events ((Dialogue.inConnection (Dialogue.record (.inspect schema))).run session).1 :=
    Work.view_run_bind (fun _ => (Work.keeps_ofTraced _).bind fun _ => Work.keeps_ofResult _) session
  rcases events_inConnection_record (.inspect schema) session with h | h
  · rw [hevents, h]
    omega
  · rw [hevents, h, List.countP_append, List.countP_append, List.countP_append]
    exact Nat.le_refl _

/-- What is left after a discovery among tables. -/
theorem run_discoverTables {s : Site} {backend : Nat} {source : SchemaSource}
    (h : Site.tables? s backend = some source) (name : String) :
    ((discoverTables backend name).run s).1 =
      Site.setStorage s backend (.tables { source with
        session := ((source.catalog.discover source.schema source.operators name).run
          source.session).1 }) := by
  have hrun : id ((discoverTables backend name).run s).1 = id ((onSession backend fun source =>
      source.catalog.discover source.schema source.operators name).run s).1 :=
    Work.view_run_bind (fun _ => Work.keeps_pure _) s
  rw [id, id] at hrun
  rw [hrun, onSession]
  dsimp only
  rw [h]

/-- A discovery among files looks them up, whatever comes out of it. -/
theorem looks_discover_files {s : Site} {backend : Nat} {set : FileSet}
    (h : Site.files? s backend = some set) :
    ((discover backend).run s).1.looks = s.looks + 1 := by
  obtain ⟨name, hb⟩ := Site.exists_of_files? h
  have hlooks := Site.looks_setStorage hb (.files set.listed)
  have hlisted : (Storage.files set.listed).looks = (Storage.files set).looks + 1 := rfl
  rw [discover, Work.run_state_bind, hb]
  show Site.looks (Site.setStorage s backend _) = _
  dsimp only at hlooks
  omega

/-- A discovery keeps the names of the backends and looks one of them up, if at all. -/
theorem census_discover (s : Site) (backend : Nat) :
    ((discover backend).run s).1.names = s.names ∧
      ((discover backend).run s).1.looks ≤ s.looks + 1 := by
  rw [discover, Work.run_state_bind]
  cases hb : s[backend]? with
  | none => exact ⟨rfl, Nat.le_succ _⟩
  | some b =>
      obtain ⟨name, storage⟩ := b
      cases storage with
      | unavailable message => exact ⟨rfl, Nat.le_succ _⟩
      | files set =>
          have hset : Site.files? s backend = some set := by
            rw [Site.files?, hb]
            rfl
          have hlooks := looks_discover_files hset
          rw [discover, Work.run_state_bind, hb] at hlooks
          exact ⟨Site.names_setStorage s backend _, hlooks.le⟩
      | tables source =>
          have hsource : Site.tables? s backend = some source := by
            rw [Site.tables?, hb]
            rfl
          dsimp only
          rw [run_discoverTables hsource name]
          refine ⟨Site.names_setStorage s backend _, ?_⟩
          have hlooks := Site.looks_setStorage hb (.tables { source with
            session := ((source.catalog.discover source.schema source.operators name).run
              source.session).1 })
          have hcount := looks_catalog_discover source.catalog source.schema source.operators name
            source.session
          simp only [Storage.looks] at hlooks
          omega

/-! ## A visit -/

namespace Premises

/-- Whether a cache has an entry of a key. -/
def has (cache : Nat) (key : String) (p : Premises) : Bool :=
  (p.caches[cache]?).any fun c => c.contains key

theorem has_setClock (cache : Nat) (key : String) (p : Premises) (now : Reading) :
    (p.setClock now).has cache key = p.has cache key := by
  rw [has, has, setClock, List.getElem?_map, Option.any_map]
  rfl

/-- Where the clock can be read as a floating point number, a cache takes what is stored. -/
theorem run_store {cache : Nat} {c : ResourceCache} {p : Premises} (hc : p.caches[cache]? = some c)
    (hnow : c.now.toBinary?.isSome = true) (key : String) (found : List Resource) :
    ∃ entry, (store cache key found).run p =
      ({ p with caches := p.caches.modify cache fun _ => c.put key entry },
        Traced.ofResult (.ok ())) := by
  obtain ⟨time, htime⟩ := Option.isSome_iff_exists.mp hnow
  refine ⟨⟨found, time.add c.ttl⟩, ?_⟩
  have hstore : c.store key found = .ok (c.put key ⟨found, time.add c.ttl⟩) := by
    rw [Cache.store_eq_ok_iff]
    refine ⟨_, ?_, rfl⟩
    rw [Cache.expiry?, Reading.after?, htime]
    rfl
  rw [store, Work.run_state_bind, hc]
  dsimp only
  rw [hstore]
  rfl

theorem has_modify {cache : Nat} {c : ResourceCache} {p : Premises} (hc : p.caches[cache]? = some c)
    (key : String) (entry : CacheEntry (List Resource)) (site : Site) :
    has cache key ⟨site, p.caches.modify cache fun _ => c.put key entry⟩ = true := by
  rw [has, List.getElem?_modify_eq, hc]
  show (c.put key entry).contains key = true
  rw [Cache.contains, Cache.find?_put_self]
  rfl

end Premises

namespace Gateway

variable {g : Gateway} {p : Premises} {c : ResourceCache} {r : Request}

/-- What is fresh is answered without a look-up, and stays in the cache. -/
theorem run_resources_of_fresh (hc : p.caches[g.cache]? = some c)
    (hnow : c.now.toBinary?.isSome = true) {found : List Resource}
    (hfresh : c.fresh? (g.key p) = some found) :
    (g.resources.run p).1.site = p.site ∧ (g.resources.run p).1.has g.cache (g.key p) = true := by
  obtain ⟨entry, hstore⟩ := Premises.run_store hc hnow (g.key p) found
  have hrun : (g.resources.run p).1 =
      { p with caches := p.caches.modify g.cache fun _ => c.put (g.key p) entry } := by
    rw [resources, Work.run_state_bind, hc]
    dsimp only [Option.bind_some]
    rw [hfresh, Work.run_bind, hstore]
    rfl
  rw [hrun]
  exact ⟨rfl, Premises.has_modify hc _ _ _⟩

/-- What is not fresh is discovered. If that fails, nothing else happens; otherwise the result is in
the cache. -/
theorem run_resources_of_stale (hc : p.caches[g.cache]? = some c)
    (hnow : c.now.toBinary?.isSome = true) (hstale : c.fresh? (g.key p) = none) :
    (g.resources.run p).1.site = ((discover g.backend).run p.site).1 ∧
      ((g.resources.run p).1.has g.cache (g.key p) = true ∨
        (g.resources.run p).1.caches = p.caches ∧
          ∃ f, (g.resources.run p).2.result = .error f) := by
  have hrun : g.resources.run p = (g.refresh (g.key p)).run p := by
    rw [resources, Work.run_state_bind, hc]
    dsimp only [Option.bind_some]
    rw [hstale]
  rw [hrun, refresh, Work.run_bind]
  cases hresult : ((Premises.onSite (discover g.backend)).run p).2.result with
  | error f => exact ⟨rfl, .inr ⟨rfl, f, rfl⟩⟩
  | ok found =>
      obtain ⟨entry, hstore⟩ := Premises.run_store
        (p := ((Premises.onSite (discover g.backend)).run p).1) hc hnow (g.key p) found
      dsimp only
      rw [Work.run_bind, hstore]
      exact ⟨rfl, .inl (Premises.has_modify hc _ _ _)⟩

/-- Once the resources are known, a request changes nothing that caches and look-ups go by. -/
theorem known_handle (hroute : Route.ofPath? g.root r.path ≠ none) :
    ((g.handle r).run p).1.known = (g.resources.run p).1.known := by
  have hfind : ∀ name, ((g.find name).run p).1.known = (g.resources.run p).1.known := fun name =>
    Work.view_run_bind (fun _ => (Work.keeps_ofTraced _).bind fun _ => Work.keeps_pure _) p
  rw [handle]
  cases hr : Route.ofPath? g.root r.path with
  | none => exact absurd hr hroute
  | some route =>
      cases route with
      | entities =>
          exact Work.view_run_bind (fun _ => (Work.keeps_ofResult _).bind fun _ =>
            Work.keeps_pure _) p
      | metadata name =>
          refine (Work.view_run_bind (fun found => ?_) p).trans (hfind name)
          cases found with
          | none => exact Work.keeps_pure _
          | some resource => exact (Work.keeps_ofResult _).bind fun _ => Work.keeps_pure _
      | records name =>
          refine (Work.view_run_bind (fun found => ?_) p).trans (hfind name)
          cases found with
          | none => exact Work.keeps_pure _
          | some resource =>
              exact Work.keeps_of_yields fun v =>
                offer_yields ((steady_known resource v).mono fun _ _ => trivial)

/-- A request fails if the gateway cannot get to know its resources. -/
theorem error_handle (hroute : Route.ofPath? g.root r.path ≠ none) {f : Fault}
    (h : (g.resources.run p).2.result = .error f) : ((g.handle r).run p).2.result = .error f := by
  have hfind : ∀ name, ((g.find name).run p).2.result = .error f := fun name => by
    rw [find, Work.run_bind, h]
  rw [handle]
  cases hr : Route.ofPath? g.root r.path with
  | none => exact absurd hr hroute
  | some route =>
      cases route with
      | entities =>
          dsimp only
          rw [Work.run_bind, h]
      | metadata name =>
          dsimp only
          rw [Work.run_bind, hfind]
      | records name =>
          dsimp only
          rw [Work.run_bind, hfind]

end Gateway

/-! ## Many visits -/

/-- A request to a gateway, and when it comes. -/
structure Visit where
  gateway : Gateway
  now : Reading
  request : Request

namespace Visit

/-- What is left after a visit, and what comes out of it. -/
def run (v : Visit) (p : Premises) : Premises × Traced (Option Response) :=
  (v.gateway.handle v.request).run (p.setClock v.now)

/-- Whether the gateway has to know what is served to answer the request. -/
def asks (v : Visit) : Bool := (Route.ofPath? v.gateway.root v.request.path).isSome

/-- Whether a visit fails and leaves a cache without an entry of a key. -/
def isLost (cache : Nat) (key : String) (p : Premises) (v : Visit) : Bool :=
  (v.run p).2.result.toOption.isNone && !(v.run p).1.has cache key

end Visit

namespace Premises

/-- The premises after some visits, one after another. -/
def after (p : Premises) (visits : List Visit) : Premises := visits.foldl (fun p v => (v.run p).1) p

/-- What outlasts each of some visits outlasts them all. -/
theorem after_keeps {inv : Premises → Prop} {visits : List Visit} {p : Premises}
    (h : ∀ v ∈ visits, ∀ p, inv p → inv (v.run p).1) (hp : inv p) : inv (p.after visits) := by
  induction visits generalizing p with
  | nil => exact hp
  | cons v vs ih =>
      exact ih (fun v hv => h v (List.mem_cons_of_mem _ hv)) (h v List.mem_cons_self p hp)

/-- How many of some visits fail and leave a cache without an entry of a key. -/
def lost (cache : Nat) (key : String) (p : Premises) : List Visit → Nat
  | [] => 0
  | v :: vs => (if v.isLost cache key p then 1 else 0) + lost cache key (v.run p).1 vs

/-- Whether the entry of a key in a cache is fresh, if there is one. -/
def lasting (cache : Nat) (key : String) (p : Premises) : Bool :=
  (p.caches[cache]?).all fun c => !c.contains key || (c.fresh? key).isSome

/-- Whether the entry of a key in a cache is fresh at each of some visits, if there is one. -/
def lasts (cache : Nat) (key : String) (p : Premises) : List Visit → Bool
  | [] => true
  | v :: vs => lasting cache key (p.setClock v.now) && lasts cache key (v.run p).1 vs

/-- The premises when a key of a cache, or all of them, have been invalidated. -/
def forget (p : Premises) (cache : Nat) (forgotten : Option String) : Premises :=
  { p with caches := p.caches.modify cache fun c => c.invalidate forgotten }

end Premises

/-- What a visit to a gateway can do, where nothing expires: it need not know what is served, or it
finds this in the cache, or it looks it up, which may fail. -/
inductive Visit.Effect (cache : Nat) (key : String) (v : Visit) (p : Premises) : Prop
  | passes (hasks : v.asks = false) (hlooks : (v.run p).1.site.looks = p.site.looks)
    (hhas : (v.run p).1.has cache key = p.has cache key) (hkept : v.isLost cache key p = false)
  | finds (hlooks : (v.run p).1.site.looks = p.site.looks) (hbefore : p.has cache key = true)
    (hafter : (v.run p).1.has cache key = true)
  | loads (hlooks : (v.run p).1.site.looks ≤ p.site.looks + 1) (hbefore : p.has cache key = false)
    (hafter : (v.run p).1.has cache key = true)
  | loses (hasks : v.asks = true) (hlooks : (v.run p).1.site.looks ≤ p.site.looks + 1)
    (hbefore : p.has cache key = false) (hafter : (v.run p).1.has cache key = false)
    (hlost : v.isLost cache key p = true)

/-- What visits rely on and leave as it is: the names of the backends, and that there is a cache. -/
structure Premises.Hosts (cache : Nat) (names : List String) (p : Premises) : Prop where
  cache : cache < p.caches.length
  names : p.site.names = names

section Visits

variable {cache : Nat} {key : String} {names : List String} {v : Visit} {p : Premises}

theorem Gateway.key_eq {g : Gateway} (hp : p.Hosts cache names)
    (hname : names[g.backend]? = some key) : g.key p = key := by
  rw [← hp.names, Site.names, List.getElem?_map, Option.map_eq_some_iff] at hname
  obtain ⟨b, hb, rfl⟩ := hname
  rw [Gateway.key, hb]

theorem Premises.lt_of_has (h : p.has cache key = true) : cache < p.caches.length := by
  obtain ⟨c, hc, -⟩ := (Option.any_eq_true _ _).mp h
  exact (List.getElem?_eq_some_iff.mp hc).1

theorem Premises.Hosts.setClock (hp : p.Hosts cache names) (now : Reading) :
    (p.setClock now).Hosts cache names :=
  ⟨by rw [Premises.setClock, List.length_map]; exact hp.cache, hp.names⟩

theorem Visit.run_of_not_asks (h : v.asks = false) :
    v.run p = (p.setClock v.now, Traced.ofResult (.ok none)) := by
  rw [Visit.run, Gateway.handle]
  rw [Visit.asks, Option.isSome_eq_false_iff, Option.isNone_iff_eq_none] at h
  rw [h]
  rfl

theorem Visit.route_ne_none (h : v.asks = true) :
    Route.ofPath? v.gateway.root v.request.path ≠ none :=
  Option.isSome_iff_ne_none.mp h

/-- Once its gateway knows what is served, a visit changes nothing that caches and look-ups go by. -/
theorem Visit.run_of_asks (h : v.asks = true) :
    (v.run p).1.site.names = (v.gateway.resources.run (p.setClock v.now)).1.site.names ∧
      (v.run p).1.site.looks = (v.gateway.resources.run (p.setClock v.now)).1.site.looks ∧
      (v.run p).1.caches = (v.gateway.resources.run (p.setClock v.now)).1.caches := by
  have hknown : (v.run p).1.known = (v.gateway.resources.run (p.setClock v.now)).1.known :=
    Gateway.known_handle (Visit.route_ne_none h)
  obtain ⟨hcensus, hcaches⟩ := Prod.mk.inj hknown
  obtain ⟨hnames, hlooks⟩ := Prod.mk.inj hcensus
  exact ⟨hnames, hlooks, hcaches⟩

theorem Visit.effect_of_not_asks (hp : p.Hosts cache names) (hasks : v.asks = false) :
    v.Effect cache key p ∧ (v.run p).1.Hosts cache names := by
  have hrun : v.run p = (p.setClock v.now, Traced.ofResult (.ok none)) := v.run_of_not_asks hasks
  refine ⟨.passes hasks ?_ ?_ ?_, ?_⟩
  · rw [hrun]
    rfl
  · rw [hrun, Premises.has_setClock]
  · rw [Visit.isLost, hrun]
    rfl
  · rw [hrun]
    exact hp.setClock v.now

section Asking

variable {c : ResourceCache} (hp : p.Hosts v.gateway.cache names) (hasks : v.asks = true)
  (hkey : v.gateway.key (p.setClock v.now) = key)
  (hc : (p.setClock v.now).caches[v.gateway.cache]? = some c)
  (hnow : c.now.toBinary?.isSome = true)

include hp hasks hkey hc hnow

theorem Visit.effect_of_fresh {found : List Resource} (hfresh : c.fresh? key = some found) :
    v.Effect v.gateway.cache key p ∧ (v.run p).1.Hosts v.gateway.cache names := by
  obtain ⟨hnames, hlooks, hcaches⟩ := v.run_of_asks (p := p) hasks
  obtain ⟨hsite, hafter⟩ := Gateway.run_resources_of_fresh hc hnow (hkey.symm ▸ hfresh)
  rw [hkey, Premises.has, ← hcaches] at hafter
  have hbefore : p.has v.gateway.cache key = true := by
    obtain ⟨entry, hentry, -⟩ := Cache.find?_of_fresh? hfresh
    rw [← Premises.has_setClock v.gateway.cache key p v.now, Premises.has, hc, Option.any_some,
      Cache.contains]
    exact Option.isSome_iff_exists.mpr ⟨entry, hentry⟩
  refine ⟨.finds ?_ hbefore hafter, Premises.lt_of_has hafter, ?_⟩
  · rw [hlooks, hsite]
    rfl
  · rw [hnames, hsite]
    exact hp.names

theorem Visit.effect_of_stale (hstale : c.fresh? key = none)
    (hbefore : p.has v.gateway.cache key = false) :
    v.Effect v.gateway.cache key p ∧ (v.run p).1.Hosts v.gateway.cache names := by
  obtain ⟨hnames, hlooks, hcaches⟩ := v.run_of_asks (p := p) hasks
  obtain ⟨hsite, hafter⟩ := Gateway.run_resources_of_stale hc hnow (hkey.symm ▸ hstale)
  obtain ⟨hdnames, hdlooks⟩ := census_discover (p.setClock v.now).site v.gateway.backend
  have hlooks' : (v.run p).1.site.looks ≤ p.site.looks + 1 := by
    rw [hlooks, hsite]
    exact hdlooks
  have hnames' : (v.run p).1.site.names = names := by
    rw [hnames, hsite, hdnames]
    exact hp.names
  rcases hafter with hafter | ⟨hsame, f, hf⟩
  · rw [hkey, Premises.has, ← hcaches] at hafter
    exact ⟨.loads hlooks' hbefore hafter, Premises.lt_of_has hafter, hnames'⟩
  · have hcaches' : (v.run p).1.caches = (p.setClock v.now).caches := hcaches.trans hsame
    have hafter : (v.run p).1.has v.gateway.cache key = false := by
      rw [Premises.has, hcaches']
      exact (Premises.has_setClock v.gateway.cache key p v.now).trans hbefore
    have herror : (v.run p).2.result = .error f :=
      Gateway.error_handle (Visit.route_ne_none hasks) hf
    refine ⟨.loses hasks hlooks' hbefore hafter ?_, ?_, hnames'⟩
    · rw [Visit.isLost, herror, hafter]
      rfl
    · rw [hcaches']
      exact (hp.setClock v.now).cache

end Asking

theorem Visit.effect (hp : p.Hosts cache names) (hcache : v.gateway.cache = cache)
    (hname : names[v.gateway.backend]? = some key) (hnow : v.now.toBinary?.isSome = true)
    (hlasting : (p.setClock v.now).lasting cache key = true) :
    v.Effect cache key p ∧ (v.run p).1.Hosts cache names := by
  subst hcache
  cases hasks : v.asks with
  | false => exact Visit.effect_of_not_asks hp hasks
  | true =>
      have hkey : v.gateway.key (p.setClock v.now) = key :=
        Gateway.key_eq (hp.setClock v.now) hname
      obtain ⟨d, hd⟩ : ∃ d, p.caches[v.gateway.cache]? = some d :=
        ⟨_, List.getElem?_eq_getElem hp.cache⟩
      have hc : (p.setClock v.now).caches[v.gateway.cache]? = some (d.setClock v.now) := by
        rw [Premises.setClock, List.getElem?_map, hd]
        rfl
      cases hfresh : (d.setClock v.now).fresh? key with
      | some found => exact Visit.effect_of_fresh hp hasks hkey hc hnow hfresh
      | none =>
          -- nothing expires, so what is not fresh is not there
          have hbefore : p.has v.gateway.cache key = false := by
            rw [Premises.lasting, hc] at hlasting
            rw [← Premises.has_setClock v.gateway.cache key p v.now, Premises.has, hc]
            simpa [hfresh] using hlasting
          exact Visit.effect_of_stale hp hasks hkey hc hnow hfresh hbefore

variable {visits : List Visit}

/-- Over some visits there is one look-up for all that is not lost, and none if the cache knows what
is served from the start. -/
theorem Premises.looks_after (hp : p.Hosts cache names)
    (hvisits : ∀ v ∈ visits, v.gateway.cache = cache ∧ names[v.gateway.backend]? = some key ∧
      v.now.toBinary?.isSome = true)
    (hlasts : p.lasts cache key visits = true) :
    (p.after visits).Hosts cache names ∧
      (p.has cache key = true → (p.after visits).has cache key = true) ∧
      (p.after visits).site.looks + (p.has cache key).toNat ≤
        p.site.looks + 1 + p.lost cache key visits ∧
      ((p.after visits).has cache key = true ∨
        p.lost cache key visits = visits.countP Visit.asks) := by
  induction visits generalizing p with
  | nil =>
      refine ⟨hp, id, ?_, .inr rfl⟩
      have := Bool.toNat_le (p.has cache key)
      simp only [after, lost, List.foldl_nil]
      omega
  | cons v vs ih =>
      obtain ⟨⟨hcache, hname, hnow⟩, hvs⟩ := List.forall_mem_cons.mp hvisits
      obtain ⟨hlasting, hlasts⟩ := Bool.and_eq_true_iff.mp hlasts
      obtain ⟨heffect, hhosts⟩ := v.effect hp hcache hname hnow hlasting
      obtain ⟨hend, hsticky, hlooks, hfound⟩ := ih hhosts hvs hlasts
      refine ⟨hend, ?_⟩
      simp only [lost, List.countP_cons]
      have hafter : p.after (v :: vs) = ((v.run p).1).after vs := rfl
      rw [hafter]
      -- an entry, once it is there, stands for the one look-up that is allowed
      cases heffect with
      | passes hasks hsame hhas hkept =>
          rw [hhas, hsame] at hlooks
          rw [hhas] at hsticky
          rw [hkept, hasks]
          exact ⟨hsticky, by simpa using hlooks, by simpa using hfound⟩
      | finds hsame hbefore hhas =>
          rw [hhas, hsame, Bool.toNat_true] at hlooks
          rw [hbefore, Bool.toNat_true]
          exact ⟨fun _ => hsticky hhas, by omega, .inl (hsticky hhas)⟩
      | loads hmore hbefore hhas =>
          rw [hhas, Bool.toNat_true] at hlooks
          rw [hbefore, Bool.toNat_false]
          exact ⟨nofun, by omega, .inl (hsticky hhas)⟩
      | loses hasks hmore hbefore hhas hlost =>
          rw [hhas, Bool.toNat_false] at hlooks
          rw [hbefore, hlost, hasks, Bool.toNat_false, if_pos rfl]
          refine ⟨nofun, by omega, ?_⟩
          rcases hfound with hfound | hfound
          · exact .inl hfound
          · right
            omega

theorem Premises.Hosts.forget (hp : p.Hosts cache names) (forgotten : Option String) :
    (p.forget cache forgotten).Hosts cache names :=
  ⟨by rw [Premises.forget, List.length_modify]; exact hp.cache, hp.names⟩

/-- After its entry is invalidated, a request that has to know what is served looks it up. -/
theorem Visit.looks_run_forget (hp : p.Hosts cache names) (hcache : v.gateway.cache = cache)
    (hname : names[v.gateway.backend]? = some key) (hnow : v.now.toBinary?.isSome = true)
    (hasks : v.asks = true) {forgotten : Option String} (hforgotten : ∀ k ∈ forgotten, k = key) :
    (v.run (p.forget cache forgotten)).1.site.looks =
      ((discover v.gateway.backend).run p.site).1.looks := by
  obtain ⟨d, hd⟩ : ∃ d, p.caches[cache]? = some d := ⟨_, List.getElem?_eq_getElem hp.cache⟩
  have hc : ((p.forget cache forgotten).setClock v.now).caches[v.gateway.cache]? =
      some ((d.invalidate forgotten).setClock v.now) := by
    rw [hcache, Premises.setClock, List.getElem?_map, Premises.forget, List.getElem?_modify_eq, hd]
    rfl
  have hkey := Gateway.key_eq (g := v.gateway) ((hp.forget forgotten).setClock v.now) hname
  have hfresh : ((d.invalidate forgotten).setClock v.now).fresh? key = none := by
    have hnone : ((d.invalidate forgotten).setClock v.now).find? key = none :=
      Cache.find?_invalidate d hforgotten
    rw [Cache.fresh?, hnone]
  obtain ⟨hsite, -⟩ := Gateway.run_resources_of_stale hc hnow (hkey.symm ▸ hfresh)
  rw [(v.run_of_asks hasks).2.1, hsite]
  rfl

end Visits

/-! ## Gateways that are given one cache -/

/-- How a gateway is opened. -/
structure Opening where
  root : String
  spelling : Spelling
  backend : Nat
  ttl : Binary64

/-- Opens some gateways that are all given one cache. -/
def Premises.openAll (p : Premises) (given : Option Nat) : List Opening → Premises × List Gateway
  | [] => (p, [])
  | o :: os =>
    let (p, g) := p.openGateway o.root o.spelling o.backend o.ttl given
    let (p, gs) := openAll p given os
    (p, g :: gs)

/-- A cache that has something in it is used by all gateways that it is given to. -/
theorem Premises.openAll_of_not_isEmpty {p : Premises} {cache : Nat} {c : ResourceCache}
    (hc : p.caches[cache]? = some c) (hgiven : c.isEmpty = false) (openings : List Opening) :
    p.openAll (some cache) openings =
      (p, openings.map fun o => ⟨segments o.root, o.spelling, o.backend, cache⟩) := by
  have hused : (some cache).filter (fun i => (p.caches[i]?).any fun c => !c.isEmpty) = some cache := by
    rw [Option.filter_some, hc, Option.any_some, hgiven]
    rfl
  induction openings with
  | nil => rfl
  | cons o os ih =>
      rw [openAll, openGateway, hused]
      dsimp only
      rw [ih]
      rfl

/-- Whatever is in a cache, as long as there is something: gateways to backends of one name that are
given this cache look up what is served once between them, where nothing expires, but for requests
that are lost because the look-up fails. What was looked up is in the given cache, unless each request
that had to know it was lost. After an invalidation of its entry, the next such request looks it up
again. -/
theorem looked_up_once {p : Premises} {cache : Nat} {c : ResourceCache}
    (hc : p.caches[cache]? = some c) (hgiven : c.isEmpty = false) {openings : List Opening}
    {name : String}
    (hname : ∀ o ∈ openings, (p.site[o.backend]?).map (·.name) = some name) {p' : Premises}
    {gateways : List Gateway} (hopen : p.openAll (some cache) openings = (p', gateways))
    {visits : List Visit} (hgateways : ∀ v ∈ visits, v.gateway ∈ gateways)
    (hclock : ∀ v ∈ visits, v.now.toBinary?.isSome = true)
    (hlasts : p'.lasts cache name visits = true) :
    (p'.after visits).site.looks ≤ p.site.looks + 1 + p'.lost cache name visits ∧
      ((p'.after visits).has cache name = true ∨
        p'.lost cache name visits = visits.countP Visit.asks) ∧
      ∀ forgotten : Option String, (∀ k ∈ forgotten, k = name) → ∀ v : Visit,
        v.gateway ∈ gateways → v.now.toBinary?.isSome = true → v.asks = true →
          let again := (v.run ((p'.after visits).forget cache forgotten)).1.site.looks
          again = ((discover v.gateway.backend).run (p'.after visits).site).1.looks ∧
            (∀ set, Site.files? (p'.after visits).site v.gateway.backend = some set →
              again = (p'.after visits).site.looks + 1) := by
  obtain ⟨rfl, rfl⟩ := Prod.mk.inj
    (hopen.symm.trans (Premises.openAll_of_not_isEmpty hc hgiven openings))
  have hgateway : ∀ g ∈ openings.map (fun o => (⟨segments o.root, o.spelling, o.backend, cache⟩ :
      Gateway)), g.cache = cache ∧ p'.site.names[g.backend]? = some name := by
    intro g hg
    obtain ⟨o, ho, rfl⟩ := List.mem_map.mp hg
    exact ⟨rfl, by rw [Site.names, List.getElem?_map]; exact hname o ho⟩
  have hhosts : p'.Hosts cache p'.site.names := ⟨(List.getElem?_eq_some_iff.mp hc).1, rfl⟩
  have hvisits : ∀ v ∈ visits, v.gateway.cache = cache ∧
      p'.site.names[v.gateway.backend]? = some name ∧ v.now.toBinary?.isSome = true := by
    intro v hv
    obtain ⟨hcache, hbackend⟩ := hgateway _ (hgateways v hv)
    exact ⟨hcache, hbackend, hclock v hv⟩
  obtain ⟨hend, -, hlooks, hfound⟩ := Premises.looks_after hhosts hvisits hlasts
  refine ⟨by omega, hfound, fun forgotten hforgotten v hv hnow hasks => ?_⟩
  obtain ⟨hcache, hbackend⟩ := hgateway _ hv
  have hagain := Visit.looks_run_forget hend hcache hbackend hnow hasks hforgotten
  exact ⟨hagain, fun set hset => hagain.trans (looks_discover_files hset)⟩

/-! ## Examples -/

/-- The premises with a shop of goods, and a cache with some entries. -/
def arcade (entries : List (String × CacheEntry (List Resource))) : Premises :=
  ⟨[⟨"shop", .files ⟨[oilFile], Operator.all, true, 0⟩⟩], [⟨.finite false 1000 0, .whole 0, entries⟩]⟩

/-- The same with a cache that knows of something else. -/
def knowing : Premises := arcade [("other", ⟨[], .finite false 1000 0⟩)]

/-- Two ways to the shop. -/
def doors : List Opening := [
  ⟨"front", .camel, 0, .finite false 600 0⟩, ⟨"back", .camel, 0, .finite false 600 0⟩]

/-- One visit through each door, by gateways that go by one cache each. -/
def shoppers (first second : Nat) : List Visit := [
  ⟨⟨["front"], .camel, 0, first⟩, .whole 1, ⟨"GET", "/front/goods", "", .absent⟩⟩,
  ⟨⟨["back"], .camel, 0, second⟩, .whole 2, ⟨"GET", "/back/goods", "", .absent⟩⟩]

theorem looked_up_once_knowing :
    knowing.lasts 0 "shop" (shoppers 0 0) = true ∧
      knowing.openAll (some 0) doors = (knowing, (shoppers 0 0).map Visit.gateway) ∧
      (knowing.after (shoppers 0 0)).site.looks ≤ 1 ∧
      (knowing.after (shoppers 0 0)).has 0 "shop" = true := by
  have hlasts : knowing.lasts 0 "shop" (shoppers 0 0) = true := by decide +kernel
  have hlost : knowing.lost 0 "shop" (shoppers 0 0) = 0 := by decide +kernel
  have hopen : knowing.openAll (some 0) doors = (knowing, (shoppers 0 0).map Visit.gateway) := rfl
  have hcache : knowing.caches[0]? =
      some ⟨.finite false 1000 0, .whole 0, [("other", ⟨[], .finite false 1000 0⟩)]⟩ := rfl
  have hname : ∀ o ∈ doors, (knowing.site[o.backend]?).map (·.name) = some "shop" := by decide
  have hgateways : ∀ v ∈ shoppers 0 0, v.gateway ∈ (shoppers 0 0).map Visit.gateway :=
    fun v hv => List.mem_map_of_mem hv
  obtain ⟨hlooks, hfound, -⟩ :=
    looked_up_once hcache rfl hname hopen hgateways (by decide) hlasts
  rw [hlost] at hlooks hfound
  exact ⟨hlasts, hopen, hlooks, hfound.resolve_right (by decide)⟩

/-- An empty cache is not shared by those that it is given to: both look up what is served, although
neither fails, and the given cache stays empty. -/
theorem empty_cache_unshared :
    let (p, gateways) := (arcade []).openAll (some 0) doors
    gateways.map Gateway.cache = (shoppers 1 2).map (·.gateway.cache) ∧
      p.lasts 0 "shop" (shoppers 1 2) = true ∧ p.lost 0 "shop" (shoppers 1 2) = 0 ∧
      (p.after (shoppers 1 2)).site.looks = 2 ∧ (p.after (shoppers 1 2)).has 0 "shop" = false := by
  decide +kernel

end Rowgate
