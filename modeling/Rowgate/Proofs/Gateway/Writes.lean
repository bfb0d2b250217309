import Mathlib.Data.Option.Basic
import Rowgate.Proofs.Gateway.Informed
import Rowgate.Proofs.Sql.KeyedWrite

/-!
# No write goes past the catalog

Clients send requests to gateways, and some of them look up the resources of a backend and call them
without a gateway. Whatever they do, and whatever the databases answer, each database is only asked
for what services of its own catalog ask for. `Site.Continues` carries this: the catalogs stay as they
are, and the sessions go on with nothing but such events. What a gateway finds in a cache was
discovered once, so it is such a service too.
-/

namespace Rowgate

open Sql

/-! ## What clients do -/

/-- What a client can ask of a resource without a gateway. -/
inductive Call
  | fetch (q : Query)
  | insert (r : Record)
  | update (r : Record)
  | delete (r : Record)

/-- The site after a call of a resource. -/
def Resource.after (resource : Resource) (s : Site) : Call → Site
  | .fetch q => ((resource.fetch q).run s).1
  | .insert r => ((resource.insert r).run s).1
  | .update r => ((resource.update r).run s).1
  | .delete r => ((resource.delete r).run s).1

/-- What a client does: it sends a request to a gateway at some time, it looks up the resources of a
backend, or it calls one of the resources that were looked up. -/
inductive Act
  | ask (g : Gateway) (now : Reading) (r : Request)
  | discover (backend : Nat)
  | call (place : Nat) (c : Call)

/-- The records of an entity that clients offer with an act. -/
def Act.Offers : Act → Entity → Record → Prop
  | .ask _ _ r, e, fields => r.Offers e fields
  | .call _ (.insert r), _, fields | .call _ (.update r), _, fields
  | .call _ (.delete r), _, fields => fields = r
  | _, _, _ => False

/-- The premises, and the resources that clients have looked up. -/
structure Clientele where
  premises : Premises
  held : List Resource

namespace Clientele

/-- What an act leaves behind, whatever comes out of it. -/
def step (s : Clientele) : Act → Clientele
  | .ask g now r => { s with premises := ((g.handle r).run (s.premises.setClock now)).1 }
  | .discover backend =>
    let run := (Rowgate.discover backend).run s.premises.site
    ⟨{ s.premises with site := run.1 }, s.held ++ run.2.result.toOption.getD []⟩
  | .call place c =>
    match s.held[place]? with
    | some resource =>
      { s with premises := { s.premises with site := resource.after s.premises.site c } }
    | none => s

/-- What some acts leave behind, one after another. -/
def play (s : Clientele) (acts : List Act) : Clientele := acts.foldl step s

end Clientele

/-! ## What a database may be asked -/

namespace SchemaSource

/-- Whether a service is one that discovery finds. -/
def HasService (source : SchemaSource) (s : TableService) : Prop :=
  ∃ e ∈ source.catalog.entities, TableService.ofEntity source.schema source.operators e = .ok s

variable (offered : Entity → Record → Prop)

/-- What the database of a source may be asked, where some records are offered. -/
inductive Allows (source : SchemaSource) : Sql.Event → Prop
  | control {e : Sql.Event} (h : e.isControl = true) : Allows source e
  | inspect (schema : Option String) : Allows source (.inspect schema)
  | execute {s : TableService} {statement : Statement} (hs : source.HasService s)
    (h : s.Runs (offered s.entity) statement) : Allows source (.execute statement)

/-- Whether a source is one from before, with a session that went on with what it allows. -/
def Continues (before now : SchemaSource) : Prop :=
  ∃ session, now = { before with session } ∧
    before.session.Extends (before.Allows offered) session

variable {offered} {source : SchemaSource}

theorem allows_of_asks {s : TableService} (hs : source.HasService s) {e : Sql.Event}
    (h : s.Asks (offered s.entity) e) : source.Allows offered e := by
  rcases h with h | ⟨statement, rfl, h⟩
  · exact .control h
  · exact .execute hs h

/-- What discovery answers are the services of the catalog. -/
theorem discover_yields {before : Session} (name : String) :
    (source.catalog.discover source.schema source.operators name).Yields
      (before.Extends (source.Allows offered)) False fun services =>
        ∀ s ∈ services, source.HasService s := by
  refine (Dialogue.inConnection_yields (Q := fun _ => True) (fun _ => .control)
    (Dialogue.record_yields (.inspect _))).bind fun _ _ => ?_
  refine (Work.yields_note _ _ _).bind fun _ _ => Work.yields_ofTraced ?_ False.elim
  intro services h s hs
  exact Outcome.exists_of_mem_mapM h hs

end SchemaSource

/-! ## Sites -/

namespace Site

theorem tables?_setStorage (s : Site) (backend : Nat) (storage : Storage) (b : Nat) :
    tables? (setStorage s backend storage) b =
      if b = backend then (s[b]?).bind fun _ => storage.tables? else tables? s b := by
  by_cases h : b = backend
  · subst h
    rw [if_pos rfl, tables?, setStorage, List.getElem?_modify_eq]
    cases s[b]? <;> rfl
  · rw [if_neg h, tables?, tables?, setStorage, List.getElem?_modify_ne _ _ (Ne.symm h)]

/-- Files that are changed are no tables. -/
theorem tables?_setStorage_files {s : Site} {backend : Nat} {set : FileSet}
    (h : files? s backend = some set) (set' : FileSet) :
    tables? (setStorage s backend (.files set')) = tables? s := by
  funext b
  rw [tables?_setStorage]
  split
  · next hb =>
      subst hb
      cases htables : tables? s b with
      | none => cases s[b]? <;> rfl
      | some source =>
          rw [files?_eq_none_of_tables? htables] at h
          cases h
  · rfl

/-- Whether the databases of a site were asked for nothing but what their sources allow. -/
def Continues (offered : Entity → Record → Prop) (before now : Site) : Prop :=
  ∀ b, Option.Rel (SchemaSource.Continues offered) (tables? before b) (tables? now b)

end Site

section Sites

variable {α : Type} {offered : Entity → Record → Prop} {before : Site} {backend : Nat}

theorem Site.Continues.refl (s : Site) : s.Continues offered s := by
  intro b
  cases tables? s b with
  | none => exact .none
  | some source => exact .some ⟨source.session, rfl, .refl _ _⟩

/-- A dialogue may ask what the source allows, whatever was asked before. -/
theorem onSession_continues {work : SchemaSource → Dialogue α} {Q : SchemaSource → α → Prop}
    (h : ∀ source, Site.tables? before backend = some source → ∀ session,
      (work { source with session }).Yields (source.session.Extends (source.Allows offered)) False
        (Q source)) :
    (onSession backend work).Yields (before.Continues offered) False fun a =>
      ∃ source, Site.tables? before backend = some source ∧ Q source a := by
  intro s hs
  have hrel := hs backend
  rw [onSession]
  dsimp only
  cases hnow : Site.tables? s backend with
  | none => exact ⟨hs, fun _ h => (by cases h), False.elim⟩
  | some now =>
      rw [hnow] at hrel
      cases hbefore : Site.tables? before backend with
      | none =>
          rw [hbefore] at hrel
          cases hrel
      | some source =>
          rw [hbefore] at hrel
          obtain ⟨session, rfl, hsession⟩ : source.Continues offered now := by
            cases hrel
            assumption
          obtain ⟨hextends, hQ, -⟩ := h source hbefore session _ hsession
          refine ⟨fun b => ?_, fun a ha => ⟨source, rfl, hQ a ha⟩, False.elim⟩
          rw [Site.tables?_setStorage]
          -- the session of this backend has gone on; those of the others are as they were
          split
          · next hb =>
              subst hb
              cases hplace : s[b]? with
              | none =>
                  rw [Site.tables?, hplace] at hnow
                  cases hnow
              | some _ =>
                  rw [hbefore]
                  exact .some ⟨_, rfl, hextends⟩
          · exact hs b

theorem onFile_continues (place : Nat) (work : FileService → Work File α) :
    (onFile backend place work).Yields (before.Continues offered) False fun _ => True := by
  have hkeeps : (onFile backend place work).Keeps Site.tables? :=
    onFile_keeps (fun _ _ _ hset => Site.tables?_setStorage_files hset _) place work
  exact hkeeps.yields fun s s' h hs b => by rw [h]; exact hs b

/-- Whether a resource is one that discovery finds at a site, if it is a table. -/
def Resource.IsOf (s : Site) : Resource → Prop
  | .file .. => True
  | .table b service => ∃ source, Site.tables? s b = some source ∧ source.HasService service

theorem discover_continues (backend : Nat) :
    (discover backend).Yields (before.Continues offered) False fun found =>
      ∀ resource ∈ found, resource.IsOf before := by
  intro s hs
  rw [discover, Work.run_state_bind]
  cases hb : s[backend]? with
  | none => exact ⟨hs, fun _ h => (by cases h), False.elim⟩
  | some b =>
      obtain ⟨name, storage⟩ := b
      cases storage with
      | unavailable message => exact ⟨hs, fun _ h => (by cases h), False.elim⟩
      | tables source =>
          refine Work.Yields.bind (onSession_continues fun source _ session =>
            SchemaSource.discover_yields name) (fun services h => Work.yields_pure ?_) s hs
          obtain ⟨source, hsource, hservices⟩ := h
          intro resource hresource
          obtain ⟨service, hservice, rfl⟩ := List.mem_map.mp hresource
          exact ⟨source, hsource, hservices service hservice⟩
      | files set =>
          refine ⟨fun b => ?_, fun found hfound resource hresource => ?_, False.elim⟩
          · have hset : Site.files? s backend = some set := by
              rw [Site.files?, hb]
              rfl
            show Option.Rel _ _ (Site.tables? (Site.setStorage s backend _) b)
            rw [Site.tables?_setStorage_files hset]
            exact hs b
          · obtain rfl : set.resources backend = found := Except.ok.inj hfound
            obtain ⟨place, _, rfl⟩ := List.mem_mapIdx.mp hresource
            trivial

end Sites

/-! ## Gateways -/

/-- Whether the databases were asked for nothing but what their sources allow, and the caches know of
nothing but what there is. -/
structure Premises.Stands (offered : Entity → Record → Prop) (before : Site) (p : Premises) :
    Prop where
  site : before.Continues offered p.site
  caches : ∀ (i : Nat) (c : ResourceCache), p.caches[i]? = some c → ∀ key entry,
    c.find? key = some entry → ∀ resource ∈ entry.value, resource.IsOf before

section Gateways

variable {α : Type} {offered : Entity → Record → Prop} {before : Site} {resource : Resource}

theorem stands_eq_informed : Premises.Stands offered before =
    Premises.Informed (before.Continues offered) fun _ _ resource => resource.IsOf before :=
  funext fun _ => propext ⟨fun h => ⟨h.site, h.caches⟩, fun h => ⟨h.site, h.caches⟩⟩

theorem onSite_stands {work : Work Site α} {Q : α → Prop}
    (h : work.Yields (before.Continues offered) False Q) :
    (Premises.onSite work).Yields (Premises.Stands offered before) False Q := by
  rw [stands_eq_informed]
  exact onSite_informed h

/-- A dialogue of a service that was discovered asks what its source allows. -/
theorem onSession_stands {backend : Nat} {s : TableService}
    (hs : (Resource.table backend s).IsOf before) {work : Dialogue α}
    (h : ∀ session : Session, work.Yields (session.Extends (s.Asks (offered s.entity))) False
      fun _ => True) :
    (Premises.onSite (onSession backend fun _ => work)).Yields (Premises.Stands offered before) False
      fun _ => True := by
  obtain ⟨source, hsource, hservice⟩ := hs
  have hsession : (onSession backend fun _ => work).Yields (before.Continues offered) False
      fun _ => ∃ source, Site.tables? before backend = some source ∧ True := by
    refine onSession_continues fun source' hsource' session => ?_
    obtain rfl : source = source' := Option.some_inj.mp (hsource.symm.trans hsource')
    intro now hnow
    obtain ⟨hextends, -, -⟩ := h now now (Session.Extends.refl _ _)
    refine ⟨hnow.trans (hextends.mono fun _ => SchemaSource.allows_of_asks hservice), ?_, False.elim⟩
    exact fun _ _ => trivial
  exact onSite_stands (hsession.weaken fun _ _ => trivial)

theorem steady_of_isOf (h : resource.IsOf before) :
    resource.Steady (Premises.Stands offered before) (offered resource.entity) := by
  cases resource with
  | file backend place e =>
      exact {
        fetch := fun q => onSite_stands (by rw [Resource.fetch]; exact onFile_continues place _)
        insert := fun r _ => onSite_stands (onFile_continues place fun s => s.insert r)
        update := fun r _ => onSite_stands (onFile_continues place fun s => s.update r)
        delete := fun r _ => onSite_stands (onFile_continues place fun s => s.delete r) }
  | table backend s =>
      exact {
        fetch := fun q => onSession_stands h fun _ => TableService.fetch_yields q
        insert := fun r _ => onSession_stands h fun _ => TableService.insert_yields r
        update := fun r hr => onSession_stands h fun _ => TableService.update_yields hr
        delete := fun r hr => onSession_stands h fun _ => TableService.delete_yields hr }

theorem Premises.Stands.setClock {p : Premises} (h : p.Stands offered before) (now : Reading) :
    (p.setClock now).Stands offered before := by
  rw [stands_eq_informed] at h ⊢
  exact h.setClock now

namespace Gateway

variable {g : Gateway}

theorem resources_stands :
    g.resources.Yields (Premises.Stands offered before) False fun all =>
      ∀ resource ∈ all, resource.IsOf before := by
  rw [stands_eq_informed]
  exact resources_informed (discover_continues g.backend) fun _ _ _ => Iff.rfl

theorem handle_stands {r : Request} (h : ∀ e fields, r.Offers e fields → offered e fields) :
    (g.handle r).Yields (Premises.Stands offered before) False fun _ => True :=
  handle_yields_of (resources_stands.weaken fun _ hall resource hresource =>
    (steady_of_isOf (hall resource hresource)).mono (h resource.entity))

end Gateway

end Gateways

/-! ## Many acts -/

namespace Clientele

variable {offered : Entity → Record → Prop} {before : Site} {s : Clientele}

/-- Whether the premises stand and clients hold nothing but what there is. -/
structure Stands (offered : Entity → Record → Prop) (before : Site) (s : Clientele) : Prop where
  premises : s.premises.Stands offered before
  held : ∀ resource ∈ s.held, resource.IsOf before

theorem after_stands {p : Premises} (h : p.Stands offered before) {resource : Resource}
    (hresource : resource.IsOf before) {place : Nat} {c : Call}
    (hoffered : ∀ fields, (Act.call place c).Offers resource.entity fields →
      offered resource.entity fields) :
    Premises.Stands offered before { p with site := resource.after p.site c } := by
  have hsteady : resource.Steady (Premises.Stands offered before) (offered resource.entity) :=
    steady_of_isOf hresource
  cases c with
  | fetch q => exact (hsteady.fetch q p h).1
  | insert r => exact (hsteady.insert r (hoffered r rfl) p h).1
  | update r => exact (hsteady.update r (hoffered r rfl) p h).1
  | delete r => exact (hsteady.delete r (hoffered r rfl) p h).1

theorem Stands.step (h : s.Stands offered before) {act : Act}
    (hact : ∀ e fields, act.Offers e fields → offered e fields) :
    (s.step act).Stands offered before := by
  cases act with
  | ask g now r =>
      exact ⟨(Gateway.handle_stands hact _ (h.premises.setClock now)).1, h.held⟩
  | discover backend =>
      obtain ⟨hsite, hfound, -⟩ := discover_continues backend _ h.premises.site
      refine ⟨⟨hsite, h.premises.caches⟩, fun resource hresource => ?_⟩
      rcases List.mem_append.mp hresource with hold | hnew
      · exact h.held resource hold
      · cases hresult : ((Rowgate.discover backend).run s.premises.site).2.result with
        | error f =>
            simp only [hresult] at hnew
            cases hnew
        | ok found =>
            simp only [hresult] at hnew
            exact hfound found hresult resource hnew
  | call place c =>
      rw [Clientele.step.eq_def]
      dsimp only
      split
      · next resource hresource =>
          have hheld := h.held resource (List.mem_of_getElem? hresource)
          exact ⟨after_stands h.premises hheld (hact resource.entity), h.held⟩
      · exact h

theorem Stands.play (h : s.Stands offered before) {acts : List Act}
    (hacts : ∀ act ∈ acts, ∀ e fields, act.Offers e fields → offered e fields) :
    (s.play acts).Stands offered before := by
  induction acts generalizing s with
  | nil => exact h
  | cons act acts ih =>
      exact ih (h.step (hacts act List.mem_cons_self)) fun a ha =>
        hacts a (List.mem_cons_of_mem act ha)

end Clientele

/-- A schema with a table of goods and a view of them. -/
def warehouse : Catalog :=
  let name : CatalogColumn := ⟨"Name", .text none, false, false, none, false, false⟩
  let price : CatalogColumn := ⟨"Price", .integer, true, false, none, false, false⟩
  ⟨[⟨"Goods", ["Name"], none, [name, price]⟩], [⟨"Cheap", [], none, [name, price]⟩]⟩

/-- A site with a database that has this schema. -/
def depot : Premises :=
  ⟨[⟨"depot", .tables ⟨none, warehouse, Operator.all, .fresh (.answering [])⟩⟩], [Cache.empty .nan]⟩

/-- Two requests to remove the goods of a name, the second one from the view. -/
def clearance : List Act := [
  .ask ⟨["api"], .camel, 0, 0⟩ (.whole 1)
    ⟨"DELETE", "/api/goods", "", .text "\x7b\"Name\": \"oil\"\x7d"⟩,
  .ask ⟨["api"], .camel, 0, 0⟩ (.whole 2)
    ⟨"DELETE", "/api/cheap", "", .text "\x7b\"Name\": \"oil\"\x7d"⟩]

end Rowgate
