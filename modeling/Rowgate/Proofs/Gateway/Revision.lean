import Rowgate.Proofs.Gateway.Informed
import Rowgate.Proofs.Gateway.Sharing
import Rowgate.Proofs.Gateway.Writes
import Rowgate.Proofs.Store.Revision

/-!
# What a write to a record changes

A request that replaces a record or adds to it goes a long way: the gateway finds out what it serves,
perhaps from a cache, reads the body, and hands what it says to the service of a file. At the end of
this way one record of one file is revised by the body, and all else in every file is as it was
(`revised_by_body`). It holds after any requests, since these leave each file at its place with its
entity (`Site.Became`), and so what a cache knows stays true.
-/

namespace Rowgate

open Sql

/-! ## The files of a site -/

namespace Site

theorem file?_congr {s t : Site} (h : contents s = contents t) : file? s = file? t := by
  have hfile : ∀ s b place, file? s b place = (((contents s)[b]?).bind id).bind (·[place]?) := by
    intro s b place
    rw [file?, files?, contents, List.getElem?_map]
    cases s[b]? with
    | none => rfl
    | some backend => cases h : backend.storage.files? <;> simp [h]
  funext b place
  rw [hfile, hfile, h]

theorem file?_written {s : Site} {backend place : Nat} {set : FileSet} {f : File}
    (hset : files? s backend = some set) (hf : file? s backend place = some f) (g : File)
    (b place' : Nat) :
    file? (setStorage s backend (.files { set with files := set.files.set place g })) b place' =
      if b = backend ∧ place' = place then some g else file? s b place' := by
  obtain ⟨name, hb⟩ := exists_of_files? hset
  have hplace : set.files[place]? = some f := by
    rw [file?, hset] at hf
    exact hf
  by_cases h : b = backend
  · subst h
    rw [file?, file?, hset, files?, getElem?_setStorage hb]
    show (set.files.set place g)[place']? = if b = b ∧ place' = place then _ else set.files[place']?
    by_cases hp : place' = place
    · rw [if_pos ⟨rfl, hp⟩, hp, List.getElem?_set_self (List.getElem?_eq_some_iff.mp hplace).1]
    · rw [if_neg fun h => hp h.2, List.getElem?_set_ne (Ne.symm hp)]
  · rw [if_neg fun h' => h h'.1, file?, file?, files?, files?, setStorage,
      List.getElem?_modify_ne _ _ (Ne.symm h)]

end Site

/-- What work on a file does: it fails, as there is no such file, or the file that it leaves is put in
the place of the one that was there. -/
theorem onFile_cases {α : Type} (backend place : Nat) (work : FileService → Work File α) (s : Site) :
    (((onFile backend place work).run s).1 = s ∧
      ∃ fault, ((onFile backend place work).run s).2.result = .error fault) ∨
    ∃ (set : FileSet) (f g : File), Site.file? s backend place = some f ∧
      (work (set.service f.entity)).outcome f = (((onFile backend place work).run s).2.result, g) ∧
      Site.tables? ((onFile backend place work).run s).1 = Site.tables? s ∧
      ∀ b place', Site.file? ((onFile backend place work).run s).1 b place' =
        if b = backend ∧ place' = place then some g else Site.file? s b place' := by
  rw [onFile]
  dsimp only
  cases hset : Site.files? s backend with
  | none => exact .inl ⟨rfl, _, rfl⟩
  | some set =>
      cases hf : Site.file? s backend place with
      | none => exact .inl ⟨rfl, _, rfl⟩
      | some f =>
          exact .inr ⟨set, f, _, rfl, rfl, Site.tables?_setStorage_files hset _,
            Site.file?_written hset hf _⟩

/-! ## Files that were written to -/

/-- Whether a file is one that another file may have become by writes. -/
def File.Became (f g : File) : Prop := f.Sound → g.Sound ∧ g.entity = f.entity

/-- Whether a site has files only, each of them where it was before and with its entity, whatever was
written to it. -/
structure Site.Became (before now : Site) : Prop where
  files : ∀ b place, Option.Rel File.Became (file? before b place) (file? now b place)
  tableless : ∀ b, tables? now b = none

/-- Whether a resource is a file that was at a site from the start. -/
def Resource.IsFileOf (before : Site) : Resource → Prop
  | .file b place e => ∃ start, Site.file? before b place = some start ∧
      (start.Sound → start.entity = e)
  | .table .. => False

section Backends

variable {α : Type} {before : Site} {f g : File}

theorem File.Became.refl (f : File) : f.Became f := fun hf => ⟨hf, rfl⟩

theorem FileService.became (s : FileService) (w : Write) : f.Became (s.serve f w).2 := by
  intro hf
  obtain ⟨-, hsound, hentity, -⟩ := serve_ledger s hf w
  exact ⟨hsound, hentity⟩

theorem File.Became.trans {k : File} (h : f.Became g) (h' : g.Became k) : f.Became k := by
  intro hf
  obtain ⟨hg, hentity⟩ := h hf
  obtain ⟨hk, hentity'⟩ := h' hg
  exact ⟨hk, hentity'.trans hentity⟩

theorem Site.Became.refl {s : Site} (h : ∀ b, tables? s b = none) : s.Became s := by
  refine ⟨fun b place => ?_, h⟩
  cases file? s b place with
  | none => exact .none
  | some f => exact .some (.refl f)

theorem Site.Became.of_contents {now now' : Site} (h : before.Became now)
    (hcontents : contents now' = contents now) (htables : ∀ b, tables? now' b = none) :
    before.Became now' :=
  ⟨fun b place => by rw [file?_congr hcontents]; exact h.files b place, htables⟩

theorem onFile_became {backend place : Nat} (work : FileService → Work File α)
    (h : ∀ (s : FileService) (f : File), f.Became ((work s).outcome f).2) :
    (onFile backend place work).Yields before.Became False fun _ => True := by
  intro s hs
  refine ⟨?_, fun _ _ => trivial, False.elim⟩
  rcases onFile_cases backend place work s with ⟨hsame, -⟩ | ⟨set, f, g, hf, hw, htables, hfiles⟩
  · rw [hsame]
    exact hs
  · have hg : f.Became g := by
      have hleft := h (set.service f.entity) f
      rwa [hw] at hleft
    refine ⟨fun b place' => ?_, fun b => by rw [htables]; exact hs.tableless b⟩
    have hrel := hs.files b place'
    rw [hfiles]
    split
    · next hplace =>
        rw [hplace.1, hplace.2, hf] at hrel
        rw [hplace.1, hplace.2]
        cases hstart : Site.file? before backend place with
        | none =>
            rw [hstart] at hrel
            cases hrel
        | some start =>
            rw [hstart] at hrel
            cases hrel with
            | some hbecame => exact .some (hbecame.trans hg)
    · exact hrel

/-- Where there are no tables, there is nothing to talk to. -/
theorem onSession_became {backend : Nat} (work : SchemaSource → Dialogue α) :
    (onSession backend work).Yields before.Became False fun _ => True := by
  intro s hs
  rw [onSession]
  dsimp only
  rw [hs.tableless backend]
  exact ⟨hs, fun _ _ => trivial, False.elim⟩

theorem discover_became (backend : Nat) :
    (discover backend).Yields before.Became False fun found =>
      ∀ resource ∈ found, resource.IsFileOf before := by
  intro s hs
  have hcontents := discover_keeps backend s
  rw [discover, Work.run_state_bind] at hcontents ⊢
  cases hb : s[backend]? with
  | none => exact ⟨hs, fun _ h => (by cases h), False.elim⟩
  | some b =>
      obtain ⟨name, storage⟩ := b
      cases storage with
      | unavailable message => exact ⟨hs, fun _ h => (by cases h), False.elim⟩
      | tables source =>
          have htables := hs.tableless backend
          rw [Site.tables?, hb] at htables
          cases htables
      | files set =>
          have hset : Site.files? s backend = some set := by
            rw [Site.files?, hb]
            rfl
          rw [hb] at hcontents
          refine ⟨hs.of_contents hcontents fun b => ?_, fun found hfound resource hresource => ?_,
            False.elim⟩
          · show Site.tables? (Site.setStorage s backend _) b = none
            rw [Site.tables?_setStorage_files hset]
            exact hs.tableless b
          · obtain rfl : set.resources backend = found := Except.ok.inj hfound
            obtain ⟨place, hplace, rfl⟩ := List.mem_mapIdx.mp hresource
            have hfile : Site.file? s backend place = some set.files[place] := by
              rw [Site.file?, hset]
              exact List.getElem?_eq_getElem hplace
            have hrel := hs.files backend place
            rw [hfile] at hrel
            rw [Resource.IsFileOf]
            cases hstart : Site.file? before backend place with
            | none =>
                rw [hstart] at hrel
                cases hrel
            | some start =>
                rw [hstart] at hrel
                cases hrel with
                | some hbecame => exact ⟨start, rfl, fun hsound => (hbecame hsound).2.symm⟩

end Backends

/-! ## Many requests -/

/-- Whether a site has files only, and the caches know of nothing else. -/
abbrev Premises.KnowsFiles (before : Site) : Premises → Prop :=
  Premises.Informed before.Became fun _ _ resource => resource.IsFileOf before

section Requests

variable {before : Site} {p : Premises} {g : Gateway}

theorem steady_knowsFiles (resource : Resource) :
    resource.Steady (Premises.KnowsFiles before) fun _ => True := by
  cases resource with
  | table backend s =>
      exact {
        fetch := fun q => onSite_informed (onSession_became fun _ => s.fetch q)
        insert := fun r _ => onSite_informed (onSession_became fun _ => s.insert r)
        update := fun r _ => onSite_informed (onSession_became fun _ => s.update r)
        delete := fun r _ => onSite_informed (onSession_became fun _ => s.delete r) }
  | file backend place e =>
      exact {
        fetch := fun q => onSite_informed <| by
          rw [Resource.fetch]
          exact onFile_became _ fun s f => .refl f
        insert := fun r _ => onSite_informed <| onFile_became (fun s => s.insert r) fun s f =>
          snd_serve_insert s f r ▸ s.became ⟨.insert, r⟩
        update := fun r _ => onSite_informed <| onFile_became (fun s => s.update r) fun s f =>
          snd_serve_update s f r ▸ s.became ⟨.update, r⟩
        delete := fun r _ => onSite_informed <| onFile_became (fun s => s.delete r) fun s f =>
          snd_serve_delete s f r ▸ s.became ⟨.delete, r⟩ }

theorem resources_knowsFiles :
    g.resources.Yields (Premises.KnowsFiles before) False fun all =>
      ∀ resource ∈ all, resource.IsFileOf before :=
  resources_informed (discover_became g.backend) fun _ _ _ => Iff.rfl

theorem handle_knowsFiles (r : Request) :
    (g.handle r).Yields (Premises.KnowsFiles before) False fun _ => True :=
  Gateway.handle_yields_of (resources_knowsFiles.weaken fun _ _ resource _ =>
    (steady_knowsFiles resource).mono fun _ _ => trivial)

theorem knowsFiles_after (h : p.KnowsFiles before) (visits : List Visit) :
    (p.after visits).KnowsFiles before :=
  Premises.after_keeps (fun v _ _ hp => (handle_knowsFiles v.request _ (hp.setClock v.now)).1) h

end Requests

/-! ## One request -/

/-- Whether an entity goes by a name: it is its name in any letter case, or its name without
separators. -/
def Entity.GoesBy (e : Entity) (name : String) : Prop :=
  Text.lowercase e.name = Text.lowercase name ∨
    Text.lowercase (stripSeparators e.name) = Text.lowercase name

theorem goesBy_of_resolve {all : List Resource} {name : String} {resource : Resource}
    (h : resolve (fun r => r.entity.name) all name = some resource) : resource.entity.GoesBy name := by
  rw [resolve] at h
  cases hfirst : all.find? fun x => Text.lowercase x.entity.name == Text.lowercase name with
  | some found =>
      rw [hfirst, Option.orElse_some, Option.some_inj] at h
      subst h
      exact .inl (by simpa using List.find?_some hfirst)
  | none =>
      rw [hfirst, Option.orElse_none] at h
      exact .inr (by simpa using List.find?_some h)

namespace Gateway

variable {g : Gateway} {p : Premises} {r : Request} {response : Response} {resource : Resource}

theorem status_of_respond {status : Nat} {v : Value}
    (h : ((respond status v).run p).2.result = .ok response) : response.status = status := by
  replace h : Response.ofValue status v = .ok response := h
  rw [Response.ofValue] at h
  split at h
  · cases h
    rfl
  · cases h

theorem goesBy_of_find {name : String}
    (h : ((g.find name).run p).2.result = .ok (some resource)) : resource.entity.GoesBy name := by
  obtain ⟨all, -, h, -⟩ := Work.exists_of_run_bind h
  obtain ⟨_, -, h, -⟩ := Work.exists_of_run_bind h
  exact goesBy_of_resolve (Except.ok.inj h)

/-- Only what is served without a fault is answered with the status 200. -/
theorem exists_of_answering {work : Work Premises Response}
    (h : ((answering work).run p).2.result = .ok response) (hstatus : response.status = 200) :
    (work.run p).2.result = .ok response ∧
      ((answering work).run p).1.contents = (work.run p).1.contents := by
  refine ⟨?_, Work.view_run_bind answered_keeps p⟩
  rw [answering_eq] at h
  obtain ⟨outcome, houtcome, h, -⟩ := Work.exists_of_run_bind h
  obtain rfl : (work.run p).2.result = outcome := Except.ok.inj houtcome
  cases hwork : (work.run p).2.result with
  | ok response' =>
      rw [hwork] at h
      exact h
  | error fault =>
      rw [hwork, answered] at h
      cases hfault : fault.status? with
      | none =>
          rw [hfault] at h
          cases h
      | some status =>
          rw [hfault] at h
          rw [status_of_respond h] at hstatus
          cases fault <;> cases hfault <;> cases hstatus

theorem exists_of_offer {method : Method} (hmethod : Method.ofName? r.method = some method)
    (h : ((offer resource r).run p).2.result = .ok (some response))
    (hstatus : response.status = 200) :
    ((serve method resource r).run p).2.result = .ok response ∧
      ((offer resource r).run p).1.contents = ((serve method resource r).run p).1.contents := by
  rw [offer, hmethod] at h ⊢
  dsimp only at h ⊢
  split at h
  · obtain ⟨_, -, h, -⟩ := Work.exists_of_run_bind h
    cases h
  · next hallowed =>
      rw [if_neg hallowed]
      obtain ⟨response', hanswer, h, hrun⟩ := Work.exists_of_run_bind h
      obtain rfl : response' = response := Option.some_inj.mp (Except.ok.inj h)
      obtain ⟨hserve, hcontents⟩ := exists_of_answering hanswer hstatus
      rw [hrun]
      exact ⟨hserve, hcontents⟩

/-- A request for records that is answered was offered by a resource that goes by the name. -/
theorem exists_of_handle {name : String}
    (hroute : Route.ofPath? g.root r.path = some (.records name))
    (h : ((g.handle r).run p).2.result = .ok (some response)) :
    ∃ resource q, (g.find name).run p = q ∧ q.2.result = .ok (some resource) ∧
      ((offer resource r).run q.1).2.result = .ok (some response) ∧
      ((g.handle r).run p).1 = ((offer resource r).run q.1).1 := by
  rw [handle, hroute] at h ⊢
  obtain ⟨found, hfound, h, hrun⟩ := Work.exists_of_run_bind h
  cases found with
  | none => cases h
  | some resource => exact ⟨resource, _, rfl, hfound, h, hrun⟩

theorem eq_saidOf_of_fieldsOf {method : Method} {body : Body} {object fields : Record}
    (hbody : body.decode = .ok object)
    (h : ((fieldsOf method resource body).run p).2.result = .ok fields) :
    fields = saidOf resource.entity (method == .put) object := by
  obtain ⟨object', hobject, h, -⟩ := Work.exists_of_run_bind h
  cases hbody.symm.trans hobject
  obtain ⟨fields', hfields, h, -⟩ := Work.exists_of_run_bind h
  replace hfields : (resource.entity.fieldsIn method object).result = .ok fields' := hfields
  rw [result_fieldsIn, Except.ok.injEq] at hfields
  split at h
  · cases h
  · cases h
    exact hfields.symm

/-- A write to a record that is answered with the status 200 is an update that finds nothing wrong. -/
theorem exists_of_serve {method : Method} (hmethod : method = .put ∨ method = .patch)
    {object : Record} (hbody : r.body.decode = .ok object)
    (h : ((serve method resource r).run p).2.result = .ok response)
    (hstatus : response.status = 200) :
    ((resource.update (saidOf resource.entity (method == .put) object)).run p.site).2.result =
        .ok [] ∧
      ((serve method resource r).run p).1.site =
        ((resource.update (saidOf resource.entity (method == .put) object)).run p.site).1 := by
  have hserve : serve method resource r = fieldsOf method resource r.body >>= fun fields =>
      Premises.onSite (resource.update fields) >>= respondFindings := by
    rcases hmethod with rfl | rfl <;> rfl
  rw [hserve] at h ⊢
  obtain ⟨fields, hfields, h, hrun⟩ := Work.exists_of_run_bind h
  obtain rfl := eq_saidOf_of_fieldsOf hbody hfields
  have hkeeps : (fieldsOf method resource r.body).Keeps id :=
    fieldsOf_keeps method resource r.body
  have hsame : ((fieldsOf method resource r.body).run p).1 = p := hkeeps p
  rw [hsame] at h hrun
  rw [hrun]
  obtain ⟨findings, hfindings, h, -⟩ := Work.exists_of_run_bind h
  have hfound : findings = [] := by
    cases findings with
    | nil => rfl
    | cons first rest =>
        rw [respondFindings, if_neg (by simp)] at h
        rw [status_of_respond h] at hstatus
        cases hstatus
  refine ⟨hfound ▸ hfindings, ?_⟩
  exact Work.view_run_bind respondFindings_keeps p

end Gateway

/-- Whatever was asked before, a request that replaces a record or adds to it and is answered with the
status 200 changes one file at most, that of an entity that goes by the name in the path. If the file
was made of records and its field names are different, one record of it is changed, the one whose key
the body gives; every other record stays what and where it was, and this one is revised by the body. -/
theorem revised_by_body {p : Premises} (hcaches : ∀ c ∈ p.caches, c.entries = [])
    (hfiles : ∀ b, Site.tables? p.site b = none) (visits : List Visit) (v : Visit)
    {method : Method} (hmethod : Method.ofName? v.request.method = some method)
    (hchange : method = .put ∨ method = .patch) {name : String}
    (hroute : Route.ofPath? v.gateway.root v.request.path = some (.records name)) {body : Record}
    (hbody : v.request.body.decode = .ok body) {response : Response}
    (hresponse : (v.run (p.after visits)).2.result = .ok (some response))
    (hstatus : response.status = 200) :
    ∃ b place start f g, Site.file? p.site b place = some start ∧
      Site.file? (p.after visits).site b place = some f ∧
      (∀ b' place', Site.file? (v.run (p.after visits)).1.site b' place' =
        if b' = b ∧ place' = place then some g else Site.file? (p.after visits).site b' place') ∧
      ((start.entity.fields.map (·.name)).Nodup →
        (∃ records, File.ofRecords start.entity records = .ok start) →
        f.entity = start.entity ∧ g.entity = start.entity ∧ start.entity.GoesBy name ∧
          ∃ before old new after, f.records = before ++ old :: after ∧
            g.records = before ++ new :: after ∧ start.entity.Names body old ∧
            (∀ other ∈ before ++ after, ¬ start.entity.Names body other) ∧
            start.entity.Revised (method == .put) body old new) := by
  have hknows : ((p.after visits).setClock v.now).KnowsFiles p.site :=
    (knowsFiles_after (informed_of_empty (.refl hfiles) hcaches) visits).setClock v.now
  obtain ⟨resource, q, hfind, hresource, hoffer, hrun⟩ := Gateway.exists_of_handle hroute hresponse
  have hgoes : resource.entity.GoesBy name :=
    Gateway.goesBy_of_find ((congrArg (fun q => q.2.result) hfind).trans hresource)
  -- what is known before the resource is found, and what is left of it then
  obtain ⟨hq, hisFile, -⟩ := Gateway.find_yields_of resources_knowsFiles name _ hknows
  have hcontents := v.gateway.find_keeps name ((p.after visits).setClock v.now)
  rw [hfind] at hq hisFile hcontents
  have hbefore : Site.file? q.1.site = Site.file? (p.after visits).site :=
    Site.file?_congr hcontents
  obtain ⟨hserve, hserved⟩ := Gateway.exists_of_offer hmethod hoffer hstatus
  obtain ⟨hupdate, hsite⟩ := Gateway.exists_of_serve hchange hbody hserve hstatus
  have hafter : Site.file? (v.run (p.after visits)).1.site =
      Site.file? ((resource.update (saidOf resource.entity (method == .put) body)).run q.1.site).1 := by
    have hcontents' : (v.run (p.after visits)).1.contents =
        ((Gateway.serve method resource v.request).run q.1).1.contents := by
      rw [← hserved, ← hrun]
      rfl
    rw [← hsite]
    exact Site.file?_congr hcontents'
  cases resource with
  | table backend s => cases hisFile _ hresource _ rfl
  | file b place e =>
      obtain ⟨start, hstart, hentity⟩ := hisFile _ hresource _ rfl
      rcases onFile_cases b place
          (fun s => s.update (saidOf e (method == .put) body)) q.1.site with
        ⟨-, fault, hfault⟩ | ⟨set, f, g, hf, hw, -, hwritten⟩
      · cases hupdate.symm.trans hfault
      · replace hw : ((set.service f.entity).update (saidOf e (method == .put) body)).outcome f =
            (.ok [], g) := hw.trans (congrArg (·, g) hupdate)
        refine ⟨b, place, start, f, g, hstart, hbefore ▸ hf, fun b' place' => ?_, ?_⟩
        · rw [hafter, ← hbefore]
          exact hwritten b' place'
        · rintro hnames ⟨records, hrecords⟩
          obtain ⟨hsound, -⟩ := File.sound_ofRecords hnames hrecords
          obtain rfl := hentity hsound
          have hrel := hq.site.files b place
          rw [hstart, hf] at hrel
          obtain ⟨hf', hentity'⟩ : f.Sound ∧ f.entity = start.entity := by
            cases hrel with
            | some hbecame => exact hbecame hsound
          rw [Resource.entity] at hgoes
          rw [← hentity'] at hw hgoes ⊢
          obtain ⟨before, old, new, after, hold, rfl, hrevised⟩ :=
            FileService.exists_revised hf' hw
          exact ⟨rfl, rfl, hgoes, before, old, new, after, hold, rfl, hrevised⟩

/-! ## An example -/

/-- What is in stock: a code, how many there are, a note, and a day that clients may not set. -/
def stock : Entity := ⟨"Stock", none, false, [
  ⟨"Code", none, 0, 0, .string, true, true, false⟩,
  ⟨"Count", none, 0, 0, .numeric, false, false, false⟩,
  ⟨"Note", none, 0, 0, .string, false, false, false⟩,
  ⟨"Since", none, 0, 0, .date, false, false, true⟩]⟩

def stockFile : File :=
  ⟨stock,
    [[("Code", .str "a"), ("Count", .int 1), ("Note", .str "new"), ("Since", .null)],
      [("Code", .str "b"), ("Count", .int 2), ("Note", .str "old"), ("Since", .null)]]⟩

def storeroom : Premises :=
  ⟨[⟨"store", .files ⟨[stockFile], Operator.all, true, 0⟩⟩], [Cache.empty .nan]⟩

/-- A visit to the storeroom by the gateway of its one backend. -/
def storeVisit (now : Reading) (method body : String) : Visit :=
  ⟨⟨["api"], .camel, 0, 0⟩, now, ⟨method, "/api/stock", "", .text body⟩⟩

/-- A visit that replaces a record, with a count that is none and a day that may not be set. -/
def recount : Visit :=
  storeVisit (.whole 2) "PUT"
    "\x7b\"Code\": \"b\", \"Count\": \"many\", \"Since\": \"2025-01-01\"\x7d"

theorem revised_by_body_recount :
    (∀ c ∈ storeroom.caches, c.entries = []) ∧
      (∀ b, Site.tables? storeroom.site b = none) ∧
      Method.ofName? recount.request.method = some .put ∧
      Route.ofPath? recount.gateway.root recount.request.path = some (.records "stock") ∧
      ∃ body response, recount.request.body.decode = .ok body ∧
        (recount.run (storeroom.after [storeVisit (.whole 1) "GET" ""])).2.result =
          .ok (some response) ∧ response.status = 200 ∧
        ∃ f g before old new after,
          Site.file? (storeroom.after [storeVisit (.whole 1) "GET" ""]).site 0 0 = some f ∧
          Site.file? (recount.run (storeroom.after [storeVisit (.whole 1) "GET" ""])).1.site 0 0 =
            some g ∧
          f.records = before ++ old :: after ∧ g.records = before ++ new :: after ∧
          stock.Names body old ∧ stock.Revised true body old new := by
  have hcaches : ∀ c ∈ storeroom.caches, c.entries = [] := List.forall_mem_singleton.mpr rfl
  have hfiles : ∀ b, Site.tables? storeroom.site b = none := fun b => by cases b <;> rfl
  have hmethod : Method.ofName? recount.request.method = some .put := by decide
  have hroute : Route.ofPath? recount.gateway.root recount.request.path =
      some (.records "stock") := by decide
  have hdecode : recount.request.body.decode.toOption.isSome = true := by decide +kernel
  have hanswer : ((recount.run (storeroom.after [storeVisit (.whole 1) "GET" ""])).2.result.toOption.map
      fun answer => answer.map Response.status) = some (some 200) := by decide +kernel
  refine ⟨hcaches, hfiles, hmethod, hroute, ?_⟩
  cases hbody : recount.request.body.decode with
  | error fault =>
      rw [hbody] at hdecode
      cases hdecode
  | ok body =>
      cases hresult : (recount.run (storeroom.after [storeVisit (.whole 1) "GET" ""])).2.result with
      | error fault =>
          rw [hresult] at hanswer
          cases hanswer
      | ok answer =>
          rw [hresult] at hanswer
          obtain ⟨response, rfl, hstatus⟩ :=
            Option.map_eq_some_iff.mp (Option.some_inj.mp hanswer)
          refine ⟨body, response, rfl, rfl, hstatus, ?_⟩
          obtain ⟨b, place, start, f, g, hstart, hf, hg, hrevised⟩ :=
            revised_by_body hcaches hfiles [storeVisit (.whole 1) "GET" ""] recount hmethod (.inl rfl)
              hroute hbody hresult hstatus
          -- there is one file only
          obtain ⟨rfl, rfl, rfl⟩ : b = 0 ∧ place = 0 ∧ start = stockFile := by
            match b, place with
            | 0, 0 => exact ⟨rfl, rfl, (Option.some_inj.mp hstart).symm⟩
            | 0, _ + 1 => cases hstart
            | _ + 1, _ => cases hstart
          obtain ⟨-, -, -, before, old, new, after, hold, hnew, hnamed, -, hnow⟩ :=
            hrevised (by decide) ⟨stockFile.records, rfl⟩
          exact ⟨f, g, before, old, new, after, hf, (hg 0 0).trans (if_pos ⟨rfl, rfl⟩), hold, hnew,
            hnamed, hnow⟩

end Rowgate
