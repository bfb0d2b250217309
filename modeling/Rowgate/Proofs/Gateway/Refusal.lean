import Rowgate.Proofs.Gateway.Serving
import Rowgate.Proofs.Store.Refinement
import Rowgate.Proofs.Store.Unchanged

/-!
# A request that is refused changes no file

A request can be refused in many places: by its route, its method, its body, the fields in the body,
the key, the file. The argument is about outcomes, and goes by `Work.KeepsIf`: a piece of work leaves
the files alone whenever its outcome is a refusal. The files themselves are shown by `Site.contents`,
which forgets how often they were listed.

What the operations of a file do when they are refused is settled before (`FileService.insert_keepsIf`
and its like); here it is carried through a request.
-/

namespace Rowgate

/-! ## What is in the files -/

namespace Site

/-- The files of every backend that has files. -/
def contents (s : Site) : List (Option (List File)) :=
  s.map fun b => b.storage.files?.map FileSet.files

theorem contents_setStorage {s : Site} {backend : Nat} {storage : Storage}
    (h : storage.files?.map FileSet.files = (files? s backend).map FileSet.files) :
    contents (setStorage s backend storage) = contents s := by
  refine List.ext_getElem? fun i => ?_
  rw [contents, contents, setStorage, List.getElem?_map, List.getElem?_map, List.getElem?_modify]
  split
  · next hi =>
      subst hi
      rw [files?] at h
      cases hb : s[backend]? with
      | none => rfl
      | some b =>
          rw [hb] at h
          exact congrArg some h
  · rw [id_map']

theorem files?_eq_none_of_tables? {s : Site} {backend : Nat} {source : SchemaSource}
    (h : tables? s backend = some source) : files? s backend = none := by
  rw [tables?] at h
  rw [files?]
  cases hb : s[backend]? with
  | none => rfl
  | some b =>
      obtain ⟨name, storage⟩ := b
      rw [hb] at h
      cases storage with
      | files set => cases h
      | tables source => rfl
      | unavailable message => rfl

end Site

/-! ## Backends -/

theorem onSession_keeps {α : Type} (backend : Nat) (work : SchemaSource → Sql.Dialogue α) :
    (onSession backend work).Keeps Site.contents := by
  intro s
  simp only [onSession]
  cases h : Site.tables? s backend with
  | none => rfl
  | some source =>
      refine Site.contents_setStorage ?_
      rw [Site.files?_eq_none_of_tables? h]
      rfl

/-- Work on a file puts a file in its place, and changes nothing else that is seen of a site. -/
theorem onFile_keeps {α ω : Type} {view : Site → ω} {backend : Nat}
    (h : ∀ s set files, Site.files? s backend = some set →
      view (Site.setStorage s backend (.files { set with files })) = view s)
    (place : Nat) (work : FileService → Work File α) : (onFile backend place work).Keeps view := by
  intro s
  rw [onFile]
  dsimp only
  cases hset : Site.files? s backend with
  | none => rfl
  | some set =>
      cases Site.file? s backend place with
      | none => rfl
      | some f => exact h s set _ hset

/-- Work on a file that leaves it as it is where it is refused leaves all files as they are. -/
theorem onFile_keepsIf {α : Type} {refused : Except Fault α → Prop} {backend place : Nat}
    {work : FileService → Work File α} (h : ∀ service, (work service).KeepsIf id refused) :
    (onFile backend place work).KeepsIf Site.contents refused := by
  intro s hs
  simp only [onFile] at hs ⊢
  cases hset : Site.files? s backend with
  | none => rfl
  | some set =>
      cases hf : Site.file? s backend place with
      | none => rfl
      | some f =>
          simp only [hset, hf] at hs ⊢
          have hsame : ((work (set.service f.entity)).run f).1 = f := h _ f hs
          have hplace : set.files[place]? = some f := by
            rw [Site.file?, hset] at hf
            exact hf
          obtain ⟨hlt, hget⟩ := List.getElem?_eq_some_iff.mp hplace
          refine Site.contents_setStorage ?_
          rw [hset, hsame, ← hget]
          exact congrArg some (List.set_getElem_self hlt)

theorem discover_keeps (backend : Nat) : (discover backend).Keeps Site.contents := by
  intro s
  rw [discover, Work.run_state_bind]
  cases hb : s[backend]? with
  | none => rfl
  | some b =>
      obtain ⟨name, storage⟩ := b
      cases storage with
      | unavailable message => rfl
      | tables source =>
          exact (onSession_keeps backend _).bind (fun _ => Work.keeps_pure _) s
      | files set =>
          refine Site.contents_setStorage ?_
          rw [Site.files?, hb]
          rfl

/-! ## Operations of a resource -/

namespace Resource

variable (resource : Resource)

theorem fetch_keeps (q : Query) : (resource.fetch q).Keeps Site.contents := by
  cases resource with
  | table backend service => exact onSession_keeps backend fun _ => service.fetch q
  | file backend place e =>
      rw [Resource.fetch]
      refine Work.KeepsIf.keeps (onFile_keepsIf fun service => ?_)
      exact Work.keeps_state.bind_keepsIf fun f => (Work.keeps_ofTraced _).keepsIf

/-- An insertion changes a file only if it returns a key. -/
theorem insert_keepsIf (r : Record) :
    (resource.insert r).KeepsIf Site.contents fun outcome => ∀ key, outcome ≠ .ok key := by
  cases resource with
  | table backend service => exact (onSession_keeps backend fun _ => service.insert r).keepsIf
  | file backend place e =>
      rw [Resource.insert]
      exact onFile_keepsIf fun service => service.insert_keepsIf r

/-- An update changes a file only if it has no findings. -/
theorem update_keepsIf (r : Record) :
    (resource.update r).KeepsIf Site.contents fun outcome => outcome ≠ .ok [] := by
  cases resource with
  | table backend service => exact (onSession_keeps backend fun _ => service.update r).keepsIf
  | file backend place e =>
      rw [Resource.update]
      exact onFile_keepsIf fun service => service.update_keepsIf r

/-- A deletion changes a file only if it has no findings. -/
theorem delete_keepsIf (r : Record) :
    (resource.delete r).KeepsIf Site.contents fun outcome => outcome ≠ .ok [] := by
  cases resource with
  | table backend service => exact (onSession_keeps backend fun _ => service.delete r).keepsIf
  | file backend place e =>
      rw [Resource.delete]
      exact onFile_keepsIf fun service => service.delete_keepsIf r

end Resource

/-! ## Requests -/

section Requests

variable {α : Type}

/-- The files of every backend. -/
def Premises.contents (p : Premises) : List (Option (List File)) := Site.contents p.site

theorem onSite_keepsIf {refused : Except Fault α → Prop} {work : Work Site α}
    (h : work.KeepsIf Site.contents refused) :
    (Premises.onSite work).KeepsIf Premises.contents refused :=
  h.onPart (fun _ => rfl) fun _ _ => rfl

theorem onSite_keeps {work : Work Site α} (h : work.Keeps Site.contents) :
    (Premises.onSite work).Keeps Premises.contents :=
  (onSite_keepsIf h.keepsIf).keeps

theorem store_keeps (cache : Nat) (key : String) (found : List Resource) :
    (Premises.store cache key found).Keeps Premises.contents := by
  refine Work.keeps_state.bind fun p => ?_
  cases p.caches[cache]? with
  | none => exact Work.keeps_pure _
  | some c => exact (Work.keeps_ofResult _).bind fun c _ => rfl

namespace Gateway

variable (g : Gateway)

theorem refresh_keeps (key : String) : (g.refresh key).Keeps Premises.contents :=
  (onSite_keeps (discover_keeps g.backend)).bind fun _ =>
    (store_keeps _ _ _).bind fun _ => (Work.keeps_ofTraced _).bind fun _ => Work.keeps_pure _

theorem resources_keeps : g.resources.Keeps Premises.contents := by
  refine Work.keeps_state.bind fun p => ?_
  dsimp only
  split
  · exact (store_keeps _ _ _).bind fun _ => (Work.keeps_ofTraced _).bind fun _ => Work.keeps_pure _
  · exact g.refresh_keeps _

theorem find_keeps (name : String) : (g.find name).Keeps Premises.contents :=
  g.resources_keeps.bind fun _ => (Work.keeps_ofTraced _).bind fun _ => Work.keeps_pure _

theorem respond_keeps {ω : Type} {view : Premises → ω} (status : Nat) (v : Value) :
    (respond status v).Keeps view :=
  Work.keeps_ofResult _

theorem fieldsOf_keeps {ω : Type} {view : Premises → ω} (method : Method) (resource : Resource)
    (body : Body) : (fieldsOf method resource body).Keeps view := by
  refine (Work.keeps_ofResult _).bind fun object => (Work.keeps_ofTraced _).bind fun fields => ?_
  split
  · exact Work.keeps_fail _
  · exact Work.keeps_pure _

/-- Whether the outcome of serving a request is answered as a refusal. -/
def Refused : Except Fault Response → Prop
  | .ok response => response.status ≠ 200
  | .error fault => fault.status?.isSome

/-- A value is sent with the status 200, or the fault is not the client's own. -/
theorem not_refused_respond (v : Value) (p : Premises) :
    ¬ Refused ((respond 200 v).run p).2.result := by
  show ¬ Refused (Response.ofValue 200 v)
  rw [Response.ofValue]
  cases Json.write v with
  | ok text => exact fun h => h rfl
  | error fault => cases fault <;> exact Bool.false_ne_true

theorem respondFindings_keeps {ω : Type} {view : Premises → ω} (findings : List Finding) :
    (respondFindings findings).Keeps view := by
  rw [respondFindings]
  split
  · exact Work.keeps_pure _
  · exact respond_keeps _ _

theorem ne_nil_of_refused {findings : List Finding} {p : Premises}
    (h : Refused ((respondFindings findings).run p).2.result) : findings ≠ [] := by
  rintro rfl
  exact h rfl

theorem serve_get_keeps (resource : Resource) (r : Request) :
    (serve .get resource r).Keeps Premises.contents :=
  (Work.keeps_ofResult _).bind fun _ =>
    (onSite_keeps (resource.fetch_keeps _)).bind fun _ => respond_keeps _ _

/-- Changes and removals answer their findings in the same way. -/
theorem findings_keepsIf {work : Work Site (List Finding)}
    (h : work.KeepsIf Site.contents fun outcome => outcome ≠ .ok []) :
    (Premises.onSite work >>= respondFindings).KeepsIf Premises.contents Refused :=
  (onSite_keepsIf h).bind_keeps respondFindings_keeps (fun _ _ => nofun) fun _ _ hrefused heq =>
    ne_nil_of_refused hrefused (Except.ok.inj heq)

theorem serve_keepsIf (method : Method) (resource : Resource) (r : Request) :
    (serve method resource r).KeepsIf Premises.contents Refused := by
  cases method with
  | get => exact (serve_get_keeps resource r).keepsIf
  | post =>
      refine (fieldsOf_keeps _ _ _).bind_keepsIf fun fields => ?_
      refine (onSite_keepsIf (resource.insert_keepsIf fields)).bind_keeps
        (fun _ => respond_keeps _ _) (fun _ _ _ => nofun) fun key p h => ?_
      exact absurd h (not_refused_respond _ p)
  | delete =>
      exact (fieldsOf_keeps _ _ _).bind_keepsIf fun fields =>
        findings_keepsIf (resource.delete_keepsIf fields)
  | put =>
      exact (fieldsOf_keeps _ _ _).bind_keepsIf fun fields =>
        findings_keepsIf (resource.update_keepsIf fields)
  | patch =>
      exact (fieldsOf_keeps _ _ _).bind_keepsIf fun fields =>
        findings_keepsIf (resource.update_keepsIf fields)

/-- Whether a request got no response, or one that says that something went wrong. -/
def Declined : Except Fault (Option Response) → Prop
  | .ok answer => ∀ response, answer = some response → response.status ≠ 200
  | .error _ => False

theorem answered_keeps (outcome : Except Fault Response) :
    (answered outcome).Keeps Premises.contents := by
  cases outcome with
  | ok response => exact Work.keeps_pure _
  | error fault =>
      rw [answered]
      cases fault.status? with
      | none => exact Work.keeps_fail _
      | some status => exact respond_keeps _ _

/-- Only refusals are answered with a status other than 200. -/
theorem refused_of_answered {outcome : Except Fault Response} {p : Premises} {response : Response}
    (h : ((answered outcome).run p).2.result = .ok response) (hstatus : response.status ≠ 200) :
    Refused outcome := by
  cases outcome with
  | ok response' =>
      cases h
      exact hstatus
  | error fault =>
      rw [Refused]
      rw [answered] at h
      cases hs : fault.status? with
      | some status => rfl
      | none =>
          rw [hs] at h
          cases h

theorem answering_keeps {work : Work Premises Response} (h : work.Keeps Premises.contents) :
    (answering work).Keeps Premises.contents := by
  rw [answering_eq]
  exact h.attempt.bind answered_keeps

theorem answering_keepsIf {work : Work Premises Response}
    (h : work.KeepsIf Premises.contents Refused) :
    (answering work).KeepsIf Premises.contents
      fun outcome => ∃ response, outcome = .ok response ∧ response.status ≠ 200 := by
  rw [answering_eq]
  refine h.attempt.bind_keeps answered_keeps (fun _ _ => nofun) ?_
  rintro outcome p ⟨response, hresponse, hstatus⟩ _ ⟨⟩
  exact refused_of_answered hresponse hstatus

theorem offer_keepsIf (resource : Resource) (r : Request) :
    (offer resource r).KeepsIf Premises.contents Declined := by
  rw [offer]
  cases hm : Method.ofName? r.method with
  | none => exact (Work.keeps_pure _).keepsIf
  | some method =>
      dsimp only
      split
      · exact ((Work.keeps_ofTraced _).bind fun _ => Work.keeps_pure _).keepsIf
      · refine (answering_keepsIf (serve_keepsIf method resource r)).bind_keeps
          (fun _ => Work.keeps_pure _) (fun _ h => by cases h) fun response p h => ?_
        exact ⟨response, rfl, h response rfl⟩

theorem offer_get_keeps (resource : Resource) {r : Request}
    (h : Method.ofName? r.method = some .get) :
    (offer resource r).Keeps Premises.contents := by
  rw [offer, h]
  exact (answering_keeps (serve_get_keeps resource r)).bind fun _ => Work.keeps_pure _

/-! ## The whole way -/

theorem not_records_of_asksMetadata {root : List String} {path name : String}
    (h : asksMetadata path = true) : Route.ofPath? root path ≠ some (.records name) := by
  intro hroute
  rw [Route.ofPath?] at hroute
  split at hroute
  case isFalse => cases hroute
  rw [asksMetadata, beq_iff_eq] at h
  have hrest : (segments path).drop root.length ≠ [] := by
    intro hnil
    rw [hnil] at hroute
    cases hroute
  have hlast : ((segments path).drop root.length).getLast? = some metadataSegment := by
    rw [List.getLast?_drop, if_neg (fun hle => hrest (List.drop_eq_nil_of_le hle)), h]
  generalize (segments path).drop root.length = rest at hroute hlast
  match rest with
  | [] => cases hroute
  | [s] =>
      rw [List.getLast?_singleton, Option.some_inj] at hlast
      rw [Route.ofRest?, if_pos hlast] at hroute
      cases hroute
  | [s, t] =>
      rw [Route.ofRest?] at hroute
      split at hroute <;> cases hroute
  | _ :: _ :: _ :: _ => cases hroute

/-- What a gateway does to the files, when it is known what serving records does to them. -/
theorem handle_keepsIf_of_offer {refused : Except Fault (Option Response) → Prop} {r : Request}
    (h : ∀ name, Route.ofPath? g.root r.path = some (.records name) →
      ∀ resource, (offer resource r).KeepsIf Premises.contents refused) :
    (g.handle r).KeepsIf Premises.contents refused := by
  rw [handle]
  cases hroute : Route.ofPath? g.root r.path with
  | none => exact (Work.keeps_pure _).keepsIf
  | some route =>
      cases route with
      | entities =>
          exact (g.resources_keeps.bind fun _ =>
            (respond_keeps _ _).bind fun _ => Work.keeps_pure _).keepsIf
      | metadata name =>
          refine ((g.find_keeps name).bind fun found => ?_).keepsIf
          cases found with
          | none => exact Work.keeps_pure _
          | some resource => exact (respond_keeps _ _).bind fun _ => Work.keeps_pure _
      | records name =>
          refine (g.find_keeps name).bind_keepsIf fun found => ?_
          cases found with
          | none => exact (Work.keeps_pure _).keepsIf
          | some resource => exact h name hroute resource

/-- A request that gets no response, or one with a status other than 200, leaves every file as it
was, and so does every request that only reads, whatever comes of it. -/
theorem refused_keeps_files (g : Gateway) (p : Premises) (r : Request)
    (h : Declined ((g.handle r).run p).2.result ∨ Method.ofName? r.method = some .get ∨
      asksMetadata r.path = true) :
    ((g.handle r).run p).1.contents = p.contents := by
  rcases h with hdeclined | hget | hmetadata
  · exact g.handle_keepsIf_of_offer (fun _ _ resource => offer_keepsIf resource r) p hdeclined
  · exact (g.handle_keepsIf_of_offer fun _ _ resource =>
      (offer_get_keeps resource hget).keepsIf).keeps p
  · exact (g.handle_keepsIf_of_offer fun _ hroute =>
      absurd hroute (not_records_of_asksMetadata hmetadata)).keeps p

/-! ## An example -/

/-- A site that has a file of goods. -/
def shop : Premises := ⟨[⟨"shop", .files ⟨[oilFile], Operator.all, true, 0⟩⟩], [Cache.empty .nan]⟩

def counter : Gateway := ⟨["api"], .camel, 0, 0⟩

/-- A request to insert what is there already. -/
def oilAgain : Request := ⟨"post", "/API/goods", "", .text "\x7b\"Name\": \"oil\", \"Price\": 2\x7d"⟩

theorem refused_keeps_files_oilAgain :
    (((counter.handle oilAgain).run shop).2.result.toOption.map fun answer =>
        answer.map Response.status) = some (some 409) ∧
      ((counter.handle oilAgain).run shop).1.contents = shop.contents := by
  have hstatus : (((counter.handle oilAgain).run shop).2.result.toOption.map fun answer =>
      answer.map Response.status) = some (some 409) := by decide +kernel
  refine ⟨hstatus, refused_keeps_files counter shop oilAgain (.inl ?_)⟩
  generalize ((counter.handle oilAgain).run shop).2.result = outcome at hstatus
  rcases outcome with fault | answer
  · cases hstatus
  · rintro response rfl
    rw [Option.some_inj.mp (Option.some_inj.mp hstatus)]
    decide

end Gateway

end Requests

end Rowgate
