import Rowgate.Gateway.Chain
import Rowgate.Proofs.Gateway.Informed
import Rowgate.Proofs.Gateway.Sharing

/-!
# Gateways that are asked in turn

A chain stops at the first gateway that does not leave the request to others. `Declines` says what it
means to get as far as some gateway: all before it were asked, one after the other, and none had an
answer. What the chain answers is then what this gateway answers, or its failure, and the gateways after
it might as well be others (`run_append_of_stopped`).

Being asked in vain does nothing to the files. So a request changes files of one backend at most, and
this is the backend of the gateway where the chain stopped, as far as the gateway knows its own backend:
a cache that it shares with a gateway to another backend of the same name may know that one instead
(`Gateway.Alone`). What caches know is the invariant for this (`Premises.KnowsOf`).
-/

namespace Rowgate

/-! ## The chain -/

/-- Whether some gateways, asked in turn, all leave a request to others, which takes the premises from
one state to another. -/
inductive Declines (r : Request) : List Gateway → Premises → Premises → Prop
  | nil (p : Premises) : Declines r [] p p
  | cons {g : Gateway} {gs : List Gateway} {p q : Premises}
    (h : ((g.handle r).run p).2.result = .ok none)
    (hrest : Declines r gs ((g.handle r).run p).1 q) : Declines r (g :: gs) p q

/-- Whether a request gets as far as a gateway of a chain: those before it decline. -/
structure Reaches (r : Request) (gs : List Gateway) (p : Premises) (before : List Gateway)
    (g : Gateway) (q : Premises) : Prop where
  split : ∃ after, gs = before ++ g :: after
  declines : Declines r before p q

section Chains

variable {r : Request} {g : Gateway} {gs before rest rest' : List Gateway} {p q : Premises}

theorem result_handleLoudly :
    ((g.handleLoudly r).run p).2.result = ((g.handle r).run p).2.result := by
  rw [Gateway.handleLoudly, Work.result_run_bind, Work.result_run_attempt, Except.bind]
  cases ((g.handle r).run p).2.result with
  | ok answer => rfl
  | error f => rfl

theorem state_handleLoudly : ((g.handleLoudly r).run p).1 = ((g.handle r).run p).1 := by
  rw [Gateway.handleLoudly, Work.run_bind, Work.result_run_attempt]
  dsimp only
  cases ((g.handle r).run p).2.result with
  | ok answer => rfl
  | error f => rfl

theorem run_cons_of_declined (h : ((g.handle r).run p).2.result = .ok none) (gs : List Gateway) :
    ((offerInTurn r (g :: gs)).run p).1 = ((offerInTurn r gs).run ((g.handle r).run p).1).1 ∧
      ((offerInTurn r (g :: gs)).run p).2.result =
        ((offerInTurn r gs).run ((g.handle r).run p).1).2.result := by
  rw [offerInTurn, Work.run_bind, result_handleLoudly, state_handleLoudly, h]
  exact ⟨rfl, rfl⟩

theorem run_cons_of_answered {response : Response}
    (h : ((g.handle r).run p).2.result = .ok (some response)) (gs : List Gateway) :
    ((offerInTurn r (g :: gs)).run p).1 = ((g.handle r).run p).1 ∧
      ((offerInTurn r (g :: gs)).run p).2.result = .ok (.response response) := by
  rw [offerInTurn, Work.run_bind, result_handleLoudly, state_handleLoudly, h]
  exact ⟨rfl, rfl⟩

theorem run_cons_of_failed {fault : Fault} (h : ((g.handle r).run p).2.result = .error fault)
    (gs : List Gateway) :
    ((offerInTurn r (g :: gs)).run p).1 = ((g.handle r).run p).1 ∧
      ((offerInTurn r (g :: gs)).run p).2.result = .error fault := by
  rw [offerInTurn, Work.run_bind, result_handleLoudly, state_handleLoudly, h]
  exact ⟨rfl, rfl⟩

/-- No gateway after one that does not decline is asked. -/
theorem run_cons_of_stopped (h : ((g.handle r).run p).2.result ≠ .ok none) :
    (offerInTurn r (g :: rest)).run p = (offerInTurn r (g :: rest')).run p := by
  rw [offerInTurn, offerInTurn, Work.run_bind, Work.run_bind, result_handleLoudly]
  cases hresult : ((g.handle r).run p).2.result with
  | error f => rfl
  | ok answer =>
      cases answer with
      | some response => rfl
      | none => exact absurd hresult h

theorem Declines.run_append (h : Declines r before p q) (gs : List Gateway) :
    ((offerInTurn r (before ++ gs)).run p).1 = ((offerInTurn r gs).run q).1 ∧
      ((offerInTurn r (before ++ gs)).run p).2.result = ((offerInTurn r gs).run q).2.result := by
  induction h with
  | nil p => exact ⟨rfl, rfl⟩
  | cons h hrest ih =>
      obtain ⟨hstate, hresult⟩ := run_cons_of_declined h (_ ++ gs)
      exact ⟨hstate.trans ih.1, hresult.trans ih.2⟩

theorem Declines.run_congr (h : Declines r before p q)
    (hrest : (offerInTurn r rest).run q = (offerInTurn r rest').run q) :
    (offerInTurn r (before ++ rest)).run p = (offerInTurn r (before ++ rest')).run p := by
  induction h with
  | nil p => exact hrest
  | cons h hdeclines ih =>
      rw [List.cons_append, List.cons_append, offerInTurn, offerInTurn, Work.run_bind, Work.run_bind,
        result_handleLoudly, state_handleLoudly, h]
      dsimp only
      rw [ih hrest]

/-- A chain gets past all of its gateways, or as far as one that does not decline. -/
theorem declines_or_reaches (r : Request) (gs : List Gateway) (p : Premises) :
    (∃ q, Declines r gs p q) ∨
      ∃ before g q, Reaches r gs p before g q ∧ ((g.handle r).run q).2.result ≠ .ok none := by
  induction gs generalizing p with
  | nil => exact .inl ⟨p, .nil p⟩
  | cons g gs ih =>
      by_cases h : ((g.handle r).run p).2.result = .ok none
      · rcases ih ((g.handle r).run p).1 with ⟨q, hq⟩ | ⟨before, g', q, ⟨⟨after, rfl⟩, hq⟩, hstop⟩
        · exact .inl ⟨q, .cons h hq⟩
        · exact .inr ⟨g :: before, g', q, ⟨⟨after, rfl⟩, .cons h hq⟩, hstop⟩
      · exact .inr ⟨[], g, p, ⟨⟨gs, rfl⟩, .nil p⟩, h⟩

/-! ## Where a chain ends -/

theorem Declines.run (h : Declines r gs p q) :
    ((offerInTurn r gs).run p).1 = q ∧ ((offerInTurn r gs).run p).2.result = .ok .passed := by
  have happend := h.run_append []
  rwa [List.append_nil] at happend

theorem Reaches.run_of_answered (h : Reaches r gs p before g q) {response : Response}
    (hanswer : ((g.handle r).run q).2.result = .ok (some response)) :
    ((offerInTurn r gs).run p).1 = ((g.handle r).run q).1 ∧
      ((offerInTurn r gs).run p).2.result = .ok (.response response) := by
  obtain ⟨⟨after, rfl⟩, hdeclines⟩ := h
  obtain ⟨hstate, hresult⟩ := hdeclines.run_append (g :: after)
  rw [hstate, hresult]
  exact run_cons_of_answered hanswer after

theorem Reaches.run_of_failed (h : Reaches r gs p before g q) {fault : Fault}
    (hfault : ((g.handle r).run q).2.result = .error fault) :
    ((offerInTurn r gs).run p).1 = ((g.handle r).run q).1 ∧
      ((offerInTurn r gs).run p).2.result = .error fault := by
  obtain ⟨⟨after, rfl⟩, hdeclines⟩ := h
  obtain ⟨hstate, hresult⟩ := hdeclines.run_append (g :: after)
  rw [hstate, hresult]
  exact run_cons_of_failed hfault after

/-- How the run of a chain ends: all gateways have declined, or the last one that was asked has
answered or failed. -/
theorem declines_or_stops (r : Request) (gs : List Gateway) (p : Premises) :
    (∃ q, Declines r gs p q) ∨ ∃ before g q, Reaches r gs p before g q ∧
      ((∃ response, ((g.handle r).run q).2.result = .ok (some response)) ∨
        ∃ fault, ((g.handle r).run q).2.result = .error fault) := by
  rcases declines_or_reaches r gs p with h | ⟨before, g, q, h, hstop⟩
  · exact .inl h
  · refine .inr ⟨before, g, q, h, ?_⟩
    cases hresult : ((g.handle r).run q).2.result with
    | error fault => exact .inr ⟨fault, rfl⟩
    | ok answer =>
        cases answer with
        | none => exact absurd hresult hstop
        | some response => exact .inl ⟨response, rfl⟩

theorem passed_iff (r : Request) (gs : List Gateway) (p : Premises) :
    ((offerInTurn r gs).run p).2.result = .ok .passed ↔
      Declines r gs p ((offerInTurn r gs).run p).1 := by
  refine ⟨fun hpassed => ?_, fun h => h.run.2⟩
  rcases declines_or_stops r gs p with ⟨q, h⟩ | ⟨before, g, q, h, ⟨response, hanswer⟩ | ⟨fault, hfault⟩⟩
  · rw [h.run.1]
    exact h
  · cases hpassed.symm.trans (h.run_of_answered hanswer).2
  · cases hpassed.symm.trans (h.run_of_failed hfault).2

theorem answered_iff (r : Request) (gs : List Gateway) (p : Premises) (response : Response) :
    ((offerInTurn r gs).run p).2.result = .ok (.response response) ↔
      ∃ before g q, Reaches r gs p before g q ∧
        ((g.handle r).run q).2.result = .ok (some response) := by
  refine ⟨fun hresult => ?_, fun ⟨before, g, q, h, hanswer⟩ => (h.run_of_answered hanswer).2⟩
  rcases declines_or_stops r gs p with ⟨q, h⟩ | ⟨before, g, q, h, ⟨response', hanswer⟩ | ⟨fault, hfault⟩⟩
  · cases hresult.symm.trans h.run.2
  · cases hresult.symm.trans (h.run_of_answered hanswer).2
    exact ⟨before, g, q, h, hanswer⟩
  · cases hresult.symm.trans (h.run_of_failed hfault).2

theorem failed_iff (r : Request) (gs : List Gateway) (p : Premises) (fault : Fault) :
    ((offerInTurn r gs).run p).2.result = .error fault ↔
      ∃ before g q, Reaches r gs p before g q ∧ ((g.handle r).run q).2.result = .error fault := by
  refine ⟨fun hresult => ?_, fun ⟨before, g, q, h, hfault⟩ => (h.run_of_failed hfault).2⟩
  rcases declines_or_stops r gs p with ⟨q, h⟩ | ⟨before, g, q, h, ⟨response, hanswer⟩ | ⟨fault', hfault⟩⟩
  · cases hresult.symm.trans h.run.2
  · cases hresult.symm.trans (h.run_of_answered hanswer).2
  · cases hresult.symm.trans (h.run_of_failed hfault).2
    exact ⟨before, g, q, h, hfault⟩

/-- Where a chain stops, no gateway after that one matters. -/
theorem Reaches.run_append_of_stopped (h : Reaches r gs p before g q)
    (hstop : ((g.handle r).run q).2.result ≠ .ok none) (others : List Gateway) :
    (offerInTurn r (before ++ g :: others)).run p = (offerInTurn r gs).run p := by
  obtain ⟨⟨after, rfl⟩, hdeclines⟩ := h
  exact hdeclines.run_congr (run_cons_of_stopped hstop)

end Chains

/-! ## The files of other backends -/

namespace Site

/-- The files of a site apart from those of one backend. -/
def besides (backend : Nat) (s : Site) : List (Option (List File)) := (contents s).set backend none

/-- What working on one backend leaves as it is: the names, and the files of the others. -/
def frame (backend : Nat) (s : Site) : List String × List (Option (List File)) :=
  (s.names, s.besides backend)

theorem frame_setStorage (s : Site) (backend : Nat) (storage : Storage) :
    frame backend (setStorage s backend storage) = frame backend s := by
  have hbesides : besides backend (setStorage s backend storage) = besides backend s := by
    refine List.ext_getElem? fun i => ?_
    rw [besides, besides, contents, contents, setStorage, List.getElem?_set, List.getElem?_set,
      List.getElem?_map, List.getElem?_map, List.length_map, List.length_map, List.length_modify]
    by_cases hi : backend = i
    · rw [if_pos hi, if_pos hi]
    · rw [if_neg hi, if_neg hi, List.getElem?_modify_ne _ _ hi]
  rw [frame, frame, names_setStorage, hbesides]

end Site

/-- The backend that has the records of a resource. -/
def Resource.backend : Resource → Nat
  | .file b _ _ => b
  | .table b _ => b

section Frames

variable {α : Type} {backend : Nat} {r : Request}

theorem onFile_keeps_frame (place : Nat) (work : FileService → Work File α) :
    (onFile backend place work).Keeps (Site.frame backend) :=
  onFile_keeps (fun s _ _ _ => Site.frame_setStorage s backend _) place work

theorem onSession_keeps_frame (work : SchemaSource → Sql.Dialogue α) :
    (onSession backend work).Keeps (Site.frame backend) := by
  intro s
  rw [onSession]
  dsimp only
  split
  · rfl
  · exact Site.frame_setStorage s backend _

theorem discover_backend {s : Site} {found : List Resource}
    (h : ((discover backend).run s).2.result = .ok found) :
    ∀ resource ∈ found, resource.backend = backend := by
  rw [discover, Work.run_state_bind] at h
  cases hb : s[backend]? with
  | none =>
      rw [hb] at h
      cases h
  | some b =>
      obtain ⟨name, storage⟩ := b
      rw [hb] at h
      cases storage with
      | unavailable message => cases h
      | files set =>
          obtain rfl : set.resources backend = found := Except.ok.inj h
          intro resource hresource
          obtain ⟨place, hplace, rfl⟩ := List.mem_mapIdx.mp hresource
          rfl
      | tables source =>
          obtain ⟨services, -, h, -⟩ := Work.exists_of_run_bind h
          obtain rfl : services.map (Resource.table backend) = found := Except.ok.inj h
          intro resource hresource
          obtain ⟨t, -, rfl⟩ := List.mem_map.mp hresource
          rfl

end Frames

/-! ## What the caches know of the backends -/

/-- Whether no gateway to another backend uses the cache of a gateway under the same name. -/
def Gateway.Alone (g : Gateway) (all : List Gateway) (p : Premises) : Prop :=
  ∀ h ∈ all, h.cache = g.cache → h.key p = g.key p → h.backend = g.backend

/-- Whether the backends have the names that they have in some premises, and whatever a cache knows
under one of them is in the backend of a gateway that uses this cache under this name. -/
abbrev Premises.KnowsOf (all : List Gateway) (p : Premises) : Premises → Prop :=
  Premises.Informed (fun s => s.names = p.site.names) fun i key resource =>
    ∃ g ∈ all, g.cache = i ∧ g.key p = key ∧ resource.backend = g.backend

theorem Gateway.key_eq_of_names {p q : Premises} (h : q.site.names = p.site.names) (g : Gateway) :
    g.key q = g.key p := by
  have hname : (q.site[g.backend]?).map Backend.name = (p.site[g.backend]?).map Backend.name := by
    rw [← List.getElem?_map, ← List.getElem?_map]
    exact congrArg (·[g.backend]?) h
  rw [Gateway.key, Gateway.key]
  revert hname
  cases q.site[g.backend]? <;> cases p.site[g.backend]? <;> simp

section Frames

variable {all : List Gateway} {g : Gateway} {p p₀ : Premises} {r : Request}

theorem resources_knowsOf (hg : g ∈ all) :
    g.resources.Yields (Premises.KnowsOf all p₀) False fun found => ∀ resource ∈ found,
      ∃ h ∈ all, h.cache = g.cache ∧ h.key p₀ = g.key p₀ ∧ resource.backend = h.backend := by
  refine resources_informed (fun s hs => ?_) fun p hp resource => ?_
  · exact ⟨(census_discover s g.backend).1.trans hs,
      fun _ h resource hresource => ⟨g, hg, rfl, rfl, discover_backend h resource hresource⟩,
      False.elim⟩
  · rw [g.key_eq_of_names hp]

/-- Working on a resource keeps all that goes by the names and the files of other backends. -/
theorem steady_of_frame {inv : Premises → Prop} (resource : Resource)
    (h : ∀ p s, Site.frame resource.backend s = Site.frame resource.backend p.site → inv p →
      inv { p with site := s }) : resource.Steady inv fun _ => True := by
  have honSite : ∀ {α : Type} {work : Work Site α}, work.Keeps (Site.frame resource.backend) →
      (Premises.onSite work).Yields inv False fun _ => True := by
    intro α work hwork p hp
    exact ⟨h p _ (hwork p.site) hp, fun _ _ => trivial, False.elim⟩
  cases resource with
  | file backend place e =>
      exact {
        fetch := fun q => honSite (by rw [Resource.fetch]; exact onFile_keeps_frame place _)
        insert := fun r _ => honSite (onFile_keeps_frame place fun s => s.insert r)
        update := fun r _ => honSite (onFile_keeps_frame place fun s => s.update r)
        delete := fun r _ => honSite (onFile_keeps_frame place fun s => s.delete r) }
  | table backend t =>
      exact {
        fetch := fun q => honSite (onSession_keeps_frame fun _ => t.fetch q)
        insert := fun r _ => honSite (onSession_keeps_frame fun _ => t.insert r)
        update := fun r _ => honSite (onSession_keeps_frame fun _ => t.update r)
        delete := fun r _ => honSite (onSession_keeps_frame fun _ => t.delete r) }

theorem handle_knowsOf (hg : g ∈ all) (hp : Premises.KnowsOf all p₀ p) (r : Request) :
    Premises.KnowsOf all p₀ ((g.handle r).run p).1 := by
  refine (Gateway.handle_yields_of ((resources_knowsOf hg).weaken ?_) p hp).1
  intro found _ resource _
  refine (steady_of_frame resource fun p s hs hp => ?_).mono fun _ _ => trivial
  exact ⟨(congrArg Prod.fst hs).trans hp.site, hp.caches⟩

theorem offer_keeps_besides (resource : Resource) (r : Request) :
    (Gateway.offer resource r).Keeps fun p => p.site.besides resource.backend := by
  refine Work.keeps_of_yields fun v => Gateway.offer_yields ?_
  refine (steady_of_frame resource fun p s hs hp => ?_).mono fun _ _ => trivial
  exact (congrArg Prod.snd hs).trans hp

/-- A request to a gateway changes files of one backend at most, that of a gateway which uses the same
cache under the same name. -/
theorem handle_elsewhere (hg : g ∈ all) (hp : Premises.KnowsOf all p₀ p) (r : Request) :
    ∃ h ∈ all, h.cache = g.cache ∧ h.key p₀ = g.key p₀ ∧
      ∀ b, b ≠ h.backend → ((g.handle r).run p).1.contents[b]? = p.contents[b]? := by
  -- a request that does not ask for records leaves all files as they are
  by_cases hroute : ∃ name, Route.ofPath? g.root r.path = some (.records name)
  case neg =>
    refine ⟨g, hg, rfl, rfl, fun b _ => ?_⟩
    rw [(g.handle_keepsIf_of_offer fun name hname => absurd ⟨name, hname⟩ hroute).keeps p]
  obtain ⟨name, hname⟩ := hroute
  obtain ⟨-, hfound, -⟩ := Gateway.find_yields_of (resources_knowsOf hg) name p hp
  have hcontents : ((g.find name).run p).1.contents = p.contents := g.find_keeps name p
  rw [Gateway.handle, hname]
  dsimp only
  rw [Work.run_bind]
  cases hresult : ((g.find name).run p).2.result with
  | error fault => exact ⟨g, hg, rfl, rfl, fun b _ => congrArg (·[b]?) hcontents⟩
  | ok found =>
      cases found with
      | none => exact ⟨g, hg, rfl, rfl, fun b _ => congrArg (·[b]?) hcontents⟩
      | some resource =>
          -- the gateway that the cache has the resource from need not be the one that is asked
          obtain ⟨h, hh, hcache, hkey, hbackend⟩ := hfound _ hresult resource rfl
          refine ⟨h, hh, hcache, hkey, fun b hb => ?_⟩
          have hget := congrArg (·[b]?) (offer_keeps_besides resource r ((g.find name).run p).1)
          rw [← hbackend] at hb
          dsimp only at hget ⊢
          rw [Site.besides, Site.besides, List.getElem?_set_ne (Ne.symm hb),
            List.getElem?_set_ne (Ne.symm hb)] at hget
          exact hget.trans (congrArg (·[b]?) hcontents)

variable {gs before : List Gateway} {q : Premises}

/-- Gateways that decline have changed no file. -/
theorem Declines.contents_eq (h : Declines r gs p q) : q.contents = p.contents := by
  induction h with
  | nil p => rfl
  | @cons g gs p q h hrest ih =>
      have hdeclined : Gateway.Declined ((g.handle r).run p).2.result := by
        rw [h]
        exact fun _ h => nomatch h
      exact ih.trans (g.handle_keepsIf_of_offer (fun _ _ resource =>
        Gateway.offer_keepsIf resource r) p hdeclined)

theorem Declines.knowsOf (hbefore : ∀ g ∈ before, g ∈ all) (h : Declines r before p q)
    (hp : Premises.KnowsOf all p₀ p) : Premises.KnowsOf all p₀ q := by
  induction h with
  | nil p => exact hp
  | @cons g before p q h hrest ih =>
      exact ih (fun g hg => hbefore g (List.mem_cons_of_mem _ hg))
        (handle_knowsOf (hbefore g List.mem_cons_self) hp r)

/-- What is known is known under the names of today, too. -/
theorem knowsOf_self (hp : Premises.KnowsOf all p₀ p) : Premises.KnowsOf all p p := by
  refine ⟨rfl, fun i c hc key entry hentry resource hresource => ?_⟩
  obtain ⟨g, hg, hcache, hkey, hbackend⟩ := hp.caches i c hc key entry hentry resource hresource
  exact ⟨g, hg, hcache, (g.key_eq_of_names hp.site).trans hkey, hbackend⟩

/-- Where a chain stops, files of one backend at most are changed. -/
theorem Reaches.elsewhere (h : Reaches r gs p before g q) (hgs : ∀ g ∈ gs, g ∈ all)
    (hp : Premises.KnowsOf all p p) :
    ∃ b, (∀ other, other ≠ b → ((g.handle r).run q).1.contents[other]? = p.contents[other]?) ∧
      (g.Alone all p → b = g.backend) := by
  obtain ⟨⟨after, rfl⟩, hdeclines⟩ := h
  have hq := hdeclines.knowsOf (fun g hg => hgs g (List.mem_append_left _ hg)) hp
  obtain ⟨h, hh, hcache, hkey, helsewhere⟩ := handle_elsewhere (hgs g (by simp)) hq r
  refine ⟨h.backend, fun other hother => ?_, fun halone => halone h hh hcache hkey⟩
  rw [helsewhere other hother, hdeclines.contents_eq]

end Frames

/-! ## A request to a chain -/

/-- Whether a request to a chain changes files of one backend at most, and only if a gateway answers with
the status 200 or fails. It is the backend of this gateway, if it alone uses its cache under its name. -/
def ChangesOne (r : Request) (gs all : List Gateway) (p : Premises) : Prop :=
  ((offerInTurn r gs).run p).1.contents = p.contents ∨
    ∃ before g q, Reaches r gs p before g q ∧
      ((∃ response, ((g.handle r).run q).2.result = .ok (some response) ∧ response.status = 200) ∨
        ∃ fault, ((g.handle r).run q).2.result = .error fault) ∧
      ∃ b, (∀ other, other ≠ b →
        ((offerInTurn r gs).run p).1.contents[other]? = p.contents[other]?) ∧
        (g.Alone all p → b = g.backend)

/-- What becomes of a request to a chain, where some gateways may have been asked before. -/
structure InTurn (r : Request) (gs all : List Gateway) (p : Premises) : Prop where
  /-- The application is asked if and only if all gateways decline. -/
  passed : ((offerInTurn r gs).run p).2.result = .ok .passed ↔
    Declines r gs p ((offerInTurn r gs).run p).1
  /-- An answer is that of the first gateway that has one. -/
  answered : ∀ response, ((offerInTurn r gs).run p).2.result = .ok (.response response) ↔
    ∃ before g q, Reaches r gs p before g q ∧ ((g.handle r).run q).2.result = .ok (some response)
  /-- A failure is that of a gateway before which all decline. -/
  failed : ∀ fault, ((offerInTurn r gs).run p).2.result = .error fault ↔
    ∃ before g q, Reaches r gs p before g q ∧ ((g.handle r).run q).2.result = .error fault
  /-- Whatever gateways come after the one that answers or fails, the run is the same. -/
  stopped : ∀ before g q, Reaches r gs p before g q → ((g.handle r).run q).2.result ≠ .ok none →
    ∀ others, (offerInTurn r (before ++ g :: others)).run p = (offerInTurn r gs).run p
  contents : ChangesOne r gs all p

section Requests

variable {all gs : List Gateway} {p : Premises}

theorem changesOne_of_knowsOf (hgs : ∀ g ∈ gs, g ∈ all) (hp : Premises.KnowsOf all p p)
    (r : Request) : ChangesOne r gs all p := by
  rw [ChangesOne]
  rcases declines_or_stops r gs p with
    ⟨q, h⟩ | ⟨before, g, q, h, ⟨response, hanswer⟩ | ⟨fault, hfault⟩⟩
  · refine .inl ?_
    rw [h.run.1, h.contents_eq]
  · rw [(h.run_of_answered hanswer).1]
    by_cases hstatus : response.status = 200
    · exact .inr ⟨before, g, q, h, .inl ⟨response, hanswer, hstatus⟩, h.elsewhere hgs hp⟩
    · have hdeclined : Gateway.Declined ((g.handle r).run q).2.result := by
        rw [hanswer]
        exact fun _ heq => Option.some_inj.mp heq ▸ hstatus
      refine .inl ((g.handle_keepsIf_of_offer (fun _ _ resource =>
        Gateway.offer_keepsIf resource r) q hdeclined).trans h.declines.contents_eq)
  · rw [(h.run_of_failed hfault).1]
    exact .inr ⟨before, g, q, h, .inr ⟨fault, hfault⟩, h.elsewhere hgs hp⟩

/-- Whatever was asked before, of these gateways or of others, the gateways of a chain are asked in
turn until one answers or fails, and files of one backend at most are changed. -/
theorem asked_in_turn (hcaches : ∀ c ∈ p.caches, c.entries = []) (gs : List Gateway)
    (visits : List Visit) (now : Reading) (r : Request) :
    InTurn r gs (gs ++ visits.map (·.gateway)) ((p.after visits).setClock now) := by
  have hknows : Premises.KnowsOf (gs ++ visits.map (·.gateway)) p (p.after visits) := by
    refine Premises.after_keeps (fun v hv q hq => ?_) (informed_of_empty rfl hcaches)
    have hgateway : v.gateway ∈ gs ++ visits.map (·.gateway) :=
      List.mem_append_right _ (List.mem_map_of_mem hv)
    exact handle_knowsOf hgateway (hq.setClock v.now) v.request
  exact {
    passed := passed_iff r gs _
    answered := answered_iff r gs _
    failed := failed_iff r gs _
    stopped := fun _ _ _ h hstop => h.run_append_of_stopped hstop
    contents := changesOne_of_knowsOf (fun _ => List.mem_append_left _)
      (knowsOf_self (hknows.setClock now)) r }

end Requests

/-! ## Examples -/

/-- A site with goods in one backend and slots in another. -/
def market : Premises :=
  ⟨[⟨"shop", .files ⟨[oilFile], Operator.all, true, 0⟩⟩,
    ⟨"desk", .files ⟨[.empty slots], Operator.all, true, 0⟩⟩], [Cache.empty .nan, Cache.empty .nan]⟩

/-- A gateway to the slots, and behind it one to the goods. -/
def counters : List Gateway := [⟨["api"], .camel, 1, 1⟩, ⟨["api"], .camel, 0, 0⟩]

/-- A look at the goods. -/
def browsing : Visit := ⟨⟨["api"], .camel, 0, 0⟩, .whole 1, ⟨"GET", "/api/goods", "", .text ""⟩⟩

/-- A request to remove some goods. -/
def selling : Request := ⟨"DELETE", "/api/goods", "", .text "\x7b\"Name\": \"oil\"\x7d"⟩

/-- The market, when the goods have been looked at. -/
def lookedAt : Premises := (market.after [browsing]).setClock (.whole 2)

theorem asked_in_turn_market :
    (∀ c ∈ market.caches, c.entries = []) ∧
      InTurn selling counters (counters ++ [browsing.gateway]) lookedAt ∧
      (∀ g ∈ counters, g.Alone (counters ++ [browsing.gateway]) lookedAt) ∧
      (((offerInTurn selling counters).run lookedAt).2.result.toOption.map fun answer =>
        (answer.delivery ⟨404, "next", none⟩).status) = some 200 := by
  have hcaches : ∀ c ∈ market.caches, c.entries = [] := by
    intro c hc
    rcases List.mem_pair.mp hc with rfl | rfl <;> rfl
  have hbackend : ∀ g ∈ counters ++ [browsing.gateway], g.backend = g.cache := by decide
  have halone : ∀ g ∈ counters, g.Alone (counters ++ [browsing.gateway]) lookedAt := by
    intro g hg h hh hcache _
    rw [hbackend h hh, hcache, hbackend g (List.mem_append_left _ hg)]
  exact ⟨hcaches, asked_in_turn hcaches counters [browsing] (.whole 2) selling, halone,
    by decide +kernel⟩

/-- Two backends of one name, each with goods of its own. -/
def namesakes : Premises :=
  ⟨[⟨"sequential", .files ⟨[.empty goods], Operator.all, true, 0⟩⟩,
    ⟨"sequential", .files ⟨[.empty goods], Operator.all, true, 0⟩⟩], []⟩

/-- A request for some goods to be added. -/
def stocking : Request :=
  ⟨"POST", "/b/goods", "", .text "\x7b\"Name\": \"oil\", \"Price\": 2\x7d"⟩

/-- A gateway to each of two backends of one name: the first is asked for its goods, and then the second
is opened with the cache of the first. When the second is asked to add some goods, it is the one that
answers, and with the status 200, but they end up with the first. -/
theorem namesake_stocked :
    let (p, left) := namesakes.openGateway "a" .camel 0 (.finite false 600 0) none
    let q := p.after [⟨left, .whole 1, ⟨"GET", "/a/goods", "", .absent⟩⟩]
    let (q, right) := q.openGateway "b" .camel 1 (.finite false 600 0) (some left.cache)
    let q := q.setClock (.whole 2)
    ((left.handle stocking).run q).2.result.toOption = some none ∧
      (((right.handle stocking).run q).2.result.toOption.bind (·.map (·.status))) = some 200 ∧
      ((offerInTurn stocking [left, right]).run q).1.contents.map (·.map (·.map (·.records.length))) =
        [some [1], some [0]] := by
  decide +kernel

end Rowgate
