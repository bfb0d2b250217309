import Rowgate.Proofs.Gateway.History

/-!
# What the caches know

A gateway relies on what is in its cache, and what is in a cache was discovered at some time, perhaps
for another gateway. `Premises.Informed` is the invariant for this: the site has a property that
outlasts all requests, and every resource that a cache knows under a key has one that depends on the
cache and the key. A gateway keeps it and gets resources with the property, if discovery does
(`resources_informed`).
-/

namespace Rowgate

/-- Whether the site has a property, and so has all that the caches know. -/
structure Premises.Informed (S : Site → Prop) (K : Nat → String → Resource → Prop) (p : Premises) :
    Prop where
  site : S p.site
  caches : ∀ (i : Nat) (c : ResourceCache), p.caches[i]? = some c → ∀ key entry,
    c.find? key = some entry → ∀ resource ∈ entry.value, K i key resource

section Informed

variable {α : Type} {S : Site → Prop} {K : Nat → String → Resource → Prop} {p : Premises}

theorem informed_of_empty (hsite : S p.site) (hcaches : ∀ c ∈ p.caches, c.entries = []) :
    p.Informed S K := by
  refine ⟨hsite, fun i c hc key entry hentry => ?_⟩
  rw [Cache.find?, hcaches c (List.mem_of_getElem? hc)] at hentry
  cases hentry

theorem Premises.Informed.setClock (h : p.Informed S K) (now : Reading) :
    (p.setClock now).Informed S K := by
  refine ⟨h.site, fun i c hc => ?_⟩
  rw [Premises.setClock, List.getElem?_map] at hc
  obtain ⟨d, hd, rfl⟩ := Option.map_eq_some_iff.mp hc
  exact h.caches i d hd

theorem onSite_informed {work : Work Site α} {Q : α → Prop} (h : work.Yields S False Q) :
    (Premises.onSite work).Yields (Premises.Informed S K) False Q :=
  h.onPart (fun _ hp => hp.site) fun _ _ hp hs => ⟨hs, hp.caches⟩

theorem store_informed {cache : Nat} {key : String} {found : List Resource}
    (hfound : ∀ resource ∈ found, K cache key resource) :
    (Premises.store cache key found).Yields (Premises.Informed S K) False fun _ => True := by
  refine Work.yields_state.bind fun p hp => ?_
  cases hc : p.caches[cache]? with
  | none => exact Work.yields_pure trivial
  | some c =>
      refine Work.Yields.bind (P := fun c' => c.store key found = .ok c')
        (Work.yields_ofTraced (fun _ h => h) False.elim) fun c' hstore => ?_
      refine Work.yields_change fun p' hp' => ⟨hp'.site, fun i d hd other entry hentry => ?_⟩
      replace hd : (p'.caches.modify cache fun _ => c')[i]? = some d := hd
      by_cases hi : cache = i
      · subst hi
        rw [List.getElem?_modify_eq] at hd
        obtain ⟨_, -, rfl⟩ := Option.map_eq_some_iff.mp hd
        rcases Cache.find?_of_store hstore hentry with ⟨rfl, hvalue⟩ | hold
        · rw [hvalue]
          exact hfound
        · exact hp.caches cache c hc other entry hold
      · rw [List.getElem?_modify_ne _ _ hi] at hd
        exact hp'.caches i d hd other entry hentry

/-- A gateway that discovers resources with a property gets to know such resources only, if this is
what the caches know of them under the key of the gateway. -/
theorem resources_informed {g : Gateway} {R : Resource → Prop}
    (hdiscover : (discover g.backend).Yields S False fun found => ∀ resource ∈ found, R resource)
    (hknows : ∀ p : Premises, S p.site → ∀ resource, K g.cache (g.key p) resource ↔ R resource) :
    g.resources.Yields (Premises.Informed S K) False fun all => ∀ resource ∈ all, R resource := by
  refine Work.yields_state.bind fun p hp => ?_
  have hknown := hknows p hp.site
  have hstore : ∀ found : List Resource, (∀ resource ∈ found, R resource) →
      (Premises.store g.cache (g.key p) found).Yields (Premises.Informed S K) False fun _ => True :=
    fun found hfound => store_informed fun resource h => (hknown resource).mpr (hfound resource h)
  dsimp only
  split
  · next found hfresh =>
      obtain ⟨c, hc, hfresh⟩ := Option.bind_eq_some_iff.mp hfresh
      obtain ⟨entry, hentry, rfl⟩ := Cache.find?_of_fresh? hfresh
      have hfound : ∀ resource ∈ entry.value, R resource := fun resource h =>
        (hknown resource).mp (hp.caches g.cache c hc _ entry hentry resource h)
      exact (hstore _ hfound).bind fun _ _ => (Work.yields_any _).bind fun _ _ =>
        Work.yields_pure hfound
  · refine (onSite_informed hdiscover).bind fun found hfound => ?_
    exact (hstore found hfound).bind fun _ _ => (Work.yields_any _).bind fun _ _ =>
      Work.yields_pure hfound

end Informed

end Rowgate
