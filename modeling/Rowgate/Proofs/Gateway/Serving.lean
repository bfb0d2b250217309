import Rowgate.Gateway.Basic
import Rowgate.Proofs.Outcome
import Rowgate.Proofs.Work

/-!
# What a request asks of a resource

Once a gateway knows its resources, a request asks for one operation of one of them at most, and all
else that is done for it leaves the premises alone. So an invariant that outlasts the discovery and
the operations of a resource (`Resource.Steady`) outlasts every request.
-/

namespace Rowgate

/-- What a request offers of an entity: what the body says of its fields. -/
def Request.Offers (r : Request) (e : Entity) (fields : Record) : Prop :=
  ∃ method object, Method.ofName? r.method = some method ∧ r.body.decode = .ok object ∧
    (e.fieldsIn method object).result = .ok fields

/-- Whether the operations of a resource keep an invariant of the premises, where the records that
are written are offered. -/
structure Resource.Steady (inv : Premises → Prop) (offered : Record → Prop) (resource : Resource) :
    Prop where
  fetch : ∀ q, (Premises.onSite (resource.fetch q)).Yields inv False fun _ => True
  insert : ∀ r, offered r → (Premises.onSite (resource.insert r)).Yields inv False fun _ => True
  update : ∀ r, offered r → (Premises.onSite (resource.update r)).Yields inv False fun _ => True
  delete : ∀ r, offered r → (Premises.onSite (resource.delete r)).Yields inv False fun _ => True

theorem Resource.Steady.mono {inv : Premises → Prop} {offered offered' : Record → Prop}
    {resource : Resource} (h : resource.Steady inv offered) (himp : ∀ r, offered' r → offered r) :
    resource.Steady inv offered' where
  fetch := h.fetch
  insert r hr := h.insert r (himp r hr)
  update r hr := h.update r (himp r hr)
  delete r hr := h.delete r (himp r hr)

theorem mem_of_resolve {α : Type} {nameOf : α → String} {xs : List α} {wanted : String} {x : α}
    (h : resolve nameOf xs wanted = some x) : x ∈ xs := by
  rw [resolve] at h
  cases hfirst : xs.find? fun x => Text.lowercase (nameOf x) == Text.lowercase wanted with
  | some y =>
      rw [hfirst, Option.orElse_some, Option.some_inj] at h
      exact h ▸ List.mem_of_find?_eq_some hfirst
  | none =>
      rw [hfirst, Option.orElse_none] at h
      exact List.mem_of_find?_eq_some h

namespace Gateway

variable {g : Gateway} {inv : Premises → Prop} {resource : Resource} {r : Request}

theorem respondFindings_yields (findings : List Finding) :
    (respondFindings findings).Yields inv False fun _ => True := by
  rw [respondFindings]
  split
  · exact Work.yields_pure trivial
  · exact Work.yields_any _

theorem fieldsOf_yields (method : Method) (resource : Resource) (body : Body) :
    (fieldsOf method resource body).Yields inv False fun fields =>
      ∃ object, body.decode = .ok object ∧
        (resource.entity.fieldsIn method object).result = .ok fields := by
  refine Work.Yields.bind (P := fun object => body.decode = .ok object)
    (Work.yields_ofTraced (fun _ h => h) False.elim) fun object hobject => ?_
  refine Work.Yields.bind (P := fun fields =>
      (resource.entity.fieldsIn method object).result = .ok fields)
    (Work.yields_ofTraced (fun _ h => h) False.elim) fun fields hfields => ?_
  split
  · exact Work.yields_ofTraced (fun _ h => nomatch h) False.elim
  · exact Work.yields_pure ⟨object, hobject, hfields⟩

theorem serve_yields {method : Method} (hmethod : Method.ofName? r.method = some method)
    (h : resource.Steady inv (r.Offers resource.entity)) :
    (serve method resource r).Yields inv False fun _ => True := by
  have hfields : (fieldsOf method resource r.body).Yields inv False (r.Offers resource.entity) :=
    (fieldsOf_yields method resource r.body).weaken fun fields ⟨object, hobject, hfields⟩ =>
      ⟨method, object, hmethod, hobject, hfields⟩
  cases method with
  | get =>
      refine (Work.yields_any _).bind fun q _ => ?_
      exact (h.fetch _).bind fun page _ => Work.yields_any _
  | post =>
      refine hfields.bind fun fields hoffered => ?_
      exact (h.insert fields hoffered).bind fun key _ => Work.yields_any _
  | delete =>
      refine hfields.bind fun fields hoffered => ?_
      exact (h.delete fields hoffered).bind fun findings _ => respondFindings_yields findings
  | put | patch =>
      refine hfields.bind fun fields hoffered => ?_
      exact (h.update fields hoffered).bind fun findings _ => respondFindings_yields findings

/-- What is done with the outcome of an attempt. -/
def answered : Except Fault Response → Work Premises Response
  | .ok response => return response
  | .error f =>
    match f.status? with
    | some status => respond status (.dict f.body)
    | none => Work.fail f

theorem answering_eq (work : Work Premises Response) :
    answering work = work.attempt >>= answered := rfl

theorem answering_yields {work : Work Premises Response}
    (h : work.Yields inv False fun _ => True) :
    (answering work).Yields inv False fun _ => True := by
  rw [answering_eq]
  refine h.attempt.bind fun outcome _ => ?_
  cases outcome with
  | ok response => exact Work.yields_pure trivial
  | error fault =>
      rw [answered]
      split
      · exact Work.yields_any _
      · exact Work.yields_any _

theorem offer_yields (h : resource.Steady inv (r.Offers resource.entity)) :
    (offer resource r).Yields inv False fun _ => True := by
  rw [offer]
  cases hmethod : Method.ofName? r.method with
  | none => exact Work.yields_pure trivial
  | some method =>
      dsimp only
      split
      · exact (Work.yields_any _).bind fun _ _ => Work.yields_pure trivial
      · exact (answering_yields (serve_yields hmethod h)).bind fun _ _ => Work.yields_pure trivial

theorem find_yields_of {P : Resource → Prop}
    (h : g.resources.Yields inv False fun all => ∀ resource ∈ all, P resource) (name : String) :
    (g.find name).Yields inv False fun found => ∀ resource ∈ found, P resource := by
  refine h.bind fun all hall => (Work.yields_any _).bind fun _ _ => Work.yields_pure ?_
  exact fun resource hresource => hall resource (mem_of_resolve hresource)

/-- What outlasts the discovery and the operations of all that is known outlasts a request. -/
theorem handle_yields_of (h : g.resources.Yields inv False fun all =>
      ∀ resource ∈ all, resource.Steady inv (r.Offers resource.entity)) :
    (g.handle r).Yields inv False fun _ => True := by
  rw [handle]
  cases Route.ofPath? g.root r.path with
  | none => exact Work.yields_pure trivial
  | some route =>
      cases route with
      | entities =>
          refine h.bind fun all _ => ?_
          exact (Work.yields_any _).bind fun _ _ => Work.yields_pure trivial
      | metadata name =>
          refine (find_yields_of h name).bind fun found _ => ?_
          cases found with
          | none => exact Work.yields_pure trivial
          | some resource => exact (Work.yields_any _).bind fun _ _ => Work.yields_pure trivial
      | records name =>
          refine (find_yields_of h name).bind fun found hfound => ?_
          cases found with
          | none => exact Work.yields_pure trivial
          | some resource => exact offer_yields (hfound resource rfl)

end Gateway

end Rowgate
