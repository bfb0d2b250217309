import Rowgate.Cache.Callers

/-!
# What happens at a desk

Callers come, the clock goes on, entries are forgotten, and callers take turns in any order. What a
turn did is read off the caller before and after it: it found a fresh value, it began to load, or
its call to the loader ended. `Effect` says once what a turn can do to the cache and to the callers,
together with the deed that it counts as. Everything that is proved about many turns uses it and
opens no definition of a turn again.
-/

namespace Rowgate

variable {V : Type}

inductive Event (V : Type)
  | comes (key : String)
  | clock (now : Reading)
  | forgets (key : Option String)
  | turn (i : Nat) (glances : Glances) (outcome : Except Fault V)

/-- What a caller does in a turn, and when. -/
inductive Deed (V : Type)
  /-- It finds a fresh value, which stays fresh from then on. -/
  | hit (i : Nat) (key : String) (time : Reading)
  /-- Its call to the loader begins. -/
  | began (i : Nat) (key : String) (time : Reading)
  /-- Its call to the loader returns a value. -/
  | brought (i : Nat) (key : String) (time : Reading) (v : V)
  /-- Its call to the loader fails. -/
  | failed (i : Nat) (key : String) (fault : Fault)

namespace Desk

def step (count : V → Int) (d : Desk V) : Event V → Desk V
  | .comes key => d.join key
  | .clock now => d.setClock now
  | .forgets key => { d with cache := d.cache.invalidate key }
  | .turn i glances outcome => (turn count glances outcome d i).1

/-- The deed of the caller `i`, whose call to the loader comes to `outcome` if one was running. -/
def deedOf (i : Nat) (outcome : Except Fault V) (before after : Desk V) : Option (Deed V) :=
  match before.caller? i, after.caller? i with
  | some ⟨key, .loading _ _⟩, _ =>
    match outcome with
    | .ok v => some (.brought i key before.cache.now v)
    | .error f => some (.failed i key f)
  | some ⟨_, .answered _⟩, _ => none
  | some ⟨key, _⟩, some ⟨_, .loading since _⟩ => some (.began i key since)
  | some ⟨key, _⟩, some ⟨_, .answered (.ok _)⟩ => some (.hit i key after.cache.now)
  | _, _ => none

def deed (count : V → Int) (d : Desk V) (e : Event V) : Option (Deed V) :=
  match e with
  | .turn i _ outcome => deedOf i outcome d (d.step count e)
  | _ => none

/-! ## Callers after a change of stage -/

theorem caller?_setStage (d : Desk V) (i : Nat) (stage : Stage V) (j : Nat) :
    (d.setStage i stage).caller? j =
      if i = j then (d.caller? i).map fun c => { c with stage } else d.caller? j := by
  rw [caller?, setStage, List.getElem?_modify]
  split
  · next h =>
      subst h
      rfl
  · exact id_map' _

theorem caller?_congr {d d' : Desk V} (h : d'.callers = d.callers) (j : Nat) :
    d'.caller? j = d.caller? j := by rw [caller?, h, caller?]

theorem caller?_of_callers {d d' : Desk V} {i : Nat} {stage : Stage V} {key : String}
    {old : Stage V} (hc : d.caller? i = some ⟨key, old⟩)
    (h : d'.callers = (d.setStage i stage).callers) (j : Nat) :
    d'.caller? j = if i = j then some ⟨key, stage⟩ else d.caller? j := by
  rw [caller?_congr h, caller?_setStage, hc]
  rfl

/-- Who is at a desk after someone came was there before, or is the one who came. -/
theorem caller?_of_join {d : Desk V} {key : String} {i : Nat} {c : Caller V}
    (h : (d.join key).caller? i = some c) : d.caller? i = some c ∨ c.stage = .arriving := by
  rw [join, caller?, List.getElem?_append] at h
  split at h
  · exact .inl h
  · rw [List.getElem?_singleton] at h
    split at h
    · cases h
      exact .inr rfl
    · cases h

/-! ## What a turn can do -/

/-- Whether a caller is on its way to a value and has not begun to load. -/
def OnItsWay (d : Desk V) (i : Nat) (key : String) : Prop :=
  d.caller? i = some ⟨key, .arriving⟩ ∨ d.caller? i = some ⟨key, .waiting⟩

/-- What the turn of the caller `i` can do to a desk, and the deed that it counts as. -/
inductive Effect (d : Desk V) (i : Nat) (glances : Glances) (outcome : Except Fault V)
    (d' : Desk V) : Option (Deed V) → Prop
  | rests (hcache : d'.cache = d.cache) (hcallers : d'.callers = d.callers) :
    Effect d i glances outcome d' none
  | queues {key : String} (hc : d.OnItsWay i key) (hcache : d'.cache = d.cache)
    (hcallers : d'.callers = (d.setStage i .waiting).callers) : Effect d i glances outcome d' none
  | finds {key : String} {v : V} {look : Reading} (hc : d.OnItsWay i key)
    (hfresh : (d.cache.setClock look).fresh? key = some v)
    (hcache : (d.cache.setClock look).store key v = .ok d'.cache)
    (hcallers : d'.callers = (d.setStage i (.answered (.ok v))).callers) :
    Effect d i glances outcome d' (some (.hit i key look))
  | findsTooLate {key : String} {look : Reading} (hc : d.OnItsWay i key)
    (hcache : d'.cache = d.cache.setClock look)
    (hcallers : d'.callers = (d.setStage i (.answered (.error .tooLarge))).callers) :
    Effect d i glances outcome d' none
  | begins {key : String} {look : Reading} {call : Nat} (hc : d.OnItsWay i key)
    (hfree : d.isLocked key = false) (hlook : look = d.cache.now ∨ look = glances.again)
    (hstale : (d.cache.setClock look).fresh? key = none)
    (hcache : d'.cache = d.cache.setClock glances.started)
    (hcallers : d'.callers = (d.setStage i (.loading glances.started call)).callers) :
    Effect d i glances outcome d' (some (.began i key glances.started))
  | brings {key : String} {v : V} {since : Reading} {call : Nat} {answer : Except Fault V}
    (hc : d.caller? i = some ⟨key, .loading since call⟩) (hout : outcome = .ok v)
    (hcache : d.cache.store key v = .ok d'.cache)
    (hanswer : answer = .ok v ∨ answer = .error .tooLarge)
    (hcallers : d'.callers = (d.setStage i (.answered answer)).callers) :
    Effect d i glances outcome d' (some (.brought i key d.cache.now v))
  | bringsTooLate {key : String} {v : V} {since : Reading} {call : Nat}
    (hc : d.caller? i = some ⟨key, .loading since call⟩) (hout : outcome = .ok v)
    (hnever : d.cache.expiry? = none) (hcache : d'.cache = d.cache)
    (hcallers : d'.callers = (d.setStage i (.answered (.error .tooLarge))).callers) :
    Effect d i glances outcome d' (some (.brought i key d.cache.now v))
  | fails {key : String} {f : Fault} {since : Reading} {call : Nat}
    (hc : d.caller? i = some ⟨key, .loading since call⟩) (hout : outcome = .error f)
    (hd : d' = d.setStage i (.answered (.error f))) :
    Effect d i glances outcome d' (some (.failed i key f))

section Turn

variable {d d₁ : Desk V} {i : Nat} {glances : Glances} {outcome : Except Fault V} {key : String}
  {look : Reading}

theorem OnItsWay.deedOf_answered (hc : d.OnItsWay i key) {d' : Desk V} {answer : Except Fault V}
    (h : d'.callers = (d.setStage i (.answered answer)).callers) :
    deedOf i outcome d d' = match answer with
      | .ok _ => some (.hit i key d'.cache.now)
      | .error _ => none := by
  rcases hc with hc | hc
  all_goals
    rw [deedOf, caller?_of_callers hc h i, if_pos rfl, hc]
    cases answer <;> rfl

/-- A fresh value is kept fresh and answered, unless it can no longer be kept. -/
theorem effect_answer (hc : d.OnItsWay i key) (hcallers : d₁.callers = d.callers)
    (hcache : d₁.cache = d.cache.setClock look) {v : V} (hfresh : d₁.cache.fresh? key = some v)
    (entry : Option Entry) :
    Effect d i glances outcome (d₁.answer i key v entry).1
      (deedOf i outcome d (d₁.answer i key v entry).1) := by
  rw [hcache] at hfresh
  rw [answer, hcache]
  cases hs : (d.cache.setClock look).store key v with
  | ok cache =>
      obtain ⟨t, -, hput⟩ := Cache.store_eq_ok_iff.mp hs
      have hcallers' : ({ d₁.setStage i (.answered (.ok v)) with cache } : Desk V).callers =
          (d.setStage i (.answered (.ok v))).callers := by
        simp only [setStage, hcallers]
      rw [hc.deedOf_answered hcallers']
      have hnow : cache.now = look := by
        rw [hput]
        rfl
      simp only [hnow]
      exact .finds hc hfresh hs hcallers'
  | error f =>
      obtain ⟨-, rfl⟩ := Cache.store_eq_error_iff.mp hs
      have hcallers' : (d₁.setStage i (.answered (.error .tooLarge))).callers =
          (d.setStage i (.answered (.error .tooLarge))).callers := by
        simp only [setStage, hcallers]
      rw [hc.deedOf_answered hcallers']
      exact .findsTooLate hc hcache hcallers'

theorem effect_lookAgain (hc : d.OnItsWay i key) (hcallers : d₁.callers = d.callers)
    (hcache : d₁.cache = d.cache.setClock look) (hfree : d.isLocked key = false)
    (hlook : look = d.cache.now ∨ look = glances.again) :
    Effect d i glances outcome (lookAgain glances.started d₁ i key).1
      (deedOf i outcome d (lookAgain glances.started d₁ i key).1) := by
  rw [lookAgain]
  cases hfresh : d₁.cache.fresh? key with
  | some v => exact effect_answer hc hcallers hcache hfresh none
  | none =>
      have hcallers' : ((d₁.setClock glances.started).beginLoad i).callers =
          (d.setStage i (.loading glances.started (d₁.calls + 1))).callers := by
        simp only [setClock, beginLoad, setStage, Cache.setClock, hcallers]
      have hdeed : deedOf i outcome d ((d₁.setClock glances.started).beginLoad i) =
          some (.began i key glances.started) := by
        rcases hc with hc | hc
        all_goals
          rw [deedOf, caller?_of_callers hc hcallers' i, if_pos rfl, hc]
      rw [hcache] at hfresh
      simp only [hdeed]
      refine .begins hc hfree hlook hfresh ?_ hcallers'
      show d₁.cache.setClock glances.started = _
      rw [hcache]
      rfl

/-- The end of a call to the loader is a deed of its own, whatever becomes of the value. -/
theorem deedOf_loading {since : Reading} {call : Nat} {d' : Desk V}
    (hc : d.caller? i = some ⟨key, .loading since call⟩) :
    deedOf i outcome d d' = match outcome with
      | .ok v => some (.brought i key d.cache.now v)
      | .error f => some (.failed i key f) := by
  rw [deedOf, hc]

theorem effect_finish (count : V → Int) {since : Reading} {call : Nat}
    (hc : d.caller? i = some ⟨key, .loading since call⟩) :
    Effect d i glances outcome (finish count d i key since outcome).1
      (deedOf i outcome d (finish count d i key since outcome).1) := by
  rw [deedOf_loading hc]
  cases outcome with
  | error f => exact .fails hc rfl rfl
  | ok v =>
      rw [finish]
      cases hs : d.cache.store key v with
      | ok cache =>
          cases hsince : d.cache.now.since? since with
          | some seconds =>
              simp only [answer, hs]
              exact .brings hc rfl hs (.inl rfl) rfl
          | none =>
              simp only [answer, hs]
              exact .brings hc rfl hs (.inr rfl) (List.modify_modify_eq _ _ _ _)
      | error f =>
          obtain ⟨hnever, rfl⟩ := Cache.store_eq_error_iff.mp hs
          cases hsince : d.cache.now.since? since with
          | some seconds =>
              simp only [answer, hs]
              exact .bringsTooLate hc rfl hnever rfl rfl
          | none =>
              simp only [answer, hs]
              exact .bringsTooLate hc rfl hnever rfl (List.modify_modify_eq _ _ _ _)

theorem effect_rests (h : deedOf i outcome d d = none) :
    Effect d i glances outcome d (deedOf i outcome d d) := by
  rw [h]
  exact .rests rfl rfl

/-- Every turn has one of the effects. -/
theorem effect_turn (count : V → Int) (d : Desk V) (i : Nat) (glances : Glances)
    (outcome : Except Fault V) :
    Effect d i glances outcome (turn count glances outcome d i).1
      (deedOf i outcome d (turn count glances outcome d i).1) := by
  rw [turn]
  cases hc : d.caller? i with
  | none => exact effect_rests (by rw [deedOf, hc])
  | some c =>
      obtain ⟨key, stage⟩ := c
      cases stage with
      | answered r => exact effect_rests (by rw [deedOf, hc])
      | loading since call => exact effect_finish count hc
      | arriving =>
          have hstill : d.cache = d.cache.setClock d.cache.now := rfl
          simp only [arrive]
          cases hfresh : d.cache.fresh? key with
          | some v => exact effect_answer (.inl hc) rfl hstill hfresh _
          | none =>
              by_cases hlocked : (d.isLocked key || (d.first? key).isSome) = true
              · have hcallers : (d.enqueue i).callers = (d.setStage i .waiting).callers := rfl
                have hdeed : deedOf i outcome d (d.enqueue i) = none := by
                  rw [deedOf, caller?_of_callers hc hcallers i, if_pos rfl, hc]
                simp only [hlocked, if_true, hdeed]
                exact .queues (.inl hc) rfl hcallers
              · rw [Bool.or_eq_true, not_or, Bool.not_eq_true] at hlocked
                simp only [hlocked.1, hlocked.2]
                exact effect_lookAgain (.inl hc) rfl rfl hlocked.1 (.inr rfl)
      | waiting =>
          have hstill : (d.dequeue i).cache = d.cache.setClock d.cache.now := rfl
          dsimp only
          split
          · next h =>
              rw [Bool.and_eq_true, Bool.not_eq_true'] at h
              exact effect_lookAgain (.inr hc) rfl hstill h.1 (.inl rfl)
          · exact effect_rests (by rw [deedOf, hc])

end Turn

end Desk

end Rowgate
