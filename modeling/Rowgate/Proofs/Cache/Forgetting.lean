import Rowgate.Proofs.Cache.SingleFlight

/-!
# After an invalidation

An invalidation takes the values out of a cache that are in it. It does not reach a call to a loader
that is still running: that call stores its value when it ends, and the value is answered from then
on to whoever comes (`running_call_answered`). So who had no answer at an invalidation can still get
what a call returns that began before it, but never what had been returned by then.

The argument looks only at the deeds since the invalidation. `Renewed` says that they account for the
entry of the key, for the calls that run, and for every value that has been answered since; each
effect of a turn keeps it.
-/

namespace Rowgate

variable {V : Type}

/-- Whether a value has been returned, among the deeds since an earlier time, by a call to the loader
of a key that ran at that time or has begun since. -/
def ReturnedSince (before : Desk V) (new : List (Deed V)) (key : String) (v : V) : Prop :=
  ∃ i time, .brought i key time v ∈ new ∧ (before.Loads i key ∨ ∃ start, .began i key start ∈ new)

/-- Whether a caller has not been answered yet; it may be one that is still to come. -/
def Desk.Pending (d : Desk V) (i : Nat) : Prop :=
  ∀ key answer, d.caller? i ≠ some ⟨key, .answered answer⟩

/-- What the deeds since an earlier time account for. -/
structure Renewed (before d : Desk V) (new : List (Deed V)) (key : String) : Prop where
  entry : ∀ e, d.cache.find? key = some e → ReturnedSince before new key e.value
  calls : ∀ i, d.Loads i key → before.Loads i key ∨ ∃ start, .began i key start ∈ new
  answers : ∀ i v, before.Pending i → d.caller? i = some ⟨key, .answered (.ok v)⟩ →
    ReturnedSince before new key v

section Steps

variable {before d d' : Desk V} {new : List (Deed V)} {key other : String} {i : Nat}
  {old stage : Stage V}

theorem ReturnedSince.later {v : V} (h : ReturnedSince before new key v) (more : List (Deed V)) :
    ReturnedSince before (more ++ new) key v := by
  obtain ⟨i, time, hbrought, hcall⟩ := h
  refine ⟨i, time, List.mem_append_right more hbrought, hcall.imp_right ?_⟩
  rintro ⟨start, hbegan⟩
  exact ⟨start, List.mem_append_right more hbegan⟩

/-- A cache without an entry of the key, and callers as they were. -/
theorem renewed_self (hentry : d.cache.find? key = none) (hcallers : d.callers = before.callers) :
    Renewed before d [] key := by
  refine ⟨fun e he => ?_, fun i hi => .inl ?_, fun i v hpending hc => ?_⟩
  · rw [hentry] at he
    cases he
  · obtain ⟨since, call, hc⟩ := hi
    exact ⟨since, call, by rw [← hc, Desk.caller?_congr hcallers]⟩
  · rw [Desk.caller?_congr hcallers] at hc
    exact absurd hc (hpending key (.ok v))

/-- Callers that have neither begun to load nor been answered do not matter. -/
theorem Renewed.quiet (h : Renewed before d new key)
    (hcache : ∀ e, d'.cache.find? key = some e → d.cache.find? key = some e)
    (hcallers : ∀ i c, d'.caller? i = some c → d.caller? i = some c ∨ c.stage = .arriving) :
    Renewed before d' new key := by
  refine ⟨fun e he => h.entry e (hcache e he), ?_, fun i v hpending hc => ?_⟩
  · rintro i ⟨since, call, hc⟩
    rcases hcallers i _ hc with hc | hc
    · exact h.calls i ⟨since, call, hc⟩
    · cases hc
  · rcases hcallers i _ hc with hc | hc
    · exact h.answers i v hpending hc
    · cases hc

/-- One caller gets to another stage by a deed. -/
theorem Renewed.advance (h : Renewed before d new key) {m : List (Deed V)}
    (hc : d.caller? i = some ⟨other, old⟩) (hcallers : d'.callers = (d.setStage i stage).callers)
    (hentry : ∀ e, d'.cache.find? key = some e → ReturnedSince before (m ++ new) key e.value)
    (hload : ∀ since call, stage = .loading since call → ∃ start, .began i other start ∈ m)
    (hvalue : ∀ v, other = key → stage = .answered (.ok v) →
      ReturnedSince before (m ++ new) key v) :
    Renewed before d' (m ++ new) key := by
  have hcaller := Desk.caller?_of_callers hc hcallers
  refine ⟨hentry, ?_, fun j v hpending hj => ?_⟩
  · rintro j ⟨since, call, hj⟩
    rw [hcaller j] at hj
    split at hj
    · next hij =>
        cases hj
        subst hij
        obtain ⟨start, hbegan⟩ := hload since call rfl
        exact .inr ⟨start, List.mem_append_left new hbegan⟩
    · refine (h.calls j ⟨since, call, hj⟩).imp_right ?_
      rintro ⟨start, hbegan⟩
      exact ⟨start, List.mem_append_right m hbegan⟩
  · rw [hcaller j] at hj
    split at hj
    · cases hj
      exact hvalue v rfl rfl
    · exact (h.answers j v hpending hj).later m

/-- Storing a value that was returned keeps the entries accounted for. -/
theorem Renewed.entry_store (h : Renewed before d new key) {c c' : Cache V} {v : V}
    (hfind : ∀ e, c.find? key = some e → d.cache.find? key = some e)
    (hstore : c.store other v = .ok c') {more : List (Deed V)}
    (hreturned : other = key → ReturnedSince before (more ++ new) key v) (e : CacheEntry V)
    (he : c'.find? key = some e) : ReturnedSince before (more ++ new) key e.value := by
  rcases Cache.find?_of_store hstore he with ⟨hkey, hvalue⟩ | hold
  · rw [hvalue]
    exact hreturned hkey.symm
  · exact (h.entry e (hfind e hold)).later more

theorem Renewed.effect {glances : Glances} {outcome : Except Fault V} {deed : Option (Deed V)}
    (h : Renewed before d new key) (he : d.Effect i glances outcome d' deed) :
    Renewed before d' (deed.toList ++ new) key := by
  have hentry : ∀ more e, d.cache.find? key = some e →
      ReturnedSince before (more ++ new) key e.value := fun more e he => (h.entry e he).later more
  cases he with
  | rests hcache hcallers =>
      refine h.quiet (fun e he => hcache ▸ he) fun j c hj => .inl ?_
      rw [← hj, Desk.caller?_congr hcallers]
  | queues hc hcache hcallers =>
      obtain ⟨old, hc⟩ := Scene.exists_caller hc
      exact h.advance (m := []) hc hcallers (hcache ▸ hentry []) (fun _ _ => nofun)
        fun _ _ => nofun
  | @finds k v look hc hfresh hcache hcallers =>
      obtain ⟨e, he, rfl⟩ := Cache.find?_of_fresh? hfresh
      obtain ⟨old, hc⟩ := Scene.exists_caller hc
      -- The value was in the cache, so it is accounted for already.
      have hreturned : k = key → ReturnedSince before ([.hit i k look] ++ new) key e.value :=
        fun hkey => hentry _ e (hkey ▸ he)
      refine h.advance hc hcallers
        (h.entry_store (c := d.cache.setClock look) (fun _ he => he) hcache hreturned)
        (fun _ _ => nofun) ?_
      rintro v hkey ⟨⟩
      exact hreturned hkey
  | findsTooLate hc hcache hcallers =>
      obtain ⟨old, hc⟩ := Scene.exists_caller hc
      exact h.advance (m := []) hc hcallers (hcache ▸ hentry []) (fun _ _ => nofun)
        fun _ _ => nofun
  | begins hc hfree hlook hstale hcache hcallers =>
      obtain ⟨old, hc⟩ := Scene.exists_caller hc
      exact h.advance hc hcallers (hcache ▸ hentry _) (fun _ _ _ => ⟨_, List.mem_singleton_self _⟩)
        fun _ _ => nofun
  | @brings k v since call answer hc hout hcache hanswer hcallers =>
      have hreturned : k = key →
          ReturnedSince before ([.brought i k d.cache.now v] ++ new) key v := by
        rintro rfl
        refine ⟨i, d.cache.now, List.mem_cons_self, (h.calls i ⟨since, call, hc⟩).imp_right ?_⟩
        rintro ⟨start, hbegan⟩
        exact ⟨start, List.mem_cons_of_mem _ hbegan⟩
      refine h.advance hc hcallers (h.entry_store (fun _ he => he) hcache hreturned)
        (by rcases hanswer with rfl | rfl <;> exact fun _ _ => nofun) ?_
      rintro v' hkey hstage
      rcases hanswer with rfl | rfl
      · cases hstage
        exact hreturned hkey
      · cases hstage
  | bringsTooLate hc hout hnever hcache hcallers =>
      exact h.advance hc hcallers (hcache ▸ hentry _) (fun _ _ => nofun) fun _ _ => nofun
  | fails hc hout hd =>
      subst hd
      exact h.advance hc rfl (hentry _) (fun _ _ => nofun) fun _ _ => nofun

/-! ## The whole course -/

variable (count : V → Int)

theorem Renewed.step (h : Renewed before d new key) (e : Event V) :
    Renewed before (d.step count e) ((d.deed count e).toList ++ new) key := by
  cases e with
  | turn i glances outcome => exact h.effect (Desk.effect_turn count d i glances outcome)
  | clock now => exact h.quiet (fun _ he => he) fun _ _ hc => .inl hc
  | comes key => exact h.quiet (fun _ he => he) fun _ _ hc => Desk.caller?_of_join hc
  | forgets key => exact h.quiet (fun _ he => Cache.find?_of_invalidate he) fun _ _ hc => .inl hc

theorem Renewed.play {s : Scene V} (h : Renewed before s.desk new key) {past : List (Deed V)}
    (hpast : s.past = new ++ past) (es : List (Event V)) :
    ∃ new, (s.play count es).past = new ++ past ∧
      Renewed before (s.play count es).desk new key := by
  induction es generalizing s new with
  | nil => exact ⟨new, hpast, h⟩
  | cons e es ih =>
      refine ih (h.step count e) ?_
      rw [Scene.step, hpast, List.append_assoc]

end Steps

/-- Who has no answer when the entry of a key is invalidated, and is answered a value of that key
later, gets one that has been returned since then. The call that returned it began after the
invalidation, or it was running at that time, as at most one call for the key was. -/
theorem answered_since_forgotten (count : V → Int) (ttl : Binary64) (earlier later : List (Event V))
    (forgotten : Option String) (key : String) (hcovers : ∀ k ∈ forgotten, k = key) :
    let s := (Scene.opening ttl).play count earlier
    let t := (s.step count (.forgets forgotten)).play count later
    (∀ i j, s.desk.Loads i key → s.desk.Loads j key → i = j) ∧
      ∃ new, t.past = new ++ s.past ∧
        ∀ i v, s.desk.Pending i → t.desk.caller? i = some ⟨key, .answered (.ok v)⟩ →
          ReturnedSince s.desk new key v := by
  intro s t
  have halone := (Scene.sound_play count ttl earlier).alone
  have hgone : (s.desk.cache.invalidate forgotten).find? key = none :=
    Cache.find?_invalidate _ hcovers
  have hrenewed : Renewed s.desk (s.step count (.forgets forgotten)).desk [] key :=
    renewed_self hgone rfl
  have hstart : (s.step count (.forgets forgotten)).past = [] ++ s.past := rfl
  obtain ⟨new, hpast, hnew⟩ := hrenewed.play count hstart later
  exact ⟨fun i j => halone i j key, new, hpast, hnew.answers⟩

/-! ## An example -/

/-- For ever. -/
def always : Binary64 := .infinite false

/-- A caller comes and begins to load. -/
def firstCall : List (Event Nat) := [.comes "a", .turn 0 (.still (.whole 0)) (.ok 1)]

/-- Another caller comes and waits, the first one's call returns, and the second one is answered. -/
def secondCall : List (Event Nat) := [
  .comes "a", .turn 1 (.still (.whole 0)) (.ok 2), .turn 0 (.still (.whole 0)) (.ok 1),
  .turn 1 (.still (.whole 0)) (.ok 2)]

theorem answered_since_forgotten_second :
    let s := (Scene.opening always).play (fun _ => 0) firstCall
    let t := (s.step (fun _ => 0) (.forgets (some "a"))).play (fun _ => 0) secondCall
    (∀ k ∈ some "a", k = "a") ∧ s.desk.Pending 1 ∧
      t.desk.caller? 1 = some ⟨"a", .answered (.ok 1)⟩ ∧
      ∃ new, t.past = new ++ s.past ∧ ReturnedSince s.desk new "a" 1 := by
  intro s t
  have hcovers : ∀ k ∈ some "a", k = "a" := fun k hk => (Option.mem_some.mp hk).symm
  have hpending : s.desk.Pending 1 := fun _ _ => nofun
  obtain ⟨-, new, hpast, hnew⟩ := answered_since_forgotten (fun _ => 0) always firstCall secondCall
    (some "a") "a" hcovers
  exact ⟨hcovers, hpending, rfl, new, hpast, hnew 1 1 hpending rfl⟩

/-- A value that is being loaded when its key is invalidated is answered to a caller that comes after
the invalidation, although the only call that returned it began before. -/
theorem running_call_answered :
    let s := (Scene.opening always).play (fun _ => 0) firstCall
    let t := (s.step (fun _ => 0) (.forgets (some "a"))).play (fun _ => 0) secondCall
    s.past = [.began 0 "a" (.whole 0)] ∧ s.desk.caller? 1 = none ∧
      t.desk.caller? 1 = some ⟨"a", .answered (.ok 1)⟩ ∧
      t.past = [.hit 1 "a" (.whole 0), .brought 0 "a" (.whole 0) 1, .began 0 "a" (.whole 0)] :=
  ⟨rfl, rfl, rfl, rfl⟩

end Rowgate
