import Rowgate.Proofs.Cache.Scene
import Rowgate.Proofs.Number.Magnitude

/-!
# One load at a time

Whatever callers come, and in whatever order they take their turns, a value is loaded by one caller
at a time and answered to all who wait for it. The invariant `Scene.Sound` ties the state of a desk
to the deeds that led to it: who holds the lock of a key, when the entry of a key was last stored or
hit, and where every value and every fault that was answered comes from. Each part of it is kept by
every effect that a turn can have, so it holds in every scene.

That a value is fresh for a time `ttl` after the last hit means what the machine makes of it: the
sum of two floating point numbers, rounded. `stale_at_once` shows that the sum can come out as early
as the hit itself.
-/

namespace Rowgate

variable {V : Type}

/-- A desk and the deeds that led to it, the latest first. -/
structure Scene (V : Type) where
  desk : Desk V
  past : List (Deed V)

namespace Scene

def opening (ttl : Binary64) : Scene V := ⟨⟨Cache.empty ttl, [], [], 0⟩, []⟩

def step (count : V → Int) (s : Scene V) (e : Event V) : Scene V :=
  ⟨s.desk.step count e, (s.desk.deed count e).toList ++ s.past⟩

def play (count : V → Int) (s : Scene V) (es : List (Event V)) : Scene V :=
  es.foldl (step count) s

end Scene

/-- When a deed stored the entry of a key or kept it fresh. -/
def Deed.touch? (ttl : Binary64) (key : String) : Deed V → Option Reading
  | .hit _ k time => if k = key then some time else none
  | .brought _ k time _ => if k = key ∧ (time.after? ttl).isSome then some time else none
  | _ => none

/-- When the entry of a key was last stored or kept fresh. -/
def lastTouch? (ttl : Binary64) (key : String) (past : List (Deed V)) : Option Reading :=
  past.findSome? (Deed.touch? ttl key)

/-- Whether a call to the loader of a key has returned a value. -/
def Returned (past : List (Deed V)) (key : String) (v : V) : Prop :=
  ∃ i time, .brought i key time v ∈ past

/-- Whether a caller has a call to its loader running. -/
def Desk.Loads (d : Desk V) (i : Nat) (key : String) : Prop :=
  ∃ since call, d.caller? i = some ⟨key, .loading since call⟩

/-! ## What a cache keeps -/

/-- What the deeds of the past say of a cache: every value in it was returned by a call to the loader
of its key, and is kept from the last touch on. -/
structure Kept (ttl : Binary64) (c : Cache V) (past : List (Deed V)) : Prop where
  lasts : c.ttl = ttl
  entries : ∀ key e, c.find? key = some e → Returned past key e.value ∧
    ∃ t, lastTouch? ttl key past = some t ∧ t.after? ttl = some e.expires

section Kept

variable {ttl : Binary64} {c c' : Cache V} {past : List (Deed V)} {deed : Deed V} {key : String}
  {v : V}

theorem Returned.later (h : Returned past key v) (new : List (Deed V)) :
    Returned (new ++ past) key v := by
  obtain ⟨i, time, hmem⟩ := h
  exact ⟨i, time, List.mem_append_right new hmem⟩

/-- Deeds that touch nothing, and a cache that has no new entries. -/
theorem Kept.quiet (h : Kept ttl c past) (hlasts : c'.ttl = c.ttl)
    (hfind : ∀ key e, c'.find? key = some e → c.find? key = some e) {new : List (Deed V)}
    (hnew : ∀ key, lastTouch? ttl key new = none) : Kept ttl c' (new ++ past) := by
  refine ⟨hlasts.trans h.lasts, fun key e he => ?_⟩
  obtain ⟨hreturned, t, ht, hexpires⟩ := h.entries key e (hfind key e he)
  refine ⟨hreturned.later new, t, ?_, hexpires⟩
  rw [lastTouch?, List.findSome?_append, ← lastTouch?, hnew key, Option.none_or, ← lastTouch?, ht]

theorem Kept.setClock (h : Kept ttl c past) (now : Reading) : Kept ttl (c.setClock now) past :=
  ⟨h.lasts, h.entries⟩

/-- A value that is stored, or kept fresh, is touched. -/
theorem Kept.store (h : Kept ttl c past) (hstore : c.store key v = .ok c')
    (hreturned : Returned (deed :: past) key v)
    (htouch : ∀ k, deed.touch? ttl k = if key = k then some c.now else none) :
    Kept ttl c' (deed :: past) := by
  obtain ⟨x, hx, rfl⟩ := Cache.store_eq_ok_iff.mp hstore
  refine ⟨h.lasts, fun k e he => ?_⟩
  by_cases hk : key = k
  · subst hk
    rw [Cache.find?_put_self, Option.some_inj] at he
    subst he
    refine ⟨hreturned, c.now, ?_, ?_⟩
    · rw [lastTouch?, List.findSome?_cons, htouch, if_pos rfl]
    · rw [← h.lasts]
      exact hx
  · rw [Cache.find?_put_of_ne _ _ (Ne.symm hk)] at he
    obtain ⟨hbefore, t, ht, hexpires⟩ := h.entries k e he
    refine ⟨hbefore.later [deed], t, ?_, hexpires⟩
    rw [lastTouch?, List.findSome?_cons, htouch, if_neg hk]
    exact ht

end Kept

/-! ## What callers have got -/

namespace Scene

/-- What the deeds of the past say of a desk. -/
structure Sound (ttl : Binary64) (s : Scene V) : Prop where
  kept : Kept ttl s.desk.cache s.past
  alone : ∀ i j key, s.desk.Loads i key → s.desk.Loads j key → i = j
  values : ∀ i key v, s.desk.caller? i = some ⟨key, .answered (.ok v)⟩ → Returned s.past key v
  faults : ∀ i key f, s.desk.caller? i = some ⟨key, .answered (.error f)⟩ →
    .failed i key f ∈ s.past ∨ f = .tooLarge

section Steps

variable {ttl : Binary64} {d d' : Desk V} {past : List (Deed V)} {deed : Deed V} {key : String}
  {v : V} {i : Nat} {old stage : Stage V}

theorem sound_opening (ttl : Binary64) : (opening ttl : Scene V).Sound ttl where
  kept := ⟨rfl, fun _ _ h => nomatch h⟩
  alone := fun _ _ _ h => nomatch h
  values := fun _ _ _ h => nomatch h
  faults := fun _ _ _ h => nomatch h

/-- Callers that have neither begun to load nor been answered do not matter. -/
theorem Sound.quiet (h : (⟨d, past⟩ : Scene V).Sound ttl) (hkept : Kept ttl d'.cache past)
    (hcallers : ∀ i c, d'.caller? i = some c →
      d.caller? i = some c ∨ c.stage = .arriving ∨ c.stage = .waiting) :
    (⟨d', past⟩ : Scene V).Sound ttl := by
  have hloads : ∀ i key, d'.Loads i key → d.Loads i key := by
    rintro i key ⟨since, call, hc⟩
    rcases hcallers i _ hc with hc | hc | hc
    · exact ⟨since, call, hc⟩
    · cases hc
    · cases hc
  refine ⟨hkept, fun i j key hi hj => h.alone i j key (hloads i key hi) (hloads j key hj), ?_, ?_⟩
  · intro i key v hc
    rcases hcallers i _ hc with hc | hc | hc
    · exact h.values i key v hc
    · cases hc
    · cases hc
  · intro i key f hc
    rcases hcallers i _ hc with hc | hc | hc
    · exact h.faults i key f hc
    · cases hc
    · cases hc

theorem not_loads_of_free (h : d.isLocked key = false) (i : Nat) : ¬ d.Loads i key := by
  rintro ⟨since, call, hc⟩
  rw [Desk.isLocked, List.any_eq_false] at h
  refine h _ (List.mem_of_getElem? hc) ?_
  rw [Desk.Caller.holds]
  exact beq_self_eq_true key

/-- One caller gets to another stage by a deed. -/
theorem Sound.advance (h : (⟨d, past⟩ : Scene V).Sound ttl) {new : List (Deed V)}
    (hkept : Kept ttl d'.cache (new ++ past)) (hc : d.caller? i = some ⟨key, old⟩)
    (hcallers : d'.callers = (d.setStage i stage).callers)
    (hload : ∀ since call, stage = .loading since call → d.isLocked key = false)
    (hvalue : ∀ v, stage = .answered (.ok v) → Returned (new ++ past) key v)
    (hfault : ∀ f, stage = .answered (.error f) → .failed i key f ∈ new ∨ f = .tooLarge) :
    (⟨d', new ++ past⟩ : Scene V).Sound ttl := by
  have hcaller := Desk.caller?_of_callers hc hcallers
  -- Who loads now and did not load before is the caller that advances, and its key was free.
  have hloads : ∀ j k, d'.Loads j k →
      d.Loads j k ∨ (i = j ∧ key = k ∧ d.isLocked key = false) := by
    rintro j k ⟨since, call, hj⟩
    rw [hcaller j] at hj
    split at hj
    · next hij =>
        cases hj
        exact .inr ⟨hij, rfl, hload since call rfl⟩
    · exact .inl ⟨since, call, hj⟩
  refine ⟨hkept, fun j k key' hj hk => ?_, fun j key' v hj => ?_, fun j key' f hj => ?_⟩
  · rcases hloads j key' hj with hj | ⟨rfl, rfl, hfree⟩
    · rcases hloads k key' hk with hk | ⟨rfl, rfl, hfree⟩
      · exact h.alone j k key' hj hk
      · exact absurd hj (not_loads_of_free hfree j)
    · rcases hloads k key hk with hk | ⟨rfl, -, -⟩
      · exact absurd hk (not_loads_of_free hfree k)
      · rfl
  · rw [hcaller j] at hj
    split at hj
    · cases hj
      exact hvalue v rfl
    · exact (h.values j key' v hj).later new
  · rw [hcaller j] at hj
    split at hj
    · next hij =>
        cases hj
        subst hij
        exact (hfault f rfl).imp_left (List.mem_append_left past)
    · exact (h.faults j key' f hj).imp_left (List.mem_append_right new)

theorem exists_caller (h : d.OnItsWay i key) : ∃ old, d.caller? i = some ⟨key, old⟩ :=
  h.elim (fun h => ⟨_, h⟩) fun h => ⟨_, h⟩

theorem Sound.effect {glances : Glances} {outcome : Except Fault V} {deed : Option (Deed V)}
    (h : (⟨d, past⟩ : Scene V).Sound ttl) (he : d.Effect i glances outcome d' deed) :
    (⟨d', deed.toList ++ past⟩ : Scene V).Sound ttl := by
  have hkept : Kept ttl d.cache past := h.kept
  cases he with
  | rests hcache hcallers =>
      refine h.quiet (hcache ▸ hkept) fun j c hj => .inl ?_
      rw [← hj, Desk.caller?_congr hcallers]
  | queues hc hcache hcallers =>
      obtain ⟨old, hc⟩ := exists_caller hc
      have hkept' : Kept ttl d'.cache ([] ++ past) := hcache ▸ hkept
      exact h.advance hkept' hc hcallers (fun _ _ => nofun) (fun _ => nofun) fun _ => nofun
  | finds hc hfresh hcache hcallers =>
      obtain ⟨e, he, rfl⟩ := Cache.find?_of_fresh? hfresh
      have hreturned := (hkept.entries _ e he).1
      obtain ⟨old, hc⟩ := exists_caller hc
      refine h.advance ((hkept.setClock _).store hcache (hreturned.later [_]) fun k => rfl) hc hcallers
        (fun _ _ => nofun) ?_ fun _ => nofun
      rintro v ⟨⟩
      exact hreturned.later [_]
  | findsTooLate hc hcache hcallers =>
      obtain ⟨old, hc⟩ := exists_caller hc
      have hkept' : Kept ttl d'.cache ([] ++ past) := hcache ▸ hkept.setClock _
      refine h.advance hkept' hc hcallers (fun _ _ => nofun) (fun _ => nofun) ?_
      rintro f ⟨⟩
      exact .inr rfl
  | @begins key look call hc hfree hlook hstale hcache hcallers =>
      obtain ⟨old, hc⟩ := exists_caller hc
      have hkept' : Kept ttl d'.cache ([.began i key glances.started] ++ past) := by
        rw [hcache]
        exact (hkept.setClock _).quiet rfl (fun _ _ h => h) fun _ => rfl
      exact h.advance hkept' hc hcallers (fun _ _ _ => hfree) (fun _ => nofun) fun _ => nofun
  | @brings key v since call answer hc hout hcache hanswer hcallers =>
      have hreturned : Returned (.brought i key d.cache.now v :: past) key v :=
        ⟨i, d.cache.now, List.mem_cons_self⟩
      obtain ⟨x, hx, -⟩ := Cache.store_eq_ok_iff.mp hcache
      refine h.advance (hkept.store hcache hreturned fun k => ?_) hc hcallers (fun _ _ => nofun) ?_ ?_
      · rw [Cache.expiry?, hkept.lasts] at hx
        simp only [Deed.touch?, hx, Option.isSome_some, and_true]
      · rintro v' heq
        rcases hanswer with rfl | rfl
        · cases heq
          exact hreturned
        · cases heq
      · rintro f heq
        rcases hanswer with rfl | rfl
        · cases heq
        · cases heq
          exact .inr rfl
  | @bringsTooLate key v since call hc hout hnever hcache hcallers =>
      have hkept' : Kept ttl d'.cache ([.brought i key d.cache.now v] ++ past) := by
        rw [hcache]
        refine hkept.quiet rfl (fun _ _ h => h) fun k => ?_
        rw [Cache.expiry?, hkept.lasts] at hnever
        simp [lastTouch?, Deed.touch?, hnever]
      refine h.advance hkept' hc hcallers (fun _ _ => nofun) (fun _ => nofun) ?_
      rintro f ⟨⟩
      exact .inr rfl
  | @fails key f since call hc hout hd =>
      subst hd
      have hkept' : Kept ttl d.cache ([.failed i key f] ++ past) :=
        hkept.quiet rfl (fun _ _ h => h) fun _ => rfl
      refine h.advance hkept' hc rfl (fun _ _ => nofun) (fun _ => nofun) ?_
      rintro f ⟨⟩
      exact .inl List.mem_cons_self

/-! ## The whole course -/

variable (count : V → Int) {s : Scene V}

/-- Whatever happens at a desk, its past goes on to say what there is to say of it. -/
theorem Sound.step (h : s.Sound ttl) (e : Event V) : (s.step count e).Sound ttl := by
  obtain ⟨d, past⟩ := s
  cases e with
  | turn i glances outcome => exact h.effect (Desk.effect_turn count d i glances outcome)
  | clock now => exact h.quiet (h.kept.setClock now) fun _ _ hc => .inl hc
  | comes key =>
      exact h.quiet h.kept fun i c hc => (Desk.caller?_of_join hc).imp_right .inl
  | forgets key =>
      have hlasts : (d.cache.invalidate key).ttl = d.cache.ttl := by cases key <;> rfl
      have hkept : Kept ttl (d.cache.invalidate key) ([] ++ past) :=
        h.kept.quiet hlasts (fun _ _ he => Cache.find?_of_invalidate he) fun _ => rfl
      exact h.quiet hkept fun _ _ hc => .inl hc

theorem sound_play (ttl : Binary64) (es : List (Event V)) :
    ((opening ttl).play count es).Sound ttl := by
  suffices h : ∀ s : Scene V, s.Sound ttl → (s.play count es).Sound ttl from
    h _ (sound_opening ttl)
  induction es with
  | nil => exact fun s hs => hs
  | cons e es ih => exact fun s hs => ih _ (hs.step count e)

end Steps

end Scene

/-! ## When a call to the loader begins -/

/-- Whether a reading is at most another one. -/
def Reading.AtMost (a b : Reading) : Prop := a.toDecimal.atMost b.toDecimal

/-- Whether the clock does not go back. -/
def Event.Forward (now : Reading) : Event V → Prop
  | .clock later => now.AtMost later
  | .turn _ glances _ => now.AtMost glances.again ∧ glances.again.AtMost glances.started
  | _ => True

theorem Reading.hasReached_iff {now : Reading} {time : Binary64} :
    now.hasReached time = true ↔ time.toDecimal.atMost now.toDecimal := by
  rw [Reading.hasReached, Decimal.atMost]
  cases time.toDecimal.compareValue now.toDecimal with
  | none => simp
  | some o => cases o <;> simp

theorem Reading.hasReached_of_atMost {look now : Reading} {time : Binary64}
    (h : look.hasReached time = true) (hle : look.AtMost now) : now.hasReached time = true :=
  hasReached_iff.mpr (Decimal.atMost_trans (hasReached_iff.mp h) hle)

/-- A stale entry is one whose time has come. -/
theorem Cache.hasReached_of_fresh? {c : Cache V} {key : String} {e : CacheEntry V}
    (h : c.fresh? key = none) (he : c.find? key = some e) : c.now.hasReached e.expires = true := by
  rw [Cache.fresh?, he] at h
  dsimp only at h
  split at h
  · assumption
  · cases h

namespace Scene

variable {ttl : Binary64} {s : Scene V}

/-- A call begins only if there is no entry, or the time after the last touch is over. -/
theorem Sound.began (count : V → Int) (h : s.Sound ttl) {e : Event V}
    (hforward : e.Forward s.desk.cache.now) {i : Nat} {key : String} {time : Reading}
    (hdeed : s.desk.deed count e = some (.began i key time)) :
    s.desk.cache.find? key = none ∨ ∃ last x, lastTouch? ttl key s.past = some last ∧
      last.after? ttl = some x ∧ time.hasReached x = true := by
  cases e with
  | comes key => cases hdeed
  | clock now => cases hdeed
  | forgets key => cases hdeed
  | turn j glances outcome =>
      have heffect := Desk.effect_turn count s.desk j glances outcome
      replace hdeed : Desk.deedOf j outcome s.desk (Desk.turn count glances outcome s.desk j).1 =
        some (.began i key time) := hdeed
      rw [hdeed] at heffect
      cases heffect with
      | @begins _ look call hc hfree hlook hstale hcache hcallers =>
          cases he : s.desk.cache.find? key with
          | none => exact .inl rfl
          | some entry =>
              obtain ⟨-, last, hlast, hexpires⟩ := h.kept.entries key entry he
              -- The entry was stale at the last look, and the clock has not gone back since.
              have hlater : look.AtMost glances.started := by
                rcases hlook with rfl | rfl
                · exact Decimal.atMost_trans hforward.1 hforward.2
                · exact hforward.2
              have hreached := Cache.hasReached_of_fresh? hstale he
              exact .inr ⟨last, entry.expires, hlast, hexpires,
                Reading.hasReached_of_atMost hreached hlater⟩

/-- A call that fails is the fault of its caller alone. -/
theorem step_of_failed (count : V → Int) {d : Desk V} {e : Event V} {i : Nat} {key : String}
    {f : Fault} (hdeed : d.deed count e = some (.failed i key f)) :
    d.step count e = d.setStage i (.answered (.error f)) := by
  cases e with
  | comes key => cases hdeed
  | clock now => cases hdeed
  | forgets key => cases hdeed
  | turn j glances outcome =>
      have heffect := Desk.effect_turn count d j glances outcome
      replace hdeed : Desk.deedOf j outcome d (Desk.turn count glances outcome d j).1 =
        some (.failed i key f) := hdeed
      rw [hdeed] at heffect
      cases heffect with
      | fails hc hout hd => exact hd

end Scene

/-- Whatever has happened at a desk: at most one call to the loader of a key is running; the next one
begins only if the cache has no entry of the key, or the clock has reached the end of the time after
the entry was last stored or hit; every value that was answered was returned by a call for the same
key; a call that fails changes nothing except that its own caller gets the fault; and no caller got
the fault of another one's call. -/
theorem loads_one_at_a_time (count : V → Int) (ttl : Binary64) (es : List (Event V)) :
    let s := (Scene.opening ttl).play count es
    (∀ i j key, s.desk.Loads i key → s.desk.Loads j key → i = j) ∧
      (∀ e i key time, e.Forward s.desk.cache.now →
        s.desk.deed count e = some (.began i key time) →
        s.desk.cache.find? key = none ∨ ∃ last x, lastTouch? ttl key s.past = some last ∧
          last.after? ttl = some x ∧ time.hasReached x = true) ∧
      (∀ i key v, s.desk.caller? i = some ⟨key, .answered (.ok v)⟩ → Returned s.past key v) ∧
      (∀ e i key f, s.desk.deed count e = some (.failed i key f) →
        s.desk.step count e = s.desk.setStage i (.answered (.error f))) ∧
      ∀ i key f, s.desk.caller? i = some ⟨key, .answered (.error f)⟩ →
        .failed i key f ∈ s.past ∨ f = .tooLarge := by
  intro s
  have hs : s.Sound ttl := Scene.sound_play count ttl es
  exact ⟨hs.alone, fun e i key time hforward hdeed => hs.began count hforward hdeed, hs.values,
    fun e i key f hdeed => Scene.step_of_failed count hdeed, hs.faults⟩

/-! ## An example -/

/-- One second. -/
def second : Binary64 := .finite false 4503599627370496 (-52)

/-- The first even second that is so late that one second more makes no difference. -/
def lateSecond : Reading := .whole 9007199254740992

/-- A caller is answered at a late second, and another one comes at the same time. -/
def lateCalls : List (Event Nat) := [
  .clock lateSecond, .comes "a", .turn 0 (.still lateSecond) (.ok 1),
  .turn 0 (.still lateSecond) (.ok 1), .comes "a"]

/-- A value is no longer fresh as soon as it is stored, if the time until which it is fresh is
rounded to the present. -/
theorem stale_at_once :
    let s := (Scene.opening second).play (fun _ => 0) lateCalls
    (s.desk.cache.find? "a").map CacheEntry.value = some 1 ∧
      lastTouch? second "a" s.past = some lateSecond ∧
      lateSecond.since? lateSecond = some (.whole 0) ∧
      (Reading.whole 0).hasReached second = false ∧
      s.desk.deed (fun _ => 0) (.turn 1 (.still lateSecond) (.ok 2)) =
        some (.began 1 "a" lateSecond) :=
  ⟨rfl, rfl, rfl, rfl, rfl⟩

end Rowgate
