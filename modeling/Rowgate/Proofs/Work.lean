import Rowgate.Work

/-!
# What work on a state keeps

Two ways to say that a property outlasts a piece of work, each with one rule for each way to put work
together, so that nobody has to split the outcomes of a whole request into cases.

`Work.KeepsIf view refused` is about outcomes: what `view` shows of the state is the same afterwards
whenever the work comes out in one of some ways. `Work.Yields inv sure P` is about invariants: the
work keeps `inv`, what comes out has `P`, and something does come out if `sure`.
-/

namespace Rowgate.Work

variable {σ τ ω α β : Type}

/-- What comes out of the whole comes out of the second part, after something came out of the first. -/
theorem exists_of_run_bind {x : Work σ α} {f : α → Work σ β} {s : σ} {b : β}
    (h : ((x >>= f).run s).2.result = .ok b) :
    ∃ a, (x.run s).2.result = .ok a ∧ ((f a).run (x.run s).1).2.result = .ok b ∧
      ((x >>= f).run s).1 = ((f a).run (x.run s).1).1 := by
  rw [run_bind] at h ⊢
  cases hx : (x.run s).2.result with
  | error e =>
      rw [hx] at h
      cases h
  | ok a =>
      rw [hx] at h
      exact ⟨a, rfl, h, rfl⟩

/-- What comes out of the whole, as what comes out of the parts. -/
theorem result_run_bind (x : Work σ α) (f : α → Work σ β) (s : σ) :
    ((x >>= f).run s).2.result =
      (x.run s).2.result.bind fun a => ((f a).run (x.run s).1).2.result := by
  rw [run_bind]
  cases (x.run s).2.result with
  | error e => rfl
  | ok a => rfl

theorem result_bind_some_ne_none (x : Work σ α) (f : α → β) (s : σ) :
    ((x >>= fun a => pure (some (f a))).run s).2.result ≠ .ok none := by
  rw [result_run_bind]
  cases (x.run s).2.result with
  | error e => exact nofun
  | ok a => exact nofun

/-- What is only passed on in another form can be passed on in one step. -/
theorem bind_pure_bind {γ : Type} (x : Work σ α) (g : α → β) (f : β → Work σ γ) :
    ((x >>= fun a => pure (g a)) >>= f) = x >>= fun a => f (g a) := by
  have hrun : ∀ s, ((x >>= fun a => pure (g a)) >>= f).run s = (x >>= fun a => f (g a)).run s := by
    intro s
    rw [run_bind, run_bind, run_bind]
    cases (x.run s).2.result with
    | error e => rfl
    | ok a =>
        show (_, Traced.mk (_ ++ [] ++ _) _) = _
        rw [List.append_nil]
        rfl
  exact congrArg Work.mk (funext hrun)

theorem result_run_attempt (x : Work σ α) (s : σ) :
    (x.attempt.run s).2.result = .ok (x.run s).2.result := rfl

theorem state_run_attempt (x : Work σ α) (s : σ) : (x.attempt.run s).1 = (x.run s).1 := rfl

/-! ## What is seen of a state -/

section Views

/-- Work that leaves what is seen of a state as it is. -/
def Keeps (view : σ → ω) (x : Work σ α) : Prop := ∀ s, view (x.run s).1 = view s

/-- Work that leaves what is seen of a state as it is, if it comes out in one of some ways. -/
def KeepsIf (view : σ → ω) (refused : Except Fault α → Prop) (x : Work σ α) : Prop :=
  ∀ s, refused (x.run s).2.result → view (x.run s).1 = view s

variable {view : σ → ω} {x : Work σ α} {f : α → Work σ β} {refused : Except Fault α → Prop}
  {refused' : Except Fault β → Prop}

theorem keeps_ofTraced (t : Traced α) : (ofTraced t : Work σ α).Keeps view := fun _ => rfl

theorem keeps_ofResult (r : Except Fault α) : (ofResult r : Work σ α).Keeps view := fun _ => rfl

theorem keeps_pure (a : α) : (pure a : Work σ α).Keeps view := fun _ => rfl

theorem keeps_fail (e : Fault) : (fail e : Work σ α).Keeps view := fun _ => rfl

theorem keeps_state : (state : Work σ σ).Keeps view := fun _ => rfl

theorem Keeps.keepsIf (hx : x.Keeps view) : x.KeepsIf view refused := fun s _ => hx s

theorem KeepsIf.keeps (hx : x.KeepsIf view fun _ => True) : x.Keeps view := fun s => hx s trivial

theorem Keeps.attempt (hx : x.Keeps view) : x.attempt.Keeps view := hx

/-- Refusals of the second part carry over to the whole, if the first part changes nothing. -/
theorem Keeps.bind_keepsIf (hx : x.Keeps view) (hf : ∀ a, (f a).KeepsIf view refused') :
    (x >>= f).KeepsIf view refused' := by
  intro s hs
  rw [run_bind] at hs ⊢
  cases hr : (x.run s).2.result with
  | error e => exact hx s
  | ok a =>
      rw [hr] at hs
      exact (hf a _ hs).trans (hx s)

theorem Keeps.bind (hx : x.Keeps view) (hf : ∀ a, (f a).Keeps view) : (x >>= f).Keeps view :=
  (hx.bind_keepsIf fun a => (hf a).keepsIf).keeps

/-- What is seen after the whole is what is seen after the first part, if the second part leaves it
as it is. -/
theorem view_run_bind (hf : ∀ a, (f a).Keeps view) (s : σ) :
    view ((x >>= f).run s).1 = view (x.run s).1 := by
  rw [run_bind]
  cases (x.run s).2.result with
  | error e => rfl
  | ok a => exact hf a _

/-- A refusal of the whole is one of the first part, if the second part changes nothing and refuses
only after a refusal. -/
theorem KeepsIf.bind_keeps (hx : x.KeepsIf view refused) (hf : ∀ a, (f a).Keeps view)
    (herror : ∀ e, refused' (.error e) → refused (.error e))
    (hok : ∀ a s, refused' ((f a).run s).2.result → refused (.ok a)) :
    (x >>= f).KeepsIf view refused' := by
  intro s hs
  have hx' := hx s
  rw [run_bind] at hs ⊢
  cases hr : (x.run s).2.result with
  | error e =>
      rw [hr] at hs hx'
      exact hx' (herror e hs)
  | ok a =>
      rw [hr] at hs hx'
      exact (hf a _).trans (hx' (hok a _ hs))

/-- What came out of an attempt tells whether there was a refusal. -/
theorem KeepsIf.attempt (hx : x.KeepsIf view refused) :
    x.attempt.KeepsIf view fun r => ∀ outcome, r = .ok outcome → refused outcome :=
  fun s hs => hx s (hs _ rfl)

theorem KeepsIf.onPart {part : τ → σ} {replace : τ → σ → τ} {whole : τ → ω}
    (hpart : ∀ t, whole t = view (part t)) (hreplace : ∀ t s, whole (replace t s) = view s)
    (hx : x.KeepsIf view refused) : (x.onPart part replace).KeepsIf whole refused := by
  intro t ht
  show whole (replace t (x.run (part t)).1) = whole t
  rw [hreplace, hpart]
  exact hx _ ht

end Views

/-! ## Invariants -/

section Invariants

/-- Work that keeps an invariant and comes out with a property, if it comes out; it does if `sure`. -/
def Yields (inv : σ → Prop) (sure : Prop) (P : α → Prop) (x : Work σ α) : Prop :=
  ∀ s, inv s → inv (x.run s).1 ∧ (∀ a, (x.run s).2.result = .ok a → P a) ∧
    (sure → ∃ a, (x.run s).2.result = .ok a)

variable {inv : σ → Prop} {sure : Prop} {P : α → Prop} {P' : α → Prop} {Q : β → Prop}
  {x : Work σ α} {f : α → Work σ β}

theorem yields_ofTraced {t : Traced α} (h : ∀ a, t.result = .ok a → P a)
    (hsure : sure → ∃ a, t.result = .ok a) : (ofTraced t : Work σ α).Yields inv sure P :=
  fun _ hs => ⟨hs, h, hsure⟩

theorem yields_pure {a : α} (h : P a) : (pure a : Work σ α).Yields inv sure P :=
  yields_ofTraced (fun _ ha => Except.ok.inj ha ▸ h) fun _ => ⟨a, rfl⟩

/-- Nothing has to be known of what comes out, if it need not come out. -/
theorem yields_any (t : Traced α) : (ofTraced t : Work σ α).Yields inv False fun _ => True :=
  yields_ofTraced (fun _ _ => trivial) False.elim

theorem yields_note (channel : Channel) (level : Level) (message : String) :
    (note channel level message : Work σ Unit).Yields inv sure fun _ => True :=
  yields_ofTraced (fun _ _ => trivial) fun _ => ⟨(), rfl⟩

theorem yields_state : (state : Work σ σ).Yields inv sure inv :=
  fun s hs => ⟨hs, fun _ ha => Except.ok.inj ha ▸ hs, fun _ => ⟨s, rfl⟩⟩

theorem yields_change {step : σ → σ} (h : ∀ s, inv s → inv (step s)) :
    (change step).Yields inv sure fun _ => True :=
  fun s hs => ⟨h s hs, fun _ _ => trivial, fun _ => ⟨(), rfl⟩⟩

/-- Work that leaves all that an invariant goes by as it is keeps the invariant. -/
theorem Keeps.yields {view : σ → ω} (hx : x.Keeps view)
    (h : ∀ s s', view s' = view s → inv s → inv s') : x.Yields inv False fun _ => True :=
  fun s hs => ⟨h s _ (hx s) hs, fun _ _ => trivial, False.elim⟩

theorem Yields.bind (hx : x.Yields inv sure P) (hf : ∀ a, P a → (f a).Yields inv sure Q) :
    (x >>= f).Yields inv sure Q := by
  intro s hs
  obtain ⟨hinv, hP, hsure⟩ := hx s hs
  rw [run_bind]
  cases hr : (x.run s).2.result with
  | error e =>
      refine ⟨hinv, fun _ h => (nomatch h), fun h => ?_⟩
      obtain ⟨a, ha⟩ := hsure h
      rw [hr] at ha
      cases ha
  | ok a => exact hf a (hP a hr) _ hinv

theorem Yields.imp {sure' : Prop} (hx : x.Yields inv sure P) (h : sure' → sure) :
    x.Yields inv sure' P := by
  intro s hs
  obtain ⟨hinv, hP, hsure⟩ := hx s hs
  exact ⟨hinv, hP, fun h' => hsure (h h')⟩

theorem Yields.weaken (hx : x.Yields inv sure P) (h : ∀ a, P a → P' a) : x.Yields inv sure P' := by
  intro s hs
  obtain ⟨hinv, hP, hsure⟩ := hx s hs
  exact ⟨hinv, fun a ha => h a (hP a ha), hsure⟩

/-- Work that keeps any state that is seen in some way as it is seen. -/
theorem keeps_of_yields {view : σ → ω}
    (h : ∀ v, x.Yields (fun s => view s = v) sure fun _ => True) : x.Keeps view :=
  fun s => (h (view s) s rfl).1

theorem Yields.attempt (hx : x.Yields inv sure P) :
    x.attempt.Yields inv sure fun outcome =>
      (∀ a, outcome = .ok a → P a) ∧ (sure → ∃ a, outcome = .ok a) := by
  intro s hs
  obtain ⟨hinv, hP, hsure⟩ := hx s hs
  exact ⟨hinv, fun _ h => Except.ok.inj h ▸ ⟨hP, hsure⟩, fun _ => ⟨_, rfl⟩⟩

theorem Yields.onPart {part : τ → σ} {replace : τ → σ → τ} {whole : τ → Prop}
    (hpart : ∀ t, whole t → inv (part t)) (hreplace : ∀ t s, whole t → inv s → whole (replace t s))
    (hx : x.Yields inv sure P) : (x.onPart part replace).Yields whole sure P := by
  intro t ht
  obtain ⟨hinv, hrest⟩ := hx (part t) (hpart t ht)
  exact ⟨hreplace t _ ht hinv, hrest⟩

end Invariants

end Rowgate.Work
