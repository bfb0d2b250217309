import Rowgate.Log

/-!
# Work on a state

Work that may change a state, may fail, and logs on the way what it does. A failure keeps the
changes and the entries made until then, as those who watch the state see them.
-/

namespace Rowgate

/-- Work on a state of type `σ`. -/
structure Work (σ α : Type) where
  run : σ → σ × Traced α

namespace Work

variable {σ τ α β : Type}

/-- Work that leaves the state as it is. -/
def ofTraced (t : Traced α) : Work σ α := ⟨fun s => (s, t)⟩

def ofResult (r : Except Fault α) : Work σ α := ofTraced (Traced.ofResult r)

/-- Goes on with what comes out of a piece of work, if something does. -/
def andThen (x : Work σ α) (f : α → Work σ β) : Work σ β :=
  ⟨fun s =>
    let (s', t) := x.run s
    match t.result with
    | .ok a =>
      let (s'', u) := (f a).run s'
      (s'', ⟨t.log ++ u.log, u.result⟩)
    | .error e => (s', ⟨t.log, .error e⟩)⟩

instance : Monad (Work σ) where
  pure a := ofResult (.ok a)
  bind := andThen

def fail (f : Fault) : Work σ α := ofResult (.error f)

def note (channel : Channel) (level : Level) (message : String) : Work σ Unit :=
  ofTraced (Traced.note channel level message)

def state : Work σ σ := ⟨fun s => (s, Traced.ofResult (.ok s))⟩

def change (f : σ → σ) : Work σ Unit := ⟨fun s => (f s, Traced.ofResult (.ok ()))⟩

/-- The outcome of a piece of work; the work itself cannot fail. -/
def attempt (x : Work σ α) : Work σ (Except Fault α) :=
  ⟨fun s =>
    let (s', t) := x.run s
    (s', ⟨t.log, .ok t.result⟩)⟩

def onPart (part : τ → σ) (replace : τ → σ → τ) (x : Work σ α) : Work τ α :=
  ⟨fun s =>
    let (s', t) := x.run (part s)
    (replace s s', t)⟩

@[simp] theorem run_pure (a : α) (s : σ) :
    (pure a : Work σ α).run s = (s, Traced.ofResult (.ok a)) := rfl

@[simp] theorem run_ofTraced (t : Traced α) (s : σ) : (ofTraced t).run s = (s, t) := rfl

@[simp] theorem run_ofResult (r : Except Fault α) (s : σ) :
    (ofResult r).run s = (s, Traced.ofResult r) := rfl

theorem run_bind (x : Work σ α) (f : α → Work σ β) (s : σ) :
    (x >>= f).run s =
      match (x.run s).2.result with
      | .ok a =>
        (((f a).run (x.run s).1).1,
          ⟨(x.run s).2.log ++ ((f a).run (x.run s).1).2.log, ((f a).run (x.run s).1).2.result⟩)
      | .error e => ((x.run s).1, ⟨(x.run s).2.log, .error e⟩) := rfl

/-- Work that goes by the state goes by the one that it runs in. -/
theorem run_state_bind (f : σ → Work σ β) (s : σ) : (state >>= f).run s = (f s).run s := rfl

/-! ## Outcomes -/

/-- What work comes to, and the state that it leaves. -/
def outcome (x : Work σ α) (s : σ) : Except Fault α × σ := ((x.run s).2.result, (x.run s).1)

@[simp] theorem outcome_pure (a : α) (s : σ) : (pure a : Work σ α).outcome s = (.ok a, s) := rfl

@[simp] theorem outcome_ofTraced (t : Traced α) (s : σ) :
    (ofTraced t).outcome s = (t.result, s) := rfl

@[simp] theorem outcome_ofResult (r : Except Fault α) (s : σ) : (ofResult r).outcome s = (r, s) := rfl

@[simp] theorem outcome_fail (e : Fault) (s : σ) :
    (fail e : Work σ α).outcome s = (.error e, s) := rfl

@[simp] theorem outcome_change (f : σ → σ) (s : σ) : (change f).outcome s = (.ok (), f s) := rfl

@[simp] theorem outcome_state_bind (f : σ → Work σ β) (s : σ) :
    (state >>= f).outcome s = (f s).outcome s := rfl

theorem outcome_bind (x : Work σ α) (f : α → Work σ β) (s : σ) :
    (x >>= f).outcome s =
      match x.outcome s with
      | (.ok a, s') => (f a).outcome s'
      | (.error e, s') => (.error e, s') := by
  rw [outcome, run_bind, outcome]
  cases (x.run s).2.result <;> rfl

/-- What is passed on in another form leaves the state that it left. -/
theorem outcome_bind_pure (x : Work σ α) (g : α → β) (s : σ) :
    (x >>= fun a => pure (g a)).outcome s = ((x.outcome s).1.map g, (x.outcome s).2) := by
  rw [outcome_bind]
  cases hx : x.outcome s with
  | mk result s' => cases result <;> rfl

end Work

end Rowgate
