import Rowgate.Fault

/-!
# Logged work

Work that may fail and tells on the way what it does. A `Traced` value is an outcome together with
the entries that were logged until then, in order. What is logged never decides what comes out:
`Traced.result_bind` says that the outcomes alone combine as if there were no log.
-/

namespace Rowgate

inductive Level
  | debug
  | info
  | warning
  | error
  deriving DecidableEq

namespace Level

/-- The rank of a level among the levels. -/
def rank : Level → Nat
  | .debug => 0
  | .info => 1
  | .warning => 2
  | .error => 3

def name : Level → String
  | .debug => "DEBUG"
  | .info => "INFO"
  | .warning => "WARNING"
  | .error => "ERROR"

end Level

inductive Channel
  | files
  | tables
  | requests
  | cache
  | chain
  deriving DecidableEq

structure Entry where
  channel : Channel
  level : Level
  message : String
  deriving DecidableEq

/-- An outcome and what was logged before it. -/
structure Traced (α : Type) where
  log : List Entry
  result : Except Fault α

namespace Traced

/-- Work that logs nothing. -/
def ofResult {α : Type} (r : Except Fault α) : Traced α := ⟨[], r⟩

instance : Monad Traced where
  pure a := ofResult (.ok a)
  bind x f :=
    match x.result with
    | .ok a => ⟨x.log ++ (f a).log, (f a).result⟩
    | .error e => ⟨x.log, .error e⟩

def note (channel : Channel) (level : Level) (message : String) : Traced Unit :=
  ⟨[⟨channel, level, message⟩], .ok ()⟩

def fail {α : Type} (f : Fault) : Traced α := ofResult (.error f)

@[simp] theorem result_pure {α : Type} (a : α) : (pure a : Traced α).result = .ok a := rfl

@[simp] theorem log_pure {α : Type} (a : α) : (pure a : Traced α).log = [] := rfl

@[simp] theorem result_ofResult {α : Type} (r : Except Fault α) : (ofResult r).result = r := rfl

@[simp] theorem log_ofResult {α : Type} (r : Except Fault α) : (ofResult r).log = [] := rfl

@[simp] theorem result_note (c : Channel) (l : Level) (m : String) :
    (note c l m).result = .ok () := rfl

@[simp] theorem log_note (c : Channel) (l : Level) (m : String) :
    (note c l m).log = [⟨c, l, m⟩] := rfl

/-- Outcomes combine whatever is logged. -/
@[simp] theorem result_bind {α β : Type} (x : Traced α) (f : α → Traced β) :
    (x >>= f).result = x.result.bind fun a => (f a).result := by
  obtain ⟨log, result⟩ := x
  cases result <;> rfl

theorem log_bind {α β : Type} (x : Traced α) (f : α → Traced β) :
    (x >>= f).log =
      match x.result with
      | .ok a => x.log ++ (f a).log
      | .error _ => x.log := by
  obtain ⟨log, result⟩ := x
  cases result <;> rfl

end Traced

end Rowgate
