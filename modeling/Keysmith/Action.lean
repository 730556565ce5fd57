import Keysmith.FileSystem.Disk

/-! # Actions

An action is a step of a run.  It works on the disk and on a memory of its own, it
says something to the log, and it ends with a value or with an error; what it did
before an error stays done.  The log can only grow: an action gives the events it
adds, and `bind` puts those of the second action behind those of the first. -/

namespace Keysmith

/-- How much an event of the log matters. -/
inductive Level where
  | debug
  | info
  | warn
  deriving DecidableEq, Repr

/-- An event of the log. -/
structure Event where
  level : Level
  text : String
  deriving DecidableEq, Repr

/-- What comes of an action. -/
structure Outcome (τ ε α : Type) where
  result : Except ε α
  disk : Disk
  memory : τ
  events : List Event

/-- A step of a run, with a memory of type `τ`, errors of type `ε` and values of type
    `α`. -/
def Action (τ ε α : Type) := Disk → τ → Outcome τ ε α

namespace Action

variable {τ ε α β : Type}

/-- Do nothing. -/
def pure (a : α) : Action τ ε α := fun d m => ⟨.ok a, d, m, []⟩

/-- Do one action after another, unless the first one fails. -/
def bind (x : Action τ ε α) (f : α → Action τ ε β) : Action τ ε β := fun d m =>
  let o := x d m
  match o.result with
  | .error e => ⟨.error e, o.disk, o.memory, o.events⟩
  | .ok a =>
    let o' := f a o.disk o.memory
    ⟨o'.result, o'.disk, o'.memory, o.events ++ o'.events⟩

/-- Actions in sequence. -/
instance : Monad (Action τ ε) where
  pure := pure
  bind := bind

/-- Fail. -/
def fail (e : ε) : Action τ ε α := fun d m => ⟨.error e, d, m, []⟩

/-- Succeed or fail as already decided. -/
def ofExcept (r : Except ε α) : Action τ ε α := fun d m => ⟨r, d, m, []⟩

/-- Say something to the log. -/
def log (level : Level) (text : String) : Action τ ε Unit := fun d m =>
  ⟨.ok (), d, m, [⟨level, text⟩]⟩

/-- Work on the disk. -/
def onDisk (f : Disk → Except ε α × Disk) : Action τ ε α := fun d m =>
  ⟨(f d).1, (f d).2, m, []⟩

/-- Work on the disk by an operation that changes nothing if it fails. -/
def onDisk? (f : Disk → Except ε Disk) : Action τ ε Unit := fun d m =>
  match f d with
  | .ok d' => ⟨.ok (), d', m, []⟩
  | .error e => ⟨.error e, d, m, []⟩

/-- The same action with its errors put differently. -/
def mapError {ε' : Type} (f : ε → ε') (x : Action τ ε α) : Action τ ε' α := fun d m =>
  let o := x d m
  ⟨o.result.mapError f, o.disk, o.memory, o.events⟩

/-- The same action beside a memory that it does not touch. -/
def beside {σ : Type} (x : Action τ ε α) : Action (σ × τ) ε α := fun d m =>
  let o := x d m.2
  ⟨o.result, o.disk, (m.1, o.memory), o.events⟩

/-- Change the memory. -/
def remember (f : τ → τ) : Action τ ε Unit := fun d m => ⟨.ok (), d, f m, []⟩

end Action

end Keysmith
