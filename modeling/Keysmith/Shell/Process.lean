import Keysmith.Shell.Builtin.Signals

/-! # Processes of a shell

A copy of a shell that runs commands of its own, and what the shell does when such a
process has ended.  The copy begins with what the shell has, but for the scripts to run at
signals; what it changes is lost, but for what all processes share. -/

namespace Keysmith.Shell

/-- The beginning of a copy of a shell. -/
def Context.copied (c : Context) (process : Nat) : Context :=
  { c with traps := c.traps.filter (·.2.isEmpty), process := process }

namespace ShellM

/-- Get the number of a new process. -/
def newProcess : ShellM Nat := modifyGet fun s =>
  let (process, system) := s.system.newProcess
  (process, { s with system := system })

/-- Run a step in a process of its own, from a given beginning on, and wait for its end. -/
def inProcess (process : Nat) (begin_ : Context) (x : ShellM Unit) : ShellM ExitStatus :=
  fun ⟨context, system, jobs, arrived, printed⟩ =>
    let (files, pipes) := (system.files.size, system.pipes.size)
    let (ending, system) := match x ⟨begin_, system, [], [], []⟩ with
      | .ok _ t => (ExitStatus.exited (t.status % 256), t.system)
      | .error (.gone ending) t => (ending, t.system)
      | .error _ t => (ExitStatus.exited (t.status % 256), t.system)
    let system := (system.endProcess process).forget files pipes
    .ok ending ⟨context, system, jobs, arrived, printed⟩

/-- Run a step in a copy of the shell, which can begin with a change, and wait for its
    end. -/
def inCopy (change : Context → Context) (x : ShellM Unit) : ShellM ExitStatus := do
  let process ← newProcess
  let own := (← get).process
  modify fun s => { s with system := s.system.keepHome own }
  let ending ← inProcess process (change ((← get).toContext.copied process)) x
  modify fun s => { s with system := s.system.goHome own }
  return ending

/-- Report the end of a process by a signal, unless that is not worth a word. -/
def reportEnd (ending : ExitStatus) : ShellM Unit := do
  match ending with
  | .signalled n =>
    let report := Signal.report n
    if n ≠ Signal.pipe && !report.isEmpty then printError (report ++ "\n")
  | .exited _ => pure ()

/-- Take note of the end of a process: signals that it sent arrive, and its end can be
    reported. -/
def noteEnd (isReported : Bool) (ending : ExitStatus) : ShellM Unit := do
  receiveSent
  if isReported then reportEnd ending
  receive Signal.childEnd

/-- Restore where descriptors lead to if a step stops the shell, and also otherwise unless
    that is to be kept. -/
def restoringHandles {α : Type} (keeps : Bool) (handles : List (Nat × Nat)) (x : ShellM α) :
    ShellM α := fun s =>
  match x s with
  | .ok a s => .ok a (if keeps then s else { s with handles := handles })
  | .error e s => .error e { s with handles := handles }

/-- Put back all that has been kept beyond so many commands.  The fuel is how many there
    are. -/
def endKeepingTo (depth : Nat) : Nat → ShellM Unit
  | 0 => pure ()
  | fuel + 1 => do
    if depth < (← get).kept.length then
      endKeeping
      endKeepingTo depth fuel

end ShellM

end Keysmith.Shell
