import Keysmith.Shell.Parser
import Keysmith.Shell.Process

/-! # Running commands: what all parts share

The parts of running a command do not call each other in a circle.  Where one of them needs
what is built upon it, it gets it from a `Runner`: running a command that stands in a
command, running scripts at signals, and running processes that have not begun.  What a
part does can so be said for any runner. -/

namespace Keysmith.Shell.Run

/-- How a command is run. -/
structure Flags where
  /-- Whether a failure of it is looked at, so that it does not make the shell exit. -/
  tested : Bool
  /-- Whether the shell is over when the command is. -/
  last : Bool

/-- A command like any other. -/
def Flags.plain : Flags := ⟨false, false⟩

/-- A condition. -/
def Flags.condition : Flags := ⟨true, false⟩

/-- The last command of a process. -/
def Flags.final : Flags := ⟨false, true⟩

/-- A part of a command that is not its last one. -/
def Flags.inner (f : Flags) : Flags := { f with last := false }

/-- What the parts of running a command need from the whole. -/
structure Runner where
  /-- Run a command. -/
  command : Flags → Command → ShellM Unit
  /-- Run the scripts for the signals that have arrived. -/
  signals : ShellM Unit
  /-- Run the processes that have not begun, up to their ends. -/
  jobs : ShellM Unit

/-- Set the status. -/
def setStatus (n : Nat) : ShellM Unit := modify fun s => { s with status := n }

/-- Whether commands are passed over. -/
def isSkipping : ShellM Bool := return (← get).skip != .nothing

/-- What becomes of a loop after one of its rounds: whether it goes on. -/
def afterRound : ShellM Bool := do
  match (← get).skip with
  | .nothing => return true
  | .broken n =>
    modify fun s => { s with skip := if n ≤ 1 then .nothing else .broken (n - 1) }
    return false
  | .continued n =>
    modify fun s => { s with skip := if n ≤ 1 then .nothing else .continued (n - 1) }
    return n ≤ 1
  | _ => return false

/-- Stop passing commands over behind a function or a file that returns. -/
def afterReturn (s : State) : State :=
  if s.skip == .returned || s.skip == .left then { s with skip := .nothing } else s

/-- Stand on a line. -/
def setLine (line : Nat) : ShellM Unit := modify fun s => { s with line := line }

end Keysmith.Shell.Run
