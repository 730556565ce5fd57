import Keysmith.Shell.Run.Simple

/-! # Running commands

What the commands of a script do.  All of it is one recursion, because every part can lead
to every other one: a command runs programs, a program can be a shell, and expanding a word
can run a command.

The fuel bounds how deep commands stand in each other; a process that exceeds it has no
room left and is gone.  Loops and lists are bounded by the number of their rounds. -/

namespace Keysmith.Shell.Run

/-- What a command does, by its form, and whether a failure of it counts as its own. -/
def form (run : Runner) (f : Flags) : Command → ShellM Bool
  | .simple line assignments words redirects => do
    simple run f line assignments words redirects
    return true
  | .pipeline all => do
    pipeline run f all
    return true
  | .subshell line body redirects => do
    subshell run f line body redirects
    return true
  | .background body redirects => do
    beginJob body (← Redirection.expand (Expand.text (output run)) redirects)
    return true
  | .negated body => do
    run.command .condition body
    if !(← isSkipping) then setStatus (if (← get).status = 0 then 1 else 0)
    return false
  | .andThen first second => do
    run.command .condition first
    if (← get).status = 0 && !(← isSkipping) then run.command f second
    return false
  | .orElse first second => do
    run.command .condition first
    if (← get).status ≠ 0 && !(← isSkipping) then run.command f second
    return false
  | .sequence commands => do
    sequence run f commands
    return false
  | .branch condition yes no => do
    run.command .condition condition
    if !(← isSkipping) then
      if (← get).status = 0 then run.command f yes
      else match no with
        | some no => run.command f no
        | none => setStatus 0
    return false
  | .loop untilTrue condition body => do
    loop run f untilTrue condition body
    return false
  | .each line name words body => do
    each run f line name words body
    return false
  | .choose line subject arms => do
    choose run f line subject arms
    return false
  | .redirected line body redirects => redirected run f line body redirects
  | .define name body => do
    modify fun s => { s with
      functions := (name, body) :: s.functions.filter (·.1 != name)
      found := s.found.filter (·.1 != name)
      status := 0 }
    return false

/-- Run a command, and handle the signals that arrive before and behind it. -/
def step (run : Runner) (f : Flags) (c : Command) : ShellM Unit := do
  if (← get).has .noexec then settle run f false
  else
    run.signals
    settle run f (← form run f c)

mutual

/-- Run a command. -/
def ofCommand : Nat → Flags → Command → ShellM Unit
  | 0, _, _ => throw (.gone (.signalled Signal.segmentation))
  | fuel + 1, f, c => step ⟨ofCommand fuel, ofSignals fuel, ofJobs fuel⟩ f c

/-- Run the scripts for the signals that have arrived. -/
def ofSignals : Nat → ShellM Unit
  | 0 => pure ()
  | fuel + 1 => fun s =>
    if s.arrived.isEmpty then .ok () s
    else handleSignals ⟨ofCommand fuel, ofSignals fuel, ofJobs fuel⟩ s

/-- Run the processes that have not begun, up to their ends. -/
def ofJobs : Nat → ShellM Unit
  | 0 => pure ()
  | fuel + 1 => fun s =>
    if s.jobs.isEmpty then .ok () s
    else beginJobs ⟨ofCommand fuel, ofSignals fuel, ofJobs fuel⟩ s

end

/-- What runs commands that stand in each other at most so deep. -/
def runner (depth : Nat) : Runner := ⟨ofCommand depth, ofSignals depth, ofJobs depth⟩

end Keysmith.Shell.Run
