import Keysmith.Shell.Expand
import Keysmith.Shell.Redirection
import Keysmith.Shell.Run.Source

/-! # Processes from beginning to end

Processes run one after another.  A process for which the shell does not wait runs when it
is waited for, or before the next process that the shell begins, or at the end. -/

namespace Keysmith.Shell.Run

/-- Run a step up to the end of the process: the script for the end is run, and what has been
    begun without waiting comes to its end. -/
def finish (run : Runner) (x : ShellM Unit) : ShellM Unit := do
  match ← ShellM.catching x with
  | .error (.gone ending) =>
    run.jobs
    throw (.gone ending)
  | stop =>
    let exits := match stop with
      | .error .exited => true
      | _ => false
    modify fun s => { s with
      status := if exits then s.statusBefore.getD s.status else s.status
      statusBefore := none
      skip := .nothing
      loops := 0
      inPrompt := false }
    let s ← get
    match s.traps.lookup 0 with
    | none => pure ()
    | some text =>
      set { s with traps := s.traps.filter (·.1 != 0), statusBefore := some s.status }
      match ← ShellM.catching (source run .plain text) with
      | .ok _ => setStatus s.status
      | .error .exited => setStatus ((← get).statusBefore.getD s.status)
      | .error (.gone ending) =>
        run.jobs
        throw (.gone ending)
      | .error _ => pure ()
    let _ ← ShellM.flush
    run.jobs

/-- Run a step in a copy of the shell, which can begin with a change, and wait for its end. -/
def inChild (run : Runner) (change : Context → Context) (x : ShellM Unit) :
    ShellM ExitStatus := do
  run.jobs
  let ending ← ShellM.inCopy change (finish run x)
  ShellM.noteEnd true ending
  return ending

/-- Let a descriptor lead to an open file, if one is given. -/
def connected (descriptor : Nat) (id : Option Nat) (c : Context) : Context :=
  match id with
  | some id => { c with handles := (descriptor, id) :: c.handles.filter (·.1 != descriptor) }
  | none => c

/-- What a command prints. -/
def output (run : Runner) : Expand.Runner := fun command => do
  match command with
  | none => return ""
  | some c =>
    run.jobs
    let s ← get
    let (files, pipes) := (s.system.files.size, s.system.pipes.size)
    let ((_, writeEnd, number), system) := s.system.makePipe none
    set { s with system := system }
    let ending ← ShellM.inCopy (connected 1 writeEnd) (finish run (run.command .final c))
    let bs := (← get).system.pipeBytes number
    modify fun s => { s with
      system := s.system.forget files pipes
      substituted := Job.statusOf ending }
    ShellM.noteEnd true ending
    return Text.Octets.ofBytes bs

/-- Carry out redirections. -/
def redirectAll (run : Runner) (targets : List (Redirect × String)) : ShellM Unit :=
  targets.forM fun (r, target) =>
    Redirection.carryOut (fun number isExpanded => do
      let text := (← get).documents.getD number []
      if isExpanded then Expand.document (output run) text
      else Expand.text (output run) text) r target

/-! ## Without waiting -/

/-- Add a process for which the shell does not wait. -/
def beginJob (body : Command) (targets : List (Redirect × String)) : ShellM Unit := do
  let process ← ShellM.newProcess
  modify fun s =>
    { s with
      system := s.system.keepHome process
      jobs := Job.add s.jobs process (s.toContext.copied process, body, targets)
      lastBackground := process
      status := 0 }

/-- Change the job of a process. -/
def withJob (process : Nat) (change : Job → Job) (s : State) : State :=
  { s with jobs := s.jobs.map fun (j : Job) => if j.process = process then change j else j }

/-- What a process does for which the shell does not wait: nothing can be read. -/
def jobBody (run : Runner) (body : Command) (targets : List (Redirect × String)) :
    ShellM Unit := do
  modify fun s =>
    let (id, system) := s.system.addFile ⟨.null, 0, true, true, false⟩
    State.connect { s with system := system } 0 id
  redirectAll run targets
  run.command .final body

/-- Run the processes that have not begun, up to their ends. -/
def beginJobs (run : Runner) : ShellM Unit := do
  let waiting := (← get).jobs.filter (·.start.isSome)
  waiting.reverse.forM fun j => do
    match j.start with
    | none => pure ()
    | some (begin_, body, targets) =>
      let own := (← get).process
      modify fun s => withJob j.process (fun j => { j with start := none })
        { s with system := (s.system.keepHome own).goHome j.process }
      let ending ← ShellM.inProcess j.process begin_ (finish run (jobBody run body targets))
      modify fun s => withJob j.process (fun j => { j with ending := some ending })
        { s with system := s.system.goHome own }
      ShellM.noteEnd false ending

/-- The status that the last signal that has arrived leads to. -/
def interruption? : ShellM (Option Nat) := do
  return (← get).arrived.getLast?.map (128 + ·)

/-- Wait for the processes of some words; the status of the last one, which is given for no
    words. -/
def waitFor (status : Nat) : List String → ShellM Nat
  | [] => return status
  | word :: rest => do
    let found ←
      if word.toList.head? == some '%' then some <$> Builtin.jobNamed word
      else do
        let process ← ShellM.number word
        pure ((← get).jobs.find? (·.process = process))
    match found with
    | none => waitFor status rest
    | some j =>
      match ← interruption? with
      | some status => return status
      | none =>
        let ending := j.ending.getD (.exited 0)
        if !j.isWaited then ShellM.reportEnd ending
        modify (withJob j.process fun j => { j with isWaited := true })
        waitFor (Job.statusOf ending) rest

/-- Wait for processes. -/
def wait (run : Runner) : Builtin := fun arguments => do
  let words ← Builtin.operands arguments
  run.jobs
  if words.isEmpty then
    modify fun s => { s with jobs := s.jobs.map fun (j : Job) => { j with isWaited := true } }
    return (← interruption?).getD 0
  waitFor 127 words

end Keysmith.Shell.Run
