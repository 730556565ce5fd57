import Keysmith.Shell.Builtin.Jobs

/-! # Commands for signals -/

namespace Keysmith.Shell

namespace ShellM

/-- Get a signal. -/
def receive (signal : Nat) : ShellM Unit := do
  let s ← get
  if Signal.isFinal signal then throw (.gone (.signalled signal))
  if signal = 0 || s.deaf.contains signal then return
  match s.traps.lookup signal with
  | some "" => return
  | some _ => set { s with arrived := s.arrived.erase signal ++ [signal] }
  | none =>
    if !Signal.isHarmless signal then throw (.gone (.signalled signal))

/-- Get the signals that other processes have sent. -/
def receiveSent : ShellM Unit := do
  let s ← get
  let (signals, system) := s.system.takeSent s.process
  if !signals.isEmpty then
    set { s with system := system }
    signals.forM receive

end ShellM

namespace Builtin

/-- Set what is done at signals of the given names. -/
def setTraps (action : Option String) : List String → ShellM Nat
  | [] => return 0
  | name :: rest => do
    match Signal.ofWord? 0 name with
    | none =>
      ShellM.printError s!"trap: {name}: bad trap\n"
      return 1
    | some n =>
      let added := ((action.filter (· != "-")).map fun a => (n, a)).toList
      modify fun s => { s with traps := added ++ s.traps.filter (·.1 != n) }
      setTraps action rest

/-- Set what is done at signals, or list it. -/
def trap : Builtin := fun arguments => do
  match ← operands arguments with
  | [] =>
    let sorted := (← get).traps.mergeSort fun a b => a.1 ≤ b.1
    sorted.forM fun (n, action) =>
      ShellM.print s!"trap -- {quoteWord action} {Signal.name n}\n"
    return 0
  | [name] => setTraps none [name]
  | action :: names =>
    if (Signal.ofNumber? action).isSome then setTraps none (action :: names)
    else setTraps (some action) names

/-- How `kill` is used. -/
def killUsage : String :=
  "Usage: kill [-s sigspec | -signum | -sigspec] [pid | job]... or\nkill -l [exitstatus]"

/-- Print the names of signals: all, or that of a number or of a status. -/
def listSignals : List String → ShellM Nat
  | [] => do
    ShellM.print "0\n"
    (List.range (Signal.count - 1)).forM fun n => ShellM.print (Signal.name (n + 1) ++ "\n")
    return 0
  | word :: _ => do
    let n ← ShellM.number word
    let signal := if 128 < n then n - 128 else n
    if signal = 0 || Signal.count ≤ signal then
      ShellM.fail s!"invalid signal number or exit status: {word}"
    ShellM.print (Signal.name signal ++ "\n")
    return 0

/-- Send a signal to a process; whether there is such a process. -/
def send (signal process : Nat) : ShellM Bool := do
  let s ← get
  if process = s.process || process = 0 then
    ShellM.receive signal
    return true
  else match s.jobs.find? (·.process = process) with
    | some job =>
      match job.start with
      | some (c, _, _) =>
        let isKilled := signal != 0 && (Signal.isFinal signal ||
          !(Signal.isHarmless signal || c.deaf.contains signal ||
            c.traps.any fun t => t.1 = signal))
        if isKilled then
          set { s with jobs := s.jobs.map fun (j : Job) =>
            if j.process = process then
              { j with start := none, ending := some (.signalled signal) }
            else j }
        return true
      | none => return true
    | none =>
      if s.system.processes.contains process then
        if signal != 0 then
          set { s with system := { s.system with sent := s.system.sent ++ [(process, signal)] } }
        return true
      else return process = 1

/-- Send a signal to processes. -/
def sendAll (signal status : Nat) : List String → ShellM Nat
  | [] => return status
  | word :: rest => do
    match word.toList with
    | '%' :: _ =>
      let _ ← jobNamed word
      ShellM.warn s!"{OsError.noProcess.description}\n"
      sendAll signal 1 rest
    | '-' :: digits =>
      let _ ← ShellM.number (String.ofList digits)
      ShellM.warn s!"{OsError.noProcess.description}\n"
      sendAll signal 1 rest
    | _ =>
      let process ← ShellM.number word
      if ← send signal process then sendAll signal status rest
      else
        ShellM.warn s!"{OsError.noProcess.description}\n"
        sendAll signal 1 rest

/-- The signal of a word for an option. -/
def namedSignal (word : String) : ShellM Nat := do
  match Signal.ofWord? 1 word with
  | some n => return n
  | none => ShellM.fail s!"invalid signal number or name: {word}"

/-- Send signals to processes, or list the names of signals. -/
def kill : Builtin := fun arguments => do
  let ended (signal : Nat) (targets : List String) : ShellM Nat := do
    if targets.isEmpty then ShellM.fail killUsage
    sendAll signal 0 targets
  match arguments with
  | [] => ShellM.fail killUsage
  | word :: rest =>
    match word.toList with
    | '-' :: name =>
      match Signal.ofWord? 1 (String.ofList name) with
      | some n => ended n rest
      | none =>
        let (given, targets) ← options [('l', false), ('s', true)] arguments
        let signals ← (given.filter (·.letter == 's')).mapM fun g => namedSignal g.argument
        if has given 'l' then
          if !signals.isEmpty then ShellM.fail killUsage
          listSignals targets
        else ended (signals.getLast?.getD 15) targets
    | _ => ended 15 arguments

end Builtin

end Keysmith.Shell
