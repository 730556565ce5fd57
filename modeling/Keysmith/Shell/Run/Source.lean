import Keysmith.Shell.Run.Basic

/-! # Running texts

The commands of a text are read and run one by one, so that an alias or a function counts
from the next line on.  Scripts for signals are such texts. -/

namespace Keysmith.Shell.Run

/-- Show the lines of a script that have been read. -/
def showLines (before after : List Char) : ShellM Unit := do
  if (← get).has .verbose then
    ShellM.printError (String.ofList (before.take (before.length - after.length)))

/-- Show the lines of a script up to one that cannot be read. -/
def showLinesTo (first last : Nat) (before : List Char) : ShellM Unit := do
  if (← get).has .verbose then
    let lines := (Text.pieces (· == '\n') before).take (last + 1 - first)
    lines.forM fun l => ShellM.printError (String.ofList l ++ "\n")

/-- Read the next command of a source, with the aliases as they are now.  Lines that a shell
    reads from a file can be shown. -/
def nextCommand (shows : Bool) (source : Source) : ShellM (Parser.Next × Source) := do
  let s ← get
  let before := source.input.remainder
  match Parser.next { source with aliases := s.aliases, documents := s.documents } with
  | .error e =>
    if shows then showLinesTo source.input.line e.line before
    setLine e.line
    ShellM.fail e.message
  | .ok (next, source) =>
    if shows then showLines before source.input.remainder
    modify fun s => { s with documents := source.documents, readLine := source.input.line }
    return (next, source)

/-- Run the commands of a text, each in a way that may depend on whether anything follows it;
    the status of the last one. -/
def sourceBy (run : Runner) (shows : Bool) (flags : Bool → Flags) (text : String) :
    ShellM Nat := do
  let s ← get
  let readLine := s.readLine
  let status ← ShellM.repeating (fun (source, status) => do
    let (next, source) ← nextCommand shows source
    match next with
    | .nothing => return .inr status
    | .blank =>
      run.signals
      return .inl (source, status)
    | .command c =>
      run.command (flags (source.putBack.any Token.isEnd)) c
      let status := (← get).status
      if ← isSkipping then return .inr status else return .inl (source, status))
    Prod.snd ShellM.maxRounds (Source.ofText text 1 s.aliases s.documents, 0)
  modify fun s => { s with readLine := readLine }
  return status

/-- Run the commands of a text that stands in a script; the status of the last one. -/
def source (run : Runner) (f : Flags) (text : String) : ShellM Nat :=
  sourceBy run false (fun isLast => { f with last := f.last && isLast }) text

/-- Run the commands of a file; the status of the last one. -/
def script (run : Runner) (text : String) : ShellM Nat := do
  let status ← sourceBy run true (fun _ => .plain) text
  modify afterReturn
  return status

/-- Run the scripts for some signals, with the status that the script had.  What is passed
    over because a script returns comes later. -/
def handle (run : Runner) (status : Nat) (signals : List Nat) : ShellM Unit := do
  match signals with
  | [] => return
  | n :: rest =>
    if ← isSkipping then
      modify fun s => { s with arrived := s.arrived ++ n :: rest }
      return
    match (← get).traps.lookup n with
    | some text =>
      let _ ← source run .plain text
      if (← get).skip != .returned then setStatus status
    | none => pure ()
    handle run status rest

/-- Run the scripts for the signals that have arrived. -/
def handleSignals (run : Runner) : ShellM Unit := do
  let s ← get
  if !s.arrived.isEmpty && s.skip == .nothing then
    let status := s.statusBefore.getD s.status
    set { s with statusBefore := some status, arrived := [] }
    handle run status s.arrived.mergeSort
    modify fun t => { t with statusBefore := s.statusBefore }

/-- What comes behind every command: signals are handled, and the shell may be over. -/
def settle (run : Runner) (f : Flags) (checks : Bool) : ShellM Unit := do
  let status := (← get).status
  run.signals
  if checks && !f.tested && status ≠ 0 && (← get).has .errexit then throw .ended
  if f.last then throw .ended

end Keysmith.Shell.Run
