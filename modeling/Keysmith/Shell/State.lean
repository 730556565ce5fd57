import Keysmith.Failure
import Keysmith.Shell.Numeral
import Keysmith.Shell.Script
import Keysmith.Shell.Setting
import Keysmith.Shell.Signal
import Keysmith.Shell.System

/-! # The state of a shell

What a running script can change.  A `Context` is what a copy of a shell begins with: the
variables, the arguments, the settings.  A `State` adds what it shares with other
processes, and the processes for which it may wait.

`ShellM` are the steps of a shell: they change the state, and they can stop the shell or
leave the command that is being run (`Stop`). -/

namespace Keysmith.Shell

/-- A variable of a shell. -/
structure Binding where
  name : String
  value : Option String
  isExported : Bool
  isReadOnly : Bool
  deriving DecidableEq, Repr

/-- What is put back when a function returns. -/
inductive Kept where
  /-- A variable as it was; none if there was none. -/
  | binding (name : String) (old : Option Binding)
  | settings (old : List Setting)

/-- Commands that are passed over. -/
inductive Skip where
  | nothing
  /-- So many loops are left. -/
  | broken (loops : Nat)
  /-- So many loops but one are left, and that one goes on. -/
  | continued (loops : Nat)
  /-- A function or a file returns with a status of its own. -/
  | returned
  /-- A function or a file returns. -/
  | left
  deriving DecidableEq, Repr

/-- What a copy of a shell begins with. -/
structure Context where
  /-- What the shell is called: the name of the script. -/
  name : String
  /-- The command in whose name messages are printed. -/
  speaker : Option String
  arguments : List String
  bindings : List Binding
  functions : List (String × Command)
  aliases : List (String × String)
  /-- The here-documents that have been read. -/
  documents : Array Word
  settings : List Setting
  /-- The scripts to run at signals; number 0 stands for the end of the shell. -/
  traps : List (Nat × String)
  /-- The signals that the shell does not get, and cannot ask for. -/
  deaf : List Nat
  status : Nat
  /-- The status before a script was run at a signal. -/
  statusBefore : Option Nat
  /-- The status of the last command whose output was substituted. -/
  substituted : Nat
  skip : Skip
  /-- How many loops the current command stands in. -/
  loops : Nat
  /-- How many functions it stands in. -/
  calls : Nat
  /-- What is put back when a command that has variables of its own is over, the
      innermost one first. -/
  kept : List (List Kept)
  /-- The numbers of the open files that descriptors lead to. -/
  handles : List (Nat × Nat)
  /-- The line of the current command. -/
  line : Nat
  /-- The line up to which the script has been read. -/
  readLine : Nat
  /-- The path of the working directory as it was gone to.  Empty if it is not known. -/
  directory : String
  /-- The path of the working directory without links. -/
  physicalDirectory : String
  /-- The rights that new files do not get. -/
  mask : Mode
  /-- The commands whose paths have been found. -/
  found : List (String × String)
  /-- The next argument and the next letter in it that `getopts` looks at. -/
  nextOption : Nat × Option Nat
  /-- The number of the shell's process. -/
  process : Nat
  /-- The number of the process of which this one is a copy. -/
  mainProcess : Nat
  /-- The process that was begun last without waiting for it. -/
  lastBackground : Nat
  /-- Whether a prompt is being expanded. -/
  inPrompt : Bool

/-- A process for which the shell does not wait unless it is told to. -/
structure Job where
  /-- The number under which it is listed. -/
  number : Nat
  process : Nat
  /-- How it begins, if it has not begun: the copy of the shell, what it runs and its
      redirections. -/
  start : Option (Context × Command × List (Redirect × String))
  /-- How it ended. -/
  ending : Option ExitStatus
  /-- Whether the shell has waited for it. -/
  isWaited : Bool

/-- The state of a shell. -/
structure State extends Context where
  system : System
  jobs : List Job
  /-- The signals that have arrived and have a script to run. -/
  arrived : List Nat
  /-- What commands have printed and is not written yet, last first. -/
  printed : List String

/-- Why a shell stops. -/
inductive Stop where
  /-- A mistake, which has been told. -/
  | failed
  /-- The shell is over. -/
  | ended
  /-- The script exits. -/
  | exited
  /-- The process is gone. -/
  | gone (ending : ExitStatus)

/-- The steps of a shell. -/
abbrev ShellM := EStateM Stop State

namespace ShellM

/-- Run a step, and put something back however it ends. -/
def andThenRestore {α : Type} (x : ShellM α) (restore : State → State) : ShellM α := fun s =>
  match x s with
  | .ok a s => .ok a (restore s)
  | .error e s => .error e (restore s)

/-- Run a step and catch why it stops. -/
def catching {α : Type} (x : ShellM α) : ShellM (Except Stop α) := fun s =>
  match x s with
  | .ok a s => .ok (.ok a) s
  | .error e s => .ok (.error e) s

/-- Repeat a step that goes from one value to the next, until it has a result; at most so
    many times. -/
def repeating {σ α : Type} (step : σ → ShellM (Sum σ α)) (otherwise : σ → α) :
    Nat → σ → ShellM α
  | 0, x => pure (otherwise x)
  | n + 1, x => do
    match ← step x with
    | .inl x => repeating step otherwise n x
    | .inr a => return a

/-- The most rounds of a loop. -/
def maxRounds : Nat := 2000000

end ShellM

/-! ## Output -/

namespace State

/-- The number of the open file that a descriptor leads to. -/
def handle? (s : State) (descriptor : Nat) : Option Nat := s.handles.lookup descriptor

/-- Let a descriptor lead to an open file. -/
def connect (s : State) (descriptor file : Nat) : State :=
  { s with handles := (descriptor, file) :: s.handles.filter (·.1 != descriptor) }

/-- Close a descriptor. -/
def disconnect (s : State) (descriptor : Nat) : State :=
  { s with handles := s.handles.filter (·.1 != descriptor) }

/-- Whether a setting is on. -/
def has (s : State) (x : Setting) : Bool := s.settings.contains x

/-- Whether the shell has scripts to run at signals. -/
def hasTraps (s : State) : Bool := s.traps.any (!·.2.isEmpty)

end State

namespace ShellM

/-- Write bytes to a descriptor; the error if that fails.  The writer of a pipe that nobody
    reads any more is gone, unless it does not get the signal. -/
def write (descriptor : Nat) (bs : Bytes) : ShellM (Option OsError) := do
  let s ← get
  match s.handle? descriptor with
  | none => return some .badDescriptor
  | some id =>
    match s.system.write id bs with
    | .error e => return some e
    | .ok system =>
      set { s with system := system }
      if !system.isOverflowed id then return none
      else if s.deaf.contains Signal.pipe || (s.traps.lookup Signal.pipe).isSome then
        return some .brokenPipe
      else throw (.gone (.signalled Signal.pipe))

/-- Write a text to a descriptor. -/
def writeText (descriptor : Nat) (text : String) : ShellM (Option OsError) :=
  write descriptor (Text.Octets.toBytes text)

/-- Print a text among the errors. -/
def printError (text : String) : ShellM Unit := do
  let _ ← writeText 2 text

/-- Print a text when the command is over. -/
def print (text : String) : ShellM Unit :=
  modify fun s => { s with printed := text :: s.printed }

/-- Write what has been printed; the error if that fails. -/
def flush : ShellM (Option OsError) := do
  let s ← get
  if s.printed.isEmpty then return none
  set { s with printed := [] }
  let error ← writeText 1 (String.join s.printed.reverse)
  return error

/-- Say what is wrong, with the name of the script, the line and the command. -/
def warn (message : String) : ShellM Unit := do
  let s ← get
  let speaker := match s.speaker with
    | some command => s!"{command}: "
    | none => ""
  printError s!"{s.name}: {s.line}: {speaker}{message}\n"

/-- Say what is wrong and stop. -/
def fail {α : Type} (message : String) : ShellM α := do
  warn message
  let _ ← flush
  modify fun s => { s with status := 2 }
  throw .failed

/-- Say that the script cannot be read up to where it has been read, and stop. -/
def failReading {α : Type} (message : String) : ShellM α := do
  modify fun s => { s with line := s.readLine }
  fail s!"Syntax error: {message}"

/-- Stop because a word is no number. -/
def failNumber {α : Type} (word : String) : ShellM α := fail s!"Illegal number: {word}"

/-- Read a word as a number for a command. -/
def number (word : String) : ShellM Nat := do
  match Numeral.forCommand? word with
  | some n => return n
  | none => failNumber word

end ShellM

end Keysmith.Shell
