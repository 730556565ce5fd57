import Keysmith.Shell.Run.Compound
import Keysmith.Shell.Run.Image

/-! # Simple commands

The words of a command are expanded, its redirections are carried out and its assignments
are made; then it is a function, a command of the shell or a program. -/

namespace Keysmith.Shell.Run

/-- The text that stands in front of a command that is shown. -/
def promptText (run : Runner) : ShellM String := do
  let s ← get
  let text := (s.value? "PS4").getD ""
  if !text.toList.any (['$', '`', '\\'].contains ·) then return text
  match Parser.document (.ofText text s.line s.aliases s.documents) with
  | .error e =>
    setLine e.line
    ShellM.fail e.message
  | .ok (number, source) =>
    modify fun s => { s with documents := source.documents, inPrompt := true }
    let shown ← Expand.document (output run) (source.documents.getD number [])
    modify fun s => { s with inPrompt := false }
    return shown

/-- Show a command before it is run, to where the errors went before its redirections. -/
def trace (run : Runner) (handles : List (Nat × Nat)) (words : List String) :
    ShellM Unit := do
  let s ← get
  if s.has .xtrace && !s.inPrompt then
    let front ← promptText run
    let now := (← get).handles
    modify fun s => { s with handles := handles }
    ShellM.printError (front ++ " ".intercalate words ++ "\n")
    modify fun s => { s with handles := now }

/-- Run a command of the shell: its name is that in which it speaks, what it prints is
    written when it is over, and a mistake in it ends the shell only if it is special. -/
def builtin (name : String) (isSpecial : Bool) (run : ShellM Nat) : ShellM Unit := do
  let speaker := (← get).speaker
  modify fun s => { s with speaker := some name }
  let result ← ShellM.catching do
    let status ← run
    match ← ShellM.flush with
    | none => return status
    | some _ =>
      ShellM.warn s!"{name}: I/O error"
      return status ||| 1
  modify fun s => { s with speaker := speaker, printed := [] }
  match result with
  | .ok status => setStatus status
  | .error .failed => if isSpecial then throw .failed
  | .error stop => throw stop

/-- The file that is meant to be read as commands. -/
def dotFile (name : String) : ShellM String := do
  if name.toList.contains '/' then return name
  let s ← get
  let isFile (path : String) : Bool :=
    match s.system.disk.find .follow (Text.Octets.toText path) with
    | .ok spot =>
      match s.system.disk.node? spot with
      | some (.file _ _) => true
      | _ => false
    | .error _ => false
  match (s.searchPath.map (Program.pathIn · name)).find? isFile with
  | some path => return path
  | none => ShellM.fail s!"{name}: not found"

/-- Call a function. -/
def call (run : Runner) (f : Flags) (body : Command) (arguments : List String) :
    ShellM Unit := do
  let s ← get
  if 1000 ≤ s.calls then ShellM.fail "Maximum function recursion depth (1000) reached"
  set { s with
    arguments := arguments
    nextOption := (1, none)
    loops := 0
    calls := s.calls + 1 }
  ShellM.andThenRestore (run.command { f with last := false } body) fun t =>
    afterReturn { t with
      arguments := s.arguments
      nextOption := s.nextOption
      loops := s.loops
      calls := s.calls }

/-- What a command of the shell does. -/
def command (run : Runner) (f : Flags) (name : String) : Builtin := fun arguments => do
  match name with
  | "eval" =>
    if arguments.isEmpty then return 0
    source run f (" ".intercalate arguments)
  | "." =>
    match ← Builtin.operands arguments with
    | [] => return 0
    | file :: _ =>
      let path ← dotFile file
      let text ← readFile (← Redirection.openInput path)
      modify fun s => { s with speaker := some path }
      script run text
  | "exec" =>
    match ← Builtin.operands arguments with
    | [] => return 0
    | name :: rest =>
      match ← candidates name none with
      | .ok paths => become run paths (name :: rest)
      | .error e => refuse name e
      return 0
  | "command" => Builtin.describeCommand arguments
  | "wait" => wait run arguments
  | _ =>
    match Builtin.named? name with
    | some run => run arguments
    | none => return 0

/-- Run a program in a process of its own, or in this one if the shell is over then. -/
def program (run : Runner) (f : Flags) (c : Call) (name : String) : ShellM Unit := do
  match ← candidates name c.path with
  | .error e =>
    ShellM.warn s!"{name}: {Program.refusal e}"
    setStatus 127
  | .ok paths =>
    if f.last && !(← get).hasTraps then become run paths c.words
    else
      run.jobs
      let ending ← ShellM.inCopy id (become run paths c.words)
      ShellM.noteEnd true ending
      setStatus (Job.statusOf ending)

/-- Run the words of a simple command. -/
def carryOut (run : Runner) (f : Flags) (c : Call) : ShellM Unit := do
  let s ← get
  match c.words with
  | [] => setStatus s.substituted
  | name :: arguments =>
    let function := if c.skipsFunctions then none else s.functions.lookup name
    match function with
    | some body => call run f body arguments
    | none =>
      if Builtin.isBuiltin name then builtin name c.isSpecial (command run f name arguments)
      else program run f c name

/-- Make the assignments in front of a command: what they assign. -/
def assignAll (run : Runner) (c : Call) (assignments : List (String × Word)) :
    ShellM (List String) :=
  assignments.mapM fun (name, w) => do
    let value ← Expand.assigned (output run) w
    let isForProgram := c.isExec && 1 < c.words.length
    if c.hasOwn then ShellM.assignLocally .exporting name (some value)
    else ShellM.assignAs (if isForProgram then .exporting else .plain) name (some value)
    return s!"{name}={value}"

/-- Run a simple command. -/
def simple (run : Runner) (f : Flags) (line : Nat) (assignments : List (String × Word))
    (words : List Word) (redirects : List Redirect) : ShellM Unit := do
  modify fun s => { s with line := line, substituted := 0 }
  let c ← Call.ofWords (output run) words
  let depth := (← get).kept.length
  if c.hasOwn then ShellM.beginKeeping
  let targets ← Redirection.expand (Expand.text (output run)) redirects
  let handles := (← get).handles
  ShellM.restoringHandles c.isExec handles do
    match ← ShellM.catching (redirectAll run targets) with
    | .error .failed =>
      setStatus 2
      if c.isSpecial then throw .failed
    | .error stop => throw stop
    | .ok () =>
      let shown ← assignAll run c assignments
      trace run handles (shown ++ c.shown)
      carryOut run f c
  ShellM.endKeepingTo depth (← get).kept.length

end Keysmith.Shell.Run
