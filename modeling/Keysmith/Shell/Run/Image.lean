import Keysmith.Shell.Builtin.Names
import Keysmith.Shell.Builtin.Table
import Keysmith.Shell.Run.Ending
import Keysmith.Shell.Utility

/-! # Becoming a program

A process becomes another program: a utility, or a shell that reads its command line and
runs what that names. -/

namespace Keysmith.Shell.Run

/-- Be over because a program cannot be started. -/
def refuse (name : String) (e : OsError) : ShellM Unit := do
  ShellM.warn s!"{name}: {Program.refusal e}"
  setStatus (Program.refusalStatus e)
  throw .ended

/-- The paths at which a program may be, or the error if there is none. -/
def candidates (name : String) (path : Option String) : ShellM (Except OsError (List String)) := do
  if name.toList.contains '/' then return .ok [name]
  let s ← get
  let dirs := match path with
    | some p => Context.directories p
    | none => s.searchPath
  let known := if path.isSome then none else s.found.lookup name
  match known with
  | some found =>
    return .ok ((dirs.map (Program.pathIn · name)).dropWhile (· != found))
  | none =>
    match Program.search s.system.disk name .noEntry dirs with
    | .error e => return .error e
    | .ok (found, left) =>
      if path.isNone then set (s.withFound name found)
      return .ok (left.map (Program.pathIn · name))

/-- The text of a script file, without NULs. -/
def scriptText (bs : Bytes) : String := Text.Octets.ofBytes (bs.filter (· != 0))

/-- Read all that is left of an open file. -/
def readFile (id : Nat) : ShellM String := do
  let s ← get
  let size := match (s.system.files[id]?).map OpenFile.target with
    | some (.pipe n) => (s.system.pipeBytes n).length
    | some target => (s.system.content target).length
    | none => 0
  match s.system.read id size with
  | .ok (bs, system) =>
    set { s with system := system }
    return scriptText bs
  | .error _ => return ""

/-- The state of a process in which a program begins. -/
def imageState (s : State) : State :=
  let ignored := (s.traps.filter fun t => t.2.isEmpty && t.1 != 0).map Prod.fst
  { s with
    speaker := none
    bindings := s.bindings.filter fun b => b.isExported && b.value.isSome
    functions := []
    traps := []
    deaf := ignored ++ s.deaf.filter (!ignored.contains ·)
    arrived := []
    jobs := []
    printed := [] }

/-! ## Shells -/

/-- What the words of a shell's command line say. -/
structure CommandLine where
  /-- Whether the first operand is what is run. -/
  hasText : Bool
  operands : List String

/-- Switch a setting before the shell has begun. -/
def switchEarly (x : Setting) (on : Bool) : ShellM Unit :=
  modify fun s => { s with settings := Setting.switch s.settings x on }

/-- Take the letters of a word of a shell's command line, and the words that are left. -/
def switchLetters (on : Bool) (hasText : Bool) (rest : List String) :
    List Char → ShellM (Bool × List String)
  | [] => return (hasText, rest)
  | 'c' :: letters => switchLetters on true rest letters
  | 'l' :: letters => switchLetters on hasText rest letters
  | 'o' :: letters => do
    match rest with
    | name :: _ =>
      match Setting.ofName? name with
      | some x => switchEarly x on
      | none => ShellM.fail s!"Illegal option -o {name}"
    | [] => Builtin.listSettings on fun _ => true
    switchLetters on hasText rest.tail letters
  | c :: letters => do
    match Setting.ofLetter? c with
    | some x => switchEarly x on
    | none => ShellM.fail s!"Illegal option -{c}"
    switchLetters on hasText rest letters

/-- Read a shell's command line.  The fuel is the number of words. -/
def commandLine (fuel : Nat) (hasText : Bool) (words : List String) : ShellM CommandLine := do
  match fuel, words with
  | fuel + 1, word :: rest =>
    match word.toList with
    | ['-'] => return ⟨hasText, rest⟩
    | ['-', '-'] => return ⟨hasText, rest⟩
    | '-' :: letters =>
      let (hasText, rest) ← switchLetters true hasText rest letters
      commandLine fuel hasText rest
    | '+' :: letters =>
      let (hasText, rest) ← switchLetters false hasText rest letters
      commandLine fuel hasText rest
    | _ => return ⟨hasText, words⟩
  | _, words => return ⟨hasText, words⟩

/-- The variables of a shell that has just begun, besides those that it gets. -/
def ownBindings : List Binding :=
  [("IFS", " \t\n"), ("OPTIND", "1"), ("PS1", "# "), ("PS2", "> "), ("PS4", "+ "),
   ("PATH", Program.standardPath)].map fun (name, value) => ⟨name, some value, false, false⟩

/-- The variables that a shell sets even if it gets them. -/
def isFixed (name : String) : Bool := name == "IFS" || name == "OPTIND"

/-- The variables of a shell that has just begun. -/
def initialBindings (got : List Binding) (parent : Nat) : List Binding :=
  let got := got.filter fun b => Word.isName b.name
  let own := ownBindings.filter fun b => isFixed b.name || !got.any (·.name == b.name)
  let fixed := own.map fun b =>
    { b with isExported := got.any fun g => g.name == b.name && g.isExported }
  let others := got.filter fun b => !isFixed b.name && b.name != "PPID"
  ⟨"PPID", some (toString parent), false, false⟩ :: fixed ++ others

/-- The state in which a shell begins. -/
def shellState (name : String) (s : State) : State :=
  let s := imageState s
  { s with
    name := name
    arguments := []
    bindings := initialBindings s.bindings (s.process - 1)
    aliases := []
    documents := #[]
    settings := []
    status := 0
    statusBefore := none
    substituted := 0
    skip := .nothing
    loops := 0
    calls := 0
    kept := []
    line := 0
    readLine := 1
    directory := ""
    physicalDirectory := ""
    found := []
    nextOption := (1, none)
    mainProcess := s.process
    lastBackground := 0
    inPrompt := false }

/-- Find out the working directory when a shell begins: the path that it was told, if that
    leads there.  It does not know yet what it is called. -/
def findDirectory : ShellM Unit := do
  let s ← get
  set { s with name := "sh" }
  let told := (s.value? "PWD").filter fun path =>
    path.toList.head? == some '/' && match s.system.disk.find .follow (Text.Octets.toText path) with
      | .ok spot => spot == s.system.disk.cwd
      | .error _ => false
  Builtin.remember told false
  modify fun t => { t with name := s.name }

/-- Run the commands that the shell can read. -/
def standardInput (run : Runner) : ShellM Unit := do
  match (← get).handle? 0 with
  | some id =>
    let text ← readFile id
    let _ ← script run text
  | none => pure ()

/-- Refuse job control to a shell that wants it. -/
def refuseMonitor : ShellM Unit := do
  let s ← get
  if s.has .monitor || s.has .interactive then
    ShellM.warn Builtin.noTerminal
    switchEarly .monitor false

/-- Run a shell with the words of its command line. -/
def shell (run : Runner) (words : List String) : ShellM Unit := do
  findDirectory
  let line ← commandLine words.length false words
  if line.hasText && line.operands.isEmpty then ShellM.fail "-c requires an argument"
  refuseMonitor
  let readsInput := (← get).has .stdin
  match line.hasText, readsInput, line.operands with
  | true, _, [] => pure ()
  | true, readsInput, text :: rest =>
    modify fun s => { s with name := rest.headD s.name, arguments := rest.tail }
    let _ ← source run (if readsInput then .plain else .final) text
    if readsInput then standardInput run
  | false, false, path :: rest =>
    let id ← Redirection.openInput path
    modify fun s => { s with name := path, arguments := rest }
    let text ← readFile id
    let _ ← script run text
  | false, _, operands =>
    modify fun s => { s with arguments := operands }
    standardInput run

/-- Run a program in place of the shell. -/
def image (run : Runner) (p : Program) (words : List String) : ShellM Unit := do
  let name := words.headD ""
  match p with
  | .utility u =>
    modify imageState
    let status ← match Utility.named? u with
      | some run => run name words.tail
      | none => pure 0
    throw (.gone (.exited status))
  | .shell =>
    modify (shellState name)
    finish run (shell run words.tail)
    throw (.gone (.exited ((← get).status % 256)))

/-- Run the first program of some paths that can be started; the error if there is none. -/
def firstImage (run : Runner) (words : List String) (failure : OsError) :
    List String → ShellM OsError
  | [] => return failure
  | path :: rest => do
    match Program.load (← get).system.disk Program.maxInterpreters path words with
    | .ok (p, words) =>
      image run p words
      return failure
    | .error .notExecutable =>
      image run .shell ("/bin/sh" :: path :: words.tail)
      return failure
    | .error e =>
      let isMissing := e == .noEntry || e == .notDirectory
      firstImage run words (if isMissing then failure else e) rest

/-- Become a program: the first one of some paths that can be started. -/
def become (run : Runner) (paths : List String) (words : List String) : ShellM Unit := do
  run.jobs
  refuse (words.headD "") (← firstImage run words .noEntry paths)

end Keysmith.Shell.Run
