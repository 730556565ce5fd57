import Keysmith.FileSystem.Entries
import Keysmith.Shell.Utility.Basic
import Keysmith.Shell.Utility.Quoted

/-! # Removing files

`rm` removes files and links, and directories with all that is in them if it is told to.
It can ask before it does so; then each answer is a line of the standard input. -/

namespace Keysmith.Shell.Utility

namespace Remove

/-- When to ask. -/
inductive Asking where
  | never
  /-- Once, if there is much to remove. -/
  | once
  | always
  | ifProtected
  deriving DecidableEq

/-- What is to be done. -/
structure Request where
  asking : Asking
  /-- Whether missing files are passed over. -/
  ignoresMissing : Bool
  /-- Whether directories are removed with all that is in them. -/
  recursive : Bool
  /-- Whether empty directories are removed. -/
  removesEmpty : Bool
  verbose : Bool
  /-- Whether the root may be removed. -/
  sparesRoot : Bool

/-- The usual request. -/
def Request.standard : Request := ⟨.ifProtected, false, false, false, false, true⟩

/-- The options. -/
def known : Known where
  letters := "dfirvIR".toList.map (·, .nothing)
  words := [⟨"force", .nothing, "f"⟩, ⟨"interactive", .perhaps, "interactive"⟩,
    ⟨"one-file-system", .nothing, "system"⟩, ⟨"no-preserve-root", .nothing, "no-root"⟩,
    ⟨"preserve-root", .perhaps, "root"⟩, ⟨"-presume-input-tty", .nothing, "tty"⟩,
    ⟨"recursive", .nothing, "r"⟩, ⟨"dir", .nothing, "d"⟩, ⟨"verbose", .nothing, "v"⟩] ++ common

/-- The words that say when to ask. -/
def occasions : List (String × Asking) :=
  [("never", .never), ("no", .never), ("none", .never), ("once", .once), ("always", .always),
   ("yes", .always)]

/-- What a word or the beginning of one says about when to ask. -/
def occasion (word : String) : Except Refusal Asking :=
  let refuse (what : String) : Except Refusal Asking :=
    .error ⟨s!"{what} argument {Quoted.always word} for '--interactive'",
      ["Valid arguments are:", "  - 'never', 'no', 'none'", "  - 'once'", "  - 'always', 'yes'"],
      true⟩
  match occasions.lookup word with
  | some a => .ok a
  | none =>
    match occasions.filter fun o => word.isPrefixOf o.1 with
    | [] => refuse "invalid"
    | o :: others => if others.all (·.2 == o.2) then .ok o.2 else refuse "ambiguous"

/-- Take an option. -/
def take (r : Request) (g : Given) : Except Refusal Request := do
  let ask (a : Asking) : Request :=
    { r with asking := a, ignoresMissing := a == .never && r.ignoresMissing }
  match g.meaning with
  | "f" => return { r with asking := .never, ignoresMissing := true }
  | "i" => return ask .always
  | "I" => return ask .once
  | "interactive" =>
    match g.argument with
    | none => return ask .always
    | some word => return ask (← occasion word)
  | "r" | "R" => return { r with recursive := true }
  | "d" => return { r with removesEmpty := true }
  | "v" => return { r with verbose := true }
  | "no-root" =>
    if g.word != "--no-preserve-root" then
      .error (.plain "you may not abbreviate the --no-preserve-root option")
    return { r with sparesRoot := false }
  | "root" =>
    match g.argument with
    | some word =>
      if word != "all" then
        .error (.plain s!"unrecognized --preserve-root argument: {Quoted.always word}")
    | none => pure ()
    return { r with sparesRoot := true }
  | _ => return r

/-! ## Looking at files -/

/-- What a path leads to, not through a link at its end. -/
def nodeAt? (d : Disk) (path : String) : Except OsError Node :=
  match d.find .keep (Text.Octets.toText path) with
  | .error (.os e) => .error e
  | .error _ => .error .noEntry
  | .ok spot =>
    match d.node? spot with
    | some t => .ok t
    | none => .error .noEntry

/-- What a file is called in questions. -/
def kindName : Node → String
  | .file [] _ => "regular empty file"
  | .file _ _ => "regular file"
  | .link _ => "symbolic link"
  | .dir _ => "directory"

/-! ## Asking -/

/-- Ask a question and read the answer. -/
def ask (name question : String) : ShellM Bool := do
  let _ ← ShellM.flush
  ShellM.printError s!"{name}: {question}? "
  let s ← get
  match (s.handle? 0).map fun id => s.system.readUpTo id 10 with
  | some (.ok (bs, system)) =>
    set { s with system := system }
    return bs.head? == some 121 || bs.head? == some 89
  | _ => return false

/-- What became of a file. -/
inductive Outcome where
  | removed
  /-- It was to stay. -/
  | declined
  /-- It was to stay with the directories that it stands in. -/
  | barred
  | failed
  deriving DecidableEq

/-- Say that a file cannot be removed. -/
def refuseFile (name path : String) (e : OsError) : ShellM Outcome := do
  complain name s!"cannot remove {Quoted.always path}: {e.description}"
  return .failed

/-- Whether an error is passed over. -/
def isIgnored (r : Request) (e : OsError) : Bool :=
  r.ignoresMissing && [OsError.noEntry, .notDirectory, .invalidArgument].contains e

/-- Remove a file, or an empty directory. -/
def excise (r : Request) (name path : String) (asDirectory : Bool) : ShellM Outcome := do
  let s ← get
  let d := s.system.disk
  let found : Except OsError Place :=
    match Disk.pathOf (Text.Octets.toText path) with
    | .error (.os e) => .error e
    | .error _ => .error .noEntry
    | .ok p => if asDirectory then d.rmdirPlace p else d.unlinkPlace p
  match found with
  | .ok place =>
    set { s with system := s.system.remove place }
    if r.verbose then
      ShellM.print
        ((if asDirectory then "removed directory " else "removed ") ++ Quoted.always path ++ "\n")
    return .removed
  | .error e => if isIgnored r e then return .removed else refuseFile name path e

/-- Ask about a file, if that is to be done. -/
def allowed (r : Request) (name path : String) (node : Except OsError Node)
    (descends : Bool) : ShellM Outcome := do
  if r.asking != .always then return .removed
  match node with
  | .error e => refuseFile name path e
  | .ok t =>
    let shown := Quoted.always path
    let question :=
      if descends then s!"descend into directory {shown}" else s!"remove {kindName t} {shown}"
    return if ← ask name question then .removed else .declined

/-- Ask about what is no directory, and remove it. -/
def removeFile (r : Request) (name path : String) (node : Except OsError Node) :
    ShellM Outcome := do
  match ← allowed r name path node false with
  | .removed => excise r name path false
  | other => return other

/-- Why a directory that was named is not even looked into. -/
def objection? (r : Request) (d : Disk) (path : String) : Option (List String) :=
  let last := (Path.ofString path).steps.getLast?
  let isRoot := match d.find .follow (Text.Octets.toText path) with
    | .ok spot => spot.place.isEmpty && spot.removed = 0
    | .error _ => false
  if last == some "." || last == some ".." then
    some [s!"refusing to remove '.' or '..' directory: skipping {Quoted.always path}"]
  else if isRoot && r.recursive && r.sparesRoot then
    let same := if path == "/" then "" else " (same as '/')"
    some [s!"it is dangerous to operate recursively on {Quoted.always path}{same}",
      "use --no-preserve-root to override this failsafe"]
  else none

/-- The path of an entry of a directory. -/
def below (path entry : String) : String :=
  if path.toList.getLast? == some '/' then path ++ entry else path ++ "/" ++ entry

/-- Remove what a path leads to.  The fuel bounds how deep directories stand in each
    other. -/
def removePath (fuel : Nat) (r : Request) (name : String) (isOperand : Bool) (path : String) :
    ShellM Outcome := do
  let d := (← get).system.disk
  let node := nodeAt? d path
  match fuel, node with
  | fuel + 1, .ok (.dir entries) =>
    if !r.recursive && !(r.removesEmpty && entries.isEmpty) then
      refuseFile name path (if r.removesEmpty then .notEmpty else .isDirectory)
    else match if isOperand then objection? r d path else none with
      | some lines =>
        lines.forM (complain name ·)
        return .failed
      | none =>
        match ← allowed r name path node (!entries.isEmpty) with
        | .removed =>
          if entries.isEmpty then excise r name path true
          else
            let outcomes ← entries.mapM fun e =>
              removePath fuel r name false (below path (Text.Octets.ofText e.1))
            if outcomes.contains .failed then return .failed
            else if outcomes.contains .barred then return .barred
            else match ← allowed r name path node false with
              | .removed => excise r name path true
              | other => return other
        | .failed => return .failed
        | _ => return .barred
  | _, node => removeFile r name path node

/-- How deep directories may stand in each other. -/
def maxDepth : Nat := 4096

/-- A path with one slash at its end at most, unless it is only two slashes. -/
def withoutSlashes (path : String) : String :=
  let cs := path.toList.reverse
  match cs.takeWhile (· == '/') with
  | _ :: _ :: _ =>
    if path == "//" then path else String.ofList ('/' :: cs.dropWhile (· == '/')).reverse
  | _ => path

/-- Remove files. -/
def run (r : Request) (operands : List String) : Utility := fun name _ => do
  if operands.isEmpty then
    if r.ignoresMissing then return 0
    else refuse name (.misuse "missing operand")
  else
    let n := operands.length
    let asks := r.asking == .once && (r.recursive || 3 < n)
    let noun := if n = 1 then "argument" else "arguments"
    let how := if r.recursive then " recursively" else ""
    if asks then
      unless ← ask name s!"remove {n} {noun}{how}" do return 0
    let outcomes ← operands.mapM fun path =>
      removePath maxDepth r name true (withoutSlashes path)
    finish name (if outcomes.contains .failed then 1 else 0)

/-- Recommend a way to remove a file whose name looks like an option. -/
def recommendation? (d : Disk) (name : String) (arguments : List String) : Option String :=
  (arguments.find? fun a => 1 < a.length && "-".isPrefixOf a && (nodeAt? d a).isOk).map fun a =>
    s!"Try '{name} ./{Quoted.ifNeeded a}' to remove the file {Quoted.always a}."

end Remove

/-- Remove files. -/
def rm : Utility := fun name arguments => do
  match readWords Remove.known false Remove.take .standard [] arguments with
  | .error r =>
    if !r.recommendsHelp || !r.further.isEmpty then refuse name r
    else
      let hint := Remove.recommendation? (← get).system.disk name arguments
      complain name r.message
      refuseWithHint name hint
  | .ok _ => withOptions Remove.known false .standard Remove.take Remove.run name arguments
where
  /-- Recommend something, and fail. -/
  refuseWithHint (name : String) (hint : Option String) : ShellM Nat := do
    say (hint.toList ++ [s!"Try '{name} --help' for more information."])
    return 1

end Keysmith.Shell.Utility
