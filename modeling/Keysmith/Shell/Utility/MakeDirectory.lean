import Keysmith.FileSystem.Entries
import Keysmith.FileSystem.ModeText
import Keysmith.Shell.Utility.Basic
import Keysmith.Shell.Utility.Quoted

/-! # Making directories

`mkdir` makes directories, with those above them if it is told to.  It then goes down the
path step by step, so a step that is no directory is what it complains about. -/

namespace Keysmith.Shell.Utility

namespace MakeDirectory

/-- What is to be done. -/
structure Request where
  withParents : Bool
  verbose : Bool
  mode : Option String
  /-- Whether a context was given, which does not exist here. -/
  hasContext : Bool

/-- The options. -/
def known : Known where
  letters := [('p', .nothing), ('m', .argument), ('v', .nothing), ('Z', .nothing)]
  words := [⟨"context", .perhaps, "Z"⟩, ⟨"mode", .argument, "m"⟩, ⟨"parents", .nothing, "p"⟩,
    ⟨"verbose", .nothing, "v"⟩] ++ common

/-- Take an option. -/
def take (r : Request) (g : Given) : Except Refusal Request :=
  match g.meaning with
  | "p" => .ok { r with withParents := true }
  | "v" => .ok { r with verbose := true }
  | "m" => .ok { r with mode := g.argument }
  | "Z" => .ok { r with hasContext := r.hasContext || g.argument.isSome }
  | _ => .ok r

/-- The steps of a path with the slashes behind them. -/
def steps (text : List Char) : List (List Char) :=
  let (front, back) := (text.takeWhile (· == '/'), text.dropWhile (· == '/'))
  let add (c : Char) (found : List (List Char)) : List (List Char) :=
    match found with
    | step :: rest =>
      if c == '/' && step.head? != some '/' then [c] :: step :: rest else (c :: step) :: rest
    | [] => [[c]]
  match back.foldr add [] with
  | [] => [front]
  | first :: rest => (front ++ first) :: rest

/-- A step without the slashes behind it. -/
def bare (step : List Char) : List Char :=
  (step.reverse.dropWhile (· == '/')).reverse

/-- Make a directory below the working directory of a disk. -/
def make (d : Disk) (path : List Char) : Except OsError Disk :=
  match d.mkdir (Text.Octets.toText (String.ofList path)) with
  | .ok d => .ok d
  | .error (.os e) => .error e
  | .error _ => .error .noEntry

/-- Go to a directory. -/
def goTo (d : Disk) (path : List Char) : Except OsError Disk :=
  match d.chdir (Text.Octets.toText (String.ofList path)) with
  | .ok d => .ok d
  | .error (.os e) => .error e
  | .error _ => .error .noEntry

/-- What became of a directory: the disk, the paths that were made, and the path that could
    not be made, with the reason. -/
structure Made where
  disk : Disk
  made : List String
  failure : Option (String × OsError)

/-- Make the directory that the last step names. -/
def makeLast (withParents : Bool) (d : Disk) (path : List Char) (last : List Char)
    (made : List String) : Made :=
  let path := String.ofList path
  match make d last with
  | .ok d => ⟨d, (path :: made).reverse, none⟩
  | .error e =>
    let isThere := withParents && e != .noEntry && (goTo d last).isOk
    ⟨d, made.reverse, if isThere then none else some (path, e)⟩

/-- Make the directories that steps lead through, given the path up to them and the paths
    that were made, last first. -/
def makeAll (d : Disk) (front : List Char) (made : List String) : List (List Char) → Made
  | [] => ⟨d, made.reverse, none⟩
  | [last] => makeLast true d (front ++ last) last made
  | step :: rest =>
    let path := front ++ bare step
    if bare step == ['.'] then makeAll d (front ++ step) made rest
    else
      let attempt := if bare step == ['.', '.'] then none else some (make d (bare step))
      let (d, made) := match attempt with
        | some (.ok d) => (d, String.ofList path :: made)
        | _ => (d, made)
      match goTo d (bare step), attempt with
      | .ok d, _ => makeAll d (front ++ step) made rest
      | .error .noEntry, some (.error e) => ⟨d, made.reverse, some (String.ofList path, e)⟩
      | .error e, _ => ⟨d, made.reverse, some (String.ofList path, e)⟩

/-- Make a directory as an operand of the utility. -/
def makeOperand (r : Request) (name path : String) : ShellM Bool := do
  let s ← get
  let d := s.system.disk
  let done :=
    if r.withParents then makeAll d [] [] (steps path.toList)
    else makeLast false d path.toList path.toList []
  set { s with system := { s.system with disk := { done.disk with cwd := d.cwd } } }
  if r.verbose then
    done.made.forM fun p => ShellM.print s!"{name}: created directory {Quoted.always p}\n"
  match done.failure with
  | none => return true
  | some (p, e) =>
    complain name s!"cannot create directory {Quoted.plain p}: {e.description}"
    return false

/-- Make directories. -/
def run (r : Request) (operands : List String) : Utility := fun name _ => do
  if r.hasContext then
    complain name ("warning: ignoring --context; " ++
      "it requires an SELinux/SMACK-enabled kernel")
  if operands.isEmpty then refuse name (.misuse "missing operand")
  else match r.mode with
    | some text =>
      if (Mode.ofText? text).isNone then
        refuse name (.plain s!"invalid mode {Quoted.plain text}")
      else finish name (← forEach operands (makeOperand r name))
    | none => finish name (← forEach operands (makeOperand r name))

end MakeDirectory

/-- Make directories. -/
def mkdir : Utility :=
  withOptions MakeDirectory.known false ⟨false, false, none, false⟩ MakeDirectory.take
    MakeDirectory.run

end Keysmith.Shell.Utility
