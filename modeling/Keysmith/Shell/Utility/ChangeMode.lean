import Keysmith.FileSystem.Entries
import Keysmith.FileSystem.ModeText
import Keysmith.Shell.Utility.Basic
import Keysmith.Shell.Utility.Quoted

/-! # Changing modes

`chmod` gives files another mode, or changes the one they have.  A change that begins with
a dash looks like options; then it is checked whether the mask of the process kept it from
doing what it seems to say. -/

namespace Keysmith.Shell.Utility

namespace ChangeMode

/-- How much is told. -/
inductive Telling where
  | nothing
  | changes
  | everything
  deriving DecidableEq

/-- What is to be done. -/
structure Request where
  recursive : Bool
  telling : Telling
  /-- Whether files that cannot be reached are passed over in silence. -/
  isSilent : Bool
  sparesRoot : Bool
  /-- A file whose mode the others get. -/
  reference : Option String
  /-- The changes that look like options. -/
  changes : List String

/-- The usual request. -/
def Request.standard : Request := ⟨false, .nothing, false, false, none, []⟩

/-- The letters that are no options but begin a change. -/
def changeLetters : List Char := "rwxXstugoa,+=01234567".toList

/-- The options. -/
def known : Known where
  letters := "Rcfv".toList.map (·, .nothing) ++ changeLetters.map (·, .perhaps)
  words := [⟨"changes", .nothing, "c"⟩, ⟨"recursive", .nothing, "R"⟩,
    ⟨"no-preserve-root", .nothing, "no-root"⟩, ⟨"preserve-root", .nothing, "root"⟩,
    ⟨"quiet", .nothing, "f"⟩, ⟨"reference", .argument, "reference"⟩,
    ⟨"silent", .nothing, "f"⟩, ⟨"verbose", .nothing, "v"⟩] ++ common

/-- Take an option. -/
def take (r : Request) (g : Given) : Except Refusal Request :=
  match g.meaning with
  | "R" => .ok { r with recursive := true }
  | "c" => .ok { r with telling := .changes }
  | "f" => .ok { r with isSilent := true }
  | "v" => .ok { r with telling := .everything }
  | "no-root" => .ok { r with sparesRoot := false }
  | "root" => .ok { r with sparesRoot := true }
  | "reference" => .ok { r with reference := g.argument }
  | m =>
    if m.length = 1 then .ok { r with changes := r.changes ++ [g.word] } else .ok r

/-- What is done with each file. -/
structure Plan where
  request : Request
  changes : List Mode.Change
  /-- Whether the changes look like options. -/
  isSurprising : Bool

/-- The mode of a directory, which the disk does not keep. -/
def directoryMode : Mode := Mode.program

/-- What a path leads to. -/
def nodeAt (d : Disk) (last : Disk.LastLink) (path : String) : Except OsError (Place × Node) :=
  match d.find last (Text.Octets.toText path) with
  | .error (.os e) => .error e
  | .error _ => .error .noEntry
  | .ok spot =>
    match d.node? spot with
    | some t => .ok (spot.place, t)
    | none => .error .noEntry

/-- Print a line about a file, if so much is told. -/
def tell (p : Plan) (about : Telling) (line : String) : ShellM Unit := do
  if p.request.telling == .everything || p.request.telling == about then
    ShellM.print (line ++ "\n")

/-- Say that a file cannot be changed. -/
def fail (p : Plan) (name path message : String) : ShellM Bool := do
  if !p.request.isSilent then complain name message
  tell p .everything s!"{Quoted.always path} could not be accessed"
  return false

/-- A mode in digits and letters. -/
def shown (m : Mode) : String := s!"{Mode.octal 4 m} ({Mode.drawn m})"

/-- Change the mode of a file or a directory. -/
def changeAt (p : Plan) (name path : String) (place : Place) (t : Node) : ShellM Bool := do
  let s ← get
  let (old, isDirectory) := match t with
    | .file _ m => (m, false)
    | _ => (directoryMode, true)
  let new := Mode.changed isDirectory s.mask p.changes old
  set { s with system := { s.system with disk := s.system.disk.setMode place fun _ => new } }
  let file := Quoted.always path
  if old == new then tell p .everything s!"mode of {file} retained as {shown new}"
  else tell p .changes s!"mode of {file} changed from {shown old} to {shown new}"
  let expected := Mode.changed isDirectory 0#12 p.changes old
  if p.isSurprising && new &&& ~~~expected != 0#12 then
    let (is, seems) := (Mode.drawn new, Mode.drawn expected)
    complain name s!"{Quoted.ifNeeded path}: new permissions are {is}, not {seems}"
    return false
  else return true

/-- Change modes at a place and below it.  The fuel bounds how deep directories stand in
    each other. -/
def change (fuel : Nat) (p : Plan) (name path : String) (place : Place) (t : Node) :
    ShellM Bool := do
  match fuel, t with
  | _, .link _ =>
    tell p .everything
      s!"neither symbolic link {Quoted.always path} nor referent has been changed"
    return true
  | fuel + 1, .dir entries =>
    let ok ← changeAt p name path place t
    if !p.request.recursive then return ok
    let front := if path.toList.getLast? == some '/' then path else path ++ "/"
    let results ← entries.mapM fun e =>
      change fuel p name (front ++ Text.Octets.ofText e.1) (place ++ [e.1]) e.2
    return ok && results.all id
  | _, t => changeAt p name path place t

/-- How deep directories may stand in each other. -/
def maxDepth : Nat := 4096

/-- A path with one slash at its end at most. -/
def withoutSlashes (path : String) : String :=
  let cs := path.toList.reverse
  match cs.takeWhile (· == '/') with
  | _ :: _ :: _ => String.ofList ('/' :: cs.dropWhile (· == '/')).reverse
  | _ => path

/-- Change modes at an operand and below it. -/
def changeOperand (p : Plan) (name path : String) : ShellM Bool := do
  let path := withoutSlashes path
  let d := (← get).system.disk
  match nodeAt d .follow path with
  | .ok (place, t) =>
    if place.isEmpty && p.request.recursive && p.request.sparesRoot then
      let same := if path == "/" then "" else " (same as '/')"
      complain name s!"it is dangerous to operate recursively on {Quoted.always path}{same}"
      complain name "use --no-preserve-root to override this failsafe"
      return false
    else change maxDepth p name path place t
  | .error e =>
    let file := Quoted.always path
    if e == .noEntry && (nodeAt d .keep path).isOk then
      fail p name path s!"cannot operate on dangling symlink {file}"
    else fail p name path s!"cannot access {file}: {e.description}"

/-- The changes that make a mode like that of a file. -/
def changesLike (d : Disk) (path : String) : Except Refusal (List Mode.Change) :=
  match nodeAt d .follow path with
  | .ok (_, .file _ m) => .ok [Mode.replacing m Mode.all]
  | .ok _ => .ok [Mode.replacing directoryMode Mode.all]
  | .error e =>
    .error (.plain s!"failed to get attributes of {Quoted.always path}: {e.description}")

/-- The plan for a request, and the files. -/
def plan (r : Request) (d : Disk) (operands : List String) :
    Except Refusal (Plan × List String) := do
  let ofText (text : String) : Except Refusal (List Mode.Change) :=
    match Mode.ofText? text with
    | some cs => .ok cs
    | none => .error (.misuse s!"invalid mode: {Quoted.plain text}")
  match r.reference, r.changes, operands with
  | some _, _ :: _, _ => .error (.misuse "cannot combine mode and --reference options")
  | _, [], [] => .error (.misuse "missing operand")
  | _, _ :: _, [] => .error (.misuse "missing operand")
  | some path, [], files => return (⟨r, ← changesLike d path, false⟩, files)
  | none, [], [mode] => .error (.misuse s!"missing operand after {Quoted.plain mode}")
  | none, [], mode :: files => return (⟨r, ← ofText mode, false⟩, files)
  | none, changes, files =>
    return (⟨r, ← ofText (",".intercalate changes), true⟩, files)

/-- Change modes. -/
def run (r : Request) (operands : List String) : Utility := fun name _ => do
  match plan r (← get).system.disk operands with
  | .error refusal => refuse name refusal
  | .ok (p, files) => finish name (← forEach files (changeOperand p name))

end ChangeMode

/-- Change the modes of files. -/
def chmod : Utility :=
  withOptions ChangeMode.known false .standard ChangeMode.take ChangeMode.run

end Keysmith.Shell.Utility
