import Keysmith.FileSystem.Canonical
import Keysmith.Shell.Device
import Keysmith.Shell.Utility.Basic
import Keysmith.Shell.Utility.Quoted

/-! # Where links lead

`readlink` prints what links hold, or the whole paths of what paths lead to.  A whole path
is found step by step: links are replaced by what they hold, and what is missing is put up
with or not, as it was asked for. -/

namespace Keysmith.Shell.Utility

namespace Links

/-- What of a path must be there. -/
inductive Presence where
  | nothing
  | allButLast
  | everything
  deriving DecidableEq

/-- What is to be done. -/
structure Request where
  /-- Whether whole paths are printed, and what must be there. -/
  whole : Option Presence
  hasLineEnd : Bool
  isTelling : Bool
  /-- Whether a NUL stands in place of a line end. -/
  endsWithNul : Bool

/-- The options. -/
def known : Known where
  letters := "efmnqsvz".toList.map (·, .nothing)
  words := [⟨"canonicalize", .nothing, "f"⟩, ⟨"canonicalize-existing", .nothing, "e"⟩,
    ⟨"canonicalize-missing", .nothing, "m"⟩, ⟨"no-newline", .nothing, "n"⟩,
    ⟨"quiet", .nothing, "q"⟩, ⟨"silent", .nothing, "s"⟩, ⟨"verbose", .nothing, "v"⟩,
    ⟨"zero", .nothing, "z"⟩] ++ common

/-- Take an option. -/
def take (r : Request) (g : Given) : Except Refusal Request :=
  match g.meaning with
  | "e" => .ok { r with whole := some .everything }
  | "f" => .ok { r with whole := some .allButLast }
  | "m" => .ok { r with whole := some .nothing }
  | "n" => .ok { r with hasLineEnd := false }
  | "q" | "s" => .ok { r with isTelling := false }
  | "v" => .ok { r with isTelling := true }
  | "z" => .ok { r with endsWithNul := true }
  | _ => .ok r

/-! ## Links -/

/-- The path of a place. -/
def pathOf (place : Place) : String := Text.Octets.ofText (absolutePath place)

/-- The text for what an open file leads to. -/
def targetText? (s : State) (descriptor : Nat) : Option String :=
  ((s.handle? descriptor).bind fun id => s.system.files[id]?).map fun f =>
    match f.target with
    | .null => "/dev/null"
    | .zero => "/dev/zero"
    | .full => "/dev/full"
    | .file place => pathOf place
    | .pipe n => s!"pipe:[{n}]"
    | .removed _ => "/ (deleted)"
    | .directory => "/"

/-- The links that the system itself keeps. -/
def systemLink? (s : State) (path : String) : Option String :=
  match path with
  | "/dev/stdin" => some "/proc/self/fd/0"
  | "/dev/stdout" => some "/proc/self/fd/1"
  | "/dev/stderr" => some "/proc/self/fd/2"
  | "/dev/fd" => some "/proc/self/fd"
  | "/proc/self/cwd" => s.system.disk.workingPlace?.map pathOf
  | "/proc/self/root" => some "/"
  | _ =>
    let front := "/proc/self/fd/"
    if front.isPrefixOf path then
      (Device.number? (path.drop front.length).toString).bind (targetText? s)
    else none

/-- What the link holds that a path leads to. -/
def held (s : State) (path : String) : Except OsError String :=
  match systemLink? s path with
  | some target => .ok target
  | none =>
    if (Device.ofPath? path).isSome then .error .invalidArgument
    else match s.system.disk.find .keep (Text.Octets.toText path) with
      | .error (.os e) => .error e
      | .error _ => .error .noEntry
      | .ok spot =>
        match s.system.disk.node? spot with
        | some (.link target) => .ok (Text.Octets.ofText target)
        | _ => .error .invalidArgument

/-! ## Whole paths -/

/-- A path of steps, given last first. -/
def join (steps : List String) : String := "/" ++ "/".intercalate steps.reverse

/-- Whether what follows a step asks for a directory. -/
def asksForDirectory (fuel : Nat) (text : List Char) : Bool :=
  match fuel, text with
  | fuel + 1, '/' :: _ =>
    match text.dropWhile (· == '/') with
    | [] => true
    | ['.'] => true
    | ['.', '.'] => true
    | '.' :: '.' :: '/' :: _ => true
    | '.' :: '/' :: rest => asksForDirectory fuel ('/' :: rest)
    | _ => false
  | _, _ => false

/-- Why a path does not lead to a directory. -/
def directoryError? (s : State) (path : String) : Option OsError :=
  match s.system.disk.find .follow (Text.Octets.toText (path ++ "/")) with
  | .ok _ => none
  | .error (.os e) => some e
  | .error _ => some .noEntry

/-- The most links on a path. -/
def maxLinks : Nat := 400

/-- The most steps of a path. -/
def maxSteps : Nat := 100000

/-- Find the whole path behind steps, which are given last first.  Links that lead in a
    circle are a mistake, or they are taken as they are if nothing must be there. -/
def wholePath (fuel links : Nat) (s : State) (presence : Presence) (done : List String)
    (text : List Char) : Except OsError String :=
  match fuel with
  | 0 => .error .tooManyLinks
  | fuel + 1 =>
    let text := text.dropWhile (· == '/')
    let (step, rest) := (text.takeWhile (· != '/'), text.dropWhile (· != '/'))
    match step with
    | [] => .ok (join done)
    | ['.'] => wholePath fuel links s presence done rest
    | ['.', '.'] => wholePath fuel links s presence done.tail rest
    | step =>
      let here := String.ofList step :: done
      match held s (join here) with
      | .ok target =>
        if links = 0 then
          if presence == .nothing then wholePath fuel links s presence here rest
          else .error .tooManyLinks
        else if "pipe:".isPrefixOf target && rest.isEmpty then .ok (join (target :: done))
        else
          let start := if target.toList.head? == some '/' then [] else done
          wholePath fuel (links - 1) s presence start (target.toList ++ rest)
      | .error e =>
        let e := if asksForDirectory rest.length rest then
            directoryError? s (join here)
          else if e == .invalidArgument then none
          else some e
        let isLast := (rest.dropWhile (· == '/')).isEmpty
        match e with
        | none => wholePath fuel links s presence here rest
        | some e =>
          if presence == .nothing || (presence == .allButLast && e == .noEntry && isLast) then
            wholePath fuel links s presence here rest
          else .error e

/-- The whole path of what a path leads to. -/
def whole (s : State) (presence : Presence) (path : String) : Except OsError String :=
  if path.isEmpty then .error .noEntry
  else if path.toList.head? == some '/' then
    wholePath maxSteps maxLinks s presence [] path.toList
  else match s.system.disk.workingPlace? with
    | none => .error .noEntry
    | some place =>
      wholePath maxSteps maxLinks s presence (place.map Text.Octets.ofText).reverse path.toList

/-- Print what links hold, or where paths lead. -/
def run (r : Request) (operands : List String) : Utility := fun name _ => do
  if operands.isEmpty then refuse name (.misuse "missing operand")
  else
    let hasSeveral := 1 < operands.length
    if hasSeveral && !r.hasLineEnd then
      complain name "ignoring --no-newline with multiple arguments"
    let ending := if r.hasLineEnd || hasSeveral then
        if r.endsWithNul then "\x00" else "\n"
      else ""
    let status ← forEach operands fun path => do
      let s ← get
      let found := match r.whole with
        | some presence => whole s presence path
        | none => held s path
      match found with
      | .ok text =>
        ShellM.print (text ++ ending)
        return true
      | .error e =>
        if r.isTelling then complain name s!"{Quoted.ifNeeded path}: {e.description}"
        return false
    finish name status

end Links

/-- Print what links hold, or where paths lead. -/
def readlink : Utility :=
  withOptions Links.known false ⟨none, true, false, false⟩ Links.take Links.run

end Keysmith.Shell.Utility
