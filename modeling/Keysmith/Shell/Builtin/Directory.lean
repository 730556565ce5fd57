import Keysmith.FileSystem.Canonical
import Keysmith.Shell.Builtin.Basic
import Keysmith.Shell.Mask

/-! # Commands for the working directory and for rights -/

namespace Keysmith.Shell.Builtin

/-- The path of the working directory without links.  None if it has been removed. -/
def physicalPath? (d : Disk) : Option String :=
  d.workingPlace?.map fun place => Text.Octets.ofText (absolutePath place)

/-- The path of the working directory without links, or empty with a warning. -/
def physicalPath : ShellM String := do
  match physicalPath? (← get).system.disk with
  | some path => return path
  | none =>
    ShellM.warn s!"getcwd() failed: {OsError.noEntry.description}"
    return ""

/-- Remember the path by which the working directory was gone to, if there is one. -/
def remember (path : Option String) (keepsOld : Bool) : ShellM Unit := do
  if keepsOld then ShellM.assignAs .exporting "OLDPWD" (some (← get).directory)
  let (logical, physical) ← match path with
    | some path => pure (path, "")
    | none =>
      let here ← physicalPath
      pure (here, here)
  modify fun s => { s with directory := logical, physicalDirectory := physical }
  ShellM.assignAs .exporting "PWD" (some logical)

/-- A path behind a path, with `.` and `..` undone by its text. -/
def logicalPath (here path : String) : String :=
  let walk (done : List String) (step : String) : List String :=
    if step == "." then done else if step == ".." then done.tail else step :: done
  let isAbsolute := path.toList.head? == some '/'
  let twoSlashes (s : String) : Bool :=
    match s.toList with
    | '/' :: '/' :: '/' :: _ => false
    | '/' :: '/' :: _ => true
    | _ => false
  let front := if twoSlashes (if isAbsolute then path else here) then "//" else "/"
  let begun := if isAbsolute then [] else (Path.ofString here).steps.reverse
  front ++ "/".intercalate (((Path.ofString path).steps.foldl walk begun).reverse)

/-- Go to a directory; whether that worked. -/
def goTo (isPhysical : Bool) (path : String) : ShellM Bool := do
  let s ← get
  let logical :=
    if isPhysical || (path.toList.head? != some '/' && s.directory.isEmpty) then none
    else some (logicalPath s.directory path)
  let target := logical.getD path
  match s.system.disk.chdir (Text.Octets.toText target) with
  | .error _ => return false
  | .ok disk =>
    set { s with system := { s.system with disk := disk } }
    remember logical true
    modify fun s => { s with found := s.found.filter fun f => f.2.toList.head? == some '/' }
    return true

/-- Whether a path is not to be looked for in other directories. -/
def isPlain (path : String) : Bool :=
  match path.toList with
  | '/' :: _ => true
  | ['.'] => true
  | '.' :: '/' :: _ => true
  | ['.', '.'] => true
  | '.' :: '.' :: '/' :: _ => true
  | _ => false

/-- The first of some directories in which a path leads to a directory: the path from
    there, and whether the directory had a name. -/
def below? (d : Disk) (path : String) : List String → Option (String × Bool)
  | [] => none
  | dir :: dirs =>
    let full := if dir.isEmpty then path else dir ++ "/" ++ path
    match d.find .follow (Text.Octets.toText full) with
    | .ok spot =>
      if (d.entries? spot).isSome then some (full, !dir.isEmpty) else below? d path dirs
    | .error _ => below? d path dirs

/-- Which of two letters counts, of which the first one does without options. -/
def isPhysical (given : List Given) : Bool := (given.getLast?.map (·.letter)) == some 'P'

/-- Change the working directory. -/
def cd : Builtin := fun arguments => do
  let (given, operands) ← options [('L', false), ('P', false)] arguments
  let s ← get
  let (path, prints) := match operands with
    | [] => ((s.value? "HOME").getD "", false)
    | "-" :: _ => ((s.value? "OLDPWD").getD "", true)
    | path :: _ => (path, false)
  let target := if path.isEmpty then "." else path
  let found := if isPlain path then none
    else (s.value? "CDPATH").bind fun dirs =>
      below? s.system.disk target (Context.directories dirs)
  let (full, hasName) := found.getD (if isPlain path then (path, false) else (target, false))
  if !(← goTo (isPhysical given) full) then ShellM.fail s!"can't cd to {path}"
  if prints || hasName then ShellM.print ((← get).directory ++ "\n")
  return 0

/-- Print the path of the working directory. -/
def pwd : Builtin := fun arguments => do
  let (given, _) ← options [('L', false), ('P', false)] arguments
  if isPhysical given then
    if (← get).physicalDirectory.isEmpty then
      let here ← physicalPath
      modify fun s => { s with physicalDirectory := here }
    ShellM.print ((← get).physicalDirectory ++ "\n")
  else ShellM.print ((← get).directory ++ "\n")
  return 0

/-- Set or print the rights that new files do not get. -/
def umask : Builtin := fun arguments => do
  let (given, operands) ← options [('S', false)] arguments
  let mask := (← get).mask
  match operands with
  | [] =>
    if given.isEmpty then ShellM.print (Mode.octal 4 mask ++ "\n")
    else ShellM.print (Mode.symbolic (~~~mask) ++ "\n")
  | word :: _ =>
    match Mask.ofText? mask word with
    | some mask => modify fun s => { s with mask := mask }
    | none =>
      if word.toList.head?.any Char.isDigit then ShellM.failNumber word
      else ShellM.fail s!"Illegal mode: {word}"
  return 0

/-- The letters of the limits of a process. -/
def limits : List Char :=
  ['t', 'f', 'd', 's', 'c', 'm', 'l', 'p', 'n', 'v', 'w', 'r']

/-- Print a limit of the process; setting one changes nothing. -/
def ulimit : Builtin := fun arguments => do
  let known := (['H', 'S', 'a'] ++ limits).map (·, false)
  let (given, operands) ← options known arguments
  match operands with
  | [] => ShellM.print (if has given 'c' then "0\n" else "unlimited\n")
  | word :: _ =>
    if word != "unlimited" && !word.toList.all Char.isDigit then ShellM.fail "bad number"
  return 0

end Keysmith.Shell.Builtin
