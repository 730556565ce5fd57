import Keysmith.FileSystem.Entries
import Keysmith.Shell.Device

/-! # Redirections

What descriptors lead to after a redirection, and why one can fail. -/

namespace Keysmith.Shell.Redirection

/-- How a path is opened. -/
structure Opening where
  reads : Bool
  writes : Bool
  /-- Whether a missing file is made. -/
  creates : Bool
  /-- Whether the file is emptied. -/
  empties : Bool
  appends : Bool

/-- For reading. -/
def Opening.input : Opening := ⟨true, false, false, false, false⟩

/-- For writing from the beginning. -/
def Opening.output : Opening := ⟨false, true, true, true, false⟩

/-- For writing at the end. -/
def Opening.append : Opening := ⟨false, true, true, false, true⟩

/-- For both. -/
def Opening.both : Opening := ⟨true, true, true, false, false⟩

/-- The code of an error. -/
def codeOf : IoError → OsError
  | .os e => e
  | _ => .noEntry

/-- Open what is at a place of the disk, which is there. -/
def openPlace (o : Opening) (place : Place) (s : System) : Except OsError (Nat × System) :=
  match s.disk.root.at? place with
  | some (.file _ mode) =>
    if (o.reads && !mode.reads) || (o.writes && !mode.writes) then .error .accessDenied
    else
      let s := if o.empties then
          { s with disk := s.disk.setContent place fun _ => [] }
        else s
      .ok (s.addFile ⟨.file place, 0, o.reads, o.writes, o.appends⟩)
  | some (.dir _) =>
    if o.writes then .error .isDirectory
    else .ok (s.addFile ⟨.directory, 0, true, false, false⟩)
  | _ => .error .noEntry

/-- Open a path of the disk.  New files do not get the rights of the mask. -/
def openFile (o : Opening) (mask : Mode) (path : String) (s : System) :
    Except OsError (Nat × System) :=
  let path := Text.Octets.toText path
  if o.creates then
    match s.disk.openForWriting (Mode.unmasked.masked mask) path with
    | .error e => .error (codeOf e)
    | .ok (disk, place) =>
      if (s.disk.root.at? place).isNone then
        let s := { s with disk := disk }
        .ok (s.addFile ⟨.file place, 0, o.reads, o.writes, o.appends⟩)
      else openPlace o place s
  else
    match s.disk.find .follow path with
    | .error e => .error (codeOf e)
    | .ok spot =>
      if spot.removed = 0 then openPlace o spot.place s
      else .ok (s.addFile ⟨.directory, 0, true, false, false⟩)

/-- Open the open file of a descriptor once more. -/
def openAgain (o : Opening) (s : State) (descriptor : Nat) : Except OsError (Nat × System) :=
  match (s.handle? descriptor).bind fun id => s.system.files[id]? with
  | none => .error .noEntry
  | some f =>
    match f.target with
    | .file place => openPlace o place s.system
    | target =>
      .ok (s.system.addFile { f with
        target := target
        position := 0
        reads := o.reads
        writes := o.writes })

/-- Open a path. -/
def openPath (o : Opening) (path : String) (s : State) : Except OsError (Nat × State) :=
  let device (t : Target) : Except OsError (Nat × System) :=
    .ok (s.system.addFile ⟨t, 0, o.reads, o.writes, o.appends⟩)
  let opened := match Device.ofPath? path with
    | some .null => device .null
    | some .zero => device .zero
    | some .full => device .full
    | some .terminal => .error .noDevice
    | some (.descriptor n) => openAgain o s n
    | none => openFile o s.mask path s.system
  opened.map fun (id, system) => (id, { s with system := system })

/-- Whether a path leads to a file, to something else, or nowhere. -/
def kindOf? (path : String) (s : State) : Option Bool :=
  match Device.ofPath? path with
  | some (.descriptor n) =>
    match s.handle? n, Device.target? s path with
    | some _, some (.file _) => some true
    | some _, _ => some false
    | none, _ => none
  | some _ => some false
  | none =>
    match s.system.disk.find .follow (Text.Octets.toText path) with
    | .error _ => none
    | .ok spot =>
      match s.system.disk.node? spot with
      | some (.file _ _) => some true
      | _ => some false

/-- Open a path for writing without overwriting a file. -/
def openNew (path : String) (s : State) : Except OsError (Nat × State) :=
  match kindOf? path s with
  | some true => .error .alreadyExists
  | some false => openPath { Opening.output with empties := false } path s
  | none =>
    match s.system.disk.find .keep (Text.Octets.toText path) with
    | .ok _ => .error .alreadyExists
    | .error _ => openPath .output path s

/-- Why a path cannot be opened. -/
def refusal (action path missing : String) (e : OsError) : String :=
  let text := if e == .noEntry || e == .notDirectory then missing else e.description
  s!"cannot {action} {path}: {text}"

/-- A step that opens something, with what is said if it fails. -/
def openOr (action path missing : String) (f : State → Except OsError (Nat × State)) :
    ShellM Nat := do
  match f (← get) with
  | .ok (id, s) =>
    set s
    return id
  | .error e => ShellM.fail (refusal action path missing e)

/-- Open a path for reading. -/
def openInput (path : String) : ShellM Nat :=
  openOr "open" path "No such file" (openPath .input path)

/-- Open a path for writing. -/
def openOutput (o : Opening) (path : String) : ShellM Nat :=
  openOr "create" path "Directory nonexistent" (openPath o path)

/-- Make a text readable. -/
def openText (text : String) : ShellM Nat := do
  let s ← get
  let ((readEnd, writeEnd, _), system) := s.system.makePipe none
  let system := match system.write writeEnd (Text.Octets.toBytes text) with
    | .ok system => system
    | .error _ => system
  set { s with system := system }
  return readEnd

/-- Let a descriptor lead to where another one leads, or close it. -/
def duplicate (descriptor : Nat) (target : String) : ShellM Unit := do
  let s ← get
  match Device.number? target with
  | none => set (s.disconnect descriptor)
  | some n =>
    if n ≠ descriptor then
      match s.handle? n with
      | some id => set (s.connect descriptor id)
      | none => ShellM.fail s!"{n}: {OsError.badDescriptor.description}"

/-- Carry out a redirection whose target is expanded.  The texts of here-documents are
    given by their numbers. -/
def carryOut (document : Nat → Bool → ShellM String) : Redirect → String → ShellM Unit
  | .mk descriptor kind _, target => do
    let connect (id : Nat) : ShellM Unit := modify (·.connect descriptor id)
    match kind with
    | .input => connect (← openInput target)
    | .readWrite => connect (← openOutput .both target)
    | .output =>
      if (← get).has .noclobber then
        connect (← openOr "create" target "Directory nonexistent" (openNew target))
      else connect (← openOutput .output target)
    | .clobber => connect (← openOutput .output target)
    | .append => connect (← openOutput .append target)
    | .duplicate => duplicate descriptor target
    | .document number expanded => connect (← openText (← document number expanded))

/-- Expand the targets of redirections.  A descriptor has to be a digit, or a dash for
    none. -/
def expand (expandText : Word → ShellM String) (rs : List Redirect) :
    ShellM (List (Redirect × String)) :=
  rs.mapM fun
    | .mk descriptor kind target => do
      let text ← match kind with
        | .document _ _ => pure ""
        | _ => expandText target
      let isDescriptor := text == "-" || (text.length == 1 && text.toList.all Char.isDigit)
      if kind == .duplicate && !isDescriptor then
        ShellM.failReading "Bad fd number"
      return (.mk descriptor kind target, text)

end Keysmith.Shell.Redirection
