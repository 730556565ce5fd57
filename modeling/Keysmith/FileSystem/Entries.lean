import Keysmith.FileSystem.Resolve

/-! # Operations on single entries

Making and removing directories, making links, writing files and changing the
working directory.  Each of them either fails and changes nothing, or succeeds. -/

namespace Keysmith.Disk

/-- Make a directory.  The last step has to be a name that is free. -/
def mkdirPath (d : Disk) (p : Path) : Except OsError Disk :=
  match d.locatePath p with
  | .error e => .error e
  | .ok (dir, .name name) =>
    match d.lookup? dir name with
    | .error e => .error e
    | .ok (some _) => .error .alreadyExists
    | .ok none => .ok (d.insert dir.place name (.dir []))
  | .ok _ => .error .alreadyExists

/-- The place of an empty directory that can be removed by a path.  The last step has to
    name it: neither a link to it nor `.` nor `..` will do. -/
def rmdirPlace (d : Disk) (p : Path) : Except OsError Place :=
  match d.locatePath p with
  | .error e => .error e
  | .ok (_, .root) => .error .busy
  | .ok (_, .stay) => .error .invalidArgument
  | .ok (_, .up) => .error .notEmpty
  | .ok (dir, .name name) =>
    match d.lookup? dir name with
    | .error e => .error e
    | .ok none => .error .noEntry
    | .ok (some (.dir [])) => .ok (dir.place ++ [name])
    | .ok (some (.dir _)) => .error .notEmpty
    | .ok (some _) => .error .notDirectory

/-- Remove an empty directory. -/
def rmdirPath (d : Disk) (p : Path) : Except OsError Disk := (d.rmdirPlace p).map d.remove

/-- The place of a file or a link that can be removed by a path. -/
def unlinkPlace (d : Disk) (p : Path) : Except OsError Place :=
  match d.locatePath p with
  | .error e => .error e
  | .ok (dir, .name name) =>
    match d.lookup? dir name with
    | .error e => .error e
    | .ok none => .error .noEntry
    | .ok (some (.dir _)) => .error .isDirectory
    | .ok (some _) => if p.slash then .error .notDirectory else .ok (dir.place ++ [name])
  | .ok _ => .error .isDirectory

/-- Make a directory at a path given as a text. -/
def mkdir (d : Disk) (path : String) : Except IoError Disk := do
  (d.mkdirPath (← pathOf path)).mapError .os

/-- Remove an empty directory at a path given as a text. -/
def rmdir (d : Disk) (path : String) : Except IoError Disk := do
  (d.rmdirPath (← pathOf path)).mapError .os

/-- Make a symbolic link that holds `target`. -/
def symlink (d : Disk) (target path : String) : Except IoError Disk := do
  let _ ← pathOf target
  let p ← pathOf path
  let (dir, last) ← (d.locatePath p).mapError .os
  match last with
  | .name name =>
    match ← (d.lookup? dir name).mapError .os with
    | some _ => .error (.os .alreadyExists)
    | none =>
      if p.slash then .error (.os .noEntry)
      else .ok (d.insert dir.place name (.link target))
  | _ => .error (.os .alreadyExists)

/-- Replace links at the end of a path by what they hold: the spot at which to start,
    and a path that ends in a slash or does not end in a link.  At most so many links
    are replaced. -/
def withoutLastLinks (d : Disk) : Nat → Spot → Path → Spot × Path
  | 0, here, p => (here, p)
  | links + 1, here, p =>
    if p.slash then (here, p)
    else match d.follow .keep maxLinks (start p here) p.steps with
      | .ok (.at spot) =>
        match d.node? spot with
        | some (.link target) => d.withoutLastLinks links spot.up (Path.ofString target)
        | _ => (here, p)
      | _ => (here, p)

/-- The place of the file that a path leads to, for writing, and the disk with that
    file.  A missing file is made, empty and with the given mode; links are followed,
    also to a file that is missing.  A path that ends in a slash, or in a link to such a
    path, asks for a directory. -/
def openForWriting (d : Disk) (mode : Mode) (path : String) :
    Except IoError (Disk × Place) := do
  let p ← pathOf path
  let (here, last) := d.withoutLastLinks maxLinks d.cwd p
  if last.slash then
    let _ ← (d.locateFrom here last).mapError .os
    .error (.os .isDirectory)
  else
    match ← (d.reachPath .follow p).mapError .os with
    | .vacant dir name =>
      .ok (d.insert dir.place name (.file [] mode), dir.place ++ [name])
    | .at spot =>
      match d.node? spot with
      | some (.file _ held) =>
        if held.writes then .ok (d, spot.place) else .error (.os .accessDenied)
      | _ => .error (.os .isDirectory)

/-- Give the file at a place another content; its mode stays what it was. -/
def setContent (d : Disk) (place : Place) (change : Bytes → Bytes) : Disk :=
  { d with root := d.root.modify (fun
      | .file content mode => .file (change content) mode
      | t => t) place }

/-- Write a file: what it held is lost. -/
def write (d : Disk) (path : String) (content : Bytes) : Except IoError Disk := do
  let (opened, place) ← d.openForWriting .data path
  .ok (opened.setContent place fun _ => content)

/-- Change the mode of the file at a place.  Directories keep no mode. -/
def setMode (d : Disk) (place : Place) (change : Mode → Mode) : Disk :=
  { d with root := d.root.modify (fun
      | .file content mode => .file content (change mode)
      | t => t) place }

/-- Change the mode of the file that a path leads to. -/
def chmod (d : Disk) (path : String) (mode : Mode) : Except IoError Disk := do
  .ok (d.setMode (← d.find .follow path).place fun _ => mode)

/-- Change the working directory. -/
def chdir (d : Disk) (path : String) : Except IoError Disk := do
  let spot ← d.find .follow path
  if (d.entries? spot).isSome then .ok { d with cwd := spot }
  else .error (.os .notDirectory)

end Keysmith.Disk
