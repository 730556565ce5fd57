import Keysmith.FileSystem.Entries

/-! # Removing and making whole directories

`removeAll` removes what a path names with all below it; `createAll` makes a
directory together with the directories above it.  Both can fail half way, and then
the disk is left as far as they came. -/

namespace Keysmith.Disk

/-- Remove what a path names.  A link is removed and not followed.  A directory is
    emptied first and then removed by the same path, which may refuse: `..` and `.`
    name no entry, and neither does a link with a slash.  If the path leads nowhere
    once its directory is empty, nothing is left to remove. -/
def removeAll (path : String) (d : Disk) : Except IoError Unit × Disk :=
  match d.find .keep path with
  | .error e => (.error e, d)
  | .ok spot =>
    match d.node? spot with
    | some (.link _) => (.ok (), d.remove spot.place)
    | some (.dir _) =>
      let emptied := d.clear spot.place
      match emptied.rmdir path with
      | .ok removed => (.ok (), removed)
      | .error (.os .noEntry) => (.ok (), emptied)
      | .error e => (.error e, emptied)
    | _ => (.error (.os .notDirectory), d)

/-- Whether a path leads to a directory. -/
def leadsToDirectory (d : Disk) (p : Path) : Bool :=
  match d.findPath .follow p with
  | .error _ => false
  | .ok spot => (d.entries? spot).isSome

/-- Make a directory, or be content with one that is there. -/
def ensureDirectory (p : Path) (d : Disk) : Except OsError Unit × Disk :=
  match d.mkdirPath p with
  | .ok made => (.ok (), made)
  | .error e => if d.leadsToDirectory p then (.ok (), d) else (.error e, d)

/-- Make a directory; if it lacks the directory above it, do `above` and try
    again. -/
def createAfter (above : Disk → Except OsError Unit × Disk) (p : Path) (d : Disk) :
    Except OsError Unit × Disk :=
  match ensureDirectory p d with
  | (.error .noEntry, d) =>
    match above d with
    | (.ok (), d) => ensureDirectory p d
    | failed => failed
  | done => done

/-- Make a directory with those above it, given its components, the last one
    first.  Without components there is nothing to make. -/
def createComponents (absolute : Bool) : List String → Disk → Except OsError Unit × Disk
  | [], d => (.ok (), d)
  | name :: above, d =>
    createAfter (createComponents absolute above)
      { absolute := absolute, steps := (name :: above).reverse, slash := false } d

/-- Make a directory with those above it.  The empty path names a directory that is
    there. -/
def createAll (path : String) (d : Disk) : Except IoError Unit × Disk :=
  match pathOf path with
  | .error (.os .noEntry) => (.ok (), d)
  | .error e => (.error e, d)
  | .ok p =>
    let above := createComponents p.absolute p.components.reverse.tail
    let (result, made) := createAfter above p d
    (result.mapError .os, made)

end Keysmith.Disk
