import Keysmith.FileSystem.Disk
import Keysmith.FileSystem.Path
import Keysmith.OsError

/-! # Following paths

How a path leads to a spot.  Every step needs a directory to stand in; `.` stays,
`..` goes up, a name goes to the entry of that name, and a symbolic link is replaced
by the path it holds.  At most `maxLinks` links are followed on one path.

* `reach` follows a path to what it names, or to the directory that lacks the last
  name.
* `find` follows a path to something that exists.
* `locate` follows all but the last step, for operations on the entry itself. -/

namespace Keysmith.Disk

/-- The most links followed on one path. -/
def maxLinks : Nat := 40

/-- The longest name of an entry, in bytes. -/
def maxName : Nat := 255

/-- The shortest text, in bytes, that is too long for a path. -/
def pathLimit : Nat := 4096

/-- Where a path leads. -/
inductive Reached where
  /-- To something that exists. -/
  | at (spot : Spot)
  /-- To a directory that has no entry of the last name. -/
  | vacant (dir : Spot) (name : String)

/-- What becomes of a link in the last step. -/
inductive LastLink where
  | follow
  | keep
  deriving DecidableEq

/-- Look for an entry of the directory at a spot.  A removed directory has none, and
    a name can be too long for any. -/
def lookup? (d : Disk) (here : Spot) (name : String) : Except OsError (Option Node) :=
  match d.entries? here with
  | none => .error .notDirectory
  | some es =>
    if here.removed ≠ 0 then .error .noEntry
    else if maxName < name.utf8ByteSize then .error .nameTooLong
    else .ok (es.lookup name)

/-- Where a path starts. -/
def start (p : Path) (here : Spot) : Spot := if p.absolute then Spot.root else here

/-- Follow steps from a spot. -/
def follow (d : Disk) (last : LastLink) (links : Nat) (here : Spot) :
    List String → Except OsError Reached
  | [] => .ok (.at here)
  | step :: rest =>
    if (d.entries? here).isNone then .error .notDirectory
    else if step = "." then follow d last links here rest
    else if step = ".." then follow d last links here.up rest
    else match d.lookup? here step with
      | .error e => .error e
      | .ok none => if rest.isEmpty then .ok (.vacant here step) else .error .noEntry
      | .ok (some (.link target)) =>
        if rest.isEmpty && last = .keep then .ok (.at (here.down step))
        else match links with
          | 0 => .error .tooManyLinks
          | links + 1 =>
            let p := Path.ofString target
            follow d last links (start p here) (p.walk ++ rest)
      | .ok (some _) => follow d last links (here.down step) rest
termination_by steps => (links, steps.length)

/-- Follow a path from the working directory. -/
def reachPath (d : Disk) (last : LastLink) (p : Path) : Except OsError Reached :=
  d.follow last maxLinks (start p d.cwd) p.walk

/-- Follow a path to something that exists. -/
def findPath (d : Disk) (last : LastLink) (p : Path) : Except OsError Spot :=
  match d.reachPath last p with
  | .error e => .error e
  | .ok (.vacant _ _) => .error .noEntry
  | .ok (.at spot) => .ok spot

/-- The last step of a path. -/
inductive LastStep where
  | name (name : String)
  | stay
  | up
  | root
  deriving DecidableEq

/-- What the last step of a path is. -/
def lastStep (p : Path) : LastStep :=
  match p.steps.getLast? with
  | none => .root
  | some s => if s = "." then .stay else if s = ".." then .up else .name s

/-- Follow all but the last step of a path from a spot, to a directory. -/
def locateFrom (d : Disk) (here : Spot) (p : Path) : Except OsError (Spot × LastStep) :=
  match d.follow .follow maxLinks (start p here) p.steps.dropLast with
  | .error e => .error e
  | .ok (.vacant _ _) => .error .noEntry
  | .ok (.at spot) =>
    if (d.entries? spot).isNone then .error .notDirectory else .ok (spot, lastStep p)

/-- Follow all but the last step of a path, to a directory. -/
def locatePath (d : Disk) (p : Path) : Except OsError (Spot × LastStep) :=
  d.locateFrom d.cwd p

/-- The path that a text stands for: it must hold no NUL character, and must be neither too
    long nor empty. -/
def pathOf (s : String) : Except IoError Path :=
  if s.toList.contains '\x00' then .error .nulInPath
  else if pathLimit ≤ s.utf8ByteSize then .error (.os .nameTooLong)
  else if s.isEmpty then .error (.os .noEntry)
  else .ok (Path.ofString s)

/-- Follow a path given as a text. -/
def reach (d : Disk) (last : LastLink) (s : String) : Except IoError Reached := do
  (d.reachPath last (← pathOf s)).mapError .os

/-- Follow a path given as a text to something that exists. -/
def find (d : Disk) (last : LastLink) (s : String) : Except IoError Spot := do
  (d.findPath last (← pathOf s)).mapError .os

end Keysmith.Disk
