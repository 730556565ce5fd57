import Keysmith.FileSystem.Node

/-! # The disk and the working directory

A disk is a file tree together with the working directory of the program that uses
it.  The working directory is a spot rather than a place, because it can be removed
while the program is in it: then the program stands some levels below the nearest
directory that is left, in directories that are empty and take no new entries.

Nothing on a disk is out of a program's reach.  Directories have no permissions, so none
of them refuses to be listed, gone through or changed; and a tree can be gone through to
any depth, however many of its directories have to be open at a time. -/

namespace Keysmith

/-- Where a path can start and end: a place, and how many removed directories below
    it one stands. -/
structure Spot where
  place : Place
  removed : Nat
  deriving DecidableEq, Repr

namespace Spot

/-- The spot at a place of the tree. -/
def ofPlace (p : Place) : Spot := ⟨p, 0⟩

/-- The root of the tree. -/
def root : Spot := ofPlace []

/-- One level up; the root is above itself. -/
def up (s : Spot) : Spot :=
  match s.removed with
  | 0 => ofPlace s.place.dropLast
  | n + 1 => ⟨s.place, n⟩

/-- An entry of the directory at a spot. -/
def down (s : Spot) (name : String) : Spot := ofPlace (s.place ++ [name])

/-- The same directory after everything at and below the place `p` was removed. -/
def afterRemove (s : Spot) (p : Place) : Spot :=
  if p.isPrefixOf s.place then
    ⟨p.dropLast, s.removed + (s.place.length - p.dropLast.length)⟩
  else s

/-- The same directory after everything below the place `p` was removed. -/
def afterClear (s : Spot) (p : Place) : Spot :=
  if p.isPrefixOf s.place then ⟨p, s.removed + (s.place.length - p.length)⟩ else s

end Spot

/-- A file tree and the working directory in it. -/
structure Disk where
  root : Node
  cwd : Spot

namespace Disk

/-- What is at a spot.  A removed directory is an empty one. -/
def node? (d : Disk) (s : Spot) : Option Node :=
  match s.removed with
  | 0 => d.root.at? s.place
  | _ + 1 => some (.dir [])

/-- The entries of the directory at a spot. -/
def entries? (d : Disk) (s : Spot) : Option (List (String × Node)) :=
  (d.node? s).bind Node.entries?

/-- The disk without what is at a place. -/
def remove (d : Disk) (p : Place) : Disk :=
  ⟨d.root.remove p, d.cwd.afterRemove p⟩

/-- The disk without what is below the directory at a place. -/
def clear (d : Disk) (p : Place) : Disk :=
  ⟨d.root.clear p, d.cwd.afterClear p⟩

/-- The disk with a new entry in the directory at a place. -/
def insert (d : Disk) (p : Place) (name : String) (x : Node) : Disk :=
  { d with root := d.root.insert p name x }

/-- The disk with something else at a place. -/
def replace (d : Disk) (p : Place) (x : Node) : Disk :=
  { d with root := d.root.modify (fun _ => x) p }

/-- The place of the working directory; none if it has been removed. -/
def workingPlace? (d : Disk) : Option Place :=
  match d.cwd.removed with
  | 0 => some d.cwd.place
  | _ + 1 => none

end Disk

end Keysmith
