import Keysmith.Failure
import Keysmith.FileSystem.Canonical
import Keysmith.FileSystem.Clear

/-! # The output directory

Emptying the output directory before a run.  Emptying removes whatever is there, so
it is refused for the working directory and for every directory that encloses it;
the refusal changes nothing. -/

namespace Keysmith.OutputDir

/-- Whether a path is refused by its spelling: it is empty, or it only moves between
    directories. -/
def isNavigation (dir : String) : Bool := (Path.ofString dir).isNavigation

/-- The place that a path leads to from the working directory, if its canonical form can be
    found. -/
def target? (d : Disk) (cwd : Place) (dir : String) : Option Place :=
  (d.canonicalize (Path.join (absolutePath cwd) dir)).toOption

/-- Whether a path leads from the working directory to that directory or to one that
    encloses it.  A path without a canonical form is taken to lead nowhere: then there is
    nothing to empty. -/
def encloses (d : Disk) (cwd : Place) (dir : String) : Bool :=
  match target? d cwd dir with
  | some place => place.isPrefixOf ((d.canonicalize (absolutePath cwd)).toOption.getD cwd)
  | none => false

/-- Remove a directory with all below it, then make it again.  That it was missing, or
    that its name is still taken afterwards, is no failure. -/
def recreate (dir : String) (d : Disk) : Except Failure Unit × Disk :=
  let create (d : Disk) : Except Failure Unit × Disk :=
    match Disk.createAll dir d with
    | (.error (.os .alreadyExists), made) => (.ok (), made)
    | (.error e, made) => (.error (.outputDir dir e), made)
    | (.ok (), made) => (.ok (), made)
  match Disk.removeAll dir d with
  | (.error (.os .noEntry), d) => create d
  | (.error e, d) => (.error (.outputDir dir e), d)
  | (.ok (), d) => create d

/-- Empty the output directory, making it if it is missing. -/
def reset (dir : String) (d : Disk) : Except Failure Unit × Disk :=
  match d.workingPlace? with
  | none => (.error (.outputDir dir (.os .noEntry)), d)
  | some cwd =>
    if isNavigation dir || encloses d cwd dir then (.error (.unsafeOutputDir dir), d)
    else recreate dir d

end Keysmith.OutputDir
