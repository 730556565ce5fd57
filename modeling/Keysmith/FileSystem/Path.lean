import Keysmith.Text.Lines

/-! # Paths

A path is a text in which slashes stand between steps.  `ofString` takes it apart:
repeated slashes count as one, a slash in front makes the path absolute, and a
slash at the end is kept as a mark, because it asks for a directory.  The steps `.`
and `..` are kept; what they mean depends on the file system.

`join` works on the texts, so that a path is shown as it was put together. -/

namespace Keysmith

/-- A path taken apart. -/
structure Path where
  /-- Whether the path begins at the root. -/
  absolute : Bool
  /-- The steps, none of them empty. -/
  steps : List String
  /-- Whether a slash follows the last step. -/
  slash : Bool
  deriving DecidableEq, Repr

namespace Path

open Text

/-- Take a path apart. -/
def ofString (s : String) : Path :=
  let steps := ((pieces (· == '/') s.toList).filter (!·.isEmpty)).map String.ofList
  { absolute := s.toList.head? == some '/'
    steps := steps
    slash := !steps.isEmpty && s.toList.getLast? == some '/' }

/-- The steps to go when the path is followed: a slash at the end is worth a `.`,
    which likewise asks for a directory and stays there. -/
def walk (p : Path) : List String :=
  if p.slash then p.steps ++ ["."] else p.steps

/-- Whether a path only moves between directories and names nothing. -/
def isNavigation (p : Path) : Bool :=
  p.steps.all fun s => s == "." || s == ".."

/-- The steps without those that only stay; in front of a relative path a `.` is
    kept. -/
def components (p : Path) : List String :=
  match p.steps with
  | [] => []
  | first :: rest =>
    if first == "." && !p.absolute then first :: rest.filter (· != ".")
    else (first :: rest).filter (· != ".")

/-- Put a relative path behind another one.  An absolute one replaces it. -/
def join (dir name : String) : String :=
  if name.toList.head? == some '/' || dir.isEmpty then name
  else if dir.toList.getLast? == some '/' then dir ++ name
  else dir ++ "/" ++ name

end Path

end Keysmith
