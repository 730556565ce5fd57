import Keysmith.FileSystem.Resolve

/-! # Canonical paths

The canonical path of what an absolute path leads to: it goes down from the root by names
alone, past no link.  `canonicalize` finds the place that has it.  It asks for every place
on the way by that place's own absolute path, which can be too long for a path even where
`Disk.follow`, which goes from directory to directory, gets through. -/

namespace Keysmith

/-- The absolute path of a place. -/
def absolutePath (p : Place) : String := "/" ++ "/".intercalate p

namespace Disk

/-- The path by which a step from a place is asked for.  `.` and `..` ask for a directory at
    the place itself. -/
def asked (here : Place) (step : String) : String :=
  if step = "." ∨ step = ".." then absolutePath here ++ "/" else absolutePath (here ++ [step])

/-- Follow steps, and all links on the way, from one place to the next. -/
def resolve (d : Disk) (links : Nat) (here : Place) : List String → Except OsError Place
  | [] => .ok here
  | step :: rest =>
    if pathLimit ≤ (asked here step).utf8ByteSize then .error .nameTooLong
    else if (d.entries? (.ofPlace here)).isNone then .error .notDirectory
    else if step = "." then resolve d links here rest
    else if step = ".." then resolve d links here.dropLast rest
    else match d.lookup? (.ofPlace here) step with
      | .error e => .error e
      | .ok none => .error .noEntry
      | .ok (some (.link target)) =>
        match links with
        | 0 => .error .tooManyLinks
        | links + 1 =>
          let p := Path.ofString target
          resolve d links (if p.absolute then [] else here) (p.walk ++ rest)
      | .ok (some _) => resolve d links (here ++ [step]) rest
termination_by steps => (links, steps.length)

/-- The place that an absolute path leads to. -/
def canonicalize (d : Disk) (path : String) : Except IoError Place :=
  if path.toList.contains '\x00' then .error .nulInPath
  else (d.resolve maxLinks [] (Path.ofString path).walk).mapError .os

end Disk

end Keysmith
