import Keysmith.Shell.Bindings

/-! # Programs

What the executable files of a disk are as programs, and how a program is found by
its name.  A file whose first line begins with `#!` names the program that runs it. -/

namespace Keysmith.Shell

/-- A program of the system. -/
inductive Program where
  | shell
  /-- A utility, by its name. -/
  | utility (name : String)
  deriving DecidableEq, Repr

namespace Program

/-- The name of the system's shell. -/
def shellName : String := "dash"

/-- The names of the system's utilities. -/
def utilityNames : List String :=
  ["chmod", "false", "head", "mkdir", "readlink", "rm", "tr", "true"]

/-- The place of the system's own programs. -/
def systemPlace : Place := ["usr", "bin"]

/-- The directories of the system, and its programs in one of them. -/
def systemFiles : List (String × Node) :=
  let empty : Node := .dir []
  let programs := (shellName :: utilityNames).map fun n => (n, Node.file [] .program)
  [("usr", .dir [("bin", .dir (("sh", .link shellName) :: programs)), ("sbin", empty)]),
   ("bin", .link "usr/bin"), ("sbin", .link "usr/sbin"), ("dev", empty), ("etc", empty),
   ("home", empty), ("root", empty), ("var", empty)]

/-- The system's program at a place. -/
def atPlace? (place : Place) : Option Program :=
  if place.dropLast != systemPlace then none
  else match place.getLast? with
    | none => none
    | some name =>
      if name == shellName then some .shell
      else if utilityNames.contains name then some (.utility name)
      else none

/-! ## Interpreters -/

/-- How many bytes of a file are looked at for the program that runs it. -/
def headSize : Nat := 256

/-- Whether a byte is a blank or a tab. -/
def isBlank (b : UInt8) : Bool := b == 32 || b == 9

/-- Whether a byte ends the path of an interpreter. -/
def endsPath (b : UInt8) : Bool := isBlank b || b == 0

/-- The bytes of a first line behind `#!`, without the blanks at its end.  Without a line
    end in the head of the file, which zeros fill up, all of the head but its last byte is
    taken; the path that it begins with has to end in it. -/
def interpreterLine? (content : Bytes) : Option Bytes :=
  let head := content.take headSize
  let padded := head ++ List.replicate (headSize - head.length) 0
  let trimmed (line : Bytes) : Bytes := (line.reverse.dropWhile isBlank).reverse
  match padded with
  | 35 :: 33 :: rest =>
    let text := rest.takeWhile (· != 0)
    if text.contains 10 then some (trimmed (text.takeWhile (· != 10)))
    else if (rest.dropWhile isBlank).any endsPath then some (trimmed rest.dropLast)
    else none
  | _ => none

/-- The path of the program that runs a file, and the argument that it gets.  A zero ends
    both. -/
def interpreter? (content : Bytes) : Option (Bytes × Option Bytes) :=
  (interpreterLine? content).bind fun line =>
    match line.dropWhile isBlank with
    | [] => none
    | line =>
      let name := line.takeWhile (!endsPath ·)
      match line.dropWhile (!endsPath ·) with
      | [] => some (name, none)
      | b :: rest =>
        if b == 0 then some (name, none)
        else some (name, some ((rest.dropWhile isBlank).takeWhile (· != 0)))

/-- How many interpreters can run each other. -/
def maxInterpreters : Nat := 5

/-- The program that a path leads to, with the words that it gets.  The fuel is how many
    interpreters may follow. -/
def load (d : Disk) (fuel : Nat) (path : String) (words : List String) :
    Except OsError (Program × List String) :=
  match d.find .follow (Text.Octets.toText path) with
  | .error (.os e) => .error e
  | .error _ => .error .noEntry
  | .ok spot =>
    match d.node? spot with
    | some (.file content mode) =>
      if !mode.executes then .error .accessDenied
      else match atPlace? spot.place with
        | some p => .ok (p, words)
        | none =>
          match interpreter? content with
          | none => .error .notExecutable
          | some (name, argument) =>
            match fuel with
            | 0 => .error .tooManyLinks
            | fuel + 1 =>
              let name := Text.Octets.ofBytes name
              if name.isEmpty then .error .accessDenied
              else load d fuel name
                (name :: (argument.map Text.Octets.ofBytes).toList ++ path :: words.tail)
    | _ => .error .accessDenied

/-! ## Search -/

/-- The path of a name in a directory of the search path. -/
def pathIn (dir name : String) : String := if dir.isEmpty then name else dir ++ "/" ++ name

/-- The first file of a name in directories that may be executed, with the directories from
    there on. -/
def search (d : Disk) (name : String) (failure : OsError) :
    List String → Except OsError (String × List String)
  | [] => .error failure
  | dir :: dirs =>
    let path := pathIn dir name
    match d.find .follow (Text.Octets.toText path) with
    | .error (.os e) =>
      search d name (if e == .noEntry || e == .notDirectory then failure else e) dirs
    | .error _ => search d name failure dirs
    | .ok spot =>
      match d.node? spot with
      | some (.file _ mode) =>
        if mode.executes then .ok (path, dir :: dirs) else search d name .accessDenied dirs
      | _ => search d name .accessDenied dirs

/-- The directories in which `command -p` looks for programs. -/
def standardPath : String :=
  "/usr/local/sbin:/usr/local/bin:/usr/sbin:/usr/bin:/sbin:/bin"

/-- What is said about a program that cannot be started. -/
def refusal (e : OsError) : String :=
  if e == .noEntry || e == .notDirectory then "not found" else e.description

/-- The status of a shell that cannot start a program. -/
def refusalStatus (e : OsError) : Nat :=
  if [OsError.noEntry, .notDirectory, .tooManyLinks, .nameTooLong].contains e then 127 else 126

end Program

end Keysmith.Shell
