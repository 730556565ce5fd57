import Keysmith.KeyTool.Process
import Keysmith.Shell.Run

/-! # Starting programs

How a child process comes about on a disk: the program is found, runs in the working
directory with nothing to read and both outputs caught, and leaves its status and its
outputs.  The working directory of the parent stays what it was, unless it is removed. -/

namespace Keysmith.Shell

namespace Launch

/-- The number of the process that starts programs. -/
def parent : Nat := 1

/-- The number of the process that a program begins with. -/
def child : Nat := 2

/-- How deep commands may stand in each other before a process has no room left. -/
def depth : Nat := 40000

/-- The program that a name means, with the words that it gets: a name with a slash is a
    path, any other is looked for in the given directories.  Directories in which it is
    missing or may not be executed are passed over; what else goes wrong ends the search. -/
def resolve (d : Disk) (dirs : List String) (name : String) (words : List String) :
    Except OsError (Program × List String) :=
  if name.toList.contains '/' then Program.load d Program.maxInterpreters name words
  else if name.isEmpty then .error .noEntry
  else if Disk.maxName < name.length then .error .nameTooLong
  else search .noEntry dirs
where
  /-- Look in one directory after another. -/
  search (failure : OsError) : List String → Except OsError (Program × List String)
    | [] => .error failure
    | dir :: dirs =>
      match Program.load d Program.maxInterpreters (Program.pathIn dir name) words with
      | .ok found => .ok found
      | .error .noEntry => search failure dirs
      | .error .notDirectory => search failure dirs
      | .error .accessDenied => search .accessDenied dirs
      | .error e => .error e

/-- What processes share when a program starts: nothing can be read, and two pipes take both
    outputs. -/
def system (d : Disk) : System :=
  let null : OpenFile := ⟨.null, 0, true, true, false⟩
  let writer (pipe : Nat) : OpenFile := ⟨.pipe pipe, 0, false, true, false⟩
  { disk := d
    homes := [(parent, d.cwd)]
    files := #[null, writer 0, writer 1]
    pipes := #[.empty none, .empty none]
    nextProcess := child + 1
    processes := [child, parent]
    sent := [] }

/-- The variables that a program starts with. -/
def bindings (dirs : List String) : List Binding :=
  [("HOME", "/root"), ("PATH", ":".intercalate dirs)].map fun (name, value) =>
    ⟨name, some value, true, false⟩

/-- The state in which a program starts. -/
def state (d : Disk) (dirs : List String) : State where
  name := ""
  speaker := none
  arguments := []
  bindings := bindings dirs
  functions := []
  aliases := []
  documents := #[]
  settings := []
  traps := []
  deaf := []
  status := 0
  statusBefore := none
  substituted := 0
  skip := .nothing
  loops := 0
  calls := 0
  kept := []
  handles := [(0, 0), (1, 1), (2, 2)]
  line := 0
  readLine := 1
  directory := ""
  physicalDirectory := ""
  mask := Mode.usualMask
  found := []
  nextOption := (1, none)
  process := child
  mainProcess := child
  lastBackground := 0
  inPrompt := false
  system := system d
  jobs := []
  arrived := []
  printed := []

/-- Run a program to its end. -/
def run (p : Program) (words : List String) (s : State) : Child × Disk :=
  let (status, s) : ExitStatus × System := match Run.image (Run.runner depth) p words s with
    | .ok _ s => (.exited (s.status % 256), s.system)
    | .error (.gone ending) s => (ending, s.system)
    | .error _ s => (.exited (s.status % 256), s.system)
  (⟨status, s.pipeBytes 0, s.pipeBytes 1⟩, (s.goHome parent).disk)

/-- Start a program and wait for it.  A NUL character in its name or in an argument is
    refused before anything is looked for. -/
def start (dirs : List String) (program : String) (arguments : List String) (d : Disk) :
    Except IoError (Child × Disk) :=
  if (program :: arguments).any (·.toList.contains '\x00') then .error .nulInArgument
  else
    let words := (program :: arguments).map Text.Octets.ofText
    let dirs := dirs.map Text.Octets.ofText
    match resolve d dirs (Text.Octets.ofText program) words with
    | .error e => .error (.os e)
    | .ok (p, words) => .ok (run p words (state d dirs))

end Launch

/-- Programs that are found by their paths or in the given directories. -/
def launcher {τ : Type} (dirs : List String) : Launcher τ := fun program arguments =>
  Action.onDisk fun d =>
    match Launch.start dirs program arguments d with
    | .ok (child, after) => (.ok child, after)
    | .error e => (.error e, d)

end Keysmith.Shell
