import Keysmith.Shell.Call
import Keysmith.Shell.Run.Ending

/-! # Commands made of commands

Lists, loops, choices, copies of the shell and pipelines.

The stages of a pipeline run one after another, and a pipe does not take more than its limit
before it is read.  If the reader then wants more, all is done again with a higher limit, so
that a stage without an end can be the first one. -/

namespace Keysmith.Shell.Run

/-- Run commands one after another. -/
def sequence (run : Runner) (f : Flags) : List Command → ShellM Unit
  | [] => pure ()
  | [c] => run.command f c
  | c :: rest => do
    run.command f.inner c
    if !(← isSkipping) then sequence run f rest

/-- Repeat a loop with a condition. -/
def loop (run : Runner) (f : Flags) (untilTrue : Bool) (condition body : Command) :
    ShellM Unit := do
  modify fun s => { s with loops := s.loops + 1 }
  let status ← ShellM.repeating (fun (status : Nat) => do
    run.command .condition condition
    let tested := (← get).status
    let skip := (← get).skip
    if skip != .nothing then
      if ← afterRound then return .inl status
      else return .inr (if skip == .returned || skip == .left then tested else status)
    else if (tested = 0) = untilTrue then return .inr status
    else
      run.command f.inner body
      let status := (← get).status
      if ← afterRound then return .inl status else return .inr status)
    id ShellM.maxRounds 0
  modify fun s => { s with loops := s.loops - 1, status := status }

/-- Run the body of a loop for each of some words; the status of the last round. -/
def rounds (run : Runner) (f : Flags) (name : String) (body : Command) (status : Nat) :
    List String → ShellM Nat
  | [] => return status
  | item :: rest => do
    ShellM.assign name item
    run.command f.inner body
    let status := (← get).status
    if ← afterRound then rounds run f name body status rest else return status

/-- Repeat a loop for each of some words. -/
def each (run : Runner) (f : Flags) (line : Nat) (name : String) (words : Option (List Word))
    (body : Command) : ShellM Unit := do
  setLine line
  let items ← match words with
    | some ws => Call.arguments (output run) false ws
    | none => pure (← get).arguments
  modify fun s => { s with loops := s.loops + 1 }
  let status ← rounds run f name body 0 items
  modify fun s => { s with loops := s.loops - 1, status := status }

/-- What belongs to the first pattern that matches a text.  None if none does. -/
def matching (run : Runner) (text : List Char) :
    List (Word × Option Command) → ShellM (Option (Option Command))
  | [] => return none
  | (pattern, body) :: rest => do
    if Pattern.isMatch (← Expand.pattern (output run) pattern) text then return some body
    else matching run text rest

/-- Run the arm of a choice that a text belongs to. -/
def choose (run : Runner) (f : Flags) (line : Nat) (subject : Word)
    (arms : List (List Word × Option Command)) : ShellM Unit := do
  setLine line
  let text := (← Expand.text (output run) subject).toList
  match ← matching run text (arms.flatMap fun a => a.1.map (·, a.2)) with
  | some (some body) => run.command f body
  | _ => setStatus 0

/-- Run a command with redirections.  A failure counts as its own if they fail. -/
def redirected (run : Runner) (f : Flags) (line : Nat) (body : Command)
    (redirects : List Redirect) : ShellM Bool := do
  setLine line
  let targets ← Redirection.expand (Expand.text (output run)) redirects
  ShellM.restoringHandles false (← get).handles do
    match ← ShellM.catching (redirectAll run targets) with
    | .ok () =>
      run.command f.inner body
      return false
    | .error .failed =>
      setStatus 2
      return true
    | .error stop => throw stop

/-- Run a command in a copy of the shell. -/
def subshell (run : Runner) (f : Flags) (line : Nat) (body : Command)
    (redirects : List Redirect) : ShellM Unit := do
  setLine line
  let targets ← Redirection.expand (Expand.text (output run)) redirects
  let inner : ShellM Unit := do
    redirectAll run targets
    run.command { f with last := true } body
  if f.last && !(← get).hasTraps then inner
  else setStatus (Job.statusOf (← inChild run id inner))

/-! ## Pipelines -/

/-- The limits of pipes to try. -/
def pipeLimits : List (Option Nat) := [some 65536, some 4194304, some 268435456]

/-- Whether the reader of one of the pipes behind so many would have read more than was
    written. -/
def isStarved (first : Nat) (s : System) : Bool :=
  (s.pipes.toList.drop first).any (·.starved)

/-- Look for the program of a stage of a pipeline, so that it is known where it is. -/
def lookAhead : Command → ShellM Unit
  | .simple _ _ (first :: _) _ => do
    match Word.plain? first with
    | some name =>
      let s ← get
      let isOther := Builtin.isBuiltin name || (s.functions.lookup name).isSome
      if Word.isName name && !isOther && (s.found.lookup name).isNone then
        let _ ← Builtin.locate name
    | none => pure ()
  | _ => pure ()

/-- Run the stages of a pipeline, the first of which reads from an open file if one is
    given; the status of the last one, which is given for no stages. -/
def stages (run : Runner) (f : Flags) (limit : Option Nat) (input : Option Nat)
    (status : Nat) : List Command → ShellM Nat
  | [] => return status
  | stage :: rest => do
    lookAhead stage
    let ends ←
      if rest.isEmpty then pure none
      else
        let s ← get
        let ((readEnd, writeEnd, _), system) := s.system.makePipe limit
        set { s with system := system }
        pure (some (readEnd, writeEnd))
    let change (c : Context) : Context := connected 1 (ends.map Prod.snd) (connected 0 input c)
    let ending ← ShellM.inCopy change
      (finish run (run.command { f with last := true } stage))
    ShellM.reportEnd ending
    stages run f limit (ends.map Prod.fst) (Job.statusOf ending) rest

/-- Run the stages of a pipeline from a state on, with the first of some limits that is high
    enough. -/
def stagesWithin (run : Runner) (f : Flags) (begun : State) (all : List Command) :
    List (Option Nat) → ShellM Nat
  | [] => stages run f none none 0 all
  | limit :: rest => do
    let status ← stages run f limit none 0 all
    if !rest.isEmpty && isStarved begun.system.pipes.size (← get).system then
      set begun
      stagesWithin run f begun all rest
    else return status

/-- Run a pipeline. -/
def pipeline (run : Runner) (f : Flags) (all : List Command) : ShellM Unit := do
  run.jobs
  let begun ← get
  let status ← stagesWithin run f begun all pipeLimits
  let (files, pipes) := (begun.system.files.size, begun.system.pipes.size)
  modify fun s => { s with system := s.system.forget files pipes, status := status }
  ShellM.noteEnd false (.exited status)

end Keysmith.Shell.Run
