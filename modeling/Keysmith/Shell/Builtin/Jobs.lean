import Keysmith.Shell.Builtin.Basic

/-! # Jobs

The processes that the shell has begun without waiting for them.  They have numbers from 1
on; the number of one that is over and has been waited for is given again.  The last one is
the current one. -/

namespace Keysmith.Shell

namespace Job

/-- Whether the number of a job can be given again. -/
def isSpent (j : Job) : Bool := j.ending.isSome && j.isWaited

/-- The first number from one on that no job has, or that can be given again. -/
def freeNumber (jobs : List Job) : Nat → Nat → Nat
  | 0, n => n
  | fuel + 1, n =>
    if jobs.any fun j => j.number = n && !j.isSpent then freeNumber jobs fuel (n + 1) else n

/-- Add a job in front of jobs. -/
def add (jobs : List Job) (process : Nat)
    (start : Context × Command × List (Redirect × String)) : List Job :=
  let n := freeNumber jobs jobs.length 1
  ⟨n, process, some start, none, false⟩ :: jobs.filter (·.number != n)

/-- What a job is doing. -/
def condition (j : Job) : String :=
  match j.ending with
  | none => "Running"
  | some (.exited 0) => "Done"
  | some (.exited n) => s!"Done({n})"
  | some (.signalled n) => Signal.report n

/-- The status of a shell that a job's end leads to. -/
def statusOf : ExitStatus → Nat
  | .exited n => n % 256
  | .signalled n => 128 + n

/-- The job that a word stands for, or what is wrong with it. -/
def named (jobs : List Job) (word : String) : Except String Job :=
  let missing : Except String Job := .error s!"No such job: {word}"
  match word.toList with
  | '%' :: rest =>
    if rest.isEmpty || rest == ['%'] || rest == ['+'] then
      match jobs with
      | j :: _ => .ok j
      | [] => .error "No current job"
    else if rest == ['-'] then
      match jobs with
      | _ :: j :: _ => .ok j
      | _ => .error "No previous job"
    else match jobs.find? fun j => (toString j.number).toList == rest with
      | some j => .ok j
      | none => missing
  | _ => missing

end Job

namespace Builtin

/-- The line that shows a job, given whether it is the first or the second one. -/
def jobLine (withProcess : Bool) (place : Nat) (j : Job) : String :=
  let sign := match place with
    | 0 => "+"
    | 1 => "-"
    | _ => " "
  let process := if withProcess then s!"{j.process} " else ""
  let line := s!"[{j.number}] {sign} {process}{j.condition}"
  line ++ String.ofList (List.replicate (33 - line.length) ' ') ++ "\n"

/-- List jobs.  One that is over is not listed again. -/
def listJobs (given : List Given) (jobs : List Job) : ShellM Unit := do
  for j in jobs do
    let s ← get
    if has given 'p' then ShellM.print s!"{j.process}\n"
    else ShellM.print (jobLine (has given 'l') (s.jobs.findIdx (·.number = j.number)) j)
    if j.ending.isSome && !has given 'p' then
      modify fun s => { s with jobs := s.jobs.filter (·.number != j.number) }

/-- The job that a word stands for. -/
def jobNamed (word : String) : ShellM Job := do
  match Job.named (← get).jobs word with
  | .ok j => return j
  | .error message => ShellM.fail message

/-- List jobs. -/
def jobs : Builtin := fun arguments => do
  let (given, words) ← options [('l', false), ('p', false)] arguments
  if words.isEmpty then listJobs given (← get).jobs
  else
    for word in words do
      listJobs given [← jobNamed word]
  return 0

/-- Refuse to go on with a job in the foreground or in the background. -/
def resume : Builtin := fun arguments => do
  let words ← operands arguments
  let _ ← jobNamed (words.headD "%")
  let shown := words.headD "(null)"
  ShellM.fail s!"job {shown} not created under job control"

end Builtin

end Keysmith.Shell
