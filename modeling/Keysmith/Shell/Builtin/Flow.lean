import Keysmith.Shell.Builtin.Basic

/-! # Commands that leave something -/

namespace Keysmith.Shell.Builtin

/-- Leave the given number of loops, or one, as far as there are loops. -/
def leaveLoops (skip : Nat → Skip) : Builtin := fun arguments => do
  let n ← match arguments with
    | [] => pure 1
    | word :: _ =>
      let n ← ShellM.number word
      if n = 0 then ShellM.failNumber word
      pure n
  let n := min n (← get).loops
  if n ≠ 0 then modify fun s => { s with skip := skip n }
  return 0

/-- Return from a function or a file. -/
def leaveFunction : Builtin := fun arguments => do
  match arguments with
  | [] =>
    modify fun s => { s with skip := .left }
    return (← get).status
  | word :: _ =>
    let n ← ShellM.number word
    modify fun s => { s with skip := .returned }
    return n

/-- Exit with the given status, or with the current one. -/
def exit : Builtin := fun arguments => do
  match arguments with
  | [] => pure ()
  | word :: _ =>
    let n ← ShellM.number word
    modify fun s => { s with statusBefore := some n }
  throw .exited

/-- Drop arguments from the front. -/
def shift : Builtin := fun arguments => do
  let n ← match arguments with
    | [] => pure 1
    | word :: _ => ShellM.number word
  if (← get).arguments.length < n then ShellM.fail "can't shift that many"
  modify fun s => { s with arguments := s.arguments.drop n, nextOption := (1, none) }
  return 0

/-- Print how much time has been spent: none. -/
def times : Builtin := fun _ => do
  let line := "0m0.000000s 0m0.000000s\n"
  ShellM.print (line ++ line)
  return 0

end Keysmith.Shell.Builtin
