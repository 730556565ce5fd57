import Keysmith.Shell.Builtin.Basic
import Keysmith.Shell.Condition
import Keysmith.Shell.Format

/-! # Commands that print or test -/

namespace Keysmith.Shell.Builtin

/-- What `echo` prints for its operands, up to the escape that ends all output. -/
def echoed (last : String) : List String → String
  | [] => last
  | [w] =>
    let (text, ends) := Escape.expandOperand w
    if ends then text else text ++ last
  | w :: rest =>
    let (text, ends) := Escape.expandOperand w
    if ends then text else text ++ " " ++ echoed last rest

/-- Print the operands with blanks between them, and a line end unless the first word is
    `-n`. -/
def echo : Builtin := fun arguments => do
  match arguments with
  | "-n" :: rest => ShellM.print (echoed "" rest)
  | rest => ShellM.print (echoed "\n" rest)
  return 0

/-- Print the operands by a format. -/
def printf : Builtin := fun arguments => do
  match ← operands arguments with
  | [] => ShellM.fail "usage: printf format [arg ...]"
  | format :: operands =>
    let done := Format.print format operands
    ShellM.print done.output
    done.complaints.forM ShellM.warn
    match done.failure with
    | some message => ShellM.fail message
    | none => return if done.complaints.isEmpty then 0 else 1

/-- Evaluate a condition. -/
def test : Builtin := fun arguments => do
  return if ← Condition.value arguments then 0 else 1

/-- Evaluate a condition that a bracket closes. -/
def bracket : Builtin := fun arguments => do
  if arguments.getLast? != some "]" then ShellM.fail "missing ]"
  test arguments.dropLast

end Keysmith.Shell.Builtin
