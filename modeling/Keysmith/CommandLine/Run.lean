import Keysmith.CommandLine.Help
import Keysmith.CommandLine.Reader

/-! # The program

What the command line does: it reads its options, makes a run with the programs that
they name, and prints what the operator should know.  Nothing of the log is
printed. -/

namespace Keysmith.CommandLine

/-- What the program leaves for its caller. -/
structure Ended where
  exit : Nat
  stdout : String
  stderr : String
  deriving DecidableEq, Repr

/-- What is said about a command line that is refused. -/
def UsageError.message : UsageError → String
  | missingRequired => "a required argument is missing"
  | invalidValue => "a value is missing or not allowed"
  | unknownArgument => "unexpected argument found"
  | conflict => "an option cannot be used multiple times"
  | tooManyValues => "an option takes no value"

/-- The end of the program for a command line that makes no run. -/
def stopped : Stop → Ended
  | .usage e =>
    ⟨2, "", s!"error: {e.message}\n\nFor more information, try '--help'.\n"⟩
  | .help full => ⟨0, help full, ""⟩

/-- The end of the program after a run. -/
def finished : Except Failure Provisioned → Ended
  | .error e => ⟨1, "", s!"ERROR: {e.message}\n"⟩
  | .ok p =>
    ⟨0, p.guidance ++ "\n", String.join (p.warnings.map fun w => s!"/!\\ {w}\n")⟩

/-- The program: its end, and the disk and the memory that it leaves. -/
def run {τ : Type} (launcher : Launcher τ) (source : AddressSource τ) (line : List String)
    (d : Disk) (m : τ) : Ended × Disk × τ :=
  match read line with
  | .error stop => (stopped stop, d, m)
  | .ok o =>
    let outcome := Provision.run (o.programs.tool launcher) source o.config o.secret o.host d m
    (finished outcome.result, outcome.disk, outcome.memory)

end Keysmith.CommandLine
