import Keysmith.FileSystem.Entries
import Keysmith.KeyTool
import Keysmith.Text.Blank

/-! # The tool as child processes

A tool that starts a program for each step and waits for it.  How programs are
started is left to a launcher.  Each command line is logged before its program is
started, with the secret masked. -/

namespace Keysmith

/-- What is left of a child process: how it ended and what it printed. -/
structure Child where
  status : ExitStatus
  stdout : Bytes
  stderr : Bytes
  deriving DecidableEq, Repr

namespace Child

/-- What a child process has to say: what it printed as errors, or what it printed
    otherwise if it printed no errors at all. -/
def report (c : Child) : List Char :=
  Text.Utf8.decode (if c.stderr.isEmpty then c.stdout else c.stderr)

/-- What a failed child process has to say, without blanks at both ends. -/
def diagnostics (c : Child) : String := String.ofList (Text.trim c.report)

/-- A child process that ended badly makes its step fail. -/
def check (step : ToolStep) (c : Child) : Except Failure Child :=
  if c.status.isSuccess then .ok c
  else .error (.toolFailed step c.status c.diagnostics)

end Child

/-- A way to start a program with arguments and wait for it.  It fails if the program
    cannot be started. -/
abbrev Launcher (τ : Type) := String → List String → Action τ IoError Child

/-- The programs that do the work. -/
structure ProcessTool where
  keytool : String
  java : String
  deriving DecidableEq, Repr

namespace ProcessTool

/-- The programs used unless others are given. -/
def standard : ProcessTool := ⟨"keytool", "java"⟩

variable {τ : Type}

/-- Start a program for a step. -/
def spawn (launcher : Launcher τ) (step : ToolStep) (program : String)
    (arguments : List String) : Action τ Failure Child := do
  let child ← (launcher program arguments).mapError (.spawn program)
  Action.ofExcept (child.check step)

/-- Start the key-management program for a step. -/
def run (launcher : Launcher τ) (p : ProcessTool) (step : ToolStep) (secret : Secret)
    (arguments : List String) : Action τ Failure Child := do
  Action.log .debug s!"{step.label}: {p.keytool} {redacted secret arguments}"
  spawn launcher step p.keytool arguments

/-- The programs as a tool. -/
def tool (launcher : Launcher τ) (p : ProcessTool) : KeyTool τ where
  reportVersion := do
    let child ← spawn launcher .versionProbe p.java ["-version"]
    Action.ofExcept (Version.ofReport (String.ofList child.report))
  generateKeypair r := do
    let _ ← run launcher p .keypairGeneration r.secret r.arguments
  exportCertificate r := do
    let child ← run launcher p .certificateExport r.secret r.arguments
    (Action.onDisk? fun d => d.write r.dest child.stdout).mapError (.writeArtifact r.dest)
  importCertificate r := do
    let _ ← run launcher p .certificateImport r.secret r.arguments

end ProcessTool

end Keysmith
