import Keysmith.OsError

/-! # What can go wrong in a run

`Failure` names the causes for which a run stops; `Failure.message` is the one
place where they are put into words. -/

namespace Keysmith

/-- How a child process ended. -/
inductive ExitStatus where
  | exited (code : Nat)
  | signalled (number : Nat)
  deriving DecidableEq, Repr

namespace ExitStatus

/-- Whether a child process ended well. -/
def isSuccess (s : ExitStatus) : Bool := s == exited 0

/-- The names of the signals, from signal 1 on. -/
def signalNames : List String :=
  ["SIGHUP", "SIGINT", "SIGQUIT", "SIGILL", "SIGTRAP", "SIGABRT", "SIGBUS", "SIGFPE",
   "SIGKILL", "SIGUSR1", "SIGSEGV", "SIGUSR2", "SIGPIPE", "SIGALRM", "SIGTERM", "SIGSTKFLT",
   "SIGCHLD", "SIGCONT", "SIGSTOP", "SIGTSTP", "SIGTTIN", "SIGTTOU", "SIGURG", "SIGXCPU",
   "SIGXFSZ", "SIGVTALRM", "SIGPROF", "SIGWINCH", "SIGIO", "SIGPWR", "SIGSYS"]

/-- The name of a signal, if it has one. -/
def signalName? (number : Nat) : Option String :=
  if number = 0 then none else signalNames[number - 1]?

/-- The text of a status. -/
def message : ExitStatus → String
  | exited code => s!"exit status: {code}"
  | signalled number =>
    match signalName? number with
    | some name => s!"signal: {number} ({name})"
    | none => s!"signal: {number}"

end ExitStatus

/-- The steps that are left to an external tool. -/
inductive ToolStep where
  | versionProbe
  | keypairGeneration
  | certificateExport
  | certificateImport
  deriving DecidableEq, Repr

/-- What a step is called in messages and in the log. -/
def ToolStep.label : ToolStep → String
  | versionProbe => "version probe"
  | keypairGeneration => "keypair generation"
  | certificateExport => "certificate export"
  | certificateImport => "certificate import"

/-- Why a run stopped. -/
inductive Failure where
  /-- The output directory could not be emptied or created. -/
  | outputDir (path : String) (cause : IoError)
  /-- The output directory is the working directory or encloses it. -/
  | unsafeOutputDir (path : String)
  /-- A child process could not be started. -/
  | spawn (program : String) (cause : IoError)
  /-- A child process ended badly. -/
  | toolFailed (step : ToolStep) (status : ExitStatus) (diagnostics : String)
  /-- A version report holds no version. -/
  | unrecognizedVersion (line : String)
  /-- A host name that the certificate should name is no plain DNS name. -/
  | invalidHostname (host : String)
  /-- The machine's address could not be found out. -/
  | addressDiscovery (cause : IoError)
  /-- A file could not be written. -/
  | writeArtifact (path : String) (cause : IoError)
  deriving DecidableEq, Repr

namespace Failure

/-- The text of a failure. -/
def message : Failure → String
  | outputDir path cause => s!"Cannot prepare output directory {path}: {cause.message}"
  | unsafeOutputDir path =>
    s!"Refusing to empty {path}: it is or contains the working directory"
  | spawn program cause => s!"Failed to run `{program}`: {cause.message}"
  | toolFailed step status diagnostics =>
    s!"{step.label} failed ({status.message}): {diagnostics}"
  | unrecognizedVersion line => s!"Cannot parse version report: `{line}`"
  | invalidHostname host => s!"Hostname `{host}` is not a plain DNS name"
  | addressDiscovery cause => s!"Cannot discover outbound IPv4 address: {cause.message}"
  | writeArtifact path cause => s!"Cannot write {path}: {cause.message}"

end Failure

end Keysmith
