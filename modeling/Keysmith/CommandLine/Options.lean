import Keysmith.KeyTool.Process
import Keysmith.Provision

/-! # Options

What can be said on the command line: two required arguments and five options that
take a value, each at most once. -/

namespace Keysmith.CommandLine

/-- The options that take a value. -/
inductive Flag where
  | keytool
  | java
  | san
  | serverCommand
  | clientCommand
  deriving DecidableEq, Repr

namespace Flag

/-- All options that take a value, in the order of the help text. -/
def all : List Flag := [keytool, java, san, serverCommand, clientCommand]

/-- The name of an option, without its hyphens. -/
def name : Flag → String
  | keytool => "keytool"
  | java => "java"
  | san => "san"
  | serverCommand => "server-command"
  | clientCommand => "client-command"

/-- The option of a name.  Names are not abbreviated. -/
def ofName? (s : String) : Option Flag := all.find? (·.name == s)

end Flag

/-- What a value on the command line is for. -/
inductive Slot where
  | password
  | host
  | option (flag : Flag)
  deriving DecidableEq, Repr

/-- Why a command line is refused. -/
inductive UsageError where
  /-- A required argument is missing. -/
  | missingRequired
  /-- A value is missing or is not allowed. -/
  | invalidValue
  /-- An option is unknown, or there are too many arguments. -/
  | unknownArgument
  /-- An option is given twice. -/
  | conflict
  /-- An option that takes no value is given one. -/
  | tooManyValues
  deriving DecidableEq, Repr

/-- What a command line says. -/
structure Options where
  password : String
  host : String
  keytool : String
  java : String
  san : SanPolicy
  serverCommand : String
  clientCommand : String
  deriving DecidableEq, Repr

namespace Options

/-- The passphrase for the keystores. -/
def secret (o : Options) : Secret := ⟨o.password⟩

/-- What the run is told.  The output directory is not open to choice. -/
def config (o : Options) : Config :=
  { Config.standard with
    san := o.san
    serverCommand := o.serverCommand
    clientCommand := o.clientCommand }

/-- The programs that do the work. -/
def programs (o : Options) : ProcessTool := ⟨o.keytool, o.java⟩

end Options

/-- What has been said so far. -/
structure Given where
  password : Option String
  host : Option String
  keytool : Option String
  java : Option String
  san : Option SanPolicy
  serverCommand : Option String
  clientCommand : Option String
  deriving DecidableEq, Repr

namespace Given

/-- Nothing has been said. -/
def nothing : Given := ⟨none, none, none, none, none, none, none⟩

/-- A text that is not empty. -/
def nonEmpty? (s : String) : Option String := if s.isEmpty then none else some s

/-- Take a value for something that has the value `old` so far: it must have none, and
    the new value has to be allowed. -/
def once {α : Type} (old new : Option α) (set : α → Given) : Except UsageError Given :=
  if old.isSome then .error .conflict
  else match new with
    | none => .error .invalidValue
    | some a => .ok (set a)

/-- Take a value. -/
def accept (g : Given) (value : String) : Slot → Except UsageError Given
  | .password => once g.password (nonEmpty? value) fun v => { g with password := some v }
  | .host => once g.host (nonEmpty? value) fun v => { g with host := some v }
  | .option .keytool => once g.keytool (some value) fun v => { g with keytool := some v }
  | .option .java => once g.java (some value) fun v => { g with java := some v }
  | .option .san =>
    once g.san (SanPolicy.ofWord? value) fun v => { g with san := some v }
  | .option .serverCommand =>
    once g.serverCommand (some value) fun v => { g with serverCommand := some v }
  | .option .clientCommand =>
    once g.clientCommand (some value) fun v => { g with clientCommand := some v }

/-- What has been said in all.  Both arguments have to be there; an option that is not
    has its standard value. -/
def options (g : Given) : Except UsageError Options :=
  match g.password, g.host with
  | some password, some host => .ok
    { password := password
      host := host
      keytool := g.keytool.getD ProcessTool.standard.keytool
      java := g.java.getD ProcessTool.standard.java
      san := g.san.getD Config.standard.san
      serverCommand := g.serverCommand.getD Config.standard.serverCommand
      clientCommand := g.clientCommand.getD Config.standard.clientCommand }
  | _, _ => .error .missingRequired

end Given

end Keysmith.CommandLine
