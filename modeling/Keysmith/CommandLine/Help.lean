import Keysmith.CommandLine.Options

/-! # Help

The help text, in brief and in full.  Both are written from one description of each
argument and option. -/

namespace Keysmith.CommandLine

/-- What help says about an argument or an option. -/
structure Description where
  /-- How it is written on the command line. -/
  usage : String
  summary : String
  /-- The value that it has if it is not given. -/
  standard : Option String
  /-- The values that it can have, each with its meaning; empty if any will do. -/
  values : List (String × String)

/-- The name of the program. -/
def programName : String := "tlsgen"

/-- What the program is for. -/
def about : String :=
  "Generate keystores for the client and server by shelling out to keytool"

/-- The arguments. -/
def arguments : List Description :=
  [⟨"<PASSWORD>", "Password to use for the keystore", none, []⟩,
   ⟨"<HOSTNAME>", "Hostname of the server", none, []⟩]

/-- A standard value as help shows it: quoted if it holds a space. -/
def showStandard (s : String) : String :=
  if s.toList.contains ' ' then s!"\"{s}\"" else s

/-- What help says about an option. -/
def Flag.description : Flag → Description
  | .keytool =>
    ⟨"--keytool <KEYTOOL>", "keytool executable",
      ProcessTool.standard.keytool, []⟩
  | .java =>
    ⟨"--java <JAVA>", "Java runtime probed for extension support",
      ProcessTool.standard.java, []⟩
  | .san =>
    ⟨"--san <SAN>", "When to add the Subject Alternative Name extension",
      Config.standard.san.word,
      [(SanPolicy.auto.word, "Add the SAN when the installed runtime supports it"),
       (SanPolicy.always.word, "Always add the SAN without probing the runtime"),
       (SanPolicy.never.word, "Never add the SAN")]⟩
  | .serverCommand =>
    ⟨"--server-command <SERVER_COMMAND>", "Server command shown in the instructions",
      Config.standard.serverCommand, []⟩
  | .clientCommand =>
    ⟨"--client-command <CLIENT_COMMAND>", "Client command shown in the instructions",
      Config.standard.clientCommand, []⟩

/-- The beginning of both texts. -/
def helpHeader : String :=
  let usages := " ".intercalate (arguments.map (·.usage))
  s!"{about}\n\nUsage: {programName} [OPTIONS] {usages}\n\nArguments:\n"

/-- The indentation of what is said about an option. -/
def indent : String := "          "

namespace Description

/-- An argument in brief. -/
def briefArgument (d : Description) : String := s!"  {d.usage}  {d.summary}\n"

/-- An argument in full. -/
def fullArgument (d : Description) : String := s!"  {d.usage}\n{indent}{d.summary}\n\n"

/-- An option in brief. -/
def briefOption (d : Description) : String :=
  let standard := match d.standard with
    | none => ""
    | some s => s!" [default: {showStandard s}]"
  let values := if d.values.isEmpty then "" else
    let words := ", ".intercalate (d.values.map Prod.fst)
    s!" [possible values: {words}]"
  s!"      {d.usage}\n{indent}{d.summary}{standard}{values}\n"

/-- The values of an option, one a line, with their meanings in a column. -/
def fullValues (values : List (String × String)) : String :=
  let width := (values.map (·.1.length)).foldl max 0
  let line (v : String × String) : String :=
    let gap := String.ofList (List.replicate (width - v.1.length) ' ')
    s!"{indent}- {v.1}: {gap}{v.2}\n"
  s!"\n{indent}Possible values:\n{String.join (values.map line)}"

/-- An option in full. -/
def fullOption (d : Description) : String :=
  let values := if d.values.isEmpty then "" else fullValues d.values
  let standard := match d.standard with
    | none => ""
    | some s => s!"{indent}\n{indent}[default: {showStandard s}]\n"
  s!"      {d.usage}\n{indent}{d.summary}\n{values}{standard}\n"

end Description

/-- The help text in brief. -/
def briefHelp : String :=
  helpHeader ++ String.join (arguments.map (·.briefArgument)) ++ "\nOptions:\n" ++
    String.join (Flag.all.map (·.description.briefOption)) ++
    s!"  -h, --help\n{indent}Print help (see more with '--help')\n"

/-- The help text in full. -/
def fullHelp : String :=
  helpHeader ++ String.join (arguments.map (·.fullArgument)) ++ "Options:\n" ++
    String.join (Flag.all.map (·.description.fullOption)) ++
    s!"  -h, --help\n{indent}Print help (see a summary with '-h')\n"

/-- The help text. -/
def help (full : Bool) : String := if full then fullHelp else briefHelp

end Keysmith.CommandLine
