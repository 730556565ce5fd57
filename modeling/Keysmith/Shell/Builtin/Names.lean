import Keysmith.Shell.Builtin.Basic
import Keysmith.Shell.Program
import Keysmith.Shell.Special
import Keysmith.Shell.Token

/-! # Commands that say what names mean -/

namespace Keysmith.Shell

/-- Remember where a program is. -/
def State.withFound (s : State) (name path : String) : State :=
  { s with found := s.found.filter (·.1 != name) ++ [(name, path)] }

namespace Builtin

/-- The commands of the shell that are not special. -/
def ordinary : List String :=
  ["[", "alias", "bg", "cd", "chdir", "command", "echo", "false", "fg", "getopts", "hash",
   "jobs", "kill", "printf", "pwd", "read", "test", "true", "type", "ulimit", "umask",
   "unalias", "wait"]

/-- Whether a name is that of a command of the shell. -/
def isBuiltin (name : String) : Bool := isSpecialCommand name || ordinary.contains name

/-- The reserved words of scripts. -/
def isKeyword (name : String) : Bool := Token.keywords.contains name

/-- A number by which names are put in order where they are listed. -/
def disorder (size : Nat) (name : String) : Nat :=
  let codes := name.toList.map Char.toNat
  (codes.headD 0 * 16 + codes.foldl (· + ·) 0) % size

/-- Entries in the order in which they are listed. -/
def inListOrder {α : Type} (size : Nat) (entries : List (String × α)) : List (String × α) :=
  entries.mergeSort fun a b => disorder size a.1 ≤ disorder size b.1

/-! ## Aliases -/

/-- The line that shows an alias. -/
def aliasLine (name value : String) : String := s!"{name}={quoteWord value}\n"

/-- Define aliases, or show them. -/
def defineAlias : Builtin := fun arguments => do
  if arguments.isEmpty then
    (inListOrder 39 (← get).aliases).forM fun (name, value) =>
      ShellM.print (aliasLine name value)
  let mut status := 0
  for word in arguments do
    let s ← get
    match Text.cutAt (· == '=') word.toList.tail with
    | (name, _ :: value) =>
      let name := String.ofList (word.toList.head?.toList ++ name)
      let entry := (name, String.ofList value)
      let aliases := if (s.aliases.lookup name).isSome then
          s.aliases.map fun a => if a.1 == name then entry else a
        else s.aliases ++ [entry]
      set { s with aliases := aliases }
    | _ =>
      match s.aliases.lookup word with
      | some value => ShellM.print (aliasLine word value)
      | none =>
        ShellM.printError s!"alias: {word} not found\n"
        status := 1
  return status

/-- Remove aliases. -/
def removeAlias : Builtin := fun arguments => do
  let (given, names) ← options [('a', false)] arguments
  if !given.isEmpty then
    modify fun s => { s with aliases := [] }
    return 0
  let mut status := 0
  for name in names do
    let s ← get
    if (s.aliases.lookup name).isNone then
      ShellM.printError s!"unalias: {name} not found\n"
      status := 1
    else modify fun s => { s with aliases := s.aliases.filter (·.1 != name) }
  return status

/-! ## Programs -/

/-- Look for a program and remember where it is. -/
def locate (name : String) : ShellM (Except OsError String) := do
  let s ← get
  match Program.search s.system.disk name .noEntry s.searchPath with
  | .ok (path, _) =>
    set (s.withFound name path)
    return .ok path
  | .error e => return .error e

/-- Show or forget the programs that have been found, or look for some. -/
def hash : Builtin := fun arguments => do
  let (given, names) ← options [('r', false)] arguments
  if !given.isEmpty then
    modify fun s => { s with found := [] }
    return 0
  if names.isEmpty then
    (inListOrder 31 (← get).found).forM fun (_, path) => ShellM.print (path ++ "\n")
  let mut status := 0
  for name in names do
    if !isBuiltin name && ((← get).functions.lookup name).isNone && !name.toList.contains '/' then
      match ← locate name with
      | .ok _ => pure ()
      | .error e =>
        ShellM.warn s!"{name}: {Program.refusal e}"
        status := 1
  return status

/-- Say what a name means, in a sentence or by a word to call it by; the status. -/
def describe (isVerbose : Bool) (path : Option String) (name : String) : ShellM Nat := do
  let s ← get
  let tell (sentence word : String) : ShellM Nat := do
    ShellM.print ((if isVerbose then name ++ sentence else word) ++ "\n")
    return 0
  let program : ShellM Nat := do
    let dirs := match path with
      | some path => Context.directories path
      | none => s.searchPath
    let found : Option String :=
      if name.toList.contains '/' then
        if (s.system.disk.find .follow (Text.Octets.toText name)).isOk then some name else none
      else match Program.search s.system.disk name .noEntry dirs with
        | .ok (p, _) => some p
        | .error _ => none
    match found with
    | none =>
      if isVerbose then ShellM.print s!"{name}: not found\n"
      return 127
    | some p =>
      if path.isNone && !name.toList.contains '/' then
        set (s.withFound name p)
      tell s!" is {p}" p
  if isKeyword name then tell " is a shell keyword" name
  else match s.aliases.lookup name with
    | some value =>
      if isVerbose then tell s!" is an alias for {value}" ""
      else
        ShellM.print ("alias " ++ aliasLine name value)
        return 0
    | none =>
      if path.isNone && (s.functions.lookup name).isSome then tell " is a shell function" name
      else if isBuiltin name then
        tell (if isSpecialCommand name then " is a special shell builtin"
          else " is a shell builtin") name
      else match if path.isNone then s.found.lookup name else none with
        | some p => tell s!" is a tracked alias for {p}" p
        | none => program

/-- Say what names mean. -/
def type : Builtin := fun arguments => do
  let statuses ← (← operands arguments).mapM (describe true none)
  return statuses.foldl (· ||| ·) 0

/-- Say what a name means to `command`. -/
def describeCommand : Builtin := fun arguments => do
  let (given, names) ← options [('p', false), ('v', false), ('V', false)] arguments
  let path := if has given 'p' then some Program.standardPath else none
  match names with
  | name :: _ =>
    if has given 'V' then describe true path name
    else if has given 'v' then describe false path name
    else return 0
  | [] => return 0

end Builtin

end Keysmith.Shell
