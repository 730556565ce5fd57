import Keysmith.Shell.State

/-! # Variables

Looking variables up and changing them.  A variable can be exported, so that programs
get it, and can be read-only.  Some variables mean something to the shell itself:
another `PATH` makes it forget where programs are, and `OPTIND` says where `getopts`
goes on. -/

namespace Keysmith.Shell

namespace Context

/-- A variable. -/
def binding? (c : Context) (name : String) : Option Binding :=
  c.bindings.find? (·.name == name)

/-- The value of a variable.  None if it is unset. -/
def value? (c : Context) (name : String) : Option String :=
  (c.binding? name).bind Binding.value

/-- Put a variable in the place of one of the same name. -/
def withBinding (c : Context) (b : Binding) : Context :=
  { c with bindings := b :: c.bindings.filter (·.name != b.name) }

/-- Take a variable away. -/
def withoutBinding (c : Context) (name : String) : Context :=
  { c with bindings := c.bindings.filter (·.name != name) }

/-- The variables that programs get, with their values. -/
def environment (c : Context) : List (String × String) :=
  c.bindings.filterMap fun b => if b.isExported then b.value.map (b.name, ·) else none

/-- The characters at which words fall apart. -/
def separators (c : Context) : List Char := ((c.value? "IFS").getD " \t\n").toList

/-- The directories of a search path. -/
def directories (path : String) : List String :=
  (Text.pieces (· == ':') path.toList).map String.ofList

/-- Where programs are looked for. -/
def searchPath (c : Context) : List String :=
  match c.value? "PATH" with
  | some path => directories path
  | none => []

end Context

namespace ShellM

/-- What the shell does when a variable gets another value. -/
def notice (name value : String) : ShellM Unit := do
  match name with
  | "PATH" => modify fun s => { s with found := [] }
  | "OPTIND" =>
    let n ← number value
    modify fun s => { s with nextOption := (max n 1, none) }
  | _ => pure ()

/-- How a variable is changed: what it is from then on, besides what it was. -/
structure Change where
  exports : Bool
  locks : Bool

/-- Only another value. -/
def Change.plain : Change := ⟨false, false⟩

/-- Another value, which programs get. -/
def Change.exporting : Change := ⟨true, false⟩

/-- Give a variable a value, or take its value away.  A read-only one is a mistake. -/
def assignAs (how : Change) (name : String) (value : Option String) : ShellM Unit := do
  unless Word.isName name do fail s!"{name}: bad variable name"
  let s ← get
  let old := s.binding? name
  if old.any (·.isReadOnly) then fail s!"{name}: is read only"
  if old.isSome then notice name (value.getD "")
  let exports := how.exports || s.has .allexport
  if value.isNone && !exports && !how.locks then
    modify fun s => { s with toContext := s.toContext.withoutBinding name }
  else
    let b : Binding :=
      { name := name
        value := value
        isExported := exports || old.any (·.isExported)
        isReadOnly := how.locks }
    modify fun s => { s with toContext := s.toContext.withBinding b }

/-- Give a variable a value. -/
def assign (name value : String) : ShellM Unit := assignAs .plain name (some value)

/-- Export a variable or make it read-only, with its value as it is. -/
def mark (how : Change) (name : String) : ShellM Unit := do
  match (← get).binding? name with
  | some b =>
    modify fun s => { s with toContext := s.toContext.withBinding { b with
      isExported := b.isExported || how.exports
      isReadOnly := b.isReadOnly || how.locks } }
  | none => assignAs how name none

/-- Give the command that is being run a variable of its own, with a value or with the
    one that it has outside. -/
def assignLocally (how : Change) (name : String) (value : Option String) : ShellM Unit := do
  let old := (← get).binding? name
  match old, value with
  | some _, none => if how.exports then mark how name
  | _, value => assignAs how name value
  modify fun s => { s with kept := match s.kept with
    | [] => []
    | frame :: rest => (.binding name old :: frame) :: rest }
  if old.isNone && value.isNone then
    modify fun s => { s with toContext := s.toContext.withBinding ⟨name, none, false, false⟩ }

/-- Begin to keep what a command changes for itself. -/
def beginKeeping : ShellM Unit := modify fun s => { s with kept := [] :: s.kept }

/-- Put back what has been kept. -/
def putBack (s : State) : Kept → State
  | .settings old => { s with settings := old }
  | .binding name none =>
    { s with toContext := s.toContext.withoutBinding name }
  | .binding name (some old) =>
    let s : State := { s with toContext := s.toContext.withBinding old }
    match name with
    | "PATH" => { s with found := [] }
    | "OPTIND" =>
      { s with nextOption := (max (((old.value.getD "").toNat?).getD 1) 1, none) }
    | _ => s

/-- Put back what the innermost command has changed for itself. -/
def endKeeping : ShellM Unit := modify fun s =>
  match s.kept with
  | [] => s
  | frame :: rest => frame.foldl putBack { s with kept := rest }

end ShellM

/-- A text in quotes that a shell reads as that text: single quotes, and double ones around
    single quotes. -/
def quoteWord (text : String) : String :=
  String.ofList (quoted text.toList)
where
  /-- Quote what is left of a text, with the first quote. -/
  quoted (s : List Char) : List Char := '\'' :: inSingle s
  /-- Quote what is left of a text behind a single quote. -/
  inSingle : List Char → List Char
    | [] => ['\'']
    | '\'' :: rest => '\'' :: '"' :: '\'' :: inDouble rest
    | c :: rest => c :: inSingle rest
  /-- Quote what is left of a text behind a quoted single quote. -/
  inDouble : List Char → List Char
    | [] => ['"']
    | '\'' :: rest => '\'' :: inDouble rest
    | c :: rest => '"' :: '\'' :: c :: inSingle rest

/-- The lines that list variables, in the order of their names. -/
def listBindings (front : String) (shown : Binding → Bool) (bindings : List Binding) :
    List String :=
  let sorted := (bindings.filter shown).mergeSort fun a b => a.name ≤ b.name
  sorted.map fun b =>
    let front := if front.isEmpty then "" else front ++ " "
    match b.value with
    | some v => s!"{front}{b.name}={quoteWord v}\n"
    | none => s!"{front}{b.name}\n"

end Keysmith.Shell
