import Keysmith.Shell.Bindings

/-! # Commands of the shell itself

What they have in common: they get their arguments, work on the state of the shell and
have a status. -/

namespace Keysmith.Shell

/-- A command that works on the state of the shell. -/
abbrev Builtin := List String → ShellM Nat

namespace Builtin

/-- An option that was given. -/
structure Given where
  letter : Char
  /-- Its argument; empty if it has none. -/
  argument : String

/-- The options among some letters at the beginning of arguments, and the other arguments.
    A letter can have an argument, behind it or in the next word. -/
def options (known : List (Char × Bool)) : List String → ShellM (List Given × List String)
  | [] => return ([], [])
  | word :: rest =>
    match word.toList with
    | '-' :: c :: letters =>
      if c == '-' && letters.isEmpty then return ([], rest)
      else inWord known rest (c :: letters)
    | _ => return ([], word :: rest)
where
  /-- The options in a word and behind it. -/
  inWord (known : List (Char × Bool)) (rest : List String) :
      List Char → ShellM (List Given × List String)
    | [] => options known rest
    | c :: letters => do
      match known.lookup c with
      | none => ShellM.fail s!"Illegal option -{c}"
      | some false =>
        let (given, operands) ← inWord known rest letters
        return (⟨c, ""⟩ :: given, operands)
      | some true =>
        match letters, rest with
        | [], [] => ShellM.fail s!"No arg for -{c} option"
        | [], argument :: rest =>
          let (given, operands) ← options known rest
          return (⟨c, argument⟩ :: given, operands)
        | letters, rest =>
          let (given, operands) ← options known rest
          return (⟨c, String.ofList letters⟩ :: given, operands)

/-- The arguments behind options, of which there are none. -/
def operands (arguments : List String) : ShellM (List String) := do
  return (← options [] arguments).2

/-- Whether a letter was given. -/
def has (given : List Given) (letter : Char) : Bool := given.any (·.letter == letter)

/-- Cut a word at its first equals sign. -/
def definition (word : String) : String × Option String :=
  match Text.cutAt (· == '=') word.toList with
  | (name, _ :: value) => (String.ofList name, some (String.ofList value))
  | (name, []) => (String.ofList name, none)

/-- Succeed. -/
def succeed : Builtin := fun _ => return 0

/-- Fail. -/
def failing : Builtin := fun _ => return 1

end Builtin

end Keysmith.Shell
