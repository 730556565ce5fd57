import Keysmith.Shell.Bindings

/-! # Utilities

The programs of the system that scripts may use.  They get the name by which they were
called and their arguments, and their options can be letters or whole words.

Options are read from the left; the first thing that is wrong counts.  Operands may
stand between them unless a utility wants its options first. -/

namespace Keysmith.Shell

/-- A program of the system. -/
abbrev Utility := String → List String → ShellM Nat

namespace Utility

/-- Whether an option has an argument. -/
inductive Wants where
  | nothing
  | argument
  /-- It can have one, in the same word. -/
  | perhaps
  deriving DecidableEq

/-- An option that is a whole word. -/
structure WordOption where
  name : String
  wants : Wants
  /-- What it means: the letter of that meaning, or another name. -/
  meaning : String

/-- The options of a utility. -/
structure Known where
  letters : List (Char × Wants)
  words : List WordOption

/-- An option that was given. -/
structure Given where
  meaning : String
  argument : Option String
  /-- The word that it stands in. -/
  word : String

/-- Why a command line is refused. -/
structure Refusal where
  message : String
  /-- Further lines. -/
  further : List String
  /-- Whether the help is recommended. -/
  recommendsHelp : Bool

/-- A refusal that recommends the help. -/
def Refusal.misuse (message : String) : Refusal := ⟨message, [], true⟩

/-- A refusal that does not. -/
def Refusal.plain (message : String) : Refusal := ⟨message, [], false⟩

/-- The options that all utilities have. -/
def common : List WordOption := [⟨"help", .nothing, "help"⟩, ⟨"version", .nothing, "version"⟩]

/-! ## Reading options -/

/-- The options in a word of letters, given the next word, and whether that is the argument
    of the last one. -/
def inLetters (known : Known) (word : String) (next : Option String) :
    List Char → List (Except Refusal Given) × Bool
  | [] => ([], false)
  | c :: rest =>
    let given (argument : Option String) : Except Refusal Given := .ok ⟨c.toString, argument, word⟩
    match known.letters.lookup c with
    | none => ([.error (.misuse s!"invalid option -- '{c}'")], false)
    | some .nothing =>
      let (more, usesNext) := inLetters known word next rest
      (given none :: more, usesNext)
    | some .perhaps => ([given (if rest.isEmpty then none else some (String.ofList rest))], false)
    | some .argument =>
      if !rest.isEmpty then ([given (some (String.ofList rest))], false)
      else match next with
        | some argument => ([given (some argument)], true)
        | none => ([.error (.misuse s!"option requires an argument -- '{c}'")], false)

/-- The option that a name or the beginning of one means.  The beginning of several is
    refused unless all mean the same. -/
def named (known : Known) (name : String) (text : String) : Except Refusal WordOption :=
  match known.words.find? (·.name == name) with
  | some o => .ok o
  | none =>
    match known.words.filter fun o => name.isPrefixOf o.name with
    | [] => .error (.misuse s!"unrecognized option '--{text}'")
    | o :: others =>
      if others.all fun x => x.meaning == o.meaning && x.wants == o.wants then .ok o
      else
        let names := (o :: others).map fun x => s!" '--{x.name}'"
        .error (.misuse s!"option '--{text}' is ambiguous; possibilities:{String.join names}")

/-- The option of a word, given the next word, and whether that is its argument. -/
def inWord (known : Known) (word : String) (next : Option String) (text : List Char) :
    Except Refusal Given × Bool :=
  let (name, value) := Text.cutAt (· == '=') text
  let value := match value with
    | _ :: v => some (String.ofList v)
    | [] => none
  match named known (String.ofList name) (String.ofList text) with
  | .error e => (.error e, false)
  | .ok o =>
    match o.wants, value, next with
    | .nothing, some _, _ =>
      (.error (.misuse s!"option '--{o.name}' doesn't allow an argument"), false)
    | .argument, none, none =>
      (.error (.misuse s!"option '--{o.name}' requires an argument"), false)
    | .argument, none, some argument => (.ok ⟨o.meaning, some argument, word⟩, true)
    | _, value, _ => (.ok ⟨o.meaning, value, word⟩, false)

/-- Go over options that were given.  The first refusal counts. -/
def takeAll {σ : Type} (take : σ → Given → Except Refusal σ) (x : σ)
    (given : List (Except Refusal Given)) : Except Refusal σ :=
  given.foldlM (fun x g => do take x (← g)) x

/-- Go over the options among words, and return the operands.  The operands that have been
    read are given last first. -/
def readWords {σ : Type} (known : Known) (optionsFirst : Bool)
    (take : σ → Given → Except Refusal σ) (x : σ) (operands : List String) :
    List String → Except Refusal (σ × List String)
  | [] => .ok (x, operands.reverse)
  | word :: rest =>
    match word.toList with
    | ['-', '-'] => .ok (x, operands.reverse ++ rest)
    | '-' :: c :: letters => do
      let (given, usesNext) :=
        if c == '-' then
          let (g, usesNext) := inWord known word rest.head? letters
          ([g], usesNext)
        else inLetters known word rest.head? (c :: letters)
      let x ← takeAll take x given
      match usesNext, rest with
      | true, _ :: rest => readWords known optionsFirst take x operands rest
      | _, rest => readWords known optionsFirst take x operands rest
    | _ =>
      if optionsFirst then .ok (x, operands.reverse ++ word :: rest)
      else readWords known optionsFirst take x (word :: operands) rest

/-! ## Messages -/

/-- Print lines among the errors, behind what has been printed otherwise. -/
def say (lines : List String) : ShellM Unit := do
  let _ ← ShellM.flush
  lines.forM fun l => ShellM.printError (l ++ "\n")

/-- Say what is wrong. -/
def complain (name message : String) : ShellM Unit := say [s!"{name}: {message}"]

/-- Say what is wrong with the command line, and fail. -/
def refuse (name : String) (r : Refusal) : ShellM Nat := do
  complain name r.message
  say (r.further ++
    if r.recommendsHelp then [s!"Try '{name} --help' for more information."] else [])
  return 1

/-- Read the options and then act. -/
def withOptions {σ : Type} (known : Known) (optionsFirst : Bool) (x : σ)
    (take : σ → Given → Except Refusal σ) (act : σ → List String → Utility) : Utility :=
  fun name arguments => do
    let isStrict := ((← get).value? "POSIXLY_CORRECT").isSome
    match readWords known (optionsFirst || isStrict) take x [] arguments with
    | .error r => refuse name r
    | .ok (x, operands) => act x operands name arguments

/-- Do something with each operand.  The status is 1 if that fails for any of them. -/
def forEach (operands : List String) (act : String → ShellM Bool) : ShellM Nat := do
  let results ← operands.mapM act
  return if results.all id then 0 else 1

/-- Write what has been printed at the end of a utility; its status. -/
def finish (name : String) (status : Nat) : ShellM Nat := do
  match ← ShellM.flush with
  | none => return status
  | some e =>
    complain name s!"write error: {e.description}"
    return 1

end Utility

end Keysmith.Shell
