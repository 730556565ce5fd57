import Keysmith.CommandLine.Options

/-! # Reading a command line

A command line is read from left to right.  A value is held back until the next item
has been recognised, and is checked then; so an item that is not recognised is what
the line is refused for, even if the value in front of it is wrong as well.

An item is an option if it begins with a hyphen and has more than that.  After `--`
every item is an argument. -/

namespace Keysmith.CommandLine

open Text

/-- An item of a command line. -/
inductive Item where
  /-- Two hyphens alone. -/
  | endOfOptions
  /-- Two hyphens, a name, and a value if an equals sign follows. -/
  | long (name : String) (value : Option String)
  /-- One hyphen and a letter; what follows the letter does not matter. -/
  | short (letter : Char)
  /-- Anything else. -/
  | plain (text : String)
  deriving DecidableEq, Repr

/-- What an item is. -/
def Item.ofString (s : String) : Item :=
  match s.toList with
  | ['-', '-'] => .endOfOptions
  | '-' :: '-' :: rest =>
    match cutAt (· == '=') rest with
    | (name, []) => .long (String.ofList name) none
    | (name, _ :: value) => .long (String.ofList name) (some (String.ofList value))
  | '-' :: letter :: _ => .short letter
  | _ => .plain s

/-- Why reading stops before a command line is understood. -/
inductive Stop where
  | usage (error : UsageError)
  /-- Help is asked for, in full or in brief. -/
  | help (full : Bool)
  deriving DecidableEq, Repr

/-- How far a command line has been read. -/
structure Reading where
  given : Given
  /-- The value that is held back and what it is for; none as yet if an option still
      waits for its value. -/
  pending : Option (Slot × Option String)
  /-- How many arguments there have been. -/
  arguments : Nat
  deriving DecidableEq, Repr

namespace Reading

/-- Before the first item. -/
def start : Reading := ⟨.nothing, none, 0⟩

/-- Check a value. -/
def check (r : Reading) (slot : Slot) (value : Option String) : Except Stop Reading :=
  match value with
  | none => .error (.usage .invalidValue)
  | some v =>
    match r.given.accept v slot with
    | .error e => .error (.usage e)
    | .ok g => .ok { r with given := g }

/-- Check the value that is held back, if any. -/
def settle (r : Reading) : Except Stop Reading :=
  match r.pending with
  | none => .ok r
  | some (slot, value) => { r with pending := none }.check slot value

/-- Hold back a value. -/
def hold (r : Reading) (slot : Slot) (value : Option String) : Reading :=
  { r with pending := some (slot, value) }

/-- Read an argument: the first is the password, the second the host. -/
def argument (r : Reading) (text : String) : Except Stop Reading :=
  match r.arguments with
  | 0 => do return { (← r.settle).hold .password (some text) with arguments := 1 }
  | 1 => do return { (← r.settle).hold .host (some text) with arguments := 2 }
  | _ => .error (.usage .unknownArgument)

/-- Read an option with two hyphens. -/
def long (r : Reading) (name : String) (value : Option String) : Except Stop Reading :=
  if name = "help" then
    if value.isSome then .error (.usage .tooManyValues)
    else do
      let _ ← r.settle
      .error (.help true)
  else match Flag.ofName? name with
    | none => .error (.usage .unknownArgument)
    | some flag => do
      let settled ← r.settle
      match value with
      | none => return settled.hold (.option flag) none
      | some v => settled.check (.option flag) (some v)

/-- Read an option with one hyphen. -/
def short (r : Reading) (letter : Char) : Except Stop Reading :=
  if letter = 'h' then do
    let _ ← r.settle
    .error (.help false)
  else .error (.usage .unknownArgument)

/-- Read something that is no option: the value that an option waits for, or an
    argument. -/
def plain (r : Reading) (text : String) : Except Stop Reading :=
  match r.pending with
  | some (slot, none) => .ok (r.hold slot (some text))
  | _ => r.argument text

/-- Read the items of a command line. -/
def items (r : Reading) : List String → Except Stop Reading
  | [] => r.settle
  | s :: rest =>
    match Item.ofString s with
    | .endOfOptions => do (← rest.foldlM argument r).settle
    | .long name value => do items (← r.long name value) rest
    | .short letter => do items (← r.short letter) rest
    | .plain text => do items (← r.plain text) rest

end Reading

/-- Read a command line. -/
def read (line : List String) : Except Stop Options := do
  let r ← Reading.start.items line
  r.given.options.mapError .usage

end Keysmith.CommandLine
