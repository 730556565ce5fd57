/-! # The text that is being read

The characters of a script that are still to be read, with the line that they stand on.
An alias puts its value in front of them; while that is being read the alias means
nothing, and a value that ends in a blank lets the next word be an alias, too. -/

namespace Keysmith.Shell

/-- A text that stands in front of the rest of the input. -/
structure Frame where
  text : List Char
  /-- The alias whose value it is. -/
  name : Option String
  /-- Whether the word behind it may be an alias. -/
  opensNext : Bool

/-- What is still to be read. -/
structure Input where
  frames : List Frame
  line : Nat
  /-- Whether the next word may be an alias because of what has been read. -/
  opened : Bool

namespace Input

/-- The beginning of a text. -/
def ofText (text : String) (line : Nat) : Input :=
  { frames := [⟨text.toList, none, false⟩], line := line, opened := false }

/-- Put the value of an alias in front. -/
def push (i : Input) (name value : String) : Input :=
  let last := value.toList.getLast?
  { i with frames :=
      ⟨value.toList, some name, last == some ' ' || last == some '\t'⟩ :: i.frames }

/-- Whether the value of an alias is being read. -/
def isReading (i : Input) (name : String) : Bool := i.frames.any (·.name == some name)

/-- Leave the frames at whose end the input is. -/
def settle (i : Input) : Input :=
  let done := i.frames.takeWhile (·.text.isEmpty)
  if done.isEmpty then i
  else
    { i with
      frames := i.frames.drop done.length
      opened := i.opened || done.any (·.opensNext) }

/-- Read a character.  None at the end. -/
def next (i : Input) : Option (Char × Input) :=
  match i.frames with
  | ⟨c :: text, name, opens⟩ :: frames =>
    some (c, { i with frames := ⟨text, name, opens⟩ :: frames })
  | _ =>
    let i := i.settle
    match i.frames with
    | ⟨c :: text, name, opens⟩ :: frames =>
      some (c, { i with frames := ⟨text, name, opens⟩ :: frames })
    | _ => none

/-- One line further. -/
def nextLine (i : Input) : Input := { i with line := i.line + 1 }

/-- How many characters there are. -/
def size (i : Input) : Nat := (i.frames.map (·.text.length)).foldl (· + ·) 0

/-- Skip line ends behind backslashes.  The fuel is the number of characters. -/
def joinLines (fuel : Nat) (i : Input) : Input :=
  match fuel with
  | 0 => i
  | fuel + 1 =>
    match i.next with
    | some ('\\', j) =>
      match j.next with
      | some ('\n', j) => joinLines fuel j.nextLine
      | _ => i
    | _ => i

/-- The most characters that are skipped or read at once. -/
def limit : Nat := 1000000000

/-- Read a character behind all joined lines.  None at the end. -/
def nextJoined (i : Input) : Option (Char × Input) := (joinLines limit i).next

/-- What is left of the outermost text. -/
def remainder (i : Input) : List Char := (i.frames.getLast?.map (·.text)).getD []

end Input

end Keysmith.Shell
