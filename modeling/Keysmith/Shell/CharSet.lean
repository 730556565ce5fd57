import Keysmith.Shell.Utility.Basic
import Keysmith.Shell.Utility.Quoted

/-! # Sets of characters

What the operands of `tr` list: characters, ranges, classes of characters and characters
that are repeated.  All of them are bytes, and their order matters.

An operand is read in two passes: first backslashes are undone, and then the parts are
found; a character that was written by a backslash is never a bracket or a dash. -/

namespace Keysmith.Shell.CharSet

/-! ## Backslashes -/

/-- A character of an operand. -/
structure Item where
  char : Char
  /-- Whether a backslash stood in front of it. -/
  escaped : Bool

/-- Whether an item is a given character without a backslash. -/
def Item.is (i : Item) (c : Char) : Bool := i.char == c && !i.escaped

/-- Whether a character is an octal digit. -/
def isOctal (c : Char) : Bool := '0' ≤ c && c ≤ '7'

/-- The letters of control characters. -/
def controls : List (Char × Char) :=
  [('a', '\x07'), ('b', '\x08'), ('f', '\x0c'), ('n', '\n'), ('r', '\r'), ('t', '\t'),
   ('v', '\x0b')]

/-- The character behind a backslash, what is left, and a warning. -/
def escape (text : List Char) : Char × List Char × Option String :=
  match text with
  | [] => ('\\', [], none)
  | c :: rest =>
    if isOctal c then
      let digits := (text.take 3).takeWhile isOctal
      let value := Nat.ofDigitChars 8 digits 0
      if value < 256 then (Char.ofNat value, text.drop digits.length, none)
      else
        let (two, last) := (String.ofList (digits.take 2), String.ofList (digits.drop 2))
        (Char.ofNat (Nat.ofDigitChars 8 (digits.take 2) 0), text.drop 2,
          some (s!"warning: the ambiguous octal escape \\{two}{last} is being\n\t" ++
            s!"interpreted as the 2-byte sequence \\0{two}, {last}"))
    else match controls.lookup c with
      | some x => (x, rest, none)
      | none => (c, rest, none)

/-- Undo the backslashes of an operand.  The fuel is its length. -/
def items (fuel : Nat) (text : List Char) : List Item × List String :=
  match fuel, text with
  | 0, _ => ([], [])
  | _, [] => ([], [])
  | _, ['\\'] =>
    ([⟨'\\', false⟩], ["warning: an unescaped backslash at end of string is not portable"])
  | fuel + 1, '\\' :: text =>
    let (c, rest, warning) := escape text
    let (more, warnings) := items fuel rest
    (⟨c, true⟩ :: more, warning.toList ++ warnings)
  | fuel + 1, c :: rest =>
    let (more, warnings) := items fuel rest
    (⟨c, false⟩ :: more, warnings)

/-! ## Elements -/

/-- A part of a set. -/
inductive Element where
  | char (c : Char)
  | range (first last : Char)
  /-- A class by its name. -/
  | class_ (name : String)
  /-- The characters that count the same as one. -/
  | same (c : Char)
  /-- A character so many times; without a number, as often as is needed. -/
  | repeated (c : Char) (count : Option Nat)
  deriving DecidableEq

/-- The characters from one number to another. -/
def between (first last : Nat) : List Char :=
  (List.range (last + 1 - first)).map fun n => Char.ofNat (first + n)

/-- The number of all characters. -/
def size : Nat := 256

/-- All characters. -/
def everything : List Char := between 0 (size - 1)

/-- Whether a character has a shape on paper. -/
def isGraphic (c : Char) : Bool := '!' ≤ c && c ≤ '~'

/-- The tests of the classes by their names. -/
def classes : List (String × (Char → Bool)) :=
  [("alnum", Char.isAlphanum), ("alpha", Char.isAlpha), ("blank", (" \t".toList.contains ·)),
   ("cntrl", fun c => c < ' ' || c == '\x7f'), ("digit", Char.isDigit), ("graph", isGraphic),
   ("lower", Char.isLower), ("print", fun c => ' ' ≤ c && c ≤ '~'),
   ("punct", fun c => isGraphic c && !c.isAlphanum),
   ("space", fun c => c == ' ' || ('\t' ≤ c && c ≤ '\r')), ("upper", Char.isUpper),
   ("xdigit", fun c => c.isDigit || ('a' ≤ c && c ≤ 'f') || ('A' ≤ c && c ≤ 'F'))]

/-- The characters of a class. -/
def classChars (name : String) : List Char :=
  match classes.lookup name with
  | some holds => everything.filter holds
  | none => []

/-- The characters of an element in order. -/
def Element.chars : Element → List Char
  | char c => [c]
  | range first last => between first.toNat last.toNat
  | class_ name => classChars name
  | same c => [c]
  | repeated c count => List.replicate (count.getD 0) c

/-! ## Finding elements -/

/-- The items up to a closing bracket with a mark in front of it, and what is behind. -/
def upToMark (mark : Char) (inside : List Item) : List Item → Option (List Item × List Item)
  | a :: b :: rest =>
    if a.is mark && b.is ']' then some (inside.reverse, rest)
    else upToMark mark (a :: inside) (b :: rest)
  | _ => none

/-- Whether items begin with a star, digits and a closing bracket. -/
def isStarred : List Item → Bool
  | star :: rest =>
    star.is '*' && (rest.dropWhile fun i => i.char.isDigit).head?.any (·.is ']')
  | [] => false

/-- The text of items. -/
def textOf (is : List Item) : String := String.ofList (is.map Item.char)

/-- The most times that a character can be repeated. -/
def mostRepeats : Nat := 9223372036854775807

/-- The count that a text gives for repeating. -/
def count? (text : List Char) : Option Nat :=
  match text with
  | [] => none
  | c :: _ =>
    let base := if c == '0' then 8 else 10
    let isDigit (x : Char) : Bool := if base = 8 then isOctal x else x.isDigit
    let (_, digits) := Numeral.sign text
    let isNegative := (text.dropWhile Numeral.isBlank).head? == some '-'
    if isNegative || digits.isEmpty || !digits.all isDigit then none
    else
      let n := Nat.ofDigitChars base digits 0
      if n ≤ mostRepeats then some n else none

/-- A repeated character that items begin with, behind the opening bracket, and the rest. -/
def repeated? : List Item → Except String (Option (Element × List Item))
  | c :: star :: rest =>
    if !star.is '*' then .ok none
    else
      let inside := rest.takeWhile fun i => !i.escaped && i.char != ']'
      match rest.drop inside.length with
      | closing :: behind =>
        if closing.escaped then .ok none
        else if inside.isEmpty then .ok (some (.repeated c.char none, behind))
        else match count? (inside.map Item.char) with
          | some 0 => .ok (some (.repeated c.char none, behind))
          | some n => .ok (some (.repeated c.char (some n), behind))
          | none =>
            let shown := Utility.Quoted.plain (Utility.Quoted.printable (textOf inside))
            .error s!"invalid repeat count {shown} in [c*n] construct"
      | [] => .ok none
  | _ => .ok none

/-- A class that items begin with, behind the opening bracket, and the rest. -/
def class? : List Item → Except String (Option (Element × List Item))
  | mark :: rest =>
    if !(mark.is ':' || mark.is '=') then .ok none
    else match upToMark mark.char [] rest with
      | none => .ok none
      | some (inside, behind) =>
        let name := textOf inside
        match mark.char, inside with
        | ':', [] => .error "missing character class name '[::]'"
        | _, [] => .error "missing equivalence class character '[==]'"
        | ':', _ =>
          if (classes.lookup name).isSome then .ok (some (.class_ name, behind))
          else if isStarred rest then .ok none
          else
            let shown := Utility.Quoted.plain (Utility.Quoted.printable name)
            .error s!"invalid character class {shown}"
        | _, [c] => .ok (some (.same c.char, behind))
        | _, _ =>
          if isStarred rest then .ok none
          else .error (Utility.Quoted.printable name ++
            ": equivalence class operand must be a single character")
  | [] => .ok none

/-- The elements that items list.  The fuel is their number. -/
def elements (fuel : Nat) (is : List Item) : Except String (List Element) :=
  match fuel, is with
  | 0, _ => .ok []
  | _, [] => .ok []
  | fuel + 1, a :: b :: c :: rest => do
    let inBrackets ←
      if !a.is '[' then .ok none
      else match ← class? (b :: c :: rest) with
        | some found => .ok (some found)
        | none => repeated? (b :: c :: rest)
    match inBrackets with
    | some (e, rest) => return e :: (← elements fuel rest)
    | none =>
      if !b.is '-' then return .char a.char :: (← elements fuel (b :: c :: rest))
      else if c.char < a.char then
        let (first, last) := (Utility.Quoted.character a.char, Utility.Quoted.character c.char)
        .error s!"range-endpoints of '{first}-{last}' are in reverse collating sequence order"
      else return .range a.char c.char :: (← elements fuel rest)
  | fuel + 1, a :: rest => do return .char a.char :: (← elements fuel rest)

/-- Read an operand: warnings, and the elements or what is wrong. -/
def read (operand : String) : List String × Except String (List Element) :=
  let (is, warnings) := items operand.length operand.toList
  (warnings, elements is.length is)

/-- The characters of elements. -/
def chars (es : List Element) : List Char := es.flatMap Element.chars

/-- The characters that are not among the given ones. -/
def complement (cs : List Char) : List Char := everything.filter (!cs.contains ·)

end Keysmith.Shell.CharSet
