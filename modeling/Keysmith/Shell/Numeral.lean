/-! # Numerals of scripts

Integers as the shell and its commands read them: blanks, a sign and digits, with what
is left behind the digits.  Numbers that do not fit in a word of 64 bits become the
nearest one that does. -/

namespace Keysmith.Shell.Numeral

/-- Whether a character is a blank that may stand around a number. -/
def isBlank (c : Char) : Bool := c == ' ' || ('\t' ≤ c && c ≤ '\r')

/-- The value of a digit in a base up to 36. -/
def digit? (base : Nat) (c : Char) : Option Nat :=
  let n :=
    if c.isDigit then c.toNat - 48
    else if c.isAlpha then c.toLower.toNat - 87
    else base
  if n < base then some n else none

/-- The number that leading digits make up, and the rest. -/
def digits (base : Nat) (s : List Char) : Nat × List Char :=
  let isDigit (c : Char) : Bool := (digit? base c).isSome
  ((s.takeWhile isDigit).foldl (fun n c => n * base + (digit? base c).getD 0) 0,
    s.dropWhile isDigit)

/-- The number at the beginning of a text, and the rest.  In base 0 the first digits tell
    the base.  None without a digit. -/
def natural (base : Nat) (s : List Char) : Option (Nat × List Char) :=
  match base, s with
  | 0, '0' :: x :: c :: rest =>
    if (x == 'x' || x == 'X') && (digit? 16 c).isSome then some (digits 16 (c :: rest))
    else some (digits 8 ('0' :: x :: c :: rest))
  | 0, '0' :: rest => some (digits 8 ('0' :: rest))
  | 0, c :: rest => if c.isDigit then some (digits 10 (c :: rest)) else none
  | base, c :: rest => if (digit? base c).isSome then some (digits base (c :: rest)) else none
  | _, [] => none

/-- A number that was read. -/
structure Read where
  value : Int
  /-- What stands behind it. -/
  rest : List Char
  /-- Whether it did not fit. -/
  isOutOfRange : Bool

/-- The smallest and the largest number of 64 bits. -/
def smallest : Int := -9223372036854775808

/-- The largest number of 64 bits with a sign. -/
def largest : Int := 9223372036854775807

/-- The largest number of 64 bits without a sign. -/
def largestUnsigned : Int := 18446744073709551615

/-- Split blanks and a sign off a number. -/
def sign (s : List Char) : Bool × List Char :=
  match s.dropWhile isBlank with
  | '-' :: rest => (true, rest)
  | '+' :: rest => (false, rest)
  | rest => (false, rest)

/-- Read a number with a sign. -/
def signed (base : Nat) (s : List Char) : Option Read :=
  let (negative, unsigned) := sign s
  (natural base unsigned).map fun (n, rest) =>
    let value : Int := if negative then -n else n
    if value < smallest then ⟨smallest, rest, true⟩
    else if largest < value then ⟨largest, rest, true⟩
    else ⟨value, rest, false⟩

/-- Read a number without a sign; a minus takes it from 2⁶⁴. -/
def unsigned (base : Nat) (s : List Char) : Option Read :=
  let (negative, unsigned) := sign s
  (natural base unsigned).map fun (n, rest) =>
    if largestUnsigned < n then ⟨largestUnsigned, rest, true⟩
    else ⟨if negative && n != 0 then largestUnsigned + 1 - n else n, rest, false⟩

/-- The number that a whole word is, with blanks around it. -/
def whole? (base : Nat) (word : String) : Option Int :=
  match signed base word.toList with
  | none => none
  | some r =>
    if r.isOutOfRange || !r.rest.all isBlank then none else some r.value

/-- The largest number that commands take. -/
def mostForCommands : Int := 2147483647

/-- The number that a whole word is for a command. -/
def forCommand? (word : String) : Option Nat :=
  match whole? 10 word with
  | none => none
  | some n => if n < 0 || mostForCommands < n then none else some n.toNat

end Keysmith.Shell.Numeral
