/-! # Backslash escapes

The escapes in what is printed: letters that stand for control characters, and up to
three octal digits that stand for a byte.  A backslash before anything else is
itself.  All texts are octet texts.

In operands there are two forms more: `\c` ends all output, and a zero may stand in
front of the octal digits. -/

namespace Keysmith.Shell.Escape

/-- The character that a letter or a backslash stands for behind a backslash. -/
def control? : Char → Option Char
  | 'a' => some '\x07'
  | 'b' => some '\x08'
  | 't' => some '\t'
  | 'n' => some '\n'
  | 'v' => some '\x0b'
  | 'f' => some '\x0c'
  | 'r' => some '\r'
  | 'e' => some '\x1b'
  | '\\' => some '\\'
  | _ => none

/-- Whether a character is an octal digit. -/
def isOctal (c : Char) : Bool := '0' ≤ c && c ≤ '7'

/-- The byte that octal digits stand for. -/
def ofOctal (digits : List Char) : Char := Char.ofNat (Nat.ofDigitChars 8 digits 0 % 256)

/-- Read what follows a backslash: the byte that is meant, and the rest. -/
def afterBackslash (s : List Char) : Char × List Char :=
  match s with
  | [] => ('\\', [])
  | c :: rest =>
    if isOctal c then
      let digits := (s.take 3).takeWhile isOctal
      (ofOctal digits, s.drop digits.length)
    else match control? c with
      | some b => (b, rest)
      | none => ('\\', s)

theorem afterBackslash_length_le (s : List Char) :
    (afterBackslash s).2.length ≤ s.length := by
  unfold afterBackslash
  split
  · simp
  · rename_i c rest
    split
    · simp
    · cases control? c <;> simp

/-- Whether a zero begins an octal number of an operand and is not one of its three
    digits. -/
def skipsZero (s : List Char) : Bool :=
  match s with
  | '0' :: c :: _ => isOctal c
  | _ => false

/-- What follows a backslash in an operand, without the zero in front of octal
    digits. -/
def operandEscape (s : List Char) : List Char :=
  if skipsZero s then s.tail else s

/-- Expand the escapes of an operand behind what is expanded, which is given last first,
    and tell whether they end all output. -/
def expandBehind (done : List Char) (s : List Char) : List Char × Bool :=
  match s with
  | [] => (done.reverse, false)
  | '\\' :: rest =>
    if rest.head? == some 'c' then (done.reverse, true)
    else
      let x := afterBackslash (operandEscape rest)
      expandBehind (x.1 :: done) x.2
  | c :: rest => expandBehind (c :: done) rest
termination_by s.length
decreasing_by
  · have h := afterBackslash_length_le (operandEscape rest)
    have h' : (operandEscape rest).length ≤ rest.length := by
      unfold operandEscape
      split <;> simp
    simp only [List.length_cons]
    omega
  · simp

/-- Expand the escapes of an operand, and tell whether they end all output. -/
def expandOperand (s : String) : String × Bool :=
  let (text, ends) := expandBehind [] s.toList
  (String.ofList text, ends)

end Keysmith.Shell.Escape
