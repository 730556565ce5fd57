import Keysmith.Text.Octets

/-! # Words in messages

How utilities quote words in their messages: always by apostrophes, by what a shell would
need, or only if a shell would need it.  Bytes that cannot be printed are shown by escapes.

All texts are octet texts. -/

namespace Keysmith.Shell.Utility.Quoted

/-- Whether a character can be printed. -/
def isPrintable (c : Char) : Bool := ' ' ≤ c && c ≤ '~'

/-- The letter of the escape of a control character. -/
def controlLetter? : Char → Option Char
  | '\x07' => some 'a'
  | '\x08' => some 'b'
  | '\t' => some 't'
  | '\n' => some 'n'
  | '\x0b' => some 'v'
  | '\x0c' => some 'f'
  | '\r' => some 'r'
  | _ => none

/-- Three octal digits for a character. -/
def octal (c : Char) : List Char :=
  let ds := Nat.toDigits 8 c.toNat
  List.replicate (3 - ds.length) '0' ++ ds

/-- The escape of a character that cannot be printed. -/
def escape (c : Char) : List Char :=
  match controlLetter? c with
  | some l => ['\\', l]
  | none => '\\' :: octal c

/-- A word between apostrophes, with escapes. -/
def plain (word : String) : String :=
  let shown (c : Char) : List Char :=
    if c == '\'' || c == '\\' then ['\\', c]
    else if isPrintable c then [c]
    else escape c
  String.ofList ('\'' :: word.toList.flatMap shown ++ ['\''])

/-- A text with escapes and without quotes. -/
def printable (text : String) : String :=
  String.ofList (text.toList.flatMap fun c =>
    if c == '\\' then ['\\', '\\'] else if isPrintable c then [c] else escape c)

/-- A character for a message. -/
def character (c : Char) : String :=
  String.ofList (if isPrintable c then [c] else '\\' :: octal c)

/-! ## As a shell needs it -/

/-- Whether a character means nothing to a shell inside of double quotes.  `atStart` and
    `alone` tell where it stands. -/
def isHarmless (atStart alone : Bool) (c : Char) : Bool :=
  if c == '\x7b' || c == '\x7d' then alone
  else if c == '#' || c == '~' then atStart
  else isPrintable c && !("!\"$&()*;<=>[^`|\\?".toList.contains c)

/-- Whether a character can stand in a word of a shell without quotes. -/
def isSafe (atStart alone : Bool) (c : Char) : Bool :=
  if c == '\x7b' || c == '\x7d' then !alone
  else if c == '#' || c == '~' then !atStart
  else isPrintable c && !(" '!\"$&()*;<=>[^`|\\?:".toList.contains c)

/-- The characters of a word with the test whether they pass, each by its position. -/
def all (passes : Bool → Bool → Char → Bool) (cs : List Char) : Bool :=
  let alone := cs.length == 1
  match cs with
  | [] => true
  | c :: rest => passes true alone c && rest.all (passes false alone)

/-- What is left of a word inside of single quotes, of which escaped characters are kept
    out.  It is given whether the last character was escaped. -/
def inSingle (isEscaping : Bool) : List Char → List Char
  | [] => ['\'']
  | c :: rest =>
    if c == '\'' then '\'' :: '\\' :: '\'' :: '\'' :: inSingle false rest
    else if isPrintable c then
      if isEscaping then '\'' :: '\'' :: c :: inSingle false rest else c :: inSingle false rest
    else
      let front := if isEscaping then [] else ['\'', '$', '\'']
      front ++ escape c ++ inSingle true rest

/-- A word in the quotes that a shell needs for it.  A word with an apostrophe is gone over
    twice, the second time as if its last character stood in front. -/
def always (word : String) : String :=
  let cs := word.toList
  let goesOn := cs.contains '\'' && cs.getLast?.any (!isPrintable ·)
  if cs.contains '\'' && all isHarmless cs then String.ofList ('"' :: cs ++ ['"'])
  else String.ofList ('\'' :: inSingle goesOn cs)

/-- A word in quotes if a shell needs some. -/
def ifNeeded (word : String) : String :=
  if !word.isEmpty && all isSafe word.toList then word else always word

end Keysmith.Shell.Utility.Quoted
