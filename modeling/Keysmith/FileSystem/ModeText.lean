import Keysmith.FileSystem.Mode
import Keysmith.Text.Lines

/-! # Modes in words

A mode is written in octal digits, or as clauses that change one: who is meant (`u`, `g`,
`o`, `a`), an operator (`+`, `-`, `=`) and rights (`r`, `w`, `x`, `X`, `s`, `t`, or the
rights of `u`, `g` or `o`).  A clause that names nobody means everybody, less what a mask
takes away.

A directory keeps the two bits that let its users take another identity unless a change
mentions them. -/

namespace Keysmith.Mode

/-- All bits. -/
def all : Mode := 0o7777#12

/-- The bits by which users take the identity of the owner or the group. -/
def identityBits : Mode := 0o6000#12

/-- The bits of the owner, the group and the others, with the special bit of each. -/
def classBits : Char → Mode
  | 'u' => 0o4700#12
  | 'g' => 0o2070#12
  | 'o' => 0o1007#12
  | _ => all

/-- The bits of a right for everybody. -/
def rightBits : Char → Mode
  | 'r' => 0o444#12
  | 'w' => 0o222#12
  | 'x' => 0o111#12
  | 's' => identityBits
  | 't' => 0o1000#12
  | _ => 0#12

/-- What a change gives. -/
inductive Rights where
  | bits (m : Mode)
  /-- The right to execute for everybody if anybody has it, or for a directory. -/
  | orExecute (m : Mode)
  /-- The rights of one class for all. -/
  | copied (class_ : Char)
  deriving DecidableEq

/-- A change of a mode. -/
structure Change where
  op : Char
  /-- The bits of those that are meant; none if nobody is named. -/
  affected : Mode
  rights : Rights
  /-- The bits that are mentioned. -/
  mentioned : Mode
  deriving DecidableEq

/-- The rights of one class for all classes. -/
def copyOf (m : Mode) (class_ : Char) : Mode :=
  let shift := match class_ with
    | 'u' => 6
    | 'g' => 3
    | _ => 0
  let three := (m >>> shift) &&& 0o7#12
  three ||| (three <<< 3) ||| (three <<< 6)

/-- Apply a change. -/
def Change.apply (isDirectory : Bool) (mask : Mode) (m : Mode) (c : Change) : Mode :=
  let isNamed := c.affected != 0#12
  let spared := if isDirectory then identityBits &&& ~~~c.mentioned else 0#12
  let given := match c.rights with
    | .bits b => b
    | .orExecute b => if isDirectory || m.anyExecutes then b ||| 0o111#12 else b
    | .copied x => copyOf m x
  let value := given &&& (if isNamed then c.affected else ~~~mask) &&& ~~~spared
  match c.op with
  | '+' => m ||| value
  | '-' => m &&& ~~~value
  | _ => (m &&& ((if isNamed then ~~~c.affected else 0#12) ||| spared)) ||| value

/-- Apply changes in order. -/
def changed (isDirectory : Bool) (mask : Mode) (changes : List Change) (m : Mode) : Mode :=
  changes.foldl (Change.apply isDirectory mask) m

/-! ## Reading -/

/-- Whether a character is an octal digit. -/
def isOctalDigit (c : Char) : Bool := '0' ≤ c && c ≤ '7'

/-- Whether a character is an operator. -/
def isOperator (c : Char) : Bool := c == '+' || c == '-' || c == '='

/-- The mode that octal digits stand for, if there is one. -/
def ofOctal? (digits : List Char) : Option Mode :=
  let n := Nat.ofDigitChars 8 digits 0
  if n ≤ 0o7777 then some (BitVec.ofNat 12 n) else none

/-- Read the rights behind an operator, and the rest. -/
def rights (affected : Mode) (s : List Char) : Rights × Mode × List Char :=
  let mentioned (m : Mode) : Mode := if affected != 0#12 then affected &&& m else m
  match s with
  | 'u' :: rest => (.copied 'u', mentioned 0o700#12, rest)
  | 'g' :: rest => (.copied 'g', mentioned 0o070#12, rest)
  | 'o' :: rest => (.copied 'o', mentioned 0o007#12, rest)
  | s =>
    let letters := s.takeWhile ("rwxXst".toList.contains ·)
    let bits := letters.foldl (fun m c => m ||| rightBits c) 0#12
    (if letters.contains 'X' then .orExecute bits else .bits bits, mentioned bits,
      s.drop letters.length)

/-- Read the operators of a clause with their rights.  The fuel is the length of the
    text. -/
def operators (fuel : Nat) (affected : Mode) (s : List Char) : Option (List Change) :=
  match fuel, s with
  | _, [] => some []
  | 0, _ => none
  | fuel + 1, op :: rest =>
    if !isOperator op then none
    else
      let digits := rest.takeWhile isOctalDigit
      if digits.isEmpty then
        let (given, mentioned, rest) := rights affected rest
        (operators fuel affected rest).map (⟨op, affected, given, mentioned⟩ :: ·)
      else if affected != 0#12 || rest.length != digits.length then none
      else (ofOctal? digits).map fun m => [⟨op, all, .bits m, all⟩]

/-- Read a clause. -/
def clause (s : List Char) : Option (List Change) :=
  let who := s.takeWhile ("ugoa".toList.contains ·)
  let rest := s.drop who.length
  if rest.isEmpty then none
  else operators rest.length (who.foldl (fun m c => m ||| classBits c) 0#12) rest

/-- The change that gives another mode, with the bits that are mentioned. -/
def replacing (m mentioned : Mode) : Change := ⟨'=', all, .bits m, mentioned⟩

/-- Read changes of a mode. -/
def ofText? (text : String) : Option (List Change) :=
  let s := text.toList
  if !s.isEmpty && s.all isOctalDigit then
    (ofOctal? s).map fun m =>
      [replacing m (if s.length < 5 then (m &&& identityBits) ||| 0o1777#12 else all)]
  else
    (Text.pieces (· == ',') s).foldr (fun c rest => do
      return (← clause c) ++ (← rest)) (some [])

/-! ## Showing -/

/-- The digits of a mode in octal, at least so many. -/
def octal (least : Nat) (m : Mode) : String :=
  let ds := Nat.toDigits 8 m.toNat
  String.ofList (List.replicate (least - ds.length) '0' ++ ds)

/-- The rights of the lowest class in letters. -/
def letters (m : Mode) : String :=
  let letter (bit : Nat) (c : Char) : List Char := if m.getLsbD bit then [c] else []
  String.ofList (letter 2 'r' ++ letter 1 'w' ++ letter 0 'x')

/-- The rights of all classes in letters, as a change. -/
def symbolic (m : Mode) : String :=
  s!"u={letters (m >>> 6)},g={letters (m >>> 3)},o={letters m}"

/-- The rights of all classes, with a dash for each one that is missing. -/
def drawn (m : Mode) : String :=
  let letter (bit : Nat) (c : Char) : Char := if m.getLsbD bit then c else '-'
  let last (bit special : Nat) (c : Char) : Char :=
    match m.getLsbD special, m.getLsbD bit with
    | true, true => c
    | true, false => c.toUpper
    | false, true => 'x'
    | false, false => '-'
  String.ofList [letter 8 'r', letter 7 'w', last 6 11 's', letter 5 'r', letter 4 'w',
    last 3 10 's', letter 2 'r', letter 1 'w', last 0 9 't']

end Keysmith.Mode
