import Keysmith.FileSystem.ModeText

/-! # Masks in words

A mask is given by what it leaves: clauses say who is meant (`u`, `g`, `o`, `a`, or nobody
for all of them), an operator (`+`, `-`, `=`) and rights (`r`, `w`, `x`, `X`, or those that
`u`, `g` or `o` had before).  Further operators of a clause mean those that are named in
front of them or before. -/

namespace Keysmith.Shell.Mask

/-- The lowest bit of the owner, the group or the others, or of all of them. -/
def placeOf : Char → Mode
  | 'u' => 0o100#12
  | 'g' => 0o010#12
  | 'o' => 0o001#12
  | _ => 0o111#12

/-- The letters of those who can be meant. -/
def people : List Char := ['a', 'u', 'g', 'o']

/-- The letters of rights. -/
def rights : List Char := ['r', 'w', 'x', 'u', 'g', 'o', 'X', 's']

/-- The right of a letter in the lowest three bits. -/
def rightOf (left : Mode) : Char → Mode
  | 'r' => 4#12
  | 'w' => 2#12
  | 'x' => 1#12
  | 'u' => left >>> 6
  | 'g' => left >>> 3
  | 'o' => left
  | 'X' => if left.anyExecutes then 1#12 else 0#12
  | _ => 0#12

/-- Change what a mask leaves by an operator. -/
def combine (op : Char) (who value m : Mode) : Mode :=
  match op with
  | '+' => m ||| value
  | '-' => m &&& ~~~value
  | _ => value ||| (m &&& ~~~(who * 7#12))

/-- What a mask leaves after the clauses of a text, given what it left before and what it
    leaves so far.  None if the text is not made of clauses.  The fuel is its length. -/
def change (fuel : Nat) (before who m : Mode) (s : List Char) : Option Mode :=
  match fuel, s with
  | _, [] => some m
  | 0, _ => none
  | fuel + 1, s =>
    let named := s.takeWhile (people.contains ·)
    let who := named.foldl (fun w c => w ||| placeOf c) who
    let who := if who = 0#12 then 0o111#12 else who
    match s.drop named.length with
    | [] => some m
    | op :: rest =>
      if !Mode.isOperator op then none
      else
        let letters := rest.takeWhile (rights.contains ·)
        let value := letters.foldl (fun v c => v ||| rightOf before c) 0#12
        let m := combine op who ((value &&& 7#12) * who) m
        match rest.drop letters.length with
        | [] => some m
        | ',' :: rest => change fuel before 0#12 m rest
        | c :: rest => if Mode.isOperator c then change fuel before who m (c :: rest) else none

/-- The mask after the clauses of a text, or that of octal digits.  None if the text is
    neither. -/
def ofText? (mask : Mode) (text : String) : Option Mode :=
  let s := text.toList
  if s.head?.any Char.isDigit then
    if s.all Mode.isOctalDigit then
      some (BitVec.ofNat 12 (Nat.ofDigitChars 8 s 0) &&& 0o777#12)
    else none
  else (change s.length (~~~mask) 0#12 (~~~mask) s).map fun m => ~~~m &&& 0o777#12

end Keysmith.Shell.Mask
