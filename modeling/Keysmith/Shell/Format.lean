import Keysmith.Shell.Escape
import Keysmith.Shell.Floating
import Keysmith.Text.Decimal
import Keysmith.Text.Lines

/-! # Formatted output

What `printf` prints.  A format is literal text and directives, each of which takes
an operand; the format is used again while operands are left.  Missing operands
count as zero or as empty.  All texts are octet texts. -/

namespace Keysmith.Shell.Format

/-- A width or a precision. -/
inductive Amount where
  | given (n : Nat)
  /-- Taken from the operands. -/
  | operand
  deriving DecidableEq

/-- A directive of a format. -/
structure Directive where
  flags : List Char
  width : Option Amount
  precision : Option Amount
  conversion : Char
  deriving DecidableEq

/-- A part of a format. -/
inductive Piece where
  | literal (c : Char)
  | directive (d : Directive)
  /-- A directive that is none, which ends the output with a message. -/
  | faulty (message : String)

/-- Read a width or a precision. -/
def amount (s : List Char) : Option Amount × List Char :=
  match s with
  | '*' :: rest => (some .operand, rest)
  | _ =>
    let (digits, rest) := Text.cutAt (!Char.isDigit ·) s
    if digits.isEmpty then (none, rest) else (some (.given (Text.Decimal.value digits)), rest)

/-- The letters that end a directive. -/
def conversions : List Char :=
  ['b', 'c', 's', 'd', 'i', 'o', 'u', 'x', 'X', 'e', 'E', 'f', 'F', 'g', 'G', 'a', 'A']

/-- Read a directive behind its percent sign. -/
def directive (s : List Char) : Piece × List Char :=
  let (flags, rest) := Text.cutAt (fun c => !(['-', '+', ' ', '#', '0'].contains c)) s
  let (width, rest) := amount rest
  let (precision, rest) := match rest with
    | '.' :: rest =>
      let (p, rest) := amount rest
      (some (p.getD (.given 0)), rest)
    | _ => (none, rest)
  match rest with
  | [] => (.faulty "missing format character", [])
  | c :: rest =>
    if conversions.contains c then (.directive ⟨flags, width, precision, c⟩, rest)
    else
      let shown := String.ofList (s.take (s.length - rest.length))
      (.faulty s!"%{shown}: invalid directive", [])

/-- The parts of a format.  The fuel is the length of the text. -/
def pieces (fuel : Nat) (s : List Char) : List Piece :=
  match fuel with
  | 0 => []
  | fuel + 1 =>
    match s with
    | [] => []
    | '%' :: '%' :: rest => .literal '%' :: pieces fuel rest
    | '%' :: rest =>
      let (p, rest) := directive rest
      p :: pieces fuel rest
    | '\\' :: rest =>
      let (c, rest) := Escape.afterBackslash rest
      .literal c :: pieces fuel rest
    | c :: rest => .literal c :: pieces fuel rest

/-! ## Operands -/

/-- What is wrong with an operand as a number. -/
def complaint? (operand : String) (read : Option (List Char × Bool)) : Option String :=
  match read with
  | none =>
    if operand.isEmpty then none else some s!"{operand}: expected numeric value"
  | some (rest, isOutOfRange) =>
    if !rest.isEmpty then some s!"{operand}: not completely converted"
    else if isOutOfRange then some s!"{operand}: Numerical result out of range"
    else none

/-- The character that an operand shows behind a quote. -/
def shown? (operand : String) : Option Nat :=
  match operand.toList with
  | q :: rest => if q == '"' || q == '\'' then some ((rest.head?.map Char.toNat).getD 0) else none
  | [] => none

/-- The number that an operand stands for, and what is wrong with it. -/
def number (isSigned : Bool) (operand : String) : Int × Option String :=
  match shown? operand with
  | some n => (n, none)
  | none =>
    let read := if isSigned then Numeral.signed 0 operand.toList
      else Numeral.unsigned 0 operand.toList
    ((read.map Numeral.Read.value).getD 0,
      complaint? operand (read.map fun r => (r.rest, r.isOutOfRange)))

/-- The number with a fraction that an operand stands for, and what is wrong with it. -/
def floating (operand : String) : Floating × Option String :=
  match shown? operand with
  | some n => (.finite false n 0, none)
  | none =>
    let read := Floating.read operand.toList
    ((read.map Floating.Read.value).getD (.finite false 0 0),
      complaint? operand (read.map fun r => (r.rest, r.isOutOfRange)))

/-! ## Layout -/

/-- How a directive lays its text out. -/
structure Layout where
  flags : List Char
  width : Nat
  precision : Option Nat

/-- Fill a text up to the width, with zeros between its sign and the rest or with
    blanks. -/
def Layout.fill (l : Layout) (zeros : Bool) (sign text : List Char) : List Char :=
  let missing := l.width - (sign.length + text.length)
  if l.flags.contains '-' then sign ++ text ++ List.replicate missing ' '
  else if zeros && l.flags.contains '0' then sign ++ List.replicate missing '0' ++ text
  else List.replicate missing ' ' ++ sign ++ text

/-- The digits of a number in a base, at least as many as the precision says. -/
def Layout.numeral (l : Layout) (base n : Nat) (upper : Bool) : List Char :=
  let ds := if n = 0 && l.precision == some 0 then [] else Nat.toDigits base n
  let shown := if upper then ds.map Char.toUpper else ds
  List.replicate (l.precision.getD 0 - shown.length) '0' ++ shown

/-- The sign of a number. -/
def Layout.sign (l : Layout) (isNegative : Bool) : List Char :=
  if isNegative then ['-']
  else if l.flags.contains '+' then ['+']
  else if l.flags.contains ' ' then [' ']
  else []

/-- An integer by a conversion. -/
def Layout.number (l : Layout) (conversion : Char) (n : Int) : List Char :=
  let unsigned := n.toNat
  let zeros := l.precision.isNone
  let alternate := l.flags.contains '#'
  match conversion with
  | 'o' =>
    let ds := l.numeral 8 unsigned false
    l.fill zeros [] (if alternate && ds.head? != some '0' then '0' :: ds else ds)
  | 'u' => l.fill zeros [] (l.numeral 10 unsigned false)
  | 'x' =>
    l.fill zeros (if alternate && unsigned != 0 then ['0', 'x'] else [])
      (l.numeral 16 unsigned false)
  | 'X' =>
    l.fill zeros (if alternate && unsigned != 0 then ['0', 'X'] else [])
      (l.numeral 16 unsigned true)
  | _ => l.fill zeros (l.sign (n < 0)) (l.numeral 10 n.natAbs false)

/-- A number with a fraction by a conversion. -/
def Layout.floating (l : Layout) (conversion : Char) (x : Floating) : List Char :=
  let front := if !x.isFinite then [] else match conversion with
    | 'a' => ['0', 'x']
    | 'A' => ['0', 'X']
    | _ => []
  l.fill x.isFinite (l.sign x.isNegative ++ front)
    (x.digits conversion l.precision (l.flags.contains '#'))

/-- A text, cut to the precision. -/
def Layout.text (l : Layout) (s : List Char) : List Char :=
  l.fill false [] (match l.precision with
    | some n => s.take n
    | none => s)

/-! ## Printing -/

/-- What has been printed so far. -/
structure Progress where
  output : String
  /-- The operands that are left. -/
  operands : List String
  complaints : List String
  /-- Whether nothing more is printed. -/
  stopped : Bool
  /-- Why it stopped at a directive that is none. -/
  failure : Option String

namespace Progress

/-- Take an operand. -/
def next (p : Progress) : Option String × Progress :=
  (p.operands.head?, { p with operands := p.operands.tail })

/-- Take an integer. -/
def nextNumber (p : Progress) (isSigned : Bool) : Int × Progress :=
  match p.next with
  | (none, p) => (0, p)
  | (some s, p) =>
    let (n, complaint) := number isSigned s
    (n, { p with complaints := p.complaints ++ complaint.toList })

/-- Take a number with a fraction. -/
def nextFloating (p : Progress) : Floating × Progress :=
  match p.next with
  | (none, p) => (.finite false 0 0, p)
  | (some s, p) =>
    let (x, complaint) := floating s
    (x, { p with complaints := p.complaints ++ complaint.toList })

/-- Print characters. -/
def write (p : Progress) (cs : List Char) : Progress :=
  { p with output := cs.foldl String.push p.output }

/-- Take a width or a precision. -/
def amount (p : Progress) : Option Amount → Option Int × Progress
  | none => (none, p)
  | some (.given n) => (some n, p)
  | some .operand =>
    let (n, p) := p.nextNumber true
    (some n, p)

/-- Print by a directive. -/
def directive (p : Progress) (d : Directive) : Progress :=
  let (width, p) := p.amount d.width
  let (precision, p) := p.amount d.precision
  let width := width.getD 0
  let l : Layout :=
    { flags := if width < 0 then '-' :: d.flags else d.flags
      width := width.natAbs
      precision := (precision.filter (0 ≤ ·)).map Int.toNat }
  match d.conversion with
  | 's' =>
    let (s, p) := p.next
    p.write (l.text (s.getD "").toList)
  | 'b' =>
    let (s, p) := p.next
    let (text, ends) := Escape.expandOperand (s.getD "")
    { p.write (l.text text.toList) with stopped := ends }
  | 'c' =>
    let (s, p) := p.next
    p.write (l.fill false [] [((s.getD "").toList.head?).getD '\x00'])
  | conversion =>
    if ['d', 'i', 'o', 'u', 'x', 'X'].contains conversion then
      let (n, p) := p.nextNumber (conversion == 'd' || conversion == 'i')
      p.write (l.number conversion n)
    else
      let (x, p) := p.nextFloating
      p.write (l.floating conversion x)

/-- Print a part of a format. -/
def piece (p : Progress) (x : Piece) : Progress :=
  if p.stopped then p
  else match x with
    | .literal c => p.write [c]
    | .directive d => p.directive d
    | .faulty message => { p with stopped := true, failure := some message }

end Progress

/-- Use the format again while there are operands that it takes.  The fuel is the number
    of operands. -/
def again (fuel : Nat) (format : List Piece) (p : Progress) : Progress :=
  let left := p.operands.length
  let done := format.foldl Progress.piece p
  match fuel with
  | 0 => done
  | fuel + 1 =>
    if done.stopped || done.operands.isEmpty || done.operands.length = left then done
    else again fuel format done

/-- Print operands by a format. -/
def print (format : String) (operands : List String) : Progress :=
  again operands.length (pieces format.length format.toList)
    { output := "", operands := operands, complaints := [], stopped := false, failure := none }

end Keysmith.Shell.Format
