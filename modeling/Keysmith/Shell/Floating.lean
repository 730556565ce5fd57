import Keysmith.Shell.Numeral

/-! # Numbers with fractions

Reading a numeral to the nearest binary number of 53 bits, and writing such a number in
decimal: with a fixed number of places, with an exponent, or as whichever is shorter.
All of it is exact arithmetic on natural numbers; halves go to the even neighbour. -/

namespace Keysmith.Shell

/-- A number: a multiple of a power of two, or none that is finite. -/
inductive Floating where
  | finite (negative : Bool) (significand : Nat) (exponent : Int)
  | infinite (negative : Bool)
  | notNumber (negative : Bool)
  deriving DecidableEq

namespace Floating

/-- Whether a number is below zero, or is a zero that was. -/
def isNegative : Floating → Bool
  | finite n _ _ => n
  | infinite n => n
  | notNumber n => n

/-- The quotient of two numbers, rounded to the nearest one. -/
def divide (n d : Nat) : Nat :=
  let q := n / d
  let twice := 2 * (n % d)
  if twice < d then q else if d < twice then q + 1 else q + q % 2

/-- A power of a small base. -/
def power (base n : Nat) : Nat := Nat.pow base n

/-- A numerator and a denominator for a multiple of a power. -/
def scaled (base n : Nat) (exponent : Int) : Nat × Nat :=
  if exponent < 0 then (n, power base (-exponent).toNat) else (n * power base exponent.toNat, 1)

/-- The smallest and the largest exponent of a number of 53 bits. -/
def exponents : Int × Int := (-1074, 971)

/-- The nearest number to a quotient, and whether there is one that loses no more digits
    than others do. -/
def ofQuotient (negative : Bool) (n d : Nat) : Floating × Bool :=
  if n = 0 then (finite negative 0 0, true)
  else
    let guess : Int := (Nat.log2 n : Int) - (Nat.log2 d : Int) - 52
    let rounded (e : Int) : Nat :=
      if e < 0 then divide (n * power 2 (-e).toNat) d else divide n (d * power 2 e.toNat)
    let e := if rounded guess < power 2 52 then guess - 1 else guess
    let e := max e exponents.1
    let m := rounded e
    let (m, e) := if power 2 53 ≤ m then (m / 2, e + 1) else (m, e)
    if exponents.2 < e then (infinite negative, false)
    else (finite negative m e, power 2 52 ≤ m || n * power 2 (-e).toNat = m * d)

/-- A number that was read. -/
structure Read where
  value : Floating
  rest : List Char
  isOutOfRange : Bool

/-- Read an exponent behind its letter: its value and the rest. -/
def exponent? (letter : Char) (s : List Char) : Option (Int × List Char) :=
  match s with
  | c :: rest =>
    if c.toLower != letter then none
    else
      let (negative, ds) : Bool × List Char := match rest with
        | '-' :: ds => (true, ds)
        | '+' :: ds => (false, ds)
        | ds => (false, ds)
      if !(ds.head?.any Char.isDigit) then none
      else
        let (n, rest) := Numeral.digits 10 ds
        let n := min n 100000
        some (if negative then -n else n, rest)
  | [] => none

/-- Read digits with a point among them: their number, how many are behind the point, and
    the rest.  None without a digit. -/
def pointed? (base : Nat) (s : List Char) : Option (Nat × Nat × List Char) :=
  let isDigit (c : Char) : Bool := (Numeral.digit? base c).isSome
  let front := s.takeWhile isDigit
  let (fraction, rest) := match s.dropWhile isDigit with
    | '.' :: rest => (rest.takeWhile isDigit, rest.dropWhile isDigit)
    | rest => ([], rest)
  if front.isEmpty && fraction.isEmpty then none
  else
    let rest := if front.isEmpty || !fraction.isEmpty then rest else match s.dropWhile isDigit with
      | '.' :: rest => rest
      | rest => rest
    some ((Numeral.digits base (front ++ fraction)).1, fraction.length, rest)

/-- Read a number. -/
def read (s : List Char) : Option Read :=
  let (negative, unsigned) := Numeral.sign s
  let begins (word : String) : Bool :=
    word.toList.isPrefixOf (unsigned.map Char.toLower)
  let decimal : Option Read := do
    let (n, places, rest) ← pointed? 10 unsigned
    let (e, rest) := (exponent? 'e' rest).getD (0, rest)
    let (num, den) := scaled 10 n (e - places)
    let (value, fits) := ofQuotient negative num den
    return ⟨value, rest, !fits && n != 0⟩
  if begins "infinity" then some ⟨infinite negative, unsigned.drop 8, false⟩
  else if begins "inf" then some ⟨infinite negative, unsigned.drop 3, false⟩
  else if begins "nan" then some ⟨notNumber negative, unsigned.drop 3, false⟩
  else match unsigned with
    | '0' :: x :: rest =>
      if x != 'x' && x != 'X' then decimal
      else match pointed? 16 rest with
        | none => decimal
        | some (n, places, rest) =>
          let (e, rest) := (exponent? 'p' rest).getD (0, rest)
          let (num, den) := scaled 2 n (e - 4 * places)
          let (value, fits) := ofQuotient negative num den
          some ⟨value, rest, !fits && n != 0⟩
    | _ => decimal

/-! ## Writing -/

/-- Digits with a point in front of the last ones. -/
def withPoint (places : Nat) (keepsPoint : Bool) (n : Nat) : List Char :=
  let ds := Nat.toDigits 10 n
  let ds := List.replicate (places + 1 - ds.length) '0' ++ ds
  let (front, fraction) := ds.splitAt (ds.length - places)
  if places = 0 && !keepsPoint then front else front ++ '.' :: fraction

/-- A number with a fixed number of places. -/
def fixed (places : Nat) (keepsPoint : Bool) (m : Nat) (e : Int) : List Char :=
  let (n, d) := scaled 2 m e
  withPoint places keepsPoint (divide (n * power 10 places) d)

/-- A number as digits, so many behind the first one, and the power of ten of the first
    one. -/
def significant (places m : Nat) (e : Int) : Nat × Int :=
  if m = 0 then (0, 0)
  else
    let (n, d) := scaled 2 m e
    let guess : Int :=
      if d ≤ n then ((Nat.toDigits 10 (n / d)).length : Int) - 1
      else -((Nat.toDigits 10 ((d - 1) / n)).length : Int)
    let digits (x : Int) : Nat :=
      let shift : Int := places - x
      if shift < 0 then divide n (d * power 10 (-shift).toNat)
      else divide (n * power 10 shift.toNat) d
    let q := digits guess
    if power 10 (places + 1) ≤ q then (digits (guess + 1), guess + 1) else (q, guess)

/-- The exponent of a number behind its letter, in at least two digits. -/
def exponentText (letter : Char) (x : Int) : List Char :=
  let ds := Nat.toDigits 10 x.natAbs
  letter :: (if x < 0 then '-' else '+') :: (List.replicate (2 - ds.length) '0' ++ ds)

/-- A number with an exponent. -/
def scientific (letter : Char) (places : Nat) (keepsPoint : Bool) (m : Nat) (e : Int) :
    List Char :=
  let (q, x) := significant places m e
  withPoint places keepsPoint q ++ exponentText letter x

/-- A numeral without the zeros at the end of its fraction. -/
def withoutZeros (s : List Char) : List Char :=
  if s.contains '.' then
    let kept := s.reverse.dropWhile (· == '0')
    (if kept.head? == some '.' then kept.tail else kept).reverse
  else s

/-- A number with or without an exponent, whichever is shorter. -/
def general (letter : Char) (precision : Nat) (keepsZeros : Bool) (m : Nat) (e : Int) :
    List Char :=
  let digits := max precision 1
  let (q, x) := significant (digits - 1) m e
  if x < -4 || (digits : Int) ≤ x then
    let front := withPoint (digits - 1) keepsZeros q
    (if keepsZeros then front else withoutZeros front) ++ exponentText letter x
  else
    let s := fixed ((digits : Int) - 1 - x).toNat keepsZeros m e
    if keepsZeros then s else withoutZeros s

/-- A number in base 16 with an exponent for base 2.  In front of the point is a one unless
    the number is too small for that. -/
def hexadecimal (isUpper : Bool) (precision : Option Nat) (keepsPoint : Bool) (m : Nat)
    (e : Int) : List Char :=
  let x : Int := if m = 0 then 0 else e + 52
  let places := precision.getD 13
  let q := if places < 13 then divide m (power 16 (13 - places))
    else m * power 16 (places - 13)
  let ds := Nat.toDigits 16 q
  let ds := List.replicate (places + 1 - ds.length) '0' ++ ds
  let (front, fraction) := ds.splitAt (ds.length - places)
  let fraction := if precision.isSome then fraction
    else (fraction.reverse.dropWhile (· == '0')).reverse
  let point := if fraction.isEmpty && !keepsPoint then [] else ['.']
  let sign := if x < 0 then '-' else '+'
  let shown := front ++ point ++ fraction ++ 'p' :: sign :: Nat.toDigits 10 x.natAbs
  if isUpper then shown.map Char.toUpper else shown

/-- The digits of a number by the letter of a conversion, without its sign. -/
def digits (conversion : Char) (precision : Option Nat) (alternate : Bool) : Floating → List Char
  | infinite _ => if conversion.isUpper then ['I', 'N', 'F'] else ['i', 'n', 'f']
  | notNumber _ => if conversion.isUpper then ['N', 'A', 'N'] else ['n', 'a', 'n']
  | finite _ m e =>
    let places := precision.getD 6
    let letter := if conversion.isUpper then 'E' else 'e'
    match conversion.toLower with
    | 'f' => fixed places alternate m e
    | 'e' => scientific letter places alternate m e
    | 'a' => hexadecimal conversion.isUpper precision alternate m e
    | _ => general letter places alternate m e

/-- Whether a number is finite. -/
def isFinite : Floating → Bool
  | finite _ _ _ => true
  | _ => false

end Floating

end Keysmith.Shell
