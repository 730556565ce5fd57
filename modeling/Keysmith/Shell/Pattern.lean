import Keysmith.Shell.Script

/-! # Patterns

Shell patterns: `*` stands for any characters, `?` for one, brackets for one of those
listed, and a backslash takes its meaning from the character behind it.

A word is expanded to glyphs, which know where quotes were; `Glyph.pattern` gives the
pattern that they make up, in which what was quoted has a backslash in front. -/

namespace Keysmith.Shell

/-- A piece of an expanded word. -/
inductive Glyph where
  /-- A character outside of quotes. -/
  | bare (c : Char)
  /-- A character that was quoted. -/
  | quoted (c : Char)
  /-- A place where quotes begin or end. -/
  | mark
  /-- The end of an argument among others. -/
  | gap
  deriving DecidableEq, Repr

namespace Glyph

/-- The character of a glyph. -/
def char? : Glyph → Option Char
  | bare c => some c
  | quoted c => some c
  | mark => none
  | gap => some '\x00'

/-- The text that glyphs make up. -/
def text (gs : List Glyph) : String := String.ofList (gs.filterMap char?)

/-- The glyphs of a text. -/
def ofText (isQuoted : Bool) (s : String) : List Glyph :=
  s.toList.map (if isQuoted then quoted else bare)

/-- Whether a quoted character would mean something in a pattern. -/
def isSpecial (c : Char) : Bool :=
  ['!', '*', '?', '[', '=', '~', ':', '/', '-', ']', '\\'].contains c

/-- The pattern that glyphs make up.  A backslash from outside of quotes protects what
    follows, so that none is added there. -/
def pattern (protects : Bool) : List Glyph → List Char
  | [] => []
  | mark :: rest => pattern false rest
  | gap :: rest => '\x00' :: pattern false rest
  | bare '\\' :: rest => '\\' :: pattern true rest
  | bare c :: rest => c :: pattern false rest
  | quoted c :: rest =>
    if isSpecial c && !protects then '\\' :: c :: pattern false rest
    else c :: pattern false rest

end Glyph

namespace Pattern

/-- The number of a byte as a character of the system has it: those above 127 are
    negative. -/
def rank (c : Char) : Int := if c.toNat < 128 then c.toNat else (c.toNat : Int) - 256

/-- Whether a character has a shape on paper. -/
def isGraphic (c : Char) : Bool := '!' ≤ c && c ≤ '~'

/-- The classes of characters by their names. -/
def classes : List (String × (Char → Bool)) :=
  [("alnum", Char.isAlphanum), ("alpha", Char.isAlpha),
   ("blank", fun c => c == ' ' || c == '\t'),
   ("cntrl", fun c => c.toNat < 32 || c.toNat = 127), ("digit", Char.isDigit),
   ("graph", isGraphic), ("lower", Char.isLower),
   ("print", fun c => isGraphic c || c == ' '),
   ("punct", fun c => isGraphic c && !c.isAlphanum),
   ("space", fun c => c == ' ' || ('\t' ≤ c && c ≤ '\r')), ("upper", Char.isUpper),
   ("xdigit", fun c => c.isDigit || ('a' ≤ c && c ≤ 'f') || ('A' ≤ c && c ≤ 'F'))]

/-- The class whose name begins a text, behind an opening bracket and in colons, and what
    is behind it. -/
def class? (p : List Char) : Option ((Char → Bool) × List Char) :=
  (classes.find? fun k => (":" ++ k.1 ++ ":]").toList.isPrefixOf p).map fun k =>
    (k.2, p.drop (k.1.length + 3))

/-- Whether brackets list a character, and what is behind them; none if they do not
    close.  The first character belongs to the list even if it is a closing bracket.  The
    fuel is the length of the pattern. -/
def bracket (x : Char) (fuel : Nat) (found : Bool) (p : List Char) :
    Option (Bool × List Char) :=
  match fuel with
  | 0 => none
  | fuel + 1 =>
    let next (found : Bool) (p : List Char) : Option (Bool × List Char) :=
      match p with
      | ']' :: rest => some (found, rest)
      | p => bracket x fuel found p
    let single (c : Char) (p : List Char) : Option (Bool × List Char) :=
      match p with
      | '-' :: d :: rest =>
        if d == ']' then next (found || x == c) p
        else
          let (last, rest) := match d, rest with
            | '\\', e :: rest => (e, rest)
            | d, rest => (d, rest)
          next (found || (rank c ≤ rank x && rank x ≤ rank last)) rest
      | p => next (found || x == c) p
    match p with
    | [] => none
    | '[' :: rest =>
      match class? rest with
      | some (holds, rest) => next (found || holds x) rest
      | none => single '[' rest
    | '\\' :: c :: rest => single c rest
    | c :: rest => single c rest

/-- A text and what is left of it without its first characters. -/
def endings : List Char → List (List Char)
  | [] => [[]]
  | c :: s => (c :: s) :: endings s

/-- Whether a pattern matches a whole text.  The fuel is the length of the pattern. -/
def matchesWith (fuel : Nat) (p s : List Char) : Bool :=
  match fuel, p with
  | _, [] => s.isEmpty
  | 0, _ => false
  | fuel + 1, c :: p =>
    let literally (c : Char) (p : List Char) : Bool :=
      match s with
      | d :: s => c == d && matchesWith fuel p s
      | [] => false
    match c with
    | '\\' =>
      match p with
      | c :: p => literally c p
      | [] => literally '\\' []
    | '?' =>
      match s with
      | _ :: s => matchesWith fuel p s
      | [] => false
    | '*' => (endings s).any (matchesWith fuel p)
    | '[' =>
      match s with
      | [] => false
      | x :: s =>
        let (negated, listed) := match p with
          | '!' :: rest => (true, rest)
          | p => (false, p)
        match bracket x (fuel + 1) false listed with
        | none => literally '[' p
        | some (found, rest) => found != negated && matchesWith fuel rest s
    | c => literally c p

/-- Whether a pattern matches a whole text. -/
def isMatch (p s : List Char) : Bool := matchesWith p.length p s

/-! ## Cutting -/

/-- A text up to its first zero. -/
def upToZero (s : List Char) : List Char := s.takeWhile (· != '\x00')

/-- Where a text is cut in two so that a pattern matches the part that a cut takes away:
    how many characters are in front.  Zeros end arguments: a pattern does not see beyond
    one, and a search from the front ends there. -/
def cutPoint? (kind : Cut) (p s : List Char) : Option Nat :=
  let points := List.range (s.length + 1)
  let first := List.range ((upToZero s).length + 1)
  match kind with
  | .shortestFront => first.find? fun n => isMatch p (s.take n)
  | .longestFront => points.reverse.find? fun n => isMatch p (upToZero (s.take n))
  | .shortestBack => points.reverse.find? fun n => isMatch p (upToZero (s.drop n))
  | .longestBack => first.find? fun n => isMatch p (upToZero (s.drop n))

/-- What is left of glyphs when what a pattern matches at one end of them is cut off. -/
def cut (kind : Cut) (p : List Char) (gs : List Glyph) : List Glyph :=
  match cutPoint? kind p (gs.filterMap Glyph.char?) with
  | none => gs
  | some n =>
    match kind with
    | .shortestFront => gs.drop n
    | .longestFront => gs.drop n
    | .shortestBack => gs.take n
    | .longestBack => gs.take n

end Pattern

end Keysmith.Shell
