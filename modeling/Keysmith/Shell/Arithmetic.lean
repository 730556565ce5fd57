import Keysmith.Shell.Bindings

/-! # Arithmetic of the shell

Integer expressions of 64 bits with the usual operators and precedences.  An expression
is evaluated while it is read, so that the first mistake from the left is the one that is
told; what is behind `&&`, `||` and `?` and does not count is read and not evaluated.
Division goes toward zero. -/

namespace Keysmith.Shell.Arithmetic

/-- A lexeme of an expression. -/
inductive Lexeme where
  | number (n : Int)
  | name (name : String)
  | symbol (op : String)
  | finish
  /-- A character that has no meaning. -/
  | unknown
  deriving DecidableEq

/-- The symbols, longest first. -/
def symbols : List String :=
  ["<<=", ">>=", "||", "&&", "==", "!=", "<=", ">=", "<<", ">>", "|=", "^=", "&=", "+=", "-=",
   "*=", "/=", "%=", "+", "-", "*", "/", "%", "<", ">", "=", "!", "~", "&", "|", "^", "?", ":",
   "(", ")"]

/-- Take the first lexeme off a text. -/
def lex (s : List Char) : Lexeme × List Char :=
  match s.dropWhile fun c => c == ' ' || c == '\t' || c == '\n' with
  | [] => (.finish, [])
  | c :: rest =>
    let s := c :: rest
    if c.isDigit then
      match Numeral.signed 0 s with
      | some r => (.number r.value, r.rest)
      | none => (.unknown, rest)
    else if Word.isNameStart c then
      (.name (String.ofList (s.takeWhile Word.isNameChar)), s.dropWhile Word.isNameChar)
    else match symbols.find? fun op => op.toList.isPrefixOf s with
      | some op => (.symbol op, s.drop op.length)
      | none => (.unknown, rest)

/-- Reading an expression: what is left of it is handed on. -/
abbrev Reckoning := StateT (List Char) ShellM

/-- The next lexeme. -/
def peek : Reckoning Lexeme := return (lex (← get)).1

/-- Take the next lexeme. -/
def take : Reckoning Lexeme := modifyGet lex

/-- Say what is wrong with an expression. -/
def refuse {α : Type} (whole message : String) : Reckoning α :=
  ShellM.fail s!"arithmetic expression: {message}: \"{whole}\""

/-- The number that stands for a truth value. -/
def truth (b : Bool) : Int := if b then 1 else 0

/-- The number of 64 bits that a number is congruent to. -/
def wrap (n : Int) : Int := (BitVec.ofInt 64 n).toInt

/-- Apply an operation on bits to two numbers. -/
def bitwise (f : BitVec 64 → BitVec 64 → BitVec 64) (a b : Int) : Int :=
  (f (BitVec.ofInt 64 a) (BitVec.ofInt 64 b)).toInt

/-- Apply an operator to two numbers; none if that divides by zero. -/
def apply (op : String) (a b : Int) : Option Int :=
  match op with
  | "==" => some (truth (a == b))
  | "!=" => some (truth (a != b))
  | "<=" => some (truth (a ≤ b))
  | ">=" => some (truth (a ≥ b))
  | "<" => some (truth (a < b))
  | ">" => some (truth (a > b))
  | "+" => some (wrap (a + b))
  | "-" => some (wrap (a - b))
  | "*" => some (wrap (a * b))
  | "&" => some (bitwise (· &&& ·) a b)
  | "|" => some (bitwise (· ||| ·) a b)
  | "^" => some (bitwise (· ^^^ ·) a b)
  | "<<" => some ((BitVec.ofInt 64 a).shiftLeft (b % 64).toNat).toInt
  | ">>" => some ((BitVec.ofInt 64 a).sshiftRight (b % 64).toNat).toInt
  | "/" => if b = 0 then none else some (wrap (a.tdiv b))
  | _ => if b = 0 then none else some (wrap (a.tmod b))

/-- Apply an operator, unless the value does not count. -/
def applyIf (whole : String) (counts : Bool) (op : String) (a b : Int) : Reckoning Int := do
  if !counts then return b
  match apply op a b with
  | some n => return n
  | none => refuse whole "division by zero"

/-- The value of a variable. -/
def valueOf (name : String) : Reckoning Int := do
  let text := ((← getThe State).value? name).getD ""
  if text.isEmpty then return 0
  match Numeral.whole? 0 text with
  | some n => return n
  | none => if text.toList.all Numeral.isBlank then return 0 else ShellM.failNumber text

/-- The operators with two operands by how tightly they bind, the loosest first. -/
def levels : List (List String) :=
  [["|"], ["^"], ["&"], ["==", "!="], ["<", "<=", ">", ">="], ["<<", ">>"], ["+", "-"],
   ["*", "/", "%"]]

/-- The operator that an assigning symbol applies to the old value; none for a plain
    assignment. -/
def assigning? : Lexeme → Option (Option String)
  | .symbol "=" => some none
  | .symbol op =>
    if ["<<=", ">>=", "|=", "^=", "&=", "+=", "-=", "*=", "/=", "%="].contains op then
      some (some (op.dropEnd 1).toString)
    else none
  | _ => none

mutual

/-- Read an expression.  The fuel bounds how deep parts stand in parts. -/
def expression (whole : String) (fuel : Nat) (counts : Bool) : Reckoning Int := do
  match fuel with
  | 0 => refuse whole "expecting primary"
  | fuel + 1 =>
    let start ← get
    match ← take with
    | .name name =>
      match assigning? (← peek) with
      | some op =>
        let _ ← take
        let n ← expression whole fuel counts
        if !counts then return n
        let n ← match op with
          | none => pure n
          | some op => applyIf whole counts op (← valueOf name) n
        ShellM.assign name (toString n)
        return n
      | none =>
        set start
        choice whole fuel counts
    | _ =>
      set start
      choice whole fuel counts

/-- Read a choice by `?` and `:`. -/
def choice (whole : String) (fuel : Nat) (counts : Bool) : Reckoning Int := do
  match fuel with
  | 0 => refuse whole "expecting primary"
  | fuel + 1 =>
    let condition ← disjunction whole fuel counts
    if (← peek) != .symbol "?" then return condition
    let _ ← take
    let yes ← expression whole fuel (counts && condition != 0)
    if (← peek) != .symbol ":" then refuse whole "expecting ':'"
    let _ ← take
    let no ← choice whole fuel (counts && condition == 0)
    return if condition != 0 then yes else no

/-- Read operands with `||` between them. -/
def disjunction (whole : String) (fuel : Nat) (counts : Bool) : Reckoning Int := do
  match fuel with
  | 0 => refuse whole "expecting primary"
  | fuel + 1 =>
    let a ← conjunction whole fuel counts
    if (← peek) != .symbol "||" then return a
    let _ ← take
    let b ← disjunction whole fuel (counts && a == 0)
    return truth (a != 0 || b != 0)

/-- Read operands with `&&` between them. -/
def conjunction (whole : String) (fuel : Nat) (counts : Bool) : Reckoning Int := do
  match fuel with
  | 0 => refuse whole "expecting primary"
  | fuel + 1 =>
    let a ← operation whole fuel levels counts
    if (← peek) != .symbol "&&" then return a
    let _ ← take
    let b ← conjunction whole fuel (counts && a != 0)
    return truth (a != 0 && b != 0)

/-- Read operands with operators of the given levels between them. -/
def operation (whole : String) (fuel : Nat) (remaining : List (List String)) (counts : Bool) :
    Reckoning Int := do
  match fuel with
  | 0 => refuse whole "expecting primary"
  | fuel + 1 =>
    match remaining with
    | [] => operand whole fuel counts
    | ops :: tighter =>
      operationRest whole fuel ops tighter counts (← operation whole fuel tighter counts)

/-- Read the operators of one level that follow an operand. -/
def operationRest (whole : String) (fuel : Nat) (ops : List String)
    (tighter : List (List String)) (counts : Bool) (a : Int) : Reckoning Int := do
  match fuel with
  | 0 => refuse whole "expecting primary"
  | fuel + 1 =>
    match ← peek with
    | .symbol op =>
      if !ops.contains op then return a
      let _ ← take
      let b ← operation whole fuel tighter counts
      operationRest whole fuel ops tighter counts (← applyIf whole counts op a b)
    | _ => return a

/-- Read an operand. -/
def operand (whole : String) (fuel : Nat) (counts : Bool) : Reckoning Int := do
  match fuel with
  | 0 => refuse whole "expecting primary"
  | fuel + 1 =>
    match ← take with
    | .number n => return n
    | .name name => if counts then valueOf name else return 0
    | .symbol "(" =>
      let n ← expression whole fuel counts
      if (← take) != .symbol ")" then refuse whole "expecting ')'"
      return n
    | .symbol "+" => operand whole fuel counts
    | .symbol "-" => return wrap (-(← operand whole fuel counts))
    | .symbol "!" => return truth ((← operand whole fuel counts) == 0)
    | .symbol "~" => return -(← operand whole fuel counts) - 1
    | _ => refuse whole "expecting primary"

end

/-- The value of an expression. -/
def value (text : String) : ShellM Int := do
  let (n, rest) ← (expression text (16 * text.length + 32) true).run text.toList
  if (lex rest).1 != .finish then
    ShellM.fail s!"arithmetic expression: expecting EOF: \"{text}\""
  return n

end Keysmith.Shell.Arithmetic
