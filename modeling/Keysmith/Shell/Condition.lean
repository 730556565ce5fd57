import Keysmith.Shell.Bindings
import Keysmith.Shell.Device

/-! # Conditions

The expressions of `test`: tests on files and texts, comparisons, and their
combinations by `!`, `-a`, `-o` and parentheses.  A word that looks like an operator
is an operand where the words around it leave no other reading.

The words are gone through from the left; what is handed on begins with the word that was
read last. -/

namespace Keysmith.Shell.Condition

/-- The operators with one operand. -/
def unaryOperators : List String :=
  ["-r", "-w", "-x", "-e", "-f", "-d", "-c", "-b", "-p", "-u", "-g", "-k", "-s", "-t", "-z",
   "-n", "-h", "-O", "-G", "-L", "-S"]

/-- The operators with two operands. -/
def binaryOperators : List String :=
  ["=", "!=", "<", ">", "-eq", "-ne", "-ge", "-gt", "-le", "-lt", "-nt", "-ot", "-ef"]

/-- Whether a word is an operator with two operands. -/
def isBinary (word : String) : Bool := binaryOperators.contains word

/-- What a word is in an expression. -/
inductive Meaning where
  | finish
  | operand
  | unary (op : String)
  | binary (op : String)
  | negation
  | conjunction
  | disjunction
  | opening
  | closing
  deriving DecidableEq

/-- Whether a word that looks like an operator with one operand is an operand, given what
    follows. -/
def isOperand : List String → Bool
  | [] => true
  | [_] => false
  | next :: _ => isBinary next

/-- What the first of some words is. -/
def meaning : List String → Meaning
  | [] => .finish
  | word :: rest =>
    if unaryOperators.contains word then
      if isOperand rest then .operand else .unary word
    else if isBinary word then .binary word
    else match word with
      | "!" => .negation
      | "-a" => .conjunction
      | "-o" => .disjunction
      | "(" => if rest.isEmpty then .operand else .opening
      | ")" => .closing
      | _ => .operand

/-- Say what is wrong with an expression. -/
def refuse {α : Type} (op : Option String) (message : String) : ShellM α :=
  match op with
  | some op => ShellM.fail (if op.isEmpty then message else s!"{op}: {message}")
  | none => ShellM.fail message

/-- The integer that an operand stands for. -/
def integer (operand : String) : ShellM Int := do
  match Numeral.whole? 10 operand with
  | some n => return n
  | none => ShellM.failNumber operand

/-- What a path leads to. -/
def nodeAt? (d : Disk) (last : Disk.LastLink) (path : String) : Option Node :=
  match d.find last (Text.Octets.toText path) with
  | .ok spot => d.node? spot
  | .error _ => none

/-- Test the file that a path leads to. -/
def file (s : State) (op path : String) : Bool :=
  let d := s.system.disk
  let hasMode (holds : Mode → Bool) (ofDirectory : Bool) : Bool :=
    match nodeAt? d .follow path with
    | some (.file _ mode) => holds mode
    | some (.dir _) => ofDirectory
    | _ => false
  match Device.ofPath? path, op with
  | some (.descriptor n), "-p" =>
    match s.handle? n, Device.target? s path with
    | some _, some (.pipe _) => true
    | _, _ => false
  | some (.descriptor n), "-e" => (s.handle? n).isSome
  | some (.descriptor n), "-c" =>
    match Device.target? s path with
    | some .null => (s.handle? n).isSome
    | some .zero => true
    | some .full => true
    | _ => false
  | some _, op => ["-e", "-r", "-w", "-c", "-O", "-G"].contains op
  | none, op =>
    match op with
    | "-h" | "-L" =>
      match nodeAt? d .keep path with
      | some (.link _) => true
      | _ => false
    | "-d" => (nodeAt? d .follow path).any Node.isDir
    | "-f" => hasMode (fun _ => true) false
    | "-s" =>
      match nodeAt? d .follow path with
      | some (.file content _) => !content.isEmpty
      | some (.dir _) => true
      | _ => false
    | "-r" => hasMode Mode.reads true
    | "-w" => hasMode Mode.writes true
    | "-x" => hasMode Mode.executes true
    | "-u" => hasMode (·.getLsbD 11) false
    | "-g" => hasMode (·.getLsbD 10) false
    | "-k" => hasMode (·.getLsbD 9) false
    | "-c" | "-b" | "-p" | "-S" => false
    | _ => (nodeAt? d .follow path).isSome

/-- Apply an operator with one operand. -/
def unary (op operand : String) : ShellM Bool := do
  match op with
  | "-n" => return !operand.isEmpty
  | "-z" => return operand.isEmpty
  | "-t" =>
    let _ ← integer operand
    return false
  | op => return file (← get) op operand

/-- Whether two paths lead to the same place. -/
def areSame (d : Disk) (a b : String) : Bool :=
  match d.find .follow (Text.Octets.toText a), d.find .follow (Text.Octets.toText b) with
  | .ok x, .ok y => x == y
  | _, _ => false

/-- Apply an operator with two operands.  All files are of the same age. -/
def binary (op a b : String) : ShellM Bool := do
  let compared (holds : Int → Int → Bool) : ShellM Bool := do
    let x ← integer a
    let y ← integer b
    return holds x y
  match op with
  | "=" => return a == b
  | "!=" => return a != b
  | "<" => return a < b
  | ">" => return b < a
  | "-eq" => compared (· == ·)
  | "-ne" => compared (· != ·)
  | "-gt" => compared (· > ·)
  | "-ge" => compared (· ≥ ·)
  | "-lt" => compared (· < ·)
  | "-le" => compared (· ≤ ·)
  | "-ef" => return areSame (← get).system.disk a b
  | _ => return false

mutual

/-- Evaluate conditions with `-o` between them. -/
def disjunction (fuel : Nat) (n : Meaning) (ws : List String) (found : Bool) :
    ShellM (Bool × List String) := do
  match fuel with
  | 0 => return (found, ws)
  | fuel + 1 =>
    let (a, ws) ← conjunction fuel n ws true
    let found := found || a
    if meaning ws.tail == .disjunction then
      let ws := ws.drop 2
      disjunction fuel (meaning ws) ws found
    else return (found, ws)

/-- Evaluate conditions with `-a` between them. -/
def conjunction (fuel : Nat) (n : Meaning) (ws : List String) (found : Bool) :
    ShellM (Bool × List String) := do
  match fuel with
  | 0 => return (found, ws)
  | fuel + 1 =>
    let (a, ws) ← negation fuel n ws
    let found := a && found
    if meaning ws.tail == .conjunction then
      let ws := ws.drop 2
      conjunction fuel (meaning ws) ws found
    else return (found, ws)

/-- Evaluate a condition with `!` in front. -/
def negation (fuel : Nat) (n : Meaning) (ws : List String) : ShellM (Bool × List String) := do
  match fuel with
  | 0 => return (false, ws)
  | fuel + 1 =>
    if n != .negation then primary fuel n ws
    else
      let next := meaning ws.tail
      let (a, ws) ← negation fuel next (if next == .finish then ws else ws.tail)
      return (!a, ws)

/-- Evaluate a single condition. -/
def primary (fuel : Nat) (n : Meaning) (ws : List String) : ShellM (Bool × List String) := do
  match fuel with
  | 0 => return (false, ws)
  | fuel + 1 =>
    match n with
    | .finish => return (false, ws)
    | .opening =>
      let ws := ws.tail
      let next := meaning ws
      if next == .closing then return (false, ws)
      let (a, ws) ← disjunction fuel next ws false
      if meaning ws.tail != .closing then refuse none "closing paren expected"
      return (a, ws.tail)
    | .unary op =>
      match ws.tail with
      | [] => refuse (some op) "argument expected"
      | operand :: rest => return (← unary op operand, operand :: rest)
    | _ =>
      match meaning ws.tail, ws with
      | .binary op, a :: _ :: b :: rest => return (← binary op a b, b :: rest)
      | .binary op, _ => refuse (some op) "argument expected"
      | _, word :: _ => return (!word.isEmpty, ws)
      | _, [] => return (false, ws)

end

/-- Evaluate an expression whose first word is read in a given way. -/
def whole (n : Meaning) (ws : List String) : ShellM Bool := do
  let (a, rest) ← disjunction (8 * ws.length + 8) n ws false
  match rest with
  | last :: _ :: _ => refuse (some last) "unexpected operator"
  | _ => return a

/-- Evaluate the words of `test`.  With three or four words the reading is decided by
    their positions.  The fuel is the number of words. -/
def eval (fuel : Nat) (ws : List String) : ShellM Bool := do
  match fuel with
  | 0 => return false
  | fuel + 1 =>
    let four : ShellM Bool := do
      match ws with
      | "!" :: rest => return !(← eval fuel rest)
      | "(" :: rest =>
        if rest.getLast? == some ")" then
          let inner := rest.dropLast
          whole (meaning inner) inner
        else whole (meaning ws) ws
      | ws => whole (meaning ws) ws
    match ws with
    | [] => return false
    | [_, op, _] => if isBinary op then whole .operand ws else four
    | [_, _, _, _] => four
    | ws => whole (meaning ws) ws

/-- The value of the words of `test`. -/
def value (ws : List String) : ShellM Bool := eval (ws.length + 1) ws

end Keysmith.Shell.Condition
