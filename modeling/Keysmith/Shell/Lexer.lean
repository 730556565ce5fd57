import Keysmith.Shell.Token

/-! # Words and operators

How the characters of a script make up tokens.  A word is read character by character;
what a character means depends on the quotes and braces around it, which are kept in
levels.  An inner level begins where something opens that has rules of its own: an
arithmetic expression, or a word in braces whose quotes do not count outside of them.

What a dollar with a parenthesis or a backquote opens is a script again; how that is
read is left to the caller. -/

namespace Keysmith.Shell.Lexer

/-- The rules by which characters are read. -/
inductive Quoting where
  | bare
  | single
  | double
  | arithmetic
  deriving DecidableEq, Repr

/-- What is open around a character. -/
structure Level where
  quoting : Quoting
  /-- Whether the level ends with its outermost brace. -/
  endsWithBrace : Bool
  /-- Whether quotes have been opened inside the innermost braces. -/
  innerQuotes : Bool
  /-- Whether the characters stand in double quotes. -/
  inDouble : Bool
  /-- How many braces are open. -/
  braces : Nat
  /-- How many of them stand in double quotes. -/
  quotedBraces : Nat
  /-- How many parentheses are open. -/
  parens : Nat

/-- A level at its beginning. -/
def Level.begin (quoting : Quoting) : Level where
  quoting := quoting
  endsWithBrace := false
  innerQuotes := false
  inDouble := quoting != .bare && quoting != .single
  braces := 0
  quotedBraces := 0
  parens := 0

/-- What a part of a word that is not complete yet will be. -/
inductive Opening where
  | parameter (name : String) (operation : Operation)
  | arithmetic

/-- A word that is being read. -/
structure Scan where
  source : Source
  level : Level
  /-- The levels around it, innermost first. -/
  outer : List Level
  /-- The parts of what is being read, last first. -/
  parts : List Part
  /-- What it stands in, innermost first, each with the parts in front of it. -/
  enclosing : List (Opening × List Part)
  /-- Whether anything was quoted. -/
  quoted : Bool
  /-- Whether the next character begins a line. -/
  atLineStart : Bool

/-- What is read: a word, the mark that ends a here-document, or the text of a
    here-document up to its mark. -/
inductive Purpose where
  | word
  | mark
  | document (awaited : Awaited)

namespace Purpose

/-- Whether a here-document is read. -/
def isDocument : Purpose → Bool
  | document _ => true
  | _ => false

/-- Whether the mark that ends a here-document is read. -/
def isMark : Purpose → Bool
  | mark => true
  | _ => false

end Purpose

/-- Ways to read a script that a word contains: one that a parenthesis ends, and a
    whole text. -/
structure Nested where
  parenthesised : Source → Except SyntaxError (Option Command × Source)
  whole : Source → Except SyntaxError (Option Command × Source)

namespace Scan

/-- The beginning of a word. -/
def begin (source : Source) (quoting : Quoting) : Scan where
  source := source
  level := .begin quoting
  outer := []
  parts := []
  enclosing := []
  quoted := false
  atLineStart := true

/-- Go on behind what has been read. -/
def moveTo (x : Scan) (input : Input) : Scan :=
  { x with source := { x.source with input := input } }

/-- Add a character. -/
def add (x : Scan) (quoted : Bool) (c : Char) : Scan :=
  match x.parts with
  | .literal q text :: parts =>
    if q = quoted then { x with parts := .literal q (text.push c) :: parts }
    else { x with parts := .literal quoted c.toString :: .literal q text :: parts }
  | parts => { x with parts := .literal quoted c.toString :: parts }

/-- Add a character in the way in which its level quotes it. -/
def addPlain (x : Scan) (c : Char) : Scan := x.add (x.level.quoting != .bare) c

/-- Add a part. -/
def addPart (x : Scan) (part : Part) : Scan := { x with parts := part :: x.parts }

/-- Add the place where quotes begin or end.  Here-documents have none. -/
def addMark (x : Scan) (purpose : Purpose) : Scan :=
  if purpose.isDocument then x else x.addPart .mark

/-- Open a part that has others inside. -/
def openPart (x : Scan) (opening : Opening) : Scan :=
  { x with parts := [], enclosing := (opening, x.parts) :: x.enclosing }

/-- Close the innermost open part. -/
def closePart (x : Scan) : Scan :=
  match x.enclosing with
  | [] => x
  | (opening, before) :: enclosing =>
    let inner := x.parts.reverse
    let part := match opening with
      | .parameter name operation => Part.parameter name operation inner
      | .arithmetic => .arithmetic inner
    { x with parts := part :: before, enclosing := enclosing }

/-- Leave the innermost level. -/
def leave (x : Scan) : Scan :=
  match x.outer with
  | [] => x
  | level :: outer => { x with level := level, outer := outer }

/-- Change the innermost level. -/
def onLevel (x : Scan) (f : Level → Level) : Scan := { x with level := f x.level }

/-- Note that quotes open or close inside of braces. -/
def toggleQuotes (x : Scan) : Scan :=
  x.onLevel fun l => if l.braces = 0 then l else { l with innerQuotes := !l.innerQuotes }

end Scan

/-! ## Parameters -/

/-- The parameters whose names are single characters. -/
def isSpecialParameter (c : Char) : Bool :=
  ['@', '*', '#', '?', '-', '$', '!'].contains c || c.isDigit

/-- Read characters of a kind behind those that have been read. -/
def readWhile (p : Char → Bool) (fuel : Nat) (read : String) (i : Input) : String × Input :=
  match fuel with
  | 0 => (read, i)
  | fuel + 1 =>
    match i.nextJoined with
    | some (c, j) => if p c then readWhile p fuel (read.push c) j else (read, i)
    | none => (read, i)

/-- The operations by the character between a name and a word. -/
def fallbackOf? : Char → Option Fallback
  | '-' => some .useValue
  | '=' => some .assign
  | '?' => some .complain
  | '+' => some .ifSet
  | _ => none

/-- Read the operation behind a name in braces, and with it the closing brace of a plain
    value. -/
def operation (i : Input) : Operation × Input :=
  let fallback (orEmpty : Bool) (i : Input) : Operation × Input :=
    match i.nextJoined with
    | none => (.faulty, i)
    | some ('\x7d', j) => (.value, j)
    | some (c, j) =>
      match fallbackOf? c with
      | some kind => (.fallback kind orEmpty, j)
      | none => (.faulty, j)
  match i.nextJoined with
  | some (':', j) => fallback true j
  | some ('%', j) =>
    match j.nextJoined with
    | some ('%', k) => (.cut .longestBack, k)
    | _ => (.cut .shortestBack, j)
  | some ('#', j) =>
    match j.nextJoined with
    | some ('#', k) => (.cut .longestFront, k)
    | _ => (.cut .shortestFront, j)
  | _ => fallback false i

/-- Read the name behind a dollar.  In braces it can be a number of many digits. -/
def parameterName? (inBraces : Bool) (i : Input) : Option (String × Input) :=
  match i.nextJoined with
  | none => none
  | some (c, j) =>
    if Word.isNameStart c then some (readWhile Word.isNameChar Input.limit c.toString j)
    else if c.isDigit then
      if inBraces then some (readWhile Char.isDigit Input.limit c.toString j)
      else some (c.toString, j)
    else if isSpecialParameter c then some (c.toString, j)
    else none

/-- Read what stands between a brace behind a dollar and the word of the operation. -/
def braces (i : Input) : String × Operation × Input :=
  let named (i : Input) : String × Operation × Input :=
    match parameterName? true i with
    | some (name, j) => (name, operation j)
    | none =>
      match i.nextJoined with
      | some ('\x7d', _) => ("", .faulty, i)
      | some (_, j) => ("", .faulty, j)
      | none => ("", .faulty, i)
  match i.nextJoined with
  | some ('#', j) =>
    match j.nextJoined with
    | some ('\x7d', k) => ("#", .value, k)
    | some (c, k) =>
      if Word.isNameStart c || c.isDigit then
        match parameterName? true j with
        | some (name, l) =>
          match l.nextJoined with
          | some ('\x7d', _) => (name, .length, l)
          | _ => (name, .faulty, l)
        | none => named i
      else
        match k.nextJoined with
        | some ('\x7d', _) =>
          if isSpecialParameter c then (c.toString, .length, k) else ("", .faulty, k)
        | _ => ("#", operation j)
    | none => ("#", operation j)
  | _ => named i

namespace Scan

/-- Begin a parameter whose operation has a word. -/
def openBraces (x : Scan) (name : String) (operation : Operation) : Scan :=
  let inner : Quoting := match operation with
    | .cut _ => .bare
    | _ => if x.level.quoting = .arithmetic then .double else x.level.quoting
  let x :=
    if inner != x.level.quoting || x.level.innerQuotes then
      { x with
        level := { Level.begin inner with
          endsWithBrace := true
          inDouble := inner != .bare }
        outer := x.level :: x.outer }
    else x
  (x.onLevel fun l => { l with
    braces := l.braces + 1
    quotedBraces := if l.inDouble then l.quotedBraces + 1 else l.quotedBraces }).openPart
      (.parameter name operation)

/-- Close a brace. -/
def closeBrace (x : Scan) : Scan :=
  let x := x.closePart.onLevel fun l => { l with braces := l.braces - 1 }
  if x.level.braces = 0 && x.level.endsWithBrace then x.leave
  else x.onLevel fun l => { l with quotedBraces := l.quotedBraces - 1 }

/-- Begin an arithmetic expression. -/
def openArithmetic (x : Scan) : Scan :=
  ({ x with level := .begin .arithmetic, outer := x.level :: x.outer } : Scan).openPart
    .arithmetic

/-- Read what a backslash and a character mean. -/
def backslash (x : Scan) (purpose : Purpose) (i : Input) : Scan :=
  match i.next with
  | none => (x.moveTo i).add true '\\'
  | some (c, j) =>
    let x := { x.moveTo j with quoted := true }
    let l := x.level
    let isEscaped := c == '\\' || c == '`' || c == '$' ||
      (c == '"' && !(purpose.isDocument && l.braces = 0)) ||
      (c == '\x7d' && l.braces != 0)
    if l.inDouble && !isEscaped then (x.add true '\\').add true c else x.add true c

/-- Read quotes that close. -/
def closeQuotes (x : Scan) (purpose : Purpose) (c : Char) : Scan :=
  if purpose.isDocument && x.level.braces = 0 then x.add true c
  else
    let x := if x.level.quotedBraces = 0 then
        x.onLevel fun l => { l with quoting := .bare, inDouble := false }
      else x
    let x := { x with quoted := true }
    (if c == '"' then x.toggleQuotes else x).addMark purpose

end Scan

/-- Read up to a backquote, undoing the backslashes that protect characters there. -/
def backquoted (source : Source) (inDouble : Bool) (fuel : Nat) (text : String) (i : Input) :
    Except SyntaxError (String × Input) :=
  let fault (i : Input) : SyntaxError :=
    ({ source with input := i } : Source).fault "EOF in backquote substitution"
  match fuel with
  | 0 => .error (fault i)
  | fuel + 1 =>
    let i := i.joinLines Input.limit
    match i.next with
    | none => .error (fault i)
    | some ('`', j) => .ok (text, j)
    | some ('\\', j) =>
      match j.next with
      | none => .error (fault j)
      | some (c, k) =>
        let isEscaped := c == '\\' || c == '`' || c == '$' || (inDouble && c == '"')
        let text := if isEscaped then text else text.push '\\'
        backquoted source inDouble fuel (text.push c) k
    | some (c, j) =>
      backquoted source inDouble fuel (text.push c) (if c == '\n' then j.nextLine else j)

/-- Read the script between backquotes. -/
def backquotes (nested : Nested) (x : Scan) (i : Input) : Except SyntaxError Scan := do
  let (text, j) ← backquoted x.source x.level.inDouble Input.limit "" i
  let inner : Source := { x.source with
    input := .ofText text 1
    awaited := []
    putBack := none }
  let (command, read) ← nested.whole inner
  return { x with source := { x.source with
    input := j
    documents := read.documents
    lastWord := read.lastWord } }.addPart (.output command)

/-- Read what a dollar begins. -/
def dollar (nested : Nested) (purpose : Purpose) (x : Scan) (i : Input) :
    Except SyntaxError Scan :=
  let plain : Except SyntaxError Scan := .ok ((x.moveTo i).addPlain '$')
  if purpose.isMark then plain
  else match i.nextJoined with
    | some ('(', j) =>
      match j.nextJoined with
      | some ('(', k) => .ok (x.moveTo k).openArithmetic
      | _ => do
        let (command, read) ← nested.parenthesised { x.source with
          input := j
          awaited := []
          putBack := none }
        return { x with source := { read with
          awaited := x.source.awaited
          putBack := none } }.addPart (.output command)
    | some ('\x7b', j) =>
      let (name, operation, k) := braces j
      match operation with
      | .value => .ok ((x.moveTo k).addPart (.parameter name .value []))
      | _ => .ok ((x.moveTo k).openBraces name operation)
    | _ =>
      match parameterName? false i with
      | some (name, j) => .ok ((x.moveTo j).addPart (.parameter name .value []))
      | none => plain

/-- Whether a character ends a word outside of quotes. -/
def endsWord (c : Char) : Bool :=
  [' ', '\t', ';', '&', '|', '<', '>', '(', ')'].contains c

/-- What is behind the mark of a here-document, if the input stands at it. -/
def behindMark? (mark : List Char) (i : Input) : Option Input :=
  match mark with
  | [] =>
    match i.next with
    | none => some i.nextLine
    | some ('\n', j) => some j.nextLine
    | some _ => none
  | m :: mark =>
    match i.next with
    | some (c, j) => if c = m then behindMark? mark j else none
    | none => none

/-- Skip tabs. -/
def skipTabs (fuel : Nat) (i : Input) : Input :=
  match fuel with
  | 0 => i
  | fuel + 1 =>
    match i.next with
    | some ('\t', j) => skipTabs fuel j
    | _ => i

/-- At the beginning of a line of a here-document: the input behind its mark, or the
    line. -/
def documentLine (awaited : Awaited) (i : Input) : Input × Bool :=
  let i := if awaited.expanded then i.joinLines Input.limit else i
  let i := if awaited.stripsTabs then skipTabs Input.limit i else i
  match behindMark? awaited.ending i with
  | some j => (j, true)
  | none => (i, false)

/-- Check that nothing is open where a word ends. -/
def finish (purpose : Purpose) (x : Scan) : Except SyntaxError Scan :=
  if x.level.quoting = .arithmetic then .error (x.source.fault "Missing '))'")
  else if x.level.quoting != .bare && !purpose.isDocument then
    .error (x.source.fault "Unterminated quoted string")
  else if x.level.braces != 0 then .error (x.source.fault "Missing '\x7d'")
  else .ok x

/-- A word after one more character: whether it is complete, and what has been read. -/
structure Progress where
  complete : Bool
  scan : Scan

/-- Read a character that means something outside of single quotes. -/
def special (nested : Nested) (purpose : Purpose) (x : Scan) (c : Char) (i : Input) :
    Except SyntaxError Scan :=
  let asItIs := (x.moveTo i).addPlain c
  match c with
  | '\\' => .ok (x.backslash purpose i)
  | '$' => dollar nested purpose x i
  | '`' => if purpose.isMark then .ok asItIs else backquotes nested x i
  | '\x7d' =>
    if x.level.braces != 0 && !x.level.innerQuotes then .ok (x.moveTo i).closeBrace
    else .ok asItIs
  | _ => .ok asItIs

/-- Read a character of an arithmetic expression. -/
def inArithmetic (nested : Nested) (purpose : Purpose) (x : Scan) (c : Char) (i : Input) :
    Except SyntaxError Scan :=
  let asItIs := (x.moveTo i).addPlain c
  match c with
  | '(' => .ok (asItIs.onLevel fun l => { l with parens := l.parens + 1 })
  | ')' =>
    if x.level.parens != 0 then
      .ok (asItIs.onLevel fun l => { l with parens := l.parens - 1 })
    else match i.nextJoined with
      | some (')', j) => .ok (x.moveTo j).closePart.leave
      | _ => .ok asItIs
  | _ => special nested purpose x c i

/-- Read a character outside of quotes. -/
def outsideQuotes (nested : Nested) (purpose : Purpose) (x : Scan) (c : Char) (i : Input) :
    Except SyntaxError Scan :=
  let opened (quoting : Quoting) : Scan :=
    (x.moveTo i).onLevel fun l =>
      { l with quoting := quoting, inDouble := l.inDouble || quoting == .double }
  match c with
  | '\'' => .ok ((opened .single).addMark purpose)
  | '"' => .ok ((opened .double).toggleQuotes.addMark purpose)
  | _ => special nested purpose x c i

/-- Read one character, or note that the word ends in front of it. -/
def step (nested : Nested) (purpose : Purpose) (x : Scan) : Except SyntaxError Progress :=
  let (start, ended) := match purpose with
    | .document awaited =>
      if x.atLineStart then documentLine awaited x.source.input else (x.source.input, false)
    | _ => (x.source.input, false)
  let x := { x.moveTo start with atLineStart := false }
  let l := x.level
  let start := if ended || l.quoting = .single then start else start.joinLines Input.limit
  let complete : Except SyntaxError Progress := (finish purpose x).map (⟨true, ·⟩)
  match if ended then none else start.next with
  | none => (finish purpose (x.moveTo start)).map (⟨true, ·⟩)
  | some (c, i) =>
    if c = '\n' then
      if l.quoting = .bare && l.braces = 0 then complete
      else .ok ⟨false, { (x.moveTo i.nextLine).addPlain c with atLineStart := true }⟩
    else if l.quoting = .bare && l.braces = 0 && endsWord c then complete
    else
      let read : Except SyntaxError Scan := match l.quoting with
        | .single =>
          .ok (if c = '\'' then (x.moveTo i).closeQuotes purpose c
            else (x.moveTo i).addPlain c)
        | .double =>
          if c = '"' then .ok ((x.moveTo i).closeQuotes purpose c)
          else special nested purpose x c i
        | .arithmetic => inArithmetic nested purpose x c i
        | .bare => outsideQuotes nested purpose x c i
      read.map (⟨false, ·⟩)

/-- Read the parts of a word up to its end. -/
def scan (nested : Nested) (purpose : Purpose) (fuel : Nat) (x : Scan) :
    Except SyntaxError Scan :=
  match fuel with
  | 0 => finish purpose x
  | fuel + 1 =>
    match step nested purpose x with
    | .error e => .error e
    | .ok ⟨true, x⟩ => .ok x
    | .ok ⟨false, x⟩ => scan nested purpose fuel x

/-! ## Tokens -/

/-- The redirection operators, longest first. -/
def redirectOperators : List String := [">>", ">|", ">&", ">", "<<-", "<<", "<&", "<>", "<"]

/-- Read one of some operators. -/
def operatorOf (i : Input) : List String → Option (String × Input)
  | [] => none
  | op :: rest =>
    match read op.toList i with
    | some j => some (op, j)
    | none => operatorOf i rest
where
  /-- Read given characters. -/
  read : List Char → Input → Option Input
    | [], i => some i
    | c :: cs, i =>
      match i.nextJoined with
      | some (d, j) => if c = d then read cs j else none
      | none => none

/-- The descriptor that a word in front of a redirection operator names; an empty word
    stands for the usual one. -/
def descriptorOf? (parts : Word) (operator : String) : Option Nat :=
  match parts with
  | [] => some (if operator.startsWith "<" then 0 else 1)
  | [.literal false text] =>
    match text.toList with
    | [c] => if c.isDigit then some (c.toNat - 48) else none
    | _ => none
  | _ => none

/-- Skip up to the end of the line. -/
def skipComment (fuel : Nat) (i : Input) : Input :=
  match fuel with
  | 0 => i
  | fuel + 1 =>
    match i.next with
    | some ('\n', _) => i
    | some (_, j) => skipComment fuel j
    | none => i

/-- Read a token: blanks and comments are skipped, words are not looked at. -/
def rawToken (nested : Nested) (purpose : Purpose) (fuel : Nat) (s : Source) :
    Except SyntaxError (Token × Source) :=
  match fuel with
  | 0 => .ok (.endOfText, s)
  | fuel + 1 =>
    let start := s.input.joinLines Input.limit
    let s := { s with input := start }
    let moved (i : Input) : Source := { s with input := i }
    match start.next with
    | none => .ok (.endOfText, moved start.settle)
    | some (c, i) =>
      if c = ' ' || c = '\t' then rawToken nested purpose fuel (moved i)
      else if c = '#' then rawToken nested purpose fuel (moved (skipComment Input.limit i))
      else if c = '\n' then .ok (.newline, moved i.nextLine)
      else match operatorOf start ["&&", "&", "||", "|", ";;", ";", "(", ")"] with
        | some (op, j) => .ok (.operator op, moved j)
        | none => do
          let x ← scan nested purpose Input.limit (.begin s .bare)
          let parts := x.parts.reverse
          let found :=
            if x.quoted then none
            else match operatorOf x.source.input redirectOperators with
              | some (op, j) => (descriptorOf? parts op).map fun d => (d, op, j)
              | none => none
          match found with
          | some (d, op, j) => return (.redirect d op, { x.source with input := j })
          | none => return (.word parts x.quoted, { x.source with lastWord := parts })

/-- What a word may be apart from a word, and whether line ends are skipped in front of
    it. -/
structure Wanted where
  lines : Bool
  keywords : Bool
  aliases : Bool

/-- Anything: line ends are skipped, and a word may be reserved or an alias. -/
def Wanted.command : Wanted := ⟨true, true, true⟩

/-- Nothing but what stands there. -/
def Wanted.plain : Wanted := ⟨false, false, false⟩

/-- A word that may be an alias. -/
def Wanted.argument : Wanted := ⟨false, false, true⟩

/-- Read the texts of the here-documents whose turn it is. -/
def readDocuments (nested : Nested) (s : Source) : Except SyntaxError Source :=
  s.awaited.foldlM (fun s awaited => do
    let quoting : Quoting := if awaited.expanded then .double else .single
    let x ← scan nested (.document awaited) Input.limit (.begin s quoting)
    return { x.source with
      documents := x.source.documents.setIfInBounds awaited.number x.parts.reverse })
    { s with awaited := [] }

/-- Read a token, or take the one that was put back. -/
def nextToken (nested : Nested) (s : Source) : Except SyntaxError (Token × Source) :=
  match s.putBack with
  | some t => .ok (t, { s with putBack := none })
  | none => rawToken nested .word Input.limit s

/-- Read a token and settle what it is. -/
def token (nested : Nested) (wanted : Wanted) (fuel : Nat) (s : Source) :
    Except SyntaxError (Token × Source) :=
  match fuel with
  | 0 => nextToken nested s
  | fuel + 1 => do
    let (t, s) ← nextToken nested s
    match t with
    | .newline =>
      if wanted.lines then token nested wanted fuel (← readDocuments nested s)
      else return (t, s)
    | .word parts false =>
      let opened := s.input.opened
      let s := { s with input := { s.input with opened := false } }
      match Word.plain? parts with
      | none => return (t, s)
      | some text =>
        if wanted.keywords && Token.keywords.contains text then return (.keyword text, s)
        else if (wanted.aliases || opened) && !s.input.isReading text then
          match s.aliases.lookup text with
          | some value =>
            token nested wanted fuel { s with input := s.input.push text value }
          | none => return (t, s)
        else return (t, s)
    | t => return (t, { s with input := { s.input with opened := false } })

end Keysmith.Shell.Lexer
