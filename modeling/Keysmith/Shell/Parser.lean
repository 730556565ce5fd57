import Keysmith.Shell.Lexer
import Keysmith.Shell.Special

/-! # Commands of a script

How the tokens of a script make up commands.  `next` reads one complete command, which
ends with a line that leaves nothing open: a script is run command by command, and what
one does (to the aliases, for instance) can change how the next one is read.

The fuel bounds how deep commands stand in commands and how long lists of them are. -/

namespace Keysmith.Shell.Parser

open Lexer (Nested Wanted)

/-- Something that reads from a script. -/
abbrev Reading := StateT Source (Except SyntaxError)

/-- Read a token. -/
def token (nested : Nested) (wanted : Wanted) : Reading Token :=
  fun s => Lexer.token nested wanted Input.limit s

/-- Put a token back. -/
def putBack (t : Token) : Reading Unit := modify fun s => { s with putBack := some t }

/-- Refuse a token. -/
def refuse {α : Type} (t : Token) : Reading α := do throw ((← get).unexpected t)

/-- Refuse a token that stands where something else has to stand. -/
def refuseFor {α : Type} (what : String) (t : Token) : Reading α := do
  throw ((← get).expecting what t)

/-- Refuse the script for a reason. -/
def refuseAs {α : Type} (reason : String) : Reading α := do throw ((← get).fault reason)

/-- Read the here-documents whose turn it is. -/
def readDocuments (nested : Nested) : Reading Unit := do
  set (← Lexer.readDocuments nested (← get))

/-- Read a reserved word. -/
def expectKeyword (nested : Nested) (wanted : Wanted) (text : String) : Reading Unit := do
  let t ← token nested wanted
  unless t.isKeyword text do refuseFor s!"\"{text}\"" t

/-- Read an operator. -/
def expectOperator (nested : Nested) (text : String) : Reading Unit := do
  let t ← token nested .plain
  unless t.isOperator text do refuseFor s!"\"{text}\"" t

/-- The line that is being read. -/
def currentLine : Reading Nat := return (← get).input.line

/-! ## Redirections -/

/-- The text of a mark, without its quotes. -/
def markText (parts : Word) : List Char :=
  parts.flatMap fun
    | .literal _ text => text.toList
    | _ => []

/-- The kinds of redirections by their operators, here-documents apart. -/
def kindOf : String → RedirectKind
  | "<" => .input
  | "<>" => .readWrite
  | ">" => .output
  | ">|" => .clobber
  | ">>" => .append
  | _ => .duplicate

/-- Read what stands behind a redirection operator. -/
def redirection (nested : Nested) (descriptor : Nat) (op : String) : Reading Redirect := do
  if op == "<<" || op == "<<-" then
    let (t, s) ← Lexer.rawToken nested .mark Input.limit (← get)
    set s
    match t with
    | .word parts quoted =>
      let number := s.documents.size
      let awaited : Awaited :=
        { number := number
          expanded := !quoted
          stripsTabs := op == "<<-"
          ending := markText parts }
      set { s with documents := s.documents.push [], awaited := s.awaited ++ [awaited] }
      return .mk descriptor (.document number (!quoted)) []
    | t => refuse t
  else
    match ← token nested .plain with
    | .word parts _ => return .mk descriptor (kindOf op) parts
    | t => refuse t

/-- Read the redirections behind a command.  The fuel bounds their number. -/
def redirections (nested : Nested) (fuel : Nat) (wanted : Wanted) :
    Reading (List Redirect) := do
  match fuel with
  | 0 => return []
  | fuel + 1 =>
    match ← token nested wanted with
    | .redirect descriptor op =>
      let first ← redirection nested descriptor op
      return first :: (← redirections nested fuel .plain)
    | t =>
      putBack t
      return []

/-! ## Words -/

/-- Read the words of a `for`, and the token behind them.  The fuel bounds their
    number. -/
def wordsUpTo (nested : Nested) (fuel : Nat) : Reading (List Word × Token) := do
  match fuel with
  | 0 => return ([], .endOfText)
  | fuel + 1 =>
    match ← token nested .plain with
    | .word parts _ =>
      let (words, t) ← wordsUpTo nested fuel
      return (parts :: words, t)
    | t => return ([], t)

/-- Read the patterns of an arm, of which the first token has been read, and the token
    behind them.  The fuel bounds their number. -/
def patterns (nested : Nested) (fuel : Nat) : Reading (List Word × Token) := do
  match fuel with
  | 0 => return ([], .endOfText)
  | fuel + 1 =>
    let pattern := (← get).lastWord
    let t ← token nested .plain
    if t.isOperator "|" then
      let _ ← token nested .plain
      let (more, t) ← patterns nested fuel
      return (pattern :: more, t)
    else return ([pattern], t)

/-- What a simple command consists of. -/
structure Simple where
  assignments : List (String × Word)
  words : List Word
  redirects : List Redirect

/-- What has been read of a simple command: it is complete, or it turned out to be the
    beginning of a function. -/
inductive Begun where
  | simple (parts : Simple)
  | function (name : Word)

/-- Read the parts of a simple command.  As long as there are only assignments and
    redirections, a word can be an alias or a further assignment.  The fuel bounds their
    number. -/
def simpleParts (nested : Nested) (fuel : Nat) (p : Simple) : Reading Begun := do
  match fuel with
  | 0 => return .simple p
  | fuel + 1 =>
    let first := p.words.isEmpty
    match ← token nested (if first then .argument else .plain) with
    | .word parts _ =>
      match if first then Word.assignment? parts else none with
      | some a => simpleParts nested fuel { p with assignments := a :: p.assignments }
      | none => simpleParts nested fuel { p with words := parts :: p.words }
    | .redirect descriptor op =>
      let r ← redirection nested descriptor op
      simpleParts nested fuel { p with redirects := r :: p.redirects }
    | t =>
      match t.isOperator "(", p with
      | true, ⟨[], [name], []⟩ => return .function name
      | _, _ =>
        putBack t
        return .simple p

/-- The name of a function. -/
def functionName (name : Word) : Reading String := do
  match Word.plain? name with
  | some text =>
    if Word.isName text && !isSpecialCommand text then return text
    else refuseAs "Bad function name"
  | none => refuseAs "Bad function name"

/-- Commands in sequence as one command. -/
def sequence : List Command → Command
  | [c] => c
  | cs => .sequence cs

/-- A command for which the shell does not wait. -/
def inBackground : Command → Command
  | .redirected _ body redirects => .background body redirects
  | c => .background c []

/-- Where a list of commands stands, which decides how it ends. -/
inductive Place where
  /-- In a script: it ends with the line. -/
  | line
  /-- In a compound command: it ends with a word or operator, and has a command. -/
  | body
  /-- Where there need not be a command. -/
  | optional
  deriving DecidableEq

mutual

/-- Read commands behind those that have been read, which are given last first, and tell
    whether there is no more text. -/
def list (fuel : Nat) (place : Place) (done : List Command) :
    Reading (List Command × Bool) := do
  match fuel with
  | 0 => refuseAs "too long"
  | fuel + 1 =>
    let nested : Nested := ⟨parenthesised fuel, whole fuel⟩
    let t ← token nested ⟨place != .line, true, true⟩
    match t with
    | .newline =>
      readDocuments nested
      return (done.reverse, false)
    | .endOfText =>
      readDocuments nested
      putBack t
      return (done.reverse, done.isEmpty)
    | t =>
      putBack t
      let mayEnd := place == .optional || (place == .body && !done.isEmpty)
      if mayEnd && t.endsList then return (done.reverse, false)
      let c ← andOr fuel
      let t ← token nested .plain
      match t with
      | .endOfText =>
        readDocuments nested
        putBack t
        return ((c :: done).reverse, false)
      | .newline =>
        putBack t
        list fuel place (c :: done)
      | .operator ";" => list fuel place (c :: done)
      | .operator "&" => list fuel place (inBackground c :: done)
      | t =>
        if place == .line then refuse t
        putBack t
        return ((c :: done).reverse, false)

/-- Read the commands of a compound command. -/
def body (fuel : Nat) : Reading Command := do
  match fuel with
  | 0 => refuseAs "too deep"
  | fuel + 1 => return sequence (← list fuel .body []).1

/-- Read pipelines with `&&` and `||` between them. -/
def andOr (fuel : Nat) : Reading Command := do
  match fuel with
  | 0 => refuseAs "too deep"
  | fuel + 1 => andOrRest fuel (← pipeline fuel .plain)

/-- Read what follows a pipeline. -/
def andOrRest (fuel : Nat) (first : Command) : Reading Command := do
  match fuel with
  | 0 => refuseAs "too long"
  | fuel + 1 =>
    match ← token ⟨parenthesised fuel, whole fuel⟩ .plain with
    | .operator "&&" => andOrRest fuel (.andThen first (← pipeline fuel .command))
    | .operator "||" => andOrRest fuel (.orElse first (← pipeline fuel .command))
    | t =>
      putBack t
      return first

/-- Read commands with `|` between them. -/
def pipeline (fuel : Nat) (wanted : Wanted) : Reading Command := do
  match fuel with
  | 0 => refuseAs "too deep"
  | fuel + 1 =>
    let t ← token ⟨parenthesised fuel, whole fuel⟩ wanted
    if t.isKeyword "!" then return .negated (← stages fuel ⟨false, true, true⟩)
    else
      putBack t
      stages fuel .plain

/-- Read a command, or several with `|` between them. -/
def stages (fuel : Nat) (wanted : Wanted) : Reading Command := do
  match fuel with
  | 0 => refuseAs "too deep"
  | fuel + 1 =>
    let first ← command fuel wanted
    match ← moreStages fuel with
    | [] => return first
    | more => return .pipeline (first :: more)

/-- Read the commands behind a `|`, if there is one. -/
def moreStages (fuel : Nat) : Reading (List Command) := do
  match fuel with
  | 0 => refuseAs "too long"
  | fuel + 1 =>
    let t ← token ⟨parenthesised fuel, whole fuel⟩ .plain
    if t.isOperator "|" then
      let c ← command fuel .command
      return c :: (← moreStages fuel)
    else
      putBack t
      return []

/-- Read a command with its redirections. -/
def command (fuel : Nat) (wanted : Wanted) : Reading Command := do
  match fuel with
  | 0 => refuseAs "too deep"
  | fuel + 1 =>
    let nested : Nested := ⟨parenthesised fuel, whole fuel⟩
    let line ← currentLine
    let t ← token nested wanted
    let withRedirects (c : Command) : Reading Command := do
      let redirects ← redirections nested Input.limit ⟨false, true, true⟩
      match c, redirects with
      | .subshell line body _, redirects => return .subshell line body redirects
      | c, [] => return c
      | c, redirects => return .redirected line c redirects
    match t with
    | .keyword "if" => withRedirects (← conditional fuel)
    | .keyword "while" => withRedirects (← loop fuel false)
    | .keyword "until" => withRedirects (← loop fuel true)
    | .keyword "for" => withRedirects (← forLoop fuel line)
    | .keyword "case" => withRedirects (← choice fuel line)
    | .operator "(" =>
      let inner ← body fuel
      expectOperator nested ")"
      withRedirects (.subshell line inner [])
    | .keyword "\x7b" =>
      let inner ← body fuel
      expectKeyword nested .plain "\x7d"
      withRedirects (.sequence [inner])
    | .word _ _ =>
      putBack t
      simple fuel
    | .redirect _ _ =>
      putBack t
      simple fuel
    | t => refuse t

/-- Read a simple command, or the definition of a function. -/
def simple (fuel : Nat) : Reading Command := do
  match fuel with
  | 0 => refuseAs "too deep"
  | fuel + 1 =>
    let nested : Nested := ⟨parenthesised fuel, whole fuel⟩
    let line ← currentLine
    match ← simpleParts nested Input.limit ⟨[], [], []⟩ with
    | .simple p =>
      return .simple line p.assignments.reverse p.words.reverse p.redirects.reverse
    | .function name =>
      expectOperator nested ")"
      let name ← functionName name
      return .define name (← command fuel .command)

/-- Read a conditional whose `if` or `elif` has been read. -/
def conditional (fuel : Nat) : Reading Command := do
  match fuel with
  | 0 => refuseAs "too deep"
  | fuel + 1 =>
    let nested : Nested := ⟨parenthesised fuel, whole fuel⟩
    let condition ← body fuel
    expectKeyword nested .plain "then"
    let yes ← body fuel
    match ← token nested .plain with
    | .keyword "elif" => return .branch condition yes (some (← conditional fuel))
    | .keyword "else" =>
      let no ← body fuel
      expectKeyword nested .plain "fi"
      return .branch condition yes (some no)
    | t =>
      unless t.isKeyword "fi" do refuseFor "\"fi\"" t
      return .branch condition yes none

/-- Read a loop whose first word has been read. -/
def loop (fuel : Nat) (untilTrue : Bool) : Reading Command := do
  match fuel with
  | 0 => refuseAs "too deep"
  | fuel + 1 =>
    let nested : Nested := ⟨parenthesised fuel, whole fuel⟩
    let condition ← body fuel
    expectKeyword nested .plain "do"
    let repeated ← body fuel
    expectKeyword nested .plain "done"
    return .loop untilTrue condition repeated

/-- Read a loop whose `for` has been read. -/
def forLoop (fuel line : Nat) : Reading Command := do
  match fuel with
  | 0 => refuseAs "too deep"
  | fuel + 1 =>
    let nested : Nested := ⟨parenthesised fuel, whole fuel⟩
    let name ← match ← token nested .plain with
      | .word parts false =>
        match Word.plain? parts with
        | some text => if Word.isName text then pure text else refuseAs "Bad for loop variable"
        | none => refuseAs "Bad for loop variable"
      | _ => refuseAs "Bad for loop variable"
    let t ← token nested .command
    let words ←
      if t.isKeyword "in" then
        let (words, t) ← wordsUpTo nested Input.limit
        match t with
        | .newline => pure (some words)
        | .operator ";" => pure (some words)
        | t => refuse t
      else
        unless t.isOperator ";" do putBack t
        pure none
    expectKeyword nested .command "do"
    let repeated ← body fuel
    expectKeyword nested .plain "done"
    return .each line name words repeated

/-- Read a choice whose `case` has been read. -/
def choice (fuel line : Nat) : Reading Command := do
  match fuel with
  | 0 => refuseAs "too deep"
  | fuel + 1 =>
    let nested : Nested := ⟨parenthesised fuel, whole fuel⟩
    match ← token nested .plain with
    | .word subject _ =>
      expectKeyword nested .command "in"
      return .choose line subject (← arms fuel)
    | t => refuseFor "word" t

/-- Read the arms of a choice, up to its end. -/
def arms (fuel : Nat) : Reading (List (List Word × Option Command)) := do
  match fuel with
  | 0 => refuseAs "too long"
  | fuel + 1 =>
    let nested : Nested := ⟨parenthesised fuel, whole fuel⟩
    let t ← token nested ⟨true, true, false⟩
    if t.isKeyword "esac" then return []
    if t.isOperator "(" then let _ ← token nested .plain
    let (found, t) ← patterns nested Input.limit
    unless t.isOperator ")" do refuseFor "\")\"" t
    let commands := (← list fuel .optional []).1
    let arm := (found, if commands.isEmpty then none else some (sequence commands))
    let t ← token nested ⟨true, true, false⟩
    if t.isKeyword "esac" then return [arm]
    unless t.isOperator ";;" do refuseFor "\";;\"" t
    return arm :: (← arms fuel)

/-- Read the script that a parenthesis behind a dollar opens. -/
def parenthesised (fuel : Nat) (s : Source) :
    Except SyntaxError (Option Command × Source) :=
  match fuel with
  | 0 => .error (s.fault "too deep")
  | fuel + 1 =>
    let read : Reading (Option Command) := do
      let (commands, _) ← list fuel .optional []
      let nested : Nested := ⟨parenthesised fuel, whole fuel⟩
      expectOperator nested ")"
      let behind := (← get).input
      modify fun s => { s with input := .ofText "" behind.line }
      readDocuments nested
      modify fun s => { s with input := behind }
      return if commands.isEmpty then none else some (sequence commands)
    read.run s

/-- Read a whole text up to where its commands end. -/
def whole (fuel : Nat) (s : Source) : Except SyntaxError (Option Command × Source) :=
  match fuel with
  | 0 => .error (s.fault "too deep")
  | fuel + 1 => do
    let ((commands, _), s) ← (list fuel .optional []).run s
    return (if commands.isEmpty then none else some (sequence commands), s)

end

/-- What is read from a script in one piece. -/
inductive Next where
  /-- There is nothing more. -/
  | nothing
  /-- A line without a command. -/
  | blank
  | command (c : Command)

/-- How deep commands may stand in commands. -/
def maxDepth : Nat := 1000000

/-- A source whose whole text is read as a here-document: the number of the document. -/
def document (s : Source) : Except SyntaxError (Nat × Source) := do
  let number := s.documents.size
  let awaited : Awaited :=
    { number := number, expanded := true, stripsTabs := false, ending := ['\x00'] }
  let s ← Lexer.readDocuments ⟨parenthesised maxDepth, whole maxDepth⟩ { s with
    documents := s.documents.push []
    awaited := [awaited] }
  return (number, s)

/-- Read the next complete command. -/
def next (s : Source) : Except SyntaxError (Next × Source) := do
  let ((commands, ended), s) ← (list maxDepth .line []).run
    { s with putBack := none, awaited := [] }
  let found := if ended then .nothing
    else if commands.isEmpty then .blank
    else .command (sequence commands)
  return (found, s)

end Keysmith.Shell.Parser
