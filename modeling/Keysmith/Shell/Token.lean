import Keysmith.Shell.Input
import Keysmith.Shell.Script

/-! # Tokens

What the text of a script falls into, and how far it has been read.  A word is a
reserved word only where a command can begin, so which it is is settled when the token
is asked for; a token can be put back and be asked for again. -/

namespace Keysmith.Shell

/-- A token of a script. -/
inductive Token where
  | endOfText
  | newline
  /-- A control operator by its text. -/
  | operator (text : String)
  | redirect (descriptor : Nat) (operator : String)
  /-- A word, and whether anything in it was quoted. -/
  | word (parts : Word) (quoted : Bool)
  /-- A reserved word. -/
  | keyword (text : String)

namespace Token

/-- How messages call a token. -/
def name : Token → String
  | endOfText => "end of file"
  | newline => "newline"
  | operator text => s!"\"{text}\""
  | redirect _ _ => "redirection"
  | word _ _ => "word"
  | keyword text => s!"\"{text}\""

/-- The reserved words. -/
def keywords : List String :=
  ["!", "case", "do", "done", "elif", "else", "esac", "fi", "for", "if", "in", "then",
   "until", "while", "\x7b", "\x7d"]

/-- The reserved words that end a list of commands. -/
def closers : List String :=
  ["do", "done", "elif", "else", "esac", "fi", "then", "\x7d"]

/-- Whether a list of commands ends at a token. -/
def endsList : Token → Bool
  | endOfText => true
  | operator text => text == ")" || text == ";;"
  | keyword text => closers.contains text
  | _ => false

/-- Whether a token is the end of the text. -/
def isEnd : Token → Bool
  | endOfText => true
  | _ => false

/-- Whether a token is an operator of a text. -/
def isOperator (text : String) : Token → Bool
  | operator t => t == text
  | _ => false

/-- Whether a token is a reserved word. -/
def isKeyword (text : String) : Token → Bool
  | keyword t => t == text
  | _ => false

end Token

/-- What makes a script unreadable, and on which line. -/
structure SyntaxError where
  line : Nat
  message : String

/-- A here-document whose text begins on the next line. -/
structure Awaited where
  number : Nat
  expanded : Bool
  stripsTabs : Bool
  /-- The line that ends it. -/
  ending : List Char

/-- A script and how far it has been read. -/
structure Source where
  input : Input
  aliases : List (String × String)
  /-- The texts of the here-documents. -/
  documents : Array Word
  /-- The here-documents that are still to be read. -/
  awaited : List Awaited
  /-- A token that was put back. -/
  putBack : Option Token
  /-- The last word that was read. -/
  lastWord : Word

namespace Source

/-- The beginning of a text. -/
def ofText (text : String) (line : Nat) (aliases : List (String × String))
    (documents : Array Word) : Source where
  input := .ofText text line
  aliases := aliases
  documents := documents
  awaited := []
  putBack := none
  lastWord := []

/-- A mistake at the current line. -/
def fault (s : Source) (message : String) : SyntaxError :=
  ⟨s.input.line, s!"Syntax error: {message}"⟩

/-- The mistake that a token stands where it cannot stand. -/
def unexpected (s : Source) (t : Token) : SyntaxError := s.fault s!"{t.name} unexpected"

/-- The mistake that a token stands where something else has to stand. -/
def expecting (s : Source) (what : String) (t : Token) : SyntaxError :=
  s.fault s!"{t.name} unexpected (expecting {what})"

end Source

end Keysmith.Shell
