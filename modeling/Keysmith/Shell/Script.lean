/-! # Shell scripts

The commands of a POSIX shell script as values.  Words are kept in parts, because
what a part expands to depends on the state in which the command is run.

All texts are octet texts. -/

namespace Keysmith.Shell

/-- What `${name…}` does when the variable is unset. -/
inductive Fallback where
  /-- Stand in for it (`-`). -/
  | useValue
  /-- Stand in for it and be assigned to it (`=`). -/
  | assign
  /-- Fail with it as a message (`?`). -/
  | complain
  /-- Stand in only if the variable is set (`+`). -/
  | ifSet
  deriving DecidableEq, Repr

/-- Which end of a value a pattern is cut from, and how much. -/
inductive Cut where
  | shortestFront
  | longestFront
  | shortestBack
  | longestBack
  deriving DecidableEq, Repr

/-- What is done with the value of a parameter. -/
inductive Operation where
  | value
  /-- Its length. -/
  | length
  /-- A word is for the case that it is unset, or is empty if `orEmpty`. -/
  | fallback (kind : Fallback) (orEmpty : Bool)
  /-- What a pattern matches at one end is cut off. -/
  | cut (kind : Cut)
  /-- Nothing that has a meaning. -/
  | faulty
  deriving DecidableEq, Repr

/-- What a redirection does with the file or descriptor that it names. -/
inductive RedirectKind where
  | input
  | readWrite
  | output
  /-- Write a file even if one is there and must not be overwritten. -/
  | clobber
  | append
  /-- Make the descriptor the same as another one, or close it. -/
  | duplicate
  /-- Read the document of that number; what is in it is expanded unless its mark was
      quoted. -/
  | document (number : Nat) (expanded : Bool)
  deriving DecidableEq, Repr

mutual

/-- A part of a word. -/
inductive Part where
  | literal (quoted : Bool) (text : String)
  /-- A place where quotes begin or end. -/
  | mark
  /-- A parameter, with the word that its operation needs. -/
  | parameter (name : String) (operation : Operation) (word : List Part)
  /-- What a command prints. -/
  | output (command : Option Command)
  /-- The value of an arithmetic expression. -/
  | arithmetic (expression : List Part)

/-- A redirection of a descriptor. -/
inductive Redirect where
  | mk (descriptor : Nat) (kind : RedirectKind) (target : List Part)

/-- A command.  The lines are for messages. -/
inductive Command where
  | simple (line : Nat) (assignments : List (String × List Part))
      (words : List (List Part)) (redirects : List Redirect)
  /-- Commands each of which reads what the one before prints. -/
  | pipeline (stages : List Command)
  | negated (body : Command)
  | andThen (first second : Command)
  | orElse (first second : Command)
  | sequence (commands : List Command)
  | branch (condition yes : Command) (no : Option Command)
  /-- Repeat while the condition holds, or until it does. -/
  | loop (untilTrue : Bool) (condition body : Command)
  /-- Repeat for each of the words, or for each argument if there are none given. -/
  | each (line : Nat) (name : String) (words : Option (List (List Part))) (body : Command)
  | choose (line : Nat) (subject : List Part)
      (arms : List (List (List Part) × Option Command))
  /-- Run in a copy of the shell. -/
  | subshell (line : Nat) (body : Command) (redirects : List Redirect)
  /-- Run in a copy of the shell for which the shell does not wait. -/
  | background (body : Command) (redirects : List Redirect)
  | redirected (line : Nat) (body : Command) (redirects : List Redirect)
  | define (name : String) (body : Command)

end

/-- A word. -/
abbrev Word := List Part

namespace Word

/-- The text of a word that is one unquoted literal. -/
def plain? : Word → Option String
  | [.literal false text] => some text
  | _ => none

/-- Whether a character may begin a name. -/
def isNameStart (c : Char) : Bool := c.isAlpha || c == '_'

/-- Whether a character may continue a name. -/
def isNameChar (c : Char) : Bool := c.isAlphanum || c == '_'

/-- Whether a text is the name of a variable. -/
def isName (text : String) : Bool :=
  match text.toList with
  | c :: rest => isNameStart c && rest.all isNameChar
  | [] => false

/-- The name and the value that a word assigns, if it is an assignment. -/
def assignment? : Word → Option (String × Word)
  | .literal false text :: rest =>
    let name := String.ofList (text.toList.takeWhile (· != '='))
    if isName name && name.length < text.length then
      let value := (text.drop (name.length + 1)).toString
      some (name, if value.isEmpty then rest else .literal false value :: rest)
    else none
  | _ => none

end Word

end Keysmith.Shell
