import Keysmith.Shell.Arithmetic
import Keysmith.Shell.Fields
import Keysmith.Shell.Lexer
import Keysmith.Shell.Paths

/-! # Expanding words

What the words of a command become before it is run.  Parameters, the output of commands
and arithmetic are put in their places; what comes from outside of quotes falls into
fields, and patterns become the paths that they match.

How a command is run for its output is left to a runner. -/

namespace Keysmith.Shell.Expand

/-- A way to run a command for what it prints. -/
abbrev Runner := Option Command → ShellM String

/-- How a word is expanded. -/
structure Manner where
  /-- Whether it falls into fields. -/
  full : Bool
  /-- Whether it belongs to a parameter. -/
  inWord : Bool
  /-- Whether it stands in quotes as a whole. -/
  inQuotes : Bool
  /-- Whether a tilde counts behind colons. -/
  afterColons : Bool

/-- How the words of a command are expanded. -/
def Manner.words : Manner := ⟨true, false, false, false⟩

/-- How a text is expanded that stays in one piece. -/
def Manner.text : Manner := ⟨false, false, false, false⟩

/-- How the value of an assignment is expanded. -/
def Manner.assignment : Manner := ⟨false, false, false, true⟩

/-- How a here-document is expanded. -/
def Manner.document : Manner := ⟨false, false, true, false⟩

/-! ## Tildes -/

/-- The directories of the users that are known. -/
def userDirectories : List (String × String) :=
  [("root", "/root"), ("daemon", "/usr/sbin"), ("bin", "/bin"), ("nobody", "/nonexistent")]

/-- The directory of a user; with an empty name, that of the user who runs the script. -/
def userDirectory? (c : Context) (user : String) : Option String :=
  if user.isEmpty then c.value? "HOME" else userDirectories.lookup user

/-- The glyphs of a text that may begin with a tilde.  The name of a user ends at a slash or
    at one of the given characters, or with the text if that `mayEnd`. -/
def tilde (c : Context) (ends : List Char) (mayEnd : Bool) (text : List Char) : List Glyph :=
  match text with
  | '~' :: rest =>
    let isEnd (x : Char) : Bool := x == '/' || ends.contains x
    let (user, behind) := (rest.takeWhile (!isEnd ·), rest.dropWhile (!isEnd ·))
    if behind.isEmpty && !mayEnd then text.map .bare
    else match userDirectory? c (String.ofList user) with
      | some dir => Glyph.ofText true dir ++ behind.map .bare
      | none => text.map .bare
  | text => text.map .bare

/-- The glyphs of a text in which a tilde counts behind each colon. -/
def tildesAfterColons (c : Context) (atStart mayEnd : Bool) (text : List Char) : List Glyph :=
  let pieces := Text.pieces (· == ':') text
  let expanded := pieces.mapIdx fun i piece =>
    if i = 0 && !atStart then piece.map Glyph.bare
    else tilde c [] (mayEnd || i + 1 < pieces.length) piece
  (expanded.intersperse [.bare ':']).flatten

/-! ## Parameters -/

/-- The glyphs of arguments, with a separator between them. -/
def joined (isQuoted : Bool) (separator : List Glyph) (arguments : List String) : List Glyph :=
  ((arguments.map (Glyph.ofText isQuoted)).intersperse separator).flatten

/-- What stands between arguments that are joined: the first of the separators, unless they
    fall into fields again. -/
def between (c : Context) (m : Manner) (isQuoted : Bool) : List Glyph :=
  if m.full && !isQuoted && (c.value? "IFS").isSome then [.gap]
  else (c.separators.take 1).flatMap fun x => Glyph.ofText isQuoted x.toString

/-- What a parameter stands for.  None if it is unset. -/
def parameter? (c : Context) (m : Manner) (isQuoted : Bool) (name : String) :
    Option (List Glyph) :=
  let number (n : Nat) : Option (List Glyph) := some (Glyph.ofText isQuoted (toString n))
  match name with
  | "?" => number c.status
  | "#" => number c.arguments.length
  | "$" => number c.mainProcess
  | "!" => if c.lastBackground = 0 then none else number c.lastBackground
  | "-" => some (Glyph.ofText isQuoted (Setting.letters c.settings))
  | "@" =>
    some (joined isQuoted (if isQuoted && m.full then [.gap] else between c m isQuoted)
      c.arguments)
  | "*" => some (joined isQuoted (between c m isQuoted) c.arguments)
  | "0" => some (Glyph.ofText isQuoted c.name)
  | _ =>
    let value := match name.toNat? with
      | some n => if n = 0 then some c.name else c.arguments[n - 1]?
      | none => c.value? name
    value.map (Glyph.ofText isQuoted)

/-- Whether a part could be quoted. -/
def isQuotedPart : Part → Bool
  | .literal quoted _ => quoted
  | .mark => true
  | _ => false

/-- The message for a parameter that is unset. -/
def notSet (orEmpty : Bool) : String :=
  if orEmpty then "parameter not set or null" else "parameter not set"

/-- A text without the line ends at its end. -/
def withoutLastLines (s : List Char) : List Char :=
  (s.reverse.dropWhile (· == '\n')).reverse

mutual

/-- Expand the parts of a word behind what is expanded.  The fuel bounds the number of
    parts and how deep they stand in each other. -/
def parts (run : Runner) (fuel : Nat) (m : Manner) (atStart inQuotes : Bool) (word : Word)
    (d : Draft) : ShellM Draft := do
  match fuel with
  | 0 => return d
  | fuel + 1 =>
    match inQuotes, word with
    | _, [] => return d
    | false, .mark :: .parameter "@" .value _ :: .mark :: rest =>
      parts run fuel m false false rest (← parameter run fuel m true "@" .value [] d)
    | _, .mark :: rest =>
      parts run fuel m false (!inQuotes) rest (d.add [.mark])
    | _, .literal true text :: rest =>
      parts run fuel m false inQuotes rest (d.add (Glyph.ofText true text))
    | _, .literal false text :: rest =>
      let c := (← get).toContext
      let gs :=
        if m.afterColons then tildesAfterColons c atStart rest.isEmpty text.toList
        else if atStart then tilde c [] rest.isEmpty text.toList
        else Glyph.ofText false text
      let added := d.add gs
      let isLoose := m.inWord && !m.inQuotes && !inQuotes
      parts run fuel m false inQuotes rest (if isLoose then added.loosen d.size false else added)
    | _, .parameter name op inner :: rest =>
      let d ← parameter run fuel m (m.inQuotes || inQuotes) name op inner d
      parts run fuel m false inQuotes rest d
    | _, .output command :: rest =>
      let isQuoted := m.inQuotes || inQuotes
      let text := (← run command).toList.filter (· != '\x00')
      let added := d.add (Glyph.ofText isQuoted (String.ofList (withoutLastLines text)))
      parts run fuel m false inQuotes rest
        (if isQuoted then added else added.loosen d.size false)
    | _, .arithmetic expression :: rest =>
      let isQuoted := m.inQuotes || inQuotes
      let inner ← parts run fuel .text false false expression .empty
      let n ← Arithmetic.value (Glyph.text inner.all)
      let added := d.add (Glyph.ofText isQuoted (toString n))
      parts run fuel m false inQuotes rest
        (if isQuoted then added else added.loosen d.size false)

/-- Expand a parameter behind what is expanded. -/
def parameter (run : Runner) (fuel : Nat) (m : Manner) (isQuoted : Bool) (name : String)
    (op : Operation) (inner : Word) (d : Draft) : ShellM Draft := do
  match fuel with
  | 0 => return d
  | fuel + 1 =>
    let s ← get
    let held := parameter? s.toContext m isQuoted name
    /- Parts of a value that come from outside of quotes fall into fields. -/
    let closed (added : Draft) : Draft :=
      if !isQuoted then added.loosen d.size false
      else if name == "@" && !s.arguments.isEmpty then added.loosen d.size true
      else added
    let wordManner : Manner := { m with inWord := true, inQuotes := isQuoted }
    let refuseUnset : ShellM Unit := do
      if held.isNone && s.has .nounset then ShellM.fail s!"{name}: {notSet false}"
    match op with
    | .faulty => ShellM.fail "Bad substitution"
    | .value =>
      refuseUnset
      return match held with
        | some gs => closed (d.add gs)
        | none => d
    | .length =>
      refuseUnset
      return closed (d.add (Glyph.ofText isQuoted (toString (held.getD []).length)))
    | .fallback kind orEmpty =>
      let isSet := match held with
        | none => false
        | some gs => !(orEmpty && gs.isEmpty)
      match kind, isSet with
      | .useValue, true => return closed (d.add (held.getD []))
      | .useValue, false => parts run fuel wordManner true false inner d
      | .ifSet, true => parts run fuel wordManner true false inner d
      | .ifSet, false => return closed d
      | .assign, true => return closed (d.add (held.getD []))
      | .complain, true => return closed (d.add (held.getD []))
      | .assign, false =>
        let value ← parts run fuel .text true false inner .empty
        ShellM.assign name (Glyph.text value.all)
        let gs := parameter? (← get).toContext m isQuoted name
        return closed (d.add (gs.getD []))
      | .complain, false =>
        let message ← parts run fuel .text true false inner .empty
        let text := if inner.isEmpty then notSet orEmpty else Glyph.text message.all
        ShellM.fail s!"{name}: {text}"
    | .cut kind =>
      refuseUnset
      match held with
      | none => return d
      | some gs =>
        let pattern ← parts run fuel .text true false inner .empty
        let gs := Pattern.cut kind (Glyph.pattern false pattern.all) gs
        return closed (d.add gs)

end

/-- How many parts a word may have, and how deep they may stand in each other. -/
def maxDepth : Nat := 100000

/-- Expand a word of a command to fields. -/
def fields (run : Runner) (w : Word) : ShellM (List String) := do
  match w with
  | [.literal false text] =>
    if !text.toList.any (['*', '?', '[', '~', '\\'].contains ·) then return [text]
  | _ => pure ()
  let d ← parts run maxDepth .words true false w .empty
  let s ← get
  let found := Fields.split s.separators none d
  if s.has .noglob then return found.map Glyph.text
  return found.flatMap (Paths.ofField s.system.disk)

/-- Expand a word to a text in one piece. -/
def text (run : Runner) (w : Word) : ShellM String := do
  return Glyph.text (← parts run maxDepth .text true false w .empty).all

/-- Expand the value of an assignment. -/
def assigned (run : Runner) (w : Word) : ShellM String := do
  return Glyph.text (← parts run maxDepth .assignment true false w .empty).all

/-- Expand a here-document. -/
def document (run : Runner) (w : Word) : ShellM String := do
  return Glyph.text (← parts run maxDepth .document false false w .empty).all

/-- Expand a word to a pattern. -/
def pattern (run : Runner) (w : Word) : ShellM (List Char) := do
  return Glyph.pattern false (← parts run maxDepth .text true false w .empty).all

end Keysmith.Shell.Expand
