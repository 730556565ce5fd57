import Keysmith.Shell.Builtin.Basic
import Keysmith.Shell.Fields

/-! # Commands for variables and settings -/

namespace Keysmith.Shell.Builtin

/-- Print text in lines. -/
def printLines (lines : List String) : ShellM Unit := lines.forM ShellM.print

/-- Mark variables, which can be given values, or list those that are marked. -/
def declare (name : String) (how : ShellM.Change) (isMarked : Binding → Bool) : Builtin :=
  fun arguments => do
    let (given, names) ← options [('p', false)] arguments
    if !given.isEmpty || names.isEmpty then
      printLines (listBindings name isMarked (← get).bindings)
    else
      names.forM fun word =>
        match definition word with
        | (name, some value) => ShellM.assignAs how name (some value)
        | (name, none) => ShellM.mark how name
    return 0

/-- Let programs see variables. -/
def markExported : Builtin := declare "export" ⟨true, false⟩ (·.isExported)

/-- Let variables stay as they are. -/
def markReadOnly : Builtin := declare "readonly" ⟨false, true⟩ (·.isReadOnly)

/-- Let the current function have variables of its own, or, by a dash, settings. -/
def makeLocal : Builtin := fun arguments => do
  if (← get).kept.isEmpty then ShellM.fail "not in a function"
  (← operands arguments).forM fun word => do
    if word == "-" then
      modify fun s => { s with kept := match s.kept with
        | [] => []
        | frame :: rest => (.settings s.settings :: frame) :: rest }
    else
      let (name, value) := definition word
      ShellM.assignLocally .plain name value
  return 0

/-- Make variables or functions unset. -/
def unset : Builtin := fun arguments => do
  let (given, names) ← options [('v', false), ('f', false)] arguments
  if (given.getLast?.map (·.letter)) == some 'f' then
    modify fun s => { s with functions := s.functions.filter fun f => !names.contains f.1 }
  else names.forM fun name => ShellM.assignAs .plain name none
  return 0

/-! ## Settings -/

/-- What is said to the wish for job control. -/
def noTerminal : String := "can't access tty; job control turned off"

/-- Switch a setting. -/
def switch (x : Setting) (on : Bool) : ShellM Unit := do
  if x == .monitor && on then ShellM.warn noTerminal
  else modify fun s => { s with settings := Setting.switch s.settings x on }

/-- List all settings, as a table or as commands that set them again. -/
def listSettings (asTable : Bool) (isOn : Setting → Bool) : ShellM Unit := do
  if asTable then ShellM.print "Current option settings\n"
  Setting.table.forM fun (x, name, _) =>
    if asTable then
      let padding := String.ofList (List.replicate (16 - name.length) ' ')
      ShellM.print (name ++ padding ++ (if isOn x then "on\n" else "off\n"))
    else ShellM.print ((if isOn x then "set -o " else "set +o ") ++ name ++ "\n")

/-- Switch the setting of a name, or list all settings. -/
def switchNamed (on : Bool) : Option String → ShellM Unit
  | some name =>
    match Setting.ofName? name with
    | some x => switch x on
    | none => ShellM.fail s!"Illegal option -o {name}"
  | none => do listSettings on (← get).has

/-- Switch the settings of letters.  The letter `o` stands for the name in the next word;
    the words that are left are returned. -/
def switchAll (on : Bool) (rest : List String) : List Char → ShellM (List String)
  | [] => return rest
  | 'o' :: letters => do
    switchNamed on rest.head?
    switchAll on rest.tail letters
  | c :: letters => do
    match Setting.ofLetter? c with
    | some x => switch x on
    | none => ShellM.fail s!"Illegal option -{c}"
    switchAll on rest letters

/-- Switch settings by words, up to the first one that does not; the words that are left,
    and whether they replace the arguments even if there are none.  The fuel is the number
    of words. -/
def switchByWords (fuel : Nat) (words : List String) : ShellM (List String × Bool) := do
  match fuel, words with
  | 0, words => return (words, false)
  | _, [] => return ([], false)
  | fuel + 1, word :: rest =>
    match word.toList with
    | ['-'] =>
      modify fun s => { s with
        settings := s.settings.filter fun x => x != .xtrace && x != .verbose }
      return (rest, false)
    | ['-', '-'] => return (rest, true)
    | '-' :: letters => switchByWords fuel (← switchAll true rest letters)
    | '+' :: letters => switchByWords fuel (← switchAll false rest letters)
    | _ => return (words, false)

/-- Set settings and arguments, or list the variables. -/
def setAll : Builtin := fun arguments => do
  if arguments.isEmpty then
    printLines (listBindings "" (·.value.isSome) (← get).bindings)
  else
    let (words, replaces) ← switchByWords arguments.length arguments
    if replaces || !words.isEmpty then
      modify fun s => { s with arguments := words, nextOption := (1, none) }
  return 0

/-! ## Options of scripts -/

/-- Set a variable that the shell itself keeps. -/
def setNextOption (n : Nat) : ShellM Unit := do
  let s ← get
  let old := s.binding? "OPTIND"
  if old.any (·.isReadOnly) then ShellM.fail "OPTIND: is read only"
  let b : Binding := ⟨"OPTIND", some (toString n), old.any (·.isExported), false⟩
  modify fun s => { s with toContext := s.toContext.withBinding b }

/-- What the next option is: its letter, the next word to look at and what is left of the
    current one, and its argument or a complaint. -/
structure NextOption where
  letter : Char
  next : Nat
  offset : Option Nat
  /-- What `OPTARG` becomes. -/
  argument : Option String
  complaint : Option String
  isOver : Bool

/-- Whether a letter has an argument, by the letters that are known, which have colons behind
    them if they do.  None if the letter is not among them. -/
def wantsArgument? (c : Char) : List Char → Option Bool
  | [] => none
  | k :: ':' :: rest => if k == c then some true else wantsArgument? c rest
  | k :: rest => if k == c then some false else wantsArgument? c rest

/-- Look at the next option among words. -/
def nextOption (known : String) (words : List String) (next : Nat) (offset : Option Nat) :
    NextOption :=
  let current := (words[next - 2]?).getD ""
  let inWord : List Char := match offset with
    | some n => if next ≤ 1 then [] else current.toList.drop n
    | none => []
  let finished (next : Nat) : NextOption := ⟨'?', next, none, none, none, true⟩
  let quiet := known.toList.head? == some ':'
  let option (c : Char) (rest : List Char) (next : Nat) : NextOption :=
    let length := ((words[next - 2]?).getD "").length
    let offset := some (length - rest.length)
    match wantsArgument? c known.toList with
    | none =>
      if quiet then ⟨'?', next, offset, some c.toString, none, false⟩
      else ⟨'?', next, offset, none, some s!"Illegal option -{c}\n", false⟩
    | some true =>
      if !rest.isEmpty then ⟨c, next, none, some (String.ofList rest), none, false⟩
      else match words[next - 1]? with
        | some word => ⟨c, next + 1, none, some word, none, false⟩
        | none =>
          if quiet then ⟨':', next, none, some c.toString, none, false⟩
          else ⟨'?', next, none, none, some s!"No arg for -{c} option\n", false⟩
    | some false => ⟨c, next, offset, some "", none, false⟩
  match inWord with
  | c :: rest => option c rest next
  | [] =>
    match words[next - 1]? with
    | none => finished next
    | some word =>
      match word.toList with
      | '-' :: c :: rest =>
        if c == '-' && rest.isEmpty then finished (next + 1) else option c rest (next + 1)
      | _ => finished next

/-- Put the next option of the script, or of other words, into variables. -/
def getopts : Builtin := fun arguments => do
  match arguments with
  | known :: name :: others =>
    let s ← get
    let words := if others.isEmpty then s.arguments else others
    let (next, offset) :=
      if words.length + 1 < s.nextOption.1 then (1, none) else s.nextOption
    let x := nextOption known words next offset
    match x.complaint with
    | some complaint => ShellM.printError complaint
    | none => pure ()
    if !x.isOver then ShellM.assignAs .plain "OPTARG" x.argument
    setNextOption x.next
    modify fun s => { s with nextOption := (x.next, none) }
    ShellM.assign name x.letter.toString
    modify fun s => { s with nextOption := (x.next, x.offset) }
    return if x.isOver then 1 else 0
  | _ => ShellM.fail "Usage: getopts optstring var [arg...]"

/-! ## Reading -/

/-- A line as far as it is read. -/
structure Reading where
  draft : Draft
  /-- Where the part begins that can fall apart. -/
  start : Nat
  /-- Whether a backslash was the last character. -/
  isEscaped : Bool
  /-- Whether the end of the line has been read. -/
  isOver : Bool

/-- Add a character of a line. -/
def Reading.add (isRaw : Bool) (x : Reading) (c : Char) : Reading :=
  if c == '\x00' then x
  else if x.isEscaped then
    let before := x.draft.loosen x.start false
    let draft := if c == '\n' then before else before.add [.bare c]
    { x with draft := draft, start := draft.size, isEscaped := false }
  else if !isRaw && c == '\\' then { x with isEscaped := true }
  else if c == '\n' then { x with isOver := true }
  else { x with draft := x.draft.add [.bare c] }

/-- Read a line from the standard input, and whether its end was there. -/
def readLine (isRaw : Bool) : ShellM (Draft × Bool) :=
  ShellM.repeating (fun x => do
    let s ← get
    let (bs, system) := match (s.handle? 0).map fun id => s.system.readUpTo id 10 with
      | some (.ok (bs, system)) => (bs, system)
      | _ => ([], s.system)
    set { s with system := system }
    let x := (bs.map Text.Octets.ofByte).foldl (Reading.add isRaw) x
    if x.isOver || bs.getLast? != some 10 then
      return .inr (x.draft.loosen x.start false, x.isOver)
    else return .inl x)
    (fun x => (x.draft, false)) ShellM.maxRounds ⟨.empty, 0, false, false⟩

/-- Read a line into variables. -/
def read : Builtin := fun arguments => do
  let (given, names) ← options [('p', true), ('r', false)] arguments
  if names.isEmpty then ShellM.fail "arg count"
  let (line, isComplete) ← readLine (has given 'r')
  let s ← get
  let found := (Fields.split s.separators (some names.length) line).map Glyph.text
  (names.zipIdx).forM fun (name, i) => ShellM.assign name ((found[i]?).getD "")
  return if isComplete then 0 else 1

end Keysmith.Shell.Builtin
