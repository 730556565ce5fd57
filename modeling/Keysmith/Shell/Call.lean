import Keysmith.Shell.Builtin.Names
import Keysmith.Shell.Builtin.Table
import Keysmith.Shell.Expand

/-! # The words of a simple command

How the words of a simple command are expanded.  The first one tells how the others are:
what `export` gets, for instance, can be assignments, which stay in one piece.  The command
`command` lets the next word tell; it passes over functions. -/

namespace Keysmith.Shell

/-- A simple command whose words have been expanded. -/
structure Call where
  /-- All words. -/
  shown : List String
  /-- The words from the one on that is run. -/
  words : List String
  /-- Whether functions are passed over. -/
  skipsFunctions : Bool
  /-- Where programs are looked for, if not along the search path. -/
  path : Option String
  /-- Whether a mistake in it ends the shell. -/
  isSpecial : Bool
  /-- Whether variables that are assigned in front of it are its own. -/
  hasOwn : Bool

namespace Call

/-- Whether the command is the one that changes the shell's own descriptors. -/
def isExec (c : Call) : Bool := c.words.head? == some "exec"

/-- Words that have been expanded, and those that have not. -/
structure Progress where
  done : List String
  left : List Word

/-- Expand words until there are more than so many of them.  None if there are not. -/
def wordAt (run : Expand.Runner) (n : Nat) (done : List String) :
    List Word → ShellM (Option String × Progress)
  | [] => return (done[n]?, ⟨done, []⟩)
  | w :: left => do
    match done[n]? with
    | some word => return (some word, ⟨done, w :: left⟩)
    | none => wordAt run n (done ++ (← Expand.fields run w)) left

/-- The number of the word behind the options of `command`, and where programs are looked
    for.  None if there is no such word, or if the options only ask what it means.  The fuel
    bounds the number of words. -/
def behindOptions (run : Expand.Runner) (fuel n : Nat) (path : Option String) (p : Progress) :
    ShellM (Option (Nat × Option String) × Progress) := do
  match fuel with
  | 0 => return (none, p)
  | fuel + 1 =>
    let (word, p) ← wordAt run n p.done p.left
    match word.map String.toList with
    | none => return (none, p)
    | some ['-', '-'] =>
      let (next, p) ← wordAt run (n + 1) p.done p.left
      return (next.map fun _ => (n + 1, path), p)
    | some ('-' :: c :: letters) =>
      if (c :: letters).all (· == 'p') then
        behindOptions run fuel (n + 1) (some Program.standardPath) p
      else return (none, p)
    | some _ => return (some (n, path), p)

/-- What the first words tell about a command. -/
structure Beginning where
  /-- The number of the word that is run. -/
  first : Nat
  skipsFunctions : Bool
  path : Option String
  /-- Whether the first word is a special command; none if it is no command of the shell. -/
  special : Option Bool
  /-- Whether the last command of the shell that was met takes assignments. -/
  assigns : Bool

/-- Go from one word that tells how the others are expanded to the next one.  The fuel bounds
    the number of words. -/
def begin_ (run : Expand.Runner) (fuel : Nat) (b : Beginning) (p : Progress) :
    ShellM (Beginning × Progress) := do
  match fuel, p.done[b.first]? with
  | fuel + 1, some name =>
    let isFunction := !b.skipsFunctions && ((← get).functions.lookup name).isSome
    if isFunction || !Builtin.isBuiltin name then return (b, p)
    let b := { b with
      special := some (b.special.getD (isSpecialCommand name))
      assigns := Builtin.assigning.contains name }
    if name != "command" then return (b, p)
    match ← behindOptions run 1000 (b.first + 1) b.path p with
    | (none, p) => return (b, p)
    | (some (n, path), p) =>
      begin_ run fuel { b with first := n, path := path, skipsFunctions := true } p
  | _, _ => return (b, p)

/-- Expand an argument that is an assignment. -/
def assignment (run : Expand.Runner) (name : String) (value : Word) : ShellM String := do
  return s!"{name}={← Expand.assigned run value}"

/-- Expand the arguments that have not been expanded. -/
def arguments (run : Expand.Runner) (assigns : Bool) (ws : List Word) : ShellM (List String) := do
  let found ← ws.mapM fun w =>
    match if assigns then Word.assignment? w else none with
    | some (name, value) => return [← assignment run name value]
    | none => Expand.fields run w
  return found.flatten

/-- Expand the words of a simple command. -/
def ofWords (run : Expand.Runner) (ws : List Word) : ShellM Call := do
  let (first, p) ← wordAt run 0 [] ws
  if first.isNone then return ⟨[], [], false, none, false, false⟩
  let (b, p) ← begin_ run 1000 ⟨0, false, none, none, false⟩ p
  let shown := p.done ++ (← arguments run b.assigns p.left)
  return {
    shown := shown
    words := shown.drop b.first
    skipsFunctions := b.skipsFunctions
    path := b.path
    isSpecial := b.special.getD false
    hasOwn := !b.special.getD false }

end Call

end Keysmith.Shell
