import Keysmith.FileSystem.Mode
import Keysmith.Text.Utf8

/-! # File trees

A tree of files, symbolic links and directories.  A place is a list of names from
the root of the tree; `at?` looks a place up, `modify`, `insert` and `remove` change
the tree at a place and leave it alone elsewhere.

If a directory listed a name twice, the first entry would count; `insert` is only
used for names that are absent. -/

namespace Keysmith

/-- A place in a tree: names from the root, outermost first. -/
abbrev Place := List String

/-- What a place of a tree can hold. -/
inductive Node where
  | file (content : Bytes) (mode : Mode)
  | link (target : String)
  | dir (entries : List (String × Node))

namespace Node

/-- The entries of a directory; none for anything else. -/
def entries? : Node → Option (List (String × Node))
  | file _ _ => none
  | link _ => none
  | dir es => some es

/-- Whether a node is a directory. -/
def isDir (t : Node) : Bool := t.entries?.isSome

/-- The entry of a directory under a name. -/
def child? (t : Node) (name : String) : Option Node :=
  t.entries?.bind (·.lookup name)

/-- What a tree holds at a place.  Links are not followed. -/
def at? : Node → Place → Option Node
  | t, [] => some t
  | t, name :: place => (t.child? name).bind (·.at? place)

/-- Change what a tree holds at a place. -/
def modify (f : Node → Node) : Place → Node → Node
  | [], t => f t
  | name :: place, dir es =>
    dir (es.map fun e => if e.1 = name then (e.1, modify f place e.2) else e)
  | _ :: _, t => t

/-- Add an entry to a directory. -/
def withEntry (name : String) (x : Node) : Node → Node
  | dir es => dir ((name, x) :: es)
  | t => t

/-- Take an entry out of a directory, with all below it. -/
def withoutEntry (name : String) : Node → Node
  | dir es => dir (es.filter fun e => e.1 != name)
  | t => t

/-- Add an entry to the directory at a place. -/
def insert (t : Node) (place : Place) (name : String) (x : Node) : Node :=
  t.modify (withEntry name x) place

/-- Take out what a tree holds at a place, with all below it.  The root stays. -/
def remove (t : Node) (place : Place) : Node :=
  match place.getLast? with
  | none => t
  | some name => t.modify (withoutEntry name) place.dropLast

/-- Take out all that is below a place. -/
def clear (t : Node) (place : Place) : Node :=
  t.modify (fun _ => dir []) place

mutual

/-- All places below a node with what they hold, given the place of the node. -/
def descendants (here : Place) : Node → List (Place × Node)
  | dir es => descendantsIn here es
  | _ => []

/-- All places at and below the entries of a directory. -/
def descendantsIn (here : Place) : List (String × Node) → List (Place × Node)
  | [] => []
  | (name, t) :: es =>
    (here ++ [name], t) :: descendants (here ++ [name]) t ++ descendantsIn here es

end

@[simp] theorem at?_nil (t : Node) : t.at? [] = some t := rfl

theorem at?_append (t : Node) (p q : Place) :
    t.at? (p ++ q) = (t.at? p).bind (·.at? q) := by
  induction p generalizing t with
  | nil => rfl
  | cons name p ih =>
    simp only [List.cons_append, at?]
    cases t.child? name with
    | none => rfl
    | some u => exact ih u

end Node

end Keysmith
