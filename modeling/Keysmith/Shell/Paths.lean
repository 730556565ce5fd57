import Keysmith.FileSystem.Resolve
import Keysmith.Shell.Pattern
import Keysmith.Text.Octets

/-! # Paths that a pattern matches

A pattern for paths is taken step by step: a step without special characters is taken as
it is, any other one stands for the names in its directory that it matches.  Hidden names
are matched only by a pattern that shows their dot. -/

namespace Keysmith.Shell.Paths

/-- Whether brackets that have been opened close in the same step.  The fuel is the length
    of the pattern. -/
def closes (fuel : Nat) (p : List Char) : Bool :=
  match fuel with
  | 0 => false
  | fuel + 1 =>
    let p := match p with
      | '\\' :: rest => rest
      | p => p
    match p with
    | [] => false
    | '/' :: _ => false
    | _ :: ']' :: _ => true
    | _ :: rest => closes fuel rest

/-- A pattern taken apart. -/
structure Parts where
  /-- The steps in front that stand for themselves, with their slashes. -/
  front : List Char
  /-- The first step that stands for names. -/
  step : List Char
  /-- What is behind it. -/
  rest : Option (List Char)

/-- Take a pattern apart; none if all of it stands for itself.  The text in front and the
    step that is being read are given last character first. -/
def parts (front step : List Char) (special : Bool) (p : List Char) : Option Parts :=
  match p with
  | [] => if special then some ⟨front.reverse, step.reverse, none⟩ else none
  | '\\' :: '/' :: rest =>
    if special then some ⟨front.reverse, step.reverse, some rest⟩
    else parts ('/' :: (step ++ front)) [] false rest
  | '\\' :: c :: rest => parts front (c :: '\\' :: step) special rest
  | '/' :: rest =>
    if special then some ⟨front.reverse, step.reverse, some rest⟩
    else parts ('/' :: (step ++ front)) [] false rest
  | c :: rest =>
    let listed := match rest with
      | '!' :: rest => rest
      | rest => rest
    let isSpecial := c == '*' || c == '?' || (c == '[' && closes rest.length listed)
    parts front (c :: step) (special || isSpecial) rest

/-- A pattern without the backslashes that protect characters. -/
def unprotected : List Char → List Char
  | '\\' :: c :: rest => c :: unprotected rest
  | c :: rest => c :: unprotected rest
  | [] => []

/-- The names in a directory that a step matches. -/
def names (d : Disk) (dir : String) (step : List Char) : List String :=
  match d.find .follow (if dir.isEmpty then "." else Text.Octets.toText dir) with
  | .error _ => []
  | .ok spot =>
    match d.entries? spot with
    | none => []
    | some es =>
      let all := if spot.removed = 0 then "." :: ".." :: es.map Prod.fst else []
      let shows := match step with
        | '\\' :: '.' :: _ => true
        | '.' :: _ => true
        | _ => false
      (all.map Text.Octets.ofText).filter fun n =>
        (shows || n.toList.head? != some '.') && Pattern.isMatch step n.toList

/-- The paths behind a path that a pattern matches.  The fuel is the length of the
    pattern. -/
def behind (d : Disk) (fuel : Nat) (front : String) (p : List Char) : List String :=
  match fuel with
  | 0 => []
  | fuel + 1 =>
    match parts [] [] false p with
    | none =>
      let path := front ++ String.ofList (unprotected p)
      if !front.isEmpty && (d.find .keep (Text.Octets.toText path)).isOk then [path] else []
    | some x =>
      let dir := front ++ String.ofList (unprotected x.front)
      (names d dir x.step).flatMap fun n =>
        match x.rest with
        | none => [dir ++ n]
        | some rest => behind d fuel (dir ++ n ++ "/") rest

/-- The paths that a pattern matches, in order. -/
def matching (d : Disk) (p : List Char) : List String :=
  (behind d (p.length + 1) "" p).mergeSort fun a b => a ≤ b

/-- The words that a field becomes: the paths that it matches, or itself. -/
def ofField (d : Disk) (gs : List Glyph) : List String :=
  let self := Glyph.text gs
  if !self.toList.any (['*', '?', '['].contains ·) then [self]
  else match matching d (Glyph.pattern false gs) with
    | [] => [self]
    | found => found

end Keysmith.Shell.Paths
