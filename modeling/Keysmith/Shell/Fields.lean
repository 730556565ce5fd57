import Keysmith.Shell.Pattern

/-! # Fields

How an expanded word falls into fields.  Only what has been substituted outside of quotes
falls apart, so an expanded word comes with the regions in which it can; arguments that
are put in place in quotes fall apart at their ends alone. -/

namespace Keysmith.Shell

/-- A region of an expanded word that can fall apart. -/
structure Region where
  first : Nat
  /-- The number of the glyph behind its last one. -/
  last : Nat
  /-- Whether it falls apart only at the ends of arguments. -/
  atGapsOnly : Bool

/-- A word as far as it is expanded. -/
structure Draft where
  glyphs : Array Glyph
  /-- The regions that can fall apart, last first. -/
  regions : List Region

namespace Draft

/-- Nothing. -/
def empty : Draft := ⟨#[], []⟩

/-- How many glyphs there are. -/
def size (d : Draft) : Nat := d.glyphs.size

/-- Add glyphs. -/
def add (d : Draft) (gs : List Glyph) : Draft :=
  { d with glyphs := gs.foldl Array.push d.glyphs }

/-- Let what has been added since there were so many glyphs fall apart. -/
def loosen (d : Draft) (first : Nat) (atGapsOnly : Bool) : Draft :=
  { d with regions := ⟨first, d.size, atGapsOnly⟩ :: d.regions }

/-- What has been added since there were so many glyphs. -/
def since (d : Draft) (first : Nat) : List Glyph := (d.glyphs.toList).drop first

/-- Take away what has been added since there were so many glyphs. -/
def shrink (d : Draft) (first : Nat) : Draft where
  glyphs := d.glyphs.take first
  regions := (d.regions.filter (·.first < first)).map fun r =>
    { r with last := min r.last first }

/-- All glyphs. -/
def all (d : Draft) : List Glyph := d.glyphs.toList

end Draft

namespace Fields

/-- How far a word has fallen apart. -/
structure Splitting where
  /-- Where the field begins that is not complete. -/
  start : Nat
  /-- The complete fields by their ends, last first. -/
  done : List (Nat × Nat)
  /-- Whether the last glyph was a blank that ended a field. -/
  behindBlank : Bool
  /-- Where the last field ends if nothing follows. -/
  cut : Option Nat
  /-- How many fields may follow, if that is limited. -/
  left : Option Nat

/-- Whether a glyph is one of some characters.  The end of an argument always is. -/
def isAmong (cs : List Char) : Glyph → Bool
  | .bare c => cs.contains c
  | .quoted c => cs.contains c
  | .mark => false
  | .gap => true

/-- The blanks among the separators. -/
def blanks : List Char := [' ', '\t', '\n']

/-- Go over a glyph. -/
def step (separators : List Char) (keepsBlanks : Bool) (x : Splitting) (at_ : Nat) (g : Glyph) :
    Splitting :=
  let separates := isAmong separators g
  let isBlank := separates && isAmong blanks g
  match x.left with
  | some 0 =>
    if isBlank then { x with cut := some (x.cut.getD at_) }
    else
      { x with
        cut := if separates && x.behindBlank then x.cut else none
        behindBlank := false }
  | left =>
    if x.behindBlank then
      let x := { x with start := if separates then at_ + 1 else at_ }
      if isBlank then x else { x with behindBlank := false }
    else if !separates then { x with behindBlank := false }
    else
      let behindBlank := if keepsBlanks then x.behindBlank else isBlank
      if at_ = x.start && behindBlank then { x with start := at_ + 1, behindBlank := false }
      else if left = some 1 then
        { x with left := some 0, cut := some at_, behindBlank := behindBlank }
      else
        { x with
          start := at_ + 1
          done := (x.start, at_) :: x.done
          behindBlank := behindBlank
          left := left.map (· - 1) }

/-- Go over a region. -/
def region (separators : List Char) (glyphs : Array Glyph) (behindGaps : Bool) (x : Splitting)
    (r : Region) : Splitting :=
  let separators := if r.atGapsOnly then [] else separators
  (List.range (r.last - r.first)).foldl (fun x n =>
    step separators (behindGaps || r.atGapsOnly) x (r.first + n)
      (glyphs.getD (r.first + n) .mark)) { x with behindBlank := false }

/-- Go over regions, and tell whether the last one falls apart only at the ends of
    arguments. -/
def regions (separators : List Char) (glyphs : Array Glyph) (x : Splitting × Bool)
    (rs : List Region) : Splitting × Bool :=
  rs.foldl (fun (x, behindGaps) r =>
    (region separators glyphs behindGaps x r, r.atGapsOnly)) x

/-- The glyphs of a field. -/
def slice (glyphs : Array Glyph) (ends : Nat × Nat) : List Glyph :=
  (glyphs.extract ends.1 ends.2).toList.takeWhile (· != .gap)

/-- The fields that a word falls into, and no more than so many if there is a limit. -/
def split (separators : List Char) (limit : Option Nat) (d : Draft) : List (List Glyph) :=
  let (x, atGaps) := regions separators d.glyphs (⟨0, [], false, none, limit⟩, false)
    d.regions.reverse
  let last := if atGaps then d.size else x.cut.getD d.size
  let rest := slice d.glyphs (x.start, last)
  let fields := x.done.reverse.map (slice d.glyphs)
  if atGaps || !rest.isEmpty then fields ++ [rest] else fields

end Fields

end Keysmith.Shell
