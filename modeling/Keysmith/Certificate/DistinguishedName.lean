import Keysmith.Text.Lines

/-! # Distinguished names

The subject of the server's certificate: six attributes in a fixed order.  In
writing, a backslash stands before each character that has a meaning in the
syntax; `read?` undoes it.  Main statement: `unescape_escape`. -/

namespace Keysmith

/-- The attributes of a certificate's subject. -/
structure DistinguishedName where
  commonName : String
  organizationalUnit : String
  organization : String
  locality : String
  state : String
  country : String
  deriving DecidableEq, Repr

namespace DistinguishedName

/-- The subject for a server: its host name is the common name, the rest is
    fixed. -/
def ofHost (host : String) : DistinguishedName where
  commonName := host
  organizationalUnit := "CSSE"
  organization := "University of Western Australia"
  locality := "Perth"
  state := "Western Australia"
  country := "AU"

/-- The characters that have a meaning in a distinguished name. -/
def isSpecial (c : Char) : Bool :=
  c == ',' || c == '+' || c == '=' || c == '"' || c == '\\' || c == '<' || c == '>' || c == ';'

/-- Put a backslash before every special character. -/
def escape : List Char → List Char
  | [] => []
  | c :: s => if isSpecial c then '\\' :: c :: escape s else c :: escape s

/-- Drop the backslash before a character. -/
def unescape : List Char → List Char
  | [] => []
  | [c] => [c]
  | c :: d :: s => if c = '\\' then d :: unescape s else c :: unescape (d :: s)

/-- The keys of the attributes, in the order in which they are written. -/
def keys : List (List Char) := [['C', 'N'], ['O', 'U'], ['O'], ['L'], ['S'], ['C']]

/-- The values of the attributes, in the order in which they are written. -/
def values (dn : DistinguishedName) : List String :=
  [dn.commonName, dn.organizationalUnit, dn.organization, dn.locality, dn.state, dn.country]

/-- One attribute: its key, an equals sign and its escaped value. -/
def writeAttribute (key : List Char) (value : String) : List Char :=
  key ++ '=' :: escape value.toList

/-- The written form of a distinguished name: its attributes with a comma and a
    space between them. -/
def chars (dn : DistinguishedName) : List Char :=
  [',', ' '].intercalate (List.zipWith writeAttribute keys dn.values)

/-- The written form of a distinguished name, as a string. -/
def text (dn : DistinguishedName) : String := String.ofList dn.chars

/-! ## Reading -/

/-- Put characters in front of the first piece. -/
def onFirst (front : List Char) : List (List Char) → List (List Char)
  | [] => [front]
  | p :: ps => (front ++ p) :: ps

/-- The pieces of a text between the separators that no backslash precedes. -/
def cutUnescaped (sep : Char) : List Char → List (List Char)
  | [] => [[]]
  | [c] => if c = sep then [[], []] else [[c]]
  | c :: d :: s =>
    if c = '\\' then onFirst [c, d] (cutUnescaped sep s)
    else if c = sep then [] :: cutUnescaped sep (d :: s)
    else onFirst [c] (cutUnescaped sep (d :: s))

/-- Read an attribute: what stands before its first unescaped equals sign is the
    key, what stands after it the escaped value. -/
def readAttribute? (s : List Char) : Option (List Char × String) :=
  match cutUnescaped '=' s with
  | key :: v :: vs => some (key, String.ofList (unescape (['='].intercalate (v :: vs))))
  | _ => none

/-- Drop the one space that follows a comma. -/
def dropSpace? : List Char → Option (List Char)
  | ' ' :: s => some s
  | _ => none

/-- Read a distinguished name: pieces between unescaped commas, a space before
    each but the first, the six keys in their order. -/
def read? (s : List Char) : Option DistinguishedName := do
  match cutUnescaped ',' s with
  | [] => none
  | first :: rest =>
    let others ← rest.mapM dropSpace?
    let attributes ← (first :: others).mapM readAttribute?
    if attributes.map Prod.fst = keys then
      match attributes.map Prod.snd with
      | [cn, ou, o, l, st, c] => some ⟨cn, ou, o, l, st, c⟩
      | _ => none
    else none

/-- Escaping loses nothing. -/
theorem unescape_escape (s : List Char) : unescape (escape s) = s := by
  induction s with
  | nil => rfl
  | cons c s ih =>
    rw [escape]
    split
    · simp [unescape, ih]
    · rename_i hc
      have hb : c ≠ '\\' := by rintro rfl; exact hc (by decide)
      cases hs : escape s with
      | nil => rw [hs] at ih; simp [unescape] at ih ⊢; exact ih
      | cons d t => rw [hs] at ih; simp [unescape, hb, ih]

end DistinguishedName

end Keysmith
