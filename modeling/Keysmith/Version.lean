import Keysmith.Text.Decimal

/-! # Runtime versions

A Java runtime's version as far as it matters here: major and minor release.
Versions are ordered by major release first. -/

namespace Keysmith

/-- A runtime's version. -/
structure Version where
  major : UInt32
  minor : UInt32
  deriving DecidableEq, Repr

namespace Version

/-- The largest release number that a version can carry. -/
def maxNumber : Nat := 4294967295

/-- The oldest major release whose key tool takes certificate extensions. -/
def sanMinMajor : UInt32 := 8

/-- Whether the runtime's key tool takes certificate extensions. -/
def supportsExtensions (v : Version) : Bool := sanMinMajor ≤ v.major

/-- The written form: major and minor release with a dot between them. -/
def chars (v : Version) : List Char :=
  Text.Decimal.digits v.major.toNat ++ '.' :: Text.Decimal.digits v.minor.toNat

/-- The written form, as a string. -/
def text (v : Version) : String := String.ofList v.chars

/-- The order of versions: by major release, then by minor release. -/
instance : Ord Version where
  compare v w := (compare v.major w.major).then (compare v.minor w.minor)

end Version

end Keysmith
