import Keysmith.Text.Utf8

/-! # Texts of bytes

Scripts work on bytes, not on characters.  An octet text is a string each of whose
characters stands for the byte of its number; `ofBytes` and `toBytes` go between it and
bytes, `ofText` and `toText` between it and ordinary text in UTF-8. -/

namespace Keysmith.Text.Octets

/-- The character that stands for a byte. -/
def ofByte (b : UInt8) : Char := Char.ofNat b.toNat

/-- The byte that a character stands for. -/
def toByte (c : Char) : UInt8 := UInt8.ofNat c.toNat

/-- The octet text of some bytes. -/
def ofBytes (bs : Bytes) : String := String.ofList (bs.map ofByte)

/-- The bytes of an octet text. -/
def toBytes (s : String) : Bytes := s.toList.map toByte

/-- Whether a text is made of ASCII characters, each of which is its own byte. -/
def isPlain (s : String) : Bool := s.toList.all fun c => c.toNat < 128

/-- The octet text of a text. -/
def ofText (s : String) : String :=
  if isPlain s then s else ofBytes (Utf8.encode s.toList)

/-- The text that an octet text is in UTF-8. -/
def toText (s : String) : String :=
  if isPlain s then s else String.ofList (Utf8.decode (toBytes s))

end Keysmith.Text.Octets
