/-! # Blank characters

Which characters count as blank, and cutting them off both ends of a text.

Blank means the Unicode property `White_Space`, so the no-break space and the
ideographic space are blank while the zero-width space and the byte order mark
are not.  `trimEnd_last` says that the cut goes as far as it can. -/

namespace Keysmith.Text

/-- The code points with the Unicode property `White_Space`, as closed ranges in
    ascending order. -/
def blankRanges : List (Nat × Nat) :=
  [(0x09, 0x0D), (0x20, 0x20), (0x85, 0x85), (0xA0, 0xA0), (0x1680, 0x1680),
   (0x2000, 0x200A), (0x2028, 0x2029), (0x202F, 0x202F), (0x205F, 0x205F),
   (0x3000, 0x3000)]

/-- Whether a character is blank. -/
def isBlank (c : Char) : Bool :=
  blankRanges.any fun r => r.1 ≤ c.toNat && c.toNat ≤ r.2

/-- Cut the blank characters off the end. -/
def trimEnd (s : List Char) : List Char :=
  (s.reverse.dropWhile isBlank).reverse

/-- Cut the blank characters off both ends. -/
def trim (s : List Char) : List Char :=
  trimEnd (s.dropWhile isBlank)

/-- The last character left by `trimEnd` is not blank. -/
theorem trimEnd_last {s : List Char} {c : Char} (h : (trimEnd s).getLast? = some c) :
    isBlank c = false := by
  have hd := List.head?_dropWhile_not isBlank s.reverse
  rw [trimEnd, List.getLast?_reverse] at h
  rw [h] at hd
  simpa using hd

end Keysmith.Text
