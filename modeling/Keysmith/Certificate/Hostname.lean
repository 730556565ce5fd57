import Keysmith.Text.Lines

/-! # Plain DNS names

A plain DNS name is one or more labels with dots between them, at most 253
characters in all; a label is 1 to 63 letters, digits, hyphens and underscores of
ASCII.  `Label` and `Labels` are the grammar, `isLabel` and `isPlain` decide it
(`isLabel_iff`). -/

namespace Keysmith.Hostname

open Text

/-- Whether a character may stand in a label. -/
def isLabelChar (c : Char) : Bool :=
  c.isAlphanum || c == '-' || c == '_'

/-- The longest label. -/
def maxLabel : Nat := 63

/-- The longest name. -/
def maxName : Nat := 253

/-- A label: 1 to 63 label characters. -/
structure Label (l : List Char) : Prop where
  ne_nil : l ≠ []
  length_le : l.length ≤ maxLabel
  chars : ∀ c ∈ l, isLabelChar c = true

/-- One or more labels with dots between them. -/
inductive Labels : List Char → Prop
  | one {l : List Char} : Label l → Labels l
  | dot {l r : List Char} : Label l → Labels r → Labels (l ++ '.' :: r)

/-- Whether a text is a label. -/
def isLabel (l : List Char) : Bool :=
  !l.isEmpty && l.length ≤ maxLabel && l.all isLabelChar

/-- Whether a text is a plain DNS name. -/
def isPlain (s : String) : Bool :=
  s.toList.length ≤ maxName && (pieces (· == '.') s.toList).all isLabel

theorem isLabel_iff {l : List Char} : isLabel l = true ↔ Label l := by
  constructor
  · intro h
    simp only [isLabel, Bool.and_eq_true, decide_eq_true_eq, Bool.not_eq_true',
      List.isEmpty_eq_false_iff, List.all_eq_true] at h
    exact ⟨h.1.1, h.1.2, h.2⟩
  · intro h
    simp only [isLabel, Bool.and_eq_true, decide_eq_true_eq, Bool.not_eq_true',
      List.isEmpty_eq_false_iff, List.all_eq_true]
    exact ⟨⟨h.ne_nil, h.length_le⟩, h.chars⟩

/-- A label holds no dot. -/
theorem Label.ne_dot {l : List Char} (h : Label l) : ∀ c ∈ l, (c == '.') = false := by
  intro c hc
  have hl := h.chars c hc
  rw [beq_eq_false_iff_ne]
  rintro rfl
  exact absurd hl (by decide)

end Keysmith.Hostname
