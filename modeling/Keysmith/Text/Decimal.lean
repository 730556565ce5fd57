/-! # Decimal numerals

Writing a natural number in decimal and reading one back.  Main statements:
`value_digits` (what is written reads back) and `leading_append` (a numeral ends
where the digits end). -/

namespace Keysmith.Text.Decimal

/-- The decimal digits of a number, most significant first, without leading
    zeros. -/
def digits (n : Nat) : List Char := Nat.toDigits 10 n

/-- The number a list of decimal digits stands for. -/
def value (ds : List Char) : Nat := Nat.ofDigitChars 10 ds 0

theorem value_digits (n : Nat) : value (digits n) = n :=
  Nat.ofDigitChars_toDigits (by omega) (by omega)

theorem isDigit_of_mem_digits {n : Nat} {c : Char} (h : c ∈ digits n) : c.isDigit = true :=
  Nat.isDigit_of_mem_toDigits (by omega) (by omega) h

theorem digits_ne_nil (n : Nat) : digits n ≠ [] := by
  intro h
  have h0 := value_digits n
  rw [h] at h0
  have hn : n = 0 := h0.symm
  subst hn
  exact absurd h (by decide)

/-- The number written at the beginning of a text, if there is a digit there and
    the number is at most `limit`. -/
def leading (limit : Nat) (s : List Char) : Option Nat :=
  let ds := s.takeWhile Char.isDigit
  if ds.isEmpty || limit < value ds then none else some (value ds)

/-- A numeral followed by something that is no digit is read up to there. -/
theorem leading_append {ds r : List Char} {limit : Nat} (hd : ∀ c ∈ ds, c.isDigit = true)
    (hne : ds ≠ []) (hr : ∀ c, r.head? = some c → c.isDigit = false) :
    leading limit (ds ++ r) = if limit < value ds then none else some (value ds) := by
  have ht : (ds ++ r).takeWhile Char.isDigit = ds := by
    rw [List.takeWhile_append_of_pos hd]
    cases r with
    | nil => simp
    | cons c r => simp [hr c rfl]
  have he : ds.isEmpty = false := by cases ds <;> simp_all
  simp only [leading, ht, he, Bool.false_or, decide_eq_true_eq]

end Keysmith.Text.Decimal
