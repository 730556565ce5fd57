import Keysmith.Text.Decimal
import Keysmith.Text.Lines

/-! # IPv4 addresses

An address is four octets; its text is their decimal numerals with dots between
them.  Main statement: `read?_chars` (the text reads back). -/

namespace Keysmith

/-- An IPv4 address, most significant octet first. -/
structure Ipv4 where
  a : UInt8
  b : UInt8
  c : UInt8
  d : UInt8
  deriving DecidableEq, Repr

namespace Ipv4

open Text

/-- The octets of an address. -/
def octets (ip : Ipv4) : List UInt8 := [ip.a, ip.b, ip.c, ip.d]

/-- The dotted text of an address. -/
def chars (ip : Ipv4) : List Char :=
  Decimal.digits ip.a.toNat ++ '.' :: (Decimal.digits ip.b.toNat ++ '.' ::
    (Decimal.digits ip.c.toNat ++ '.' :: Decimal.digits ip.d.toNat))

/-- The dotted text of an address, as a string. -/
def text (ip : Ipv4) : String := String.ofList ip.chars

/-- Read one octet: decimal digits worth at most 255. -/
def octet? (ds : List Char) : Option UInt8 :=
  if ds.isEmpty || !ds.all Char.isDigit || 255 < Decimal.value ds then none
  else some (UInt8.ofNat (Decimal.value ds))

/-- Read a dotted text. -/
def read? (s : List Char) : Option Ipv4 :=
  match pieces (· == '.') s with
  | [a, b, c, d] => do return ⟨← octet? a, ← octet? b, ← octet? c, ← octet? d⟩
  | _ => none

theorem octet?_digits (n : UInt8) : octet? (Decimal.digits n.toNat) = some n := by
  have hlt := n.toNat_lt
  have he : (Decimal.digits n.toNat).isEmpty = false := by
    have hne := Decimal.digits_ne_nil n.toNat
    cases h : Decimal.digits n.toNat <;> simp_all
  have hd : (Decimal.digits n.toNat).all Char.isDigit = true :=
    List.all_eq_true.2 fun _ => Decimal.isDigit_of_mem_digits
  have hv : ¬ 255 < Decimal.value (Decimal.digits n.toNat) := by
    rw [Decimal.value_digits]; omega
  rw [octet?, he, hd]
  simp only [hv, Bool.not_true, Bool.or_false, decide_false, Bool.false_eq_true, if_false]
  rw [Decimal.value_digits, UInt8.ofNat_toNat]

private theorem digit_ne_dot (n : Nat) : ∀ c ∈ Decimal.digits n, (c == '.') = false := by
  intro c hc
  have hd := Decimal.isDigit_of_mem_digits hc
  rw [beq_eq_false_iff_ne]
  rintro rfl
  exact absurd hd (by decide)

/-- The text of an address reads back. -/
theorem read?_chars (ip : Ipv4) : read? ip.chars = some ip := by
  have hdot : ('.' == '.') = true := rfl
  rw [read?, chars, pieces_append (digit_ne_dot _) hdot, pieces_append (digit_ne_dot _) hdot,
    pieces_append (digit_ne_dot _) hdot, pieces_of_forall (digit_ne_dot _)]
  simp [octet?_digits]

end Ipv4

end Keysmith
