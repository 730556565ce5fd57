import Keysmith.Version.Report

/-!
# What a quoted version says

The text between the first two double quotes of a line is read from the left: the number it
begins with, the text behind the first separator, the number that this begins with, and so on.

* `Text.Decimal.Numeral`, `Begins`  the digits and the number at the beginning of a text
* `Quotes`, `quoted?_eq_some_iff`  the quoted text of a line
* `NamesMajor`, `read_iff_namesMajor`  the quoted texts that are read, with the major release
  that each of them names
* `ofLine?_iff_namesMajor`  the same for a line
* `Scheme`, `read_scheme`  the texts of the two schemes in use
-/

namespace Keysmith

/-! ## Numerals -/

namespace Text.Decimal

/-- The text `ds` is a decimal numeral, and `rest` does not go on with it. -/
structure Numeral (ds rest : List Char) : Prop where
  ne_nil : ds ≠ []
  digits : ∀ c ∈ ds, c.isDigit = true
  ends : ∀ c, rest.head? = some c → c.isDigit = false

theorem Numeral.leading_eq {ds rest : List Char} (h : Numeral ds rest) (limit : Nat) :
    leading limit (ds ++ rest) = if limit < value ds then none else some (value ds) :=
  leading_append h.digits h.ne_nil h.ends

/-- What is written for a number is a numeral. -/
theorem numeral_digits (n : Nat) {rest : List Char}
    (h : ∀ c, rest.head? = some c → c.isDigit = false) : Numeral (digits n) rest :=
  ⟨digits_ne_nil n, fun _ => isDigit_of_mem_digits, h⟩

/-- A text begins with a number of at most `limit` if it begins with the numeral of one. -/
theorem leading_eq_some_iff {limit n : Nat} {s : List Char} :
    leading limit s = some n ↔
      n ≤ limit ∧ ∃ ds rest, s = ds ++ rest ∧ Numeral ds rest ∧ value ds = n := by
  constructor
  · intro h
    have hn : s.takeWhile Char.isDigit ≠ [] ∧ value (s.takeWhile Char.isDigit) ≤ limit ∧
        value (s.takeWhile Char.isDigit) = n := by
      simp only [leading] at h
      split at h
      · cases h
      · rename_i hif
        simp only [Bool.or_eq_true, List.isEmpty_iff, decide_eq_true_eq, not_or, Nat.not_lt] at hif
        exact ⟨hif.1, hif.2, Option.some.inj h⟩
    refine ⟨hn.2.2 ▸ hn.2.1, _, s.dropWhile Char.isDigit, List.takeWhile_append_dropWhile.symm,
      ⟨hn.1, List.all_eq_true.mp List.all_takeWhile, ?_⟩, hn.2.2⟩
    intro c hc
    have hhead := List.head?_dropWhile_not Char.isDigit s
    rw [hc] at hhead
    exact hhead
  · rintro ⟨hle, ds, rest, rfl, hnum, rfl⟩
    rw [hnum.leading_eq, if_neg (by omega)]

end Text.Decimal

namespace Version

open Text Text.Decimal

/-! ## The numbers of a quoted version -/

/-- A text begins with the number `n`, up to its first character that is no digit. -/
def Begins (s : List Char) (n : Nat) : Prop :=
  ∃ ds rest, s = ds ++ rest ∧ Numeral ds rest ∧ value ds = n

/-- The number that a text begins with, if it is not too large. -/
def number? (s : List Char) : Option UInt32 :=
  (leading maxNumber s).map UInt32.ofNat

/-- The text behind the first separator. -/
def next? (s : List Char) : Option (List Char) :=
  match (cutAt isSeparator s).2 with
  | [] => none
  | _ :: r => some r

/-- The number behind the first separator, or zero if there is none. -/
def minorIn (s : List Char) : UInt32 :=
  ((next? s).bind number?).getD 0

theorem toNat_le_maxNumber (n : UInt32) : n.toNat ≤ maxNumber :=
  Nat.le_of_lt_succ n.toNat_lt

theorem toNat_ofNat_of_le {n : Nat} (h : n ≤ maxNumber) : (UInt32.ofNat n).toNat = n :=
  UInt32.toNat_ofNat_of_lt' (Nat.lt_succ_of_le h)

theorem ofNat_ne_one {n : Nat} (hle : n ≤ maxNumber) (hne : n ≠ 1) : UInt32.ofNat n ≠ 1 := by
  intro h
  have hn : n = (1 : UInt32).toNat := by rw [← h, toNat_ofNat_of_le hle]
  exact hne hn

theorem number?_eq_some_iff {s : List Char} {n : UInt32} :
    number? s = some n ↔ Begins s n.toNat := by
  rw [number?, Option.map_eq_some_iff]
  constructor
  · rintro ⟨k, hk, rfl⟩
    obtain ⟨hle, hbegins⟩ := leading_eq_some_iff.mp hk
    rwa [toNat_ofNat_of_le hle]
  · intro h
    exact ⟨n.toNat, leading_eq_some_iff.mpr ⟨toNat_le_maxNumber n, h⟩, UInt32.ofNat_toNat⟩

theorem number?_numeral {ds rest : List Char} (h : Numeral ds rest) (hle : value ds ≤ maxNumber) :
    number? (ds ++ rest) = some (UInt32.ofNat (value ds)) := by
  rw [number?, h.leading_eq, if_neg (by omega)]
  rfl

theorem number?_numeral_of_lt {ds rest : List Char} (h : Numeral ds rest)
    (hlt : maxNumber < value ds) : number? (ds ++ rest) = none := by
  rw [number?, h.leading_eq, if_pos hlt]
  rfl

theorem isDigit_of_isSeparator {c : Char} (h : isSeparator c = true) : c.isDigit = false := by
  simp only [isSeparator, Bool.or_eq_true, beq_iff_eq] at h
  rcases h with ((rfl | rfl) | rfl) | rfl <;> rfl

/-- A number ends before a separator at the latest. -/
theorem number?_append {c : Char} (hc : isSeparator c = true) (l r : List Char) :
    number? (l ++ c :: r) = number? l := by
  have htake : (l ++ c :: r).takeWhile Char.isDigit = l.takeWhile Char.isDigit := by
    rw [List.takeWhile_append]
    split
    · rename_i hall
      rw [List.takeWhile_cons_of_neg (by simp [isDigit_of_isSeparator hc]), List.append_nil]
      exact ((List.takeWhile_prefix _).eq_of_length hall).symm
    · rfl
  simp only [number?, leading, htake]

theorem next?_of_forall {l : List Char} (hl : ∀ c ∈ l, isSeparator c = false) :
    next? l = none := by
  rw [next?, cutAt_of_forall hl]

theorem next?_append {l : List Char} (hl : ∀ c ∈ l, isSeparator c = false) {c : Char}
    (hc : isSeparator c = true) (r : List Char) : next? (l ++ c :: r) = some r := by
  rw [next?, cutAt_append_of_sep hl hc]

theorem next?_eq_some_iff {s r : List Char} :
    next? s = some r ↔
      ∃ l c, s = l ++ c :: r ∧ (∀ x ∈ l, isSeparator x = false) ∧ isSeparator c = true := by
  constructor
  · intro h
    rcases pieces_cases isSeparator s with ⟨hnone, -⟩ | ⟨l, c, r', rfl, hl, hc, -⟩
    · rw [next?_of_forall hnone] at h
      cases h
    · rw [next?_append hl hc] at h
      cases h
      exact ⟨l, c, rfl, hl, hc⟩
  · rintro ⟨l, c, rfl, hl, hc⟩
    exact next?_append hl hc r

/-- The numbers of a text are the one it begins with and those of the text behind the first
    separator. -/
theorem numbers_eq (s : List Char) :
    numbers s = number? s :: ((next? s).map numbers).getD [] := by
  have hmap : ∀ q, numbers q = (pieces isSeparator q).map number? := fun _ => rfl
  rcases pieces_cases isSeparator s with ⟨hnone, hs⟩ | ⟨l, c, r, rfl, hl, hc, hs⟩
  · rw [hmap, hs, next?_of_forall hnone]
    rfl
  · rw [hmap, hs, next?_append hl hc, number?_append hc, List.map_cons, ← hmap]
    rfl

/-- How the numbers of a quoted text make a version. -/
theorem ofNumbers?_numbers (s : List Char) :
    ofNumbers? (numbers s) = (number? s).bind fun first =>
      if first = 1 then
        (next? s).bind fun r => (number? r).map fun major => ⟨major, minorIn r⟩
      else some ⟨first, minorIn s⟩ := by
  -- The numbers behind the first separator, as far as they matter
  have hhead : ∀ q, (((next? q).map numbers).getD []).head?.join = (next? q).bind number? := by
    intro q
    cases hq : next? q with
    | none => rfl
    | some r =>
      simp only [Option.map_some, Option.getD_some, numbers_eq r, List.head?_cons,
        Option.join_some, Option.bind_some]
  rw [numbers_eq s]
  cases hfirst : number? s with
  | none => rfl
  | some first =>
    rw [ofNumbers?, Option.bind_some, hhead]
    split
    · cases hr : next? s with
      | none => rfl
      | some r =>
        have hsecond : (numbers r)[1]?.join = (next? r).bind number? := by
          rw [numbers_eq r, List.getElem?_cons_succ, ← List.head?_eq_getElem?, hhead]
        simp only [Option.map_some, Option.getD_some, Option.bind_some, hsecond, minorIn]
    · rfl

/-! ## Which texts are read -/

/-- A quoted text names the major release `n`: it begins with it, or it begins with a `1` and
    the text behind the first separator begins with it. -/
inductive NamesMajor (s : List Char) (n : Nat) : Prop
  | modern : Begins s n → n ≠ 1 → n ≤ maxNumber → NamesMajor s n
  | legacy {l r : List Char} {c : Char} : Begins s 1 → s = l ++ c :: r →
      (∀ x ∈ l, isSeparator x = false) → isSeparator c = true → Begins r n → n ≤ maxNumber →
      NamesMajor s n

/-- A quoted text is read just if it names a major release, and then as that one. -/
theorem read_iff_namesMajor {s : List Char} {n : Nat} :
    (∃ v, ofNumbers? (numbers s) = some v ∧ v.major.toNat = n) ↔ NamesMajor s n := by
  rw [ofNumbers?_numbers]
  constructor
  · rintro ⟨v, hv, rfl⟩
    obtain ⟨first, hfirst, hv⟩ := Option.bind_eq_some_iff.mp hv
    split at hv
    · rename_i hone
      subst hone
      obtain ⟨r, hr, hv⟩ := Option.bind_eq_some_iff.mp hv
      obtain ⟨major, hmajor, rfl⟩ := Option.map_eq_some_iff.mp hv
      obtain ⟨l, c, hs, hl, hc⟩ := next?_eq_some_iff.mp hr
      exact .legacy (number?_eq_some_iff.mp hfirst) hs hl hc (number?_eq_some_iff.mp hmajor)
        (toNat_le_maxNumber major)
    · rename_i hne
      cases hv
      refine .modern (number?_eq_some_iff.mp hfirst) ?_ (toNat_le_maxNumber first)
      intro h
      exact hne (UInt32.toNat_inj.mp h)
  · intro h
    cases h with
    | modern hs hne hle =>
      have hn := toNat_ofNat_of_le hle
      have hfirst : number? s = some (UInt32.ofNat n) := by
        rwa [number?_eq_some_iff, hn]
      exact ⟨_, by rw [hfirst, Option.bind_some, if_neg (ofNat_ne_one hle hne)], hn⟩
    | @legacy l r c hs hcut hl hc hr hle =>
      have hn := toNat_ofNat_of_le hle
      have hfirst : number? s = some 1 := number?_eq_some_iff.mpr hs
      have hnext : next? s = some r := next?_eq_some_iff.mpr ⟨l, c, hcut, hl, hc⟩
      have hmajor : number? r = some (UInt32.ofNat n) := by
        rwa [number?_eq_some_iff, hn]
      exact ⟨_, by rw [hfirst, Option.bind_some, if_pos rfl, hnext, Option.bind_some, hmajor,
        Option.map_some], hn⟩

/-! ## The two schemes -/

/-- A version text in one of the two schemes in use, with the numeral of its major release and
    what follows it.  In the current scheme the numeral comes first, and it is not that of
    `1`; in the older one it comes behind `1.`. -/
inductive Scheme (ds rest : List Char) : List Char → Prop
  | current : value ds ≠ 1 → Scheme ds rest (ds ++ rest)
  | older : Scheme ds rest ('1' :: '.' :: (ds ++ rest))

/-- A separator at the beginning is the first one. -/
theorem minorIn_cons {c : Char} (hc : isSeparator c = true) (r : List Char) :
    minorIn (c :: r) = (number? r).getD 0 := by
  rw [minorIn, ← List.nil_append (c :: r), next?_append (by simp) hc, Option.bind_some]

/-- A numeral holds no separator, so the first one is in what follows it. -/
theorem minorIn_numeral {ds rest : List Char} (h : Numeral ds rest) :
    minorIn (ds ++ rest) = minorIn rest := by
  have hds : ∀ c ∈ ds, isSeparator c = false := by
    intro c hc
    rw [← Bool.not_eq_true]
    intro hsep
    exact absurd (h.digits c hc) (by simp [isDigit_of_isSeparator hsep])
  rcases pieces_cases isSeparator rest with ⟨hnone, -⟩ | ⟨l, c, r, rfl, hl, hc, -⟩
  · have hall : ∀ c ∈ ds ++ rest, isSeparator c = false := by
      intro c hc
      exact (List.mem_append.mp hc).elim (hds c) (hnone c)
    rw [minorIn, minorIn, next?_of_forall hall, next?_of_forall hnone]
  · have hall : ∀ c ∈ ds ++ l, isSeparator c = false := by
      intro c hc
      exact (List.mem_append.mp hc).elim (hds c) (hl c)
    rw [minorIn, minorIn, next?_append hl hc, ← List.append_assoc, next?_append hall hc]

theorem numeral_one {rest : List Char} (h : ∀ c, rest.head? = some c → c.isDigit = false) :
    Numeral ['1'] rest :=
  ⟨by simp, by simp, h⟩

/-- The text behind the `1.` of the older scheme. -/
theorem number?_older (r : List Char) :
    number? ('1' :: '.' :: r) = some 1 ∧ next? ('1' :: '.' :: r) = some r := by
  constructor
  · exact number?_numeral (numeral_one (by simp)) (by decide)
  · exact next?_append (l := ['1']) (by simp [isSeparator]) rfl r

/-- A text of one of the schemes is read, unless its major release is too large a number. -/
theorem read_scheme {ds rest text : List Char} (hs : Scheme ds rest text)
    (hnum : Numeral ds rest) :
    ofNumbers? (numbers text) =
      if value ds ≤ maxNumber then some ⟨UInt32.ofNat (value ds), minorIn rest⟩ else none := by
  rw [ofNumbers?_numbers]
  split
  · rename_i hle
    have hmajor := number?_numeral hnum hle
    cases hs with
    | current hne =>
      rw [hmajor, Option.bind_some, if_neg (ofNat_ne_one hle hne), minorIn_numeral hnum]
    | older =>
      obtain ⟨hfirst, hnext⟩ := number?_older (ds ++ rest)
      rw [hfirst, Option.bind_some, if_pos rfl, hnext, Option.bind_some, hmajor,
        Option.map_some, minorIn_numeral hnum]
  · rename_i hlt
    have hmajor := number?_numeral_of_lt hnum (Nat.lt_of_not_le hlt)
    cases hs with
    | current hne => rw [hmajor, Option.bind_none]
    | older =>
      obtain ⟨hfirst, hnext⟩ := number?_older (ds ++ rest)
      rw [hfirst, Option.bind_some, if_pos rfl, hnext, Option.bind_some, hmajor, Option.map_none]

/-! ## The quoted text of a line -/

/-- The text `q` stands on a line between the first double quote and the second one, or behind
    the only one. -/
inductive Quotes : List Char → List Char → Prop
  | closed {l q r : List Char} : '"' ∉ l → '"' ∉ q → Quotes (l ++ '"' :: (q ++ '"' :: r)) q
  | unclosed {l q : List Char} : '"' ∉ l → '"' ∉ q → Quotes (l ++ '"' :: q) q

theorem forall_ne_quote_iff {s : List Char} : (∀ c ∈ s, (c == '"') = false) ↔ '"' ∉ s := by
  constructor
  · intro h hmem
    exact absurd (h _ hmem) (by decide)
  · intro h c hc
    rw [beq_eq_false_iff_ne]
    rintro rfl
    exact h hc

theorem quoted?_eq_some_iff {line q : List Char} : quoted? line = some q ↔ Quotes line q := by
  have hquote : ('"' == '"') = true := rfl
  constructor
  · intro h
    rw [quoted?] at h
    rcases pieces_cases (· == '"') line with ⟨-, hp⟩ | ⟨l, c, r, rfl, hl, hc, hp⟩
    · rw [hp] at h
      cases h
    · cases beq_iff_eq.mp hc
      rw [hp, List.getElem?_cons_succ] at h
      rcases pieces_cases (· == '"') r with ⟨hq, hp'⟩ | ⟨q', c', r', rfl, hq, hc', hp'⟩
      · rw [hp'] at h
        cases h
        exact .unclosed (forall_ne_quote_iff.mp hl) (forall_ne_quote_iff.mp hq)
      · cases beq_iff_eq.mp hc'
        rw [hp'] at h
        cases h
        exact .closed (forall_ne_quote_iff.mp hl) (forall_ne_quote_iff.mp hq)
  · intro h
    rw [quoted?]
    cases h with
    | closed hl hq =>
      rw [pieces_append (forall_ne_quote_iff.mpr hl) hquote,
        pieces_append (forall_ne_quote_iff.mpr hq) hquote]
      rfl
    | unclosed hl hq =>
      rw [pieces_append (forall_ne_quote_iff.mpr hl) hquote,
        pieces_of_forall (forall_ne_quote_iff.mpr hq)]
      rfl

/-- A line is read just if its quoted text names a major release, and then as that one. -/
theorem ofLine?_iff_namesMajor {line : List Char} {n : Nat} :
    (∃ v, ofLine? line = some v ∧ v.major.toNat = n) ↔ ∃ q, Quotes line q ∧ NamesMajor q n := by
  constructor
  · rintro ⟨v, hv, hn⟩
    obtain ⟨q, hq, hread⟩ := Option.bind_eq_some_iff.mp hv
    exact ⟨q, quoted?_eq_some_iff.mp hq, read_iff_namesMajor.mp ⟨v, hread, hn⟩⟩
  · rintro ⟨q, hq, hnames⟩
    obtain ⟨v, hread, hn⟩ := read_iff_namesMajor.mpr hnames
    exact ⟨v, Option.bind_eq_some_iff.mpr ⟨q, quoted?_eq_some_iff.mpr hq, hread⟩, hn⟩

end Version

end Keysmith
