import Keysmith.Text.Utf8
import Mathlib.Data.List.Infix
import Mathlib.Data.List.Basic

/-!
# Reading any bytes as text

Bytes that are no text are read all the same.  Where a character stands, it is read.  Where none
does, the longest run of bytes that begins one is dropped, or a single byte if that begins none,
and the replacement character stands for them.

* `IsLossy`        a text that bytes are read as
* `lead?_of_encode`, `encode_of_takes`  the bytes of a character are a leading byte and what this
  one takes
* `next_cases`     what one step of the reader takes away
* `isLossy_iff`    every sequence of bytes is read as one text, the one that `decode` gives
-/

namespace Keysmith.Text.Utf8

/-- Bytes that a character begins with. -/
def Begins (bs : Bytes) : Prop := ∃ c, bs <+: String.utf8EncodeChar c

/-- Bytes in front of others that cannot be read as a character: no character stands there, and
    they go as far as one begins, or are a single byte. -/
structure IsFaulty (bad rest : Bytes) : Prop where
  ne_nil : bad ≠ []
  no_char : ∀ c, ¬ String.utf8EncodeChar c <+: bad ++ rest
  begins : Begins bad ∨ bad.length = 1
  longest : ∀ b ∈ rest.head?, ¬ Begins (bad ++ [b])

/-- A text that bytes are read as, with the replacement character for each fault. -/
inductive IsLossy : Bytes → List Char → Prop
  | nil : IsLossy [] []
  | char {c : Char} {rest : Bytes} {s : List Char} :
      IsLossy rest s → IsLossy (String.utf8EncodeChar c ++ rest) (c :: s)
  | fault {bad rest : Bytes} {s : List Char} :
      IsFaulty bad rest → IsLossy rest s → IsLossy (bad ++ rest) (replacement :: s)

theorem Begins.of_prefix {as bs : Bytes} (h : Begins bs) (hle : as <+: bs) : Begins as := by
  obtain ⟨c, hc⟩ := h
  exact ⟨c, hle.trans hc⟩

/-- Of two ways to cut bytes in two, the one that cuts later has the next byte in front. -/
theorem concat_prefix_of_lt {as rest bs rest' : Bytes} (heq : as ++ rest = bs ++ rest')
    (hlt : as.length < bs.length) : ∃ b ∈ rest.head?, as ++ [b] <+: bs := by
  obtain ⟨more, rfl⟩ : as <+: bs :=
    List.prefix_of_prefix_length_le ⟨rest, heq⟩ (List.prefix_append bs rest') hlt.le
  rw [List.append_assoc, List.append_cancel_left_eq] at heq
  cases more with
  | nil => simp at hlt
  | cons b more =>
    subst heq
    exact ⟨b, rfl, more, by rw [List.append_assoc, List.singleton_append]⟩

/-- Bytes that hold no whole character and cannot be gone on with stand where there is no
    character. -/
theorem no_char_of_longest {bad rest : Bytes} (hbad : ∀ c, ¬ String.utf8EncodeChar c <+: bad)
    (hlongest : ∀ b ∈ rest.head?, ¬ Begins (bad ++ [b])) (c : Char) :
    ¬ String.utf8EncodeChar c <+: bad ++ rest := by
  rintro ⟨after, hafter⟩
  by_cases hle : (String.utf8EncodeChar c).length ≤ bad.length
  · exact hbad c
      (List.prefix_of_prefix_length_le ⟨after, hafter⟩ (List.prefix_append bad rest) hle)
  · obtain ⟨b, hb, hbegins⟩ := concat_prefix_of_lt hafter.symm (Nat.not_le.mp hle)
    exact hlongest b hb ⟨c, hbegins⟩

theorem IsFaulty.length_le {bad rest bad' rest' : Bytes} (h : IsFaulty bad rest)
    (h' : IsFaulty bad' rest') (heq : bad ++ rest = bad' ++ rest') : bad'.length ≤ bad.length := by
  by_contra hlt
  rw [Nat.not_le] at hlt
  obtain ⟨b, hb, hle⟩ := concat_prefix_of_lt heq hlt
  have hpos := List.length_pos_iff.mpr h.ne_nil
  rcases h'.begins with hbegins | hone
  · exact h.longest b hb (hbegins.of_prefix hle)
  · omega

/-- Only one run of bytes is dropped. -/
theorem IsFaulty.unique {bad rest bad' rest' : Bytes} (h : IsFaulty bad rest)
    (h' : IsFaulty bad' rest') (heq : bad ++ rest = bad' ++ rest') : bad = bad' ∧ rest = rest' :=
  List.append_inj heq (Nat.le_antisymm (h'.length_le h heq.symm) (h.length_le h' heq))

/-- Only one character stands in front of bytes. -/
theorem encodeChar_append_inj {c c' : Char} {rest rest' : Bytes}
    (h : String.utf8EncodeChar c ++ rest = String.utf8EncodeChar c' ++ rest') :
    c = c' ∧ rest = rest' := by
  have hread (c : Char) (rest : Bytes) :
      (String.utf8EncodeChar c ++ rest).toByteArray.utf8DecodeChar? 0 = some c := by
    rw [List.toByteArray_append]
    exact ByteArray.utf8DecodeChar?_utf8EncodeChar_append
  have hc := hread c' rest'
  rw [← h, hread, Option.some.injEq] at hc
  subst hc
  exact ⟨rfl, List.append_cancel_left h⟩

/-! ## The bytes of a character -/

theorem val_ofNat {v : Nat} (hv : v < 0xD800 ∨ 0xDFFF < v ∧ v < 0x110000) :
    (Char.ofNat v).val.toNat = v := by
  rw [Char.ofNat, dif_pos hv]
  rfl

theorem isContinuation_iff {b : UInt8} :
    isContinuation b = true ↔ 0x80 ≤ b.toNat ∧ b.toNat ≤ 0xBF := by
  simp [isContinuation, UInt8.le_iff_toNat_le]

/-- Bytes that may follow a leading byte within one character. -/
def Lead.Takes (l : Lead) : Bytes → Prop
  | [] => True
  | b :: bs => (l.low ≤ b ∧ b ≤ l.high) ∧ bs.length ≤ l.more ∧ ∀ x ∈ bs, isContinuation x = true

/-- The bits of bytes that continue a character, behind the bits that came before. -/
def bitsOf (bits : Nat) (bs : Bytes) : Nat :=
  bs.foldl (fun v b => v * 64 + (b.toNat - 0x80)) bits

theorem Lead.takes_cons {l : Lead} {b : UInt8} {bs : Bytes} : l.Takes (b :: bs) ↔
    (l.low ≤ b ∧ b ≤ l.high) ∧ bs.length ≤ l.more ∧ ∀ x ∈ bs, isContinuation x = true :=
  Iff.rfl

theorem bitsOf_cons (bits : Nat) (b : UInt8) (bs : Bytes) :
    bitsOf bits (b :: bs) = bitsOf (bits * 64 + (b.toNat - 0x80)) bs := by
  rw [bitsOf, List.foldl_cons, bitsOf]

/-- What a leading byte asks for, in numbers: it gives the size of the character and its first
    bits, and a few leading bytes narrow the range of the second byte. -/
theorem lead?_eq_some {b : UInt8} {l : Lead} (h : lead? b = some l) :
    (0xC2 ≤ b.toNat ∧ b.toNat < 0xE0 ∧ l.more = 0 ∧ l.bits = b.toNat - 0xC0 ∨
      0xE0 ≤ b.toNat ∧ b.toNat < 0xF0 ∧ l.more = 1 ∧ l.bits = b.toNat - 0xE0 ∨
      0xF0 ≤ b.toNat ∧ b.toNat ≤ 0xF4 ∧ l.more = 2 ∧ l.bits = b.toNat - 0xF0) ∧
    (b.toNat = 0xE0 ∧ l.low.toNat = 0xA0 ∨ b.toNat = 0xF0 ∧ l.low.toNat = 0x90 ∨
      b.toNat ≠ 0xE0 ∧ b.toNat ≠ 0xF0 ∧ l.low.toNat = 0x80) ∧
    (b.toNat = 0xED ∧ l.high.toNat = 0x9F ∨ b.toNat = 0xF4 ∧ l.high.toNat = 0x8F ∨
      b.toNat ≠ 0xED ∧ b.toNat ≠ 0xF4 ∧ l.high.toNat = 0xBF) := by
  simp only [lead?, Bool.and_eq_true, decide_eq_true_eq, beq_iff_eq, UInt8.le_iff_toNat_le,
    ← UInt8.toNat_inj, UInt8.reduceToNat] at h
  split_ifs at h
  all_goals
    obtain rfl := Option.some.inj h
    dsimp only [UInt8.reduceToNat]
    omega

theorem exists_lead {b : UInt8} (hlow : 0xC2 ≤ b.toNat) (hhigh : b.toNat ≤ 0xF4) :
    ∃ l, lead? b = some l := by
  simp only [lead?, Bool.and_eq_true, decide_eq_true_eq, beq_iff_eq, UInt8.le_iff_toNat_le,
    ← UInt8.toNat_inj, UInt8.reduceToNat]
  split_ifs
  all_goals first
    | exact ⟨_, rfl⟩
    | omega

/-- The bytes of a character are one byte below `0x80`, or a leading byte and all that it
    takes. -/
theorem lead?_of_encode {c : Char} {b : UInt8} {bs : Bytes}
    (h : String.utf8EncodeChar c = b :: bs) :
    b.toNat < 0x80 ∧ bs = [] ∨ ∃ l, lead? b = some l ∧ l.Takes bs ∧ bs.length = l.more + 1 := by
  have hvalid : c.val.toNat < 0xD800 ∨ 0xDFFF < c.val.toNat ∧ c.val.toNat < 0x110000 := c.valid
  generalize hv : c.val.toNat = v at hvalid
  simp only [String.utf8EncodeChar, hv] at h
  -- The four sizes of a character; in each the leading byte fixes the ranges of the others
  split_ifs at h
  · obtain ⟨rfl, rfl⟩ := List.cons.inj h
    rw [UInt8.toNat_ofNat']
    exact .inl ⟨by omega, rfl⟩
  all_goals
    obtain ⟨hb, rfl⟩ := List.cons.inj h
    rw [← UInt8.toNat_inj, UInt8.toNat_ofNat'] at hb
    obtain ⟨l, hl⟩ := exists_lead (b := b) (by omega) (by omega)
    obtain ⟨hsize, hlow, hhigh⟩ := lead?_eq_some hl
    refine .inr ⟨l, hl, ?_, by simp only [List.length_cons, List.length_nil]; omega⟩
    simp only [Lead.Takes, UInt8.le_iff_toNat_le, UInt8.toNat_ofNat', List.length_cons,
      List.length_nil, List.mem_cons, List.not_mem_nil, or_false, forall_eq_or_imp, forall_eq,
      isContinuation_iff, false_imp_iff, implies_true, and_true]
    omega

/-- A leading byte and all that it takes are the bytes of a character. -/
theorem encode_of_takes {b : UInt8} {l : Lead} {bs : Bytes} (h : lead? b = some l)
    (hbs : l.Takes bs) (hlen : bs.length = l.more + 1) :
    String.utf8EncodeChar (Char.ofNat (bitsOf l.bits bs)) = b :: bs := by
  -- In each size the value of the bits is in the range that is written in as many bytes
  obtain ⟨hsize, hlow, hhigh⟩ := lead?_eq_some h
  rcases bs with _ | ⟨c, bs⟩
  · simp at hlen
  obtain ⟨hc, -, hbs⟩ := hbs
  rw [UInt8.le_iff_toNat_le, UInt8.le_iff_toNat_le] at hc
  simp only [isContinuation_iff] at hbs
  rw [List.length_cons, Nat.add_right_cancel_iff] at hlen
  rcases hsize with ⟨hb, hb', hmore, hbits⟩ | ⟨hb, hb', hmore, hbits⟩ | ⟨hb, hb', hmore, hbits⟩
  · -- Two bytes
    obtain rfl := List.length_eq_zero_iff.mp (hlen.trans hmore)
    generalize hv : bitsOf l.bits [c] = v
    simp only [bitsOf, List.foldl] at hv
    simp only [String.utf8EncodeChar, val_ofNat (v := v) (by omega)]
    rw [if_neg (by omega), if_pos (by omega)]
    simp only [List.cons.injEq, ← UInt8.toNat_inj, UInt8.toNat_ofNat', and_true]
    omega
  · -- Three bytes
    obtain ⟨d, rfl⟩ := List.length_eq_one_iff.mp (hlen.trans hmore)
    simp only [List.mem_singleton, forall_eq] at hbs
    generalize hv : bitsOf l.bits [c, d] = v
    simp only [bitsOf, List.foldl] at hv
    simp only [String.utf8EncodeChar, val_ofNat (v := v) (by omega)]
    rw [if_neg (by omega), if_neg (by omega), if_pos (by omega)]
    simp only [List.cons.injEq, ← UInt8.toNat_inj, UInt8.toNat_ofNat', and_true]
    omega
  · -- Four bytes
    obtain ⟨d, e, rfl⟩ := List.length_eq_two.mp (hlen.trans hmore)
    simp only [List.mem_cons, List.not_mem_nil, or_false, forall_eq_or_imp, forall_eq] at hbs
    generalize hv : bitsOf l.bits [c, d, e] = v
    simp only [bitsOf, List.foldl] at hv
    simp only [String.utf8EncodeChar, val_ofNat (v := v) (by omega)]
    rw [if_neg (by omega), if_neg (by omega), if_neg (by omega)]
    simp only [List.cons.injEq, ← UInt8.toNat_inj, UInt8.toNat_ofNat', and_true]
    omega

theorem Lead.Takes.of_prefix {l : Lead} {as bs : Bytes} (h : l.Takes bs) (hle : as <+: bs) :
    l.Takes as := by
  obtain ⟨more, rfl⟩ := hle
  cases as with
  | nil => trivial
  | cons a as =>
    rw [List.cons_append, takes_cons, List.length_append] at h
    obtain ⟨ha, hlen, hall⟩ := h
    exact ⟨ha, by omega, fun x hx => hall x (List.mem_append_left _ hx)⟩

/-- What may follow a leading byte can be gone on with to the end of a character. -/
theorem Lead.Takes.extend {b : UInt8} {l : Lead} {bs : Bytes} (hl : lead? b = some l)
    (h : l.Takes bs) : ∃ more, l.Takes (bs ++ more) ∧ (bs ++ more).length = l.more + 1 := by
  have hfill (n : Nat) : ∀ x ∈ List.replicate n (0x80 : UInt8), isContinuation x = true := by
    intro x hx
    rw [List.eq_of_mem_replicate hx]
    decide
  cases bs with
  | nil =>
    obtain ⟨-, hlow, hhigh⟩ := lead?_eq_some hl
    refine ⟨l.low :: List.replicate l.more 0x80, ⟨⟨UInt8.le_refl _, ?_⟩, ?_, hfill _⟩, ?_⟩
    · rw [UInt8.le_iff_toNat_le]
      omega
    · rw [List.length_replicate]
    · simp
  | cons c bs =>
    obtain ⟨hc, hlen, hall⟩ := h
    refine ⟨List.replicate (l.more - bs.length) 0x80, ?_⟩
    rw [List.cons_append, takes_cons]
    refine ⟨⟨hc, ?_, ?_⟩, ?_⟩
    · rw [List.length_append, List.length_replicate]
      omega
    · intro x hx
      rcases List.mem_append.mp hx with hx | hx
      · exact hall x hx
      · exact hfill _ x hx
    · rw [List.length_cons, List.length_append, List.length_replicate]
      omega

/-- A character begins with a leading byte and what this one may take. -/
theorem begins_cons_iff {b : UInt8} {l : Lead} {bs : Bytes} (hl : lead? b = some l) :
    Begins (b :: bs) ↔ l.Takes bs := by
  constructor
  · rintro ⟨c, more, hc⟩
    rcases lead?_of_encode hc.symm with ⟨hb, -⟩ | ⟨l', hl', htakes, -⟩
    · have := (lead?_eq_some hl).1
      omega
    · obtain rfl := Option.some.inj (hl.symm.trans hl')
      exact htakes.of_prefix (List.prefix_append bs more)
  · intro htakes
    obtain ⟨more, hmore, hlen⟩ := htakes.extend hl
    exact ⟨_, more, (encode_of_takes hl hmore hlen).symm⟩

/-! ## One step of the reader -/

/-- Continuation bytes are read up to the number asked for, or up to the first byte that is
    none. -/
theorem continued_cases (bits n : Nat) (bs : Bytes) :
    ∃ t rest, t ++ rest = bs ∧ (∀ x ∈ t, isContinuation x = true) ∧
      (t.length = n ∧ continued bits n bs = (Char.ofNat (bitsOf bits t), rest) ∨
        t.length < n ∧ continued bits n bs = (replacement, rest) ∧
          ∀ x ∈ rest.head?, isContinuation x = false) := by
  induction bs generalizing bits n with
  | nil =>
    cases n with
    | zero => exact ⟨[], [], rfl, nofun, .inl ⟨rfl, rfl⟩⟩
    | succ n => exact ⟨[], [], rfl, nofun, .inr ⟨Nat.succ_pos n, rfl, nofun⟩⟩
  | cons b bs ih =>
    cases n with
    | zero => exact ⟨[], b :: bs, rfl, nofun, .inl ⟨rfl, rfl⟩⟩
    | succ n =>
      rw [continued]
      split
      · rename_i hb
        obtain ⟨t, rest, rfl, ht, hread⟩ := ih (bits * 64 + (b.toNat - 0x80)) n
        refine ⟨b :: t, rest, rfl, List.forall_mem_cons.mpr ⟨hb, ht⟩, ?_⟩
        rw [bitsOf_cons, List.length_cons]
        rcases hread with ⟨hlen, heq⟩ | ⟨hlen, heq, hnext⟩
        · exact .inl ⟨congrArg (· + 1) hlen, heq⟩
        · exact .inr ⟨Nat.succ_lt_succ hlen, heq, hnext⟩
      · -- A byte that does not continue is left to be read again
        rename_i hb
        refine ⟨[], b :: bs, rfl, nofun, .inr ⟨Nat.succ_pos n, rfl, fun x hx => ?_⟩⟩
        obtain rfl := Option.some.inj hx
        exact Bool.eq_false_iff.mpr hb

/-- Behind a leading byte all is read that it takes, or as much of it as is there. -/
theorem started_cases (l : Lead) (bs : Bytes) :
    ∃ t rest, t ++ rest = bs ∧ l.Takes t ∧
      (t.length = l.more + 1 ∧ started l bs = (Char.ofNat (bitsOf l.bits t), rest) ∨
        t.length ≤ l.more ∧ started l bs = (replacement, rest) ∧
          ∀ x ∈ rest.head?, ¬ l.Takes (t ++ [x])) := by
  cases bs with
  | nil => exact ⟨[], [], rfl, trivial, .inr ⟨Nat.zero_le _, rfl, nofun⟩⟩
  | cons c bs =>
    rw [started]
    split
    · rename_i hc
      rw [Bool.and_eq_true, decide_eq_true_eq, decide_eq_true_eq] at hc
      obtain ⟨t, rest, rfl, ht, hread⟩ := continued_cases (l.bits * 64 + (c.toNat - 0x80)) l.more bs
      refine ⟨c :: t, rest, rfl, ?_⟩
      rw [bitsOf_cons, List.length_cons]
      rcases hread with ⟨hlen, heq⟩ | ⟨hlen, heq, hnext⟩
      · exact ⟨⟨hc, hlen.le, ht⟩, .inl ⟨congrArg (· + 1) hlen, heq⟩⟩
      · refine ⟨⟨hc, hlen.le, ht⟩, .inr ⟨hlen, heq, fun x hx htakes => ?_⟩⟩
        have hx' := htakes.2.2 x (List.mem_append_right t (List.mem_singleton_self x))
        rw [hnext x hx] at hx'
        cases hx'
    · rename_i hc
      rw [Bool.and_eq_true, decide_eq_true_eq, decide_eq_true_eq] at hc
      refine ⟨[], c :: bs, rfl, trivial, .inr ⟨Nat.zero_le _, rfl, fun x hx htakes => ?_⟩⟩
      obtain rfl := Option.some.inj hx
      exact hc htakes.1

/-- One step of the reader takes a character away, or a fault. -/
theorem next_cases (b : UInt8) (bs : Bytes) :
    ∃ read rest, read ++ rest = b :: bs ∧
      ((∃ c, read = String.utf8EncodeChar c ∧ next b bs = (c, rest)) ∨
        IsFaulty read rest ∧ next b bs = (replacement, rest)) := by
  rw [next]
  split
  · -- A character of one byte
    rename_i hb
    rw [UInt8.lt_iff_toNat_lt] at hb
    refine ⟨[b], bs, rfl, .inl ⟨_, ?_, rfl⟩⟩
    simp only [String.utf8EncodeChar, val_ofNat (.inl (Nat.lt_trans hb (by decide)))]
    rw [if_pos (Nat.le_of_lt_succ hb), UInt8.ofNat_toNat]
  · rename_i hb
    rw [UInt8.lt_iff_toNat_lt] at hb
    cases hl : lead? b with
    | none =>
      -- A byte that begins no character
      have hnone : ∀ c x, String.utf8EncodeChar c ≠ b :: x := by
        intro c x hc
        rcases lead?_of_encode hc with ⟨hlt, -⟩ | ⟨l, hl', -⟩
        · exact hb hlt
        · cases hl.symm.trans hl'
      have hlongest : ∀ x ∈ bs.head?, ¬ Begins ([b] ++ [x]) := by
        rintro x - ⟨c, more, hc⟩
        exact hnone c _ hc.symm
      refine ⟨[b], bs, rfl,
        .inr ⟨⟨by simp, no_char_of_longest ?_ hlongest, .inr rfl, hlongest⟩, rfl⟩⟩
      rintro c ⟨more, hc⟩
      cases hchar : String.utf8EncodeChar c with
      | nil => exact String.utf8EncodeChar_ne_nil hchar
      | cons x xs =>
        rw [hchar, List.cons_append] at hc
        exact hnone c xs ((List.cons.inj hc).1 ▸ hchar)
    | some l =>
      obtain ⟨t, rest, rfl, htakes, hread⟩ := started_cases l bs
      refine ⟨b :: t, rest, rfl, ?_⟩
      rcases hread with ⟨hlen, heq⟩ | ⟨hlen, heq, hnext⟩
      · exact .inl ⟨_, (encode_of_takes hl htakes hlen).symm, heq⟩
      · -- A character that is begun and not completed
        have hlongest : ∀ x ∈ rest.head?, ¬ Begins (b :: t ++ [x]) := fun x hx hbegins =>
          hnext x hx ((begins_cons_iff hl).mp hbegins)
        refine .inr ⟨⟨by simp, no_char_of_longest ?_ hlongest,
          .inl ((begins_cons_iff hl).mpr htakes), hlongest⟩, heq⟩
        rintro c ⟨more, hc⟩
        cases hchar : String.utf8EncodeChar c with
        | nil => exact String.utf8EncodeChar_ne_nil hchar
        | cons x xs =>
          rw [hchar, List.cons_append] at hc
          obtain ⟨rfl, rfl⟩ := List.cons.inj hc
          rcases lead?_of_encode hchar with ⟨hlt, -⟩ | ⟨l', hl', -, hlen'⟩
          · exact hb hlt
          · obtain rfl := Option.some.inj (hl.symm.trans hl')
            rw [List.length_append] at hlen
            omega

/-! ## The whole text -/

theorem decodeAfter_eq (done : List Char) (bs : Bytes) :
    decodeAfter done bs = done.reverse ++ decode bs := by
  -- Characters that were read before stay in front, whatever is still to be read
  have hfront (done more : List Char) (bs : Bytes) :
      decodeAfter (more ++ done) bs = done.reverse ++ decodeAfter more bs := by
    fun_induction decodeAfter more bs with
    | case1 more => rw [decodeAfter, List.reverse_append]
    | case2 more b rest ih => rw [decodeAfter, ← ih, List.cons_append]
  exact hfront done [] bs

theorem decode_cons (b : UInt8) (bs : Bytes) :
    decode (b :: bs) = (next b bs).1 :: decode (next b bs).2 := by
  rw [decode, decodeAfter, decodeAfter_eq]
  rfl

/-- Any bytes are read, as the text that `decode` gives. -/
theorem isLossy_decode (bs : Bytes) : IsLossy bs (decode bs) := by
  -- On the number of bytes, of which each step takes away at least one
  induction h : bs.length using Nat.strong_induction_on generalizing bs with
  | _ n ih =>
    cases bs with
    | nil => rw [decode, decodeAfter]; exact .nil
    | cons b bs =>
      subst h
      have hrest := ih _ (Nat.lt_succ_of_le (next_length_le b bs)) _ rfl
      rw [decode_cons]
      obtain ⟨read, rest, hsplit, hread⟩ := next_cases b bs
      rw [← hsplit]
      rcases hread with ⟨c, rfl, heq⟩ | ⟨hfault, heq⟩
      · rw [heq] at hrest ⊢
        exact .char hrest
      · rw [heq] at hrest ⊢
        exact .fault hfault hrest

theorem IsLossy.decode_eq {bs : Bytes} {s : List Char} (h : IsLossy bs s) : decode bs = s := by
  induction h with
  | nil => rw [decode, decodeAfter, List.reverse_nil]
  | @char c rest s _ ih =>
    cases hbs : String.utf8EncodeChar c ++ rest with
    | nil => exact absurd (List.append_eq_nil_iff.mp hbs).1 String.utf8EncodeChar_ne_nil
    | cons b bs =>
      -- The reader takes the same character: only one stands there, so there is no fault
      obtain ⟨read, rest', hsplit, hread⟩ := next_cases b bs
      rw [← hbs] at hsplit
      rcases hread with ⟨c', rfl, heq⟩ | ⟨hfault, -⟩
      · obtain ⟨rfl, rfl⟩ := encodeChar_append_inj hsplit
        rw [decode_cons, heq, ih]
      · exact absurd ⟨rest, hsplit.symm⟩ (hfault.no_char c)
  | @fault bad rest s hbad _ ih =>
    cases hbs : bad ++ rest with
    | nil => exact absurd (List.append_eq_nil_iff.mp hbs).1 hbad.ne_nil
    | cons b bs =>
      -- No character stands there, and only one run of bytes is dropped
      obtain ⟨read, rest', hsplit, hread⟩ := next_cases b bs
      rw [← hbs] at hsplit
      rcases hread with ⟨c, rfl, -⟩ | ⟨hfault, heq⟩
      · exact absurd ⟨rest', hsplit⟩ (hbad.no_char c)
      · obtain ⟨rfl, rfl⟩ := hfault.unique hbad hsplit
        rw [decode_cons, heq, ih]

/-- Every sequence of bytes is read as one text, the one that `decode` gives. -/
theorem isLossy_iff {bs : Bytes} {s : List Char} : IsLossy bs s ↔ s = decode bs :=
  ⟨fun h => h.decode_eq.symm, fun h => h ▸ isLossy_decode bs⟩

end Keysmith.Text.Utf8
