/-! # Text as bytes

UTF-8 in both directions.  `encode` is exact.  `decode` accepts any bytes: each
longest run of bytes that begins a character without completing one, and each
byte that can begin none, is read as the replacement character.  `decode?` is the
strict reading, which refuses such bytes. -/

namespace Keysmith

/-- A sequence of bytes, as a file holds it or a child process prints it. -/
abbrev Bytes := List UInt8

end Keysmith

namespace Keysmith.Text.Utf8

/-- The bytes of a text. -/
def encode (s : List Char) : Bytes :=
  s.flatMap String.utf8EncodeChar

/-- What stands for bytes that are no character. -/
def replacement : Char := '\uFFFD'

/-- Whether a byte continues a character. -/
def isContinuation (b : UInt8) : Bool := 0x80 ≤ b && b ≤ 0xBF

/-- How a character of several bytes begins: the bits that the first byte gives,
    the range of the second byte, and how many bytes follow the second. -/
structure Lead where
  bits : Nat
  low : UInt8
  high : UInt8
  more : Nat

/-- The leading bytes of characters of several bytes.  The range of the second
    byte excludes overlong forms, surrogates and values above `0x10FFFF`. -/
def lead? (b : UInt8) : Option Lead :=
  if 0xC2 ≤ b && b ≤ 0xDF then some ⟨b.toNat - 0xC0, 0x80, 0xBF, 0⟩
  else if b == 0xE0 then some ⟨0, 0xA0, 0xBF, 1⟩
  else if b == 0xED then some ⟨0xD, 0x80, 0x9F, 1⟩
  else if 0xE1 ≤ b && b ≤ 0xEF then some ⟨b.toNat - 0xE0, 0x80, 0xBF, 1⟩
  else if b == 0xF0 then some ⟨0, 0x90, 0xBF, 2⟩
  else if 0xF1 ≤ b && b ≤ 0xF3 then some ⟨b.toNat - 0xF0, 0x80, 0xBF, 2⟩
  else if b == 0xF4 then some ⟨4, 0x80, 0x8F, 2⟩
  else none

/-- Read `n` continuation bytes into `bits`: the character and the rest, or the
    replacement character and the rest from the first byte that does not
    continue. -/
def continued (bits : Nat) : Nat → Bytes → Char × Bytes
  | 0, bs => (Char.ofNat bits, bs)
  | _ + 1, [] => (replacement, [])
  | n + 1, b :: bs =>
    if isContinuation b then continued (bits * 64 + (b.toNat - 0x80)) n bs
    else (replacement, b :: bs)

/-- Read the rest of a character that begins with the leading byte `l`. -/
def started (l : Lead) : Bytes → Char × Bytes
  | [] => (replacement, [])
  | c :: cs =>
    if l.low ≤ c && c ≤ l.high then continued (l.bits * 64 + (c.toNat - 0x80)) l.more cs
    else (replacement, c :: cs)

/-- Read one character from bytes that begin with `b`. -/
def next (b : UInt8) (bs : Bytes) : Char × Bytes :=
  if b < 0x80 then (Char.ofNat b.toNat, bs)
  else match lead? b with
    | some l => started l bs
    | none => (replacement, bs)

theorem continued_length_le (bits n : Nat) (bs : Bytes) :
    (continued bits n bs).2.length ≤ bs.length := by
  induction bs generalizing bits n with
  | nil => cases n <;> simp [continued]
  | cons b bs ih =>
    cases n with
    | zero => simp [continued]
    | succ n =>
      rw [continued]
      split
      · exact Nat.le_succ_of_le (ih _ _)
      · simp

theorem started_length_le (l : Lead) (bs : Bytes) : (started l bs).2.length ≤ bs.length := by
  cases bs with
  | nil => simp [started]
  | cons c cs =>
    rw [started]
    split
    · exact Nat.le_succ_of_le (continued_length_le _ _ _)
    · simp

theorem next_length_le (b : UInt8) (bs : Bytes) : (next b bs).2.length ≤ bs.length := by
  rw [next]
  split
  · simp
  · split
    · exact started_length_le _ bs
    · simp

/-- Read bytes after the characters `done`, which are in reverse order. -/
def decodeAfter (done : List Char) (bs : Bytes) : List Char :=
  match bs with
  | [] => done.reverse
  | b :: rest => decodeAfter ((next b rest).1 :: done) (next b rest).2
termination_by bs.length
decreasing_by
  have h := next_length_le b rest
  simp only [List.length_cons]
  omega

/-- The text of any bytes, with the replacement character for what is no
    character. -/
def decode (bs : Bytes) : List Char := decodeAfter [] bs

/-- The text of bytes that are valid UTF-8. -/
def decode? (bs : Bytes) : Option String :=
  String.fromUTF8? ⟨bs.toArray⟩

end Keysmith.Text.Utf8
