import Keysmith.Proofs.SubjectAltName
import Keysmith.Text.Utf8

/-!
# Which host names are accepted

A host name is tested by cutting it at its dots, while the grammar puts it together from labels.
Both come to the same, because a label holds no dot.  A label holds ASCII characters only, so it
does not matter either whether lengths are counted in characters or in bytes.

* `Text.pieces_induction`      induction along the cut of a text
* `Text.pieces_append_pieces`  a text is cut on both sides of a separator
* `Hostname.label_iff`         what a label is
* `Hostname.labels_iff`        the texts that the grammar generates are those whose pieces are
  labels
* `Hostname.isPlain_iff`       the test accepts what the grammar generates, up to a length
* `Hostname.isPlainInBytes_eq`  the test with lengths counted in bytes
* `SubjectAltName.ofHost_accepts_iff`  which host names a server can be named by
-/

namespace Keysmith

namespace Text

/-- What holds of every text without separators, and of one with a separator if it holds of what
    stands behind the first, holds of every text. -/
theorem pieces_induction (p : Char → Bool) {motive : List Char → Prop}
    (whole : ∀ l, (∀ x ∈ l, p x = false) → motive l)
    (cut : ∀ l c r, (∀ x ∈ l, p x = false) → p c = true → motive r → motive (l ++ c :: r))
    (s : List Char) : motive s := by
  fun_induction pieces p s with
  | case1 s hrest =>
    have hs := cutAt_append p s
    rw [hrest, List.append_nil] at hs
    refine whole s ?_
    rw [← hs]
    exact cutAt_fst
  | case2 s c r hrest ih =>
    rw [← cutAt_append p s, hrest]
    exact cut _ c r cutAt_fst (cutAt_snd hrest) ih

/-- A text is cut on both sides of a separator, whatever stands there. -/
theorem pieces_append_pieces {p : Char → Bool} {c : Char} (hc : p c = true) (l r : List Char) :
    pieces p (l ++ c :: r) = pieces p l ++ pieces p r := by
  induction l using pieces_induction p with
  | whole l hl =>
    rw [pieces_append hl hc, pieces_of_forall hl]
    rfl
  | cut l b rest hl hb ih =>
    rw [List.append_assoc, List.cons_append, pieces_append hl hb, pieces_append hl hb, ih]
    rfl

namespace Utf8

theorem encode_cons (c : Char) (s : List Char) :
    encode (c :: s) = String.utf8EncodeChar c ++ encode s := rfl

/-- A text has at least one byte for each character. -/
theorem length_le_length_encode (s : List Char) : s.length ≤ (encode s).length := by
  induction s with
  | nil => exact Nat.le_refl _
  | cons c s ih =>
    have hone : 1 ≤ (String.utf8EncodeChar c).length :=
      List.length_pos_iff.mpr String.utf8EncodeChar_ne_nil
    rw [encode_cons, List.length_append, List.length_cons]
    omega

/-- A text of ASCII characters has just one byte for each of them. -/
theorem length_encode_of_ascii {s : List Char} (h : ∀ c ∈ s, c.val ≤ 127) :
    (encode s).length = s.length := by
  induction s with
  | nil => rfl
  | cons c s ih =>
    obtain ⟨hc, hs⟩ := List.forall_mem_cons.mp h
    have hone : (String.utf8EncodeChar c).length = 1 := by
      rw [String.length_utf8EncodeChar]
      exact Char.utf8Size_eq_one_iff.mpr hc
    rw [encode_cons, List.length_append, hone, ih hs, List.length_cons, Nat.add_comm]

end Utf8

end Text

namespace Hostname

open Text

/-! ## Labels -/

/-- The characters of a label: the letters and digits of ASCII, the hyphen and the underscore. -/
def IsDnsChar (c : Char) : Prop :=
  'A' ≤ c ∧ c ≤ 'Z' ∨ 'a' ≤ c ∧ c ≤ 'z' ∨ '0' ≤ c ∧ c ≤ '9' ∨ c = '-' ∨ c = '_'

theorem isLabelChar_iff {c : Char} : isLabelChar c = true ↔ IsDnsChar c := by
  have hupper : c.isUpper = true ↔ 'A' ≤ c ∧ c ≤ 'Z' := decide_eq_true_iff
  have hlower : c.isLower = true ↔ 'a' ≤ c ∧ c ≤ 'z' :=
    Bool.and_eq_true_iff.trans (and_congr decide_eq_true_iff decide_eq_true_iff)
  have hdigit : c.isDigit = true ↔ '0' ≤ c ∧ c ≤ '9' :=
    Bool.and_eq_true_iff.trans (and_congr decide_eq_true_iff decide_eq_true_iff)
  have halphanum : c.isAlphanum = true ↔ (c.isUpper = true ∨ c.isLower = true) ∨ c.isDigit = true :=
    Bool.or_eq_true_iff.trans (or_congr_left Bool.or_eq_true_iff)
  rw [isLabelChar, Bool.or_eq_true, Bool.or_eq_true, beq_iff_eq, beq_iff_eq, halphanum, hupper,
    hlower, hdigit, IsDnsChar]
  simp only [or_assoc]

theorem label_iff {l : List Char} :
    Label l ↔ 1 ≤ l.length ∧ l.length ≤ 63 ∧ ∀ c ∈ l, IsDnsChar c := by
  simp only [← isLabelChar_iff]
  exact ⟨fun h => ⟨List.length_pos_iff.mpr h.ne_nil, h.length_le, h.chars⟩,
    fun ⟨hpos, hle, hchars⟩ => ⟨List.length_pos_iff.mp hpos, hle, hchars⟩⟩

/-- A label has no character beyond ASCII. -/
theorem IsDnsChar.ascii {c : Char} (h : IsDnsChar c) : c.val ≤ 127 := by
  rcases h with ⟨-, h⟩ | ⟨-, h⟩ | ⟨-, h⟩ | rfl | rfl
  · exact UInt32.le_trans h (by decide)
  · exact UInt32.le_trans h (by decide)
  · exact UInt32.le_trans h (by decide)
  · decide
  · decide

theorem Label.ascii {l : List Char} (h : Label l) : ∀ c ∈ l, c.val ≤ 127 :=
  fun c hc => (isLabelChar_iff.mp (h.chars c hc)).ascii

/-! ## The grammar and the cut -/

/-- The grammar generates the texts whose pieces between the dots are labels. -/
theorem labels_iff {s : List Char} : Labels s ↔ ∀ l ∈ pieces (· == '.') s, Label l := by
  have hdot : ('.' == '.') = true := rfl
  constructor
  · intro h
    induction h with
    | one hl =>
      rw [pieces_of_forall hl.ne_dot, List.forall_mem_singleton]
      exact hl
    | dot hl _ ih =>
      rw [pieces_append hl.ne_dot hdot, List.forall_mem_cons]
      exact ⟨hl, ih⟩
  · intro h
    induction s using pieces_induction (· == '.') with
    | whole s hs =>
      rw [pieces_of_forall hs, List.forall_mem_singleton] at h
      exact .one h
    | cut l c r hl hc ih =>
      obtain rfl := beq_iff_eq.mp hc
      rw [pieces_append hl hdot, List.forall_mem_cons] at h
      exact .dot h.1 (ih h.2)

/-- A dot joins two texts of the grammar and nothing else. -/
theorem labels_append_iff {a b : List Char} : Labels (a ++ '.' :: b) ↔ Labels a ∧ Labels b := by
  have hcut : pieces (· == '.') (a ++ '.' :: b) = pieces (· == '.') a ++ pieces (· == '.') b :=
    pieces_append_pieces rfl a b
  rw [labels_iff, labels_iff, labels_iff, hcut, List.forall_mem_append]

/-- A plain DNS name by the grammar: labels with dots between them, not too long in all. -/
def Named (s : String) : Prop := Labels s.toList ∧ s.length ≤ maxName

theorem isPlain_iff {s : String} : isPlain s = true ↔ Named s := by
  rw [isPlain, Bool.and_eq_true, decide_eq_true_eq, List.all_eq_true, Named, labels_iff,
    String.length_toList, and_comm]
  simp only [isLabel_iff]

/-- Two plain DNS names are joined by a dot to one, if that is not too long. -/
theorem named_append_iff {a b : String} :
    Named (a ++ "." ++ b) ↔ Named a ∧ Named b ∧ (a ++ "." ++ b).length ≤ maxName := by
  have hlist : (a ++ "." ++ b).toList = a.toList ++ '.' :: b.toList := by
    rw [String.toList_append, String.toList_append, List.append_assoc]
    rfl
  have hlen : (a ++ "." ++ b).length = a.length + 1 + b.length := by
    rw [String.length_append, String.length_append]
    rfl
  rw [Named, Named, Named, hlist, labels_append_iff, hlen]
  constructor
  · rintro ⟨⟨ha, hb⟩, hle⟩
    exact ⟨⟨ha, by omega⟩, ⟨hb, by omega⟩, hle⟩
  · rintro ⟨⟨ha, -⟩, ⟨hb, -⟩, hle⟩
    exact ⟨⟨ha, hb⟩, hle⟩

/-! ## Lengths in bytes -/

/-- The test with lengths counted in bytes. -/
def isPlainInBytes (s : String) : Bool :=
  (Utf8.encode s.toList).length ≤ maxName && (pieces (· == '.') s.toList).all fun l =>
    !l.isEmpty && (Utf8.encode l).length ≤ maxLabel && l.all isLabelChar

theorem Labels.ascii {s : List Char} (h : Labels s) : ∀ c ∈ s, c.val ≤ 127 := by
  induction h with
  | one hl => exact hl.ascii
  | dot hl _ ih =>
    rw [List.forall_mem_append, List.forall_mem_cons]
    exact ⟨hl.ascii, by decide, ih⟩

/-- The same names are plain if lengths are counted in bytes: whatever is beyond ASCII is refused
    in any case. -/
theorem isPlainInBytes_eq (s : String) : isPlainInBytes s = isPlain s := by
  rw [Bool.eq_iff_iff, isPlain_iff, isPlainInBytes, Bool.and_eq_true, decide_eq_true_eq,
    List.all_eq_true]
  simp only [Bool.and_eq_true, decide_eq_true_eq, Bool.not_eq_true', List.isEmpty_eq_false_iff,
    List.all_eq_true]
  constructor
  · rintro ⟨hle, hpieces⟩
    refine ⟨labels_iff.mpr fun l hl => ?_, ?_⟩
    · obtain ⟨⟨hne, hshort⟩, hchars⟩ := hpieces l hl
      exact ⟨hne, Nat.le_trans (Utf8.length_le_length_encode l) hshort, hchars⟩
    · rw [← String.length_toList]
      exact Nat.le_trans (Utf8.length_le_length_encode s.toList) hle
  · rintro ⟨hlabels, hle⟩
    refine ⟨?_, fun l hl => ?_⟩
    · rw [Utf8.length_encode_of_ascii hlabels.ascii, String.length_toList]
      exact hle
    · have hlabel := labels_iff.mp hlabels l hl
      rw [Utf8.length_encode_of_ascii hlabel.ascii]
      exact ⟨⟨hlabel.ne_nil, hlabel.length_le⟩, hlabel.chars⟩

end Hostname

namespace SubjectAltName

open Hostname

theorem ofHost_eq_error_iff {host : String} {ip : Ipv4} {e : Failure} :
    ofHost host ip = .error e ↔ ¬ Named host ∧ e = .invalidHostname host := by
  rw [← isPlain_iff, ofHost]
  split
  · rename_i h
    simp [h]
  · rename_i h
    simp [h, eq_comm]

/-- A host name that is accepted is kept as it is. -/
theorem exists_ofHost_kept_iff {host : String} {ip : Ipv4} :
    (∃ san, ofHost host ip = .ok san ∧ san.dns = host ∧ san.ip = ip) ↔ Named host := by
  rw [← isPlain_iff, ofHost]
  split
  · rename_i h
    simp [h]
  · rename_i h
    simp [h]

theorem exists_ofHost_iff {host : String} {ip : Ipv4} :
    (∃ san, ofHost host ip = .ok san) ↔ Named host := by
  rw [← @exists_ofHost_kept_iff host ip]
  exact ⟨fun ⟨san, h⟩ => ⟨san, h, ofHost_eq_ok h⟩, fun ⟨san, h, _⟩ => ⟨san, h⟩⟩

/-- A server is named by a host name just if the grammar generates that and it is not too long:
    the name is then kept as it is, and the refusal of any other name gives that name.  So two
    names joined by a dot are accepted just if both are and the whole is not too long.  It comes
    to the same if lengths are counted in bytes.  What the grammar puts together with dots are
    labels of 1 to 63 letters, digits, hyphens and underscores. -/
theorem ofHost_accepts_iff (host : String) (ip : Ipv4) :
    ((∃ san, ofHost host ip = .ok san ∧ san.dns = host ∧ san.ip = ip) ↔
      Labels host.toList ∧ host.length ≤ 253) ∧
    (∀ e, ofHost host ip = .error e ↔
      ¬ (Labels host.toList ∧ host.length ≤ 253) ∧ e = .invalidHostname host) ∧
    (∀ a b : String, (∃ san, ofHost (a ++ "." ++ b) ip = .ok san) ↔
      (∃ san, ofHost a ip = .ok san) ∧ (∃ san, ofHost b ip = .ok san) ∧
        (a ++ "." ++ b).length ≤ 253) ∧
    isPlainInBytes host = isPlain host ∧
    ∀ l, Label l ↔ 1 ≤ l.length ∧ l.length ≤ 63 ∧ ∀ c ∈ l, IsDnsChar c := by
  refine ⟨exists_ofHost_kept_iff, fun e => ofHost_eq_error_iff, fun a b => ?_,
    isPlainInBytes_eq host, fun l => label_iff⟩
  rw [exists_ofHost_iff, exists_ofHost_iff, exists_ofHost_iff]
  exact named_append_iff

/-- Behind a dot at the end stands a label that is empty. -/
example : isPlain "example.org" = true ∧ isPlain "example.org." = false := by decide +kernel

end SubjectAltName

end Keysmith
