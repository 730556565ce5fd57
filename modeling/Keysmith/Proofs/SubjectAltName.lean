import Keysmith.Certificate.SubjectAltName

/-!
# Subject alternative names read back

The syntax of the extension has no escapes, so whatever is written into it must not hold
its separators.  A plain DNS name consists of label characters and dots, the text of an
address of digits and dots:

* `Hostname.ne_sep_of_isPlain`, `Ipv4.ne_sep_of_mem_chars`  neither holds a comma or a colon
* `entries?_text`  the written form has the two entries that it was made of, and it
  determines them
-/

namespace Keysmith

open Text

namespace Hostname

/-- A plain DNS name consists of label characters and dots. -/
theorem isLabelChar_of_isPlain {s : String} (h : isPlain s = true) {c : Char}
    (hc : c ∈ s.toList) (hdot : c ≠ '.') : isLabelChar c = true := by
  rw [isPlain, Bool.and_eq_true, List.all_eq_true] at h
  obtain ⟨l, hl, hcl⟩ := exists_mem_pieces (p := (· == '.')) hc (by simpa using hdot)
  exact (isLabel_iff.mp (h.2 l hl)).chars c hcl

theorem ne_sep_of_isPlain {s : String} (h : isPlain s = true) {c : Char} (hc : c ∈ s.toList) :
    c ≠ ',' ∧ c ≠ ':' := by
  constructor
  · rintro rfl
    exact absurd (isLabelChar_of_isPlain h hc (by decide)) (by decide)
  · rintro rfl
    exact absurd (isLabelChar_of_isPlain h hc (by decide)) (by decide)

end Hostname

namespace Ipv4

/-- The text of an address consists of digits and dots. -/
theorem isDigit_of_mem_chars {ip : Ipv4} {c : Char} (hc : c ∈ ip.chars) (hdot : c ≠ '.') :
    c.isDigit = true := by
  simp only [chars, List.mem_append, List.mem_cons, hdot, false_or] at hc
  rcases hc with h | h | h | h <;> exact Decimal.isDigit_of_mem_digits h

theorem ne_sep_of_mem_chars {ip : Ipv4} {c : Char} (hc : c ∈ ip.chars) : c ≠ ',' ∧ c ≠ ':' := by
  constructor
  · rintro rfl
    exact absurd (isDigit_of_mem_chars hc (by decide)) (by decide)
  · rintro rfl
    exact absurd (isDigit_of_mem_chars hc (by decide)) (by decide)

/-- Addresses with the same text are the same. -/
theorem chars_injective : Function.Injective chars := by
  intro ip ip' h
  have hread := read?_chars ip
  rw [h, read?_chars ip'] at hread
  exact (Option.some.inj hread).symm

end Ipv4

namespace SubjectAltName

theorem ofHost_eq_ok {dns : String} {ip : Ipv4} {san : SubjectAltName}
    (h : ofHost dns ip = .ok san) : san.dns = dns ∧ san.ip = ip := by
  rw [ofHost] at h
  split at h
  · cases h
    exact ⟨rfl, rfl⟩
  · cases h

private theorem comma_not_in_entry {kind value : List Char} (hkind : ∀ c ∈ kind, c ≠ ',')
    (hvalue : ∀ c ∈ value, c ≠ ',') : ∀ c ∈ kind ++ ':' :: value, (c == ',') = false := by
  intro c hc
  rw [beq_eq_false_iff_ne]
  rcases List.mem_append.mp hc with hc | hc
  · exact hkind c hc
  · rcases List.mem_cons.mp hc with rfl | hc
    · decide
    · exact hvalue c hc

/-- The written form is cut at its one comma. -/
theorem pieces_chars (san : SubjectAltName) :
    pieces (· == ',') (san.chars.drop 4) =
      ["dns".toList ++ ':' :: san.dns.toList, "ip".toList ++ ':' :: san.ip.chars] := by
  have hdns : ∀ c ∈ "dns".toList ++ ':' :: san.dns.toList, (c == ',') = false :=
    comma_not_in_entry (by simp) fun _ hc => (Hostname.ne_sep_of_isPlain san.plain hc).1
  have hip : ∀ c ∈ "ip".toList ++ ':' :: san.ip.chars, (c == ',') = false :=
    comma_not_in_entry (by simp) fun _ hc => (Ipv4.ne_sep_of_mem_chars hc).1
  have hcomma : (',' == ',') = true := rfl
  have hchars : san.chars.drop 4 = "dns".toList ++ ':' :: san.dns.toList ++
      ',' :: ("ip".toList ++ ':' :: san.ip.chars) := rfl
  rw [hchars, pieces_append hdns hcomma, pieces_of_forall hip]

/-- The entries of the written form are the two that it was made of. -/
theorem entries?_chars (san : SubjectAltName) :
    entries? san.chars =
      some [("dns".toList, san.dns.toList), ("ip".toList, san.ip.chars)] := by
  have hstart : "san=".toList.isPrefixOf san.chars = true := by
    rw [List.isPrefixOf_iff_prefix]
    exact ⟨"dns:".toList ++ (san.dns.toList ++ (",ip:".toList ++ san.ip.chars)), rfl⟩
  -- The colon of an entry is the first one, because the kinds have none
  have hcolon : (':' == ':') = true := rfl
  have hdns : ∀ c ∈ "dns".toList, (c == ':') = false := by simp
  have hip : ∀ c ∈ "ip".toList, (c == ':') = false := by simp
  rw [entries?, if_pos hstart, pieces_chars]
  simp only [List.mapM_cons, List.mapM_nil, cutAt_append_of_sep hdns hcolon,
    cutAt_append_of_sep hip hcolon]
  rfl

/-- The written form of an accepted name has two entries, the host name and the address, and
    the address reads back.  So no host name brings a further entry with it, and two names
    with one written form are the same. -/
theorem entries?_text {host : String} {ip : Ipv4} {san : SubjectAltName}
    (h : ofHost host ip = .ok san) :
    entries? san.text.toList = some [("dns".toList, host.toList), ("ip".toList, ip.chars)] ∧
    Ipv4.read? ip.chars = some ip ∧
    ∀ san' : SubjectAltName, san'.text = san.text → san' = san := by
  obtain ⟨rfl, rfl⟩ := ofHost_eq_ok h
  have hentries : ∀ s : SubjectAltName, entries? s.text.toList =
      some [("dns".toList, s.dns.toList), ("ip".toList, s.ip.chars)] := by
    intro s
    rw [text, String.toList_ofList]
    exact entries?_chars s
  refine ⟨hentries san, Ipv4.read?_chars san.ip, fun san' htext => ?_⟩
  have hsame := hentries san'
  rw [htext, hentries san] at hsame
  simp only [Option.some.injEq, List.cons.injEq, Prod.mk.injEq, true_and, and_true] at hsame
  have hdns : san'.dns = san.dns := String.toList_inj.mp hsame.1.symm
  have hip : san'.ip = san.ip := Ipv4.chars_injective hsame.2.symm
  -- What is left of the two is the proof that the host name is plain
  cases san
  cases san'
  cases hdns
  cases hip
  rfl

/-- The entries for a host in a cluster. -/
theorem entries?_text_cluster :
    ∃ san, ofHost "node-1.cluster_a" ⟨10, 0, 0, 7⟩ = .ok san ∧
      entries? san.text.toList = some [("dns".toList, "node-1.cluster_a".toList),
        ("ip".toList, "10.0.0.7".toList)] := by
  have hplain : Hostname.isPlain "node-1.cluster_a" = true := by decide +kernel
  have hip : (⟨10, 0, 0, 7⟩ : Ipv4).chars = "10.0.0.7".toList := by decide_cbv
  have hok : ofHost "node-1.cluster_a" ⟨10, 0, 0, 7⟩ =
      .ok ⟨"node-1.cluster_a", ⟨10, 0, 0, 7⟩, hplain⟩ := dif_pos hplain
  refine ⟨_, hok, ?_⟩
  rw [← hip]
  exact (entries?_text hok).1

end SubjectAltName

end Keysmith
