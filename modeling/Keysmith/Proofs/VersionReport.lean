import Keysmith.Proofs.VersionLine

/-!
# What a report comes to

A line that quotes a version text of one of the two schemes is read as that version, whatever
stands before the marker and behind the quoted text.  Where no line holds the marker, the first
line is read in its place, and it can quote a version as well.

* `ofReport_schemeLine`  the version that a line in one of the schemes is read as
* `ofReport_scheme`  its releases are those written there, and a written version reads back
* `ofReport_sought`  on which line a version is found, and which reports without the marker are
  refused
* `ofReport_accepts_notice`  a notice that is read as a version
-/

namespace Keysmith.Version

open Text Text.Decimal

/-! ## Lines in one of the schemes -/

/-- A line that quotes a version text behind the marker: the numeral of the major release is
    `ds`, and `rest` follows it in the quotes. -/
inductive SchemeLine (ds rest : List Char) : List Char → Prop
  | mk {before text after : List Char} : '"' ∉ before → '\n' ∉ before → '"' ∉ rest →
      '\n' ∉ rest → '\n' ∉ after → Numeral ds rest → Scheme ds rest text →
      SchemeLine ds rest (before ++ marker ++ text ++ '"' :: after)

theorem not_mem_of_isDigit {ds : List Char} (h : ∀ c ∈ ds, c.isDigit = true) {c : Char}
    (hc : c.isDigit = false) : c ∉ ds := by
  intro hmem
  rw [h c hmem] at hc
  cases hc

/-- A version text holds nothing but what the numeral is followed by, digits and a dot. -/
theorem Scheme.not_mem {ds rest text : List Char} (hs : Scheme ds rest text)
    (hnum : Numeral ds rest) {c : Char} (hc : c.isDigit = false) (hdot : c ≠ '.')
    (hrest : c ∉ rest) : c ∉ text := by
  have hds : c ∉ ds := not_mem_of_isDigit hnum.digits hc
  have hone : c ≠ '1' := by
    rintro rfl
    cases hc
  cases hs with
  | current => simp [hds, hrest]
  | older => simp [hds, hrest, hone, hdot]

/-- Trimming a line does not change what it quotes. -/
theorem quoted?_trim {l q : List Char} (hl : '"' ∉ l) (hq : '"' ∉ q) (r : List Char) :
    quoted? (trim (l ++ '"' :: (q ++ '"' :: r))) = some q := by
  have hblank : isBlank '"' = false := by decide
  have hcut : '"' ∉ l.dropWhile isBlank := fun h => hl ((List.dropWhile_sublist _).subset h)
  rw [trim_append_cons hblank, trimEnd_append_cons hblank]
  exact quoted?_eq_some_iff.mpr (.closed hcut hq)

/-- A line in one of the schemes is read, unless its major release is too large a number. -/
theorem ofReport_schemeLine {ds rest line : List Char} (h : SchemeLine ds rest line) :
    ofReport (String.ofList line) =
      if value ds ≤ maxNumber then .ok ⟨UInt32.ofNat (value ds), minorIn rest⟩
      else .error (.unrecognizedVersion (String.ofList (trim line))) := by
  obtain @⟨before, text, after, hbq, hbn, hrq, hrn, han, hnum, hs⟩ := h
  have htq : '"' ∉ text := hs.not_mem hnum (by decide) (by decide) hrq
  have htn : '\n' ∉ text := hs.not_mem hnum (by decide) (by decide) hrn
  -- The line has the marker and no line feed, so it is taken as it stands
  have hm : marker <:+: before ++ marker ++ text ++ '"' :: after :=
    ⟨before, text ++ '"' :: after, (List.append_assoc _ _ _).symm⟩
  have hline : '\n' ∉ before ++ marker ++ text ++ '"' :: after := by
    have hmn : '\n' ∉ marker := by decide
    simp only [List.mem_append, List.mem_cons, not_or]
    exact ⟨⟨⟨hbn, hmn⟩, htn⟩, by decide, han⟩
  have htaken := versionLine_of_marker hline hm
  -- The marker's own double quote is the first one
  have hsplit : before ++ marker ++ text ++ '"' :: after =
      (before ++ "version ".toList) ++ '"' :: (text ++ '"' :: after) := by
    simp only [marker_eq, List.append_assoc, List.cons_append, List.nil_append]
  have hfirst : '"' ∉ before ++ "version ".toList := by
    have hvq : '"' ∉ "version ".toList := by decide
    simp only [List.mem_append, not_or]
    exact ⟨hbq, hvq⟩
  have hquoted : quoted? (trim (before ++ marker ++ text ++ '"' :: after)) = some text := by
    rw [hsplit]
    exact quoted?_trim hfirst htq after
  have hread : ofLine? (trim (before ++ marker ++ text ++ '"' :: after)) =
      if value ds ≤ maxNumber then some ⟨UInt32.ofNat (value ds), minorIn rest⟩ else none := by
    rw [← read_scheme hs hnum, ofLine?, hquoted]
    rfl
  split
  · rename_i hle
    rw [ofReport_eq_ok_iff, String.toList_ofList, htaken, hread, if_pos hle]
  · rename_i hlt
    rw [ofReport_eq_error_iff, String.toList_ofList, htaken, hread, if_neg hlt]
    exact ⟨rfl, rfl⟩

/-- The written form of a version with a major release other than `1`, quoted. -/
theorem schemeLine_text {v : Version} (h : v.major ≠ 1) :
    SchemeLine (digits v.major.toNat) ('.' :: digits v.minor.toNat)
      ("java version \"" ++ v.text ++ "\"").toList := by
  have hline : ("java version \"" ++ v.text ++ "\"").toList =
      "java ".toList ++ marker ++ v.chars ++ '"' :: [] := by
    have hstart : "java version \"".toList = "java ".toList ++ marker := by decide
    have hchars : v.text.toList = v.chars := String.toList_ofList
    rw [String.toList_append, String.toList_append, hstart, hchars]
    rfl
  have hmajor : value (digits v.major.toNat) ≠ 1 := by
    rw [value_digits]
    intro hone
    exact h (UInt32.toNat_inj.mp hone)
  have hquote : '"' ∉ digits v.minor.toNat :=
    not_mem_of_isDigit (fun _ => isDigit_of_mem_digits) (by decide)
  have hfeed : '\n' ∉ digits v.minor.toNat :=
    not_mem_of_isDigit (fun _ => isDigit_of_mem_digits) (by decide)
  rw [hline]
  exact .mk (by simp) (by simp) (by simp [hquote]) (by simp [hfeed]) (by simp)
    (numeral_digits _ (by simp)) (.current hmajor)

/-- The minor release behind a dot. -/
theorem minorIn_numeral_of_dot {ms more : List Char} (h : Numeral ms more)
    (hle : value ms ≤ maxNumber) :
    minorIn ('.' :: (ms ++ more)) = UInt32.ofNat (value ms) := by
  rw [minorIn_cons rfl, number?_numeral h hle]
  rfl

/-- The written form of a version with a major release other than `1` reads back. -/
theorem ofReport_text {v : Version} (h : v.major ≠ 1) :
    ofReport ("java version \"" ++ v.text ++ "\"") = .ok v := by
  have hminor : minorIn ('.' :: digits v.minor.toNat) = v.minor := by
    have hnum : Numeral (digits v.minor.toNat) [] := numeral_digits _ (by simp)
    have hle : value (digits v.minor.toNat) ≤ maxNumber := by
      rw [value_digits]
      exact toNat_le_maxNumber _
    rw [← List.append_nil (digits v.minor.toNat), minorIn_numeral_of_dot hnum hle,
      value_digits, UInt32.ofNat_toNat]
  have hback := ofReport_schemeLine (schemeLine_text h)
  rwa [String.ofList_toList, value_digits, if_pos (toNat_le_maxNumber _), hminor,
    UInt32.ofNat_toNat] at hback

/-- A line in one of the schemes is read as the major release written there, whatever follows
    it, and as the minor release if that follows behind a dot; a major release that is too
    large a number is refused.  What is written for a version with a major release other than
    `1` reads back as that version. -/
theorem ofReport_scheme :
    (∀ ds rest line, SchemeLine ds rest line →
      (value ds ≤ maxNumber → ∃ v, ofReport (String.ofList line) = .ok v ∧
        v.major.toNat = value ds ∧
        ∀ ms more, rest = '.' :: (ms ++ more) → Numeral ms more → value ms ≤ maxNumber →
          v.minor.toNat = value ms) ∧
      (maxNumber < value ds → ofReport (String.ofList line) =
        .error (.unrecognizedVersion (String.ofList (trim line))))) ∧
    ∀ v : Version, v.major ≠ 1 →
      ofReport ("java version \"" ++ v.text ++ "\"") = .ok v := by
  refine ⟨fun ds rest line h => ?_, fun v hv => ofReport_text hv⟩
  have hread := ofReport_schemeLine h
  constructor
  · intro hle
    rw [if_pos hle] at hread
    refine ⟨_, hread, toNat_ofNat_of_le hle, ?_⟩
    rintro ms more rfl hms hmle
    rw [minorIn_numeral_of_dot hms hmle, toNat_ofNat_of_le hmle]
  · intro hlt
    rwa [if_neg (by omega)] at hread

/-- The older scheme with a vendor's suffix, behind text before the marker; and a version of
    the current scheme, written and read back. -/
theorem ofReport_scheme_older :
    let line := "java version \"1.8.0_292\" (build 1.8.0_292-b10)".toList
    SchemeLine ['8'] ".0_292".toList line ∧
      (∃ v, ofReport (String.ofList line) = .ok v ∧ v.major.toNat = 8 ∧ v.minor.toNat = 0) ∧
      ofReport ("java version \"" ++ text ⟨17, 2⟩ ++ "\"") = .ok ⟨17, 2⟩ := by
  intro line
  have hnum : Numeral ['8'] ".0_292".toList := ⟨by simp, by simp, by simp⟩
  have hsplit : line = "java ".toList ++ marker ++ ('1' :: '.' :: (['8'] ++ ".0_292".toList)) ++
      '"' :: " (build 1.8.0_292-b10)".toList := by decide
  have hline : SchemeLine ['8'] ".0_292".toList line := by
    rw [hsplit]
    exact .mk (by decide) (by decide) (by decide) (by decide) (by decide) hnum .older
  have hminor : Numeral ['0'] "_292".toList := ⟨by simp, by simp, by simp⟩
  obtain ⟨v, hv, hmajor, hdot⟩ := (ofReport_scheme.1 _ _ line hline).1 (by decide)
  exact ⟨hline, ⟨v, hv, hmajor, hdot ['0'] "_292".toList rfl hminor (by decide)⟩,
    ofReport_scheme.2 ⟨17, 2⟩ (by decide)⟩

/-! ## Reports without the marker -/

/-- The line on which a version is sought: the first one with the marker, or the first one of
    all if none has the marker. -/
inductive SoughtOn (report l : List Char) : Prop
  | marked {before after : List (List Char)} : lines report = before ++ l :: after →
      (∀ x ∈ before, ¬ marker <:+: x) → marker <:+: l → SoughtOn report l
  | first {after : List (List Char)} : lines report = l :: after →
      (∀ x ∈ lines report, ¬ marker <:+: x) → SoughtOn report l

theorem SoughtOn.versionLine_eq {report l : List Char} (h : SoughtOn report l) :
    versionLine report = trim l := by
  cases h with
  | marked hlines hbefore hl => exact versionLine_of_lines hlines hbefore hl
  | first hlines hnone =>
    rw [versionLine_of_no_marker hnone, hlines]
    rfl

theorem ofLine?_nil : ofLine? [] = none := by decide +kernel

/-- There is such a line, unless the report is empty. -/
theorem exists_soughtOn {report : List Char} (h : lines report ≠ []) :
    ∃ l, SoughtOn report l := by
  cases hfind : (lines report).find? (mentions marker) with
  | some l =>
    obtain ⟨hl, before, after, hlines, hbefore⟩ := List.find?_eq_some_iff_append.mp hfind
    refine ⟨l, .marked hlines (fun x hx hm => ?_) (mentions_iff.mp hl)⟩
    exact absurd (mentions_iff.mpr hm) (by simpa using hbefore x hx)
  | none =>
    obtain ⟨l, after, hlines⟩ := List.exists_cons_of_ne_nil h
    refine ⟨l, .first hlines fun x hx hm => ?_⟩
    exact absurd (mentions_iff.mpr hm) (List.find?_eq_none.mp hfind x hx)

/-- A version is found on the first line with the marker or, if no line has the marker, on the
    first line, as the one that the quoted text names.  A report without the marker is refused
    just if its first line quotes nothing that names a version. -/
theorem ofReport_sought (report : String) :
    (∀ v, ofReport report = .ok v → ∃ l q, SoughtOn report.toList l ∧ Quotes (trim l) q ∧
      NamesMajor q v.major.toNat) ∧
    ((∀ l ∈ lines report.toList, ¬ marker <:+: l) →
      let first := trim ((lines report.toList).head?.getD [])
      (ofReport report = .error (.unrecognizedVersion (String.ofList first)) ↔
        ∀ q n, Quotes first q → ¬ NamesMajor q n)) := by
  constructor
  · intro v hv
    rw [ofReport_eq_ok_iff] at hv
    have hne : lines report.toList ≠ [] := by
      intro hnil
      have hempty : versionLine report.toList = [] := by
        rw [versionLine_of_no_marker (by simp [hnil]), hnil]
        rfl
      rw [hempty, ofLine?_nil] at hv
      cases hv
    obtain ⟨l, hl⟩ := exists_soughtOn hne
    rw [hl.versionLine_eq] at hv
    obtain ⟨q, hq, hnames⟩ := ofLine?_iff_namesMajor.mp ⟨v, hv, rfl⟩
    exact ⟨l, q, hl, hq, hnames⟩
  · intro hnone first
    have htaken : versionLine report.toList = first := versionLine_of_no_marker hnone
    rw [ofReport_eq_error_iff, htaken]
    constructor
    · rintro ⟨hread, -⟩ q n hq hnames
      obtain ⟨v, hv, -⟩ := ofLine?_iff_namesMajor.mpr ⟨q, hq, hnames⟩
      rw [hread] at hv
      cases hv
    · intro hnot
      refine ⟨?_, rfl⟩
      rw [Option.eq_none_iff_forall_ne_some]
      intro v hv
      obtain ⟨q, hq, hnames⟩ := ofLine?_iff_namesMajor.mp ⟨v, hv, rfl⟩
      exact hnot q _ hq hnames

/-- A message that quotes an option is refused: the quoted text begins with no number. -/
theorem ofReport_sought_option :
    let report := "Unrecognized option: \"-version\"\nError: Could not create the machine."
    (∀ l ∈ lines report.toList, ¬ marker <:+: l) ∧
      ofReport report =
        .error (.unrecognizedVersion "Unrecognized option: \"-version\"") := by
  intro report
  have hnone : ∀ l ∈ lines report.toList, ¬ marker <:+: l := by
    intro l hl
    rw [← mentions_iff]
    revert l
    decide +kernel
  have hfirst : trim ((lines report.toList).head?.getD []) =
      "Unrecognized option: \"-version\"".toList := by decide +kernel
  have hread : ofLine? "Unrecognized option: \"-version\"".toList = none := by decide +kernel
  have hrefused := (ofReport_sought report).2 hnone
  simp only [hfirst, String.ofList_toList] at hrefused
  refine ⟨hnone, hrefused.mpr fun q n hq hnames => ?_⟩
  obtain ⟨v, hv, -⟩ := ofLine?_iff_namesMajor.mpr ⟨q, hq, hnames⟩
  rw [hread] at hv
  cases hv

/-- A notice that quotes the value of an option is read as a version, although no line of the
    report holds the marker. -/
theorem ofReport_accepts_notice :
    let report := "Picked up JAVA_TOOL_OPTIONS: -Dapp.version=\"17.0.2\""
    (∀ l ∈ lines report.toList, ¬ marker <:+: l) ∧ ofReport report = .ok ⟨17, 0⟩ := by
  intro report
  constructor
  · intro l hl
    rw [← mentions_iff]
    revert l
    decide +kernel
  · decide +kernel

end Keysmith.Version
