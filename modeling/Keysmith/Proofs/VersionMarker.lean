import Keysmith.Proofs.VersionReport

/-!
# Text in front of the marker

The version line is found by its marker, but what is read on it is the text between the first
two double quotes of the line.  That is the text behind the marker only if no double quote stands
in front of it.

* `quoted?_append`   the quoted text begins at the first double quote
* `quoted?_trim_of_not_mem`, `quoted?_trim_of_mem`  the quoted text of a line with the marker
* `ofReport_prefixed`  what such a line is read as, and when the text in front of the marker does
  not matter
* `ofReport_misses_marker`  a quoted name in front of the marker hides the version
-/

namespace Keysmith

namespace Text

/-- What stands behind a separator has no part in the first piece. -/
theorem cutAt_append_fst {p : Char → Bool} {s : List Char} {c : Char} (hc : c ∈ s)
    (hp : p c = true) (r : List Char) : (cutAt p (s ++ r)).1 = (cutAt p s).1 := by
  have hstops : ¬ (s.takeWhile fun x => !p x).length = s.length := by
    intro hall
    have hs : s.takeWhile (fun x => !p x) = s := (List.takeWhile_prefix _).eq_of_length hall
    have hcs : c ∈ s.takeWhile fun x => !p x := by
      rw [hs]
      exact hc
    have hnot := List.all_eq_true.mp List.all_takeWhile c hcs
    simp [hp] at hnot
  rw [cutAt, cutAt, List.takeWhile_append, if_neg hstops]

end Text

namespace Version

open Text

/-- Two outcomes of reading that agree, but for the line that a refusal names. -/
inductive Agree : Except Failure Version → Except Failure Version → Prop
  | version (v : Version) : Agree (.ok v) (.ok v)
  | refused (line line' : String) :
      Agree (.error (.unrecognizedVersion line)) (.error (.unrecognizedVersion line'))

/-- Two reports agree just if their lines are read alike. -/
theorem agree_iff {report report' : String} : Agree (ofReport report) (ofReport report') ↔
    ofLine? (versionLine report.toList) = ofLine? (versionLine report'.toList) := by
  cases h : ofLine? (versionLine report.toList) with
  | none =>
    have hr := ofReport_eq_error_iff.mpr ⟨h, rfl⟩
    cases h' : ofLine? (versionLine report'.toList) with
    | none =>
      rw [hr, ofReport_eq_error_iff.mpr ⟨h', rfl⟩]
      exact iff_of_true (.refused _ _) rfl
    | some v' =>
      rw [hr, ofReport_eq_ok_iff.mpr h']
      exact iff_of_false nofun nofun
  | some v =>
    have hr := ofReport_eq_ok_iff.mpr h
    cases h' : ofLine? (versionLine report'.toList) with
    | none =>
      rw [hr, ofReport_eq_error_iff.mpr ⟨h', rfl⟩]
      exact iff_of_false nofun nofun
    | some v' =>
      rw [hr, ofReport_eq_ok_iff.mpr h']
      constructor
      · rintro ⟨⟩
        rfl
      · rintro ⟨⟩
        exact .version v

/-! ## The quoted text -/

/-- The quoted text begins at the first double quote and goes on to the next one. -/
theorem quoted?_append {l : List Char} (hl : '"' ∉ l) (s : List Char) :
    quoted? (l ++ '"' :: s) = some (cutAt (· == '"') s).1 := by
  have hpieces : pieces (· == '"') (l ++ '"' :: s) = l :: pieces (· == '"') s :=
    pieces_append (forall_ne_quote_iff.mpr hl) rfl s
  rw [quoted?, hpieces, List.getElem?_cons_succ, pieces]
  split <;> rfl

theorem quote_not_blank : isBlank '"' = false := by decide

/-- A line with the marker, without blanks at its ends. -/
theorem trim_marked (before rest : List Char) : trim (before ++ marker ++ rest) =
    (before ++ "version ".toList).dropWhile isBlank ++ '"' :: trimEnd rest := by
  rw [← trim_append_cons quote_not_blank, marker_eq]
  simp only [List.append_assoc, List.cons_append, List.nil_append]

theorem trimEnd_marked (before rest : List Char) :
    trimEnd (before ++ marker ++ rest) = before ++ marker ++ trimEnd rest := by
  have hquote := trimEnd_append_cons quote_not_blank (before ++ "version ".toList) rest
  simpa only [marker_eq, List.append_assoc, List.cons_append, List.nil_append] using hquote

theorem quote_not_mem_dropWhile {l : List Char} (hl : '"' ∉ l) : '"' ∉ l.dropWhile isBlank :=
  fun h => hl ((List.dropWhile_sublist _).subset h)

/-- If no double quote stands in front of the marker, the quoted text is the one behind it. -/
theorem quoted?_trim_of_not_mem {before : List Char} (h : '"' ∉ before) (rest : List Char) :
    quoted? (trim (before ++ marker ++ rest)) = quoted? ('"' :: trimEnd rest) := by
  have hword : '"' ∉ before ++ "version ".toList := by
    have hvq : '"' ∉ "version ".toList := by decide
    rw [List.mem_append, not_or]
    exact ⟨h, hvq⟩
  rw [trim_marked, quoted?_append (quote_not_mem_dropWhile hword), ← List.nil_append ('"' :: _),
    quoted?_append (List.not_mem_nil)]

/-- If a double quote stands there, the quoted text ends at the marker's own one at the latest. -/
theorem quoted?_trim_of_mem {before : List Char} (h : '"' ∈ before) (rest : List Char) :
    quoted? (trim (before ++ marker ++ rest)) = quoted? (before ++ marker) := by
  obtain ⟨l, r, rfl, hl⟩ := List.eq_append_cons_of_mem h
  have hassoc (s : List Char) : l ++ '"' :: r ++ s = l ++ '"' :: (r ++ s) := by
    rw [List.append_assoc, List.cons_append]
  have hline : trim (l ++ '"' :: r ++ marker ++ rest) =
      l.dropWhile isBlank ++ '"' :: (r ++ marker ++ trimEnd rest) := by
    rw [List.append_assoc, hassoc, trim_append_cons quote_not_blank, ← List.append_assoc,
      trimEnd_marked]
  have hmarker : '"' ∈ r ++ marker := by
    rw [marker_eq]
    simp
  rw [hline, quoted?_append (quote_not_mem_dropWhile hl), hassoc, quoted?_append hl,
    cutAt_append_fst hmarker rfl]

/-! ## Lines with the marker -/

/-- The part of a line with the marker that decides which version is read: all up to the marker
    if a double quote stands in front of that, and what follows the marker otherwise. -/
def decisive (before rest : List Char) : List Char :=
  if '"' ∈ before then before ++ marker else '"' :: trimEnd rest

theorem quoted?_decisive (before rest : List Char) :
    quoted? (trim (before ++ marker ++ rest)) = quoted? (decisive before rest) := by
  rw [decisive]
  split
  · rename_i h
    exact quoted?_trim_of_mem h rest
  · rename_i h
    exact quoted?_trim_of_not_mem h rest

/-- A line with the marker is read as a whole, but for the blanks at its ends. -/
theorem versionLine_marked {before rest : List Char} (hbefore : '\n' ∉ before)
    (hrest : '\n' ∉ rest) :
    versionLine (before ++ marker ++ rest) = trim (before ++ marker ++ rest) := by
  have hfeed : '\n' ∉ marker := by decide
  have hline : '\n' ∉ before ++ marker ++ rest := by
    simp only [List.mem_append, not_or]
    exact ⟨⟨hbefore, hfeed⟩, hrest⟩
  exact versionLine_of_marker hline ⟨before, rest, rfl⟩

theorem ofLine?_marked {before rest : List Char} (hbefore : '\n' ∉ before) (hrest : '\n' ∉ rest) :
    ofLine? (versionLine (before ++ marker ++ rest)) =
      (quoted? (decisive before rest)).bind fun q => ofNumbers? (numbers q) := by
  rw [versionLine_marked hbefore hrest, ofLine?, quoted?_decisive]
  rfl

theorem ofReport_marked_iff {before rest : List Char} (hbefore : '\n' ∉ before)
    (hrest : '\n' ∉ rest) {v : Version} :
    ofReport (String.ofList (before ++ marker ++ rest)) = .ok v ↔
      ∃ q, Quotes (decisive before rest) q ∧ ofNumbers? (numbers q) = some v := by
  rw [ofReport_eq_ok_iff, String.toList_ofList, ofLine?_marked hbefore hrest,
    Option.bind_eq_some_iff]
  simp only [quoted?_eq_some_iff]

/-- If no double quote comes first, the text in front of the marker does not matter. -/
theorem agree_marked {before rest : List Char} (hbefore : '\n' ∉ before) (hrest : '\n' ∉ rest)
    (hquote : '"' ∉ before) : Agree (ofReport (String.ofList (before ++ marker ++ rest)))
      (ofReport (String.ofList (marker ++ rest))) := by
  have halone : ofLine? (versionLine ([] ++ marker ++ rest)) = _ :=
    ofLine?_marked List.not_mem_nil hrest
  rw [List.nil_append] at halone
  rw [agree_iff, String.toList_ofList, String.toList_ofList, ofLine?_marked hbefore hrest, halone,
    decisive, decisive, if_neg hquote, if_neg List.not_mem_nil]

/-- Behind a double quote, a line is read in one way, whatever follows the marker. -/
theorem ofReport_marked_congr {before rest rest' : List Char} (hbefore : '\n' ∉ before)
    (hrest : '\n' ∉ rest) (hrest' : '\n' ∉ rest') (hquote : '"' ∈ before) {v : Version}
    (h : ofReport (String.ofList (before ++ marker ++ rest)) = .ok v) :
    ofReport (String.ofList (before ++ marker ++ rest')) = .ok v := by
  rw [ofReport_marked_iff hbefore hrest, decisive, if_pos hquote] at h
  rwa [ofReport_marked_iff hbefore hrest', decisive, if_pos hquote]

/-- A line with the marker is read as the version that its decisive part quotes.  So the text in
    front of the marker does not matter, whatever follows the marker, just if no double quote
    stands in that text. -/
theorem ofReport_prefixed {before : List Char} (hbefore : '\n' ∉ before) :
    (∀ rest v, '\n' ∉ rest → (ofReport (String.ofList (before ++ marker ++ rest)) = .ok v ↔
      ∃ q, Quotes (decisive before rest) q ∧ ofNumbers? (numbers q) = some v)) ∧
    ((∀ rest, '\n' ∉ rest → Agree (ofReport (String.ofList (before ++ marker ++ rest)))
      (ofReport (String.ofList (marker ++ rest)))) ↔ '"' ∉ before) := by
  refine ⟨fun rest v hrest => ofReport_marked_iff hbefore hrest, fun hagree hquote => ?_,
    fun hquote rest hrest => agree_marked hbefore hrest hquote⟩
  -- Two lines that are read alike behind the double quote, but not from the marker on
  have hnone : '\n' ∉ ([] : List Char) := List.not_mem_nil
  have hseven : '\n' ∉ "17\"".toList := by decide
  have hread : ofReport (String.ofList (marker ++ "17\"".toList)) = .ok ⟨17, 0⟩ := by
    decide +kernel
  have hrefused : ofReport (String.ofList (marker ++ [])) =
      .error (.unrecognizedVersion "version \"") := by decide +kernel
  have hfull := hagree _ hseven
  have hempty := hagree _ hnone
  rw [hread] at hfull
  rw [hrefused] at hempty
  generalize hr : ofReport (String.ofList (before ++ marker ++ "17\"".toList)) = r at hfull
  cases hfull with
  | version v =>
    rw [ofReport_marked_congr hbefore hseven hnone hquote hr] at hempty
    cases hempty

/-- A quoted release in front of the marker is read in place of the one behind it. -/
theorem ofReport_prefixed_vendor :
    let before := "Runtime \"1.7 or newer\": openjdk ".toList
    '\n' ∉ before ∧
      ofReport "Runtime \"1.7 or newer\": openjdk version \"17.0.2\"" = .ok ⟨7, 0⟩ := by
  intro before
  have hbefore : '\n' ∉ before := by decide
  refine ⟨hbefore, ((ofReport_prefixed hbefore).1 "17.0.2\"".toList ⟨7, 0⟩ (by decide)).mpr ?_⟩
  have hquoted : quoted? (decisive before "17.0.2\"".toList) = some "1.7 or newer".toList := by
    decide +kernel
  exact ⟨_, quoted?_eq_some_iff.mp hquoted, by decide +kernel⟩

/-- A quoted name in front of the marker hides the version behind it. -/
theorem ofReport_misses_marker :
    let before := "\"Azul\" openjdk ".toList
    let rest := "17.0.2\"".toList
    '\n' ∉ before ∧ '\n' ∉ rest ∧ ¬ marker <:+: before ∧
      ofReport (String.ofList (marker ++ rest)) = .ok ⟨17, 0⟩ ∧
      ofReport (String.ofList (before ++ marker ++ rest)) =
        .error (.unrecognizedVersion "\"Azul\" openjdk version \"17.0.2\"") ∧
      ¬ Agree (ofReport (String.ofList (before ++ marker ++ rest)))
        (ofReport (String.ofList (marker ++ rest))) := by
  intro before rest
  have hm : ¬ marker <:+: before := by
    rw [← mentions_iff]
    decide +kernel
  have halone : ofReport (String.ofList (marker ++ rest)) = .ok ⟨17, 0⟩ := by decide +kernel
  have hline : ofReport (String.ofList (before ++ marker ++ rest)) =
      .error (.unrecognizedVersion "\"Azul\" openjdk version \"17.0.2\"") := by decide +kernel
  refine ⟨by decide, by decide, hm, halone, hline, ?_⟩
  rw [hline, halone]
  nofun

end Version

end Keysmith
