import Keysmith.Proofs.VersionText
import Mathlib.Data.List.Infix

/-!
# The line of a report that is read

A report is cut into lines, the first one that holds the marker is taken, and the blank
characters at its ends are dropped.  Lines end in a line feed, with a carriage return before it
or not; `FoundAs` says how a line comes out of the cut.

* `Text.lines_append_ending`  a line with its ending is cut off
* `versionLine_of_lines`, `versionLine_of_no_marker`  which line is taken
* `ofReport_notices`  what stands on the lines before the version line and behind it does not
  matter
-/

namespace Keysmith

namespace Text

/-! ## Blank characters at the ends -/

theorem trimEnd_concat {c : Char} (hc : isBlank c = true) (s : List Char) :
    trimEnd (s ++ [c]) = trimEnd s := by
  rw [trimEnd, List.reverse_concat, List.dropWhile_cons_of_pos hc]
  rfl

theorem trim_concat {c : Char} (hc : isBlank c = true) (s : List Char) :
    trim (s ++ [c]) = trim s := by
  rw [trim, trim, List.dropWhile_append]
  split
  · rename_i hall
    rw [List.isEmpty_iff.mp hall, List.dropWhile_cons_of_pos hc]
    rfl
  · exact trimEnd_concat hc _

/-- Nothing is cut off the end in front of a character that is not blank. -/
theorem trimEnd_append_cons {c : Char} (hc : isBlank c = false) (l r : List Char) :
    trimEnd (l ++ c :: r) = l ++ c :: trimEnd r := by
  have hrev : (l ++ c :: r).reverse = r.reverse ++ c :: l.reverse := by simp
  have hkeep : (c :: l.reverse).dropWhile isBlank = c :: l.reverse :=
    List.dropWhile_cons_of_neg (by simp [hc])
  rw [trimEnd, hrev, List.dropWhile_append, hkeep]
  split
  · rename_i hall
    rw [trimEnd, List.isEmpty_iff.mp hall]
    simp
  · simp [trimEnd]

/-- Nothing is cut off on the far side of a character that is not blank. -/
theorem trim_append_cons {c : Char} (hc : isBlank c = false) (l r : List Char) :
    trim (l ++ c :: r) = l.dropWhile isBlank ++ c :: trimEnd r := by
  have hkeep : (c :: r).dropWhile isBlank = c :: r :=
    List.dropWhile_cons_of_neg (by simp [hc])
  have hdrop : (l ++ c :: r).dropWhile isBlank = l.dropWhile isBlank ++ c :: r := by
    rw [List.dropWhile_append, hkeep]
    split
    · rename_i hall
      rw [List.isEmpty_iff.mp hall, List.nil_append]
    · rfl
  rw [trim, hdrop, trimEnd_append_cons hc]

/-! ## Lines and their endings -/

/-- What ends a line. -/
inductive LineEnding : List Char → Prop
  | feed : LineEnding ['\n']
  | returnFeed : LineEnding ['\r', '\n']

/-- How a line is found in a text: as it stands there, or without a carriage return at its
    end. -/
def FoundAs (l found : List Char) : Prop :=
  found = l ∨ l = found ++ ['\r']

theorem foundAs_dropReturn (l : List Char) : FoundAs l (dropReturn l) := by
  rw [dropReturn]
  split
  · rename_i hlast
    obtain ⟨s, rfl⟩ := List.getLast?_eq_some_iff.mp hlast
    exact .inr (by rw [List.dropLast_concat])
  · exact .inl rfl

/-- The carriage return is blank, so nobody sees whether it is there. -/
theorem FoundAs.trim_eq {l found : List Char} (h : FoundAs l found) : trim found = trim l := by
  rcases h with rfl | rfl
  · rfl
  · exact (trim_concat (by decide) found).symm

/-- A line with its ending is cut off. -/
theorem lines_append_ending {l ending : List Char} (hl : '\n' ∉ l) (he : LineEnding ending)
    (rest : List Char) :
    ∃ found, FoundAs l found ∧ lines (l ++ ending ++ rest) = found :: lines rest := by
  have hne : ∀ c ∈ l, c ≠ '\n' := List.forall_mem_ne'.mpr hl
  cases he with
  | feed =>
    rw [List.append_assoc]
    exact ⟨dropReturn l, foundAs_dropReturn l, lines_append hne rest⟩
  | returnFeed =>
    -- The ending's own carriage return is the one that is dropped
    have hne' : ∀ c ∈ l ++ ['\r'], c ≠ '\n' := by
      intro c hc
      rcases List.mem_append.mp hc with hc | hc
      · exact hne c hc
      · rw [List.mem_singleton.mp hc]
        decide
    have hdrop : dropReturn (l ++ ['\r']) = l := by simp [dropReturn]
    have hcut := lines_append hne' rest
    rw [hdrop] at hcut
    exact ⟨l, .inl rfl, by simpa using hcut⟩

end Text

namespace Version

open Text

/-! ## Lines with the marker -/

theorem marker_eq : marker = "version ".toList ++ ['"'] := by decide

/-- The marker ends in a double quote, so a carriage return has no part in it. -/
theorem marker_infix_iff {l found : List Char} (h : FoundAs l found) :
    marker <:+: found ↔ marker <:+: l := by
  rcases h with rfl | rfl
  · rfl
  · rw [List.infix_concat_iff]
    have hend : ¬ marker <:+ found ++ ['\r'] := by
      intro hsuffix
      have hlast := hsuffix.getLast (by decide)
      rw [List.getLast_concat] at hlast
      exact absurd hlast (by decide)
    exact (or_iff_right hend).symm

/-- The first line with the marker is taken. -/
theorem versionLine_of_lines {report l : List Char} {before after : List (List Char)}
    (hlines : lines report = before ++ l :: after) (hbefore : ∀ x ∈ before, ¬ marker <:+: x)
    (hl : marker <:+: l) : versionLine report = trim l := by
  have hnone : before.find? (mentions marker) = none := by
    rw [List.find?_eq_none]
    intro x hx hm
    exact hbefore x hx (mentions_iff.mp hm)
  rw [versionLine, hlines, List.find?_append, hnone, Option.none_or,
    List.find?_cons_of_pos (mentions_iff.mpr hl)]
  rfl

/-- Without the marker the first line is taken, or nothing if there is none. -/
theorem versionLine_of_no_marker {report : List Char}
    (h : ∀ l ∈ lines report, ¬ marker <:+: l) :
    versionLine report = trim ((lines report).head?.getD []) := by
  have hnone : (lines report).find? (mentions marker) = none := by
    rw [List.find?_eq_none]
    intro l hl hm
    exact h l hl (mentions_iff.mp hm)
  rw [versionLine, hnone, Option.none_or]

/-! ## What a report comes to -/

theorem ofReport_eq_ok_iff {report : String} {v : Version} :
    ofReport report = .ok v ↔ ofLine? (versionLine report.toList) = some v := by
  cases h : ofLine? (versionLine report.toList) with
  | none => simp [ofReport, h]
  | some w => simp [ofReport, h]

theorem ofReport_eq_error_iff {report : String} {e : Failure} :
    ofReport report = .error e ↔ ofLine? (versionLine report.toList) = none ∧
      e = .unrecognizedVersion (String.ofList (versionLine report.toList)) := by
  cases h : ofLine? (versionLine report.toList) with
  | none => simp [ofReport, h, eq_comm]
  | some v => simp [ofReport, h]

/-- All that matters of a report is the line that is taken. -/
theorem ofReport_congr {report report' : String}
    (h : versionLine report.toList = versionLine report'.toList) :
    ofReport report = ofReport report' := by
  rw [ofReport, ofReport, h]

/-! ## Notices around the version line -/

/-- Lines without the marker, each with its ending. -/
inductive Notices : List Char → Prop
  | nil : Notices []
  | line {l ending rest : List Char} : '\n' ∉ l → ¬ marker <:+: l → LineEnding ending →
      Notices rest → Notices (l ++ ending ++ rest)

/-- What follows a line: nothing, or the line's ending and any text. -/
inductive Following : List Char → Prop
  | nothing : Following []
  | more {ending : List Char} (rest : List Char) : LineEnding ending →
      Following (ending ++ rest)

/-- Notices are cut off line by line. -/
theorem Notices.lines_append {notices : List Char} (h : Notices notices) (rest : List Char) :
    ∃ before, (∀ l ∈ before, ¬ marker <:+: l) ∧
      lines (notices ++ rest) = before ++ lines rest := by
  induction h with
  | nil => exact ⟨[], by simp, rfl⟩
  | @line l ending notices hl hm he _ ih =>
    obtain ⟨before, hbefore, hlines⟩ := ih
    obtain ⟨found, hfound, hcut⟩ := lines_append_ending hl he (notices ++ rest)
    refine ⟨found :: before, ?_, ?_⟩
    · intro x hx
      rcases List.mem_cons.mp hx with rfl | hx
      · rwa [marker_infix_iff hfound]
      · exact hbefore x hx
    · rw [List.append_assoc, hcut, hlines, List.cons_append]

/-- A line is the first one of the text that begins with it. -/
theorem Following.lines_append {after : List Char} (h : Following after) {l : List Char}
    (hl : '\n' ∉ l) (hne : l ≠ []) :
    ∃ found more, FoundAs l found ∧ lines (l ++ after) = found :: more := by
  cases h with
  | nothing =>
    have hfeed : ∀ c ∈ l, c ≠ '\n' := List.forall_mem_ne'.mpr hl
    rw [List.append_nil]
    exact ⟨l, [], .inl rfl, lines_of_forall hfeed hne⟩
  | more rest he =>
    obtain ⟨found, hfound, hcut⟩ := lines_append_ending hl he rest
    rw [← List.append_assoc]
    exact ⟨found, lines rest, hfound, hcut⟩

/-- The first line with the marker is taken from between the notices and what follows it. -/
theorem versionLine_notices {notices line after : List Char} (hn : Notices notices)
    (hline : '\n' ∉ line) (hm : marker <:+: line) (ha : Following after) :
    versionLine (notices ++ line ++ after) = trim line := by
  have hne : line ≠ [] := by
    rintro rfl
    exact absurd (List.infix_nil.mp hm) (by decide)
  obtain ⟨before, hbefore, hlines⟩ := hn.lines_append (line ++ after)
  obtain ⟨found, more, hfound, hfirst⟩ := ha.lines_append hline hne
  rw [hfirst, ← List.append_assoc] at hlines
  have hfm : marker <:+: found := (marker_infix_iff hfound).mpr hm
  rw [versionLine_of_lines hlines hbefore hfm, hfound.trim_eq]

/-- A line with the marker is its own report. -/
theorem versionLine_of_marker {line : List Char} (hline : '\n' ∉ line)
    (hm : marker <:+: line) : versionLine line = trim line := by
  have h := versionLine_notices .nil hline hm .nothing
  rwa [List.nil_append, List.append_nil] at h

/-- A report comes to what its first line with the marker says: neither the notices before that
    line nor the text behind it change its version, hide it, or make up for a line that cannot
    be read. -/
theorem ofReport_notices {notices line after : List Char} (hn : Notices notices)
    (hline : '\n' ∉ line) (hm : marker <:+: line) (ha : Following after) :
    let report := String.ofList (notices ++ line ++ after)
    ofReport report = ofReport (String.ofList line) ∧
      (∀ v, ofReport report = .ok v ↔ ofLine? (trim line) = some v) ∧
      ∀ e, ofReport report = .error e ↔
        ofLine? (trim line) = none ∧ e = .unrecognizedVersion (String.ofList (trim line)) := by
  intro report
  have htaken : versionLine report.toList = trim line := by
    rw [String.toList_ofList]
    exact versionLine_notices hn hline hm ha
  have halone : versionLine (String.ofList line).toList = trim line := by
    rw [String.toList_ofList]
    exact versionLine_of_marker hline hm
  refine ⟨ofReport_congr (htaken.trans halone.symm), fun v => ?_, fun e => ?_⟩
  · rw [ofReport_eq_ok_iff, htaken]
  · rw [ofReport_eq_error_iff, htaken]

/-- An old runtime's report, behind a notice that quotes a newer version and an empty line, and
    before a line that reports a newer version. -/
theorem ofReport_notices_old_runtime :
    let notices := "Picked up _JAVA_OPTIONS: -Dname=\"17.0.2\"".toList ++ ['\r', '\n'] ++
      ([] ++ ['\n'] ++ [])
    let line := "java version \"1.7.0_80\"\r".toList
    let after := ['\n'] ++ "openjdk version \"17.0.2\"\n".toList
    Notices notices ∧ '\n' ∉ line ∧ marker <:+: line ∧ Following after ∧
      ofReport (String.ofList (notices ++ line ++ after)) = .ok ⟨7, 0⟩ := by
  intro notices line after
  have hempty : Notices ([] ++ ['\n'] ++ []) :=
    .line (by decide) (by rw [← mentions_iff]; decide) .feed .nil
  have hnotices : Notices notices :=
    .line (by decide +kernel) (by rw [← mentions_iff]; decide +kernel) .returnFeed hempty
  have hline : '\n' ∉ line := by decide +kernel
  have hm : marker <:+: line := mentions_iff.mp (by decide +kernel)
  have hafter : Following after := .more _ .feed
  have hread : ofLine? (trim line) = some ⟨7, 0⟩ := by decide +kernel
  exact ⟨hnotices, hline, hm, hafter,
    ((ofReport_notices hnotices hline hm hafter).2.1 ⟨7, 0⟩).mpr hread⟩

end Version

end Keysmith
