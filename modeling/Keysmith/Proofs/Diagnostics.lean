import Keysmith.Proofs.ToolSteps

/-!
# What the operator sees of a failed step

The failure of a tool step gives what the child process printed as errors, without the blanks at
both ends.  What it printed otherwise is taken only if it printed no errors at all; so a line
break among the errors is enough to hide it.

* `Text.IsTrimmed.filter_eq`, `Text.IsTrimmed.eq_nil_iff`  nothing but blanks is cut off
* `Child.diagnostics_ne_empty_iff`  when a failed child process has anything to say
* `ProcessTool.answer_diagnostics`  when the failure of a step says anything, and what
* `ProcessTool.answer_says_nothing`  a child process whose words are lost
-/

namespace Keysmith

namespace Text

/-- Trimming a text cuts off nothing but blanks. -/
theorem IsTrimmed.filter_eq {s t : List Char} (h : IsTrimmed s t) :
    (t.filter fun c => !isBlank c) = s.filter fun c => !isBlank c := by
  obtain ⟨front, back, rfl, hblank⟩ := h.cut
  have hnone {l : List Char} (hl : ∀ c ∈ l, isBlank c = true) :
      (l.filter fun c => !isBlank c) = [] := by
    rw [List.filter_eq_nil_iff]
    intro c hc
    simp [hl c hc]
  have hfront := hnone fun c hc => hblank c (List.mem_append_left back hc)
  have hback := hnone fun c hc => hblank c (List.mem_append_right front hc)
  rw [List.filter_append, List.filter_append, hfront, hback, List.nil_append, List.append_nil]

/-- Nothing is left of a text just if all of it is blank. -/
theorem IsTrimmed.eq_nil_iff {s t : List Char} (h : IsTrimmed s t) :
    t = [] ↔ ∀ c ∈ s, isBlank c = true := by
  constructor
  · rintro rfl
    obtain ⟨front, back, rfl, hblank⟩ := h.cut
    rw [List.append_nil]
    exact hblank
  · intro hall
    obtain ⟨front, back, rfl, -⟩ := h.cut
    cases t with
    | nil => rfl
    | cons c t =>
      -- What is left begins with a character that is not blank
      have hc : isBlank c = false := h.first c rfl
      rw [hall c (by simp)] at hc
      cases hc

end Text

open Keysmith.Text (isBlank)
open Keysmith.Text.Utf8 (IsLossy isLossy_iff decode)

/-- Bytes that say something: they are read as a text that is not all blank. -/
def Says (bs : Bytes) : Prop :=
  ∃ printed, IsLossy bs printed ∧ ∃ c ∈ printed, isBlank c = false

theorem says_iff {bs : Bytes} : Says bs ↔ ∃ c ∈ decode bs, isBlank c = false := by
  simp only [Says, isLossy_iff, exists_eq_left]

theorem not_says_nil : ¬ Says [] := by
  rw [says_iff]
  rintro ⟨c, hc, -⟩
  have hempty : decode [] = [] := IsLossy.nil.decode_eq
  rw [hempty] at hc
  cases hc

namespace Child

/-- What a failed child process has to say holds every character that it printed there and that
    is not blank. -/
theorem Explains.filter_eq {c : Child} {text : String} (h : c.Explains text) :
    ∃ printed, IsLossy (if c.stderr = [] then c.stdout else c.stderr) printed ∧
      (text.toList.filter fun x => !isBlank x) = printed.filter fun x => !isBlank x := by
  obtain ⟨printed, hprinted, htext⟩ := h
  exact ⟨printed, hprinted, htext.filter_eq⟩

/-- A failed child process has something to say just if its errors say something, or if it
    printed none and its other output says something. -/
theorem diagnostics_ne_empty_iff {c : Child} {text : String} (h : c.Explains text) :
    text ≠ "" ↔ Says c.stderr ∨ c.stderr = [] ∧ Says c.stdout := by
  have htold : text ≠ "" ↔ Says (if c.stderr = [] then c.stdout else c.stderr) := by
    obtain ⟨printed, hprinted, htext⟩ := h
    rw [says_iff, hprinted.decode_eq, ne_eq, ← String.toList_eq_nil_iff, htext.eq_nil_iff]
    simp only [not_forall, exists_prop, Bool.not_eq_true]
  rw [htold]
  split
  · rename_i hnone
    rw [hnone]
    exact ⟨fun hout => .inr ⟨rfl, hout⟩, fun hor => (hor.resolve_left not_says_nil).2⟩
  · rename_i hsome
    exact ⟨.inl, fun hor => hor.resolve_right fun hout => hsome hout.1⟩

end Child

namespace ProcessTool

variable {τ : Type}

/-- A call fails with what its child process had to say if this did not exit with 0. -/
theorem answer_of_bad_end {launcher : Launcher τ} {p : ProcessTool} {c : ToolCall} {d : Disk}
    {m : τ} {child : Child}
    (hstarted : (launcher (c.program p) c.commandLine d m).result = .ok child)
    (hbad : child.status ≠ .exited 0) : ((p.tool launcher).answer c d m).result =
      .error (.toolFailed c.step child.status child.diagnostics) := by
  rcases answer_cases launcher p c d m with ⟨cause, hfailed, -, -⟩ |
    ⟨child', hother, -, hresult, -⟩ | ⟨child', hother, hgood, -, -⟩
  · cases hstarted.symm.trans hfailed
  · cases hstarted.symm.trans hother
    exact hresult
  · cases hstarted.symm.trans hother
    exact absurd hgood hbad

/-- For every call of the tool whose child process was started and did not exit with 0: the
    failure says something just if the child process printed errors that are not all blank, or
    printed no errors at all and something else that is not all blank.  What the failure says
    holds every character printed there that is not blank. -/
theorem answer_diagnostics (launcher : Launcher τ) (p : ProcessTool) (c : ToolCall) (d : Disk)
    (m : τ) {child : Child}
    (hstarted : (launcher (c.program p) c.commandLine d m).result = .ok child)
    (hbad : child.status ≠ .exited 0) :
    ∃ text, ((p.tool launcher).answer c d m).result =
        .error (.toolFailed c.step child.status text) ∧
      (text ≠ "" ↔ Says child.stderr ∨ child.stderr = [] ∧ Says child.stdout) ∧
      ∃ printed, IsLossy (if child.stderr = [] then child.stdout else child.stderr) printed ∧
        (text.toList.filter fun x => !isBlank x) = printed.filter fun x => !isBlank x := by
  have hexplains : child.Explains child.diagnostics := Child.explains_iff.mpr rfl
  exact ⟨child.diagnostics, answer_of_bad_end hstarted hbad,
    Child.diagnostics_ne_empty_iff hexplains, hexplains.filter_eq⟩

/-- A launcher for which every program prints the same and exits with 1. -/
def failingLauncher (stdout stderr : Bytes) : Launcher Unit := fun _ _ d m =>
  ⟨.ok ⟨.exited 1, stdout, stderr⟩, d, m, []⟩

/-- The word `no` and a line break. -/
def refusal : Bytes := [0x6E, 0x6F, 0x0A]

private theorem says_refusal : Says refusal := by
  have hread : decode refusal = ['n', 'o', '\n'] := by decide +kernel
  rw [says_iff, hread]
  exact ⟨'n', by simp, by decide⟩

/-- Without errors, the failure says what was printed otherwise. -/
theorem answer_diagnostics_stdout : ∃ text,
    ((standard.tool (failingLauncher refusal [])).answer .reportVersion
        ⟨.dir [], .root⟩ ()).result =
      .error (.toolFailed .versionProbe (.exited 1) text) ∧ text ≠ "" := by
  obtain ⟨text, hresult, htold, -⟩ := answer_diagnostics (failingLauncher refusal []) standard
    .reportVersion ⟨.dir [], .root⟩ () rfl (by decide)
  exact ⟨text, hresult, htold.mpr (.inr ⟨rfl, says_refusal⟩)⟩

/-- A line break among the errors hides what was printed otherwise: the failure says nothing. -/
theorem answer_says_nothing :
    let launcher := failingLauncher refusal [0x0A]
    (launcher "java" ["-version"] ⟨.dir [], .root⟩ ()).result =
        .ok ⟨.exited 1, refusal, [0x0A]⟩ ∧
      Says refusal ∧
      ((standard.tool launcher).answer .reportVersion ⟨.dir [], .root⟩ ()).result =
        .error (.toolFailed .versionProbe (.exited 1) "") := by
  intro launcher
  have hstarted : (launcher "java" ["-version"] ⟨.dir [], .root⟩ ()).result =
      .ok ⟨.exited 1, refusal, [0x0A]⟩ := rfl
  have hnothing : Child.diagnostics ⟨.exited 1, refusal, [0x0A]⟩ = "" := by decide +kernel
  have hfailed := answer_of_bad_end (p := standard) (c := .reportVersion) hstarted (by decide)
  rw [hnothing] at hfailed
  exact ⟨hstarted, says_refusal, hfailed⟩

end ProcessTool

end Keysmith
