import Keysmith.Proofs.ChildProcesses
import Keysmith.Proofs.LossyText
import Keysmith.Proofs.VersionLine
import Keysmith.Proofs.WriteOutcome
import Mathlib.Data.List.TakeWhile

/-!
# What becomes of a tool step

A tool step is a child process and what is made of it.  The step fails for want of the child
process, or by the way the child process ended, or it goes on with what was printed.

* `Disk.write_holds`       a file that was written is found with what was written
* `Text.isTrimmed_iff`     cutting blanks off both ends
* `Child.explains_iff`     what a failed child process has to say
* `ProcessTool.answer_cases`  the child process of a call, and what is done after it
* `ProcessTool.answer_outcome`  the outcome of every call, for every end of its child process
-/

namespace Keysmith

/-! ## Written files -/

namespace Disk

/-- A path leads to a file that holds just this content. -/
def Holds (d : Disk) (path : String) (content : Bytes) : Prop :=
  ∃ place mode, d.find .follow path = .ok (.ofPlace place) ∧
    d.root.at? place = some (.file content mode)

/-- From a removed directory, steps lead out to a place at which the rest begins, or they end
    before that; which of both does not depend on what the disk holds. -/
theorem follow_climbs (s : Spot) (steps : List String) :
    (∃ here rest, ∀ (d : Disk) last links,
      d.follow last links s steps = d.follow last links (.ofPlace here) rest) ∨
    ∃ r, (∀ t name, r ≠ .ok (.vacant t name)) ∧
      ∀ (d : Disk) last links, d.follow last links s steps = r := by
  -- On the steps: each of them stays, goes up by one level, or fails for want of an entry
  induction steps generalizing s with
  | nil => exact .inr ⟨.ok (.at s), by simp, fun d last links => by rw [follow]⟩
  | cons step rest ih =>
    obtain ⟨place, removed⟩ := s
    cases removed with
    | zero => exact .inl ⟨place, step :: rest, fun _ _ _ => rfl⟩
    | succ n =>
      have hsome (d : Disk) : ¬ (d.entries? ⟨place, n + 1⟩).isNone = true := by
        simp [entries?, node?, Node.entries?]
      by_cases hdot : step = "."
      · subst hdot
        have hstep (d : Disk) last links : d.follow last links ⟨place, n + 1⟩ ("." :: rest) =
            d.follow last links ⟨place, n + 1⟩ rest := by
          rw [follow, if_neg (hsome d), if_pos rfl]
        simpa only [hstep] using ih ⟨place, n + 1⟩
      · by_cases hup : step = ".."
        · subst hup
          have hstep (d : Disk) last links : d.follow last links ⟨place, n + 1⟩ (".." :: rest) =
              d.follow last links ⟨place, n⟩ rest := by
            rw [follow, if_neg (hsome d), if_neg (by decide), if_pos rfl]
            rfl
          simpa only [hstep] using ih ⟨place, n⟩
        · -- A removed directory has no entry of any name
          refine .inr ⟨.error .noEntry, by simp, fun d last links => ?_⟩
          rw [follow, if_neg (hsome d), if_neg hdot, if_neg hup]
          simp [lookup?, entries?, node?, Node.entries?]

/-- Where a path breaks off, a new file is what the path leads to. -/
theorem reachPath_insert {d : Disk} {p : Path} {t : Spot} {name : String} (mode : Mode)
    (h : d.reachPath .follow p = .ok (.vacant t name)) :
    let made := d.insert t.place name (.file [] mode)
    made.reachPath .follow p = .ok (.at (.ofPlace (t.place ++ [name]))) ∧
      made.root.kindAt (t.place ++ [name]) = some (.file [] mode) := by
  intro made
  rw [reachPath] at h
  -- The working directory may have been removed, and then the path has to climb out first
  rcases follow_climbs (start p d.cwd) p.walk with ⟨here, rest, heq⟩ | ⟨r, hr, heq⟩
  · rw [heq] at h
    obtain ⟨q, rfl, hq⟩ := breaksOff_of_follow h
    obtain ⟨hkind, n, hn, hlead⟩ := hq.insert mode
    refine ⟨?_, (hkind _).trans (if_pos rfl)⟩
    exact (heq made _ _).trans (follow_eq_at_iff.mpr ⟨n, _, hn, rfl, hlead⟩)
  · rw [heq] at h
    exact absurd h (hr t name)

/-- A file opened for writing is what the path leads to by then. -/
theorem reachPath_of_openForWriting {d : Disk} {mode : Mode} {path : String} {o : Disk × Place}
    (ho : d.openForWriting mode path = .ok o) :
    ∃ p, pathOf path = .ok p ∧ o.1.reachPath .follow p = .ok (.at (.ofPlace o.2)) ∧
      ∃ content held, o.1.root.kindAt o.2 = some (.file content held) := by
  rw [openForWriting] at ho
  cases hp : pathOf path with
  | error e => simp [hp, bind, Except.bind] at ho
  | ok p =>
    refine ⟨p, rfl, ?_⟩
    simp only [hp, bind, Except.bind] at ho
    split at ho
    · -- A path that asks for a directory opens no file
      split at ho <;> cases ho
    · cases hr : d.reachPath .follow p with
      | error e => simp [hr, Except.mapError] at ho
      | ok r =>
        simp only [hr, Except.mapError] at ho
        cases r with
        | vacant t name =>
          cases ho
          obtain ⟨hreach, hkind⟩ := reachPath_insert mode hr
          exact ⟨hreach, _, _, hkind⟩
        | «at» t =>
          dsimp only at ho
          split at ho
          · rename_i content held hfile
            split at ho
            · cases ho
              -- What a removed directory looks like is no file
              obtain ⟨place, removed⟩ := t
              cases removed with
              | zero => exact ⟨hr, content, held, Node.kindAt_eq_file_iff.mpr hfile⟩
              | succ n => cases hfile
            · cases ho
          · cases ho

/-- Another content leaves the outline of a disk as it is. -/
theorem sameOutline_setContent {d : Disk} {place : Place} {content : Bytes} {mode : Mode}
    (h : d.root.kindAt place = some (.file content mode)) (change : Bytes → Bytes) :
    SameOutline (d.setContent place change) d := by
  refine ⟨rfl, fun q => ?_⟩
  rw [kindAt_setContent h]
  split
  · rename_i heq
    rw [heq, h]
    rfl
  · rfl

/-- A file that was written is found where the path leads, with what was written. -/
theorem write_holds {d d' : Disk} {path : String} {content : Bytes}
    (hw : d.write path content = .ok d') : d'.Holds path content := by
  rw [write] at hw
  cases ho : d.openForWriting .data path with
  | error e => simp [ho, bind, Except.bind] at hw
  | ok o =>
    simp only [ho, bind, Except.bind, Except.ok.injEq] at hw
    subst hw
    obtain ⟨p, hp, hreach, old, held, hfile⟩ := reachPath_of_openForWriting ho
    have hsame := sameOutline_setContent hfile fun _ => content
    refine ⟨o.2, held, ?_, Node.kindAt_eq_file_iff.mp ?_⟩
    · simp only [find, hp, bind, Except.bind, findPath, hsame.reachPath_congr, hreach]
      rfl
    · rw [kindAt_setContent hfile, if_pos rfl]

end Disk

/-! ## What a child process has to say -/

namespace Text

/-- A text without the blank characters at its ends: what is cut off is blank, and what is left
    has no blank character at either end. -/
structure IsTrimmed (s t : List Char) : Prop where
  cut : ∃ front back, s = front ++ t ++ back ∧ ∀ c ∈ front ++ back, isBlank c = true
  first : ∀ c ∈ t.head?, isBlank c = false
  last : ∀ c ∈ t.getLast?, isBlank c = false

theorem trimEnd_eq_self {t : List Char} (h : ∀ c ∈ t.getLast?, isBlank c = false) :
    trimEnd t = t := by
  rcases List.eq_nil_or_concat t with rfl | ⟨init, c, rfl⟩
  · rfl
  · rw [List.concat_eq_append] at h ⊢
    exact trimEnd_append_cons (h c (by simp)) init []

theorem trimEnd_append_of_blank {back : List Char} (h : ∀ c ∈ back, isBlank c = true)
    (t : List Char) : trimEnd (t ++ back) = trimEnd t := by
  induction back using List.reverseRecOn with
  | nil => rw [List.append_nil]
  | append_singleton back c ih =>
    rw [← List.append_assoc, trimEnd_concat (h c (by simp))]
    exact ih fun x hx => h x (List.mem_append_left _ hx)

theorem isTrimmed_trim (s : List Char) : IsTrimmed s (trim s) := by
  generalize hrest : s.dropWhile isBlank = rest
  have hfront : s = s.takeWhile isBlank ++ rest := by
    rw [← hrest, List.takeWhile_append_dropWhile]
  have hback : rest = trimEnd rest ++ (rest.reverse.takeWhile isBlank).reverse := by
    rw [trimEnd, ← List.reverse_append, List.takeWhile_append_dropWhile, List.reverse_reverse]
  rw [trim, hrest]
  refine ⟨⟨s.takeWhile isBlank, (rest.reverse.takeWhile isBlank).reverse, ?_, ?_⟩, ?_,
    fun c hc => trimEnd_last hc⟩
  · rw [List.append_assoc, ← hback, ← hfront]
  · intro c hc
    rcases List.mem_append.mp hc with hc | hc
    · exact List.mem_takeWhile_imp hc
    · exact List.mem_takeWhile_imp (List.mem_reverse.mp hc)
  · -- The first character left is the first one behind the blanks in front
    intro c hc
    have hhead : rest.head? = some c := by
      rw [hback, List.head?_append, hc]
      rfl
    have hnot := List.head?_dropWhile_not isBlank s
    rw [hrest, hhead] at hnot
    simpa using hnot

/-- A text is trimmed in one way, which is what `trim` does. -/
theorem isTrimmed_iff {s t : List Char} : IsTrimmed s t ↔ t = trim s := by
  refine ⟨fun ⟨⟨front, back, hs, hblank⟩, hfirst, hlast⟩ => ?_, fun h => h ▸ isTrimmed_trim s⟩
  have hfront : ∀ c ∈ front, isBlank c = true := fun c hc =>
    hblank c (List.mem_append_left _ hc)
  have hback : ∀ c ∈ back, isBlank c = true := fun c hc =>
    hblank c (List.mem_append_right _ hc)
  rw [hs, List.append_assoc, trim, List.dropWhile_append_of_pos hfront]
  cases t with
  | nil =>
    -- Nothing is left, so all of the text is blank
    rw [List.nil_append, List.dropWhile_eq_nil_iff.mpr hback]
    rfl
  | cons c t =>
    -- The first character left ends the cut in front, and the last one that behind
    rw [List.cons_append, List.dropWhile_cons_of_neg (by simp [hfirst c rfl]), ← List.cons_append,
      trimEnd_append_of_blank hback, trimEnd_eq_self hlast]

end Text

open Keysmith.Text.Utf8 (IsLossy isLossy_iff)

namespace Child

/-- What a failed child process has to say: the text of what it printed as errors, or of what it
    printed otherwise if that is empty, without the blanks at both ends. -/
def Explains (c : Child) (text : String) : Prop :=
  ∃ printed, IsLossy (if c.stderr = [] then c.stdout else c.stderr) printed ∧
    Text.IsTrimmed printed text.toList

/-- A child process has one thing to say. -/
theorem explains_iff {c : Child} {text : String} : c.Explains text ↔ text = c.diagnostics := by
  simp only [Explains, isLossy_iff, Text.isTrimmed_iff, exists_eq_left, diagnostics, report,
    List.isEmpty_iff]
  constructor
  · intro h
    rw [← h, String.ofList_toList]
  · intro h
    rw [h, String.toList_ofList]

end Child

/-! ## Calls -/

namespace ToolCall

/-- The program that a call starts. -/
def program (p : ProcessTool) : ToolCall → String
  | reportVersion => p.java
  | generateKeypair _ | exportCertificate _ | importCertificate _ => p.keytool

/-- The arguments with which it is started. -/
def commandLine : ToolCall → List String
  | reportVersion => ["-version"]
  | c => c.arguments

/-- What is left to do when the child process of a call has ended well: its result, and the disk
    afterwards. -/
def finish (child : Child) (d : Disk) : ToolCall → Except Failure Unit × Disk
  | reportVersion => ((Version.ofReport (String.ofList child.report)).map fun _ => (), d)
  | exportCertificate r =>
    match d.write r.dest child.stdout with
    | .error cause => (.error (.writeArtifact r.dest cause), d)
    | .ok written => (.ok (), written)
  | generateKeypair _ | importCertificate _ => (.ok (), d)

/-- What is left to do fails for reasons of its own. -/
theorem finish_error {c : ToolCall} {child : Child} {d : Disk} {e : Failure}
    (h : (c.finish child d).1 = .error e) :
    (∃ line, e = .unrecognizedVersion line) ∨ ∃ path cause, e = .writeArtifact path cause := by
  cases c with
  | reportVersion =>
    simp only [finish, Version.ofReport] at h
    split at h
    · cases h
    · cases h
      exact .inl ⟨_, rfl⟩
  | exportCertificate r =>
    simp only [finish] at h
    split at h
    · cases h
      exact .inr ⟨_, _, rfl⟩
    · cases h
  | generateKeypair r => cases h
  | importCertificate r => cases h

/-- The certificate is in its file if all went well. -/
theorem finish_export {r : ExportRequest} {child : Child} {d : Disk}
    (h : ((exportCertificate r).finish child d).1 = .ok ()) :
    ((exportCertificate r).finish child d).2.Holds r.dest child.stdout := by
  simp only [finish] at h ⊢
  split at h
  · cases h
  · rename_i hwritten
    exact Disk.write_holds hwritten

end ToolCall

namespace KeyTool

/-- Make a call; the version that is reported is left out. -/
def answer {τ : Type} (tool : KeyTool τ) : ToolCall → Action τ Failure Unit
  | .reportVersion => do let _ ← tool.reportVersion
  | .generateKeypair r => tool.generateKeypair r
  | .exportCertificate r => tool.exportCertificate r
  | .importCertificate r => tool.importCertificate r

end KeyTool

namespace ProcessTool

variable {τ : Type}

/-- A call is its child process, and what is left to do if that ended well. -/
theorem answer_eq (launcher : Launcher τ) (p : ProcessTool) (c : ToolCall) (d : Disk) (m : τ) :
    let started := launcher (c.program p) c.commandLine d m
    let o := (p.tool launcher).answer c d m
    (o.result, o.disk) = match verdict c.step (c.program p) started.result with
      | .error e => (.error e, started.disk)
      | .ok child => c.finish child started.disk := by
  intro started o
  generalize hv : verdict c.step (c.program p) started.result = v
  cases c with
  | reportVersion =>
    change verdict .versionProbe p.java (launcher p.java ["-version"] d m).result = v at hv
    have ho : o = _ := bind_ofExcept (p.tool launcher).reportVersion (fun _ => .ok ()) d m
    rw [ho, reportVersion_eq, spawn_eq]
    simp only [hv]
    cases v with
    | error e => rfl
    | ok child =>
      simp only [Except.bind, ToolCall.finish]
      cases Version.ofReport (String.ofList child.report) <;> rfl
  | generateKeypair r =>
    change verdict .keypairGeneration p.keytool
      (launcher p.keytool r.arguments d m).result = v at hv
    have ho : o = _ := generateKeypair_eq launcher p r d m
    rw [ho, run_eq]
    simp only [hv]
    cases v <;> rfl
  | exportCertificate r =>
    change verdict .certificateExport p.keytool
      (launcher p.keytool r.arguments d m).result = v at hv
    have ho : o = _ := exportCertificate_eq launcher p r d m
    rw [ho, run_eq]
    simp only [hv]
    cases v with
    | error e => rfl
    | ok child =>
      change _ = ToolCall.finish child (launcher p.keytool r.arguments d m).disk _
      simp only [ToolCall.finish]
      cases (launcher p.keytool r.arguments d m).disk.write r.dest child.stdout <;> rfl
  | importCertificate r =>
    change verdict .certificateImport p.keytool
      (launcher p.keytool r.arguments d m).result = v at hv
    have ho : o = _ := importCertificate_eq launcher p r d m
    rw [ho, run_eq]
    simp only [hv]
    cases v <;> rfl

/-- A call ends in one of three ways: its program could not be started, or it ended badly, or it
    ended well and the rest was done. -/
theorem answer_cases (launcher : Launcher τ) (p : ProcessTool) (c : ToolCall) (d : Disk) (m : τ) :
    let started := launcher (c.program p) c.commandLine d m
    let o := (p.tool launcher).answer c d m
    (∃ cause, started.result = .error cause ∧ o.result = .error (.spawn (c.program p) cause) ∧
      o.disk = started.disk) ∨
    (∃ child, started.result = .ok child ∧ child.status ≠ .exited 0 ∧
      o.result = .error (.toolFailed c.step child.status child.diagnostics) ∧
      o.disk = started.disk) ∨
    ∃ child, started.result = .ok child ∧ child.status = .exited 0 ∧
      o.result = (c.finish child started.disk).1 ∧ o.disk = (c.finish child started.disk).2 := by
  intro started o
  have ho : (o.result, o.disk) = _ := answer_eq launcher p c d m
  cases hstarted : started.result with
  | error cause =>
    rw [hstarted] at ho
    exact .inl ⟨cause, rfl, congrArg Prod.fst ho, congrArg Prod.snd ho⟩
  | ok child =>
    rw [hstarted] at ho
    by_cases hstatus : child.status = .exited 0
    · rw [verdict_eq_ok_iff.mpr ⟨rfl, hstatus⟩] at ho
      exact .inr (.inr ⟨child, rfl, hstatus, congrArg Prod.fst ho, congrArg Prod.snd ho⟩)
    · rw [verdict_eq_error hstatus] at ho
      exact .inr (.inl ⟨child, rfl, hstatus, congrArg Prod.fst ho, congrArg Prod.snd ho⟩)

/-- Every call of the tool, for every end of its child process: it fails for want of the child
    process just if this could not be started, and then it names its own program; it fails as a
    step just if the child process was started and did not exit with 0, and then it names its own
    step, that end and what the child process had to say.  Otherwise a key pair or a trusting
    keystore is made.  An export does nothing to the disk unless the child process exited with 0,
    and if it succeeds, its file holds what the child process printed. -/
theorem answer_outcome (launcher : Launcher τ) (p : ProcessTool) (c : ToolCall) (d : Disk)
    (m : τ) :
    let started := launcher (c.program p) c.commandLine d m
    let o := (p.tool launcher).answer c d m
    (∀ program cause, o.result = .error (.spawn program cause) ↔
      program = c.program p ∧ started.result = .error cause) ∧
    (∀ child, started.result = .ok child → child.status ≠ .exited 0 → ∃ text,
      child.Explains text ∧ o.result = .error (.toolFailed c.step child.status text)) ∧
    (∀ step status text, o.result = .error (.toolFailed step status text) → ∃ child,
      started.result = .ok child ∧ child.status ≠ .exited 0 ∧
        step = c.step ∧ status = child.status ∧ child.Explains text) ∧
    (∀ child, started.result = .ok child → child.status = .exited 0 →
      c.step = .keypairGeneration ∨ c.step = .certificateImport → o.result = .ok ()) ∧
    (∀ r, c = .exportCertificate r →
      ((∀ child, started.result = .ok child → child.status ≠ .exited 0) →
        o.disk = started.disk) ∧
      (o.result = .ok () → ∃ child, started.result = .ok child ∧
        o.disk.Holds r.dest child.stdout)) := by
  intro started o
  rcases answer_cases launcher p c d m with ⟨cause, hstarted, hresult, hdisk⟩ |
    ⟨child, hstarted, hstatus, hresult, hdisk⟩ | ⟨child, hstarted, hstatus, hresult, hdisk⟩
  · -- The program could not be started
    change started.result = _ at hstarted
    change o.result = _ at hresult
    rw [hstarted, hresult]
    refine ⟨fun program cause' => ?_, nofun, nofun, nofun, fun r hr => ⟨fun _ => hdisk, nofun⟩⟩
    simp [eq_comm]
  · -- The child process ended badly
    change started.result = _ at hstarted
    change o.result = _ at hresult
    rw [hstarted, hresult]
    refine ⟨fun program cause => by simp, ?_, ?_, ?_, fun r hr => ⟨fun _ => hdisk, nofun⟩⟩
    · rintro _ ⟨⟩ -
      exact ⟨_, Child.explains_iff.mpr rfl, rfl⟩
    · rintro step status text ⟨⟩
      exact ⟨child, rfl, hstatus, rfl, rfl, Child.explains_iff.mpr rfl⟩
    · rintro _ ⟨⟩ hgood
      exact absurd hgood hstatus
  · -- The child process ended well
    change started.result = _ at hstarted
    change o.result = _ at hresult
    change o.disk = _ at hdisk
    rw [hstarted]
    -- From here on the call fails for reasons of its own only
    have hown {e : Failure} (he : o.result = .error e) := ToolCall.finish_error (hresult ▸ he)
    refine ⟨fun program cause => ?_, ?_, ?_, ?_, ?_⟩
    · simp only [reduceCtorEq, and_false, iff_false]
      intro he
      rcases hown he with ⟨line, hline⟩ | ⟨path, cause, hpath⟩
      · cases hline
      · cases hpath
    · rintro _ ⟨⟩ hbad
      exact absurd hstatus hbad
    · intro step status text he
      rcases hown he with ⟨line, hline⟩ | ⟨path, cause, hpath⟩
      · cases hline
      · cases hpath
    · -- A call that makes a store is over when its child process is
      rintro _ - - hstep
      rw [hresult]
      cases c with
      | generateKeypair r => rfl
      | importCertificate r => rfl
      | reportVersion => simp [ToolCall.step] at hstep
      | exportCertificate r => simp [ToolCall.step] at hstep
    · rintro r rfl
      refine ⟨fun hbad => absurd hstatus (hbad child rfl), fun hok => ⟨child, rfl, ?_⟩⟩
      rw [hdisk]
      exact ToolCall.finish_export (hresult ▸ hok)

/-- A launcher for which the key-management program prints the byte `0xFF`, which is no text, and
    each other program is killed after it printed the same between blanks as an error. -/
def noisyLauncher : Launcher Unit := fun program _ d m =>
  let child : Child :=
    if program = "keytool" then ⟨.exited 0, [0xFF], []⟩
    else ⟨.signalled 9, [0x2E], [0x20, 0xFF, 0x0A]⟩
  ⟨.ok child, d, m, []⟩

private theorem write_bareRoot : Disk.write ⟨.dir [], .root⟩ "server.pem" [0xFF] =
    .ok ⟨.dir [("server.pem", .file [0xFF] .data)], .root⟩ := by
  have hpath : Disk.pathOf "server.pem" = .ok ⟨false, ["server.pem"], false⟩ := by decide +kernel
  have hfree : Disk.IsFree ⟨.dir [], .root⟩ ⟨false, ["server.pem"], false⟩ [] "server.pem" :=
    ⟨⟨rfl, 0, Nat.zero_le _, .done⟩, rfl, ⟨by decide, by decide, by decide⟩, rfl⟩
  exact Disk.write_of_isFree ⟨rfl, rfl⟩ hpath rfl hfree [0xFF]

/-- The byte is replaced in the message, but stays what it is in the file. -/
theorem answer_outcome_noisy :
    let d : Disk := ⟨.dir [], .root⟩
    let r : ExportRequest := ⟨"server.jks", ⟨"pass"⟩, "server", "server.pem"⟩
    let tool := standard.tool noisyLauncher
    (tool.answer .reportVersion d ()).result =
        .error (.toolFailed .versionProbe (.signalled 9) "\uFFFD") ∧
      (tool.answer (.exportCertificate r) d ()).disk.Holds "server.pem" [0xFF] := by
  intro d r tool
  constructor
  · obtain ⟨-, hfailed, -⟩ := answer_outcome noisyLauncher standard .reportVersion d ()
    obtain ⟨text, htext, hresult⟩ := hfailed _ rfl (by decide)
    have hreplaced : Child.diagnostics ⟨.signalled 9, [0x2E], [0x20, 0xFF, 0x0A]⟩ = "\uFFFD" := by
      decide +kernel
    rw [Child.explains_iff.mp htext] at hresult
    exact hresult.trans (congrArg _ (congrArg _ hreplaced))
  · obtain ⟨-, -, -, -, hexport⟩ :=
      answer_outcome noisyLauncher standard (.exportCertificate r) d ()
    have hok : (tool.answer (.exportCertificate r) d ()).result = .ok () := by
      have ho := congrArg Prod.fst (answer_eq noisyLauncher standard (.exportCertificate r) d ())
      refine ho.trans ?_
      change (ToolCall.finish ⟨.exited 0, [0xFF], []⟩ d (.exportCertificate r)).1 = _
      rw [ToolCall.finish, write_bareRoot]
    obtain ⟨child, ⟨⟩, hholds⟩ := (hexport r rfl).2 hok
    exact hholds

end ProcessTool

end Keysmith
