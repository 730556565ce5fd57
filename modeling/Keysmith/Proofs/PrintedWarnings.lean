import Keysmith.Proofs.FileWriting
import Keysmith.Proofs.ProgramEnd
import Keysmith.Proofs.ServerNaming

/-!
# Which warnings the program prints

A run whose runtime is too old goes on with a warning.  The program prints the warnings of a run
when the run has ended well, each on a line with a mark of its own; of a run that fails it prints
the failure alone.

* `Step.follows`         the version that was found out stays with the run to its end
* `exists_versed`        what a run ends with goes back to the version that it came by
* `run_prints_warnings`  the warning of a downgraded run is printed just if the run succeeds
* `run_drops_warning`    if a later step fails, it is not
-/

namespace Keysmith.CommandLine

open Provision

variable {τ : Type}

/-! ## Marked lines -/

/-- What a warning begins with in the program's output. -/
def warningMark : String := "/!\\ "

/-- The lines of a text that are marked as warnings. -/
def markedLines (text : String) : List String :=
  ((Text.lines text.toList).filter warningMark.toList.isPrefixOf).map String.ofList

/-- The written form of a version has no line break and no carriage return. -/
theorem not_break_of_mem_chars {v : Version} {c : Char} (h : c ∈ v.chars) :
    c ≠ '\n' ∧ c ≠ '\r' := by
  have hdigit (hc : c.isDigit = true) : c ≠ '\n' ∧ c ≠ '\r' := by
    constructor <;> rintro rfl <;> simp [Char.isDigit] at hc
  rw [Version.chars, List.mem_append, List.mem_cons] at h
  rcases h with h | rfl | h
  · exact hdigit (Text.Decimal.isDigit_of_mem_digits h)
  · decide
  · exact hdigit (Text.Decimal.isDigit_of_mem_digits h)

/-- The warning is one line. -/
theorem downgradeWarning_oneLine (v : Version) :
    ∀ c ∈ (downgradeWarning v).toList, c ≠ '\n' ∧ c ≠ '\r' := by
  have hchars : v.text.toList = v.chars := String.toList_ofList
  have hfixed {s : String} (h : (s.toList.all fun c => c != '\n' && c != '\r') = true) :
      ∀ c ∈ s.toList, c ≠ '\n' ∧ c ≠ '\r' := by
    simpa [List.all_eq_true] using h
  intro c hc
  rw [downgradeWarning] at hc
  simp only [String.toList_append, toString, hchars, List.mem_append, or_assoc] at hc
  rcases hc with hc | hc | hc | hc | hc
  · exact hfixed (by decide +kernel) c hc
  · exact not_break_of_mem_chars hc
  · exact hfixed (by decide +kernel) c hc
  · exact hfixed (by decide +kernel) c hc
  · exact hfixed (by decide +kernel) c hc

/-- A marked line is found again. -/
theorem markedLines_line {w : String} (h : ∀ c ∈ w.toList, c ≠ '\n' ∧ c ≠ '\r') :
    markedLines (warningMark ++ w ++ "\n") = [warningMark ++ w] := by
  have hmark : ∀ c ∈ (warningMark ++ w).toList, c ≠ '\n' ∧ c ≠ '\r' := by
    intro c hc
    rw [String.toList_append, List.mem_append] at hc
    rcases hc with hc | hc
    · revert c
      simp [warningMark]
    · exact h c hc
  have hreturn : Text.dropReturn (warningMark ++ w).toList = (warningMark ++ w).toList :=
    if_neg fun hlast => (hmark _ (List.mem_of_getLast? hlast)).2 rfl
  have hlines : Text.lines (warningMark ++ w ++ "\n").toList = [(warningMark ++ w).toList] := by
    rw [String.toList_append, show "\n".toList = '\n' :: [] from rfl,
      Text.lines_append fun c hc => (hmark c hc).1, hreturn, Text.lines_nil]
  have hmarked : warningMark.toList.isPrefixOf (warningMark ++ w).toList = true := by
    rw [List.isPrefixOf_iff_prefix, String.toList_append]
    exact List.prefix_append _ _
  rw [markedLines, hlines, List.filter_cons_of_pos hmarked]
  simp

/-! ## The version that a run came by -/

/-- A point of a run that goes on with a version, or has ended with what that version leads to. -/
def Point.Follows (o : Options) (version : Option Version) : Point → Prop
  | started => False
  | emptied => False
  | versed v => v = version
  | named v _ => v = version
  | paired v _ => v = version
  | exported v _ _ => v = version
  | written v _ => v = version
  | finished p => ∃ san, p = made o version san
  | failed _ => True

section Machine

variable {launcher : Launcher τ} {source : AddressSource τ} {o : Options} {s s' : State τ}
  {d d' : Disk} {m m' : τ} {version : Option Version}

/-- A run goes on with the version that it has. -/
theorem Step.follows (h : Step launcher source o s s') (hs : s.point.Follows o version) :
    s'.point.Follows o version := by
  cases h with
  | reset | resetFails | unasked | versed | unreadable | unreported => exact hs.elim
  | imported =>
    obtain rfl := hs
    exact ⟨_, rfl⟩
  | unplain | unlocated | unpaired | unexported | unwritten | unimported => trivial
  | _ => exact hs

theorem Reaches.follows (h : Reaches launcher source o s s') (hs : s.point.Follows o version) :
    s'.point.Follows o version := by
  induction h with
  | refl => exact hs
  | tail _ hstep ih => exact hstep.follows ih

/-- A run that has gone further than the output directory has come by a version, or by none, and
    has gone on with it. -/
theorem exists_versed (h : Reaches launcher source o ⟨.started, d, m⟩ s) :
    s.point = .started ∨ s.point = .emptied ∨ (∃ e, s.point = .failed e) ∨
      ∃ version d' m', Reaches launcher source o ⟨.started, d, m⟩ ⟨.versed version, d', m'⟩ ∧
        s.point.Follows o version := by
  induction h with
  | refl => exact .inl rfl
  | @tail s s' hreach hstep ih =>
    rcases ih with hstarted | hemptied | ⟨e, hfailed⟩ | ⟨version, d', m', hversed, hfollows⟩
    · -- The first step is the reset
      cases hstep with
      | reset => exact .inr (.inl rfl)
      | resetFails => exact .inr (.inr (.inl ⟨_, rfl⟩))
      | _ => cases hstarted
    · -- The second step settles the version
      have hto {version : Option Version} {d' : Disk} {m' : τ}
          (hs' : s' = ⟨.versed version, d', m'⟩) :
          ∃ version d' m', Reaches launcher source o ⟨.started, d, m⟩ ⟨.versed version, d', m'⟩ ∧
            s'.point.Follows o version := by
        subst hs'
        exact ⟨_, _, _, hreach.tail hstep, rfl⟩
      cases hstep with
      | unasked => exact .inr (.inr (.inr (hto rfl)))
      | versed => exact .inr (.inr (.inr (hto rfl)))
      | unreadable => exact .inr (.inr (.inl ⟨_, rfl⟩))
      | unreported => exact .inr (.inr (.inl ⟨_, rfl⟩))
      | _ => cases hemptied
    · cases hstep <;> cases hfailed
    · exact .inr (.inr (.inr ⟨_, _, _, hversed, hstep.follows hfollows⟩))

/-- Only the automatic policy comes by a version. -/
theorem auto_of_versed {v : Version}
    (h : Reaches launcher source o ⟨.started, d, m⟩ ⟨.versed (some v), d', m'⟩) :
    o.san = .auto := by
  rcases h.cases_tail with heq | ⟨s, -, hstep⟩
  · cases heq
  · cases hstep with
    | versed hauto => exact hauto

/-- A run that ends well ends with what its version leads to. -/
theorem made_of_versed {p : Provisioned} {d₁ : Disk} {m₁ : τ}
    (hv : Reaches launcher source o ⟨.started, d, m⟩ ⟨.versed version, d₁, m₁⟩)
    (hp : Reaches launcher source o ⟨.started, d, m⟩ ⟨.finished p, d', m'⟩) :
    ∃ san, p = made o version san := by
  -- Both go on to the end of the run, and there is only one
  obtain ⟨⟨point, d₂, m₂⟩, hreach, hzero⟩ := exists_end launcher source o ⟨.versed version, d₁, m₁⟩
  have hend := hp.ending_eq.symm.trans (hv.ending_eq.trans hreach.ending_eq)
  cases point with
  | finished p' =>
    have hp' : p = p' := Except.ok.inj (congrArg Prod.fst hend)
    rw [hp']
    exact hreach.follows rfl
  | failed e => cases congrArg Prod.fst hend
  | _ => cases hzero

theorem made_warnings_of_old {v : Version} (hauto : o.san = .auto) (hold : v.major < 8)
    (san : Option SubjectAltName) : (made o (some v) san).warnings = [downgradeWarning v] := by
  have hunwanted : isWanted o.san (some v) = false := by
    simp [isWanted, hauto, hold]
  simp [made, hunwanted]

theorem made_warnings_of_not_old
    (hnew : ∀ v, version = some v → o.san = .auto ∧ ¬ v.major < 8)
    (san : Option SubjectAltName) : (made o version san).warnings = [] := by
  cases version with
  | none => simp [made]
  | some v =>
    obtain ⟨hauto, hnot⟩ := hnew v rfl
    have hwanted : isWanted o.san (some v) = true := by
      simpa [isWanted, hauto] using hnot
    simp [made, hwanted]

end Machine

/-! ## What is printed -/

/-- A run of the program is downgraded: under the automatic policy, the runtime has reported a
    version that is too old for the certificate to name the server. -/
def Downgraded (launcher : Launcher τ) (source : AddressSource τ) (line : List String) (d : Disk)
    (m : τ) (v : Version) : Prop :=
  ∃ o, read line = .ok o ∧ o.san = .auto ∧ v.major < 8 ∧
    ∃ d' m', Reaches launcher source o ⟨.started, d, m⟩ ⟨.versed (some v), d', m'⟩

/-- The program prints one marked line, with the warning that names the version, about a run that
    is downgraded and ends well, and nothing about a run that is not downgraded and ends well.
    About a run that fails it prints the failure alone.  A command line that is refused makes no
    run. -/
theorem run_prints_warnings (launcher : Launcher τ) (source : AddressSource τ)
    (line : List String) (d : Disk) (m : τ) :
    let r := (run launcher source line d m).1
    (r.exit = 0 → ∀ v, Downgraded launcher source line d m v →
      r.stderr = warningMark ++ downgradeWarning v ++ "\n" ∧
      markedLines r.stderr = [warningMark ++ downgradeWarning v] ∧
      v.chars <:+: (downgradeWarning v).toList) ∧
    (r.exit = 0 → (∀ v, ¬ Downgraded launcher source line d m v) → r.stderr = "") ∧
    (r.exit = 1 → ∃ o e d' m', read line = .ok o ∧
      Reaches launcher source o ⟨.started, d, m⟩ ⟨.failed e, d', m'⟩ ∧
      r.stderr = "ERROR: " ++ e.message ++ "\n") ∧
    (r.exit ≠ 0 → r.exit ≠ 1 → ∃ e, read line = .error (.usage e) ∧ r = stopped (.usage e)) := by
  intro r
  cases hread : read line with
  | error stop =>
    have hr : r = stopped stop := by
      simp only [r, run, hread]
    cases stop with
    | help full =>
      have hexit : r.exit = 0 := by rw [hr]; rfl
      refine ⟨fun _ v hv => ?_, fun _ _ => by rw [hr]; rfl, fun h => ?_, fun h => ?_⟩
      · obtain ⟨o, ho, -⟩ := hv
        cases hread.symm.trans ho
      · cases hexit.symm.trans h
      · exact absurd hexit h
    | usage e =>
      have hexit : r.exit = 2 := by rw [hr]; rfl
      refine ⟨fun h => ?_, fun h => ?_, fun h => ?_, fun _ _ => ⟨e, rfl, hr⟩⟩
      · cases hexit.symm.trans h
      · cases hexit.symm.trans h
      · cases hexit.symm.trans h
  | ok o =>
    obtain ⟨⟨point, d', m'⟩, hreach, hzero⟩ := exists_end launcher source o ⟨.started, d, m⟩
    have hrun := run_eq_of_ending hread hreach.ending_eq
    cases point with
    | failed e =>
      have hr : r = finished (.error e) := congrArg Prod.fst hrun
      have hexit : r.exit = 1 := by rw [hr]; rfl
      refine ⟨fun h => ?_, fun h => ?_, fun _ => ⟨o, e, d', m', rfl, hreach, by rw [hr]; rfl⟩,
        fun _ h => absurd hexit h⟩
      · cases hexit.symm.trans h
      · cases hexit.symm.trans h
    | finished p =>
      have hr : r = finished (.ok p) := congrArg Prod.fst hrun
      have hexit : r.exit = 0 := by rw [hr]; rfl
      refine ⟨fun _ v hv => ?_, fun _ hnot => ?_, fun h => ?_, fun h => absurd hexit h⟩
      · -- The run ends with what the version leads to, which has the warning
        obtain ⟨o', ho', hauto, hold, d₁, m₁, hversed⟩ := hv
        cases hread.symm.trans ho'
        obtain ⟨san, rfl⟩ := made_of_versed hversed hreach
        have hstderr : r.stderr = warningMark ++ downgradeWarning v ++ "\n" := by
          rw [hr, finished, made_warnings_of_old hauto hold]
          rfl
        refine ⟨hstderr, ?_, chars_infix_downgradeWarning v⟩
        rw [hstderr, markedLines_line (downgradeWarning_oneLine v)]
      · -- Any version that it came by is new enough
        obtain h | h | ⟨_, h⟩ | ⟨version, d₁, m₁, hversed, hfollows⟩ := exists_versed hreach
        · cases h
        · cases h
        · cases h
        · obtain ⟨san, rfl⟩ := hfollows
          rw [hr, finished, made_warnings_of_not_old]
          · rfl
          · rintro v rfl
            have hauto := auto_of_versed hversed
            exact ⟨hauto, fun hold => hnot v ⟨o, hread, hauto, hold, d₁, m₁, hversed⟩⟩
      · cases hexit.symm.trans h
    | _ => cases hzero

/-- A runtime of version 7.0, beside a key tool that prints nothing and ends with the given code. -/
def agedRuntime (code : Nat) : Launcher Unit := fun program _ d m =>
  if program = "java" then
    ⟨.ok ⟨.exited 0, [], Text.Utf8.encode "java version \"1.7.0_80\"".toList⟩, d, m, []⟩
  else ⟨.ok ⟨.exited code, [], []⟩, d, m, []⟩

section AgedRuntime

open OutputDir

/-- A disk on which nothing is. -/
def bareDisk : Disk := ⟨.dir [], .root⟩

/-- A disk with an empty directory for the artifacts. -/
def clearedDisk : Disk := ⟨.dir [("keys", .dir [])], .root⟩

/-- The options of a command line with two arguments. -/
private def agedOptions : Options :=
  ⟨"secret", "host", "keytool", "java", .auto, "java ChainMain", "java WalletCLI"⟩

private theorem write_clearedDisk : clearedDisk.write "keys/client.pem" [] =
    .ok ⟨.dir [("keys", .dir [("client.pem", .file [] .data)])], .root⟩ := by
  have hpath : Disk.pathOf "keys/client.pem" = .ok ⟨false, ["keys", "client.pem"], false⟩ := by
    decide +kernel
  have hfree : clearedDisk.IsFree ⟨false, ["keys", "client.pem"], false⟩ ["keys"] "client.pem" :=
    ⟨⟨rfl, 0, Nat.zero_le _,
      .enter ⟨by decide, by decide, by decide⟩ (k := .dir) rfl (by simp) .done⟩, rfl,
      ⟨by decide, by decide, by decide⟩, rfl⟩
  exact Disk.write_of_isFree ⟨rfl, rfl⟩ hpath rfl hfree []

private theorem read_agedOptions : read ["secret", "host"] = .ok agedOptions := by rfl

/-- With either key tool, the run comes to the point where the key pair is to be made. -/
private theorem agedRuntime_named (code : Nat) :
    Downgraded (agedRuntime code) (.fixed ⟨10, 0, 0, 7⟩) ["secret", "host"] bareDisk () ⟨7, 0⟩ ∧
    Reaches (agedRuntime code) (.fixed ⟨10, 0, 0, 7⟩) agedOptions ⟨.started, bareDisk, ()⟩
      ⟨.named (some ⟨7, 0⟩) none, clearedDisk, ()⟩ := by
  have hreset : reset "keys" bareDisk = (.ok (), clearedDisk) :=
    reset_eq_ok ⟨rfl, rfl⟩ (isRenewable_of_absent ⟨rfl, rfl⟩
      (fun _ hs => absurd hs List.not_mem_nil) keys_isEntryName rfl)
  have hversion : Version.ofReport (String.ofList (Text.Utf8.decode
      (Text.Utf8.encode "java version \"1.7.0_80\"".toList))) = .ok ⟨7, 0⟩ := by decide +kernel
  have hversed : Reaches (agedRuntime code) (.fixed ⟨10, 0, 0, 7⟩) agedOptions
      ⟨.started, bareDisk, ()⟩ ⟨.versed (some ⟨7, 0⟩), clearedDisk, ()⟩ :=
    .tail (.single (.reset hreset)) (.versed rfl (.mk rfl rfl) hversion)
  exact ⟨⟨_, read_agedOptions, rfl, by decide, _, _, hversed⟩, .tail hversed (.unnamed rfl)⟩

/-- With a key tool that works, the warning is printed. -/
theorem run_prints_warnings_old_runtime :
    markedLines
        (run (agedRuntime 0) (.fixed ⟨10, 0, 0, 7⟩) ["secret", "host"] bareDisk ()).1.stderr =
      [warningMark ++ downgradeWarning ⟨7, 0⟩] := by
  obtain ⟨hdowngraded, hnamed⟩ := agedRuntime_named 0
  have hends := Relation.ReflTransGen.tail (Relation.ReflTransGen.tail (Relation.ReflTransGen.tail
    (Relation.ReflTransGen.tail hnamed (.paired (.mk rfl rfl))) (.exported (.mk rfl rfl)))
    (.written write_clearedDisk)) (.imported (.mk rfl rfl))
  have hexit : (run (agedRuntime 0) (.fixed ⟨10, 0, 0, 7⟩) ["secret", "host"] bareDisk ()).1.exit =
      0 := by
    rw [run_eq_of_ending read_agedOptions (Reaches.ending_eq hends)]
    rfl
  exact ((run_prints_warnings (agedRuntime 0) (.fixed ⟨10, 0, 0, 7⟩) ["secret", "host"] bareDisk
    ()).1 hexit _ hdowngraded).2.1

/-- With a key tool that fails, the run is downgraded all the same, and nothing is said about it. -/
theorem run_drops_warning :
    let r := (run (agedRuntime 1) (.fixed ⟨10, 0, 0, 7⟩) ["secret", "host"] bareDisk ()).1
    Downgraded (agedRuntime 1) (.fixed ⟨10, 0, 0, 7⟩) ["secret", "host"] bareDisk () ⟨7, 0⟩ ∧
      r.stderr = "ERROR: keypair generation failed (exit status: 1): \n" ∧
      markedLines r.stderr = [] := by
  intro r
  obtain ⟨hdowngraded, hnamed⟩ := agedRuntime_named 1
  have hends := Relation.ReflTransGen.tail hnamed (.unpaired (.endedBadly rfl (by decide)))
  have hdiagnostics : Child.diagnostics ⟨.exited 1, [], []⟩ = "" := by decide +kernel
  have hstderr : r.stderr = "ERROR: keypair generation failed (exit status: 1): \n" := by
    rw [show r = _ from congrArg Prod.fst
      (run_eq_of_ending read_agedOptions (Reaches.ending_eq hends)), hdiagnostics]
    rfl
  refine ⟨hdowngraded, hstderr, ?_⟩
  rw [hstderr]
  decide +kernel

end AgedRuntime

end Keysmith.CommandLine
