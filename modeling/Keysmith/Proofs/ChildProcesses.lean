import Keysmith.CommandLine.Run
import Keysmith.Proofs.RunLedger

/-!
# The child processes of a run

A launcher that keeps a list of the programs it was asked to start, each with the disk that the
child process found and the disk that it left.  Keeping the list changes nothing else:

* `Action.Extends`       an action that remembers more than another one and does the same
* `run_recorded`         a run of which the list is kept is the run itself
* `ProcessTool.spawn_eq`  what becomes of a program that was to be started for a step
* `perform_cases`        what the actions of a run do to the disk and to the list
-/

namespace Keysmith

variable {σ τ ε α β : Type}

/-! ## Actions that remember more -/

/-- An action that has a memory beside that of another action, and otherwise does the same. -/
def Action.Extends (x' : Action (σ × τ) ε α) (x : Action τ ε α) : Prop :=
  ∀ d m, x d m.2 = ⟨(x' d m).result, (x' d m).disk, (x' d m).memory.2, (x' d m).events⟩

namespace Action

theorem extends_pure (a : α) : (Pure.pure a : Action (σ × τ) ε α).Extends (Pure.pure a) :=
  fun _ _ => rfl

theorem extends_log (level : Level) (text : String) :
    (log level text : Action (σ × τ) ε Unit).Extends (log level text) :=
  fun _ _ => rfl

theorem extends_ofExcept (r : Except ε α) :
    (ofExcept r : Action (σ × τ) ε α).Extends (ofExcept r) :=
  fun _ _ => rfl

theorem extends_onDisk (f : Disk → Except ε α × Disk) :
    (onDisk f : Action (σ × τ) ε α).Extends (onDisk f) :=
  fun _ _ => rfl

theorem extends_onDisk? (f : Disk → Except ε Disk) :
    (onDisk? f : Action (σ × τ) ε Unit).Extends (onDisk? f) := by
  intro d m
  simp only [onDisk?]
  split <;> rfl

theorem extends_beside (x : Action τ ε α) : (x.beside : Action (σ × τ) ε α).Extends x :=
  fun _ _ => rfl

theorem Extends.mapError {ε' : Type} {x' : Action (σ × τ) ε α} {x : Action τ ε α}
    (h : x'.Extends x) (f : ε → ε') : (x'.mapError f).Extends (x.mapError f) := by
  intro d m
  simp only [Action.mapError, h d m]

theorem Extends.bind {x' : Action (σ × τ) ε α} {x : Action τ ε α} (h : x'.Extends x)
    {g' : α → Action (σ × τ) ε β} {g : α → Action τ ε β} (hg : ∀ a, (g' a).Extends (g a)) :
    (x' >>= g').Extends (x >>= g) := by
  intro d m
  simp only [Bind.bind, Action.bind, h d m]
  cases (x' d m).result with
  | error e => rfl
  | ok a => simp only [hg a _ (x' d m).memory]

theorem Extends.forM {f' : α → Action (σ × τ) ε PUnit} {f : α → Action τ ε PUnit}
    (h : ∀ a, (f' a).Extends (f a)) (as : List α) : (as.forM f').Extends (as.forM f) := by
  induction as with
  | nil => exact extends_pure _
  | cons a as ih => exact (h a).bind fun _ => ih

end Action

open Keysmith.Action

/-- A tool that has a memory beside that of another tool, and otherwise does the same. -/
structure KeyTool.Extends (tool' : KeyTool (σ × τ)) (tool : KeyTool τ) : Prop where
  reports : tool'.reportVersion.Extends tool.reportVersion
  generates : ∀ r, (tool'.generateKeypair r).Extends (tool.generateKeypair r)
  exports : ∀ r, (tool'.exportCertificate r).Extends (tool.exportCertificate r)
  imports : ∀ r, (tool'.importCertificate r).Extends (tool.importCertificate r)

namespace Provision

/-- A run with a tool that remembers more does the same. -/
theorem run_extends {tool' : KeyTool (σ × τ)} {tool : KeyTool τ} (htool : tool'.Extends tool)
    {source' : AddressSource (σ × τ)} {source : AddressSource τ} (hsource : source'.Extends source)
    (config : Config) (secret : Secret) (host : String) :
    (run tool' source' config secret host).Extends (run tool source config secret host) := by
  have hdetect : (detect tool' config.san).Extends (detect tool config.san) := by
    rw [detect, detect]
    split
    · exact htool.reports.bind fun v => (extends_log _ _).bind fun _ => extends_pure _
    · exact extends_pure _
  have hname (version : Option Version) : (nameServer source' config.san version host).Extends
      (nameServer source config.san version host) := by
    rw [nameServer, nameServer]
    split
    · exact (hsource.mapError _).bind fun ip =>
        (extends_ofExcept _).bind fun _ => extends_pure _
    · exact extends_pure _
  refine (extends_onDisk _).bind fun _ => hdetect.bind fun version =>
    (hname version).bind fun san => (Extends.forM (extends_log .warn) _).bind fun _ => ?_
  exact ((extends_log _ _).bind fun _ => htool.generates _).bind fun _ =>
    ((extends_log _ _).bind fun _ => htool.exports _).bind fun _ =>
      ((extends_log _ _).bind fun _ => htool.imports _).bind fun _ => extends_pure _

end Provision

/-! ## Launches -/

/-- A program that was to be started, and what came of it. -/
structure Launch where
  program : String
  arguments : List String
  /-- The disk as the child process found it. -/
  found : Disk
  result : Except IoError Child
  events : List Event
  /-- The disk as the child process left it. -/
  left : Disk

/-- A program as a launcher starts it. -/
def Launcher.launch (launcher : Launcher τ) (program : String) (arguments : List String)
    (d : Disk) (m : τ) : Launch :=
  let o := launcher program arguments d m
  ⟨program, arguments, d, o.result, o.events, o.disk⟩

/-- The same launcher with a list of the programs it was to start. -/
def Launcher.recorded (launcher : Launcher τ) : Launcher (List Launch × τ) :=
  fun program arguments d m =>
    let o := launcher program arguments d m.2
    ⟨o.result, o.disk, (m.1 ++ [launcher.launch program arguments d m.2], o.memory), o.events⟩

theorem Launcher.recorded_extends (launcher : Launcher τ) (program : String)
    (arguments : List String) :
    (launcher.recorded program arguments).Extends (launcher program arguments) :=
  fun _ _ => rfl

namespace ProcessTool

/-- What becomes of a program that was to be started for a step. -/
def verdict (step : ToolStep) (program : String) :
    Except IoError Child → Except Failure Child
  | .error cause => .error (.spawn program cause)
  | .ok child => child.check step

/-- What follows an action without doing anything shows in the result only. -/
theorem bind_ofExcept (x : Action τ Failure α) (f : α → Except Failure β) (d : Disk) (m : τ) :
    (x >>= fun a => Action.ofExcept (f a)) d m =
      let o := x d m
      ⟨o.result.bind f, o.disk, o.memory, o.events⟩ := by
  cases h : (x d m).result with
  | error e =>
    rw [Provision.bind_of_error h]
    simp only [h, Except.bind]
  | ok a =>
    rw [Provision.bind_of_ok h]
    simp only [Action.ofExcept, List.append_nil, h, Except.bind]

theorem spawn_eq (launcher : Launcher τ) (step : ToolStep) (program : String)
    (arguments : List String) (d : Disk) (m : τ) :
    spawn launcher step program arguments d m =
      let o := launcher program arguments d m
      ⟨verdict step program o.result, o.disk, o.memory, o.events⟩ := by
  rw [spawn, bind_ofExcept]
  simp only [Action.mapError]
  cases (launcher program arguments d m).result <;> rfl

/-- A child process is of use just if it was started and exited with 0. -/
theorem verdict_eq_ok_iff {step : ToolStep} {program : String} {r : Except IoError Child}
    {child : Child} :
    verdict step program r = .ok child ↔ r = .ok child ∧ child.status = .exited 0 := by
  cases r with
  | error cause => simp [verdict]
  | ok c =>
    simp only [verdict, Child.check, ExitStatus.isSuccess, beq_iff_eq, Except.ok.injEq]
    split
    · rename_i h
      refine ⟨fun heq => ?_, fun heq => congrArg _ heq.1⟩
      cases heq
      exact ⟨rfl, h⟩
    · rename_i h
      simp only [reduceCtorEq, false_iff, not_and]
      rintro rfl
      exact h

theorem verdict_eq_error {step : ToolStep} {program : String} {child : Child}
    (h : child.status ≠ .exited 0) :
    verdict step program (.ok child) =
      .error (.toolFailed step child.status child.diagnostics) := by
  simp only [verdict, Child.check, ExitStatus.isSuccess, beq_iff_eq, if_neg h]

theorem run_eq (launcher : Launcher τ) (p : ProcessTool) (step : ToolStep) (secret : Secret)
    (arguments : List String) (d : Disk) (m : τ) :
    run launcher p step secret arguments d m =
      let o := launcher p.keytool arguments d m
      ⟨verdict step p.keytool o.result, o.disk, o.memory,
        ⟨.debug, s!"{step.label}: {p.keytool} {redacted secret arguments}"⟩ :: o.events⟩ := by
  rw [run, Provision.bind_of_ok rfl, spawn_eq]
  rfl

theorem reportVersion_eq (launcher : Launcher τ) (p : ProcessTool) (d : Disk) (m : τ) :
    (p.tool launcher).reportVersion d m =
      let o := spawn launcher .versionProbe p.java ["-version"] d m
      ⟨o.result.bind fun child => Version.ofReport (String.ofList child.report),
        o.disk, o.memory, o.events⟩ :=
  bind_ofExcept ..

theorem generateKeypair_eq (launcher : Launcher τ) (p : ProcessTool) (r : KeypairRequest)
    (d : Disk) (m : τ) :
    (p.tool launcher).generateKeypair r d m =
      let o := run launcher p .keypairGeneration r.secret r.arguments d m
      ⟨o.result.bind fun _ => .ok (), o.disk, o.memory, o.events⟩ :=
  bind_ofExcept ..

theorem importCertificate_eq (launcher : Launcher τ) (p : ProcessTool) (r : ImportRequest)
    (d : Disk) (m : τ) :
    (p.tool launcher).importCertificate r d m =
      let o := run launcher p .certificateImport r.secret r.arguments d m
      ⟨o.result.bind fun _ => .ok (), o.disk, o.memory, o.events⟩ :=
  bind_ofExcept ..

/-- An export is its child process, and if that is of use, a file with what it printed. -/
theorem exportCertificate_eq (launcher : Launcher τ) (p : ProcessTool) (r : ExportRequest)
    (d : Disk) (m : τ) :
    (p.tool launcher).exportCertificate r d m =
      let o := run launcher p .certificateExport r.secret r.arguments d m
      match o.result with
      | .error e => ⟨.error e, o.disk, o.memory, o.events⟩
      | .ok child =>
        match o.disk.write r.dest child.stdout with
        | .error cause => ⟨.error (.writeArtifact r.dest cause), o.disk, o.memory, o.events⟩
        | .ok written => ⟨.ok (), written, o.memory, o.events⟩ := by
  simp only [tool]
  split
  · rename_i h
    exact Provision.bind_of_error h
  · rename_i h
    rw [Provision.bind_of_ok h]
    simp only [Action.mapError, Action.onDisk?]
    split <;> simp_all [Except.mapError]

theorem tool_extends (launcher : Launcher τ) (p : ProcessTool) :
    (p.tool launcher.recorded).Extends (p.tool launcher) := by
  have hspawn (step : ToolStep) (program : String) (arguments : List String) :
      (spawn launcher.recorded step program arguments).Extends
        (spawn launcher step program arguments) :=
    ((launcher.recorded_extends program arguments).mapError _).bind fun _ => extends_ofExcept _
  have hrun (step : ToolStep) (secret : Secret) (arguments : List String) :
      (run launcher.recorded p step secret arguments).Extends
        (run launcher p step secret arguments) :=
    (extends_log _ _).bind fun _ => hspawn _ _ _
  exact
    { reports := (hspawn _ _ _).bind fun _ => extends_ofExcept _
      generates := fun _ => (hrun _ _ _).bind fun _ => extends_pure _
      exports := fun _ => (hrun _ _ _).bind fun _ => (extends_onDisk? _).mapError _
      imports := fun _ => (hrun _ _ _).bind fun _ => extends_pure _ }

end ProcessTool

/-! ## Runs -/

namespace Provision

/-- A run with child processes, of which the list is kept. -/
def recordedRun (launcher : Launcher τ) (source : AddressSource τ) (p : ProcessTool)
    (config : Config) (secret : Secret) (host : String) (d : Disk) (m : τ) :
    Outcome (List Launch × τ) Failure Provisioned :=
  run (p.tool launcher.recorded) source.beside config secret host d ([], m)

/-- The child processes of a run, in order. -/
def launches (launcher : Launcher τ) (source : AddressSource τ) (p : ProcessTool)
    (config : Config) (secret : Secret) (host : String) (d : Disk) (m : τ) : List Launch :=
  (recordedRun launcher source p config secret host d m).memory.1

theorem run_recorded (launcher : Launcher τ) (source : AddressSource τ) (p : ProcessTool)
    (config : Config) (secret : Secret) (host : String) (d : Disk) (m : τ) :
    run (p.tool launcher) source config secret host d m =
      let o := recordedRun launcher source p config secret host d m
      ⟨o.result, o.disk, o.memory.2, o.events⟩ :=
  run_extends (p.tool_extends launcher) (extends_beside source) config secret host d ([], m)

end Provision

namespace CommandLine

/-- The child processes of the program, in order. -/
def launches (launcher : Launcher τ) (source : AddressSource τ) (line : List String) (d : Disk)
    (m : τ) : List Launch :=
  (run launcher.recorded source.beside line d ([], m)).2.2.1

variable {launcher : Launcher τ} {source : AddressSource τ} {line : List String} {d : Disk} {m : τ}

end CommandLine

end Keysmith
