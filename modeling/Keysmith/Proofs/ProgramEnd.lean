import Keysmith.Proofs.ChildProcesses
import Keysmith.Proofs.DirectoryRenewal
import Mathlib.Logic.Relation

/-!
# How the program ends

The course of the program as a machine of small steps.  A step says what has to happen outside the
program for it to be taken: the output directory is reset or not, a child process is of use or
not, the address is found out or not, the certificate is written or not.  The machine ends when
everything is done, or at the first failure.

* `Step`            the steps, each with what it takes
* `Step.ending_eq`  a step changes nothing about how the rest of the run ends
* `exists_step`     only an end has no step
* `run_ends`        the exit code and the outputs tell the end that the machine comes to
-/

namespace Keysmith

variable {τ ε α β : Type}

/-! ## The end of an action -/

namespace Action

/-- How an action ends; what it says to the log is left out. -/
def ending (x : Action τ ε α) (d : Disk) (m : τ) : Except ε α × Disk × τ :=
  let o := x d m
  (o.result, o.disk, o.memory)

variable {x : Action τ Failure α} {g : α → Action τ Failure β} {d d' : Disk} {m m' : τ}

theorem ending_bind_of_ok {a : α} (h : x.ending d m = (.ok a, d', m')) :
    (x >>= g).ending d m = (g a).ending d' m' := by
  obtain ⟨hresult, hrest⟩ := Prod.mk.inj h
  obtain ⟨rfl, rfl⟩ := Prod.mk.inj hrest
  rw [ending, Provision.bind_of_ok hresult]
  rfl

theorem ending_bind_of_error {e : Failure} (h : x.ending d m = (.error e, d', m')) :
    (x >>= g).ending d m = (.error e, d', m') := by
  obtain ⟨hresult, hrest⟩ := Prod.mk.inj h
  rw [ending, Provision.bind_of_error hresult]
  exact Prod.ext rfl hrest

/-- Actions that end alike can stand for each other in front of a third. -/
theorem ending_bind_congr {y : Action τ Failure α} (h : x.ending d m = y.ending d' m') :
    (x >>= g).ending d m = (y >>= g).ending d' m' := by
  rcases hy : y.ending d' m' with ⟨e | a, d₁, m₁⟩
  · rw [ending_bind_of_error hy, ending_bind_of_error (h.trans hy)]
  · rw [ending_bind_of_ok hy, ending_bind_of_ok (h.trans hy)]

/-- What follows an action without doing anything shows in the result only. -/
theorem ending_bind_ofExcept {r : Except Failure α} (h : x.ending d m = (r, d', m'))
    (f : α → Except Failure β) :
    (x >>= fun a => ofExcept (f a)).ending d m = (r.bind f, d', m') := by
  obtain ⟨rfl, hrest⟩ := Prod.mk.inj h
  rw [ending, ProcessTool.bind_ofExcept]
  exact Prod.ext rfl hrest

theorem ending_mapError {ε' : Type} {x : Action τ ε α} {r : Except ε α}
    (h : x.ending d m = (r, d', m')) (f : ε → ε') :
    (x.mapError f).ending d m = (r.mapError f, d', m') := by
  obtain ⟨rfl, hrest⟩ := Prod.mk.inj h
  exact Prod.ext rfl hrest

/-- Saying something to the log is no part of how an action ends. -/
theorem ending_log_bind (level : Level) (text : String) (x : Action τ Failure α) (d : Disk)
    (m : τ) : (log level text >>= fun _ => x).ending d m = x.ending d m :=
  ending_bind_of_ok rfl

theorem ending_forM_log (level : Level) (texts : List String) (d : Disk) (m : τ) :
    (texts.forM (log level) : Action τ Failure PUnit).ending d m = (.ok ⟨⟩, d, m) := by
  induction texts with
  | nil => rfl
  | cons text texts ih => exact (ending_log_bind level text _ d m).trans ih

end Action

namespace CommandLine

open Provision

/-! ## Child processes -/

/-- A child process is of use: it is started and exits with 0. -/
inductive Served (launcher : Launcher τ) (program : String) (arguments : List String) (d : Disk)
    (m : τ) : Child → Disk → τ → Prop
  | mk {child : Child} {d' : Disk} {m' : τ} :
      (launcher program arguments).ending d m = (.ok child, d', m') → child.status = .exited 0 →
      Served launcher program arguments d m child d' m'

/-- A child process is of no use: it cannot be started, or it does not exit with 0.  That is the
    failure of the step to which it belongs. -/
inductive Refused (launcher : Launcher τ) (step : ToolStep) (program : String)
    (arguments : List String) (d : Disk) (m : τ) : Failure → Disk → τ → Prop
  | notStarted {cause : IoError} {d' : Disk} {m' : τ} :
      (launcher program arguments).ending d m = (.error cause, d', m') →
      Refused launcher step program arguments d m (.spawn program cause) d' m'
  | endedBadly {child : Child} {d' : Disk} {m' : τ} :
      (launcher program arguments).ending d m = (.ok child, d', m') → child.status ≠ .exited 0 →
      Refused launcher step program arguments d m
        (.toolFailed step child.status child.diagnostics) d' m'

theorem served_or_refused (launcher : Launcher τ) (step : ToolStep) (program : String)
    (arguments : List String) (d : Disk) (m : τ) :
    (∃ child d' m', Served launcher program arguments d m child d' m') ∨
      ∃ e d' m', Refused launcher step program arguments d m e d' m' := by
  rcases h : (launcher program arguments).ending d m with ⟨cause | child, d', m'⟩
  · exact .inr ⟨_, _, _, .notStarted h⟩
  · by_cases hstatus : child.status = .exited 0
    · exact .inl ⟨_, _, _, .mk h hstatus⟩
    · exact .inr ⟨_, _, _, .endedBadly h hstatus⟩

section Commands

variable {launcher : Launcher τ} {step : ToolStep} {program : String} {arguments : List String}
  {d d' : Disk} {m m' : τ}

theorem spawn_ending {r : Except IoError Child}
    (h : (launcher program arguments).ending d m = (r, d', m')) (step : ToolStep) :
    (ProcessTool.spawn launcher step program arguments).ending d m =
      (ProcessTool.verdict step program r, d', m') := by
  obtain ⟨rfl, hrest⟩ := Prod.mk.inj h
  rw [Action.ending, ProcessTool.spawn_eq]
  exact Prod.ext rfl hrest

theorem Served.spawn {child : Child} (h : Served launcher program arguments d m child d' m')
    (step : ToolStep) :
    (ProcessTool.spawn launcher step program arguments).ending d m = (.ok child, d', m') := by
  obtain ⟨hend, hstatus⟩ := h
  rw [spawn_ending hend, ProcessTool.verdict_eq_ok_iff.mpr ⟨rfl, hstatus⟩]

theorem Refused.spawn {e : Failure} (h : Refused launcher step program arguments d m e d' m') :
    (ProcessTool.spawn launcher step program arguments).ending d m = (.error e, d', m') := by
  cases h with
  | notStarted hend => exact spawn_ending hend step
  | endedBadly hend hstatus => rw [spawn_ending hend, ProcessTool.verdict_eq_error hstatus]

end Commands

/-! ## The machine -/

/-- How far the program has come. -/
inductive Point where
  | started
  /-- The output directory is empty. -/
  | emptied
  /-- The version is known, if it had to be. -/
  | versed (version : Option Version)
  /-- The names of the server are known, if the certificate gets any. -/
  | named (version : Option Version) (san : Option SubjectAltName)
  /-- The keys are made. -/
  | paired (version : Option Version) (san : Option SubjectAltName)
  /-- The certificate is printed. -/
  | exported (version : Option Version) (san : Option SubjectAltName) (certificate : Bytes)
  /-- The certificate is written. -/
  | written (version : Option Version) (san : Option SubjectAltName)
  | finished (p : Provisioned)
  | failed (e : Failure)

/-- A state of the machine. -/
structure State (τ : Type) where
  point : Point
  disk : Disk
  memory : τ

/-- The arguments of the three commands to the tool. -/
def keypairArguments (o : Options) (san : Option SubjectAltName) : List String :=
  KeypairRequest.arguments ⟨.ofHost o.host, san, "keys/server.jks", "server", "RSA", 2048, o.secret⟩

def exportArguments (o : Options) : List String :=
  ExportRequest.arguments ⟨"keys/server.jks", o.secret, "server", "keys/client.pem"⟩

def importArguments (o : Options) : List String :=
  ImportRequest.arguments ⟨"keys/client.pem", "server", "keys/client.jks", o.secret⟩

/-- What the program has made if nothing failed. -/
def made (o : Options) (version : Option Version) (san : Option SubjectAltName) : Provisioned where
  artifacts := ⟨"keys/server.jks", "keys/client.pem", "keys/client.jks"⟩
  san := san
  warnings := if isWanted o.san version then [] else (version.map downgradeWarning).toList
  serverCommand := o.serverCommand
  clientCommand := o.clientCommand

/-- The steps of the program. -/
inductive Step (launcher : Launcher τ) (source : AddressSource τ) (o : Options) :
    State τ → State τ → Prop
  -- The output directory
  | reset {d d' : Disk} {m : τ} :
      OutputDir.reset "keys" d = (.ok (), d') →
      Step launcher source o ⟨.started, d, m⟩ ⟨.emptied, d', m⟩
  | resetFails {d d' : Disk} {m : τ} {e : Failure} :
      OutputDir.reset "keys" d = (.error e, d') →
      Step launcher source o ⟨.started, d, m⟩ ⟨.failed e, d', m⟩
  -- The version, under the automatic policy
  | unasked {d : Disk} {m : τ} :
      o.san ≠ .auto → Step launcher source o ⟨.emptied, d, m⟩ ⟨.versed none, d, m⟩
  | versed {d d' : Disk} {m m' : τ} {child : Child} {version : Version} :
      o.san = .auto → Served launcher o.java ["-version"] d m child d' m' →
      Version.ofReport (String.ofList child.report) = .ok version →
      Step launcher source o ⟨.emptied, d, m⟩ ⟨.versed (some version), d', m'⟩
  | unreadable {d d' : Disk} {m m' : τ} {child : Child} {e : Failure} :
      o.san = .auto → Served launcher o.java ["-version"] d m child d' m' →
      Version.ofReport (String.ofList child.report) = .error e →
      Step launcher source o ⟨.emptied, d, m⟩ ⟨.failed e, d', m'⟩
  | unreported {d d' : Disk} {m m' : τ} {e : Failure} :
      o.san = .auto → Refused launcher .versionProbe o.java ["-version"] d m e d' m' →
      Step launcher source o ⟨.emptied, d, m⟩ ⟨.failed e, d', m'⟩
  -- The names of the server, if they are wanted
  | unnamed {d : Disk} {m : τ} {version : Option Version} :
      isWanted o.san version = false →
      Step launcher source o ⟨.versed version, d, m⟩ ⟨.named version none, d, m⟩
  | named {d d' : Disk} {m m' : τ} {version : Option Version} {ip : Ipv4} {san : SubjectAltName} :
      isWanted o.san version = true → source.ending d m = (.ok ip, d', m') →
      SubjectAltName.ofHost o.host ip = .ok san →
      Step launcher source o ⟨.versed version, d, m⟩ ⟨.named version (some san), d', m'⟩
  | unplain {d d' : Disk} {m m' : τ} {version : Option Version} {ip : Ipv4} {e : Failure} :
      isWanted o.san version = true → source.ending d m = (.ok ip, d', m') →
      SubjectAltName.ofHost o.host ip = .error e →
      Step launcher source o ⟨.versed version, d, m⟩ ⟨.failed e, d', m'⟩
  | unlocated {d d' : Disk} {m m' : τ} {version : Option Version} {cause : IoError} :
      isWanted o.san version = true → source.ending d m = (.error cause, d', m') →
      Step launcher source o ⟨.versed version, d, m⟩ ⟨.failed (.addressDiscovery cause), d', m'⟩
  -- The keys
  | paired {d d' : Disk} {m m' : τ} {version : Option Version} {san : Option SubjectAltName}
      {child : Child} :
      Served launcher o.keytool (keypairArguments o san) d m child d' m' →
      Step launcher source o ⟨.named version san, d, m⟩ ⟨.paired version san, d', m'⟩
  | unpaired {d d' : Disk} {m m' : τ} {version : Option Version} {san : Option SubjectAltName}
      {e : Failure} :
      Refused launcher .keypairGeneration o.keytool (keypairArguments o san) d m e d' m' →
      Step launcher source o ⟨.named version san, d, m⟩ ⟨.failed e, d', m'⟩
  -- The certificate
  | exported {d d' : Disk} {m m' : τ} {version : Option Version} {san : Option SubjectAltName}
      {child : Child} :
      Served launcher o.keytool (exportArguments o) d m child d' m' →
      Step launcher source o ⟨.paired version san, d, m⟩
        ⟨.exported version san child.stdout, d', m'⟩
  | unexported {d d' : Disk} {m m' : τ} {version : Option Version} {san : Option SubjectAltName}
      {e : Failure} :
      Refused launcher .certificateExport o.keytool (exportArguments o) d m e d' m' →
      Step launcher source o ⟨.paired version san, d, m⟩ ⟨.failed e, d', m'⟩
  | written {d d' : Disk} {m : τ} {version : Option Version} {san : Option SubjectAltName}
      {certificate : Bytes} :
      d.write "keys/client.pem" certificate = .ok d' →
      Step launcher source o ⟨.exported version san certificate, d, m⟩ ⟨.written version san, d', m⟩
  | unwritten {d : Disk} {m : τ} {version : Option Version} {san : Option SubjectAltName}
      {certificate : Bytes} {cause : IoError} :
      d.write "keys/client.pem" certificate = .error cause →
      Step launcher source o ⟨.exported version san certificate, d, m⟩
        ⟨.failed (.writeArtifact "keys/client.pem" cause), d, m⟩
  -- The client's keystore
  | imported {d d' : Disk} {m m' : τ} {version : Option Version} {san : Option SubjectAltName}
      {child : Child} :
      Served launcher o.keytool (importArguments o) d m child d' m' →
      Step launcher source o ⟨.written version san, d, m⟩ ⟨.finished (made o version san), d', m'⟩
  | unimported {d d' : Disk} {m m' : τ} {version : Option Version} {san : Option SubjectAltName}
      {e : Failure} :
      Refused launcher .certificateImport o.keytool (importArguments o) d m e d' m' →
      Step launcher source o ⟨.written version san, d, m⟩ ⟨.failed e, d', m'⟩

/-- The machine comes from one state to another. -/
def Reaches (launcher : Launcher τ) (source : AddressSource τ) (o : Options) :
    State τ → State τ → Prop :=
  Relation.ReflTransGen (Step launcher source o)

/-- How many steps are left at most. -/
def Point.stepsLeft : Point → Nat
  | started => 7
  | emptied => 6
  | versed _ => 5
  | named _ _ => 4
  | paired _ _ => 3
  | exported _ _ _ => 2
  | written _ _ => 1
  | finished _ => 0
  | failed _ => 0

section Machine

variable {launcher : Launcher τ} {source : AddressSource τ} {o : Options} {s s' : State τ}

theorem Step.stepsLeft_lt (h : Step launcher source o s s') :
    s'.point.stepsLeft < s.point.stepsLeft := by
  cases h <;> simp [Point.stepsLeft]

/-- Where the machine has not ended, it has a step to take. -/
theorem exists_step (launcher : Launcher τ) (source : AddressSource τ) (o : Options) {s : State τ}
    (h : s.point.stepsLeft ≠ 0) : ∃ s', Step launcher source o s s' := by
  obtain ⟨point, d, m⟩ := s
  cases point with
  | started =>
    rcases hreset : OutputDir.reset "keys" d with ⟨e | ⟨⟨⟩⟩, d'⟩
    · exact ⟨_, .resetFails hreset⟩
    · exact ⟨_, .reset hreset⟩
  | emptied =>
    by_cases hauto : o.san = .auto
    · rcases served_or_refused launcher .versionProbe o.java ["-version"] d m with
        ⟨child, d', m', hserved⟩ | ⟨e, d', m', hrefused⟩
      · cases hversion : Version.ofReport (String.ofList child.report) with
        | error e => exact ⟨_, .unreadable hauto hserved hversion⟩
        | ok version => exact ⟨_, .versed hauto hserved hversion⟩
      · exact ⟨_, .unreported hauto hrefused⟩
    · exact ⟨_, .unasked hauto⟩
  | versed version =>
    cases hw : isWanted o.san version with
    | false => exact ⟨_, .unnamed hw⟩
    | true =>
      rcases hsource : source.ending d m with ⟨cause | ip, d', m'⟩
      · exact ⟨_, .unlocated hw hsource⟩
      · cases hsan : SubjectAltName.ofHost o.host ip with
        | error e => exact ⟨_, .unplain hw hsource hsan⟩
        | ok san => exact ⟨_, .named hw hsource hsan⟩
  | named version san =>
    rcases served_or_refused launcher .keypairGeneration o.keytool (keypairArguments o san) d m with
      ⟨child, d', m', hserved⟩ | ⟨e, d', m', hrefused⟩
    · exact ⟨_, .paired hserved⟩
    · exact ⟨_, .unpaired hrefused⟩
  | paired version san =>
    rcases served_or_refused launcher .certificateExport o.keytool (exportArguments o) d m with
      ⟨child, d', m', hserved⟩ | ⟨e, d', m', hrefused⟩
    · exact ⟨_, .exported hserved⟩
    · exact ⟨_, .unexported hrefused⟩
  | exported version san certificate =>
    cases hw : d.write "keys/client.pem" certificate with
    | error cause => exact ⟨_, .unwritten hw⟩
    | ok d' => exact ⟨_, .written hw⟩
  | written version san =>
    rcases served_or_refused launcher .certificateImport o.keytool (importArguments o) d m with
      ⟨child, d', m', hserved⟩ | ⟨e, d', m', hrefused⟩
    · exact ⟨_, .imported hserved⟩
    · exact ⟨_, .unimported hrefused⟩
  | finished p => exact absurd rfl h
  | failed e => exact absurd rfl h

/-- The machine comes to an end. -/
theorem exists_end (launcher : Launcher τ) (source : AddressSource τ) (o : Options) (s : State τ) :
    ∃ s', Reaches launcher source o s s' ∧ s'.point.stepsLeft = 0 := by
  -- By induction on the number of steps left, which every step lowers
  induction hn : s.point.stepsLeft using Nat.strong_induction_on generalizing s with
  | h n ih =>
    by_cases hzero : s.point.stepsLeft = 0
    · exact ⟨s, .refl, hzero⟩
    · obtain ⟨s₁, hstep⟩ := exists_step launcher source o hzero
      obtain ⟨s₂, hreach, hend⟩ := ih _ (hn ▸ hstep.stepsLeft_lt) s₁ rfl
      exact ⟨s₂, .head hstep hreach, hend⟩

/-! ## The machine and the run -/

/-- Write the certificate to its file. -/
def writeCertificate (certificate : Bytes) : Action τ Failure Unit :=
  (Action.onDisk? fun d => d.write "keys/client.pem" certificate).mapError
    (.writeArtifact "keys/client.pem")

/-- What is left of the run. -/
def Point.rest (launcher : Launcher τ) (source : AddressSource τ) (o : Options) :
    Point → Action τ Failure Provisioned
  | started => Provision.run (o.programs.tool launcher) source o.config o.secret o.host
  | emptied => do
    let version ← detect (o.programs.tool launcher) o.san
    nameAndFinish (o.programs.tool launcher) source o.config o.secret o.host version
  | versed version =>
    nameAndFinish (o.programs.tool launcher) source o.config o.secret o.host version
  | named version san => finish (o.programs.tool launcher) o.config o.secret o.host san
      (warningsFor o.san version)
  | paired version san => do
    makeCertificate (o.programs.tool launcher) (.inDir "keys") o.secret
    makeClientKeystore (o.programs.tool launcher) (.inDir "keys") o.secret
    return made o version san
  | exported version san certificate => do
    writeCertificate certificate
    makeClientKeystore (o.programs.tool launcher) (.inDir "keys") o.secret
    return made o version san
  | written version san => do
    makeClientKeystore (o.programs.tool launcher) (.inDir "keys") o.secret
    return made o version san
  | finished p => return p
  | failed e => Action.fail e

/-- How the run ends from a state. -/
def State.ending (launcher : Launcher τ) (source : AddressSource τ) (o : Options) (s : State τ) :
    Except Failure Provisioned × Disk × τ :=
  (s.point.rest launcher source o).ending s.disk s.memory

variable {d d' : Disk} {m m' : τ} {version : Option Version} {san : Option SubjectAltName}

theorem inDir_keys :
    Artifacts.inDir "keys" = ⟨"keys/server.jks", "keys/client.pem", "keys/client.jks"⟩ := rfl

theorem made_eq (o : Options) (version : Option Version) (san : Option SubjectAltName) :
    made o version san =
      ⟨.inDir "keys", san, warningsFor o.san version, o.serverCommand, o.clientCommand⟩ := by
  rw [made, inDir_keys, warningsFor, wantsSan_eq]

/-- The output directory is the same for all options. -/
theorem prepare_ending {r : Except Failure Unit} (h : OutputDir.reset "keys" d = (r, d')) :
    (prepare o.config : Action τ Failure Unit).ending d m = (r, d', m) := by
  simp only [prepare, Action.onDisk, Action.ending, Options.config, Config.standard, h]

theorem detect_ending (hauto : o.san = .auto) {r : Except Failure Child}
    (h : (ProcessTool.spawn launcher .versionProbe o.java ["-version"]).ending d m = (r, d', m')) :
    (detect (o.programs.tool launcher) o.san).ending d m =
      ((r.bind fun child => Version.ofReport (String.ofList child.report)).map some, d', m') := by
  have hreport := Action.ending_bind_ofExcept h fun child =>
    Version.ofReport (String.ofList child.report)
  rw [hauto]
  cases hversion : r.bind fun child => Version.ofReport (String.ofList child.report) with
  | error e =>
    rw [hversion] at hreport
    exact Action.ending_bind_of_error hreport
  | ok version =>
    rw [hversion] at hreport
    exact Action.ending_bind_of_ok hreport

theorem nameServer_ending (hw : isWanted o.san version = true) {r : Except IoError Ipv4}
    (h : source.ending d m = (r, d', m')) :
    (nameServer source o.san version o.host).ending d m =
      ((r.mapError .addressDiscovery).bind fun ip => (SubjectAltName.ofHost o.host ip).map some,
        d', m') := by
  have hsource := Action.ending_mapError h Failure.addressDiscovery
  rw [nameServer, wantsSan_eq, if_pos hw]
  cases r with
  | error cause => exact Action.ending_bind_of_error hsource
  | ok ip =>
    refine (Action.ending_bind_of_ok hsource).trans ?_
    simp only [Except.mapError, Except.bind]
    cases SubjectAltName.ofHost o.host ip <;> rfl

/-- Once it is decided how the server is named, the commands follow. -/
theorem nameAndFinish_ending_of_ok
    (h : (nameServer source o.san version o.host).ending d m = (.ok san, d', m')) :
    (Point.rest launcher source o (.versed version)).ending d m =
      (Point.rest launcher source o (.named version san)).ending d' m' :=
  (Action.ending_bind_of_ok h).trans
    (Action.ending_bind_of_ok (Action.ending_forM_log .warn _ d' m'))

/-- A command to the tool ends as its child process does. -/
theorem run_ending {p : ProcessTool} {step : ToolStep} {secret : Secret} {arguments : List String}
    {r : Except Failure Child}
    (h : (ProcessTool.spawn launcher step p.keytool arguments).ending d m = (r, d', m')) :
    (ProcessTool.run launcher p step secret arguments).ending d m = (r, d', m') :=
  (Action.ending_log_bind ..).trans h

theorem makeServerKeystore_ending {r : Except Failure Child}
    (h : (ProcessTool.spawn launcher .keypairGeneration o.keytool
      (keypairArguments o san)).ending d m = (r, d', m')) :
    (makeServerKeystore (o.programs.tool launcher) (.inDir "keys") san o.secret o.host).ending d m =
      (r.bind fun _ => .ok (), d', m') :=
  (Action.ending_log_bind ..).trans (Action.ending_bind_ofExcept (run_ending h) _)

theorem makeClientKeystore_ending {r : Except Failure Child}
    (h : (ProcessTool.spawn launcher .certificateImport o.keytool
      (importArguments o)).ending d m = (r, d', m')) :
    (makeClientKeystore (o.programs.tool launcher) (.inDir "keys") o.secret).ending d m =
      (r.bind fun _ => .ok (), d', m') :=
  (Action.ending_log_bind ..).trans (Action.ending_bind_ofExcept (run_ending h) _)

/-- An export that is of use leaves its file to be written. -/
theorem makeCertificate_ending_of_ok {child : Child}
    (h : (ProcessTool.spawn launcher .certificateExport o.keytool (exportArguments o)).ending d m =
      (.ok child, d', m')) :
    (makeCertificate (o.programs.tool launcher) (.inDir "keys") o.secret).ending d m =
      (writeCertificate child.stdout : Action τ Failure Unit).ending d' m' :=
  (Action.ending_log_bind ..).trans (Action.ending_bind_of_ok (run_ending (p := o.programs) h))

theorem makeCertificate_ending_of_error {e : Failure}
    (h : (ProcessTool.spawn launcher .certificateExport o.keytool (exportArguments o)).ending d m =
      (.error e, d', m')) :
    (makeCertificate (o.programs.tool launcher) (.inDir "keys") o.secret).ending d m =
      (.error e, d', m') :=
  (Action.ending_log_bind ..).trans (Action.ending_bind_of_error (run_ending (p := o.programs) h))

theorem writeCertificate_ending (certificate : Bytes) (d : Disk) (m : τ) :
    (writeCertificate certificate : Action τ Failure Unit).ending d m =
      match d.write "keys/client.pem" certificate with
      | .ok d' => (.ok (), d', m)
      | .error cause => (.error (.writeArtifact "keys/client.pem" cause), d, m) := by
  simp only [writeCertificate, Action.mapError, Action.onDisk?, Action.ending]
  split <;> simp_all [Except.mapError]

/-- A step changes nothing about how the run ends. -/
theorem Step.ending_eq (h : Step launcher source o s s') :
    s.ending launcher source o = s'.ending launcher source o := by
  cases h with
  | reset hreset => exact Action.ending_bind_of_ok (prepare_ending hreset)
  | resetFails hreset => exact Action.ending_bind_of_error (prepare_ending hreset)
  | @unasked d m hnot =>
    -- Only the automatic policy asks
    have hdetect : (detect (o.programs.tool launcher) o.san).ending d m = (.ok none, d, m) := by
      rw [detect, if_neg]
      · rfl
      · cases hsan : o.san <;> simp_all [SanPolicy.needsProbe]
    exact Action.ending_bind_of_ok hdetect
  | versed hauto hserved hversion =>
    have hdetect := detect_ending hauto (hserved.spawn .versionProbe)
    simp only [Except.bind, hversion, Except.map] at hdetect
    exact Action.ending_bind_of_ok hdetect
  | unreadable hauto hserved hversion =>
    have hdetect := detect_ending hauto (hserved.spawn .versionProbe)
    simp only [Except.bind, hversion, Except.map] at hdetect
    exact Action.ending_bind_of_error hdetect
  | unreported hauto hrefused =>
    exact Action.ending_bind_of_error (detect_ending hauto hrefused.spawn)
  | @unnamed d m version hw =>
    have hname : (nameServer source o.san version o.host).ending d m = (.ok none, d, m) := by
      rw [nameServer, wantsSan_eq, if_neg (by simp [hw])]
      rfl
    exact nameAndFinish_ending_of_ok hname
  | named hw hsource hsan =>
    have hname := nameServer_ending hw hsource
    simp only [Except.mapError, Except.bind, hsan, Except.map] at hname
    exact nameAndFinish_ending_of_ok hname
  | unplain hw hsource hsan =>
    have hname := nameServer_ending hw hsource
    simp only [Except.mapError, Except.bind, hsan, Except.map] at hname
    exact Action.ending_bind_of_error hname
  | unlocated hw hsource =>
    exact Action.ending_bind_of_error (nameServer_ending hw hsource)
  | @paired d d' m m' version san child hserved =>
    -- The result is put together before the first key is made; the machine does that at its end
    have hfinish : Point.rest launcher source o (.named version san) = (do
        makeServerKeystore (o.programs.tool launcher) (.inDir "keys") san o.secret o.host
        Point.rest launcher source o (.paired version san)) := by
      simp only [Point.rest, made_eq]
      rfl
    rw [State.ending, State.ending, hfinish]
    exact Action.ending_bind_of_ok (makeServerKeystore_ending (hserved.spawn _))
  | unpaired hrefused =>
    exact Action.ending_bind_of_error (makeServerKeystore_ending hrefused.spawn)
  | exported hserved =>
    exact Action.ending_bind_congr (makeCertificate_ending_of_ok (hserved.spawn _))
  | unexported hrefused =>
    exact Action.ending_bind_of_error (makeCertificate_ending_of_error hrefused.spawn)
  | @written d d' m version san certificate hwrite =>
    have hending := writeCertificate_ending certificate d m
    rw [hwrite] at hending
    exact Action.ending_bind_of_ok hending
  | @unwritten d m version san certificate cause hwrite =>
    have hending := writeCertificate_ending certificate d m
    rw [hwrite] at hending
    exact Action.ending_bind_of_error hending
  | imported hserved =>
    exact Action.ending_bind_of_ok (makeClientKeystore_ending (hserved.spawn _))
  | unimported hrefused =>
    exact Action.ending_bind_of_error (makeClientKeystore_ending hrefused.spawn)

theorem Reaches.ending_eq (h : Reaches launcher source o s s') :
    s.ending launcher source o = s'.ending launcher source o := by
  induction h with
  | refl => rfl
  | tail _ hstep ih => exact ih.trans hstep.ending_eq

/-- What the program leaves is settled by how its run ends. -/
theorem run_eq_of_ending {line : List String} (h : read line = .ok o)
    {r : Except Failure Provisioned}
    (hending : State.ending launcher source o ⟨.started, d, m⟩ = (r, d', m')) :
    run launcher source line d m = (finished r, d', m') := by
  obtain ⟨rfl, hrest⟩ := Prod.mk.inj hending
  rw [run, h]
  exact Prod.ext rfl hrest

end Machine

/-- For a command line that is understood, the program exits with 0 just if everything that it has
    to do is done: the output directory is reset, the version is known where it has to be, a server
    that is to be named is named, the three commands to the tool are of use and the certificate is
    written.  It then prints its guidance.  In all other cases it exits with 1 and prints nothing
    but the first failure. -/
theorem run_ends (launcher : Launcher τ) (source : AddressSource τ) {line : List String}
    {o : Options} (h : read line = .ok o) (d : Disk) (m : τ) :
    let r := run launcher source line d m
    let Ends s := Reaches launcher source o ⟨.started, d, m⟩ s
    (r.1.exit = 0 ↔ ∃ p d' m', Ends ⟨.finished p, d', m'⟩) ∧
    (∀ p d' m', Ends ⟨.finished p, d', m'⟩ →
      r.1.stdout = p.guidance ++ "\n" ∧ r.2 = (d', m')) ∧
    (r.1.exit ≠ 0 → ∃ e d' m', Ends ⟨.failed e, d', m'⟩) ∧
    ∀ e d' m', Ends ⟨.failed e, d', m'⟩ →
      r.1 = ⟨1, "", "ERROR: " ++ e.message ++ "\n"⟩ ∧ r.2 = (d', m') := by
  intro r Ends
  have hfinished {p d' m'} (hends : Ends ⟨.finished p, d', m'⟩) :
      r = (finished (.ok p), d', m') := run_eq_of_ending h hends.ending_eq
  have hfailed {e d' m'} (hends : Ends ⟨.failed e, d', m'⟩) :
      r = (finished (.error e), d', m') := run_eq_of_ending h hends.ending_eq
  -- The machine comes to one of the two ends, and by the two facts above the exit code tells which
  have hone : (∃ p d' m', Ends ⟨.finished p, d', m'⟩) ∨ ∃ e d' m', Ends ⟨.failed e, d', m'⟩ := by
    obtain ⟨⟨point, d', m'⟩, hends, hzero⟩ := exists_end launcher source o ⟨.started, d, m⟩
    cases point with
    | finished p => exact .inl ⟨p, d', m', hends⟩
    | failed e => exact .inr ⟨e, d', m', hends⟩
    | _ => cases hzero
  refine ⟨⟨fun hexit => ?_, ?_⟩, fun p d' m' hends => ?_, fun hexit => ?_, fun e d' m' hends => ?_⟩
  · rcases hone with hends | ⟨e, d', m', hends⟩
    · exact hends
    · rw [hfailed hends] at hexit
      cases hexit
  · rintro ⟨p, d', m', hends⟩
    rw [hfinished hends]
    rfl
  · rw [hfinished hends]
    exact ⟨rfl, rfl⟩
  · rcases hone with ⟨p, d', m', hends⟩ | hends
    · rw [hfinished hends] at hexit
      exact absurd rfl hexit
    · exact hends
  · rw [hfailed hends]
    exact ⟨rfl, rfl⟩

/-- Nothing can be started. -/
def deserted : Launcher Unit := fun _ _ d m => ⟨.error (.os .noEntry), d, m, []⟩

open OutputDir in
/-- The runtime is missing: the program says so, and leaves an empty output directory. -/
theorem run_ends_missing_runtime :
    run deserted (.fixed ⟨10, 0, 0, 7⟩) ["secret", "host"] linkedDisk () =
      (⟨1, "", "ERROR: Failed to run `java`: No such file or directory (os error 2)\n"⟩,
        linkedDisk.renewed "keys", ()) := by
  have hread : read ["secret", "host"] =
      .ok ⟨"secret", "host", "keytool", "java", .auto, "java ChainMain", "java WalletCLI"⟩ := by rfl
  have hreset := reset_eq_ok linkedDisk_standing linkedDisk_isRenewable
  obtain ⟨-, -, -, hfailed⟩ :=
    run_ends deserted (.fixed ⟨10, 0, 0, 7⟩) hread linkedDisk ()
  obtain ⟨hended, hleft⟩ := hfailed _ _ _
    (.tail (.single (.reset hreset)) (.unreported rfl (.notStarted rfl)))
  exact Prod.ext hended hleft

end CommandLine

end Keysmith
