import Keysmith.Provision
import Mathlib.Data.List.Infix

/-!
# What a run does, in order

A run reaches outside itself by six kinds of actions: it resets the output directory,
asks for the runtime's version, asks for the machine's address, and gives three commands
to the tool.  A `Ledger` lists the actions of a run as they went, each one beginning with
the disk and the memory that the one before it left; `plan` lists the actions of a run
that meets no failure.

* `run_follows_plan`  every run performs the plan up to the first failure, says to the
  log what belongs to the actions performed, and ends with the value or the failure that
  they came to

The tool and the source of the address are arbitrary: what they answer may depend on the
disk, on the calls before, and on anything else that they keep in mind.
-/

namespace Keysmith.Provision

variable {τ : Type}

/-- What a run does outside itself. -/
inductive External where
  | reset (dir : String)
  | reportVersion
  | discover
  | generateKeypair (request : KeypairRequest)
  | exportCertificate (request : ExportRequest)
  | importCertificate (request : ImportRequest)
  deriving DecidableEq

/-- What an action answers when it succeeds. -/
inductive Reply where
  | done
  | version (v : Version)
  | address (ip : Ipv4)
  deriving DecidableEq

/-- The same outcome with its value put differently. -/
def replying {α : Type} (f : α → Reply) (x : Action τ Failure α) : Action τ Failure Reply :=
  fun d m =>
    let o := x d m
    ⟨o.result.map f, o.disk, o.memory, o.events⟩

/-- How an action is performed. -/
def External.perform (tool : KeyTool τ) (source : AddressSource τ) :
    External → Action τ Failure Reply
  | reset dir => replying (fun _ => .done) (Action.onDisk (OutputDir.reset dir))
  | reportVersion => replying .version tool.reportVersion
  | discover => replying .address (source.mapError .addressDiscovery)
  | generateKeypair r => replying (fun _ => .done) (tool.generateKeypair r)
  | exportCertificate r => replying (fun _ => .done) (tool.exportCertificate r)
  | importCertificate r => replying (fun _ => .done) (tool.importCertificate r)

/-- An action as it went: what it answered, and what was said to the log meanwhile. -/
structure Taken where
  action : External
  result : Except Failure Reply
  events : List Event

/-- An action as it goes with a disk and a memory. -/
def External.taken (tool : KeyTool τ) (source : AddressSource τ) (a : External) (d : Disk)
    (m : τ) : Taken :=
  ⟨a, (a.perform tool source d m).result, (a.perform tool source d m).events⟩

/-- Actions one after another, from a disk and a memory to others. -/
inductive Ledger (tool : KeyTool τ) (source : AddressSource τ) :
    Disk → τ → List Taken → Disk → τ → Prop
  | nil (d : Disk) (m : τ) : Ledger tool source d m [] d m
  | cons (a : External) {d d' : Disk} {m m' : τ} {ts : List Taken} :
      Ledger tool source (a.perform tool source d m).disk (a.perform tool source d m).memory
        ts d' m' →
      Ledger tool source d m (a.taken tool source d m :: ts) d' m'

/-- What each of the actions keeps of the disk and the memory, all of them together keep. -/
theorem Ledger.preserves {tool : KeyTool τ} {source : AddressSource τ} {P : Disk → τ → Prop}
    {d d' : Disk} {m m' : τ} {ts : List Taken} (h : Ledger tool source d m ts d' m')
    (hstep : ∀ t ∈ ts, ∀ d m, P d m →
      P (t.action.perform tool source d m).disk (t.action.perform tool source d m).memory)
    (hd : P d m) : P d' m' := by
  induction h with
  | nil => exact hd
  | @cons a d d' m m' ts _ ih =>
    exact ih (fun t ht => hstep t (List.mem_cons_of_mem _ ht))
      (hstep _ List.mem_cons_self d m hd)

/-- What each of the actions keeps of the disk, all of them together keep. -/
theorem Ledger.keeps {tool : KeyTool τ} {source : AddressSource τ} {P : Disk → Prop}
    {d d' : Disk} {m m' : τ} {ts : List Taken} (h : Ledger tool source d m ts d' m')
    (hstep : ∀ t ∈ ts, ∀ d m, P d → P (t.action.perform tool source d m).disk) (hd : P d) :
    P d' :=
  h.preserves (P := fun d _ => P d) hstep hd

/-! ## The plan -/

/-- The version in an answer. -/
def Reply.version? : Reply → Option Version
  | version v => some v
  | _ => none

/-- The address in an answer. -/
def Reply.address? : Reply → Option Ipv4
  | address ip => some ip
  | _ => none

/-- What is first learned from actions that succeed. -/
def learned {κ : Type} (pick : Reply → Option κ) (ts : List Taken) : Option κ :=
  ts.findSome? fun t => t.result.toOption.bind pick

/-- The version that the runtime reported. -/
def reported? (ts : List Taken) : Option Version :=
  learned Reply.version? ts

/-- The address that was found out. -/
def discovered? (ts : List Taken) : Option Ipv4 :=
  learned Reply.address? ts

/-- Whether the certificate is to name the server: always, or automatically from major
    release 8 on. -/
def isWanted (policy : SanPolicy) (version : Option Version) : Bool :=
  policy == .always || policy == .auto && version.any fun v => 8 ≤ v.major

/-- The names of the server, if they are wanted. -/
def namesFor (policy : SanPolicy) (version : Option Version) (host : String)
    (ip : Option Ipv4) : Option SubjectAltName :=
  if isWanted policy version then ip.bind fun ip => (SubjectAltName.ofHost host ip).toOption
  else none

/-- The commands to the tool, with the server's names if there are any: the tool makes a key
    pair in the server's keystore, exports its certificate, and imports that into the
    client's keystore. -/
def commands (config : Config) (secret : Secret) (host : String)
    (san : Option SubjectAltName) : List External :=
  let files := Artifacts.inDir config.outDir
  [.generateKeypair
    { subject := .ofHost host
      san := san
      keystore := files.serverKeystore
      entry := "server"
      keyAlgorithm := "RSA"
      keySize := 2048
      secret := secret },
   .exportCertificate ⟨files.serverKeystore, secret, "server", files.certificate⟩,
   .importCertificate ⟨files.certificate, "server", files.clientKeystore, secret⟩]

/-- The actions of a run that meets no failure, given what it learns on the way. -/
def plan (config : Config) (secret : Secret) (host : String) (version : Option Version)
    (ip : Option Ipv4) : List External :=
  .reset config.outDir ::
    ((if config.san = .auto then [.reportVersion] else []) ++
      ((if isWanted config.san version then [.discover] else []) ++
        commands config secret host (namesFor config.san version host ip)))

/-- What a run that meets no failure ends with, given what it learned on the way. -/
def product (config : Config) (host : String) (version : Option Version)
    (ip : Option Ipv4) : Provisioned where
  artifacts := .inDir config.outDir
  san := namesFor config.san version host ip
  warnings := if isWanted config.san version then [] else (version.map downgradeWarning).toList
  serverCommand := config.serverCommand
  clientCommand := config.clientCommand

/-- What a run says to the log on account of an action, with what the action says. -/
def Taken.logged (t : Taken) : List Event :=
  match t.action, t.result with
  | .reportVersion, .ok (.version v) =>
    t.events ++ ⟨.info, s!"Detected Java {v.text}"⟩ ::
      if 8 ≤ v.major then [] else [⟨.warn, downgradeWarning v⟩]
  | .generateKeypair r, _ =>
    ⟨.info, s!"Generating server key-pairs into {r.keystore}"⟩ :: t.events
  | .exportCertificate r, _ =>
    ⟨.info, s!"Generating client certificate into {r.dest}"⟩ :: t.events
  | .importCertificate r, _ =>
    ⟨.info, s!"Generating client keystore into {r.keystore} from certificate"⟩ :: t.events
  | _, _ => t.events

/-! ## Performing a list of actions -/

/-- A list of actions is performed in order up to the first failure, which is given if
    there is one. -/
inductive Performed (tool : KeyTool τ) (source : AddressSource τ) :
    List External → Disk → τ → List Taken → Disk → τ → Option Failure → Prop
  | nil (d : Disk) (m : τ) : Performed tool source [] d m [] d m none
  | failed (a : External) (as : List External) {d : Disk} {m : τ} {e : Failure} :
      (a.perform tool source d m).result = .error e →
      Performed tool source (a :: as) d m [a.taken tool source d m]
        (a.perform tool source d m).disk (a.perform tool source d m).memory (some e)
  | step (a : External) {as : List External} {d d' : Disk} {m m' : τ} {ts : List Taken}
      {r : Reply} {f : Option Failure} :
      (a.perform tool source d m).result = .ok r →
      Performed tool source as (a.perform tool source d m).disk
        (a.perform tool source d m).memory ts d' m' f →
      Performed tool source (a :: as) d m (a.taken tool source d m :: ts) d' m' f

namespace Performed

variable {tool : KeyTool τ} {source : AddressSource τ} {as : List External} {d d' : Disk}
  {m m' : τ} {ts : List Taken} {f : Option Failure}

theorem ledger (h : Performed tool source as d m ts d' m' f) :
    Ledger tool source d m ts d' m' := by
  induction h with
  | nil d m => exact .nil d m
  | failed a as _ => exact .cons a (.nil _ _)
  | step a _ _ ih => exact .cons a ih

/-- The first action is performed in any case, and the others begin where it ended. -/
theorem of_cons {a : External} (h : Performed tool source (a :: as) d m ts d' m' f) :
    ∃ rest, ts = a.taken tool source d m :: rest ∧
      Ledger tool source (a.perform tool source d m).disk (a.perform tool source d m).memory
        rest d' m' := by
  cases h with
  | failed a as _ => exact ⟨[], rfl, .nil _ _⟩
  | step a _ h => exact ⟨_, rfl, h.ledger⟩

theorem actions_prefix_of (h : Performed tool source as d m ts d' m' f) :
    ts.map Taken.action <+: as := by
  induction h with
  | nil d m => exact List.prefix_rfl
  | failed a as _ => exact (List.prefix_cons_inj a).mpr List.nil_prefix
  | step a _ _ ih => exact (List.prefix_cons_inj a).mpr ih

/-- All actions but the last one succeeded. -/
theorem ok_of_mem_dropLast (h : Performed tool source as d m ts d' m' f) :
    ∀ t ∈ ts.dropLast, ∃ r, t.result = .ok r := by
  induction h with
  | nil d m => simp
  | failed a as _ => simp
  | @step a as d d' m m' ts r f ha h ih =>
    cases ts with
    | nil => simp
    | cons t ts =>
      -- The action is not the last one, and it succeeded
      rw [List.dropLast_cons_of_ne_nil (List.cons_ne_nil t ts)]
      intro u hu
      rcases List.mem_cons.mp hu with rfl | hu
      · exact ⟨r, ha⟩
      · exact ih u hu

/-- Without a failure, all actions are performed and succeed. -/
theorem of_none (h : Performed tool source as d m ts d' m' none) :
    ts.map Taken.action = as ∧ ∀ t ∈ ts, ∃ r, t.result = .ok r := by
  generalize hf : none = f at h
  induction h with
  | nil d m => exact ⟨rfl, by simp⟩
  | failed a as _ => cases hf
  | @step a as d d' m m' ts r f ha h ih =>
    obtain ⟨hactions, hok⟩ := ih hf
    refine ⟨by rw [List.map_cons, hactions]; rfl, ?_⟩
    intro u hu
    rcases List.mem_cons.mp hu with rfl | hu
    · exact ⟨r, ha⟩
    · exact hok u hu

/-- A failure is that of the last action performed. -/
theorem of_some {e : Failure} (h : Performed tool source as d m ts d' m' (some e)) :
    ∃ t, ts.getLast? = some t ∧ t.result = .error e := by
  generalize hf : some e = f at h
  induction h with
  | nil d m => cases hf
  | failed a as ha =>
    cases hf
    exact ⟨_, rfl, ha⟩
  | @step a as d d' m m' ts r f ha h ih =>
    obtain ⟨t, ht, he⟩ := ih hf
    exact ⟨t, by rw [List.getLast?_cons, ht]; rfl, he⟩

end Performed

section Learning

variable {tool : KeyTool τ} {source : AddressSource τ} {κ : Type} {pick : Reply → Option κ}
  {a : External} {d : Disk} {m : τ}

theorem learned_cons_of_ok {reply : Reply} (h : (a.perform tool source d m).result = .ok reply)
    (ts : List Taken) :
    learned pick (a.taken tool source d m :: ts) = (pick reply).or (learned pick ts) := by
  rw [learned, List.findSome?_cons, External.taken, h, Except.toOption, Option.bind_some]
  cases pick reply <;> rfl

theorem learned_singleton_of_error {e : Failure}
    (h : (a.perform tool source d m).result = .error e) :
    learned pick [a.taken tool source d m] = none := by
  rw [learned, List.findSome?_cons, External.taken, h]
  rfl

/-- Nothing is learned from actions whose answers do not tell it. -/
theorem Performed.learned_eq_none {as : List External} {d d' : Disk} {m m' : τ}
    {ts : List Taken} {f : Option Failure} (h : Performed tool source as d m ts d' m' f)
    (hno : ∀ a ∈ as, ∀ d m r, (a.perform tool source d m).result = .ok r → pick r = none) :
    learned pick ts = none := by
  induction h with
  | nil => rfl
  | failed a as ha => exact learned_singleton_of_error ha
  | step a ha h ih =>
    rw [learned_cons_of_ok ha, hno a List.mem_cons_self _ _ _ ha]
    exact ih fun a ha => hno a (List.mem_cons_of_mem _ ha)

theorem replying_ok {α : Type} {f : α → Reply} {x : Action τ Failure α} {v : α}
    (h : (x d m).result = .ok v) : (replying f x d m).result = .ok (f v) := by
  rw [replying, h]
  rfl

theorem replying_error {α : Type} {f : α → Reply} {x : Action τ Failure α} {e : Failure}
    (h : (x d m).result = .error e) : (replying f x d m).result = .error e := by
  rw [replying, h]
  rfl

theorem replying_eq_ok {α : Type} {f : α → Reply} {x : Action τ Failure α} {r : Reply}
    (h : (replying f x d m).result = .ok r) : ∃ v, r = f v := by
  cases hx : (x d m).result with
  | error e => cases (replying_error hx).symm.trans h
  | ok v => exact ⟨v, Except.ok.inj (h.symm.trans (replying_ok hx))⟩

/-- Only the runtime reports a version. -/
theorem version?_eq_none (hne : a ≠ .reportVersion) (d : Disk) (m : τ) (r : Reply)
    (h : (a.perform tool source d m).result = .ok r) : r.version? = none := by
  cases a with
  | reportVersion => exact absurd rfl hne
  | _ =>
    obtain ⟨v, rfl⟩ := replying_eq_ok h
    rfl

/-- Only the source of the address gives one. -/
theorem address?_eq_none (hne : a ≠ .discover) (d : Disk) (m : τ) (r : Reply)
    (h : (a.perform tool source d m).result = .ok r) : r.address? = none := by
  cases a with
  | discover => exact absurd rfl hne
  | _ =>
    obtain ⟨v, rfl⟩ := replying_eq_ok h
    rfl

end Learning

/-! ## The course of a run -/

/-- What is left of a run performs the actions `as`, after saying `first` to the log, and
    ends with `r` if none of them fails. -/
def Course (tool : KeyTool τ) (source : AddressSource τ) {β : Type} (y : Action τ Failure β)
    (d : Disk) (m : τ) (as : List External) (ts : List Taken) (first : List Event)
    (r : Except Failure β) : Prop :=
  ∃ f, Performed tool source as d m ts (y d m).disk (y d m).memory f ∧
    (y d m).events = first ++ ts.flatMap Taken.logged ∧
    (y d m).result = f.elim r .error

section Course

variable {tool : KeyTool τ} {source : AddressSource τ} {α β : Type} {x : Action τ Failure α}
  {g : α → Action τ Failure β} {a : External} {as : List External} {d : Disk} {m : τ}
  {ts : List Taken} {first rest : List Event} {r : Except Failure β}

theorem bind_of_ok {v : α} (h : (x d m).result = .ok v) :
    (x >>= g) d m =
      ⟨(g v (x d m).disk (x d m).memory).result, (g v (x d m).disk (x d m).memory).disk,
        (g v (x d m).disk (x d m).memory).memory,
        (x d m).events ++ (g v (x d m).disk (x d m).memory).events⟩ := by
  simp only [bind, Action.bind, h]

theorem bind_assoc {γ : Type} (x : Action τ Failure α) (g : α → Action τ Failure β)
    (k : β → Action τ Failure γ) : x >>= g >>= k = x >>= fun a => g a >>= k := by
  funext d m
  cases hx : (x d m).result with
  | error e => simp only [bind, Action.bind, hx]
  | ok a =>
    cases hg : (g a (x d m).disk (x d m).memory).result with
    | error e => simp only [bind, Action.bind, hx, hg]
    | ok b => simp only [bind, Action.bind, hx, hg, List.append_assoc]

theorem bind_of_error {e : Failure} (h : (x d m).result = .error e) :
    (x >>= g) d m = ⟨.error e, (x d m).disk, (x d m).memory, (x d m).events⟩ := by
  simp only [bind, Action.bind, h]

/-- A run without actions left. -/
theorem Course.nil {y : Action τ Failure β} (hy : y d m = ⟨r, d, m, first⟩) :
    Course tool source y d m [] [] first r :=
  ⟨none, by rw [hy]; exact .nil d m, by simp [hy], by rw [hy]; rfl⟩

/-- A part of a run that performs no action. -/
theorem Course.silent {v : α} (first : List Event) (hx : x d m = ⟨.ok v, d, m, first⟩)
    (h : Course tool source (g v) d m as ts rest r) :
    Course tool source (x >>= g) d m as ts (first ++ rest) r := by
  obtain ⟨f, hperf, hevents, hresult⟩ := h
  have hb := bind_of_ok (g := g) (congrArg Outcome.result hx)
  rw [hx] at hb
  refine ⟨f, ?_, ?_, ?_⟩
  · rwa [hb]
  · rw [hb, List.append_assoc, ← hevents]
  · rw [hb, ← hresult]

/-- A part of a run that performs an action which succeeds. -/
theorem Course.step {v : α} {reply : Reply} (hx : (x d m).result = .ok v)
    (ha : (a.perform tool source d m).result = .ok reply)
    (hdisk : (x d m).disk = (a.perform tool source d m).disk)
    (hmem : (x d m).memory = (a.perform tool source d m).memory)
    (hlog : (x d m).events ++ rest = first ++ (a.taken tool source d m).logged)
    (h : Course tool source (g v) (x d m).disk (x d m).memory as ts rest r) :
    Course tool source (x >>= g) d m (a :: as) (a.taken tool source d m :: ts) first r := by
  obtain ⟨f, hperf, hevents, hresult⟩ := h
  rw [hdisk, hmem] at hperf
  have hb := bind_of_ok (g := g) hx
  rw [hdisk, hmem] at hb hresult
  refine ⟨f, ?_, ?_, ?_⟩
  · rw [hb]
    exact .step a ha hperf
  · rw [hb, ← hdisk, ← hmem, hevents, ← List.append_assoc, hlog, List.append_assoc,
      List.flatMap_cons]
  · rw [hb, ← hresult]

/-- A part of a run that performs an action which fails. -/
theorem Course.stop {e : Failure} (hx : (x d m).result = .error e)
    (ha : (a.perform tool source d m).result = .error e)
    (hdisk : (x d m).disk = (a.perform tool source d m).disk)
    (hmem : (x d m).memory = (a.perform tool source d m).memory)
    (hlog : (x d m).events = first ++ (a.taken tool source d m).logged) :
    Course tool source (x >>= g) d m (a :: as) [a.taken tool source d m] first r := by
  have hb := bind_of_error (g := g) hx
  refine ⟨some e, ?_, ?_, ?_⟩
  · rw [hb, hdisk, hmem]
    exact .failed a as ha
  · rw [hb, hlog]
    simp
  · rw [hb]
    rfl

end Course

/-! ## The stages of a run -/

section Stages

variable {tool : KeyTool τ} {source : AddressSource τ} {config : Config} {secret : Secret}
  {host : String}

theorem wantsSan_eq (policy : SanPolicy) (version : Option Version) :
    policy.wantsSan version = isWanted policy version := by
  cases policy <;> rfl

/-- The last stage: the commands to the tool. -/
def finish (tool : KeyTool τ) (config : Config) (secret : Secret) (host : String)
    (san : Option SubjectAltName) (warnings : List String) : Action τ Failure Provisioned := do
  makeServerKeystore tool (.inDir config.outDir) san secret host
  makeCertificate tool (.inDir config.outDir) secret
  makeClientKeystore tool (.inDir config.outDir) secret
  return ⟨.inDir config.outDir, san, warnings, config.serverCommand, config.clientCommand⟩

/-- The last two stages: naming the server, or warning that it is not named. -/
def nameAndFinish (tool : KeyTool τ) (source : AddressSource τ) (config : Config)
    (secret : Secret) (host : String) (version : Option Version) :
    Action τ Failure Provisioned := do
  let san ← nameServer source config.san version host
  (warningsFor config.san version).forM (Action.log .warn)
  finish tool config secret host san (warningsFor config.san version)

theorem run_eq : run tool source config secret host = (do
    prepare config
    let version ← detect tool config.san
    nameAndFinish tool source config secret host version) := rfl

/-- A command to the tool, announced in the log. -/
private theorem course_command {β : Type} {call : Action τ Failure Unit} {a : External}
    {text : String} {d : Disk} {m : τ} {g : Unit → Action τ Failure β} {as : List External}
    {r : Except Failure β} (ha : a.perform tool source = replying (fun _ => .done) call)
    (hlog : ∀ e res, (Taken.mk a res e).logged = ⟨.info, text⟩ :: e)
    (hg : ∀ d m, ∃ ts, Course tool source (g ()) d m as ts [] r) :
    ∃ ts, Course tool source ((do Action.log .info text; call) >>= g) d m (a :: as) ts [] r := by
  have hevents : (External.taken tool source a d m).logged =
      ((do Action.log .info text; call : Action τ Failure Unit) d m).events := by
    rw [External.taken, hlog, ha]
    rfl
  cases hc : (call d m).result with
  | error e =>
    -- The call fails, and with it what is left of the run
    refine ⟨_, .stop hc ?_ ?_ ?_ hevents.symm⟩
    · rw [ha]
      exact replying_error hc
    · rw [ha]
      rfl
    · rw [ha]
      rfl
  | ok u =>
    have hperform : (a.perform tool source d m).result = .ok .done := by
      rw [ha]
      exact replying_ok hc
    obtain ⟨ts, hts⟩ := hg (call d m).disk (call d m).memory
    refine ⟨_, .step hc hperform ?_ ?_ ?_ hts⟩
    · rw [ha]
      rfl
    · rw [ha]
      rfl
    · rw [hevents, List.append_nil, List.nil_append]

private theorem finish_course (tool : KeyTool τ) (source : AddressSource τ) (config : Config)
    (secret : Secret) (host : String) (san : Option SubjectAltName) (warnings : List String)
    (d : Disk) (m : τ) : ∃ ts, Course tool source (finish tool config secret host san warnings) d m
      (commands config secret host san) ts []
      (.ok ⟨.inDir config.outDir, san, warnings, config.serverCommand, config.clientCommand⟩) :=
  course_command rfl (fun _ _ => rfl) fun _ _ =>
    course_command rfl (fun _ _ => rfl) fun _ _ =>
      course_command rfl (fun _ _ => rfl) fun _ _ => ⟨[], .nil rfl⟩

/-- What a run can still come to once the version is known: the rest of the plan, or a
    host name that cannot be used. -/
private inductive Settles (config : Config) (secret : Secret) (host : String)
    (version : Option Version) (ts : List Taken) :
    List External → Except Failure Provisioned → Prop
  | planned :
      (∀ req, .generateKeypair req ∈ ts.map Taken.action → isWanted config.san version = true →
        Hostname.isPlain host = true) →
      Settles config secret host version ts
        ((if isWanted config.san version then [.discover] else []) ++
          commands config secret host (namesFor config.san version host (discovered? ts)))
        (.ok (product config host version (discovered? ts)))
  | refused :
      isWanted config.san version = true → Hostname.isPlain host = false →
      Settles config secret host version ts [.discover] (.error (.invalidHostname host))

private theorem Settles.cons {version : Option Version} {t : Taken} {ts : List Taken}
    {as : List External} {r : Except Failure Provisioned}
    (h : Settles config secret host version ts as r)
    (hip : discovered? (t :: ts) = discovered? ts)
    (hkey : ∀ req, t.action ≠ .generateKeypair req) :
    Settles config secret host version (t :: ts) as r := by
  cases h with
  | planned hplain =>
    rw [← hip]
    refine .planned fun req hreq hw => hplain req ?_ hw
    exact (List.mem_cons.mp hreq).resolve_left fun heq => hkey req heq.symm
  | refused hw hplain => exact .refused hw hplain

private theorem commands_learn_nothing {san : Option SubjectAltName} {d d' : Disk} {m m' : τ}
    {ts : List Taken} {f : Option Failure}
    (h : Performed tool source (commands config secret host san) d m ts d' m' f) :
    reported? ts = none ∧ discovered? ts = none := by
  constructor
  · refine h.learned_eq_none fun a ha => version?_eq_none ?_
    rintro rfl
    simp [commands] at ha
  · refine h.learned_eq_none fun a ha => address?_eq_none ?_
    rintro rfl
    simp [commands] at ha

variable (tool source config secret host)

/-- The last two stages without the server's names: a warning if the runtime was asked. -/
private theorem nameAndFinish_unwanted {version : Option Version}
    (hw : isWanted config.san version = false) (d : Disk) (m : τ) :
    ∃ as ts r, Course tool source (nameAndFinish tool source config secret host version) d m
      as ts (version.map fun v => ⟨.warn, downgradeWarning v⟩).toList r ∧
      reported? ts = none ∧ Settles config secret host version ts as r := by
  obtain ⟨ts, hts⟩ :=
    finish_course tool source config secret host none (version.map downgradeWarning).toList d m
  obtain ⟨f, hperf, _⟩ := id hts
  have hwants := (wantsSan_eq config.san version).trans hw
  have hname : nameServer source config.san version host = (pure none : Action τ Failure _) := by
    rw [nameServer, hwants]
    rfl
  have hwarn : warningsFor config.san version = (version.map downgradeWarning).toList := by
    rw [warningsFor, hwants]
    rfl
  -- Nothing is asked of the network, and no name is needed
  refine ⟨_, ts, _, ?_, (commands_learn_nothing hperf).1, .planned ?_⟩
  · rw [nameAndFinish, hname, hwarn, product, namesFor, hw]
    refine .silent [] rfl ?_
    rw [← List.append_nil (Option.toList _)]
    cases version with
    | none => exact .silent [] rfl hts
    | some v => exact .silent [⟨.warn, downgradeWarning v⟩] rfl hts
  · intro _ _ hwanted
    exact absurd hwanted (by simp [hw])

/-- The last two stages with the server's names, which need the machine's address and a
    plain host name. -/
private theorem nameAndFinish_wanted {version : Option Version}
    (hw : isWanted config.san version = true) (d : Disk) (m : τ) :
    ∃ as ts r, Course tool source (nameAndFinish tool source config secret host version) d m
      as ts [] r ∧ reported? ts = none ∧ Settles config secret host version ts as r := by
  have hwants := (wantsSan_eq config.san version).trans hw
  have hname : nameServer source config.san version host =
      (source.mapError .addressDiscovery >>= fun ip =>
        some <$> Action.ofExcept (SubjectAltName.ofHost host ip)) := by
    rw [nameServer, hwants]
    rfl
  have hwarn : warningsFor config.san version = [] := by
    rw [warningsFor, hwants]
    rfl
  rw [nameAndFinish, hname, hwarn, bind_assoc]
  let find : Action τ Failure Ipv4 := source.mapError .addressDiscovery
  cases hs : (find d m).result with
  | error e =>
    -- Without the address no key is made
    have hperform : (External.perform tool source .discover d m).result = .error e :=
      replying_error hs
    have hplanned : Settles config secret host version [External.taken tool source .discover d m]
        _ _ := .planned (by simp [External.taken])
    rw [if_pos hw] at hplanned
    exact ⟨_, _, _, .stop hs hperform rfl rfl rfl, learned_singleton_of_error hperform, hplanned⟩
  | ok ip =>
    have hperform : (External.perform tool source .discover d m).result = .ok (.address ip) :=
      replying_ok hs
    cases hplain : Hostname.isPlain host with
    | false =>
      -- The address is known by now, but the host name ends the run here
      have hofHost : SubjectAltName.ofHost host ip = .error (.invalidHostname host) := by
        rw [SubjectAltName.ofHost, dif_neg (by simp [hplain])]
      have hrest : Course tool source ((some <$> Action.ofExcept (SubjectAltName.ofHost host ip))
          >>= fun san => do
            List.forM [] (Action.log .warn)
            finish tool config secret host san [])
          (find d m).disk (find d m).memory [] [] [] (.error (.invalidHostname host)) := by
        rw [hofHost]
        exact .nil rfl
      exact ⟨_, _, _, .step hs hperform rfl rfl (List.append_nil _) hrest,
        learned_cons_of_ok hperform [], .refused hw hplain⟩
    | true =>
      -- The server has its names, and the commands are given
      have hofHost : SubjectAltName.ofHost host ip = .ok ⟨host, ip, hplain⟩ := by
        rw [SubjectAltName.ofHost, dif_pos hplain]
      have hnames : namesFor config.san version host (some ip) = some ⟨host, ip, hplain⟩ := by
        rw [namesFor, if_pos hw, Option.bind_some, hofHost]
        rfl
      obtain ⟨ts, hts⟩ := finish_course tool source config secret host
        (some ⟨host, ip, hplain⟩) [] (find d m).disk (find d m).memory
      obtain ⟨f, hperf, _⟩ := id hts
      have hdiscovered :
          discovered? (External.taken tool source .discover d m :: ts) = some ip :=
        learned_cons_of_ok hperform ts
      have hplanned : Settles config secret host version
          (External.taken tool source .discover d m :: ts) _ _ := .planned fun _ _ _ => hplain
      rw [if_pos hw, hdiscovered, hnames, product, hnames, if_pos hw] at hplanned
      refine ⟨_, _, _, .step hs hperform rfl rfl (List.append_nil _) ?_,
        (learned_cons_of_ok hperform ts).trans (commands_learn_nothing hperf).1, hplanned⟩
      refine .silent [] ?_ (.silent [] rfl hts)
      rw [hofHost]
      rfl

/-- The last two stages, with the warning that a runtime which was asked is too old. -/
private theorem nameAndFinish_course (version : Option Version) (d : Disk) (m : τ) :
    ∃ as ts r, Course tool source (nameAndFinish tool source config secret host version) d m
      as ts (if isWanted config.san version then []
        else (version.map fun v => ⟨.warn, downgradeWarning v⟩).toList) r ∧
      reported? ts = none ∧ Settles config secret host version ts as r := by
  cases hw : isWanted config.san version with
  | false => exact nameAndFinish_unwanted tool source config secret host hw d m
  | true => exact nameAndFinish_wanted tool source config secret host hw d m

/-- The last three stages: asking for the version under the automatic policy, then the
    last two. -/
private theorem detect_course (d : Disk) (m : τ) :
    ∃ as ts r, Course tool source (detect tool config.san >>=
        nameAndFinish tool source config secret host) d m
      ((if config.san = .auto then [.reportVersion] else []) ++ as) ts [] r ∧
      Settles config secret host (reported? ts) ts as r := by
  by_cases hauto : config.san = .auto
  · have hdetect : detect tool config.san = tool.reportVersion >>= fun v => do
        Action.log .info s!"Detected Java {v.text}"
        return some v := by
      rw [hauto]
      rfl
    rw [if_pos hauto, hdetect, bind_assoc]
    cases hv : (tool.reportVersion d m).result with
    | error e =>
      have hperform : (External.perform tool source .reportVersion d m).result = .error e :=
        replying_error hv
      have hlogged : (External.taken tool source .reportVersion d m).logged =
          (tool.reportVersion d m).events := by
        rw [External.taken, hperform]
        rfl
      exact ⟨_, _, _, .stop hv hperform rfl rfl hlogged.symm,
        .planned (by simp [External.taken])⟩
    | ok v =>
      have hperform :
          (External.perform tool source .reportVersion d m).result = .ok (.version v) :=
        replying_ok hv
      obtain ⟨as, ts, r, hcourse, hversion, hsettles⟩ :=
        nameAndFinish_course tool source config secret host (some v)
          (tool.reportVersion d m).disk (tool.reportVersion d m).memory
      have hreported :
          reported? (External.taken tool source .reportVersion d m :: ts) = some v :=
        learned_cons_of_ok hperform ts
      have hdiscovered :
          discovered? (External.taken tool source .reportVersion d m :: ts) = discovered? ts :=
        learned_cons_of_ok hperform ts
      -- The warning comes right after the report, before the next action
      have hlogged : (External.taken tool source .reportVersion d m).logged =
          (tool.reportVersion d m).events ++ ([⟨.info, s!"Detected Java {v.text}"⟩] ++
            if isWanted config.san (some v) then [] else [⟨.warn, downgradeWarning v⟩]) := by
        rw [External.taken, hperform, hauto]
        simp [Taken.logged, isWanted, External.perform, replying]
      refine ⟨as, _, r, .step hv hperform rfl rfl hlogged.symm (.silent _ rfl hcourse), ?_⟩
      rw [hreported]
      exact hsettles.cons hdiscovered fun req => by simp [External.taken]
  · have hdetect : detect tool config.san = (pure none : Action τ Failure _) := by
      cases hsan : config.san with
      | auto => exact absurd hsan hauto
      | _ => rfl
    obtain ⟨as, ts, r, hcourse, hversion, hsettles⟩ :=
      nameAndFinish_course tool source config secret host none d m
    rw [if_neg hauto, hdetect]
    refine ⟨as, ts, r, .silent [] rfl ?_, by rwa [hversion]⟩
    rwa [Option.map_none, Option.toList_none, ite_self] at hcourse

/-- The whole run. -/
private theorem run_course (d : Disk) (m : τ) :
    ∃ as ts r, Course tool source (run tool source config secret host) d m
      (.reset config.outDir :: ((if config.san = .auto then [.reportVersion] else []) ++ as))
      ts [] r ∧ Settles config secret host (reported? ts) ts as r := by
  rw [run_eq]
  cases hreset : (OutputDir.reset config.outDir d).1 with
  | error e =>
    have hperform :
        (External.perform tool source (.reset config.outDir) d m).result = .error e :=
      replying_error hreset
    exact ⟨_, _, _, .stop hreset hperform rfl rfl rfl, .planned (by simp [External.taken])⟩
  | ok u =>
    have hperform :
        (External.perform tool source (.reset config.outDir) d m).result = .ok .done :=
      replying_ok hreset
    obtain ⟨as, ts, r, hcourse, hsettles⟩ :=
      detect_course tool source config secret host (OutputDir.reset config.outDir d).2 m
    have hreported :
        reported? (External.taken tool source (.reset config.outDir) d m :: ts) = reported? ts :=
      learned_cons_of_ok hperform ts
    refine ⟨as, _, r, .step hreset hperform rfl rfl rfl hcourse, ?_⟩
    rw [hreported]
    exact hsettles.cons (learned_cons_of_ok hperform ts) fun req => by simp [External.taken]

end Stages

/-! ## The run -/

theorem plan_nodup (config : Config) (secret : Secret) (host : String)
    (version : Option Version) (ip : Option Ipv4) :
    (plan config secret host version ip).Nodup := by
  unfold plan commands
  split_ifs <;> simp

/-- What it means that a run which took certain actions followed the plan. -/
structure FollowsPlan (tool : KeyTool τ) (source : AddressSource τ) (config : Config)
    (secret : Secret) (host : String) (d : Disk) (m : τ) (ts : List Taken)
    (o : Outcome τ Failure Provisioned) : Prop where
  /-- The actions were taken one after another, and nothing else touched the disk or the
      memory. -/
  ledger : Ledger tool source d m ts o.disk o.memory
  /-- They are the plan's, in the plan's order, up to some point. -/
  inOrder : ts.map Taken.action <+: plan config secret host (reported? ts) (discovered? ts)
  /-- None was taken twice. -/
  once : (ts.map Taken.action).Nodup
  /-- Each was taken only after all those before it had succeeded. -/
  afterSuccess : ∀ t ∈ ts.dropLast, ∃ reply, t.result = .ok reply
  /-- No key was made before the host name was accepted, if the certificate is to name the
      server. -/
  hostFirst : ∀ request, .generateKeypair request ∈ ts.map Taken.action →
    isWanted config.san (reported? ts) = true → Hostname.isPlain host = true
  /-- The log holds what belongs to the actions taken, in their order. -/
  log : o.events = ts.flatMap Taken.logged
  /-- The run succeeded just if the whole plan did. -/
  success : (∃ p, o.result = .ok p) ↔
    ts.map Taken.action = plan config secret host (reported? ts) (discovered? ts) ∧
      ∀ t ∈ ts, ∃ reply, t.result = .ok reply
  /-- It ended with what the plan promises. -/
  value : ∀ p, o.result = .ok p → p = product config host (reported? ts) (discovered? ts)
  /-- It failed as its last action did, or for the host name after all went well as far as
      the address. -/
  failure : ∀ e, o.result = .error e →
    (∃ t, ts.getLast? = some t ∧ t.result = .error e) ∨
    (∃ t, ts.getLast? = some t ∧ t.action = .discover) ∧
      (∀ t ∈ ts, ∃ reply, t.result = .ok reply) ∧
      isWanted config.san (reported? ts) = true ∧ Hostname.isPlain host = false ∧
      e = .invalidHostname host

variable {tool : KeyTool τ} {source : AddressSource τ} {config : Config} {secret : Secret}
  {host : String} {d : Disk} {m : τ} {ts : List Taken} {o : Outcome τ Failure Provisioned}
  {f : Option Failure}

/-- The actions after the first one are those of the plan after the reset. -/
theorem FollowsPlan.mem_plan_tail {t₀ : Taken}
    (h : FollowsPlan tool source config secret host d m (t₀ :: ts) o) {t : Taken} (ht : t ∈ ts) :
    ∃ version ip, t.action ∈ (plan config secret host version ip).tail := by
  obtain ⟨-, hrest⟩ := List.cons_prefix_cons.mp h.inOrder
  exact ⟨_, _, hrest.subset (List.mem_map_of_mem ht)⟩

/-- A run whose actions are the plan's up to the first failure, if there is one. -/
private theorem FollowsPlan.of_planned
    (hperf : Performed tool source
      (plan config secret host (reported? ts) (discovered? ts)) d m ts o.disk o.memory f)
    (hevents : o.events = ts.flatMap Taken.logged)
    (hresult : o.result =
      f.elim (.ok (product config host (reported? ts) (discovered? ts))) .error)
    (hplain : ∀ request, .generateKeypair request ∈ ts.map Taken.action →
      isWanted config.san (reported? ts) = true → Hostname.isPlain host = true) :
    FollowsPlan tool source config secret host d m ts o where
  ledger := hperf.ledger
  inOrder := hperf.actions_prefix_of
  once := (plan_nodup ..).sublist hperf.actions_prefix_of.sublist
  afterSuccess := hperf.ok_of_mem_dropLast
  hostFirst := hplain
  log := hevents
  success := by
    rw [hresult]
    cases f with
    | none => exact ⟨fun _ => hperf.of_none, fun _ => ⟨_, rfl⟩⟩
    | some e =>
      obtain ⟨t, hlast, ht⟩ := hperf.of_some
      refine iff_of_false (by simp) fun hall => ?_
      obtain ⟨reply, hreply⟩ := hall.2 t (List.mem_of_getLast? hlast)
      cases ht.symm.trans hreply
  value p hp := by
    rw [hresult] at hp
    cases f with
    | none => exact (Except.ok.inj hp).symm
    | some e => cases hp
  failure e he := by
    rw [hresult] at he
    cases f with
    | none => cases he
    | some e' =>
      cases he
      exact .inl hperf.of_some

/-- A run that goes as far as the address and cannot use the host name. -/
private theorem FollowsPlan.of_refused
    (hw : isWanted config.san (reported? ts) = true) (hnot : Hostname.isPlain host = false)
    (hperf : Performed tool source (.reset config.outDir ::
      ((if config.san = .auto then [.reportVersion] else []) ++ [.discover]))
      d m ts o.disk o.memory f)
    (hevents : o.events = ts.flatMap Taken.logged)
    (hresult : o.result = f.elim (.error (.invalidHostname host)) .error) :
    FollowsPlan tool source config secret host d m ts o := by
  let before : List External :=
    .reset config.outDir :: (if config.san = .auto then [.reportVersion] else [])
  have hplan : plan config secret host (reported? ts) (discovered? ts) =
      before ++ [.discover] ++
        commands config secret host (namesFor config.san (reported? ts) host (discovered? ts)) := by
    simp [plan, hw, before]
  have hshort : ts.map Taken.action <+: before ++ [.discover] := hperf.actions_prefix_of
  have hinOrder : ts.map Taken.action <+:
      plan config secret host (reported? ts) (discovered? ts) := by
    rw [hplan]
    exact hshort.trans (List.prefix_append _ _)
  -- The run fails in any case, if not by an action then for the host name
  have hfailed : ∃ e, o.result = .error e := by
    rw [hresult]
    cases f <;> exact ⟨_, rfl⟩
  refine ⟨hperf.ledger, hinOrder, (plan_nodup ..).sublist hinOrder.sublist,
    hperf.ok_of_mem_dropLast, ?_, hevents, ?_, ?_, ?_⟩
  · intro request hmem
    have hkey := hshort.subset hmem
    simp only [before] at hkey
    split_ifs at hkey <;> simp at hkey
  · obtain ⟨e, he⟩ := hfailed
    refine iff_of_false (by simp [he]) fun hall => ?_
    -- The plan goes on after the address
    have hlen := hshort.length_le
    rw [hall.1, hplan] at hlen
    simp [commands] at hlen
  · intro p hp
    obtain ⟨e, he⟩ := hfailed
    cases he.symm.trans hp
  · intro e he
    rw [hresult] at he
    cases f with
    | none =>
      cases he
      obtain ⟨heq, hok⟩ := hperf.of_none
      have hlast : (ts.map Taken.action).getLast? = some .discover := by
        rw [heq, ← List.cons_append, List.getLast?_concat]
      rw [List.getLast?_map] at hlast
      obtain ⟨t, ht, hdiscover⟩ := Option.map_eq_some_iff.mp hlast
      exact .inr ⟨⟨t, ht, hdiscover⟩, hok, hw, hnot, rfl⟩
    | some e' =>
      cases he
      exact .inl hperf.of_some

/-- Every run follows the plan. -/
theorem run_follows_plan (tool : KeyTool τ) (source : AddressSource τ) (config : Config)
    (secret : Secret) (host : String) (d : Disk) (m : τ) :
    ∃ ts, FollowsPlan tool source config secret host d m ts
      (run tool source config secret host d m) := by
  obtain ⟨as, ts, r, ⟨f, hperf, hevents, hresult⟩, hsettles⟩ :=
    run_course tool source config secret host d m
  rw [List.nil_append] at hevents
  generalize run tool source config secret host d m = o at *
  cases hsettles with
  | planned hplain => exact ⟨ts, .of_planned hperf hevents hresult hplain⟩
  | refused hw hnot => exact ⟨ts, .of_refused hw hnot hperf hevents hresult⟩

/-- A run whose reset fails does nothing else. -/
theorem run_of_reset_error {d' : Disk} {e : Failure}
    (h : OutputDir.reset config.outDir d = (.error e, d')) :
    run tool source config secret host d m = ⟨.error e, d', m, []⟩ := by
  simp only [run, bind, Action.bind, prepare, Action.onDisk, h]

/-- The first action of a run is the reset of the output directory; all others begin with
    the disk that it left. -/
theorem run_begins_with_reset (tool : KeyTool τ) (source : AddressSource τ) (config : Config)
    (secret : Secret) (host : String) (d : Disk) (m : τ) :
    let o := run tool source config secret host d m
    ∃ ts, FollowsPlan tool source config secret host d m
        ((External.reset config.outDir).taken tool source d m :: ts) o ∧
      Ledger tool source (OutputDir.reset config.outDir d).2 m ts o.disk o.memory := by
  intro o
  obtain ⟨as, _, r, ⟨f, hperf, hevents, hresult⟩, hsettles⟩ :=
    run_course tool source config secret host d m
  obtain ⟨ts, rfl, hrest⟩ := hperf.of_cons
  rw [List.nil_append] at hevents
  refine ⟨ts, ?_, hrest⟩
  cases hsettles with
  | planned hplain => exact .of_planned hperf hevents hresult hplain
  | refused hw hnot => exact .of_refused hw hnot hperf hevents hresult

end Keysmith.Provision
