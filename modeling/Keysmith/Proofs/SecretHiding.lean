import Keysmith.Proofs.ArgumentReading
import Keysmith.Proofs.ChildProcesses
import Keysmith.Proofs.DirectoryRenewal
import Keysmith.Proofs.WriteOutcome
import Mathlib.Data.List.Forall2
import Mathlib.Data.List.ReduceOption

/-!
# The secret reaches the child processes only

Two runs that differ in the secret alone are compared step by step.  Up to the first command they
are the same run.  Each command starts its child process with argument lists that differ only
where the secret stands; if the two child processes end alike, so do the two steps.

* `redacted_fill`      what is logged of an argument list is the same for each secret that is not
  among its other arguments
* `Parallel.command`   a step with a child process
* `Parallel.write`     what is written after it
* `run_hides_secret`   the two runs say the same to the log and end alike
-/

namespace Keysmith

/-! ## Argument lists with gaps -/

/-- The arguments of the request, with a gap wherever the secret stands. -/
def KeypairRequest.slots (r : KeypairRequest) : List (Option String) :=
  ["-genkeypair", "-dname", r.subject.text].map some ++ (sanArguments r.san).map some ++
    [some "-keystore", some r.keystore,
     some "-keyalg", some r.keyAlgorithm,
     some "-keysize", some (String.ofList (Text.Decimal.digits r.keySize)),
     some "-storepass", none,
     some "-alias", some r.entry,
     some "-keypass", none]

/-- The arguments of the request, with a gap wherever the secret stands. -/
def ExportRequest.slots (r : ExportRequest) : List (Option String) :=
  [some "-exportcert", some "-rfc",
   some "-keystore", some r.keystore,
   some "-storepass", none,
   some "-alias", some r.entry]

/-- The arguments of the request, with a gap wherever the secret stands. -/
def ImportRequest.slots (r : ImportRequest) : List (Option String) :=
  [some "-import", some "-noprompt",
   some "-file", some r.certificate,
   some "-alias", some r.entry,
   some "-keystore", some r.keystore,
   some "-storepass", none,
   some "-keypass", none]

/-- The arguments of a call, with a gap wherever the secret stands. -/
def ToolCall.slots : ToolCall → List (Option String)
  | reportVersion => []
  | generateKeypair r => r.slots
  | exportCertificate r => r.slots
  | importCertificate r => r.slots

/-- The arguments of a call in which no secret stands. -/
def ToolCall.openArguments (call : ToolCall) : List String := call.slots.reduceOption

/-- The argument list with the secret in each gap. -/
def Secret.fill (s : Secret) (slots : List (Option String)) : List String :=
  slots.map (·.getD s.expose)

theorem KeypairRequest.fill_slots (r : KeypairRequest) : r.secret.fill r.slots = r.arguments := by
  rw [arguments, slots, Secret.fill, List.map_append, List.map_append, List.map_map, List.map_map]
  simp [Function.comp_def]

theorem ExportRequest.fill_slots (r : ExportRequest) : r.secret.fill r.slots = r.arguments := rfl

theorem ImportRequest.fill_slots (r : ImportRequest) : r.secret.fill r.slots = r.arguments := rfl

/-- The argument list of a call tells which of its arguments are open. -/
theorem ToolCall.openArguments_congr (call call' : ToolCall)
    (h : call.arguments = call'.arguments) : call.openArguments = call'.openArguments := by
  rcases call with _ | r | r | r <;> rcases call' with _ | r' | r' | r'
  · rfl
  case generateKeypair.generateKeypair =>
    rw [Invocation.eq_of_read? KeypairRequest.read?_arguments
      KeypairRequest.ofInvocation?_invocation h]
  case exportCertificate.exportCertificate =>
    -- Where the certificate goes is not in the list, and needs no slot
    have hr := Invocation.eq_of_read? ExportRequest.read?_arguments
      (fun r => r.ofInvocation?_invocation "") h
    simp only [ExportRequest.mk.injEq, and_true] at hr
    obtain ⟨hkeystore, -, hentry⟩ := hr
    simp only [openArguments, slots, ExportRequest.slots, hkeystore, hentry]
  case importCertificate.importCertificate =>
    rw [Invocation.eq_of_read? ImportRequest.read?_arguments
      ImportRequest.ofInvocation?_invocation h]
  -- The command words tell the other calls apart
  all_goals
    simp [arguments, KeypairRequest.arguments, ExportRequest.arguments,
      ImportRequest.arguments] at h

/-- The logged line of an argument list, if the secret stands in the gaps only. -/
theorem redacted_fill {s : Secret} {slots : List (Option String)}
    (h : s.expose ∉ slots.reduceOption) :
    redacted s (s.fill slots) = " ".intercalate (slots.map (·.getD Secret.mask)) := by
  rw [redacted, Secret.fill, List.map_map]
  refine congrArg _ (List.map_congr_left fun slot hslot => ?_)
  cases slot with
  | none => simp
  | some a =>
    have hne : a ≠ s.expose := by
      rintro rfl
      exact h (List.reduceOption_mem_iff.mpr hslot)
    simp [hne]

/-! ## Child processes of two runs -/

/-- Two arguments are the same, or each is the secret of its run. -/
def SameButSecret (s s' : Secret) (a a' : String) : Prop :=
  a = a' ∨ a = s.expose ∧ a' = s'.expose

theorem sameButSecret_fill (s s' : Secret) (slots : List (Option String)) :
    List.Forall₂ (SameButSecret s s') (s.fill slots) (s'.fill slots) := by
  rw [Secret.fill, Secret.fill, List.forall₂_map_left_iff, List.forall₂_map_right_iff,
    List.forall₂_same]
  intro slot _
  cases slot with
  | none => exact .inr ⟨rfl, rfl⟩
  | some a => exact .inl rfl

namespace Launch

/-- Two child processes were to be started alike, but for the secret. -/
structure Matches (s s' : Secret) (l l' : Launch) : Prop where
  program_eq : l.program = l'.program
  arguments : List.Forall₂ (SameButSecret s s') l.arguments l'.arguments

/-- Two child processes ended alike: both could be started or failed to for the same cause, they
    ended with the same status and printed the same, and left the same disk but for what files
    hold. -/
structure EndsAlike (l l' : Launch) : Prop where
  result_eq : l.result = l'.result
  events_eq : l.events = l'.events
  left : l.left.SameOutline l'.left

theorem Matches.refl (s s' : Secret) (l : Launch) : Matches s s' l l :=
  ⟨rfl, List.forall₂_same.mpr fun _ _ => .inl rfl⟩

end Launch

variable {τ ε α β : Type}

/-- What is assumed of the child processes of two runs: no secret is among the other arguments,
    and the child processes of the two end alike. -/
structure Unseen (s s' : Secret) (ls ls' : List Launch) : Prop where
  apart : ∀ call : ToolCall, call.arguments ∈ ls.map Launch.arguments →
    s.expose ∉ call.openArguments ∧ s'.expose ∉ call.openArguments
  alike : ∀ (i : Nat) (l l' : Launch), ls[i]? = some l → ls'[i]? = some l' → l.EndsAlike l'

theorem Unseen.of_prefix {s s' : Secret} {ls ls' ks ks' : List Launch} (h : Unseen s s' ls ls')
    (hp : ks <+: ls) (hp' : ks' <+: ls') : Unseen s s' ks ks' where
  apart call hcall := h.apart call ((hp.map _).subset hcall)
  alike i l l' hl hl' := by
    have hmember {ks ls : List Launch} {l : Launch} (hp : ks <+: ls) (hl : ks[i]? = some l) :
        ls[i]? = some l := by
      obtain ⟨hi, rfl⟩ := List.getElem?_eq_some_iff.mp hl
      exact List.prefix_iff_getElem?.mp hp i hi
    exact h.alike i l l' (hmember hp hl) (hmember hp' hl')

/-! ## Steps of two runs -/

/-- Two steps come to the same, leave disks that are related, and have started matching child
    processes by then. -/
structure Agree (s s' : Secret) (R : Disk → Disk → Prop)
    (o o' : Outcome (List Launch × τ) ε α) : Prop where
  result_eq : o.result = o'.result
  events_eq : o.events = o'.events
  disk : R o.disk o'.disk
  launches : List.Forall₂ (Launch.Matches s s') o.memory.1 o'.memory.1

/-- An action adds to the list of the child processes. -/
def Adds (x : Action (List Launch × τ) ε α) : Prop :=
  ∀ d m, m.1 <+: (x d m).memory.1

/-- Two actions agree whenever they begin with related disks and after matching child processes,
    provided that all child processes by their end are as assumed. -/
structure Parallel (s s' : Secret) (R S : Disk → Disk → Prop)
    (x x' : Action (List Launch × τ) ε α) : Prop where
  adds : Adds x
  adds' : Adds x'
  agree : ∀ d d' m m', R d d' → List.Forall₂ (Launch.Matches s s') m.1 m'.1 →
    Unseen s s' (x d m).memory.1 (x' d' m').memory.1 → Agree s s' S (x d m) (x' d' m')

/-- No relation between disks is asked for. -/
def AnyDisks (_ _ : Disk) : Prop := True

theorem Adds.prefix_bind {x : Action (List Launch × τ) Failure α}
    {g : α → Action (List Launch × τ) Failure β} (hg : ∀ a, Adds (g a)) (d : Disk)
    (m : List Launch × τ) : (x d m).memory.1 <+: ((x >>= g) d m).memory.1 := by
  cases hx : (x d m).result with
  | error e =>
    rw [Provision.bind_of_error hx]
  | ok a =>
    rw [Provision.bind_of_ok hx]
    exact hg a _ _

namespace Parallel

variable {s s' : Secret} {R S T : Disk → Disk → Prop}

/-- A step that starts no child process and asks for nothing. -/
theorem of_silent {x : Action (List Launch × τ) ε α} {r : Except ε α} {es : List Event}
    (hx : ∀ d m, x d m = ⟨r, d, m, es⟩) : Parallel s s' R R x x where
  adds d m := by rw [hx]
  adds' d m := by rw [hx]
  agree d d' m m' hd hm _ := by
    rw [hx, hx]
    exact ⟨rfl, rfl, hd, hm⟩

theorem bind {x x' : Action (List Launch × τ) Failure α} (hx : Parallel s s' R S x x')
    {g g' : α → Action (List Launch × τ) Failure β} (hg : ∀ a, Parallel s s' S T (g a) (g' a)) :
    Parallel s s' R AnyDisks (x >>= g) (x' >>= g') where
  adds d m := (hx.adds d m).trans (Adds.prefix_bind (fun a => (hg a).adds) d m)
  adds' d m := (hx.adds' d m).trans (Adds.prefix_bind (fun a => (hg a).adds') d m)
  agree d d' m m' hd hm hunseen := by
    -- What is assumed of all child processes holds of those of the first step
    obtain ⟨hresult, hevents, hdisk, hlaunches⟩ := hx.agree d d' m m' hd hm
      (hunseen.of_prefix (Adds.prefix_bind (fun a => (hg a).adds) d m)
        (Adds.prefix_bind (fun a => (hg a).adds') d' m'))
    cases hr : (x d m).result with
    | error e =>
      rw [Provision.bind_of_error hr, Provision.bind_of_error (hresult.symm.trans hr)]
      exact ⟨rfl, hevents, trivial, hlaunches⟩
    | ok a =>
      rw [Provision.bind_of_ok hr, Provision.bind_of_ok (hresult.symm.trans hr)] at hunseen ⊢
      obtain ⟨hresult', hevents', -, hlaunches'⟩ :=
        (hg a).agree _ _ _ _ hdisk hlaunches hunseen
      exact ⟨hresult', congrArg₂ _ hevents hevents', trivial, hlaunches'⟩

/-- What is written after a child process has ended. -/
theorem write (path : String) (content : Bytes) :
    Parallel s s' Disk.SameOutline AnyDisks
      ((Action.onDisk? fun d => d.write path content).mapError (.writeArtifact path) :
        Action (List Launch × τ) Failure Unit)
      ((Action.onDisk? fun d => d.write path content).mapError (.writeArtifact path)) := by
  have hwrite (d : Disk) (m : List Launch × τ) :
      let o := ((Action.onDisk? fun d => d.write path content).mapError (.writeArtifact path) :
        Action (List Launch × τ) Failure Unit) d m
      o.result = ((d.write path content).map fun _ => ()).mapError (.writeArtifact path) ∧
        o.memory = m ∧ o.events = [] := by
    cases hw : d.write path content <;> simp [Action.mapError, Action.onDisk?, hw, Except.map,
      Except.mapError]
  refine ⟨fun d m => ?_, fun d m => ?_, fun d d' m m' hd hm _ => ?_⟩
  · rw [(hwrite d m).2.1]
  · rw [(hwrite d m).2.1]
  · obtain ⟨hresult, hmemory, hevents⟩ := hwrite d m
    obtain ⟨hresult', hmemory', hevents'⟩ := hwrite d' m'
    refine ⟨?_, hevents.trans hevents'.symm, trivial, ?_⟩
    · rw [hresult, hresult', hd.write_congr]
    · rwa [hmemory, hmemory']

/-- A command of the run, with the child process that it starts. -/
theorem command (launcher : Launcher τ) (p : ProcessTool) (step : ToolStep) (call : ToolCall)
    (hcall : s.fill call.slots = call.arguments) :
    Parallel s s' R Disk.SameOutline
      (ProcessTool.run launcher.recorded p step s (s.fill call.slots))
      (ProcessTool.run launcher.recorded p step s' (s'.fill call.slots)) where
  adds d m := by
    rw [ProcessTool.run_eq]
    exact List.prefix_append ..
  adds' d m := by
    rw [ProcessTool.run_eq]
    exact List.prefix_append ..
  agree d d' m m' _ hm hunseen := by
    rw [ProcessTool.run_eq, ProcessTool.run_eq] at hunseen ⊢
    simp only [Launcher.recorded] at hunseen ⊢
    -- The command line shows the secrets in its gaps only
    obtain ⟨hapart, hapart'⟩ := hunseen.apart call (by simp [hcall, Launcher.launch])
    have hline : redacted s (s.fill call.slots) = redacted s' (s'.fill call.slots) := by
      rw [redacted_fill hapart, redacted_fill hapart']
    -- The two child processes are the last ones by now, at the same position
    obtain ⟨hresult, hevents, hleft⟩ := hunseen.alike m.1.length _ _ List.getElem?_concat_length
      (by rw [hm.length_eq]; exact List.getElem?_concat_length)
    refine ⟨congrArg (ProcessTool.verdict step p.keytool) hresult, ?_, hleft, ?_⟩
    · simp only [hline]
      exact congrArg _ hevents
    · exact List.rel_append hm (.cons ⟨rfl, sameButSecret_fill s s' call.slots⟩ .nil)

end Parallel

/-! ## Two runs -/

namespace Provision

/-- The stages of a run before its commands: these have nothing to do with the secret. -/
def prepared (tool : KeyTool τ) (source : AddressSource τ) (config : Config) (host : String) :
    Action τ Failure (Option SubjectAltName × List String) := do
  prepare config
  let version ← detect tool config.san
  let san ← nameServer source config.san version host
  (warningsFor config.san version).forM (Action.log .warn)
  return (san, warningsFor config.san version)

theorem run_eq_prepared (tool : KeyTool τ) (source : AddressSource τ) (config : Config)
    (secret : Secret) (host : String) :
    run tool source config secret host = (do
      let r ← prepared tool source config host
      finish tool config secret host r.1 r.2) := by
  simp only [prepared, bind_assoc]
  rfl

section Commands

open Parallel

variable (launcher : Launcher τ) (p : ProcessTool) {s s' : Secret} {R : Disk → Disk → Prop}

theorem makeServerKeystore_parallel (files : Artifacts) (san : Option SubjectAltName)
    (host : String) :
    Parallel s s' R AnyDisks
      (makeServerKeystore (p.tool launcher.recorded) files san s host)
      (makeServerKeystore (p.tool launcher.recorded) files san s' host) := by
  let request (s : Secret) : KeypairRequest :=
    .ofParts (.ofHost host) san files.serverKeystore entryAlias s
  have hcommand : Parallel s s' R Disk.SameOutline
      (ProcessTool.run launcher.recorded p .keypairGeneration s (request s).arguments)
      (ProcessTool.run launcher.recorded p .keypairGeneration s' (request s').arguments) := by
    rw [← (request s).fill_slots, ← (request s').fill_slots]
    exact .command launcher p _ (.generateKeypair (request s)) (request s).fill_slots
  exact (of_silent fun _ _ => rfl).bind fun _ => hcommand.bind fun _ => of_silent fun _ _ => rfl

theorem makeCertificate_parallel (files : Artifacts) :
    Parallel s s' R AnyDisks (makeCertificate (p.tool launcher.recorded) files s)
      (makeCertificate (p.tool launcher.recorded) files s') := by
  let request (s : Secret) : ExportRequest :=
    ⟨files.serverKeystore, s, entryAlias, files.certificate⟩
  have hcommand : Parallel s s' R Disk.SameOutline
      (ProcessTool.run launcher.recorded p .certificateExport s (request s).arguments)
      (ProcessTool.run launcher.recorded p .certificateExport s' (request s').arguments) :=
    .command launcher p _ (.exportCertificate (request s)) (request s).fill_slots
  exact (of_silent fun _ _ => rfl).bind fun _ => hcommand.bind fun child =>
    .write files.certificate child.stdout

theorem makeClientKeystore_parallel (files : Artifacts) :
    Parallel s s' R AnyDisks (makeClientKeystore (p.tool launcher.recorded) files s)
      (makeClientKeystore (p.tool launcher.recorded) files s') := by
  let request (s : Secret) : ImportRequest :=
    ⟨files.certificate, entryAlias, files.clientKeystore, s⟩
  have hcommand : Parallel s s' R Disk.SameOutline
      (ProcessTool.run launcher.recorded p .certificateImport s (request s).arguments)
      (ProcessTool.run launcher.recorded p .certificateImport s' (request s').arguments) :=
    .command launcher p _ (.importCertificate (request s)) (request s).fill_slots
  exact (of_silent fun _ _ => rfl).bind fun _ => hcommand.bind fun _ => of_silent fun _ _ => rfl

/-- The commands of two runs. -/
theorem finish_parallel (config : Config) (host : String) (san : Option SubjectAltName)
    (warnings : List String) :
    Parallel s s' AnyDisks AnyDisks (finish (p.tool launcher.recorded) config s host san warnings)
      (finish (p.tool launcher.recorded) config s' host san warnings) :=
  (makeServerKeystore_parallel launcher p _ san host).bind fun _ =>
    (makeCertificate_parallel launcher p _).bind fun _ =>
      (makeClientKeystore_parallel launcher p _).bind fun _ => of_silent fun _ _ => rfl

end Commands

/-- Two runs that differ in the secret alone, neither secret being among the other arguments of
    their commands, say the same to the log and end with the same value or failure, if their child
    processes end alike.  Their child processes were started with the same programs and the same
    arguments but for the secret. -/
theorem run_hides_secret (launcher : Launcher τ) (source : AddressSource τ) (p : ProcessTool)
    (config : Config) (host : String) (s s' : Secret) (d : Disk) (m : τ)
    (hapart : ∀ call : ToolCall,
      call.arguments ∈ (launches launcher source p config s host d m).map Launch.arguments →
      s.expose ∉ call.openArguments ∧ s'.expose ∉ call.openArguments)
    (halike : ∀ (i : Nat) (l l' : Launch),
      (launches launcher source p config s host d m)[i]? = some l →
      (launches launcher source p config s' host d m)[i]? = some l' → l.EndsAlike l') :
    let o := run (p.tool launcher) source config s host d m
    let o' := run (p.tool launcher) source config s' host d m
    o.events = o'.events ∧ o.result = o'.result ∧
      List.Forall₂ (Launch.Matches s s') (launches launcher source p config s host d m)
        (launches launcher source p config s' host d m) := by
  have hunseen : Unseen s s' (launches launcher source p config s host d m)
      (launches launcher source p config s' host d m) := ⟨hapart, halike⟩
  simp only [run_recorded]
  simp only [launches, recordedRun, run_eq_prepared] at hunseen ⊢
  -- Up to the first command there is one run
  generalize prepared (p.tool launcher.recorded) source.beside config host = x at hunseen ⊢
  have hsame : List.Forall₂ (Launch.Matches s s') (x d ([], m)).memory.1
      (x d ([], m)).memory.1 := List.forall₂_same.mpr fun l _ => .refl s s' l
  cases hx : (x d ([], m)).result with
  | error e =>
    rw [bind_of_error hx, bind_of_error hx]
    exact ⟨rfl, rfl, hsame⟩
  | ok r =>
    rw [bind_of_ok hx, bind_of_ok hx] at hunseen ⊢
    obtain ⟨hresult, hevents, -, hlaunches⟩ :=
      (finish_parallel launcher p config host r.1 r.2).agree _ _ _ _ trivial hsame hunseen
    exact ⟨congrArg (_ ++ ·) hevents, hresult, hlaunches⟩

/-! ### Child processes that keep the secret -/

/-- A disk with a keystore in which arguments stand. -/
def storeDisk (arguments : List String) : Disk where
  root := .dir [("keys", .dir
    [("server.jks", .file (Text.Utf8.encode (" ".intercalate arguments).toList) .data)])]
  cwd := .root

private theorem storeDisk_sameOutline (as bs : List String) :
    (storeDisk as).SameOutline (storeDisk bs) := by
  refine ⟨rfl, fun q => ?_⟩
  rcases q with _ | ⟨dir, _ | ⟨name, q⟩⟩
  · rfl
  · simp only [storeDisk, Node.kindAt, Node.at?, Node.child?, Node.entries?, Option.bind_some,
      List.lookup_cons, List.lookup_nil]
    cases dir == "keys" <;> rfl
  · simp only [storeDisk, Node.kindAt, Node.at?, Node.child?, Node.entries?, Option.bind_some,
      List.lookup_cons, List.lookup_nil]
    cases dir == "keys" with
    | false => rfl
    | true =>
      simp only [Option.bind_some, List.lookup_cons, List.lookup_nil]
      cases name == "server.jks" with
      | false => rfl
      | true => cases q <;> rfl

/-- A program that leaves a keystore in which its arguments stand, but exports no certificate. -/
def keeper : Launcher Unit := fun _ arguments _ m =>
  ⟨.ok ⟨.exited (if arguments.head? = some "-genkeypair" then 0 else 1), [], []⟩,
    storeDisk arguments, m, []⟩

/-- A run that does not name the server. -/
def unnamed : Config := { Config.standard with san := .never }

/-- The first call of a run for the host `h`. -/
def keypairCall (s : Secret) : ToolCall :=
  .generateKeypair (.ofParts (.ofHost "h") none "keys/server.jks" "server" s)

/-- The second call of such a run. -/
def exportCall (s : Secret) : ToolCall :=
  .exportCertificate ⟨"keys/server.jks", s, "server", "keys/client.pem"⟩

/-- The child process of a call. -/
def kept (call : ToolCall) (found : Disk) : Launch :=
  keeper.launch "keytool" call.arguments found ()

private theorem launches_keeper (s : Secret) :
    launches keeper (.fixed ⟨10, 0, 0, 7⟩) .standard unnamed s "h" OutputDir.linkedDisk () =
      [kept (keypairCall s) (OutputDir.linkedDisk.renewed "keys"),
       kept (exportCall s) (storeDisk (keypairCall s).arguments)] := by
  have hreset :=
    OutputDir.reset_eq_ok OutputDir.linkedDisk_standing OutputDir.linkedDisk_isRenewable
  have hprepared : prepared (ProcessTool.standard.tool keeper.recorded)
      (AddressSource.fixed ⟨10, 0, 0, 7⟩).beside unnamed "h" OutputDir.linkedDisk ([], ()) =
      ⟨.ok (none, []), OutputDir.linkedDisk.renewed "keys", ([], ()), []⟩ := by
    rw [prepared, bind_of_ok (congrArg Prod.fst hreset)]
    simp only [prepare, Action.onDisk, unnamed, Config.standard, hreset]
    rfl
  rw [launches, recordedRun, run_eq_prepared, bind_of_ok (congrArg Outcome.result hprepared),
    hprepared, finish, bind_of_ok rfl]
  simp only
  rw [bind_of_error rfl]
  rfl

/-- Child processes of one command end alike, whatever its other arguments are. -/
private theorem kept_endsAlike {call call' : ToolCall}
    (h : call.arguments.head? = call'.arguments.head?) (found found' : Disk) :
    (kept call found).EndsAlike (kept call' found') where
  result_eq := by simp only [kept, Launcher.launch, keeper, h]
  events_eq := rfl
  left := storeDisk_sameOutline ..

/-- The secret stands in the keystores that the two runs leave, but nowhere in what they say. -/
theorem run_hides_secret_keeper :
    let o (s : Secret) := run (ProcessTool.standard.tool keeper) (.fixed ⟨10, 0, 0, 7⟩) unnamed s
      "h" OutputDir.linkedDisk ()
    (o ⟨"hunter2"⟩).events = (o ⟨"open sesame"⟩).events ∧
      (o ⟨"hunter2"⟩).result = (o ⟨"open sesame"⟩).result := by
  have h := run_hides_secret keeper (.fixed ⟨10, 0, 0, 7⟩) .standard unnamed "h" ⟨"hunter2"⟩
    ⟨"open sesame"⟩ OutputDir.linkedDisk () ?_ ?_
  · exact ⟨h.1, h.2.1⟩
  · intro call hcall
    rw [launches_keeper] at hcall
    simp only [List.map_cons, List.map_nil, List.mem_cons, List.not_mem_nil, or_false] at hcall
    rcases hcall with h | h
    · rw [ToolCall.openArguments_congr call (keypairCall _) h]
      decide +kernel
    · rw [ToolCall.openArguments_congr call (exportCall _) h]
      decide +kernel
  · intro i l l' hl hl'
    rw [launches_keeper] at hl hl'
    -- There are two child processes in each run
    rcases i with _ | _ | i
    · cases hl
      cases hl'
      exact kept_endsAlike (show (keypairCall _).arguments.head? = _ by rfl) _ _
    · cases hl
      cases hl'
      exact kept_endsAlike (show (exportCall _).arguments.head? = _ by rfl) _ _
    · cases hl

end Provision

end Keysmith
