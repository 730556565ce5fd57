import Keysmith.KeyTool.StandIn
import Keysmith.Proofs.DirectoryRenewal
import Keysmith.Proofs.FileWriting
import Keysmith.Proofs.RunLedger

/-!
# What a run leaves in the output directory

A tool is well behaved if each of its steps makes just its own file when it succeeds and
nothing when it fails.  With such a tool a run fills a directory that the reset has emptied:

* `Filled.creates`        a file made by its name joins those of the directory
* `filled_ledger`         along a run, the directory holds what the steps so far have made
* `run_fills_directory`   how far it is filled when the run ends, whatever was there before
-/

namespace Keysmith

/-! ## A directory of files -/

namespace Disk

/-- A disk whose working directory is the one at `here`, with a directory `dir` in it that
    holds files of the given names and nothing else. -/
structure Filled (here : Place) (dir : String) (names : List String) (d : Disk) : Prop where
  cwd_eq : d.cwd = .ofPlace here
  isDir : d.root.kindAt (here ++ [dir]) = some .dir
  files : ∀ s ∈ names, ∃ content mode,
    d.root.kindAt (here ++ [dir] ++ [s]) = some (.file content mode)
  only : ∀ q, q ≠ [] → d.root.kindAt (here ++ [dir] ++ q) ≠ none → ∃ s ∈ names, q = [s]

namespace Filled

variable {here : Place} {dir s : String} {names : List String} {d d' : Disk}

theorem standing (h : d.Filled here dir names) : d.Standing where
  present := by rw [h.cwd_eq, ofPlace_removed]
  isDir := by
    rw [h.cwd_eq, ofPlace_place]
    exact Node.kindAt_dir_above (List.prefix_append here [dir]) h.isDir

theorem of_alike (h : d.Filled here dir names) (ha : Alike d d') : d'.Filled here dir names where
  cwd_eq := ha.cwd_eq.trans h.cwd_eq
  isDir := by
    rw [ha.kindAt_eq]
    exact h.isDir
  files s hs := by
    rw [ha.kindAt_eq]
    exact h.files s hs
  only q hq := by
    rw [ha.kindAt_eq]
    exact h.only q hq

/-- A renewed directory is empty. -/
theorem of_renewed (h : d.Standing) (dir : String) :
    (d.renewed dir).Filled d.cwd.place dir [] where
  cwd_eq := (renewed_cwd h dir).trans h.cwd_eq
  isDir := by rw [kindAt_renewed h, if_pos rfl]
  files s hs := by cases hs
  only q hq hk := by
    rw [kindAt_renewed h, if_neg (by simpa using hq), if_pos (List.prefix_append _ q)] at hk
    exact absurd rfl hk

/-- No entry of the directory is a link. -/
theorem not_link (h : d.Filled here dir names) (s target : String) :
    d.root.kindAt (here ++ [dir] ++ [s]) ≠ some (.link target) := by
  intro hk
  obtain ⟨s', hs', hq⟩ := h.only [s] (List.cons_ne_nil _ _) (by rw [hk]; simp)
  obtain ⟨content, mode, hfile⟩ := h.files s' hs'
  rw [← hq, hk] at hfile
  cases hfile

/-- A file made by its name joins those of the directory. -/
theorem creates (h : d.Filled here dir names) (hdir : IsComponent dir) (hs : IsComponent s)
    (hc : Creates (Path.join dir s) d d') : d'.Filled here dir (names ++ [s]) := by
  obtain ⟨place, content, mode, ⟨-, -, hlead⟩, hkind⟩ := hc.file
  have hhere : d'.cwd.place = here := by rw [hc.cwd_eq, h.cwd_eq, ofPlace_place]
  obtain rfl : place = here ++ [dir] ++ [s] := by
    rw [← hhere]
    refine hlead.of_components hdir hs hkind (fun target => ?_) ?_
    · rw [hhere, h.isDir]
      simp
    · rw [hhere]
      exact h.not_link s
  refine ⟨hc.cwd_eq.trans h.cwd_eq, ?_, ?_, ?_⟩
  · rw [hkind, if_neg (by simp)]
    exact h.isDir
  · -- The new file is there, and so are those of before
    intro s' hs'
    rw [hkind]
    split
    · exact ⟨_, _, rfl⟩
    · rename_i hne
      rcases List.mem_append.mp hs' with hs' | hs'
      · exact h.files s' hs'
      · obtain rfl := List.mem_singleton.mp hs'
        exact absurd rfl hne
  · -- Whatever else is there was there before
    intro q hq hk
    rw [hkind] at hk
    split at hk
    · rename_i heq
      exact ⟨s, by simp, List.append_cancel_left heq⟩
    · obtain ⟨s', hs', rfl⟩ := h.only q hq hk
      exact ⟨s', List.mem_append_left _ hs', rfl⟩

end Filled

end Disk

open Disk

/-! ## Well-behaved tools -/

section Behaviour

variable {τ ε α : Type}

/-- An action that leaves the disk as it is. -/
def Action.Quiet (x : Action τ ε α) : Prop :=
  ∀ d m, d.Standing → Alike d (x d m).disk

/-- An action that makes the file of a path if it succeeds, and nothing if it fails. -/
structure Action.Makes (path : String) (x : Action τ ε α) : Prop where
  made : ∀ d m v, d.Standing → (x d m).result = .ok v → Creates path d (x d m).disk
  spared : ∀ d m e, d.Standing → (x d m).result = .error e → Alike d (x d m).disk

/-- A tool whose steps change nothing but their own files: the report makes none, and each of
    the others makes one if it succeeds. -/
structure KeyTool.WellBehaved (tool : KeyTool τ) : Prop where
  reports : tool.reportVersion.Quiet
  generates : ∀ r, (tool.generateKeypair r).Makes r.keystore
  exports : ∀ r, (tool.exportCertificate r).Makes r.dest
  imports : ∀ r, (tool.importCertificate r).Makes r.keystore

end Behaviour

namespace StandIn

theorem writeText_makes (path text : String) : (writeText path text).Makes path where
  made d m v h hok := by
    cases hw : d.write path (Text.Utf8.encode text.toList) with
    | ok d' =>
      rw [writeText_of_ok hw]
      exact write_creates h hw
    | error e =>
      rw [writeText_of_error hw] at hok
      cases hok
  spared d m e h herr := by
    cases hw : d.write path (Text.Utf8.encode text.toList) with
    | ok d' =>
      rw [writeText_of_ok hw] at herr
      cases herr
    | error e =>
      rw [writeText_of_error hw]
      exact .refl d

theorem fail_makes (path : String) (e : Failure) :
    (Action.fail e : Action Unit Failure Unit).Makes path where
  made _ _ _ _ hok := by cases hok
  spared d _ _ _ _ := .refl d

/-- A stand-in is well behaved, whichever step it fails at. -/
theorem tool_wellBehaved (s : StandIn) : s.tool.WellBehaved where
  reports := by
    refine guarded_cases s _ (fun _ d _ _ => .refl d) ?_
    split
    · exact fun d _ _ => .refl d
    · exact fun d _ _ => .refl d
  generates _ := guarded_cases s _ (fail_makes _) (writeText_makes _ _)
  exports _ := guarded_cases s _ (fail_makes _) (writeText_makes _ _)
  imports _ := guarded_cases s _ (fail_makes _) (writeText_makes _ _)

end StandIn

/-! ## Along a run -/

namespace Provision

variable {τ : Type}

/-- The path of the file that an action is to make. -/
def External.target? : External → Option String
  | generateKeypair r => some r.keystore
  | exportCertificate r => some r.dest
  | importCertificate r => some r.keystore
  | _ => none

/-- The name of the file that an action of a run makes in the output directory. -/
def External.artifact? : External → Option String
  | generateKeypair _ => some "server.jks"
  | exportCertificate _ => some "client.pem"
  | importCertificate _ => some "client.jks"
  | _ => none

/-- What a run has made before it comes to an action. -/
def External.artifactsBefore : External → List String
  | exportCertificate _ => ["server.jks"]
  | importCertificate _ => ["server.jks", "client.pem"]
  | _ => []

/-- The file that an action has made in the output directory, if it succeeded. -/
def Taken.made (t : Taken) : List String :=
  if t.result.isOk then t.action.artifact?.toList else []

theorem Taken.made_of_ok {t : Taken} {r : Reply} (h : t.result = .ok r) :
    t.made = t.action.artifact?.toList := by
  rw [made, h]
  rfl

theorem Taken.made_of_error {t : Taken} {e : Failure} (h : t.result = .error e) :
    t.made = [] := by
  rw [made, h]
  rfl

theorem Taken.made_of_none {t : Taken} (h : t.action.artifact? = none) : t.made = [] := by
  rw [made, h]
  split <;> rfl

/-- The files that actions have made in the output directory. -/
def made (ts : List Taken) : List String := ts.flatMap Taken.made

/-- An action that touches nothing but its own file in the output directory. -/
structure External.StaysIn (dir : String) (a : External) : Prop where
  ne_reset : ∀ dir', a ≠ .reset dir'
  target_eq : a.target? = a.artifact?.map (Path.join dir)

section Steps

variable {tool : KeyTool τ} {source : AddressSource τ} {path dir s : String} {a : External}
  {here : Place} {names : List String} {d d' : Disk} {m m' : τ} {ts : List Taken}

theorem replying_quiet {α : Type} {x : Action τ Failure α} (h : x.Quiet) (f : α → Reply) :
    (replying f x).Quiet :=
  h

theorem replying_makes {α : Type} {x : Action τ Failure α} (h : x.Makes path) (f : α → Reply) :
    (replying f x).Makes path where
  made d m r hd hok := by
    cases hx : (x d m).result with
    | ok v => exact h.made d m v hd hx
    | error e => cases (replying_error hx).symm.trans hok
  spared d m e hd herr := by
    cases hx : (x d m).result with
    | ok v => cases (replying_ok hx).symm.trans herr
    | error e => exact h.spared d m e hd hx

/-- An action with a file of its own makes that one. -/
theorem perform_makes (htool : tool.WellBehaved) (ha : a.target? = some path) :
    (a.perform tool source).Makes path := by
  cases a with
  | reset _ => cases ha
  | reportVersion => cases ha
  | discover => cases ha
  | generateKeypair r =>
    cases ha
    exact replying_makes (htool.generates r) _
  | exportCertificate r =>
    cases ha
    exact replying_makes (htool.exports r) _
  | importCertificate r =>
    cases ha
    exact replying_makes (htool.imports r) _

/-- Without a file of its own an action makes nothing, unless it is the reset. -/
theorem perform_quiet (htool : tool.WellBehaved) (hsource : source.Quiet)
    (hne : ∀ dir, a ≠ .reset dir) (ha : a.target? = none) : (a.perform tool source).Quiet := by
  cases a with
  | reset dir => exact absurd rfl (hne dir)
  | reportVersion => exact replying_quiet htool.reports _
  | discover => exact replying_quiet hsource _
  | generateKeypair r => cases ha
  | exportCertificate r => cases ha
  | importCertificate r => cases ha

theorem isComponent_of_artifact? (ha : a.artifact? = some s) : IsComponent s := by
  cases a <;> cases ha <;> exact ⟨by decide, by decide, by decide, by decide⟩

/-- One action adds to the directory what it has made. -/
theorem filled_perform (htool : tool.WellBehaved) (hsource : source.Quiet)
    (hdir : IsComponent dir) (ha : a.StaysIn dir) (hd : d.Filled here dir names) (m : τ) :
    (a.perform tool source d m).disk.Filled here dir
      (names ++ (a.taken tool source d m).made) := by
  cases hs : a.artifact? with
  | none =>
    have hquiet := perform_quiet htool hsource ha.ne_reset (by rw [ha.target_eq, hs]; rfl)
    rw [Taken.made_of_none hs, List.append_nil]
    exact hd.of_alike (hquiet d m hd.standing)
  | some s =>
    have hmakes : (a.perform tool source).Makes (Path.join dir s) :=
      perform_makes htool (by rw [ha.target_eq, hs]; rfl)
    cases hr : (a.perform tool source d m).result with
    | ok r =>
      have hmade : (a.taken tool source d m).made = [s] := by
        rw [Taken.made_of_ok hr, External.taken, hs]
        rfl
      rw [hmade]
      exact hd.creates hdir (isComponent_of_artifact? hs) (hmakes.made d m r hd.standing hr)
    | error e =>
      rw [Taken.made_of_error hr, List.append_nil]
      exact hd.of_alike (hmakes.spared d m e hd.standing hr)

/-- Along a run, the directory holds what the actions so far have made. -/
theorem filled_ledger (htool : tool.WellBehaved) (hsource : source.Quiet)
    (hdir : IsComponent dir) (hl : Ledger tool source d m ts d' m')
    (hstays : ∀ t ∈ ts, t.action.StaysIn dir) (hd : d.Filled here dir names) :
    d'.Filled here dir (names ++ made ts) := by
  induction hl generalizing names with
  | nil d m => simpa [made] using hd
  | @cons a d d' m m' ts _ ih =>
    -- The first action adds its file, and the others add theirs behind it
    have hstep := filled_perform htool hsource hdir (hstays _ List.mem_cons_self) hd m
    have hrest := ih (fun t ht => hstays t (List.mem_cons_of_mem _ ht)) hstep
    rw [List.append_assoc] at hrest
    exact hrest

end Steps

/-! ## What has been made by when -/

/-- The files that a list of actions makes in the output directory. -/
def artifacts (as : List External) : List String := as.flatMap fun a => a.artifact?.toList

/-- Each action of a list comes when just that has been made which is to be made before it. -/
def Staged : List String → List External → Prop
  | _, [] => True
  | names, a :: as => a.artifactsBefore = names ∧ Staged (names ++ a.artifact?.toList) as

theorem Staged.artifactsBefore_eq {names : List String} {as bs : List External} {a : External}
    (h : Staged names (as ++ a :: bs)) : a.artifactsBefore = names ++ artifacts as := by
  induction as generalizing names with
  | nil => simpa [artifacts] using h.1
  | cons b as ih =>
    rw [ih h.2, artifacts, artifacts, List.flatMap_cons, List.append_assoc]

theorem staged_plan (config : Config) (secret : Secret) (host : String)
    (version : Option Version) (ip : Option Ipv4) :
    Staged [] (plan config secret host version ip) := by
  unfold plan commands
  split_ifs <;> simp [Staged, External.artifactsBefore, External.artifact?]

theorem artifacts_plan (config : Config) (secret : Secret) (host : String)
    (version : Option Version) (ip : Option Ipv4) :
    artifacts (plan config secret host version ip) =
      ["server.jks", "client.pem", "client.jks"] := by
  unfold plan commands
  split_ifs <;> rfl

theorem staysIn_of_mem_plan {config : Config} {secret : Secret} {host : String}
    {version : Option Version} {ip : Option Ipv4} :
    ∀ a ∈ (plan config secret host version ip).tail, a.StaysIn config.outDir := by
  intro a ha
  simp only [plan, commands, List.tail_cons, List.mem_append, List.mem_ite_nil_right,
    List.mem_cons, List.not_mem_nil, or_false] at ha
  rcases ha with ⟨-, rfl⟩ | ⟨-, rfl⟩ | rfl | rfl | rfl
  all_goals exact ⟨by simp, rfl⟩

/-- Actions that all succeeded have made their files. -/
theorem made_eq_artifacts {ts : List Taken} (h : ∀ t ∈ ts, ∃ r, t.result = .ok r) :
    made ts = artifacts (ts.map Taken.action) := by
  rw [made, artifacts, List.flatMap_map]
  refine List.flatMap_congr fun t ht => ?_
  obtain ⟨r, hr⟩ := h t ht
  exact Taken.made_of_ok hr

namespace FollowsPlan

variable {tool : KeyTool τ} {source : AddressSource τ} {config : Config} {secret : Secret}
  {host : String} {d : Disk} {m : τ} {ts : List Taken} {o : Outcome τ Failure Provisioned}

/-- A run that fails has made what comes before its last action. -/
theorem made_eq_artifactsBefore (h : FollowsPlan tool source config secret host d m ts o)
    {e : Failure} (he : o.result = .error e) :
    ∃ t, ts.getLast? = some t ∧ made ts = t.action.artifactsBefore := by
  -- The last action made nothing: it failed, or it has no file of its own
  obtain ⟨t, hlast, hmade⟩ : ∃ t, ts.getLast? = some t ∧ t.made = [] := by
    rcases h.failure e he with ⟨t, hlast, ht⟩ | ⟨⟨t, hlast, ht⟩, -⟩
    · exact ⟨t, hlast, Taken.made_of_error ht⟩
    · exact ⟨t, hlast, Taken.made_of_none (by rw [ht]; rfl)⟩
  have hsplit := List.dropLast_append_getLast? t hlast
  have hmadeLast : made ts = made ts.dropLast := by
    conv_lhs => rw [← hsplit]
    simp [made, hmade]
  have hactions : ts.map Taken.action = ts.dropLast.map Taken.action ++ [t.action] := by
    conv_lhs => rw [← hsplit]
    simp
  -- All before it succeeded, in the plan's order
  obtain ⟨bs, hplan⟩ := h.inOrder
  have hstaged := staged_plan config secret host (reported? ts) (discovered? ts)
  rw [← hplan, hactions, List.append_assoc] at hstaged
  refine ⟨t, hlast, ?_⟩
  rw [Staged.artifactsBefore_eq hstaged, List.nil_append, ← made_eq_artifacts h.afterSuccess,
    hmadeLast]

/-- A run succeeds just if it has made all three files. -/
theorem succeeds_iff (h : FollowsPlan tool source config secret host d m ts o) :
    (∃ p, o.result = .ok p) ↔ made ts = ["server.jks", "client.pem", "client.jks"] := by
  constructor
  · intro hok
    obtain ⟨hactions, hall⟩ := h.success.mp hok
    rw [made_eq_artifacts hall, hactions, artifacts_plan]
  · intro hmade
    cases hr : o.result with
    | ok p => exact ⟨p, rfl⟩
    | error e =>
      -- No action comes after all three
      obtain ⟨t, -, ht⟩ := h.made_eq_artifactsBefore hr
      rw [hmade] at ht
      cases hact : t.action <;> rw [hact] at ht <;> cases ht

end FollowsPlan

/-- A run with a well-behaved tool either fails at the reset and changes nothing, or ends with
    just those files in the output directory that its steps have made: all three if it
    succeeds, and else those that are made before the step at which it ended. -/
theorem run_fills_directory {tool : KeyTool τ} {source : AddressSource τ}
    (htool : tool.WellBehaved) (hsource : source.Quiet) {config : Config}
    (hdir : IsComponent config.outDir) (secret : Secret) (host : String) {d : Disk}
    (h : d.Standing) (m : τ) :
    let o := run tool source config secret host d m
    let reset := OutputDir.reset config.outDir d
    (∀ e, reset.1 = .error e → o.result = .error e ∧ o.disk = d) ∧
    (reset.1 = .ok () → reset.2.Filled d.cwd.place config.outDir [] ∧
      ∃ ts, FollowsPlan tool source config secret host d m ts o ∧
        o.disk.Filled d.cwd.place config.outDir (made ts) ∧
        ((∃ p, o.result = .ok p) ↔ made ts = ["server.jks", "client.pem", "client.jks"]) ∧
        ∀ e, o.result = .error e →
          ∃ t, ts.getLast? = some t ∧ made ts = t.action.artifactsBefore) := by
  intro o reset
  by_cases hr : d.IsRenewable config.outDir
  · -- The directory is empty after the reset, and from then on the actions fill it
    have hreset : reset = (.ok (), d.renewed config.outDir) := OutputDir.reset_eq_ok h hr
    have hempty := Filled.of_renewed h config.outDir
    rw [hreset]
    refine ⟨fun e he => (by cases he), fun _ => ⟨hempty, ?_⟩⟩
    obtain ⟨ts, hplan, hledger⟩ :=
      run_begins_with_reset tool source config secret host d m
    rw [OutputDir.reset_eq_ok h hr] at hledger
    have hstays : ∀ t ∈ ts, t.action.StaysIn config.outDir := by
      intro t ht
      obtain ⟨version, ip, hmem⟩ := hplan.mem_plan_tail ht
      exact staysIn_of_mem_plan _ hmem
    have hfilled := filled_ledger htool hsource hdir hledger hstays hempty
    -- The reset itself makes none of the files
    have hmade : made ((External.reset config.outDir).taken tool source d m :: ts) = made ts := by
      rw [made, List.flatMap_cons, Taken.made_of_none rfl]
      rfl
    refine ⟨_, hplan, ?_, hplan.succeeds_iff, fun e he => hplan.made_eq_artifactsBefore he⟩
    rwa [hmade]
  · obtain ⟨e, he⟩ := OutputDir.reset_eq_error h hdir hr
    have hreset : reset = (.error e, d) := he
    have hrun : o = ⟨.error e, d, m, []⟩ := run_of_reset_error he
    rw [hreset, hrun]
    refine ⟨?_, fun hok => (by cases hok)⟩
    rintro _ ⟨⟩
    exact ⟨rfl, rfl⟩

/-- What a stand-in leaves that makes no certificate, where a link had the name before. -/
theorem run_fills_directory_linked :
    let s : StandIn :=
      ⟨.known ⟨17, 0⟩, some (.certificateExport, .toolFailed .certificateExport (.exited 1) "")⟩
    let o := run s.tool (.fixed ⟨10, 0, 0, 7⟩) .standard ⟨"s"⟩ "h" OutputDir.linkedDisk ()
    ∃ ts, o.disk.Filled [] "keys" (made ts) ∧
      ((∃ p, o.result = .ok p) ↔ made ts = ["server.jks", "client.pem", "client.jks"]) := by
  intro s o
  have hsource : (AddressSource.fixed ⟨10, 0, 0, 7⟩ : AddressSource Unit).Quiet :=
    fun d _ _ => .refl d
  have hkeys : IsComponent Config.standard.outDir := OutputDir.keys_isEntryName.toIsComponent
  have hreset : OutputDir.reset Config.standard.outDir OutputDir.linkedDisk = _ :=
    OutputDir.reset_eq_ok OutputDir.linkedDisk_standing OutputDir.linkedDisk_isRenewable
  obtain ⟨-, ts, -, hfilled, hiff, -⟩ := (run_fills_directory s.tool_wellBehaved hsource hkeys
    ⟨"s"⟩ "h" OutputDir.linkedDisk_standing ()).2 (congrArg Prod.fst hreset)
  exact ⟨ts, hfilled, hiff⟩

end Provision

end Keysmith
