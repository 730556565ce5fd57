import Keysmith.Proofs.DirectoryRenewal
import Keysmith.Proofs.RunLedger
import Keysmith.Proofs.ToolArguments
import Mathlib.Data.List.Nodup
import Mathlib.Data.List.Perm.Basic

/-!
# When the server is named

Whether the certificate names the server shows in several places: in the request for the key
pair and its argument list, in the log, and in what the run ends with.  Once a run has got as far
as that request, they all say the same.

* `Taken.said`  what the run itself says to the log
* `FollowsPlan.reported?_eq_some_iff`, `FollowsPlan.discovered?_eq_some_iff`  what a run has
  learned is what its actions answered
* `FollowsPlan.naming`  the three ways in which the question is decided
* `run_names_server`  all that follows from the decision agrees
-/

namespace Keysmith.Provision

variable {τ : Type} {tool : KeyTool τ} {source : AddressSource τ} {config : Config}
  {secret : Secret} {host : String} {d d' : Disk} {m m' : τ} {ts : List Taken}
  {o : Outcome τ Failure Provisioned} {request : KeypairRequest}

/-! ## What the run itself says -/

/-- What the run itself says to the log on account of an action, apart from what is said while
    the action is performed. -/
def Taken.said (t : Taken) : List Event :=
  Taken.logged { t with events := [] }

theorem Taken.logged_perm (t : Taken) : t.logged.Perm (t.said ++ t.events) := by
  obtain ⟨action, result, events⟩ := t
  have hsame : events.Perm ([] ++ events) := .refl events
  cases action with
  | reportVersion =>
    cases result with
    | error e => exact hsame
    | ok reply =>
      cases reply with
      | version v => exact List.perm_append_comm
      | _ => exact hsame
  | reset | discover => exact hsame
  | _ => exact .refl _

theorem flatMap_logged_perm (ts : List Taken) :
    (ts.flatMap Taken.logged).Perm (ts.flatMap Taken.said ++ ts.flatMap Taken.events) :=
  (List.Perm.flatMap_left ts fun t _ => t.logged_perm).trans
    (List.flatMap_append_perm ts Taken.said Taken.events).symm

/-- The run itself warns of one thing only: a runtime that was asked and is too old. -/
theorem Taken.warn_mem_said_iff {t : Taken} {e : Event} :
    e ∈ t.said ∧ e.level = .warn ↔
      ∃ v, t.action = .reportVersion ∧ t.result = .ok (.version v) ∧ v.major < 8 ∧
        e = ⟨.warn, downgradeWarning v⟩ := by
  obtain ⟨action, result, events⟩ := t
  have hinfo : ∀ text, ¬ (e = ⟨.info, text⟩ ∧ e.level = .warn) := by
    rintro text ⟨rfl, h⟩
    cases h
  cases action with
  | reportVersion =>
    cases result with
    | error f => simp [said, logged]
    | ok reply =>
      cases reply with
      | version v =>
        by_cases hv : 8 ≤ v.major
        · have hnot : ¬ v.major < 8 := UInt32.not_lt.mpr hv
          simp [said, logged, hv, hinfo, hnot]
        · have hold : v.major < 8 := UInt32.not_le.mp hv
          have hwarn : (e = ⟨.warn, downgradeWarning v⟩ ∧ e.level = .warn) ↔
              e = ⟨.warn, downgradeWarning v⟩ :=
            and_iff_left_of_imp fun h => congrArg Event.level h
          simp [said, logged, hv, or_and_right, hinfo, hold, hwarn]
      | _ => simp [said, logged]
  | _ => simp [said, logged, hinfo]

/-! ## What a run has learned -/

/-- An action of a ledger went as it goes with some disk and some memory. -/
theorem Ledger.eq_taken (h : Ledger tool source d m ts d' m') {t : Taken} (ht : t ∈ ts) :
    ∃ d₀ m₀, t = t.action.taken tool source d₀ m₀ := by
  induction h with
  | nil => cases ht
  | @cons a d d' m m' ts _ ih =>
    rcases List.mem_cons.mp ht with rfl | ht
    · exact ⟨d, m, rfl⟩
    · exact ih ht

theorem Ledger.result_eq (h : Ledger tool source d m ts d' m') {t : Taken} (ht : t ∈ ts) :
    ∃ d₀ m₀, t.result = (t.action.perform tool source d₀ m₀).result := by
  obtain ⟨d₀, m₀, heq⟩ := h.eq_taken ht
  exact ⟨d₀, m₀, congrArg Taken.result heq⟩

/-- What is learned is what was answered, if only one of the actions can answer it. -/
theorem FollowsPlan.learned_eq_some_iff
    (h : FollowsPlan tool source config secret host d m ts o) {κ : Type}
    {pick : Reply → Option κ} {reply : κ → Reply} {a : External}
    (hpick : ∀ r k, pick r = some k ↔ r = reply k)
    (honly : ∀ t ∈ ts, ∀ k, t.result = .ok (reply k) → t.action = a) {k : κ} :
    learned pick ts = some k ↔ ∃ t ∈ ts, t.action = a ∧ t.result = .ok (reply k) := by
  have hread : ∀ t : Taken, ∀ k, t.result.toOption.bind pick = some k ↔
      t.result = .ok (reply k) := by
    intro t k
    cases hr : t.result with
    | error e => simp [Except.toOption]
    | ok r => simp [Except.toOption, hpick]
  have hfirst : ∀ k, learned pick ts = some k →
      ∃ t ∈ ts, t.action = a ∧ t.result = .ok (reply k) := by
    intro k hk
    obtain ⟨t, ht, htk⟩ := List.exists_of_findSome?_eq_some hk
    rw [hread] at htk
    exact ⟨t, ht, honly t ht k htk, htk⟩
  refine ⟨hfirst k, ?_⟩
  rintro ⟨t, ht, ha, hr⟩
  have hsome : (learned pick ts).isSome = true := by
    rw [learned, List.findSome?_isSome_iff]
    exact ⟨t, ht, by rw [(hread t k).mpr hr]; rfl⟩
  obtain ⟨k', hk'⟩ := Option.isSome_iff_exists.mp hsome
  obtain ⟨t', ht', ha', hr'⟩ := hfirst k' hk'
  -- No action is taken twice, so both answers are the same
  have hsame : t' = t := List.inj_on_of_nodup_map h.once ht' ht (ha'.trans ha.symm)
  rw [hsame, hr] at hr'
  have hreply : reply k = reply k' := Except.ok.inj hr'
  have hk : pick (reply k) = some k' := (hpick _ _).mpr hreply
  rw [(hpick _ _).mpr rfl] at hk
  rw [hk', ← hk]

theorem FollowsPlan.reported?_eq_some_iff
    (h : FollowsPlan tool source config secret host d m ts o) {v : Version} :
    reported? ts = some v ↔
      ∃ t ∈ ts, t.action = .reportVersion ∧ t.result = .ok (.version v) := by
  refine h.learned_eq_some_iff (fun r k => ?_) fun t ht k hr => ?_
  · cases r <;> simp [Reply.version?]
  · by_contra hne
    obtain ⟨d₀, m₀, hres⟩ := h.ledger.result_eq ht
    have hperform : (t.action.perform tool source d₀ m₀).result = .ok (.version k) :=
      hres.symm.trans hr
    cases version?_eq_none hne d₀ m₀ _ hperform

theorem FollowsPlan.discovered?_eq_some_iff
    (h : FollowsPlan tool source config secret host d m ts o) {ip : Ipv4} :
    discovered? ts = some ip ↔
      ∃ t ∈ ts, t.action = .discover ∧ t.result = .ok (.address ip) := by
  refine h.learned_eq_some_iff (fun r k => ?_) fun t ht k hr => ?_
  · cases r <;> simp [Reply.address?]
  · by_contra hne
    obtain ⟨d₀, m₀, hres⟩ := h.ledger.result_eq ht
    have hperform : (t.action.perform tool source d₀ m₀).result = .ok (.address k) :=
      hres.symm.trans hr
    cases address?_eq_none hne d₀ m₀ _ hperform

/-- The run itself warns just if the runtime was asked and is too old. -/
theorem FollowsPlan.warn_mem_said_iff
    (h : FollowsPlan tool source config secret host d m ts o) {e : Event} :
    e ∈ ts.flatMap Taken.said ∧ e.level = .warn ↔
      ∃ v, reported? ts = some v ∧ v.major < 8 ∧ e = ⟨.warn, downgradeWarning v⟩ := by
  rw [List.mem_flatMap]
  constructor
  · rintro ⟨⟨t, ht, he⟩, hwarn⟩
    obtain ⟨v, ha, hr, hold, htext⟩ := Taken.warn_mem_said_iff.mp ⟨he, hwarn⟩
    exact ⟨v, h.reported?_eq_some_iff.mpr ⟨t, ht, ha, hr⟩, hold, htext⟩
  · rintro ⟨v, hv, hold, htext⟩
    obtain ⟨t, ht, ha, hr⟩ := h.reported?_eq_some_iff.mp hv
    obtain ⟨he, hwarn⟩ := Taken.warn_mem_said_iff.mpr ⟨v, ha, hr, hold, htext⟩
    exact ⟨⟨t, ht, he⟩, hwarn⟩

/-! ## As far as the key pair -/

/-- A beginning of a list that holds something from behind `before` goes at least that far. -/
theorem concat_prefix_of_mem {α : Type} {as before after : List α} {a b : α}
    (h : as <+: before ++ a :: after) (hb : b ∈ as) (hbefore : b ∉ before)
    (hafter : b ∉ after) : b = a ∧ before ++ [a] <+: as := by
  have hba : b = a := by
    rcases List.mem_append.mp (h.subset hb) with hb | hb
    · exact absurd hb hbefore
    · exact (List.mem_cons.mp hb).resolve_right hafter
  have hreach : before ++ [a] <+: before ++ a :: after := ⟨after, by simp⟩
  refine ⟨hba, ?_⟩
  rcases List.prefix_or_prefix_of_prefix hreach h with hle | hle
  · exact hle
  · rcases List.prefix_concat_iff.mp hle with heq | hshort
    · rw [heq]
    · exact absurd (hshort.subset hb) hbefore

/-- The actions of the plan before the key pair is made. -/
def preparations (config : Config) (version : Option Version) : List External :=
  .reset config.outDir ::
    ((if config.san = .auto then [.reportVersion] else []) ++
      (if isWanted config.san version then [.discover] else []))

/-- A run that makes the key pair asks for the names that the plan has, and all preparations
    were made and succeeded. -/
theorem FollowsPlan.prepared (h : FollowsPlan tool source config secret host d m ts o)
    (hreq : .generateKeypair request ∈ ts.map Taken.action) :
    request.san = namesFor config.san (reported? ts) host (discovered? ts) ∧
      ∀ a ∈ preparations config (reported? ts), ∃ t ∈ ts, t.action = a ∧
        ∃ reply, t.result = .ok reply := by
  obtain ⟨planned, after, hcommands, hsan, hafter⟩ : ∃ planned after,
      commands config secret host (namesFor config.san (reported? ts) host (discovered? ts)) =
        .generateKeypair planned :: after ∧
      planned.san = namesFor config.san (reported? ts) host (discovered? ts) ∧
      .generateKeypair request ∉ after := ⟨_, _, rfl, rfl, by simp⟩
  have hplan : plan config secret host (reported? ts) (discovered? ts) =
      preparations config (reported? ts) ++ .generateKeypair planned :: after := by
    rw [plan, hcommands, preparations]
    simp only [List.cons_append, List.append_assoc]
  have hbefore : .generateKeypair request ∉ preparations config (reported? ts) := by
    rw [preparations]
    split_ifs <;> simp
  have hprefix := h.inOrder
  rw [hplan] at hprefix
  obtain ⟨heq, hreach⟩ := concat_prefix_of_mem hprefix hreq hbefore hafter
  cases heq
  refine ⟨hsan, fun a ha => ?_⟩
  -- What was taken before the key pair was not the last action
  obtain ⟨more, hmore⟩ := hreach
  have hlast : a ∈ (ts.map Taken.action).dropLast := by
    rw [← hmore, List.append_assoc, List.dropLast_append_of_ne_nil (by simp)]
    exact List.mem_append_left _ ha
  rw [← List.map_dropLast] at hlast
  obtain ⟨t, ht, hta⟩ := List.mem_map.mp hlast
  exact ⟨t, List.dropLast_subset ts ht, hta, h.afterSuccess t ht⟩

/-! ## How it is decided -/

theorem isWanted_iff {policy : SanPolicy} {version : Option Version} :
    isWanted policy version = true ↔
      policy = .always ∨ policy = .auto ∧ ∃ v, version = some v ∧ 8 ≤ v.major := by
  cases policy <;> cases version <;> simp [isWanted]

/-- How it is decided whether the server is named: it is wanted, and address and host name are
    there; or the runtime is too old; or it is never done. -/
inductive Naming (config : Config) (host : String) (version : Option Version)
    (ip : Option Ipv4) : Option SubjectAltName → Prop
  | named {address : Ipv4} (plain : Hostname.isPlain host = true) :
      isWanted config.san version = true → ip = some address →
      Naming config host version ip (some ⟨host, address, plain⟩)
  | tooOld {v : Version} : config.san = .auto → version = some v → v.major < 8 →
      Naming config host version ip none
  | never : config.san = .never → version = none → Naming config host version ip none

section Naming

variable {version : Option Version} {ip : Option Ipv4} {san : Option SubjectAltName}

theorem Naming.isWanted_eq (h : Naming config host version ip san) :
    isWanted config.san version = san.isSome := by
  cases h with
  | named plain hw _ => exact hw
  | tooOld hauto hv hold => simp [isWanted, hauto, hv, hold]
  | never hnever _ => simp [isWanted, hnever]

theorem Naming.wanted_iff (h : Naming config host version ip san) :
    san.isSome = true ↔
      config.san = .always ∨ config.san = .auto ∧ ∃ v, version = some v ∧ 8 ≤ v.major := by
  rw [← h.isWanted_eq, isWanted_iff]

theorem Naming.names (h : Naming config host version ip san) (names : SubjectAltName)
    (hnames : san = some names) : names.dns = host ∧ ip = some names.ip := by
  cases h with
  | named plain _ hip =>
    cases hnames
    exact ⟨rfl, hip⟩
  | _ => cases hnames

theorem Naming.namesFor_eq (h : Naming config host version ip san) :
    namesFor config.san version host ip = san := by
  have hw := h.isWanted_eq
  rw [namesFor, hw]
  cases h with
  | named plain _ hip =>
    rw [Option.isSome_some, if_pos rfl, hip, Option.bind_some, SubjectAltName.ofHost,
      dif_pos plain]
    rfl
  | _ => rfl

theorem Naming.warnings_eq (h : Naming config host version ip san) :
    (product config host version ip).warnings =
      if san.isSome then [] else (version.map downgradeWarning).toList := by
  rw [← h.isWanted_eq]
  rfl

/-- A run ends with a warning just if the runtime is too old for the automatic policy. -/
theorem Naming.product_warnings (h : Naming config host version ip san) :
    (product config host version ip).warnings = [] ∧
        (∀ v, config.san = .auto → version = some v → 8 ≤ v.major) ∨
      ∃ v, config.san = .auto ∧ version = some v ∧ v.major < 8 ∧
        (product config host version ip).warnings = [downgradeWarning v] := by
  rw [h.warnings_eq]
  cases h with
  | named plain hwanted _ =>
    refine .inl ⟨rfl, fun v hauto hv => ?_⟩
    rcases isWanted_iff.mp hwanted with halways | ⟨-, w, hw, hnew⟩
    · cases hauto.symm.trans halways
    · cases hv.symm.trans hw
      exact hnew
  | tooOld hauto hv hold =>
    rw [hv]
    exact .inr ⟨_, hauto, rfl, hold, rfl⟩
  | never hnever hv =>
    rw [hv]
    refine .inl ⟨rfl, fun v hauto _ => ?_⟩
    cases hauto.symm.trans hnever

theorem Naming.exactlyOne (h : Naming config host version ip san) {p : Provisioned}
    (hp : p = product config host version ip) :
    p.san.isSome = true ∧ p.warnings = [] ∧ config.san ≠ .never ∨
      p.san = none ∧ p.warnings ≠ [] ∧ config.san ≠ .never ∨
      p.san = none ∧ p.warnings = [] ∧ config.san = .never := by
  have hsan : p.san = san := hp ▸ h.namesFor_eq
  rw [hsan, hp, h.warnings_eq]
  cases h with
  | named plain hwanted _ =>
    refine .inl ⟨rfl, rfl, fun hnever => ?_⟩
    rw [hnever] at hwanted
    cases hwanted
  | tooOld hauto hv _ =>
    rw [hv]
    refine .inr (.inl ⟨rfl, List.cons_ne_nil _ _, fun hnever => ?_⟩)
    cases hauto.symm.trans hnever
  | never hnever hv =>
    rw [hv]
    exact .inr (.inr ⟨rfl, rfl, hnever⟩)

end Naming

theorem FollowsPlan.auto_of_reported (h : FollowsPlan tool source config secret host d m ts o)
    {v : Version} (hv : reported? ts = some v) : config.san = .auto := by
  obtain ⟨t, ht, ha, -⟩ := h.reported?_eq_some_iff.mp hv
  have hmem := h.inOrder.subset (List.mem_map_of_mem ht)
  rw [ha, plan] at hmem
  by_contra hne
  rw [if_neg hne] at hmem
  split_ifs at hmem <;> simp [commands] at hmem

/-- Where the server is to be named, its address is known when the key pair is made. -/
theorem FollowsPlan.exists_discovered
    (h : FollowsPlan tool source config secret host d m ts o)
    (hreq : .generateKeypair request ∈ ts.map Taken.action)
    (hw : isWanted config.san (reported? ts) = true) : ∃ ip, discovered? ts = some ip := by
  obtain ⟨t, ht, ha, reply, hr⟩ := (h.prepared hreq).2 .discover (by simp [preparations, hw])
  obtain ⟨d₀, m₀, hres⟩ := h.ledger.result_eq ht
  rw [ha, hr] at hres
  obtain ⟨ip, rfl⟩ := replying_eq_ok hres.symm
  exact ⟨ip, h.discovered?_eq_some_iff.mpr ⟨t, ht, ha, hr⟩⟩

/-- Under the automatic policy, the version is known when the key pair is made. -/
theorem FollowsPlan.exists_reported (h : FollowsPlan tool source config secret host d m ts o)
    (hreq : .generateKeypair request ∈ ts.map Taken.action) (hauto : config.san = .auto) :
    ∃ v, reported? ts = some v := by
  obtain ⟨t, ht, ha, reply, hr⟩ :=
    (h.prepared hreq).2 .reportVersion (by simp [preparations, hauto])
  obtain ⟨d₀, m₀, hres⟩ := h.ledger.result_eq ht
  rw [ha, hr] at hres
  obtain ⟨v, rfl⟩ := replying_eq_ok hres.symm
  exact ⟨v, h.reported?_eq_some_iff.mpr ⟨t, ht, ha, hr⟩⟩

/-- It is decided by the time the key pair is made. -/
theorem FollowsPlan.naming (h : FollowsPlan tool source config secret host d m ts o)
    (hreq : .generateKeypair request ∈ ts.map Taken.action) :
    Naming config host (reported? ts) (discovered? ts) request.san := by
  have hsan := (h.prepared hreq).1
  by_cases hw : isWanted config.san (reported? ts) = true
  · -- The request was made, so the host name had been accepted
    have hplain : Hostname.isPlain host = true := h.hostFirst request hreq hw
    obtain ⟨ip, hip⟩ := h.exists_discovered hreq hw
    have hnamed : Naming config host (reported? ts) (discovered? ts)
        (some ⟨host, ip, hplain⟩) := .named hplain hw hip
    have hrequest : request.san = some ⟨host, ip, hplain⟩ := hsan.trans hnamed.namesFor_eq
    rwa [hrequest]
  · have hrequest : request.san = none := by
      rw [hsan, namesFor, if_neg hw]
    rw [isWanted_iff, not_or, not_and] at hw
    rw [hrequest]
    cases hpolicy : config.san with
    | always => exact absurd hpolicy hw.1
    | never =>
      -- The runtime is not asked
      refine .never hpolicy ?_
      rw [Option.eq_none_iff_forall_ne_some]
      intro v hv
      cases hpolicy.symm.trans (h.auto_of_reported hv)
    | auto =>
      obtain ⟨v, hv⟩ := h.exists_reported hreq hpolicy
      refine .tooOld hpolicy hv (UInt32.not_le.mp fun hnew => ?_)
      exact hw.2 hpolicy ⟨v, hv, hnew⟩

/-! ## The agreement -/

/-- How a run agrees with itself on the names of the server, given its request for the key
    pair. -/
structure NamesServer (config : Config) (host : String) (ts : List Taken)
    (request : KeypairRequest) (o : Outcome τ Failure Provisioned) : Prop where
  /-- Among the options of the argument list, the extension is there just if the request has
      names, and with their written form. -/
  extension : ∃ i, Invocation.read? request.arguments = some i ∧
    ((∃ value, ("-ext", value) ∈ i.options) ↔ request.san.isSome = true) ∧
    ∀ value, ("-ext", value) ∈ i.options → ∃ san, request.san = some san ∧ san.text = value
  /-- The request has names always, or automatically from major release 8 on. -/
  wanted : request.san.isSome = true ↔
    config.san = .always ∨ config.san = .auto ∧ ∃ v, reported? ts = some v ∧ 8 ≤ v.major
  /-- The names are the host name and the address that was found out. -/
  names : ∀ san, request.san = some san → san.dns = host ∧ discovered? ts = some san.ip
  /-- The log holds what the run itself says and what is said while its actions are
      performed. -/
  log : o.events.Perm (ts.flatMap Taken.said ++ ts.flatMap Taken.events)
  /-- The run itself warns just if the policy is the automatic one and the runtime is older. -/
  warned : (∃ e ∈ ts.flatMap Taken.said, e.level = .warn) ↔
    config.san = .auto ∧ ∃ v, reported? ts = some v ∧ v.major < 8
  /-- A run that succeeds ends with the names of the request. -/
  productNames : ∀ p, o.result = .ok p → p.san = request.san
  /-- It ends with the one warning that it gave, which names the version, or with none if it
      gave none. -/
  productWarnings : ∀ p, o.result = .ok p →
    (∀ text, text ∈ p.warnings ↔ ⟨.warn, text⟩ ∈ ts.flatMap Taken.said) ∧
    (p.warnings = [] ∨ ∃ v text, reported? ts = some v ∧ v.chars <:+: text.toList ∧
      p.warnings = [text])
  /-- It has names, or it warned, or it was never to have names. -/
  exactlyOne : ∀ p, o.result = .ok p →
    p.san.isSome = true ∧ p.warnings = [] ∧ config.san ≠ .never ∨
    p.san = none ∧ p.warnings ≠ [] ∧ config.san ≠ .never ∨
    p.san = none ∧ p.warnings = [] ∧ config.san = .never

theorem chars_infix_downgradeWarning (v : Version) :
    v.chars <:+: (downgradeWarning v).toList := by
  have hchars : v.text.toList = v.chars := String.toList_ofList
  rw [downgradeWarning]
  simp only [String.toList_append, toString, hchars, List.append_assoc]
  exact List.infix_append' _ _ _

/-- The warnings that a run ends with are those that it gave. -/
theorem FollowsPlan.mem_warnings_iff (h : FollowsPlan tool source config secret host d m ts o)
    (hreq : .generateKeypair request ∈ ts.map Taken.action) {p : Provisioned}
    (hp : o.result = .ok p) (text : String) :
    text ∈ p.warnings ↔ ⟨.warn, text⟩ ∈ ts.flatMap Taken.said := by
  have hsaid : ⟨.warn, text⟩ ∈ ts.flatMap Taken.said ↔
      ∃ v, reported? ts = some v ∧ v.major < 8 ∧ text = downgradeWarning v := by
    have hiff := h.warn_mem_said_iff (e := ⟨.warn, text⟩)
    simpa using hiff
  rw [hsaid, h.value p hp]
  rcases (h.naming hreq).product_warnings with ⟨hnone, hnew⟩ | ⟨v, -, hv, hold, hone⟩
  · rw [hnone]
    refine iff_of_false List.not_mem_nil ?_
    rintro ⟨v, hv, hold, -⟩
    exact absurd (hnew v (h.auto_of_reported hv) hv) (UInt32.not_le.mpr hold)
  · rw [hone, List.mem_singleton]
    constructor
    · intro htext
      exact ⟨v, hv, hold, htext⟩
    · rintro ⟨w, hw, -, htext⟩
      cases hv.symm.trans hw
      exact htext

/-- In every run that gets as far as the key pair, the argument list, the request, the log and
    the outcome agree on whether the server is named, and with what. -/
theorem run_names_server (tool : KeyTool τ) (source : AddressSource τ) (config : Config)
    (secret : Secret) (host : String) (d : Disk) (m : τ) :
    let o := run tool source config secret host d m
    ∃ ts, FollowsPlan tool source config secret host d m ts o ∧
      ∀ request, .generateKeypair request ∈ ts.map Taken.action →
        NamesServer config host ts request o := by
  intro o
  obtain ⟨ts, h, -⟩ := run_begins_with_reset tool source config secret host d m
  refine ⟨_, h, fun request hreq => ?_⟩
  have hnaming := h.naming hreq
  refine
    { extension := ⟨_, request.read?_arguments, ?_, ?_⟩
      wanted := hnaming.wanted_iff
      names := hnaming.names
      log := ?_
      warned := ?_
      productNames := ?_
      productWarnings := fun p hp => ⟨h.mem_warnings_iff hreq hp, ?_⟩
      exactlyOne := fun p hp => hnaming.exactlyOne (h.value p hp) }
  · simp only [KeypairRequest.ext_mem_options_iff, Option.isSome_iff_exists]
    exact ⟨fun ⟨_, san, hsan, _⟩ => ⟨san, hsan⟩, fun ⟨san, hsan⟩ => ⟨_, san, hsan, rfl⟩⟩
  · exact fun value => KeypairRequest.ext_mem_options_iff.mp
  · rw [h.log]
    exact flatMap_logged_perm _
  · constructor
    · rintro ⟨e, he, hwarn⟩
      obtain ⟨v, hv, hold, -⟩ := h.warn_mem_said_iff.mp ⟨he, hwarn⟩
      exact ⟨h.auto_of_reported hv, v, hv, hold⟩
    · rintro ⟨-, v, hv, hold⟩
      obtain ⟨he, hwarn⟩ := h.warn_mem_said_iff.mpr ⟨v, hv, hold, rfl⟩
      exact ⟨_, he, hwarn⟩
  · intro p hp
    rw [h.value p hp]
    exact hnaming.namesFor_eq
  · rw [h.value p hp]
    rcases hnaming.product_warnings with ⟨hnone, -⟩ | ⟨v, -, hv, -, hone⟩
    · exact .inl hnone
    · exact .inr ⟨v, _, hv, chars_infix_downgradeWarning v, hone⟩

/-- A tool on an old runtime that does all it is asked for. -/
def oldTool : KeyTool Unit where
  reportVersion := Action.pure ⟨7, 0⟩
  generateKeypair _ := Action.pure ()
  exportCertificate _ := Action.pure ()
  importCertificate _ := Action.pure ()

/-- Under the automatic policy, an old runtime's key pair is made without the extension, and the
    run ends with the warning. -/
theorem run_names_server_old_runtime :
    let o := run oldTool (.fixed ⟨10, 0, 0, 7⟩) .standard ⟨"s"⟩ "h" OutputDir.linkedDisk ()
    ∃ ts request, .generateKeypair request ∈ ts.map Taken.action ∧
      NamesServer .standard "h" ts request o ∧ request.san = none ∧
      ∃ p, o.result = .ok p ∧ p.warnings = [downgradeWarning ⟨7, 0⟩] := by
  intro o
  have hreset : (OutputDir.reset Config.standard.outDir OutputDir.linkedDisk).1 = .ok () :=
    congrArg Prod.fst
      (OutputDir.reset_eq_ok OutputDir.linkedDisk_standing OutputDir.linkedDisk_isRenewable)
  have hok : o.result = .ok
      ⟨.inDir "keys", none, [downgradeWarning ⟨7, 0⟩], "java ChainMain", "java WalletCLI"⟩ := by
    simp only [o, run, bind, Action.bind, prepare, Action.onDisk, hreset]
    rfl
  obtain ⟨ts, hplan, hagree⟩ := run_names_server oldTool (.fixed ⟨10, 0, 0, 7⟩) .standard ⟨"s"⟩
    "h" OutputDir.linkedDisk ()
  -- All of the plan was done, the key pair included
  obtain ⟨hall, -⟩ := hplan.success.mp ⟨_, hok⟩
  obtain ⟨request, hreq⟩ : ∃ request, .generateKeypair request ∈ ts.map Taken.action := by
    rw [hall, plan]
    exact ⟨_, List.mem_cons_of_mem _
      (List.mem_append_right _ (List.mem_append_right _ List.mem_cons_self))⟩
  have hnames := hagree request hreq
  exact ⟨ts, request, hreq, hnames, (hnames.productNames _ hok).symm, _, hok, rfl⟩

end Keysmith.Provision
