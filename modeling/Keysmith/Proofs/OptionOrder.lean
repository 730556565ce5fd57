import Keysmith.CommandLine.Reader
import Mathlib.Logic.Function.Basic
import Mathlib.Data.List.Basic

/-!
# The order of a command line

Options can stand anywhere between the two arguments, in any order, and each value can be put
behind its option or be attached to it.  `Gives` builds such command lines item by item; `Has`
says how far one has been read, and every item takes it one step on.

* `Given.exists_accept_option`, `Given.accept_option_frame`  a value is taken if its option has none
  yet, and nothing else changes
* `Reading.Has.argument`, `Reading.Has.apart`, `Reading.Has.attached`  one item is read
* `Gives.items`           a whole line is read
* `Reading.items_sound`   no empty argument is ever taken
* `read_gives`            the fields are those that were given, in whatever order
-/

namespace Keysmith.CommandLine

open Text

/-! ## Command lines -/

/-- How an option is written. -/
def Flag.written : Flag → String
  | keytool => "--keytool"
  | java => "--java"
  | san => "--san"
  | serverCommand => "--server-command"
  | clientCommand => "--client-command"

/-- The value of an option that is not given. -/
def Flag.standard : Flag → String
  | keytool => "keytool"
  | java => "java"
  | san => "auto"
  | serverCommand => "java ChainMain"
  | clientCommand => "java WalletCLI"

/-- The values that an option can have: the policy is one of three words, the others are any
    text. -/
def Flag.Takes : Flag → String → Prop
  | san, value => value = "auto" ∨ value = "always" ∨ value = "never"
  | keytool, _ | java, _ | serverCommand, _ | clientCommand, _ => True

/-- A text that does not begin with a hyphen. -/
def Unhyphened (s : String) : Prop := s.toList.head? ≠ some '-'

/-- A command line with these arguments in this order, and with these values of options: each
    option at most once, in any order, and anywhere between the arguments. -/
inductive Gives : List String → (Flag → Option String) → List String → Prop
  | nothing : Gives [] (fun _ => none) []
  | argument {text : String} {args : List String} {values : Flag → Option String}
      {line : List String} : text ≠ "" → Unhyphened text → Gives args values line →
      Gives (text :: args) values (text :: line)
  | apart {flag : Flag} {value : String} {args : List String} {values : Flag → Option String}
      {line : List String} : values flag = none → flag.Takes value → Unhyphened value →
      Gives args values line →
      Gives args (Function.update values flag (some value)) (flag.written :: value :: line)
  | attached {flag : Flag} {value : String} {args : List String} {values : Flag → Option String}
      {line : List String} : values flag = none → flag.Takes value → value ≠ "" →
      Gives args values line →
      Gives args (Function.update values flag (some value))
        ((flag.written ++ "=" ++ value) :: line)

/-! ## Items -/

theorem Item.ofString_plain {s : String} (h : Unhyphened s) : Item.ofString s = .plain s := by
  rw [Unhyphened] at h
  rw [Item.ofString]
  split
  · rename_i hs
    simp [hs] at h
  · rename_i hs
    simp [hs] at h
  · rename_i hs
    simp [hs] at h
  · rfl

/-- The name of an option is not empty and holds no equals sign. -/
theorem Flag.name_shape (flag : Flag) :
    flag.name.toList ≠ [] ∧ ∀ c ∈ flag.name.toList, (c == '=') = false := by
  cases flag <;> simp [Flag.name]

theorem Flag.ofName?_name (flag : Flag) : Flag.ofName? flag.name = some flag := by
  cases flag <;> decide

theorem Flag.name_ne_help (flag : Flag) : flag.name ≠ "help" := by
  cases flag <;> decide

/-- An option is written as two hyphens and its name. -/
theorem Flag.toList_written (flag : Flag) :
    flag.written.toList = '-' :: '-' :: flag.name.toList := by
  cases flag <;> rfl

theorem Item.ofString_written (flag : Flag) :
    Item.ofString flag.written = .long flag.name none := by
  obtain ⟨hne, hsep⟩ := flag.name_shape
  obtain ⟨c, cs, hname⟩ := List.exists_cons_of_ne_nil hne
  have hcut : cutAt (· == '=') flag.name.toList = (flag.name.toList, []) := cutAt_of_forall hsep
  rw [Item.ofString, flag.toList_written, hname]
  simp only [← hname, hcut, String.ofList_toList]

theorem Item.ofString_attached (flag : Flag) (value : String) :
    Item.ofString (flag.written ++ "=" ++ value) = .long flag.name (some value) := by
  obtain ⟨hne, hsep⟩ := flag.name_shape
  obtain ⟨c, cs, hname⟩ := List.exists_cons_of_ne_nil hne
  have hlist : (flag.written ++ "=" ++ value).toList =
      '-' :: '-' :: (flag.name.toList ++ '=' :: value.toList) := by
    rw [String.toList_append, String.toList_append, flag.toList_written, List.append_assoc]
    rfl
  -- The first equals sign is the one behind the name
  have hcut : cutAt (· == '=') (flag.name.toList ++ '=' :: value.toList) =
      (flag.name.toList, '=' :: value.toList) := cutAt_append_of_sep hsep rfl _
  rw [Item.ofString, hlist]
  rw [hname, List.cons_append] at hcut ⊢
  simp only [hcut, ← hname, String.ofList_toList]

/-! ## Values -/

/-- The value that has been given for an option. -/
def Given.value? (g : Given) : Flag → Option String
  | .keytool => g.keytool
  | .java => g.java
  | .san => g.san.map SanPolicy.word
  | .serverCommand => g.serverCommand
  | .clientCommand => g.clientCommand

/-- The word for a policy stands for that policy. -/
theorem ofWord?_word (policy : SanPolicy) : SanPolicy.ofWord? policy.word = some policy := by
  cases policy <;> decide

/-- The three words are those for the policies. -/
theorem Flag.exists_policy {value : String} (h : Flag.Takes .san value) :
    ∃ policy : SanPolicy, policy.word = value := by
  rcases h with rfl | rfl | rfl
  · exact ⟨.auto, rfl⟩
  · exact ⟨.always, rfl⟩
  · exact ⟨.never, rfl⟩

theorem Given.once_none {α : Type} (a : α) (set : α → Given) :
    once none (some a) set = .ok (set a) := rfl

theorem Given.once_eq_ok {α : Type} {old new : Option α} {set : α → Given} {g : Given}
    (h : once old new set = .ok g) : ∃ a, new = some a ∧ g = set a := by
  simp only [once] at h
  split at h
  · cases h
  · cases new with
    | none => cases h
    | some a =>
      cases h
      exact ⟨a, rfl, rfl⟩

/-- A value is taken for an option that has none yet. -/
theorem Given.exists_accept_option {g : Given} {flag : Flag} {value : String}
    (hfree : g.value? flag = none) (htakes : flag.Takes value) :
    ∃ g', g.accept value (.option flag) = .ok g' ∧ g'.value? flag = some value := by
  cases flag with
  | keytool =>
    have hnone : g.keytool = none := hfree
    exact ⟨{ g with keytool := some value }, by rw [accept, hnone, once_none], rfl⟩
  | java =>
    have hnone : g.java = none := hfree
    exact ⟨{ g with java := some value }, by rw [accept, hnone, once_none], rfl⟩
  | san =>
    have hnone : g.san = none := Option.map_eq_none_iff.mp hfree
    obtain ⟨policy, rfl⟩ := Flag.exists_policy htakes
    exact ⟨{ g with san := some policy }, by rw [accept, hnone, ofWord?_word, once_none], rfl⟩
  | serverCommand =>
    have hnone : g.serverCommand = none := hfree
    exact ⟨{ g with serverCommand := some value }, by rw [accept, hnone, once_none], rfl⟩
  | clientCommand =>
    have hnone : g.clientCommand = none := hfree
    exact ⟨{ g with clientCommand := some value }, by rw [accept, hnone, once_none], rfl⟩

/-- The value of an option leaves the arguments and the other options as they are. -/
theorem Given.accept_option_frame {g g' : Given} {value : String} {flag : Flag}
    (h : g.accept value (.option flag) = .ok g') : g'.password = g.password ∧
      g'.host = g.host ∧ ∀ f, f ≠ flag → g'.value? f = g.value? f := by
  cases flag <;>
  · simp only [accept] at h
    obtain ⟨_, -, rfl⟩ := once_eq_ok h
    refine ⟨rfl, rfl, fun f hf => ?_⟩
    cases f <;> simp_all only [value?, ne_eq, not_true_eq_false]

theorem Given.nonEmpty?_of_ne {text : String} (h : text ≠ "") : nonEmpty? text = some text := by
  rw [nonEmpty?, if_neg (by rwa [String.isEmpty_iff])]

/-! ## What has been read -/

namespace Reading

/-- Nothing is held back, and what has been understood are these arguments and these values. -/
structure Settled (r : Reading) (args : List String) (values : Flag → Option String) : Prop where
  pending : r.pending = none
  arguments : r.arguments = args.length
  password : r.given.password = args[0]?
  host : r.given.host = args[1]?
  values : r.given.value? = values

/-- What has been read are these arguments and these values, the last of which may still be held
    back. -/
structure Has (r : Reading) (args : List String) (values : Flag → Option String) : Prop where
  complete : ∀ slot, r.pending ≠ some (slot, none)
  settled : ∃ s, r.settle = .ok s ∧ s.Settled args values

theorem start_settled : start.Settled [] fun _ => none where
  pending := rfl
  arguments := rfl
  password := rfl
  host := rfl
  values := by
    funext flag
    cases flag <;> rfl

variable {r s : Reading} {args : List String} {values : Flag → Option String}

theorem Settled.settle_eq (h : s.Settled args values) : s.settle = .ok s := by
  rw [settle, h.pending]

theorem Settled.has (h : s.Settled args values) : s.Has args values :=
  ⟨fun slot hslot => by simp [h.pending] at hslot, s, h.settle_eq, h⟩

/-- A value that is held back is checked on its own. -/
theorem settle_hold (h : s.pending = none) (slot : Slot) (value : String) :
    (s.hold slot (some value)).settle = s.check slot (some value) := by
  have hs : { s with pending := none } = s := by rw [← h]
  change { s with pending := none }.check slot (some value) = _
  rw [hs]

/-- An option's value is checked with success if the option has none yet. -/
theorem Settled.check_option {flag : Flag} {value : String} (h : s.Settled args values)
    (hfree : values flag = none) (htakes : flag.Takes value) :
    ∃ t, s.check (.option flag) (some value) = .ok t ∧
      t.Settled args (Function.update values flag (some value)) := by
  rw [← h.values] at hfree ⊢
  obtain ⟨g, hg, hvalue⟩ := Given.exists_accept_option hfree htakes
  obtain ⟨hpassword, hhost, hothers⟩ := Given.accept_option_frame hg
  refine ⟨{ s with given := g }, by rw [check, hg], ?_⟩
  exact ⟨h.pending, h.arguments, hpassword.trans h.password, hhost.trans h.host,
    Function.eq_update_iff.mpr ⟨hvalue, hothers⟩⟩

/-! ## Items in turn -/

/-- A checked value leaves the number of arguments as it is. -/
theorem arguments_check {slot : Slot} {value : Option String} (h : r.check slot value = .ok s) :
    s.arguments = r.arguments := by
  cases value with
  | none => cases h
  | some v =>
    simp only [check] at h
    split at h
    · cases h
    · cases h
      rfl

theorem arguments_settle (h : r.settle = .ok s) : s.arguments = r.arguments := by
  rw [settle] at h
  split at h
  · cases h
    rfl
  · rename_i slot value _
    exact arguments_check (r := { r with pending := none }) h

/-- An argument is read. -/
theorem Has.argument {text : String} (h : r.Has args values) (htext : text ≠ "")
    (hroom : args.length < 2) :
    ∃ t, r.plain text = .ok t ∧ t.Has (args ++ [text]) values := by
  obtain ⟨hcomplete, s, hs, hset⟩ := h
  have harguments := (arguments_settle hs).symm.trans hset.arguments
  have hplain : r.plain text = r.argument text := by
    rw [plain]
    split
    · rename_i hpending
      exact absurd hpending (hcomplete _)
    · rfl
  rw [hplain, Reading.argument, harguments, hs]
  match args, hset, hroom with
  | [], hset, _ =>
    -- The first argument is the password
    have hfree : s.given.password = none := hset.password
    let held : Reading := { s with arguments := 1 }
    have hcheck : held.check .password (some text) =
        .ok { held with given := { s.given with password := some text } } := by
      simp only [check, Given.accept, held, hfree, Given.nonEmpty?_of_ne htext, Given.once_none]
    refine ⟨held.hold .password (some text), rfl, by simp [hold], _,
      (settle_hold (s := held) hset.pending _ _).trans hcheck, ?_⟩
    exact ⟨hset.pending, rfl, rfl, hset.host, hset.values⟩
  | [password], hset, _ =>
    -- The second one is the host
    have hfree : s.given.host = none := hset.host
    let held : Reading := { s with arguments := 2 }
    have hcheck : held.check .host (some text) =
        .ok { held with given := { s.given with host := some text } } := by
      simp only [check, Given.accept, held, hfree, Given.nonEmpty?_of_ne htext, Given.once_none]
    refine ⟨held.hold .host (some text), rfl, by simp [hold], _,
      (settle_hold (s := held) hset.pending _ _).trans hcheck, ?_⟩
    exact ⟨hset.pending, rfl, hset.password, rfl, hset.values⟩

theorem long_eq (r : Reading) (flag : Flag) (value : Option String) :
    r.long flag.name value = r.settle.bind fun settled =>
      match value with
      | none => .ok (settled.hold (.option flag) none)
      | some v => settled.check (.option flag) (some v) := by
  rw [long, if_neg flag.name_ne_help, flag.ofName?_name]
  rfl

/-- An option and the value behind it are read. -/
theorem Has.apart {flag : Flag} {value : String} (h : r.Has args values)
    (hfree : values flag = none) (htakes : flag.Takes value) :
    ∃ t u, r.long flag.name none = .ok t ∧ t.plain value = .ok u ∧
      u.Has args (Function.update values flag (some value)) := by
  obtain ⟨-, s, hs, hset⟩ := h
  obtain ⟨t, ht, htset⟩ := hset.check_option hfree htakes
  refine ⟨s.hold (.option flag) none, s.hold (.option flag) (some value), ?_, rfl,
    by simp [hold], t, (settle_hold hset.pending _ _).trans ht, htset⟩
  rw [long_eq, hs]
  rfl

/-- An option with its value attached is read. -/
theorem Has.attached {flag : Flag} {value : String} (h : r.Has args values)
    (hfree : values flag = none) (htakes : flag.Takes value) :
    ∃ t, r.long flag.name (some value) = .ok t ∧
      t.Has args (Function.update values flag (some value)) := by
  obtain ⟨-, s, hs, hset⟩ := h
  obtain ⟨t, ht, htset⟩ := hset.check_option hfree htakes
  refine ⟨t, ?_, htset.has⟩
  rw [long_eq, hs]
  exact ht

theorem items_plain {text : String} {rest : List String} {t : Reading} (h : Unhyphened text)
    (ht : r.plain text = .ok t) : r.items (text :: rest) = t.items rest := by
  rw [items, Item.ofString_plain h]
  simp only [ht]
  rfl

theorem items_written {flag : Flag} {rest : List String} {t : Reading}
    (ht : r.long flag.name none = .ok t) : r.items (flag.written :: rest) = t.items rest := by
  rw [items, Item.ofString_written]
  simp only [ht]
  rfl

theorem items_attached {flag : Flag} {value : String} {rest : List String} {t : Reading}
    (ht : r.long flag.name (some value) = .ok t) :
    r.items ((flag.written ++ "=" ++ value) :: rest) = t.items rest := by
  rw [items, Item.ofString_attached]
  simp only [ht]
  rfl

end Reading

/-! ## Whole lines -/

/-- The values of two parts of a command line together. -/
def together (before after : Flag → Option String) (flag : Flag) : Option String :=
  (before flag).or (after flag)

/-- A value in front is one of the values together with those behind it. -/
theorem together_update {before after : Flag → Option String} {flag : Flag} {value : String}
    (hbefore : before flag = none) (hafter : after flag = none) :
    together (Function.update before flag (some value)) after =
      together before (Function.update after flag (some value)) := by
  funext f
  by_cases hf : f = flag
  · subst hf
    simp [together, hbefore]
  · simp [together, Function.update_of_ne hf]

/-- If an option comes next and has not been given, it counts as given from then on. -/
theorem free_update {before after : Flag → Option String} {flag : Flag} {value : String}
    (hfree : ∀ f, before f = none ∨ Function.update after flag (some value) f = none)
    (hafter : after flag = none) : before flag = none ∧
      ∀ f, Function.update before flag (some value) f = none ∨ after f = none := by
  constructor
  · have hflag := hfree flag
    rw [Function.update_self] at hflag
    exact hflag.resolve_right nofun
  · intro f
    by_cases hf : f = flag
    · subst hf
      exact .inr hafter
    · have hother := hfree f
      rwa [Function.update_of_ne hf] at hother ⊢

/-- A line is read behind what has been read, if there is room for its arguments and none of its
    options has been given. -/
theorem Gives.items {args : List String} {values : Flag → Option String} {line : List String}
    (h : Gives args values line) {r : Reading} {before : List String}
    {given : Flag → Option String} (hr : r.Has before given) (hroom : (before ++ args).length ≤ 2)
    (hfree : ∀ flag, given flag = none ∨ values flag = none) :
    ∃ s, r.items line = .ok s ∧ s.Settled (before ++ args) (together given values) := by
  -- On the line from its first item on: each item is read, and the rest is read behind it
  induction h generalizing r before given with
  | nothing =>
    obtain ⟨-, s, hs, hset⟩ := hr
    have hvalues : together given (fun _ => none) = given := by
      funext flag
      exact Option.or_none
    rw [List.append_nil, hvalues]
    exact ⟨s, hs, hset⟩
  | @argument text args values line htext hhyphen _ ih =>
    have hshort : before.length < 2 := by
      rw [List.length_append, List.length_cons] at hroom
      omega
    obtain ⟨t, ht, hhas⟩ := hr.argument htext hshort
    rw [Reading.items_plain hhyphen ht, List.append_cons]
    rw [List.append_cons] at hroom
    exact ih hhas hroom hfree
  | @apart flag value args values line hnone htakes hhyphen _ ih =>
    obtain ⟨hgiven, hrest⟩ := free_update hfree hnone
    obtain ⟨t, u, ht, hu, hhas⟩ := hr.apart hgiven htakes
    rw [Reading.items_written ht, Reading.items_plain hhyphen hu, ← together_update hgiven hnone]
    exact ih hhas hroom hrest
  | @attached flag value args values line hnone htakes _ _ ih =>
    obtain ⟨hgiven, hrest⟩ := free_update hfree hnone
    obtain ⟨t, ht, hhas⟩ := hr.attached hgiven htakes
    rw [Reading.items_attached ht, ← together_update hgiven hnone]
    exact ih hhas hroom hrest

/-- The value of an option in what a command line says. -/
def Options.value (o : Options) : Flag → String
  | .keytool => o.keytool
  | .java => o.java
  | .san =>
    match o.san with
    | .auto => "auto"
    | .always => "always"
    | .never => "never"
  | .serverCommand => o.serverCommand
  | .clientCommand => o.clientCommand

theorem Options.value_san (o : Options) : o.value .san = o.san.word := by
  rw [Options.value]
  cases o.san <;> rfl

/-- Command lines that say the same say it in all their fields. -/
theorem Options.eq_of_value {o o' : Options} (hpassword : o.password = o'.password)
    (hhost : o.host = o'.host) (hvalue : ∀ flag, o.value flag = o'.value flag) : o = o' := by
  obtain ⟨password, host, keytool, java, san, serverCommand, clientCommand⟩ := o
  obtain ⟨password', host', keytool', java', san', serverCommand', clientCommand'⟩ := o'
  cases hpassword
  cases hhost
  cases hvalue .keytool
  cases hvalue .java
  cases hvalue .serverCommand
  cases hvalue .clientCommand
  have hword : san.word = san'.word := by
    have hsame := hvalue .san
    rwa [value_san, value_san] at hsame
  have hsan : some san = some san' := by rw [← ofWord?_word san, hword, ofWord?_word]
  rw [Option.some.inj hsan]

/-- Of what has been read with both arguments, the options that were not given are standard. -/
theorem Reading.Settled.options {s : Reading} {password host : String}
    {values : Flag → Option String} (h : s.Settled [password, host] values) :
    ∃ o, s.given.options = .ok o ∧ o.password = password ∧ o.host = host ∧
      ∀ flag, o.value flag = (values flag).getD flag.standard := by
  have hpassword : s.given.password = some password := h.password
  have hhost : s.given.host = some host := h.host
  rw [Given.options, hpassword, hhost]
  refine ⟨_, rfl, rfl, rfl, fun flag => ?_⟩
  rw [← h.values]
  cases flag with
  | san =>
    rw [Options.value_san]
    change (s.given.san.getD .auto).word = (s.given.san.map SanPolicy.word).getD "auto"
    cases s.given.san <;> rfl
  | keytool => rfl
  | java => rfl
  | serverCommand => rfl
  | clientCommand => rfl

/-- A command line is read as what it gives. -/
theorem Gives.read {password host : String} {values : Flag → Option String} {line : List String}
    (h : Gives [password, host] values line) :
    ∃ o, read line = .ok o ∧ o.password = password ∧ o.host = host ∧
      ∀ flag, o.value flag = (values flag).getD flag.standard := by
  obtain ⟨s, hs, hset⟩ := h.items Reading.start_settled.has (Nat.le_refl 2) fun _ => .inl rfl
  have hvalues : together (fun _ => none) values = values := by
    funext flag
    exact Option.none_or
  rw [List.nil_append, hvalues] at hset
  obtain ⟨o, ho, hfields⟩ := hset.options
  refine ⟨o, ?_, hfields⟩
  rw [CommandLine.read, hs]
  change s.given.options.mapError Stop.usage = _
  rw [ho]
  rfl

/-! ## What every command line says -/

/-- No argument that has been taken is empty. -/
structure Given.Sound (g : Given) : Prop where
  password : g.password ≠ some ""
  host : g.host ≠ some ""

theorem Given.nonEmpty?_ne {value text : String} (h : nonEmpty? value = some text) : text ≠ "" := by
  rw [nonEmpty?] at h
  split at h
  · cases h
  · rename_i hne
    cases h
    rwa [String.isEmpty_iff] at hne

theorem Given.Sound.accept {g g' : Given} {value : String} {slot : Slot} (hg : g.Sound)
    (h : g.accept value slot = .ok g') : g'.Sound := by
  cases slot with
  | password =>
    obtain ⟨text, htext, rfl⟩ := once_eq_ok h
    exact ⟨fun hempty => nonEmpty?_ne htext (Option.some.inj hempty), hg.host⟩
  | host =>
    obtain ⟨text, htext, rfl⟩ := once_eq_ok h
    exact ⟨hg.password, fun hempty => nonEmpty?_ne htext (Option.some.inj hempty)⟩
  | option flag =>
    obtain ⟨hpassword, hhost, -⟩ := accept_option_frame h
    exact ⟨hpassword ▸ hg.password, hhost ▸ hg.host⟩

theorem exists_of_bind_eq_ok {α β : Type} {x : Except Stop α} {f : α → Except Stop β} {b : β}
    (h : (x >>= f) = .ok b) : ∃ a, x = .ok a ∧ f a = .ok b := by
  cases x with
  | error e => cases h
  | ok a => exact ⟨a, rfl, h⟩

namespace Reading

variable {r s : Reading}

theorem check_sound {slot : Slot} {value : Option String} (h : r.check slot value = .ok s)
    (hr : r.given.Sound) : s.given.Sound := by
  cases value with
  | none => cases h
  | some v =>
    simp only [check] at h
    split at h
    · cases h
    · rename_i hg
      cases h
      exact hr.accept hg

theorem settle_sound (h : r.settle = .ok s) (hr : r.given.Sound) : s.given.Sound := by
  rw [settle] at h
  split at h
  · cases h
    exact hr
  · rename_i slot value _
    exact check_sound (r := { r with pending := none }) h hr

theorem argument_sound {text : String} (h : r.argument text = .ok s) (hr : r.given.Sound) :
    s.given.Sound := by
  rw [argument] at h
  split at h
  · obtain ⟨t, ht, hs⟩ := exists_of_bind_eq_ok h
    have hsound := settle_sound ht hr
    cases hs
    exact hsound
  · obtain ⟨t, ht, hs⟩ := exists_of_bind_eq_ok h
    have hsound := settle_sound ht hr
    cases hs
    exact hsound
  · cases h

theorem foldlM_argument_sound {texts : List String} (h : texts.foldlM argument r = .ok s)
    (hr : r.given.Sound) : s.given.Sound := by
  induction texts generalizing r with
  | nil =>
    cases h
    exact hr
  | cons text texts ih =>
    rw [List.foldlM_cons] at h
    obtain ⟨t, ht, hs⟩ := exists_of_bind_eq_ok h
    exact ih hs (argument_sound ht hr)

theorem plain_sound {text : String} (h : r.plain text = .ok s) (hr : r.given.Sound) :
    s.given.Sound := by
  rw [plain] at h
  split at h
  · cases h
    exact hr
  · exact argument_sound h hr

theorem long_sound {name : String} {value : Option String} (h : r.long name value = .ok s)
    (hr : r.given.Sound) : s.given.Sound := by
  rw [long] at h
  split at h
  · -- Help is no reading
    split at h
    · cases h
    · obtain ⟨t, -, hs⟩ := exists_of_bind_eq_ok h
      cases hs
  · split at h
    · cases h
    · obtain ⟨t, ht, hs⟩ := exists_of_bind_eq_ok h
      have hsound := settle_sound ht hr
      cases value with
      | none =>
        cases hs
        exact hsound
      | some v => exact check_sound hs hsound

theorem short_ne_ok {letter : Char} : r.short letter ≠ .ok s := by
  rw [short]
  split
  · intro h
    obtain ⟨t, -, hs⟩ := exists_of_bind_eq_ok h
    cases hs
  · nofun

/-- No empty argument is ever taken, whatever the command line. -/
theorem items_sound {line : List String} (h : r.items line = .ok s) (hr : r.given.Sound) :
    s.given.Sound := by
  induction line generalizing r with
  | nil => exact settle_sound h hr
  | cons text rest ih =>
    rw [items] at h
    split at h
    · obtain ⟨t, ht, hs⟩ := exists_of_bind_eq_ok h
      exact settle_sound hs (foldlM_argument_sound ht hr)
    · obtain ⟨t, ht, hs⟩ := exists_of_bind_eq_ok h
      exact ih hs (long_sound ht hr)
    · obtain ⟨t, ht, -⟩ := exists_of_bind_eq_ok h
      exact absurd ht short_ne_ok
    · obtain ⟨t, ht, hs⟩ := exists_of_bind_eq_ok h
      exact ih hs (plain_sound ht hr)

end Reading

/-- What is read has two arguments that are not empty. -/
theorem read_sound {line : List String} {o : Options} (h : read line = .ok o) :
    o.password ≠ "" ∧ o.host ≠ "" := by
  obtain ⟨s, hs, ho⟩ := exists_of_bind_eq_ok h
  have hsound := Reading.items_sound hs ⟨nofun, nofun⟩
  rw [Given.options] at ho
  split at ho
  · rename_i password host hpassword hhost
    cases ho
    exact ⟨fun hempty => hsound.password (hempty ▸ hpassword),
      fun hempty => hsound.host (hempty ▸ hhost)⟩
  · cases ho

/-- A command line with a password, a host and options is read, as just what it gives: the first
    argument is the password and the second the host, and an option that is not given is
    standard.  Every other command line that gives the same is read alike, so the order of the
    options does not matter, nor whether a value is attached.  And whatever is read has a
    password and a host that are not empty, and the one output directory. -/
theorem read_gives :
    (∀ password host values line, Gives [password, host] values line →
      ∃ o, read line = .ok o ∧ o.password = password ∧ o.host = host ∧
        (∀ flag, o.value flag = (values flag).getD flag.standard) ∧
        ∀ line', Gives [password, host] values line' → read line' = .ok o) ∧
    ∀ line o, read line = .ok o → o.password ≠ "" ∧ o.host ≠ "" ∧ o.config.outDir = "keys" := by
  constructor
  · intro password host values line h
    obtain ⟨o, ho, hpassword, hhost, hvalues⟩ := h.read
    refine ⟨o, ho, hpassword, hhost, hvalues, fun line' h' => ?_⟩
    obtain ⟨o', ho', hpassword', hhost', hvalues'⟩ := h'.read
    rw [ho', Options.eq_of_value (hpassword'.trans hpassword.symm) (hhost'.trans hhost.symm)
      fun flag => (hvalues' flag).trans (hvalues flag).symm]
  · intro line o h
    obtain ⟨hpassword, hhost⟩ := read_sound h
    exact ⟨hpassword, hhost, rfl⟩

/-- Options before, between and behind the arguments: one of the values begins with a hyphen, and
    two hold an equals sign. -/
theorem read_gives_mixed :
    let line := ["--san=never", "secret", "--java", "java=17", "example.org", "--keytool=-k=1"]
    let values := Function.update (Function.update (Function.update (fun _ => none) Flag.keytool
      (some "-k=1")) Flag.java (some "java=17")) Flag.san (some "never")
    Gives ["secret", "example.org"] values line ∧
      ∃ o, read line = .ok o ∧ o.password = "secret" ∧ o.host = "example.org" ∧
        o.keytool = "-k=1" ∧ o.java = "java=17" ∧ o.value .san = "never" ∧
        o.serverCommand = "java ChainMain" := by
  intro line values
  have hgives : Gives ["secret", "example.org"] values line := by
    refine @Gives.attached .san "never" _ _ _ rfl (.inr (.inr rfl)) (by decide) ?_
    refine .argument (by decide) (by simp [Unhyphened]) ?_
    refine @Gives.apart .java "java=17" _ _ _ rfl trivial (by simp [Unhyphened]) ?_
    refine .argument (by decide) (by simp [Unhyphened]) ?_
    exact @Gives.attached .keytool "-k=1" _ _ _ rfl trivial (by decide) .nothing
  obtain ⟨o, ho, hpassword, hhost, hvalue, -⟩ := read_gives.1 _ _ _ _ hgives
  exact ⟨hgives, o, ho, hpassword, hhost, hvalue .keytool, hvalue .java, hvalue .san,
    hvalue .serverCommand⟩

end Keysmith.CommandLine
