import Keysmith.Proofs.DistinguishedName
import Keysmith.Proofs.SubjectAltName
import Keysmith.Proofs.ToolArguments
import Mathlib.Data.List.Nodup

/-!
# The tool's argument lists read back

The option reader takes an argument list apart by position alone, so no value can pass for a flag.
What it finds is enough to put the request together again, field by field.

* `Invocation.read?_arguments`  a command word, switches and options that are written one after
  another read back
* `KeypairRequest.ofInvocation?_invocation`, and likewise for the other two requests  the fields of
  a request from its options
* `arguments_read_back`  each request can be recovered from its argument list, and what follows
  from that
-/

namespace Keysmith

/-! ## Switches before options -/

namespace Invocation

/-- A switch stands alone. -/
theorem readOptions?_switch {flag : String} (h : isSwitch flag = true) (rest : List String) :
    readOptions? (flag :: rest) = (readOptions? rest).map fun r => (flag :: r.1, r.2) := by
  cases rest with
  | nil => simp [readOptions?, h]
  | cons value rest =>
    rw [readOptions?]
    simp only [h, if_true]

theorem readOptions?_append {switches : List String} {options : List (String × String)}
    (hs : ∀ s ∈ switches, isSwitch s = true) (ho : ∀ o ∈ options, isSwitch o.1 = false) :
    readOptions? (switches ++ flatten options) = some (switches, options) := by
  induction switches with
  | nil => exact readOptions?_flatten ho
  | cons s switches ih =>
    have hswitch : isSwitch s = true := hs s List.mem_cons_self
    have hrest := ih fun s hs' => hs s (List.mem_cons_of_mem _ hs')
    rw [List.cons_append, readOptions?_switch hswitch, hrest]
    rfl

/-- An invocation written as an argument list: the command word, the switches, the options. -/
def arguments (i : Invocation) : List String := i.command :: (i.switches ++ flatten i.options)

theorem read?_arguments {i : Invocation} (hs : ∀ s ∈ i.switches, isSwitch s = true)
    (ho : ∀ o ∈ i.options, isSwitch o.1 = false) : read? i.arguments = some i := by
  rw [arguments, read?, readOptions?_append hs ho]
  rfl

/-- What is put together from an invocation is determined by the argument list from which that is
    read. -/
theorem eq_of_read? {ρ κ : Type} {arguments : ρ → List String} {invocation : ρ → Invocation}
    {of? : Invocation → Option κ} {part : ρ → κ}
    (hread : ∀ r, read? (arguments r) = some (invocation r))
    (hof : ∀ r, of? (invocation r) = some (part r)) {r r' : ρ} (h : arguments r = arguments r') :
    part r = part r' := by
  have hi := hread r
  rw [h, hread r'] at hi
  have hr := hof r
  rw [← Option.some.inj hi, hof r'] at hr
  exact (Option.some.inj hr).symm

/-- An invocation of a command: it has the given switches, no flag comes twice, and the passwords
    are those given. -/
structure Invokes (i : Invocation) (command : String) (switches : List String)
    (storePassword : Secret) (keyPassword : Option Secret) : Prop where
  command_eq : i.command = command
  switches_eq : i.switches = switches
  once : (i.options.map Prod.fst).Nodup
  storePassword : i.value? "-storepass" = some storePassword.expose
  keyPassword : i.value? "-keypass" = keyPassword.map Secret.expose

end Invocation

/-! ## Reading the values -/

namespace Text.Decimal

/-- Read a numeral: one digit or more, and nothing else. -/
def read? (s : List Char) : Option Nat :=
  if !s.isEmpty && s.all Char.isDigit then some (value s) else none

theorem read?_digits (n : Nat) : read? (digits n) = some n := by
  have hall : (digits n).all Char.isDigit = true :=
    List.all_eq_true.mpr fun _ => isDigit_of_mem_digits
  have hne : (digits n).isEmpty = false := List.isEmpty_eq_false_iff.mpr (digits_ne_nil n)
  simp only [read?, hall, hne, Bool.not_false, Bool.and_self, if_true, value_digits]

end Text.Decimal

namespace SubjectAltName

/-- Read an extension that names a host and an address. -/
def read? (s : List Char) : Option SubjectAltName :=
  match entries? s with
  | some [(kind, dns), (kind', ip)] =>
    if kind = "dns".toList ∧ kind' = "ip".toList then do
      (ofHost (String.ofList dns) (← Ipv4.read? ip)).toOption
    else none
  | _ => none

theorem read?_chars (san : SubjectAltName) : read? san.chars = some san := by
  have hdns : ofHost (String.ofList san.dns.toList) san.ip = .ok san := by
    rw [String.ofList_toList, ofHost, dif_pos san.plain]
  rw [read?, entries?_chars]
  simp only [and_self, if_true, Ipv4.read?_chars, bind, Option.bind, hdns]
  rfl

/-- Read an extension that can be missing; one that is there has to be readable. -/
def readOption? : Option String → Option (Option SubjectAltName)
  | none => some none
  | some s => (read? s.toList).map some

theorem readOption?_text (san : Option SubjectAltName) : readOption? (san.map text) = some san := by
  cases san with
  | none => rfl
  | some san =>
    rw [Option.map_some, readOption?, text, String.toList_ofList, read?_chars]
    rfl

end SubjectAltName

/-! ## The three requests -/

open Invocation

namespace KeypairRequest

/-- Put a request together from its options. -/
def ofInvocation? (i : Invocation) : Option KeypairRequest := do
  let subject ← DistinguishedName.read? (← i.value? "-dname").toList
  let san ← SubjectAltName.readOption? (i.value? "-ext")
  let keystore ← i.value? "-keystore"
  let keyAlgorithm ← i.value? "-keyalg"
  let keySize ← Text.Decimal.read? (← i.value? "-keysize").toList
  let storePassword ← i.value? "-storepass"
  let entry ← i.value? "-alias"
  let keyPassword ← i.value? "-keypass"
  if i.command = "-genkeypair" ∧ storePassword = keyPassword then
    some ⟨subject, san, keystore, entry, keyAlgorithm, keySize, ⟨storePassword⟩⟩
  else none

/-- What the reader finds in the argument list of a request. -/
def invocation (r : KeypairRequest) : Invocation := ⟨"-genkeypair", [], r.options⟩

theorem invokes (r : KeypairRequest) :
    r.invocation.Invokes "-genkeypair" [] r.secret (some r.secret) where
  command_eq := rfl
  switches_eq := rfl
  once := by cases h : r.san <;> simp [invocation, options, h]
  storePassword := by cases h : r.san <;> simp [invocation, options, value?, List.lookup_cons, h]
  keyPassword := by cases h : r.san <;> simp [invocation, options, value?, List.lookup_cons, h]

theorem value?_ext (r : KeypairRequest) : r.invocation.value? "-ext" = r.san.map (·.text) := by
  cases h : r.san <;> simp [invocation, options, value?, List.lookup_cons, h]

/-- The options of a request give back all its fields. -/
theorem ofInvocation?_invocation (r : KeypairRequest) : ofInvocation? r.invocation = some r := by
  have hsubject : r.invocation.value? "-dname" = some r.subject.text := rfl
  -- The flags behind the extension are found whether it is there or not
  obtain ⟨hkeystore, halg, hkeysize, hentry⟩ : r.invocation.value? "-keystore" = some r.keystore ∧
      r.invocation.value? "-keyalg" = some r.keyAlgorithm ∧
      r.invocation.value? "-keysize" = some (String.ofList (Text.Decimal.digits r.keySize)) ∧
      r.invocation.value? "-alias" = some r.entry := by
    cases h : r.san <;> simp [invocation, options, value?, List.lookup_cons, h]
  rw [ofInvocation?, hsubject, value?_ext, hkeystore, halg, hkeysize, r.invokes.storePassword,
    r.invokes.keyPassword, hentry]
  simp only [bind, Option.bind, DistinguishedName.text, String.toList_ofList,
    DistinguishedName.read?_chars, SubjectAltName.readOption?_text, Text.Decimal.read?_digits,
    Option.map_some]
  rw [if_pos ⟨rfl, trivial⟩]

/-- With names for the server, one pair of arguments is added in one place. -/
theorem arguments_some (r : KeypairRequest) (san : SubjectAltName) :
    ∃ before after, { r with san := none }.arguments = before ++ after ∧
      { r with san := some san }.arguments = before ++ ["-ext", san.text] ++ after :=
  ⟨["-genkeypair", "-dname", r.subject.text], _, rfl, rfl⟩

end KeypairRequest

namespace ExportRequest

/-- The options of a request, in the order in which they are written. -/
def options (r : ExportRequest) : List (String × String) :=
  [("-keystore", r.keystore), ("-storepass", r.secret.expose), ("-alias", r.entry)]

/-- What the reader finds in the argument list of a request. -/
def invocation (r : ExportRequest) : Invocation := ⟨"-exportcert", ["-rfc"], r.options⟩

theorem read?_arguments (r : ExportRequest) : Invocation.read? r.arguments = some r.invocation := by
  have hargs : r.arguments = r.invocation.arguments := rfl
  rw [hargs]
  exact Invocation.read?_arguments (by simp [invocation, isSwitch])
    (by simp [invocation, options, isSwitch])

theorem invokes (r : ExportRequest) :
    r.invocation.Invokes "-exportcert" ["-rfc"] r.secret none where
  command_eq := rfl
  switches_eq := rfl
  once := by simp [invocation, options]
  storePassword := rfl
  keyPassword := rfl

/-- Put a request together from its options, for a destination, which they do not name. -/
def ofInvocation? (dest : String) (i : Invocation) : Option ExportRequest := do
  let keystore ← i.value? "-keystore"
  let storePassword ← i.value? "-storepass"
  let entry ← i.value? "-alias"
  if i.command = "-exportcert" then some ⟨keystore, ⟨storePassword⟩, entry, dest⟩ else none

theorem ofInvocation?_invocation (r : ExportRequest) (dest : String) :
    ofInvocation? dest r.invocation = some { r with dest := dest } := rfl

end ExportRequest

namespace ImportRequest

/-- The options of a request, in the order in which they are written. -/
def options (r : ImportRequest) : List (String × String) :=
  [("-file", r.certificate), ("-alias", r.entry), ("-keystore", r.keystore),
   ("-storepass", r.secret.expose), ("-keypass", r.secret.expose)]

/-- What the reader finds in the argument list of a request. -/
def invocation (r : ImportRequest) : Invocation := ⟨"-import", ["-noprompt"], r.options⟩

theorem read?_arguments (r : ImportRequest) : Invocation.read? r.arguments = some r.invocation := by
  have hargs : r.arguments = r.invocation.arguments := rfl
  rw [hargs]
  exact Invocation.read?_arguments (by simp [invocation, isSwitch])
    (by simp [invocation, options, isSwitch])

theorem invokes (r : ImportRequest) :
    r.invocation.Invokes "-import" ["-noprompt"] r.secret (some r.secret) where
  command_eq := rfl
  switches_eq := rfl
  once := by simp [invocation, options]
  storePassword := rfl
  keyPassword := rfl

/-- Put a request together from its options. -/
def ofInvocation? (i : Invocation) : Option ImportRequest := do
  let certificate ← i.value? "-file"
  let entry ← i.value? "-alias"
  let keystore ← i.value? "-keystore"
  let storePassword ← i.value? "-storepass"
  let keyPassword ← i.value? "-keypass"
  if i.command = "-import" ∧ storePassword = keyPassword then
    some ⟨certificate, entry, keystore, ⟨storePassword⟩⟩
  else none

theorem ofInvocation?_invocation (r : ImportRequest) : ofInvocation? r.invocation = some r := by
  rw [ofInvocation?, r.invokes.storePassword, r.invokes.keyPassword]
  exact if_pos ⟨rfl, rfl⟩

end ImportRequest

/-! ## Reading the argument lists -/

/-- Each request reads back from its argument list, whatever its values look like.  So argument
    lists are equal only if they belong to requests of one kind with equal fields, and the names of
    the server show in one pair of arguments and nowhere else. -/
theorem arguments_read_back :
    (∀ r : KeypairRequest, ∃ i, Invocation.read? r.arguments = some i ∧
      i.Invokes "-genkeypair" [] r.secret (some r.secret) ∧
      KeypairRequest.ofInvocation? i = some r) ∧
    (∀ r : ExportRequest, ∃ i, Invocation.read? r.arguments = some i ∧
      i.Invokes "-exportcert" ["-rfc"] r.secret none ∧
      ExportRequest.ofInvocation? r.dest i = some r) ∧
    (∀ r : ImportRequest, ∃ i, Invocation.read? r.arguments = some i ∧
      i.Invokes "-import" ["-noprompt"] r.secret (some r.secret) ∧
      ImportRequest.ofInvocation? i = some r) ∧
    Function.Injective KeypairRequest.arguments ∧
    (∀ r r' : ExportRequest, r.arguments = r'.arguments ↔
      r.keystore = r'.keystore ∧ r.secret = r'.secret ∧ r.entry = r'.entry) ∧
    Function.Injective ImportRequest.arguments ∧
    (∀ (r : KeypairRequest) (r' : ExportRequest) (r'' : ImportRequest),
      r.arguments ≠ r'.arguments ∧ r'.arguments ≠ r''.arguments ∧
        r.arguments ≠ r''.arguments) ∧
    (∀ (r : KeypairRequest) (san : SubjectAltName), ∃ before after,
      { r with san := none }.arguments = before ++ after ∧
        { r with san := some san }.arguments = before ++ ["-ext", san.text] ++ after) := by
  refine ⟨fun r => ⟨_, r.read?_arguments, r.invokes, r.ofInvocation?_invocation⟩,
    fun r => ⟨_, r.read?_arguments, r.invokes, r.ofInvocation?_invocation r.dest⟩,
    fun r => ⟨_, r.read?_arguments, r.invokes, r.ofInvocation?_invocation⟩,
    fun _ _ => eq_of_read? KeypairRequest.read?_arguments KeypairRequest.ofInvocation?_invocation,
    fun r r' => ⟨fun h => ?_, ?_⟩,
    fun _ _ => eq_of_read? ImportRequest.read?_arguments ImportRequest.ofInvocation?_invocation,
    fun r r' r'' => ⟨?_, ?_, ?_⟩, KeypairRequest.arguments_some⟩
  · have hr := eq_of_read? ExportRequest.read?_arguments
      (fun r => r.ofInvocation?_invocation "") h
    simp only [ExportRequest.mk.injEq, and_true] at hr
    exact hr
  · rintro ⟨hkeystore, hsecret, hentry⟩
    rw [ExportRequest.arguments, ExportRequest.arguments, hkeystore, hsecret, hentry]
  -- The command words tell the three kinds apart
  · simp [KeypairRequest.arguments, ExportRequest.arguments]
  · simp [ExportRequest.arguments, ImportRequest.arguments]
  · simp [KeypairRequest.arguments, ImportRequest.arguments]

/-- Values that spell flags stay values. -/
example : Invocation.read? (ExportRequest.arguments ⟨"-alias", ⟨"-rfc"⟩, "", "pem"⟩) =
    some ⟨"-exportcert", ["-rfc"],
      [("-keystore", "-alias"), ("-storepass", "-rfc"), ("-alias", "")]⟩ := by
  decide

end Keysmith
