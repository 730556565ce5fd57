import Keysmith.Command.Invocation

/-!
# The tool's argument lists as options

After the command word an argument list of the tool is a list of options, each a flag with its
value behind it.  Read by position, it gives back these options, whatever their values look like.

* `Invocation.readOptions?_flatten`  options that are written one after another read back
* `KeypairRequest.read?_arguments`  the options of a request for a key pair
* `KeypairRequest.ext_mem_options_iff`  the extension is among them just if it is wanted
-/

namespace Keysmith

namespace Invocation

/-- Options that are written one after another. -/
def flatten (options : List (String × String)) : List String :=
  options.flatMap fun o => [o.1, o.2]

/-- A flag that is no switch takes the argument behind it. -/
theorem readOptions?_cons {flag : String} (h : isSwitch flag = false) (value : String)
    (rest : List String) :
    readOptions? (flag :: value :: rest) =
      (readOptions? rest).map fun r => (r.1, (flag, value) :: r.2) := by
  rw [readOptions?]
  simp only [h, Bool.false_eq_true, if_false]

theorem readOptions?_flatten {options : List (String × String)}
    (h : ∀ o ∈ options, isSwitch o.1 = false) :
    readOptions? (flatten options) = some ([], options) := by
  induction options with
  | nil => rfl
  | cons o options ih =>
    have hrest := ih fun o ho => h o (List.mem_cons_of_mem _ ho)
    have hflag : isSwitch o.1 = false := h o List.mem_cons_self
    have hcons : flatten (o :: options) = o.1 :: o.2 :: flatten options := rfl
    rw [hcons, readOptions?_cons hflag, hrest]
    rfl

end Invocation

namespace KeypairRequest

/-- The options of a request, in the order in which they are written. -/
def options (r : KeypairRequest) : List (String × String) :=
  ("-dname", r.subject.text) ::
    ((r.san.map fun san => ("-ext", san.text)).toList ++
      [("-keystore", r.keystore),
       ("-keyalg", r.keyAlgorithm),
       ("-keysize", String.ofList (Text.Decimal.digits r.keySize)),
       ("-storepass", r.secret.expose),
       ("-alias", r.entry),
       ("-keypass", r.secret.expose)])

theorem arguments_eq (r : KeypairRequest) :
    r.arguments = "-genkeypair" :: Invocation.flatten r.options := by
  rw [arguments, options]
  cases r.san <;> rfl

theorem not_isSwitch_of_mem_options {r : KeypairRequest} {o : String × String}
    (h : o ∈ r.options) : Invocation.isSwitch o.1 = false := by
  simp only [options, List.mem_cons, List.mem_append, Option.mem_toList,
    Option.map_eq_some_iff, List.not_mem_nil, or_false] at h
  rcases h with rfl | ⟨san, -, rfl⟩ | rfl | rfl | rfl | rfl | rfl | rfl <;>
    simp [Invocation.isSwitch]

/-- The argument list of a request reads back as its options. -/
theorem read?_arguments (r : KeypairRequest) :
    Invocation.read? r.arguments = some ⟨"-genkeypair", [], r.options⟩ := by
  have hread := Invocation.readOptions?_flatten
    fun o (ho : o ∈ r.options) => not_isSwitch_of_mem_options ho
  rw [arguments_eq, Invocation.read?, hread]
  rfl

/-- The extension stands among the options with the written form of the server's names, if
    there are any. -/
theorem ext_mem_options_iff {r : KeypairRequest} {value : String} :
    ("-ext", value) ∈ r.options ↔ ∃ san, r.san = some san ∧ san.text = value := by
  simp [options, Option.map_eq_some_iff]

end KeypairRequest

end Keysmith
