import Keysmith.Version

/-! # When the certificate names the machine's address

The policy decides whether the runtime's version has to be known, and with it
whether the server's certificate gets a subject alternative name. -/

namespace Keysmith

/-- When to add the subject alternative name. -/
inductive SanPolicy where
  /-- If the installed runtime supports it. -/
  | auto
  /-- Always, without asking the runtime. -/
  | always
  /-- Never. -/
  | never
  deriving DecidableEq, Repr

namespace SanPolicy

/-- The word for a policy on the command line. -/
def word : SanPolicy → String
  | auto => "auto"
  | always => "always"
  | never => "never"

/-- The policy that a word stands for; words are told apart by case. -/
def ofWord? (s : String) : Option SanPolicy :=
  [auto, always, never].find? (·.word == s)

/-- Whether the runtime has to be asked for its version. -/
def needsProbe : SanPolicy → Bool
  | auto => true
  | always => false
  | never => false

/-- Whether the certificate gets the extension, given the version of a runtime that
    was asked. -/
def wantsSan : SanPolicy → Option Version → Bool
  | auto, v => v.any Version.supportsExtensions
  | always, _ => true
  | never, _ => false

end SanPolicy

end Keysmith
