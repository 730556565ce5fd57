/-! # Secrets

The passphrase that protects both keystores and their entries.  Its text is
reached by `expose` only; what is shown of it is the same for every secret. -/

namespace Keysmith

/-- A passphrase. -/
structure Secret where
  /-- The passphrase itself. -/
  expose : String
  deriving DecidableEq

namespace Secret

/-- What stands for a secret in a command line that is logged. -/
def mask : String := "***"

/-- What is shown of a secret. -/
def shown (_ : Secret) : String := "Secret(***)"

end Secret

end Keysmith
