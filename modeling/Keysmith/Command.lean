import Keysmith.Certificate.DistinguishedName
import Keysmith.Certificate.SubjectAltName
import Keysmith.Secret

/-! # Commands of the key-management tool

The three commands that a run gives to the tool, as values, and the argument lists
that they become.  An entry of a keystore is named by its alias.  The secret stands in
an argument of its own, so that a logged command line can hide it (`redacted`). -/

namespace Keysmith

/-- Make a key pair with a self-signed certificate in a new keystore. -/
structure KeypairRequest where
  subject : DistinguishedName
  san : Option SubjectAltName
  keystore : String
  entry : String
  keyAlgorithm : String
  keySize : Nat
  secret : Secret
  deriving DecidableEq

/-- Print the certificate of an entry; it belongs into the file `dest`. -/
structure ExportRequest where
  keystore : String
  secret : Secret
  entry : String
  dest : String
  deriving DecidableEq

/-- Make a keystore that trusts a certificate. -/
structure ImportRequest where
  certificate : String
  entry : String
  keystore : String
  secret : Secret
  deriving DecidableEq

namespace KeypairRequest

/-- The algorithm of new keys. -/
def defaultAlgorithm : String := "RSA"

/-- The size of new keys, in bits. -/
def defaultSize : Nat := 2048

/-- A request with the default algorithm and size. -/
def ofParts (subject : DistinguishedName) (san : Option SubjectAltName)
    (keystore entry : String) (secret : Secret) : KeypairRequest where
  subject := subject
  san := san
  keystore := keystore
  entry := entry
  keyAlgorithm := defaultAlgorithm
  keySize := defaultSize
  secret := secret

/-- The arguments that ask for the extension, if it is wanted. -/
def sanArguments : Option SubjectAltName → List String
  | none => []
  | some san => ["-ext", san.text]

/-- The argument list of the request. -/
def arguments (r : KeypairRequest) : List String :=
  ["-genkeypair", "-dname", r.subject.text] ++ sanArguments r.san ++
    ["-keystore", r.keystore,
     "-keyalg", r.keyAlgorithm,
     "-keysize", String.ofList (Text.Decimal.digits r.keySize),
     "-storepass", r.secret.expose,
     "-alias", r.entry,
     "-keypass", r.secret.expose]

end KeypairRequest

/-- The argument list of the request. -/
def ExportRequest.arguments (r : ExportRequest) : List String :=
  ["-exportcert", "-rfc",
   "-keystore", r.keystore,
   "-storepass", r.secret.expose,
   "-alias", r.entry]

/-- The argument list of the request. -/
def ImportRequest.arguments (r : ImportRequest) : List String :=
  ["-import", "-noprompt",
   "-file", r.certificate,
   "-alias", r.entry,
   "-keystore", r.keystore,
   "-storepass", r.secret.expose,
   "-keypass", r.secret.expose]

/-- An argument list on one line, with every argument that equals the secret
    masked. -/
def redacted (secret : Secret) (arguments : List String) : String :=
  " ".intercalate (arguments.map fun a => if a = secret.expose then Secret.mask else a)

end Keysmith
