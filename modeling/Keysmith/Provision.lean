import Keysmith.AddressSource
import Keysmith.Artifacts
import Keysmith.KeyTool
import Keysmith.OutputDir
import Keysmith.SanPolicy

/-! # A run

A run empties the output directory and fills it: a keystore for the server, the
certificate in it, and a keystore for the client that trusts the certificate.  It
stops at the first failure and leaves what is there by then.

Before the first key is made, the policy decides whether the certificate names the
host and the machine's address.  If it does not because the runtime is too old, the
run goes on with a warning. -/

namespace Keysmith

/-- What a run is told. -/
structure Config where
  outDir : String
  san : SanPolicy
  /-- The command by which the guidance starts the server. -/
  serverCommand : String
  /-- The command by which the guidance starts the client. -/
  clientCommand : String
  deriving DecidableEq, Repr

/-- What a run is told unless it is told otherwise. -/
def Config.standard : Config where
  outDir := "keys"
  san := .auto
  serverCommand := "java ChainMain"
  clientCommand := "java WalletCLI"

/-- What a run has made. -/
structure Provisioned where
  artifacts : Artifacts
  san : Option SubjectAltName
  warnings : List String
  serverCommand : String
  clientCommand : String
  deriving DecidableEq, Repr

/-- What the operator can do next. -/
def Provisioned.guidance (p : Provisioned) : String :=
  "-----\n\n" ++
  "All done. You can now run the server with something like\n" ++
  s!"KEYSTORE_PASSWORD=your-password {p.serverCommand} -keystore path/to/server.jks\n" ++
  "and the client with\n" ++
  s!"KEYSTORE_PASSWORD=your-password {p.clientCommand}" ++
  " -hostname HOST -keystore path/to/client.jks\n\n" ++
  "Generated files:\n" ++
  s!"  {p.artifacts.serverKeystore}\n" ++
  s!"  {p.artifacts.certificate}\n" ++
  s!"  {p.artifacts.clientKeystore}\n\n" ++
  "If you need to interact with the server using curl, you can\n" ++
  s!"use curl --cacert {p.artifacts.certificate} -X METHOD https://HOST:PORT\n"

namespace Provision

/-- The alias of the server's entry in both keystores. -/
def entryAlias : String := "server"

/-- The warning that the runtime is too old for the extension. -/
def downgradeWarning (v : Version) : String :=
  s!"Java {v.text} does not support certificate extensions; " ++
  "the server certificate will not name this machine's IP address, " ++
  "so only localhost connections will validate. Install Java 8 or newer to fix this."

variable {τ : Type}

/-- Ask for the runtime's version, if the policy needs it. -/
def detect (tool : KeyTool τ) (policy : SanPolicy) :
    Action τ Failure (Option Version) :=
  if policy.needsProbe then do
    let version ← tool.reportVersion
    Action.log .info s!"Detected Java {version.text}"
    return some version
  else return none

/-- Name the host and the machine's address, if the policy wants it. -/
def nameServer (source : AddressSource τ) (policy : SanPolicy) (version : Option Version)
    (host : String) : Action τ Failure (Option SubjectAltName) :=
  if policy.wantsSan version then do
    let ip ← source.mapError .addressDiscovery
    some <$> Action.ofExcept (SubjectAltName.ofHost host ip)
  else return none

/-- The warnings of a run: one if the runtime was asked and is too old. -/
def warningsFor (policy : SanPolicy) (version : Option Version) : List String :=
  if policy.wantsSan version then [] else (version.map downgradeWarning).toList

/-- Empty the output directory. -/
def prepare (config : Config) : Action τ Failure Unit :=
  Action.onDisk (OutputDir.reset config.outDir)

/-- Make the server's keystore. -/
def makeServerKeystore (tool : KeyTool τ) (files : Artifacts) (san : Option SubjectAltName)
    (secret : Secret) (host : String) : Action τ Failure Unit := do
  Action.log .info s!"Generating server key-pairs into {files.serverKeystore}"
  tool.generateKeypair
    (.ofParts (.ofHost host) san files.serverKeystore entryAlias secret)

/-- Write the server's certificate to a file. -/
def makeCertificate (tool : KeyTool τ) (files : Artifacts) (secret : Secret) :
    Action τ Failure Unit := do
  Action.log .info s!"Generating client certificate into {files.certificate}"
  tool.exportCertificate ⟨files.serverKeystore, secret, entryAlias, files.certificate⟩

/-- Make the client's keystore. -/
def makeClientKeystore (tool : KeyTool τ) (files : Artifacts) (secret : Secret) :
    Action τ Failure Unit := do
  Action.log .info
    s!"Generating client keystore into {files.clientKeystore} from certificate"
  tool.importCertificate ⟨files.certificate, entryAlias, files.clientKeystore, secret⟩

/-- A whole run. -/
def run (tool : KeyTool τ) (source : AddressSource τ) (config : Config) (secret : Secret)
    (host : String) : Action τ Failure Provisioned := do
  let files := Artifacts.inDir config.outDir
  prepare config
  let version ← detect tool config.san
  let san ← nameServer source config.san version host
  let warnings := warningsFor config.san version
  warnings.forM (Action.log .warn)
  makeServerKeystore tool files san secret host
  makeCertificate tool files secret
  makeClientKeystore tool files secret
  return ⟨files, san, warnings, config.serverCommand, config.clientCommand⟩

end Provision

end Keysmith
