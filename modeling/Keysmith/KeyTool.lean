import Keysmith.Action
import Keysmith.Command
import Keysmith.Version.Report

/-! # Key-management tools

What a run asks of the tool to which it leaves all key material, and the calls that
this amounts to.  `recorded` makes a tool that keeps a list of the calls it got. -/

namespace Keysmith

/-- A key-management tool with a memory of type `τ`. -/
structure KeyTool (τ : Type) where
  /-- Ask for the version of the runtime. -/
  reportVersion : Action τ Failure Version
  /-- Make a key pair in a new keystore. -/
  generateKeypair : KeypairRequest → Action τ Failure Unit
  /-- Write the certificate of an entry to a file. -/
  exportCertificate : ExportRequest → Action τ Failure Unit
  /-- Make a keystore that trusts the certificate in a file. -/
  importCertificate : ImportRequest → Action τ Failure Unit

/-- A call to a tool. -/
inductive ToolCall where
  | reportVersion
  | generateKeypair (request : KeypairRequest)
  | exportCertificate (request : ExportRequest)
  | importCertificate (request : ImportRequest)
  deriving DecidableEq

namespace ToolCall

/-- The step that a call belongs to. -/
def step : ToolCall → ToolStep
  | reportVersion => .versionProbe
  | generateKeypair _ => .keypairGeneration
  | exportCertificate _ => .certificateExport
  | importCertificate _ => .certificateImport

/-- The argument list that a call becomes; the version probe has a program of its own
    and none of these. -/
def arguments : ToolCall → List String
  | reportVersion => []
  | generateKeypair r => r.arguments
  | exportCertificate r => r.arguments
  | importCertificate r => r.arguments

end ToolCall

namespace KeyTool

variable {τ : Type}

/-- Note a call before making it. -/
def recording {α : Type} (call : ToolCall) (x : Action τ Failure α) :
    Action (List ToolCall × τ) Failure α := do
  Action.remember fun m => (m.1 ++ [call], m.2)
  x.beside

/-- The same tool with a list of the calls it got. -/
def recorded (tool : KeyTool τ) : KeyTool (List ToolCall × τ) where
  reportVersion := recording .reportVersion tool.reportVersion
  generateKeypair r := recording (.generateKeypair r) (tool.generateKeypair r)
  exportCertificate r := recording (.exportCertificate r) (tool.exportCertificate r)
  importCertificate r := recording (.importCertificate r) (tool.importCertificate r)

end KeyTool

end Keysmith
