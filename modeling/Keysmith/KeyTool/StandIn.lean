import Keysmith.FileSystem.Entries
import Keysmith.KeyTool

/-! # A stand-in for the tool

A tool that makes no keys.  It writes to each file one line that says what should be
there, it reports the version it was given, and it fails at one step if it was told
to. -/

namespace Keysmith

/-- What a stand-in answers when it is asked for the runtime's version. -/
inductive StandInVersion where
  | known (version : Version)
  | report (text : String)
  deriving DecidableEq, Repr

/-- A stand-in for the tool. -/
structure StandIn where
  version : StandInVersion
  /-- The step at which it fails, and how. -/
  failure : Option (ToolStep × Failure)

namespace StandIn

/-- Write a text to a file. -/
def writeText (path text : String) : Action Unit Failure Unit :=
  (Action.onDisk? fun d => d.write path (Text.Utf8.encode text.toList)).mapError
    (.writeArtifact path)

theorem writeText_of_ok {d d' : Disk} {path text : String}
    (h : d.write path (Text.Utf8.encode text.toList) = .ok d') (m : Unit) :
    writeText path text d m = ⟨.ok (), d', m, []⟩ := by
  simp only [writeText, Action.mapError, Action.onDisk?, h]
  rfl

theorem writeText_of_error {d : Disk} {path text : String} {e : IoError}
    (h : d.write path (Text.Utf8.encode text.toList) = .error e) (m : Unit) :
    writeText path text d m = ⟨.error (.writeArtifact path e), d, m, []⟩ := by
  simp only [writeText, Action.mapError, Action.onDisk?, h]
  rfl

/-- Fail if this is the step for it, else go on. -/
def guarded {α : Type} (s : StandIn) (step : ToolStep) (x : Action Unit Failure α) :
    Action Unit Failure α :=
  match s.failure with
  | some (failing, e) => if failing = step then Action.fail e else x
  | none => x

/-- A step fails at once, or is what it would be without failures. -/
theorem guarded_cases {α : Type} {P : Action Unit Failure α → Prop} (s : StandIn)
    (step : ToolStep) {x : Action Unit Failure α} (hfail : ∀ e, P (Action.fail e)) (hx : P x) :
    P (s.guarded step x) := by
  rw [guarded]
  split
  · split
    · exact hfail _
    · exact hx
  · exact hx

/-- The stand-in as a tool. -/
def tool (s : StandIn) : KeyTool Unit where
  reportVersion := s.guarded .versionProbe <| match s.version with
    | .known v => Action.pure v
    | .report text => Action.ofExcept (Version.ofReport text)
  generateKeypair r := s.guarded .keypairGeneration <|
    writeText r.keystore s!"KEYSTORE {r.subject.text}\n"
  exportCertificate r := s.guarded .certificateExport <|
    writeText r.dest s!"CERT {r.entry}\n"
  importCertificate r := s.guarded .certificateImport <|
    writeText r.keystore s!"TRUST {r.entry}\n"

end StandIn

end Keysmith
