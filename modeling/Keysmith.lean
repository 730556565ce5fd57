import Keysmith.Command.Invocation
import Keysmith.Main
import Keysmith.Proofs.AbsoluteSpelling
import Keysmith.Proofs.ArgumentReading
import Keysmith.Proofs.ArtifactDirectory
import Keysmith.Proofs.ChildProcesses
import Keysmith.Proofs.Diagnostics
import Keysmith.Proofs.DistinguishedName
import Keysmith.Proofs.FreshStart
import Keysmith.Proofs.HostnameGrammar
import Keysmith.Proofs.LossyText
import Keysmith.Proofs.OptionOrder
import Keysmith.Proofs.OutputDirEmpty
import Keysmith.Proofs.PathLoss
import Keysmith.Proofs.PrintedWarnings
import Keysmith.Proofs.ProgramChanges
import Keysmith.Proofs.ProgramEnd
import Keysmith.Proofs.ResetSuccess
import Keysmith.Proofs.SecretHiding
import Keysmith.Proofs.ServerNaming
import Keysmith.Proofs.VersionMarker
import Keysmith.Proofs.WriteOutcome
import Keysmith.Session
import Keysmith.Shell.Launch
