import Keysmith.CommandLine.Run
import Keysmith.Shell.Launch

/-! # The program on the command line

Hands the arguments to `CommandLine.run`, prints what it leaves and exits with its
status.  The run happens on a disk in memory that holds nothing but the system's
utilities, in a directory of its own, and no network is reached. -/

namespace Keysmith

/-- The place of the directory in which the program runs. -/
def workingPlace : Place := ["work"]

/-- The disk on which the program runs. -/
def initialDisk : Disk :=
  ⟨.dir (("work", .dir []) :: Shell.Program.systemFiles), Spot.ofPlace workingPlace⟩

/-- The end of the program for a command line. -/
def ended (line : List String) : CommandLine.Ended :=
  (CommandLine.run (Shell.launcher ["/usr/bin", "/bin"])
    (AddressSource.probe Network.isolated AddressSource.defaultTarget) line initialDisk ()).1

end Keysmith

/-- Run the program. -/
def main (line : List String) : IO UInt32 := do
  let ended := Keysmith.ended line
  (← IO.getStdout).putStr ended.stdout
  (← IO.getStderr).putStr ended.stderr
  return UInt32.ofNat ended.exit
