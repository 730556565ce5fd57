import Keysmith.FileSystem.Path

/-! # The files of a run -/

namespace Keysmith

/-- The files that a run makes, in the order in which it makes them. -/
structure Artifacts where
  serverKeystore : String
  certificate : String
  clientKeystore : String
  deriving DecidableEq, Repr

/-- The files of a run with the given output directory. -/
def Artifacts.inDir (dir : String) : Artifacts where
  serverKeystore := Path.join dir "server.jks"
  certificate := Path.join dir "client.pem"
  clientKeystore := Path.join dir "client.jks"

end Keysmith
