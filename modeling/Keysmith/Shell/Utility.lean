import Keysmith.Shell.Utility.ChangeMode
import Keysmith.Shell.Utility.Head
import Keysmith.Shell.Utility.Links
import Keysmith.Shell.Utility.MakeDirectory
import Keysmith.Shell.Utility.Remove
import Keysmith.Shell.Utility.Translate

/-! # The utilities by their names -/

namespace Keysmith.Shell.Utility

/-- The utilities. -/
def table : List (String × Utility) :=
  [("chmod", chmod), ("false", fun _ _ => return 1), ("head", head), ("mkdir", mkdir),
   ("readlink", readlink), ("rm", rm), ("tr", tr), ("true", fun _ _ => return 0)]

/-- The utility of a name. -/
def named? (name : String) : Option Utility := table.lookup name

end Keysmith.Shell.Utility
