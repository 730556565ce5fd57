import Keysmith.Shell.Builtin.Directory
import Keysmith.Shell.Builtin.Flow
import Keysmith.Shell.Builtin.Names
import Keysmith.Shell.Builtin.Output
import Keysmith.Shell.Builtin.Signals
import Keysmith.Shell.Builtin.Variables

/-! # The commands of the shell by their names

All of them but those that run other commands. -/

namespace Keysmith.Shell.Builtin

/-- The commands. -/
def table : List (String × Builtin) :=
  [(":", succeed), ("[", bracket), ("alias", defineAlias), ("bg", resume),
   ("break", leaveLoops .broken), ("cd", cd), ("chdir", cd), ("continue", leaveLoops .continued),
   ("echo", echo), ("exit", exit), ("export", markExported), ("false", failing), ("fg", resume),
   ("getopts", getopts), ("hash", hash), ("jobs", jobs), ("kill", kill), ("local", makeLocal),
   ("printf", printf), ("pwd", pwd), ("read", read), ("readonly", markReadOnly),
   ("return", leaveFunction), ("set", setAll), ("shift", shift), ("test", test),
   ("times", times), ("trap", trap), ("true", succeed), ("type", type), ("ulimit", ulimit),
   ("umask", umask), ("unalias", removeAlias), ("unset", unset)]

/-- The command of a name, if it runs no others. -/
def named? (name : String) : Option Builtin := table.lookup name

/-- The commands whose arguments can be assignments. -/
def assigning : List String := ["alias", "export", "local", "readonly"]

end Keysmith.Shell.Builtin
