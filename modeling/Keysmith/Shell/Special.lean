/-! # Special commands

Commands of the shell that differ from its other ones: a mistake in one of them ends
the script, assignments in front of one stay, and no function can have its name. -/

namespace Keysmith.Shell

/-- The special commands. -/
def specialCommands : List String :=
  [".", ":", "break", "continue", "eval", "exec", "exit", "export", "local", "readonly",
   "return", "set", "shift", "times", "trap", "unset"]

/-- Whether a name is that of a special command. -/
def isSpecialCommand (name : String) : Bool := specialCommands.contains name

end Keysmith.Shell
