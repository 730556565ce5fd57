import Keysmith.Command

/-! # Reading the tool's argument lists

An argument list of the key-management tool is a command word followed by options:
a switch stands alone, every other flag takes the argument after it as its value,
whatever that argument looks like.  `read?` takes a list apart by that rule. -/

namespace Keysmith

/-- An argument list taken apart. -/
structure Invocation where
  command : String
  switches : List String
  /-- The flags with their values, in order. -/
  options : List (String × String)
  deriving DecidableEq, Repr

namespace Invocation

/-- The flags that take no value. -/
def isSwitch (flag : String) : Bool :=
  flag == "-rfc" || flag == "-noprompt"

/-- Read the options that follow a command word.  None if a flag lacks its value. -/
def readOptions? : List String → Option (List String × List (String × String))
  | [] => some ([], [])
  | [flag] => if isSwitch flag then some ([flag], []) else none
  | flag :: value :: rest =>
    if isSwitch flag then
      (readOptions? (value :: rest)).map fun r => (flag :: r.1, r.2)
    else
      (readOptions? rest).map fun r => (r.1, (flag, value) :: r.2)

/-- Read an argument list. -/
def read? : List String → Option Invocation
  | [] => none
  | command :: rest => (readOptions? rest).map fun r => ⟨command, r.1, r.2⟩

/-- The value of a flag. -/
def value? (i : Invocation) (flag : String) : Option String :=
  i.options.lookup flag

end Invocation

end Keysmith
