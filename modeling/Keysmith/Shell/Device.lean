import Keysmith.Shell.State

/-! # Devices

The paths that lead to no file of the disk: devices, and the open files of the process
itself. -/

namespace Keysmith.Shell.Device

/-- What a path of a device stands for. -/
inductive Kind where
  | null
  | zero
  | full
  /-- The terminal, of which there is none. -/
  | terminal
  /-- The open file that a descriptor leads to. -/
  | descriptor (n : Nat)
  deriving DecidableEq, Repr

/-- The number that a name of digits stands for. -/
def number? (name : String) : Option Nat :=
  if !name.isEmpty && name.toList.all Char.isDigit then
    some (Nat.ofDigitChars 10 name.toList 0)
  else none

/-- The device that a path leads to. -/
def ofPath? (path : String) : Option Kind :=
  match path with
  | "/dev/null" => some .null
  | "/dev/zero" => some .zero
  | "/dev/full" => some .full
  | "/dev/tty" => some .terminal
  | "/dev/stdin" => some (.descriptor 0)
  | "/dev/stdout" => some (.descriptor 1)
  | "/dev/stderr" => some (.descriptor 2)
  | _ =>
    let below (front : String) : Option Nat :=
      if front.isPrefixOf path then number? (path.drop front.length).toString else none
    ((below "/dev/fd/").orElse fun _ => below "/proc/self/fd/").map .descriptor

/-- Whether a path leads to a device for characters. -/
def isCharacterDevice (path : String) : Bool :=
  match ofPath? path with
  | some (.descriptor _) => false
  | some _ => true
  | none => false

/-- What the open file that a path leads to leads to itself. -/
def target? (s : State) (path : String) : Option Target :=
  match ofPath? path with
  | some (.descriptor n) =>
    (s.handle? n).bind fun id => (s.system.files[id]?).map OpenFile.target
  | _ => none

end Keysmith.Shell.Device
