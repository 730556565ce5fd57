/-! # Errors of the operating system

The system's error codes that a run can meet, with their numbers and their texts,
and the other causes an operation on files, processes or the network can fail
for. -/

namespace Keysmith

/-- An error code of the operating system. -/
inductive OsError where
  | notPermitted
  | noEntry
  | noProcess
  | noDevice
  | notExecutable
  | badDescriptor
  | accessDenied
  | busy
  | alreadyExists
  | notDirectory
  | isDirectory
  | invalidArgument
  | noSpace
  | brokenPipe
  | nameTooLong
  | notEmpty
  | tooManyLinks
  | networkUnreachable
  deriving DecidableEq, Repr

namespace OsError

/-- The number of an error code. -/
def number : OsError → Nat
  | notPermitted => 1
  | noEntry => 2
  | noProcess => 3
  | noDevice => 6
  | notExecutable => 8
  | badDescriptor => 9
  | accessDenied => 13
  | busy => 16
  | alreadyExists => 17
  | notDirectory => 20
  | isDirectory => 21
  | invalidArgument => 22
  | noSpace => 28
  | brokenPipe => 32
  | nameTooLong => 36
  | notEmpty => 39
  | tooManyLinks => 40
  | networkUnreachable => 101

/-- What the system says about an error code. -/
def description : OsError → String
  | notPermitted => "Operation not permitted"
  | noEntry => "No such file or directory"
  | noProcess => "No such process"
  | noDevice => "No such device or address"
  | notExecutable => "Exec format error"
  | badDescriptor => "Bad file descriptor"
  | accessDenied => "Permission denied"
  | busy => "Device or resource busy"
  | alreadyExists => "File exists"
  | notDirectory => "Not a directory"
  | isDirectory => "Is a directory"
  | invalidArgument => "Invalid argument"
  | noSpace => "No space left on device"
  | brokenPipe => "Broken pipe"
  | nameTooLong => "File name too long"
  | notEmpty => "Directory not empty"
  | tooManyLinks => "Too many levels of symbolic links"
  | networkUnreachable => "Network is unreachable"

/-- The text of an error code: what the system says, and the number. -/
def message (e : OsError) : String :=
  s!"{e.description} (os error {e.number})"

end OsError

/-- Why an operation on files, processes or the network failed. -/
inductive IoError where
  /-- The system refused. -/
  | os (code : OsError)
  /-- A path holds a NUL character, which no path can. -/
  | nulInPath
  /-- A program's name or an argument holds a NUL character. -/
  | nulInArgument
  /-- A cause given by its text. -/
  | other (text : String)
  deriving DecidableEq, Repr

namespace IoError

/-- The text of a cause. -/
def message : IoError → String
  | os code => code.message
  | nulInPath => "file name contained an unexpected NUL byte"
  | nulInArgument => "nul byte found in provided data"
  | other text => text

end IoError

end Keysmith
