import Keysmith.Failure

/-! # Signals

How scripts name signals, and what a signal does to a program that does not expect
it. -/

namespace Keysmith.Shell.Signal

/-- How many signals there are, the number 0 included. -/
def count : Nat := 65

/-- The names of the first signals.  Number 0 stands for the end of a shell. -/
def names : List String :=
  ["EXIT", "HUP", "INT", "QUIT", "ILL", "TRAP", "ABRT", "BUS", "FPE", "KILL", "USR1", "SEGV",
   "USR2", "PIPE", "ALRM", "TERM", "16", "CHLD", "CONT", "STOP", "TSTP", "TTIN", "TTOU", "URG",
   "XCPU", "XFSZ", "VTALRM", "PROF", "WINCH", "IO", "PWR", "SYS", "32", "33", "RTMIN"]

/-- The number of the first and of the last signal that has no meaning of its own. -/
def realTime : Nat × Nat := (34, 64)

/-- The name of a signal. -/
def name (signal : Nat) : String :=
  match names[signal]? with
  | some n => n
  | none =>
    if signal < 50 then s!"RTMIN+{signal - realTime.1}"
    else if signal < realTime.2 then s!"RTMAX-{realTime.2 - signal}"
    else "RTMAX"

/-- The signal that a word is the number of. -/
def ofNumber? (word : String) : Option Nat :=
  if !word.isEmpty && word.toList.all Char.isDigit then
    let n := Nat.ofDigitChars 10 word.toList 0
    if n < count then some n else none
  else none

/-- The signal from a first one on that a word names, by its number or by its name in
    letters of any case. -/
def ofWord? (first : Nat) (word : String) : Option Nat :=
  match ofNumber? word with
  | some n => some n
  | none => (List.range count).find? fun n => first ≤ n && name n == word.toUpper

/-- What a shell prints about a child that a signal ended, from signal 1 on.  Some are
    not worth a word. -/
def reports : List String :=
  ["Hangup", "", "Quit", "Illegal instruction", "Trace/breakpoint trap", "Aborted", "Bus error",
   "Floating point exception", "Killed", "User defined signal 1", "Segmentation fault",
   "User defined signal 2", "", "Alarm clock", "Terminated", "Stack fault", "", "", "", "", "",
   "", "", "CPU time limit exceeded", "File size limit exceeded", "Virtual timer expired",
   "Profiling timer expired", "", "I/O possible", "Power failure", "Bad system call"]

/-- What a shell prints about a child that a signal ended. -/
def report (signal : Nat) : String :=
  if signal = 0 then ""
  else if realTime.1 ≤ signal then s!"Real-time signal {signal - realTime.1}"
  else (reports[signal - 1]?).getD ""

/-- The signal that the writer of a pipe gets whose reader is gone. -/
def pipe : Nat := 13

/-- The signal of a program that used memory it does not have. -/
def segmentation : Nat := 11

/-- The signal of a process one of whose children has ended. -/
def childEnd : Nat := 17

/-- Signals that programs in the background do not get. -/
def interactive : List Nat := [2, 3]

/-- Whether a program that does not expect a signal goes on. -/
def isHarmless (signal : Nat) : Bool := [0, 17, 18, 23, 28].contains signal

/-- Whether a program cannot expect a signal. -/
def isFinal (signal : Nat) : Bool := signal == 9 || signal == 19

end Keysmith.Shell.Signal
