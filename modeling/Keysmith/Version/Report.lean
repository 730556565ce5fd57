import Keysmith.Failure
import Keysmith.Text.Blank
import Keysmith.Text.Lines
import Keysmith.Version

/-! # Version reports

What a runtime prints when it is asked for its version, and how the version is
found in it: on the first line that holds `version "`, in the quoted text, whose
numbers stand at the beginning of its parts.  Two schemes are in use: `1.8.0_292`
counts releases after the `1.`, `17.0.2` counts them from the start.

When no line holds `version "`, the first line is read in its place. -/

namespace Keysmith.Version

open Text

/-- What marks the version line of a report. -/
def marker : List Char := "version \"".toList

/-- The version line of a report, without blanks at its ends: the first line that
    holds the marker, else the first line, else nothing. -/
def versionLine (report : List Char) : List Char :=
  trim (((lines report).find? (mentions marker)).or (lines report).head? |>.getD [])

/-- The text from the first double quote of a line to the second, or to the end if
    there is no second. -/
def quoted? (line : List Char) : Option (List Char) :=
  (pieces (· == '"') line)[1]?

/-- Whether a character stands between the parts of a quoted version. -/
def isSeparator (c : Char) : Bool :=
  c == '.' || c == '_' || c == '-' || c == '+'

/-- The number at the beginning of each part of a quoted version; a part without
    one, or with a number that is too large, gives none. -/
def numbers (quoted : List Char) : List (Option UInt32) :=
  (pieces isSeparator quoted).map fun part =>
    (Decimal.leading maxNumber part).map UInt32.ofNat

/-- The version that a list of numbers stands for.  A leading `1` belongs to the
    older scheme and has to be followed by the major release. -/
def ofNumbers? : List (Option UInt32) → Option Version
  | [] => none
  | none :: _ => none
  | some first :: rest =>
    let second := rest.head?.join
    if first = 1 then
      second.map fun major => ⟨major, (rest[1]?.join).getD 0⟩
    else some ⟨first, second.getD 0⟩

/-- The version on a version line. -/
def ofLine? (line : List Char) : Option Version := do
  ofNumbers? (numbers (← quoted? line))

/-- The version in a report; the failure names the line on which it was sought. -/
def ofReport (report : String) : Except Failure Version :=
  let line := versionLine report.toList
  match ofLine? line with
  | some v => .ok v
  | none => .error (.unrecognizedVersion (String.ofList line))

end Keysmith.Version
