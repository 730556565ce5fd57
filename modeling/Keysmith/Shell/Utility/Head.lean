import Keysmith.Shell.Redirection
import Keysmith.Shell.Utility.Basic
import Keysmith.Shell.Utility.Quoted

/-! # The beginnings of files

`head` prints the first lines or bytes of files, or all but the last ones.  It reads in
blocks; where it can, it goes back to the end of what it has printed. -/

namespace Keysmith.Shell.Utility

namespace Head

/-- How much is printed: so much, or all but so much. -/
structure Extent where
  inLines : Bool
  fromEnd : Bool
  count : Nat

/-- When titles are printed. -/
inductive Titles where
  | ofSeveral
  | never
  | always
  deriving DecidableEq

/-- What is to be done. -/
structure Request where
  extent : Extent
  titles : Titles
  /-- The byte that ends a line. -/
  lineEnd : UInt8

/-- Ten lines. -/
def Request.standard : Request := ⟨⟨true, false, 10⟩, .ofSeveral, 10⟩

/-! ## Numbers -/

/-- The power of the unit of a letter. -/
def power? : Char → Option Nat
  | 'k' | 'K' => some 1
  | 'm' | 'M' => some 2
  | 'G' => some 3
  | 'T' => some 4
  | 'P' => some 5
  | 'E' => some 6
  | 'Z' => some 7
  | 'Y' => some 8
  | 'R' => some 9
  | 'Q' => some 10
  | _ => none

/-- A number to the given power. -/
def toThe (base : Nat) : Nat → Nat
  | 0 => 1
  | n + 1 => base * toThe base n

/-- What a unit is worth, and how many characters it has. -/
def unit? (text : List Char) : Option (Nat × Nat) :=
  match text with
  | [] => some (1, 0)
  | 'b' :: _ => some (512, 1)
  | c :: rest => (power? c).map fun n =>
    match rest with
    | 'i' :: 'B' :: _ => (toThe 1024 n, 3)
    | 'B' :: _ => (toThe 1000 n, 2)
    | 'D' :: _ => (toThe 1000 n, 2)
    | _ => (toThe 1024 n, 1)

/-- The largest number. -/
def most : Nat := 18446744073709551615

/-- Read a number with a unit. -/
def number (inLines : Bool) (word : List Char) : Except Refusal Nat :=
  let invalid (reason : String) : Except Refusal Nat :=
    let what := if inLines then "lines" else "bytes"
    let shown := Quoted.plain (String.ofList word)
    .error (.plain s!"invalid number of {what}: {shown}{reason}")
  let isNegative := (word.dropWhile Numeral.isBlank).head? == some '-'
  let (_, text) := Numeral.sign word
  let (n, rest) := Numeral.digits 10 text
  let hasDigits := (text.takeWhile Char.isDigit).length != 0
  let rest := if hasDigits then rest else word
  let n := if hasDigits then n else 1
  if isNegative || (!hasDigits && rest.isEmpty) then invalid ""
  else match unit? rest with
    | none => invalid ""
    | some (worth, length) =>
      if length != rest.length then invalid ""
      else if most < n * worth then
        invalid ": Value too large for defined data type"
      else .ok (n * worth)

/-- Read the argument of an option for an extent. -/
def extent (inLines : Bool) (word : String) : Except Refusal Extent := do
  match word.toList with
  | '-' :: digits => return ⟨inLines, true, ← number inLines digits⟩
  | digits => return ⟨inLines, false, ← number inLines digits⟩

/-! ## Options -/

/-- The options. -/
def known : Known where
  letters := [('c', .argument), ('n', .argument), ('q', .nothing), ('v', .nothing),
    ('z', .nothing)] ++ "0123456789".toList.map (·, .nothing)
  words := [⟨"bytes", .argument, "c"⟩, ⟨"lines", .argument, "n"⟩,
    ⟨"-presume-input-pipe", .nothing, "pipe"⟩, ⟨"quiet", .nothing, "q"⟩,
    ⟨"silent", .nothing, "q"⟩, ⟨"verbose", .nothing, "v"⟩,
    ⟨"zero-terminated", .nothing, "z"⟩] ++ common

/-- Take an option. -/
def take (r : Request) (g : Given) : Except Refusal Request := do
  match g.meaning with
  | "c" => return { r with extent := ← extent false (g.argument.getD "") }
  | "n" => return { r with extent := ← extent true (g.argument.getD "") }
  | "q" => return { r with titles := .never }
  | "v" => return { r with titles := .always }
  | "z" => return { r with lineEnd := 0 }
  | m =>
    if m.toList.all Char.isDigit then .error (.misuse s!"invalid trailing option -- {m}")
    else return r

/-- Take the letters behind a number that stands in place of an option: the request, and the
    unit of the number. -/
def takeLetters (r : Request) (unit : Option Char) :
    List Char → Except Refusal (Request × Option Char)
  | [] => .ok (r, unit)
  | c :: rest =>
    let counting (inLines : Bool) : Request := { r with extent := { r.extent with inLines } }
    match c with
    | 'c' => takeLetters (counting false) none rest
    | 'b' | 'k' | 'm' => takeLetters (counting false) (some c) rest
    | 'l' => takeLetters (counting true) unit rest
    | 'q' => takeLetters { r with titles := .never } unit rest
    | 'v' => takeLetters { r with titles := .always } unit rest
    | 'z' => takeLetters { r with lineEnd := 0 } unit rest
    | c => .error (.misuse s!"invalid trailing option -- {c}")

/-- Take a number that stands in place of the first option, if there is one. -/
def takeNumber (arguments : List String) : Except Refusal (Request × List String) :=
  match arguments with
  | [] => .ok (.standard, [])
  | word :: rest =>
    match word.toList with
    | '-' :: c :: text =>
      if !c.isDigit then .ok (.standard, arguments)
      else do
        let digits := (c :: text).takeWhile Char.isDigit
        let (r, unit) ← takeLetters .standard none ((c :: text).dropWhile Char.isDigit)
        let count ← number r.extent.inLines (digits ++ unit.toList)
        return ({ r with extent := { r.extent with count } }, rest)
    | _ => .ok (.standard, arguments)

/-! ## Printing -/

/-- How much is read at once. -/
def blockSize : Nat := 8192

/-- Read from an open file. -/
def readBlock (id count : Nat) : ShellM (Except OsError Bytes) := do
  let s ← get
  match s.system.read id count with
  | .ok (bs, system) =>
    set { s with system := system }
    return .ok bs
  | .error e => return .error e

/-- Go back in an open file. -/
def stepBack (id count : Nat) : ShellM Unit :=
  modify fun s => { s with system := s.system.stepBack id count }

/-- Print bytes. -/
def printBytes (bs : Bytes) : ShellM Unit := ShellM.print (Text.Octets.ofBytes bs)

/-- Print so many bytes. -/
def printSome (id count : Nat) : ShellM (Option OsError) :=
  ShellM.repeating (fun left => do
    if left = 0 then return .inr none
    match ← readBlock id (min left blockSize) with
    | .error e => return .inr (some e)
    | .ok [] => return .inr none
    | .ok bs =>
      printBytes bs
      return .inl (left - bs.length))
    (fun _ => none) ShellM.maxRounds count

/-- Split bytes behind so many line ends: what is in front, what is behind, and how many line
    ends are missing. -/
def splitLines (lineEnd : UInt8) (count : Nat) (front : Bytes) : Bytes → Bytes × Bytes × Nat
  | [] => (front.reverse, [], count)
  | b :: rest =>
    match count with
    | 0 => (front.reverse, b :: rest, 0)
    | left + 1 => splitLines lineEnd (if b == lineEnd then left else count) (b :: front) rest

/-- Print so many lines. -/
def printLines (lineEnd : UInt8) (id count : Nat) : ShellM (Option OsError) :=
  ShellM.repeating (fun left => do
    if left = 0 then return .inr none
    match ← readBlock id blockSize with
    | .error e => return .inr (some e)
    | .ok [] => return .inr none
    | .ok bs =>
      let (front, behind, left) := splitLines lineEnd left [] bs
      stepBack id behind.length
      printBytes front
      return .inl left)
    (fun _ => none) ShellM.maxRounds count

/-- How many bytes the last lines have, given all bytes last first.  A line without an end
    is one, too. -/
def lengthOfLines (lineEnd : UInt8) (count length : Nat) : Bytes → Nat
  | [] => length
  | b :: rest =>
    if b == lineEnd && length != 0 then
      match count with
      | 0 => length
      | 1 => length
      | left + 2 => lengthOfLines lineEnd (left + 1) (length + 1) rest
    else if count = 0 then 0
    else lengthOfLines lineEnd count (length + 1) rest

/-- Print all but the end. -/
def printAllBut (r : Request) (id : Nat) : ShellM (Option OsError) := do
  let read ← ShellM.repeating (fun (blocks : List Bytes) => do
    match ← readBlock id blockSize with
    | .error e => return .inr (Except.error e)
    | .ok [] => return .inr (Except.ok blocks.reverse.flatten)
    | .ok bs => return .inl (bs :: blocks))
    (fun blocks => .ok blocks.reverse.flatten) ShellM.maxRounds []
  match read with
  | .error e => return some e
  | .ok bs =>
    let left := min bs.length
      (if r.extent.inLines then lengthOfLines r.lineEnd r.extent.count 0 bs.reverse
        else r.extent.count)
    stepBack id left
    printBytes (bs.take (bs.length - left))
    return none

/-- Print the beginning of an open file, after the title if there is one. -/
def printFile (r : Request) (name title : String) (id : Nat) : ShellM Bool := do
  let e := r.extent
  let failure ←
    if e.fromEnd then printAllBut r id
    else if e.inLines then printLines r.lineEnd id e.count
    else printSome id e.count
  match failure with
  | none => return true
  | some error =>
    complain name s!"error reading {Quoted.always title}: {error.description}"
    return false

/-- Print the beginnings of files, given whether titles are printed and whether one has been
    printed. -/
def printFiles (r : Request) (name : String) (titled printed : Bool) :
    List String → ShellM Bool
  | [] => return true
  | path :: rest => do
    let s ← get
    let title := if path == "-" then "standard input" else path
    let opened : Except OsError (Option Nat × State) :=
      if path == "-" then .ok (s.handle? 0, s)
      else (Redirection.openPath .input path s).map fun (id, s) => (some id, s)
    match opened with
    | .error e =>
      complain name s!"cannot open {Quoted.always path} for reading: {e.description}"
      let _ ← printFiles r name titled printed rest
      return false
    | .ok (id, s) =>
      set s
      if titled then ShellM.print ((if printed then "\n" else "") ++ s!"==> {title} <==\n")
      /- Without an open file nothing can be read; no open file has the number behind the
         last one. -/
      let ok ← printFile r name title (id.getD s.system.files.size)
      let others ← printFiles r name titled (printed || titled) rest
      return ok && others

/-- Print the beginnings of files, or of the standard input. -/
def run (r : Request) (operands : List String) : Utility := fun name _ => do
  let files := if operands.isEmpty then ["-"] else operands
  let titled := r.titles == .always || (r.titles == .ofSeveral && 1 < files.length)
  let ok ← printFiles r name titled false files
  let isClosed := files.contains "-" && ((← get).handle? 0).isNone
  if isClosed then complain name s!"-: {OsError.badDescriptor.description}"
  finish name (if ok && !isClosed then 0 else 1)

end Head

/-- Print the beginnings of files. -/
def head : Utility := fun name arguments => do
  match Head.takeNumber arguments with
  | .error r => refuse name r
  | .ok (r, arguments) => withOptions Head.known false r Head.take Head.run name arguments

end Keysmith.Shell.Utility
