import Keysmith.FileSystem.Clear
import Keysmith.Text.Octets

/-! # Open files and processes

What the processes of a run share: the disk, the open files with their positions, the
pipes, and the signals that have not arrived yet.

Programs run one after another.  A pipe therefore keeps all that its writer writes
until its reader runs; the writer of a pipe with a limit is stopped there, as if the
reader were gone, and the pipe notes if its reader would have read more. -/

namespace Keysmith.Shell

/-- A pipe: bytes that have been written and not been read. -/
structure Pipe where
  /-- The next bytes. -/
  front : Bytes
  /-- The bytes behind them in pieces, last first. -/
  back : List Bytes
  /-- How many bytes have been written. -/
  written : Nat
  /-- How many bytes may be written. -/
  limit : Option Nat
  /-- Whether more was written. -/
  overflowed : Bool
  /-- Whether more was to be read after that. -/
  starved : Bool

namespace Pipe

/-- An empty pipe. -/
def empty (limit : Option Nat) : Pipe := ⟨[], [], 0, limit, false, false⟩

/-- All bytes of a pipe. -/
def bytes (p : Pipe) : Bytes := p.front ++ p.back.reverse.flatten

/-- The same pipe with all bytes at its front. -/
def gathered (p : Pipe) : Pipe := { p with front := p.bytes, back := [] }

/-- Write bytes as far as the limit allows. -/
def write (p : Pipe) (bs : Bytes) : Pipe :=
  let total := p.written + bs.length
  match p.limit with
  | some most =>
    if most < total then
      { p with
        back := bs.take (most - p.written) :: p.back
        written := most
        overflowed := true }
    else { p with back := bs :: p.back, written := total }
  | none => { p with back := bs :: p.back, written := total }

/-- Read at most so many bytes. -/
def read (p : Pipe) (count : Nat) : Bytes × Pipe :=
  let p := if p.front.isEmpty then p.gathered else p
  let (taken, rest) := p.front.splitAt count
  (taken, { p with
    front := rest
    starved := p.starved || (taken.isEmpty && p.overflowed) })

/-- Read up to a byte of a value. -/
def readUpTo (p : Pipe) (stop : UInt8) : Bytes × Pipe :=
  let p := if p.front.contains stop then p else p.gathered
  let (taken, rest) := (p.front.takeWhile (· != stop), p.front.dropWhile (· != stop))
  (taken ++ rest.take 1, { p with
    front := rest.drop 1
    starved := p.starved || (rest.isEmpty && p.overflowed) })

end Pipe

/-- What an open file leads to. -/
inductive Target where
  /-- The pipe of a number. -/
  | pipe (number : Nat)
  | file (place : Place)
  /-- A file that has been removed. -/
  | removed (content : Bytes)
  | directory
  /-- The device that holds nothing and takes everything. -/
  | null
  /-- The device that holds zeros without end. -/
  | zero
  /-- The device that takes nothing. -/
  | full
  deriving DecidableEq

/-- An open file. -/
structure OpenFile where
  target : Target
  /-- How many bytes are in front of the next one that is read or written. -/
  position : Nat
  reads : Bool
  writes : Bool
  /-- Whether all is written at the end. -/
  appends : Bool

/-- What the processes of a run share. -/
structure System where
  disk : Disk
  /-- The working directories of the processes that are not running now, by the numbers of
      the processes. -/
  homes : List (Nat × Spot)
  files : Array OpenFile
  pipes : Array Pipe
  /-- The number of the next process. -/
  nextProcess : Nat
  /-- The processes that have not ended. -/
  processes : List Nat
  /-- The signals that were sent to processes and have not arrived. -/
  sent : List (Nat × Nat)

namespace System

/-- Add an open file: its number. -/
def addFile (s : System) (f : OpenFile) : Nat × System :=
  (s.files.size, { s with files := s.files.push f })

/-- Make a pipe: the numbers of the open files to read from and to write to, and that of
    the pipe. -/
def makePipe (s : System) (limit : Option Nat) : (Nat × Nat × Nat) × System :=
  let number := s.pipes.size
  let n := s.files.size
  ((n, n + 1, number), { s with
    pipes := s.pipes.push (.empty limit)
    files := (s.files.push ⟨.pipe number, 0, true, false, false⟩).push
      ⟨.pipe number, 0, false, true, false⟩ })

/-- Change a pipe. -/
def withPipe (s : System) (number : Nat) (p : Pipe) : System :=
  { s with pipes := s.pipes.setIfInBounds number p }

/-- Change an open file. -/
def withFile (s : System) (id : Nat) (f : OpenFile) : System :=
  { s with files := s.files.setIfInBounds id f }

/-- What a pipe holds. -/
def pipeBytes (s : System) (number : Nat) : Bytes := ((s.pipes[number]?).map Pipe.bytes).getD []

/-- The content of a file that is open. -/
def content (s : System) : Target → Bytes
  | .file place =>
    match s.disk.root.at? place with
    | some (.file content _) => content
    | _ => []
  | .removed content => content
  | _ => []

/-- Read from an open file: at most so many bytes, or up to a byte of a value. -/
def readBy (s : System) (id : Nat) (fromPipe : Pipe → Bytes × Pipe) (fromBytes : Bytes → Bytes)
    (zeros : Nat) : Except OsError (Bytes × System) :=
  match s.files[id]? with
  | none => .error .badDescriptor
  | some f =>
    if !f.reads then .error .badDescriptor
    else match f.target with
      | .pipe number =>
        match s.pipes[number]? with
        | none => .ok ([], s)
        | some p =>
          let (bs, p) := fromPipe p
          .ok (bs, s.withPipe number p)
      | .directory => .error .isDirectory
      | .null => .ok ([], s)
      | .zero => .ok (List.replicate zeros 0, s)
      | .full => .ok (List.replicate zeros 0, s)
      | target =>
        let bs := fromBytes ((s.content target).drop f.position)
        .ok (bs, s.withFile id { f with position := f.position + bs.length })

/-- Read at most so many bytes from an open file. -/
def read (s : System) (id count : Nat) : Except OsError (Bytes × System) :=
  s.readBy id (·.read count) (·.take count) count

/-- Read from an open file up to a byte of a value, with that byte. -/
def readUpTo (s : System) (id : Nat) (stop : UInt8) : Except OsError (Bytes × System) :=
  let through (bs : Bytes) : Bytes :=
    bs.takeWhile (· != stop) ++ (bs.dropWhile (· != stop)).take 1
  s.readBy id (·.readUpTo stop) through 0

/-- Go back in an open file, if that is possible there. -/
def stepBack (s : System) (id count : Nat) : System :=
  match s.files[id]? with
  | some f =>
    match f.target with
    | .file _ => s.withFile id { f with position := f.position - count }
    | .removed _ => s.withFile id { f with position := f.position - count }
    | _ => s
  | none => s

/-- Whether going back is possible in an open file. -/
def canStepBack (s : System) (id : Nat) : Bool :=
  match (s.files[id]?).map OpenFile.target with
  | some (.file _) => true
  | some (.removed _) => true
  | _ => false

/-- Some bytes with others put over them from a position on. -/
def overwritten (position : Nat) (bs old : Bytes) : Bytes :=
  let gap := List.replicate (position - old.length) 0
  old.take position ++ gap ++ bs ++ old.drop (position + bs.length)

/-- Write bytes to an open file. -/
def write (s : System) (id : Nat) (bs : Bytes) : Except OsError System :=
  match s.files[id]? with
  | none => .error .badDescriptor
  | some f =>
    if !f.writes then .error .badDescriptor
    else match f.target with
      | .pipe number => .ok (match s.pipes[number]? with
        | none => s
        | some p => s.withPipe number (p.write bs))
      | .full => if bs.isEmpty then .ok s else .error .noSpace
      | .file place =>
        let position := if f.appends then (s.content f.target).length else f.position
        .ok (({ s with disk := s.disk.setContent place (overwritten position bs) }).withFile id
          { f with position := position + bs.length })
      | .removed content =>
        let position := if f.appends then content.length else f.position
        .ok (s.withFile id { f with
          target := .removed (overwritten position bs content)
          position := position + bs.length })
      | _ => .ok s

/-- Whether more was written to an open file than it takes. -/
def isOverflowed (s : System) (id : Nat) : Bool :=
  match (s.files[id]?).map OpenFile.target with
  | some (.pipe number) => ((s.pipes[number]?).map Pipe.overflowed).getD false
  | _ => false

/-- Take out what is at a place, wherever processes may stand.  Files that are open keep
    what is in them. -/
def remove (s : System) (place : Place) : System :=
  { s with
    disk := s.disk.remove place
    homes := s.homes.map fun h => (h.1, h.2.afterRemove place)
    files := s.files.map fun f => match f.target with
      | .file p => if place.isPrefixOf p then { f with target := .removed (s.content f.target) }
        else f
      | _ => f }

/-- A number for a new process. -/
def newProcess (s : System) : Nat × System :=
  (s.nextProcess, { s with
    nextProcess := s.nextProcess + 1
    processes := s.nextProcess :: s.processes })

/-- Keep the working directory for a process. -/
def keepHome (s : System) (process : Nat) : System :=
  { s with homes := (process, s.disk.cwd) :: s.homes }

/-- Go to the working directory that was kept for a process. -/
def goHome (s : System) (process : Nat) : System :=
  { s with
    disk := { s.disk with cwd := (s.homes.lookup process).getD s.disk.cwd }
    homes := s.homes.filter (·.1 != process) }

/-- Note that a process has ended. -/
def endProcess (s : System) (process : Nat) : System :=
  { s with processes := s.processes.erase process }

/-- Forget the open files and the pipes behind so many. -/
def forget (s : System) (files pipes : Nat) : System :=
  { s with files := s.files.shrink files, pipes := s.pipes.shrink pipes }

/-- Take the signals that were sent to a process. -/
def takeSent (s : System) (process : Nat) : List Nat × System :=
  ((s.sent.filter (·.1 == process)).map Prod.snd,
    { s with sent := s.sent.filter (·.1 != process) })

end System

end Keysmith.Shell
