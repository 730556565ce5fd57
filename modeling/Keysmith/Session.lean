import Keysmith.CommandLine.Run
import Keysmith.KeyTool.StandIn

/-! # Sessions

A session is a list of steps on one disk: steps that prepare files, the library's
operations, and whole runs of the program.  Each step gives an answer and leaves the
disk for the next one. -/

namespace Keysmith.Session

/-- Which tool a step works with. -/
inductive Tool where
  | programs (programs : ProcessTool)
  | standIn (standIn : StandIn)

/-- Where a run gets the machine's address from. -/
inductive Address where
  | fixed (ip : Ipv4)
  | probe (target : Endpoint)
  | broken (text : String)

/-- A step of a session. -/
inductive Step where
  | mkdir (path : String)
  | write (path text : String)
  | symlink (target path : String)
  | rmdir (path : String)
  | chdir (path : String)
  /-- Put a script among the programs.  The answer does not tell whether that could be
      done. -/
  | script (name body : String) (executable : Bool)
  | reset (dir : String)
  | reportVersion (tool : Tool)
  | generate (tool : Tool) (request : Except Failure KeypairRequest)
  | exportCertificate (tool : Tool) (request : ExportRequest)
  | importCertificate (tool : Tool) (request : ImportRequest)
  | provision (tool : Tool) (address : Address) (config : Config) (secret : Secret)
      (host : String)
  | program (line : List String)

/-- What a step answers. -/
inductive Answer where
  /-- A file was prepared, or was not. -/
  | prepared (ok : Bool)
  | reset (result : Except Failure Unit)
  | version (result : Except Failure Version)
  | tool (result : Except Failure Unit)
  /-- A run, and the calls that a stand-in got. -/
  | provisioned (result : Except Failure Provisioned) (calls : Option (List ToolCall))
  | ended (ended : CommandLine.Ended)

/-- A step's answer, the events of the log, and the disk after it. -/
structure Done where
  answer : Answer
  events : List Event
  disk : Disk

/-- What a session needs of its surroundings. -/
structure Machine where
  /-- The place of the directory in which the session happens. -/
  root : Place
  network : Network
  /-- Start programs, looking for them in the given directories. -/
  launcher : List String → Launcher Unit
  /-- Where programs are looked for. -/
  searchPath : List String

namespace Machine

/-- The path of the session's directory. -/
def rootPath (m : Machine) : String := absolutePath m.root

/-- Where the program looks for programs: first among the session's scripts. -/
def programPath (m : Machine) : List String :=
  [m.rootPath ++ "/bin", "/usr/bin", "/bin"]

/-- The source of an address. -/
def source {τ : Type} (m : Machine) : Address → AddressSource τ
  | .fixed ip => .fixed ip
  | .probe target => .probe m.network target
  | .broken text => .broken text

/-- A tool of a step. -/
def tool (m : Machine) : Tool → KeyTool Unit
  | .programs p => p.tool (m.launcher m.searchPath)
  | .standIn s => s.tool

/-- An action as a step. -/
def act {α : Type} (d : Disk) (answer : Except Failure α → Answer)
    (x : Action Unit Failure α) : Done :=
  let o := x d ()
  ⟨answer o.result, o.events, o.disk⟩

/-- A preparation as a step: it leaves the disk alone if it fails. -/
def prepare (d : Disk) (r : Except IoError Disk) : Done :=
  match r with
  | .ok d' => ⟨.prepared true, [], d'⟩
  | .error _ => ⟨.prepared false, [], d⟩

/-- The disk with a script among the session's programs. -/
def addScript (m : Machine) (d : Disk) (name body : String) (executable : Bool) :
    Except IoError Disk := do
  let path := m.rootPath ++ "/bin/" ++ name
  let written ← d.write path (Text.Utf8.encode ("#!/bin/sh\n" ++ body ++ "\n").toList)
  written.chmod path (if executable then .program else .data)

/-- A run as a step. -/
def provision (m : Machine) (d : Disk) (tool : Tool) (address : Address) (config : Config)
    (secret : Secret) (host : String) : Done :=
  match tool with
  | .programs p =>
    let o := Provision.run (p.tool (m.launcher m.searchPath)) (m.source address) config
      secret host d ()
    ⟨.provisioned o.result none, o.events, o.disk⟩
  | .standIn s =>
    let o := Provision.run s.tool.recorded (m.source address) config secret host d ([], ())
    ⟨.provisioned o.result (some o.memory.1), o.events, o.disk⟩

/-- Do a step. -/
def step (m : Machine) (d : Disk) : Step → Done
  | .mkdir path =>
    let (result, made) := Disk.createAll path d
    ⟨.prepared result.isOk, [], made⟩
  | .write path text => prepare d (d.write path (Text.Utf8.encode text.toList))
  | .symlink target path => prepare d (d.symlink target path)
  | .rmdir path => prepare d (d.rmdir path)
  | .chdir path => prepare d (d.chdir path)
  | .script name body executable =>
    ⟨.prepared true, [], (m.addScript d name body executable).toOption.getD d⟩
  | .reset dir => act d .reset (Action.onDisk (OutputDir.reset dir))
  | .reportVersion tool => act d .version (m.tool tool).reportVersion
  | .generate tool request => act d .tool do
    (m.tool tool).generateKeypair (← Action.ofExcept request)
  | .exportCertificate tool request =>
    act d .tool ((m.tool tool).exportCertificate request)
  | .importCertificate tool request =>
    act d .tool ((m.tool tool).importCertificate request)
  | .provision tool address config secret host =>
    m.provision d tool address config secret host
  | .program line =>
    let (ended, d', _) := CommandLine.run (m.launcher m.programPath)
      (.probe m.network AddressSource.defaultTarget) line d ()
    ⟨.ended ended, [], d'⟩

/-- Do the steps of a session, one after another. -/
def steps (m : Machine) (d : Disk) : List Step → List Done
  | [] => []
  | s :: rest =>
    let done := m.step d s
    done :: m.steps done.disk rest

/-- A directory tree that holds only the directories of a place, and at that place a
    given node. -/
def treeFor (x : Node) : Place → Node
  | [] => x
  | name :: place => .dir [(name, treeFor x place)]

/-- The disk before a session: the session's directory with an empty directory for
    scripts, and the given nodes beside it in the root. -/
def disk (m : Machine) (others : List (String × Node)) : Disk :=
  match treeFor (.dir [("bin", .dir [])]) m.root with
  | .dir es => ⟨.dir (es ++ others), Spot.ofPlace m.root⟩
  | t => ⟨t, Spot.ofPlace m.root⟩

end Machine

end Keysmith.Session
