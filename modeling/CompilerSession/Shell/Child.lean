import CompilerSession.HomePath
import CompilerSession.Settings
import CompilerSession.Shell.Run
import CompilerSession.Wire

/-
Display processes that are real programs.

A process is spawned from a toolchain: the program is found, and it gets the arguments of
the toolchain and then those that put it into server mode. Requests are written to its
input, and responses are read from its error output.

The system on which this happens is modelled: its files are given, and its programs are
a shell and what shell scripts call. A process is known by what it was started with and
by the input that it got; what it has written and whether it has ended follows from that.
-/

set_option autoImplicit false

namespace CompilerSession.Shell

open Utf8 (Bytes)

/-- **The surroundings of processes.** -/
structure Host where
  files : Files
  /-- The directory from which the program was started. -/
  directory : String
  home : Option String
  /-- The directory in which processes run, if it is another one. -/
  workingDirectory : Option String
  /-- The arguments that follow those of the toolchain. -/
  serverArguments : List String
  deriving DecidableEq, Repr

/-- The arguments that put a compiler into server mode. -/
def defaultServerArguments : List String := ["--wait", "stdio"]

/-- **A process.** -/
structure Child where
  files : Files
  directory : String
  environment : List (String × String)
  program : String
  arguments : List String
  /-- All input so far. -/
  input : Bytes
  /-- How much of its output was read. -/
  taken : Nat
  /-- It was ended from outside. -/
  killed : Bool
  deriving DecidableEq, Repr

/-! ## Spawning -/

/-- Why the system refuses. -/
inductive Refusal where
  | noSuchFile
  | noPermission
  | notADirectory
  /-- A text with a zero byte cannot be handed over. -/
  | zeroByte
  deriving DecidableEq, Repr

def Refusal.message : Refusal → String
  | noSuchFile => "No such file or directory (os error 2)"
  | noPermission => "Permission denied (os error 13)"
  | notADirectory => "Not a directory (os error 20)"
  | zeroByte => "nul byte found in provided data"

/-- The text holds a zero byte. -/
def hasZero (s : String) : Bool :=
  s.toList.contains '\x00'

namespace Host

def childDirectory (h : Host) : Except Refusal String :=
  match h.workingDirectory with
  | none => .ok h.directory
  | some path =>
    if path = "" then .error .noSuchFile
    else
      let target := Files.absolute h.directory path
      match h.files.look target with
      | .directory => .ok target
      | .missing => .error .noSuchFile
      | _ => .error .notADirectory

/-- What comes of running what stands at a path. -/
def programAt (h : Host) (path : String) : Except Refusal String :=
  match h.files.look path with
  | .program name => .ok name
  | .missing => .error .noSuchFile
  | .blocked => .error .notADirectory
  | _ => .error .noPermission

/-- The program of a name, searched for in directories. What cannot be run is passed over, but
not forgotten. -/
def search (h : Host) (directory name : String) : List String → Except Refusal String
  | [] => .error .noSuchFile
  | d :: rest =>
    let path := (if d = "" then "." else d) ++ "/" ++ name
    match h.programAt (Files.absolute directory path) with
    | .error .noPermission =>
      match search h directory name rest with
      | .ok program => .ok program
      | .error _ => .error .noPermission
    | .error _ => search h directory name rest
    | found => found

/-- **The program of a name or a path.** A name without a slash is searched for in the
directories of the search path. -/
def findProgram (h : Host) (directory : String) (environment : List (String × String))
    (executable : String) : Except Refusal String :=
  if executable = "" then .error .noSuchFile
  else if executable.toList.contains '/' then
    h.programAt (Files.absolute directory executable)
  else
    let directories := match (environment.find? (·.1 = "PATH")).map (·.2) with
      | some path => path.splitOn ":"
      | none => programDirectories
    h.search directory executable directories

/-- **Spawn a process.** -/
def spawn (h : Host) (t : Toolchain) : Except Refusal Child := do
  let executable := HomePath.expand h.home t.executable
  let arguments := t.arguments ++ h.serverArguments
  let texts := executable :: arguments ++ h.workingDirectory.toList ++
    t.environment.flatMap fun (name, value) => [name, value]
  if texts.any hasZero then throw .zeroByte
  let directory ← h.childDirectory
  let program ← h.findProgram directory t.environment executable
  return ⟨h.files, directory, t.environment, program, arguments, [], 0, false⟩

end Host

/-! ## What a process does -/

namespace Child

/-- The bound on how deep scripts are nested. -/
def depth : Nat := 10000

/-- What the shell runs for its arguments: a script, and the name and arguments that it sees. -/
def shellScript (c : Child) : Run Unit := do
  let start (text : List Char) (name : String) (arguments : List String) : Run Unit := do
    modify fun s => { s with name, arguments }
    match Script.parse? text with
    | some script => runScript depth script
    | none =>
      complain "sh: 1: Syntax error"
      throw (.exited 2)
  match c.arguments with
  | "-c" :: script :: rest => start script.toList (rest.headD "sh") (rest.drop 1)
  | [] => throw .waiting
  | path :: rest =>
    if path.toList.head? = some '-' then
      complain "sh: 0: Illegal option -"
      throw (.exited 2)
    else
      match ← readFile "sh" path with
      | some bytes => start (Utf8.decodeLossy bytes) path rest
      | none => throw (.exited 2)

/-- **The run of a process** on the input so far. -/
def run (c : Child) : Except Stop Unit × State :=
  let start : State :=
    { unread := c.input
      inputOpen := true
      response := []
      collected := []
      output := .nowhere
      errors := .response
      bindings := c.environment
      name := c.program
      arguments := []
      status := 0
      directory := c.directory
      ignored := []
      files := c.files }
  if c.program = "sh" then c.shellScript.run start
  else (invoke (fun _ _ _ => return 127) (c.program :: c.arguments)).run start

/-- What the process has written to its error output. -/
def output (c : Child) : Bytes :=
  c.run.2.response

/-- **How the process ended**, if it did. -/
def exit? (c : Child) : Option Exit :=
  match c.run with
  | (.ok _, s) => some ⟨some (s.status : Int)⟩
  | (.error (.exited status), _) => some ⟨some (status : Int)⟩
  | (.error .killed, _) => some ⟨none⟩
  | (.error .waiting, _) => if c.killed then some ⟨none⟩ else none

/-- **Kill the process**, unless it ended already. -/
def kill (c : Child) : Child :=
  if c.exit?.isSome then c else { c with killed := true }

/-- Nobody is left to read a request. -/
def brokenPipe : ChannelFault :=
  .ofPipe .brokenPipe "Broken pipe (os error 32)"

/-- **One call**: a request is written and a response read. There may be none, if the process
waits for more. -/
def call (c : Child) (arguments : List String) (stdin : Option String) :
    Option (Except ChannelFault Response) × Child :=
  match Wire.encodeRequest arguments stdin with
  | .error fault => (some (.error fault), c)
  | .ok request =>
    if c.exit?.isSome then (some (.error brokenPipe), c)
    else
      let c := { c with input := c.input ++ request }
      match Wire.nextFrame (c.output.drop c.taken) with
      | .payload bytes _ =>
        (some (.ok (Wire.decodeResponse bytes)), { c with taken := c.taken + 4 + bytes.length })
      | .oversized length _ =>
        (some (.error (Wire.oversizedFault length)), { c with taken := c.taken + 4 })
      | .incomplete =>
        if c.exit?.isSome then (some (.error Wire.earlyEndFault), c) else (none, c)

end Child

end CompilerSession.Shell
