import CompilerSession.CommandLine.Options
import CompilerSession.Simulation.Schedule

/-
The command line program.

The program starts a session with the toolchain that the settings file names. A probe
tells what came of the start, a query puts one request and prints the answer, and serving
answers lines until the input ends. The session ends with the program.

The display processes are programs of a modelled host, so the whole program is a function
from its arguments, its files and its input to what it prints.
-/

set_option autoImplicit false

namespace CompilerSession.CommandLine

open Json (Value)
open Shell (Files Host)
open Simulation (World Task Achievement)

/-- **What the program finds.** -/
structure Surroundings where
  files : Files
  /-- The directory from which it is started. -/
  directory : String
  home : Option String
  platform : Platform
  /-- All of its input. -/
  stdin : Utf8.Bytes

/-- **What the program leaves behind.** -/
structure Outcome where
  /-- The exit status; none if the program would wait for ever. -/
  status : Option Nat
  stdout : String
  stderr : String
  deriving DecidableEq, Repr

def versionText : String := "display-session 0.1.0\n"

/-! ## Failures -/

def indented (text : String) : String :=
  String.ofList (List.replicate 4 ' ' ++ text.toList.flatMap fun c =>
    if c = '\n' then '\n' :: List.replicate 4 ' ' else [c])

/-- **A failure as it is printed**: what was being done, and the cause. -/
def failed (doing cause : String) : Outcome where
  status := some 1
  stdout := ""
  stderr := "Error: " ++ doing ++ "\n\nCaused by:\n" ++ indented cause ++ "\n"

/-! ## Files -/

def fileState (s : Surroundings) (path : String) : FileState :=
  if path = "" then .missing
  else match s.files.look (Files.absolute s.directory path) with
    | .missing => .missing
    | .blocked => .blocked
    | .directory => .directory
    | .file bytes => .contents bytes
    | .program _ => .contents [0xFF]

/-- The text of a file that has to be there. -/
def readText (s : Surroundings) (path : String) : Except String String :=
  match (fileState s path).readText with
  | .ok (some text) => .ok text
  | .ok none => .error Shell.Refusal.noSuchFile.message
  | .error detail => .error detail

/-! ## The session -/

/-- The world in which the options are carried out. -/
def world (s : Surroundings) (o : Options) : World :=
  let w := World.initial s.platform
  let path := o.settingsFile
  { w with compilers := { w.compilers with
      settings := Settings.load path (fileState s path)
      host := some ⟨s.files, s.directory, s.home, o.cwd, Shell.defaultServerArguments⟩ } }

/-- Longer than anything is waited for, in milliseconds. -/
def longTime : Nat := World.probePatience + World.exitPatience + 1000

def caller : Task := .caller 0

/-- The program begins something and waits until it is over. -/
def untilDone (w : World) (begin_ : World → World) : Option Achievement × World :=
  let w := { w with record := .empty }
  let w := ((begin_ w).wake caller).pass longTime
  ((w.record.done.head?).map (·.2), w)

def start (w : World) : Option (Except Failure Info) × World :=
  match untilDone w (·.beginErrand caller .start) with
  | (some (.launched outcome), w) => (some outcome, w)
  | (_, w) => (none, w)

def ask (w : World) (request : Request) : Option CompilerSession.Outcome × World :=
  let (tokens, token) := w.registry.tokens.issue
  let w := { w with registry := { w.registry with tokens } }
  match untilDone w (·.beginRequest caller request token) with
  | (some (.answered outcome), w) => (some outcome, w)
  | (_, w) => (none, w)

/-- The program would wait for ever. -/
def endless : Outcome := ⟨none, "", ""⟩

/-! ## The actions -/

def probeReport (info : Info) : Value :=
  Value.sorted (.object [
    ("session", info.toValue),
    ("capabilities", (Capabilities.of info.version).toValue)])

/-- **Probe**: the facts of the session and what its version allows. -/
def probe (w : World) : Outcome :=
  match start w with
  | (none, _) => endless
  | (some (.error failure), _) => failed "Display server failed to start" failure.message
  | (some (.ok info), _) => ⟨some 0, (probeReport info).wide ++ "\n", ""⟩

/-- The answer to a query as it is printed: the prints as complaints and then the body, or all
of it in JSON. -/
def printAnswer (json : Bool) (output : RawOutput) : Outcome :=
  if json then ⟨some 0, output.toValue.wide ++ "\n", ""⟩
  else ⟨some 0, output.text, String.join (output.prints.map (· ++ "\n"))⟩

/-- **Query**: one request and its answer. -/
def query (w : World) (request : Request) (json : Bool) : Outcome :=
  match start w with
  | (none, _) => endless
  | (some (.error failure), _) => failed "Display server failed to start" failure.message
  | (some (.ok _), w) =>
    match ask w request with
    | (none, _) => endless
    | (some (.error failure), _) => failed "Display request failed" failure.message
    | (some (.ok output), _) => printAnswer json output

def queryRequest (arguments : List String) (stdin : Option String) : Request where
  label := "query"
  arguments := arguments
  stdin := stdin

/-- **Serve**: answer the lines of the input. -/
def serve (w : World) (input : Utf8.Bytes) : Outcome :=
  let w := w.onServer fun server => { server with unread := input, inputClosed := true }
  let w := (w.beginServing.wake .serve).pass longTime
  let lines := String.join (w.server.written.map fun m => m.toValue.compact ++ "\n")
  match w.server.stage with
  | .ended .ok => ⟨some 0, lines, ""⟩
  | .ended .invalidData =>
    { failed "JSON-lines transport failed" "stream did not contain valid UTF-8" with
      stdout := lines }
  | .ended .brokenPipe =>
    { failed "JSON-lines transport failed" "Broken pipe (os error 32)" with stdout := lines }
  | _ => { endless with stdout := lines }

def carryOut (s : Surroundings) (o : Options) : Outcome :=
  match o.action with
  | .serve => serve (world s o) s.stdin
  | .probe => probe (world s o)
  | .query none json arguments => query (world s o) (queryRequest arguments none) json
  | .query (some path) json arguments =>
    match readText s path with
    | .error detail => failed ("Failed to read " ++ path) detail
    | .ok contents => query (world s o) (queryRequest arguments (some contents)) json

def usageText : String :=
  "Usage: display-session [--config FILE] [--cwd DIR] [serve | probe | query [--stdin-file FILE] [--json] -- ARGUMENTS]\n"

/-- **The program.** -/
def run (s : Surroundings) (arguments : List String) : Outcome :=
  match parse arguments with
  | .run options => carryOut s options
  | .help => ⟨some 0, usageText, ""⟩
  | .version => ⟨some 0, versionText, ""⟩
  | .usage => ⟨some 2, "", usageText⟩

end CompilerSession.CommandLine
