/-
The options of the command line.

There is one program with three actions: serve, which is the default, probe and query.
The settings file and the working directory may be named before the action or behind it,
and what is named behind it counts. What a query asks for follows two dashes and may look
like anything.

Arguments are read from the left, and the first one that is wrong, or that asks for help
or for the version, decides.
-/

set_option autoImplicit false

namespace CompilerSession.CommandLine

/-- **What to do.** -/
inductive Action where
  | serve
  | probe
  | query (stdinFile : Option String) (json : Bool) (arguments : List String)
  deriving DecidableEq, Repr

/-- **What the command line asks for.** -/
structure Options where
  config : Option String
  cwd : Option String
  action : Action
  deriving DecidableEq, Repr

/-- The settings file when none is named. -/
def defaultSettingsFile : String := "display-session.json"

def Options.settingsFile (o : Options) : String :=
  o.config.getD defaultSettingsFile

/-- The paths that the options tell of. -/
def Options.paths (o : Options) : List String :=
  [o.settingsFile] ++ o.cwd.toList ++
    match o.action with
    | .query (some path) _ _ => [path]
    | _ => []

/-- What comes of reading the command line. -/
inductive Parsed where
  | run (options : Options)
  | help
  | version
  /-- The arguments cannot be used. -/
  | usage
  deriving DecidableEq, Repr

/-- The actions, before their arguments are read. -/
inductive Verb where
  | serve
  | probe
  | query
  deriving DecidableEq, Repr

def Verb.ofText? (s : String) : Option Verb :=
  match s with
  | "serve" => some .serve
  | "probe" => some .probe
  | "query" => some .query
  | _ => none

/-- The options of one level, as they are met. -/
structure Draft where
  config : Option String
  cwd : Option String
  stdinFile : Option String
  json : Bool

def Draft.empty : Draft := ⟨none, none, none, false⟩

/-- The options that take a value. -/
inductive Key where
  | config
  | cwd
  | stdinFile
  deriving DecidableEq, Repr

/-- The value of an option so far. -/
def Draft.get (d : Draft) : Key → Option String
  | .config => d.config
  | .cwd => d.cwd
  | .stdinFile => d.stdinFile

def Draft.set (d : Draft) (key : Key) (value : String) : Draft :=
  match key with
  | .config => { d with config := some value }
  | .cwd => { d with cwd := some value }
  | .stdinFile => { d with stdinFile := some value }

/-- **An argument**, by its form. -/
inductive Argument where
  /-- Two dashes alone. -/
  | divider
  /-- A name behind two dashes, and what follows an equals sign. -/
  | long (name : String) (value : Option String)
  /-- Letters behind one dash. -/
  | short (letters : List Char)
  | word (text : String)
  deriving DecidableEq, Repr

/-- The form of an argument. A single dash is a word. -/
def Argument.ofText (s : String) : Argument :=
  match s.toList with
  | ['-', '-'] => .divider
  | '-' :: '-' :: rest =>
    .long (String.ofList (rest.takeWhile (· ≠ '=')))
      (match rest.dropWhile (· ≠ '=') with
        | [] => none
        | _ :: value => some (String.ofList value))
  | '-' :: c :: rest => .short (c :: rest)
  | _ => .word s

/-- The option of a name that takes a value. Only a query has a file for its contents. -/
def Key.ofName? (verb : Option Verb) (name : String) : Option Key :=
  match name with
  | "config" => some .config
  | "cwd" => some .cwd
  | "stdin-file" => if verb = some .query then some .stdinFile else none
  | _ => none

/-- A value in an argument of its own: it is not empty and does not look like an option. -/
def separateValue? (s : String) : Option String :=
  match Argument.ofText s with
  | .word "" => none
  | .word s => some s
  | _ => none

/-- The options of both levels together. -/
def combine (outer inner : Draft) (action : Action) : Parsed :=
  .run ⟨inner.config.or outer.config, inner.cwd.or outer.cwd, action⟩

/-- All arguments are read. A query has to have arguments of its own. -/
def close (verb : Option Verb) (outer inner : Draft) (rest : List String) : Parsed :=
  match verb, rest with
  | none, [] => combine inner Draft.empty .serve
  | some .serve, [] => combine outer inner .serve
  | some .probe, [] => combine outer inner .probe
  | some .query, x :: rest => combine outer inner (.query inner.stdinFile inner.json (x :: rest))
  | _, _ => .usage

/-- What comes of asking for help on some actions. -/
def helpOn : List String → Parsed
  | [] => .help
  | [s] => if s = "help" ∨ (Verb.ofText? s).isSome then .help else .usage
  | _ => .usage

/-- **Read the arguments** of a level. -/
def read (verb : Option Verb) (outer inner : Draft) : List String → Parsed
  | [] => close verb outer inner []
  | argument :: rest =>
    match Argument.ofText argument with
    | .divider => close verb outer inner rest
    | .short ('h' :: _) => .help
    | .short ('V' :: _) => if verb.isNone then .version else .usage
    | .short _ => .usage
    | .long "help" none => .help
    | .long "version" none => if verb.isNone then .version else .usage
    | .long "json" none =>
      if verb = some .query ∧ inner.json = false then
        read verb outer { inner with json := true } rest
      else .usage
    | .long name value =>
      match Key.ofName? verb name with
      | none => .usage
      | some key =>
        if (inner.get key).isSome then .usage
        else match value, rest with
          | some "", _ => .usage
          | some value, rest => read verb outer (inner.set key value) rest
          | none, [] => .usage
          | none, next :: rest =>
            match separateValue? next with
            | some value => read verb outer (inner.set key value) rest
            | none => .usage
    | .word s =>
      if verb.isSome then .usage
      else if s = "help" then helpOn rest
      else match Verb.ofText? s with
        | some v => read (some v) inner Draft.empty rest
        | none => .usage
termination_by arguments => arguments.length

/-- **The command line.** -/
def parse (arguments : List String) : Parsed :=
  read none Draft.empty Draft.empty arguments

end CompilerSession.CommandLine
