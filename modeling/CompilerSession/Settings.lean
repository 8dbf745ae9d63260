import CompilerSession.Failure
import CompilerSession.Json.Decode
import CompilerSession.Json.Printer
import CompilerSession.Text.Utf8

/-
Settings of the compiler to run.

Settings come in two layers: a toolchain that applies everywhere, and overrides
for single platforms. An override field that is present replaces the field below
it as a whole, even by something empty; an absent one leaves it alone. All of it
is one flat JSON object, in which every field may go by older names as well.

The file first fixes the two layers and how they resolve, then their JSON form in
both directions, then the settings file.
-/

set_option autoImplicit false

namespace CompilerSession

open Json (Decoder Fault Member Scope Shape Value)

/-! ## The two layers -/

/-- **What to run**: a program, its arguments, and what its environment adds, by name. -/
structure Toolchain where
  executable : String
  arguments : List String
  environment : List (String × String)
  deriving DecidableEq, Repr, Inhabited

def Toolchain.default : Toolchain := ⟨"haxe", [], []⟩

/-- Fields that replace those of the toolchain. -/
structure Override where
  executable : Option String
  arguments : Option (List String)
  environment : Option (List (String × String))
  deriving DecidableEq, Repr, Inhabited

def Override.none : Override := ⟨.none, .none, .none⟩

def Override.applyTo (o : Override) (t : Toolchain) : Toolchain where
  executable := o.executable.getD t.executable
  arguments := o.arguments.getD t.arguments
  environment := o.environment.getD t.environment

/-- The platforms that settings tell apart. -/
inductive Platform where
  | windows
  | linux
  | osx
  deriving DecidableEq, Repr, Inhabited

def Platform.text : Platform → String
  | .windows => "windows"
  | .linux => "linux"
  | .osx => "osx"

def Platform.ofText? (s : String) : Option Platform :=
  if s = "windows" then some .windows
  else if s = "linux" then some .linux
  else if s = "osx" ∨ s = "macos" then some .osx
  else .none

/-- **Settings.** -/
structure Settings where
  base : Toolchain
  windows : Option Override
  linux : Option Override
  osx : Option Override
  deriving DecidableEq, Repr, Inhabited

namespace Settings

/-- The settings that apply when there are none. -/
def default : Settings := ⟨Toolchain.default, none, none, none⟩

def forPlatform (s : Settings) : Platform → Option Override
  | .windows => s.windows
  | .linux => s.linux
  | .osx => s.osx

/-- **What to run on a platform.** -/
def resolve (s : Settings) (p : Platform) : Toolchain :=
  match s.forPlatform p with
  | some o => o.applyTo s.base
  | none => s.base

end Settings

/-! ## The JSON form -/

def Platform.decode : Decoder Platform :=
  Json.oneOf ["windows", "linux", "macos", "osx"] Platform.ofText?

/-- The three fields as they are met; used for both layers. -/
structure Toolchain.Draft where
  executable : Option (Option String)
  arguments : Option (Option (List String))
  environment : Option (Option (List (String × String)))

/-- The fields of a toolchain or an override. `lift` says whether null is a value. -/
def Toolchain.fields (lift : {α : Type} → Decoder α → Decoder (Option α)) :
    List (Member Toolchain.Draft) :=
  [ { name := "executable"
      aliases := ["path", "executablePath"]
      store := fun scope t d => do return { d with executable := some (← lift Json.text scope t) }
      defaulted := true },
    { name := "arguments"
      aliases := ["args"]
      store := fun scope t d => do
        return { d with arguments := some (← lift (Json.list Json.text) scope t) }
      defaulted := true },
    { name := "environment"
      aliases := ["env"]
      store := fun scope t d => do
        return { d with environment := some (← lift (Json.map Json.text) scope t) }
      defaulted := true } ]

def Toolchain.Draft.empty : Toolchain.Draft := ⟨none, none, none⟩

/-- An override: null is the same as no replacement. -/
def Override.shape : Shape Toolchain.Draft Override where
  name := "ToolchainOverride"
  fields := Toolchain.fields Json.optional
  start := .empty
  finish := fun d => .ok ⟨d.executable.join, d.arguments.join, d.environment.join⟩

def Override.decode : Decoder Override :=
  Override.shape.decode

/-- The base layer: null is no value, and an absent field has its default. -/
def Toolchain.ofDraft (d : Toolchain.Draft) : Toolchain where
  executable := d.executable.join.getD Toolchain.default.executable
  arguments := d.arguments.join.getD []
  environment := d.environment.join.getD []

/-- The overrides as they are met. -/
structure Settings.Draft where
  windows : Option (Option Override)
  linux : Option (Option Override)
  osx : Option (Option Override)

def Settings.overrideFields : List (Member Settings.Draft) :=
  [ { name := "windows"
      aliases := []
      store := fun scope t d => do
        return { d with windows := some (← Json.optional Override.decode scope t) }
      defaulted := true },
    { name := "linux"
      aliases := []
      store := fun scope t d => do
        return { d with linux := some (← Json.optional Override.decode scope t) }
      defaulted := true },
    { name := "osx"
      aliases := ["macos"]
      store := fun scope t d => do
        return { d with osx := some (← Json.optional Override.decode scope t) }
      defaulted := true } ]

/-- **Settings.** Both layers stand side by side in one object. All of its members are
read before any of them is looked at; then the base layer takes those it knows, and then
the overrides. -/
def Settings.decode : Decoder Settings := fun scope t =>
  match t with
  | .object ms closed => do
    let inner ← scope.enter
    let _ ← Json.anyMembers inner ms
    if closed = false then throw .malformed
    let base ← Shape.readMembers (Toolchain.fields Json.always) .ofMember [] ms .empty
    let overrides ← Shape.readMembers overrideFields .ofMember [] ms ⟨none, none, none⟩
    return ⟨Toolchain.ofDraft base, overrides.windows.join, overrides.linux.join,
      overrides.osx.join⟩
  | t => .error (t.mismatch "struct DisplayServerSettings")

def Settings.parse (s : String) : Except Fault Settings :=
  Json.decodeText Settings.decode s

def Toolchain.members (t : Toolchain) : List (String × Value) :=
  [("executable", .text t.executable), ("arguments", Json.Value.texts t.arguments),
    ("environment", Json.Value.ofMap t.environment)]

def Toolchain.toValue (t : Toolchain) : Value :=
  .object t.members

/-- The override as a value: the fields it replaces. -/
def Override.toValue (o : Override) : Value :=
  .object (Json.Value.member? "executable" .text o.executable ++
    Json.Value.member? "arguments" Json.Value.texts o.arguments ++
    Json.Value.member? "environment" Json.Value.ofMap o.environment)

/-- **The settings as a value.** -/
def Settings.toValue (s : Settings) : Value :=
  .object (s.base.members ++ Json.Value.member? "windows" Override.toValue s.windows ++
    Json.Value.member? "linux" Override.toValue s.linux ++
    Json.Value.member? "osx" Override.toValue s.osx)

/-! ## The settings file -/

/-- What stands at the path of the settings file. -/
inductive FileState where
  | missing
  | directory
  /-- Something on the way is no directory. -/
  | blocked
  | contents (bytes : Utf8.Bytes)
  deriving DecidableEq, Repr

/-- **Reading a text file.** Absent counts as no text; otherwise the text or what the
operating system says. -/
def FileState.readText : FileState → Except String (Option String)
  | .missing => .ok none
  | .directory => .error "Is a directory (os error 21)"
  | .blocked => .error "Not a directory (os error 20)"
  | .contents bytes =>
    match Utf8.decode? bytes with
    | some cs => .ok (some (String.ofList cs))
    | none => .error "stream did not contain valid UTF-8"

/-- **The settings in a file.** Without a file the defaults apply; a file that cannot be
used is a failure that names it. -/
def Settings.load (path : String) (file : FileState) : Except Failure Settings :=
  let refuse (detail : String) : Except Failure Settings :=
    .error (.config (path ++ ": " ++ detail))
  match file.readText with
  | .error detail => refuse detail
  | .ok none => .ok Settings.default
  | .ok (some s) =>
    match Settings.parse s with
    | .ok settings => .ok settings
    | .error fault => refuse fault.message

end CompilerSession
