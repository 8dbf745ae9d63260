import CompilerSession.Shell.Expansion
import CompilerSession.Shell.Format

/-
The commands of scripts.

There are commands that belong to the shell, which may change its state, and programs.
Both are told their arguments and end with a status; zero means that all went well.
-/

set_option autoImplicit false

namespace CompilerSession.Shell

open Utf8 (Bytes)

/-- A signal without the beginning that all signals share. -/
def signalName (s : String) : String :=
  match s.toList with
  | 'S' :: 'I' :: 'G' :: rest => String.ofList rest
  | rest => String.ofList rest

/-- A signal reaches the shell itself. -/
def receive (signal : String) : Run Nat := do
  if signal = "0" then return 0
  let fatal := signal = "9" ∨ signal = "KILL"
  if fatal ∨ ¬ (← get).ignored.contains signal then throw .killed
  return 0

/-- The contents of a file, or a complaint. -/
def readFile (command path : String) : Run (Option Bytes) := do
  let s ← get
  match s.files.look (Files.absolute s.directory path) with
  | .file bytes => return some bytes
  | .directory => complain (command ++ ": " ++ path ++ ": Is a directory"); return none
  | .blocked => complain (command ++ ": " ++ path ++ ": Not a directory"); return none
  | _ => complain (command ++ ": " ++ path ++ ": No such file or directory"); return none

/-- Copy files, or the input, to the output. -/
def concatenate : List String → Run Nat
  | [] => return 0
  | "-" :: rest => do
    copy
    concatenate rest
  | path :: rest => do
    match ← readFile "cat" path with
    | some bytes =>
      emit bytes
      concatenate rest
    | none =>
      let _ ← concatenate rest
      return 1

/-- The lines at the front of some bytes. -/
def firstLines : Nat → Bytes → Bytes
  | 0, _ => []
  | _, [] => []
  | n + 1, b :: rest => if b = 10 then b :: firstLines n rest else b :: firstLines (n + 1) rest

/-- The front of the input: a number of bytes, or of lines. -/
def front : List String → Run Nat
  | ["-c", n] => do
    emit (← take (n.toNat?.getD 0))
    return 0
  | ["-n", n] => do
    let s ← get
    let bytes := firstLines (n.toNat?.getD 0) s.unread
    if bytes.count 10 < n.toNat?.getD 0 ∧ s.inputOpen then throw .waiting
    set { s with unread := s.unread.drop bytes.length }
    emit bytes
    return 0
  | [] => front ["-n", "10"]
  | option :: _ => do
    complain ("head: unrecognized option '" ++ option ++ "'")
    return 1
termination_by arguments => if arguments = [] then 1 else 0

/-- The names in a directory, each on a line. -/
def listNames (directory : String) : Run Nat := do
  let s ← get
  let path := Files.absolute s.directory directory
  match s.files.look path with
  | .directory =>
    emit ((s.files.list path).flatMap fun name => Utf8.encode (name ++ "\n"))
    return 0
  | .file _ | .program _ => emit (Utf8.encode (directory ++ "\n")); return 0
  | _ =>
    complain ("ls: cannot access '" ++ directory ++ "': No such file or directory")
    return 2

/-- A condition on texts, numbers and files. -/
def condition (found : String → Found) : List String → Bool
  | "!" :: x :: rest => ! condition found (x :: rest)
  | ["-n", s] => s ≠ ""
  | ["-z", s] => s = ""
  | ["-e", path] => found path ≠ .missing
  | ["-d", path] => found path = .directory
  | ["-f", path] => match found path with
    | .file _ | .program _ => true
    | _ => false
  | [a, "=", b] => a = b
  | [a, "!=", b] => a ≠ b
  | [a, "-eq", b] => number a = number b
  | [a, "-ne", b] => number a ≠ number b
  | [a, "-lt", b] => number a < number b
  | [a, "-le", b] => number a ≤ number b
  | [a, "-gt", b] => number b < number a
  | [a, "-ge", b] => number b ≤ number a
  | [s] => s ≠ ""
  | _ => false
where
  /-- The number that a text writes. -/
  number (s : String) : Int := s.toInt?.getD 0

/-- The status of a condition. -/
def test (words : List String) : Run Nat := do
  let s ← get
  return if condition (fun path => s.files.look (Files.absolute s.directory path)) words then 0 else 1

/-- **Read a line** into variables, one field each; the last one gets the rest of the line. -/
def readLine (names : List String) : Run Nat := do
  let s ← get
  let line := s.unread.takeWhile (· ≠ 10)
  let complete := line.length < s.unread.length
  if ¬ complete ∧ s.inputOpen then throw .waiting
  set { s with unread := s.unread.drop (line.length + 1) }
  let trim := parameter s "IFS" ≠ "" ∨ (s.bindings.all fun b => b.1 ≠ "IFS")
  assign trim (Utf8.decodeLossy line) names
  return if complete then 0 else 1
where
  /-- The character separates fields. -/
  isGap (c : Char) : Bool := c = ' ' ∨ c = '\t'
  /-- The fields of a line go to the names. -/
  assign (trim : Bool) (line : List Char) : List String → Run Unit
    | [] => pure ()
    | [name] =>
      let line := if trim then line.dropWhile isGap else line
      let line := if trim then (line.reverse.dropWhile isGap).reverse else line
      setVariable name (String.ofList line)
    | name :: rest => do
      let line := line.dropWhile isGap
      setVariable name (String.ofList (line.takeWhile fun c => ! isGap c))
      assign trim (line.dropWhile fun c => ! isGap c) rest

/-- Text for the output; a first option leaves out the line feed. -/
def echo (words : List String) : Run Nat := do
  match words with
  | "-n" :: rest => emit (Utf8.encode (" ".intercalate rest))
  | words => emit (Utf8.encode (" ".intercalate words ++ "\n"))
  return 0

/-- The value of an exported assignment becomes a variable. -/
def export_ (words : List String) : Run Nat := do
  for w in words do
    match w.toList.dropWhile (· ≠ '=') with
    | _ :: value => setVariable (String.ofList (w.toList.takeWhile (· ≠ '='))) (String.ofList value)
    | [] => pure ()
  return 0

/-- **A command that is part of the shell or a program**, with its status. -/
def command (name : String) (arguments : List String) : Run Nat := do
  match name, arguments with
  | ":", _ | "true", _ | "sleep", _ => return 0
  | "false", _ => return 1
  | "exit", [] => throw (.exited (← get).status)
  | "exit", n :: _ => throw (.exited (n.toNat?.getD 2 % 256))
  | "printf", template :: rest =>
    emit (format (rest.length + 1) template.toList rest)
    return 0
  | "printf", [] => return 2
  | "echo", words => echo words
  | "cat", [] => concatenate ["-"]
  | "cat", paths =>
    match paths.find? fun p => p.length > 1 && p.toList.head? = some '-' with
    | some option =>
      complain ("cat: unrecognized option '" ++ option ++ "'")
      return 1
    | none => concatenate paths
  | "head", words => front words
  | "ls", [] => listNames "."
  | "ls", path :: _ => listNames path
  | "pwd", _ =>
    emit (Utf8.encode ((← get).directory ++ "\n"))
    return 0
  | "cd", path :: _ =>
    let s ← get
    let target := Files.absolute s.directory path
    if s.files.look target = .directory then
      set { s with directory := target }
      return 0
    else
      complain ("sh: cd: can't cd to " ++ path)
      return 2
  | "test", words => test words
  | "[", words => test words.dropLast
  | "read", words => readLine (words.filter (· ≠ "-r"))
  | "export", words => export_ words
  | "unset", words =>
    modify fun s => { s with bindings := s.bindings.filter fun v => ! words.contains v.1 }
    return 0
  | "shift", _ =>
    modify fun s => { s with arguments := s.arguments.drop 1 }
    return 0
  | "trap", "" :: signals =>
    modify fun s => { s with ignored := s.ignored ++ signals.map signalName }
    return 0
  | "trap", "-" :: signals =>
    modify fun s => { s with ignored := s.ignored.filter fun i => ! signals.contains i }
    return 0
  | "trap", _ => return 0
  | "kill", ["-s", signal, _] => receive (signalName signal)
  | "kill", [signal, _] => receive (signalName (String.ofList (signal.toList.drop 1)))
  | "kill", [_] => receive "TERM"
  | name, _ =>
    complain ("sh: " ++ name ++ ": not found")
    return 127

end CompilerSession.Shell
