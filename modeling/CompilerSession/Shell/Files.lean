import CompilerSession.Text.Utf8

/-
Files as programs find them.

There are the files that a run is given, some directories that every system has, and the
programs that a shell script may call. Nothing is ever written.
-/

set_option autoImplicit false

namespace CompilerSession.Shell

open Utf8 (Bytes)

/-- **The files of a run**, by absolute path, and directories that may hold none. -/
structure Files where
  entries : List (String × Bytes)
  directories : List String
  deriving DecidableEq, Repr, Inhabited

/-- **What stands at a path.** -/
inductive Found where
  | missing
  /-- Something on the way is no directory. -/
  | blocked
  | directory
  | file (bytes : Bytes)
  | program (name : String)
  deriving DecidableEq, Repr

def programs : List String :=
  ["sh", "cat", "head", "printf", "ls", "pwd", "echo", "true", "false", "test", "kill", "sleep"]

def programDirectories : List String := ["/bin", "/usr/bin"]

def standardDirectories : List String :=
  ["/", "/bin", "/usr", "/usr/bin", "/usr/lib", "/usr/local", "/usr/local/bin", "/usr/sbin",
    "/sbin", "/lib", "/etc", "/tmp", "/var", "/var/tmp", "/dev", "/proc", "/sys", "/home", "/root",
    "/opt", "/run", "/mnt", "/srv"]

/-- Files that every system has, with nothing to read in them. -/
def standardFiles : List String :=
  ["/dev/null", "/etc/passwd", "/etc/group", "/etc/hosts", "/etc/hostname"]

namespace Files

def empty : Files := ⟨[], []⟩

/-- The names between the slashes of a path. -/
def segments (s : List Char) : List (List Char) :=
  let rec go (current : List Char) : List Char → List (List Char)
    | [] => [current.reverse]
    | c :: rest => if c = '/' then current.reverse :: go [] rest else go (c :: current) rest
  go [] s

/-- An absolute path from the names on it; one dot stays, two dots go back. -/
def rebuild (names : List (List Char)) : String :=
  let kept := names.foldl (fun (kept : List (List Char)) name =>
    if name = [] ∨ name = ['.'] then kept
    else if name = ['.', '.'] then kept.dropLast
    else kept ++ [name]) []
  if kept.isEmpty then "/"
  else String.ofList (kept.flatMap fun name => '/' :: name)

/-- **The absolute form of a path**, seen from a directory. -/
def absolute (directory path : String) : String :=
  if path.toList.head? = some '/' then rebuild (segments path.toList)
  else rebuild (segments directory.toList ++ segments path.toList)

def isBelow (directory path : String) : Bool :=
  let base := if directory = "/" then "/" else directory ++ "/"
  base.toList.isPrefixOf path.toList && path ≠ directory

/-- Every path that the run is given. -/
def paths (files : Files) : List String :=
  files.entries.map (·.1) ++ files.directories

/-- **What stands at an absolute path.** -/
def look (files : Files) (path : String) : Found :=
  match files.entries.find? (·.1 = path) with
  | some (_, bytes) => .file bytes
  | none =>
    if (standardDirectories ++ files.directories).contains path ∨
        files.paths.any (isBelow path) then
      .directory
    else if standardFiles.contains path then .file []
    else
      match programs.find? fun p => programDirectories.any fun d => d ++ "/" ++ p = path with
      | some p => .program p
      | none =>
        let inTheWay := files.entries.map (·.1) ++ standardFiles ++
          programDirectories.flatMap fun d => programs.map fun p => d ++ "/" ++ p
        if inTheWay.any fun f => isBelow f path then .blocked else .missing

/-- The first name of a path below a directory. -/
def firstName (directory path : String) : String :=
  let base := if directory = "/" then 1 else directory.length + 1
  String.ofList ((path.toList.drop base).takeWhile (· ≠ '/'))

/-- **The names in a directory**, in order. -/
def list (files : Files) (directory : String) : List String :=
  ((files.paths.filter (isBelow directory)).map (firstName directory)).eraseDups.mergeSort
    (· ≤ ·)

end Files

end CompilerSession.Shell
