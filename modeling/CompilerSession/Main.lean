import CompilerSession.CommandLine.Program

/-
The program itself.

The files that the options name are read, and the input if lines are to be served. What is
printed follows from these, and then the program ends with the status that it found.
-/

set_option autoImplicit false

namespace CompilerSession.CommandLine

/-- All that is left of an input. -/
partial def readAll (input : IO.FS.Stream) (soFar : ByteArray) : IO ByteArray := do
  let next ← input.read 65536
  if next.isEmpty then return soFar else readAll input (soFar ++ next)

/-- The contents of a file, if it can be read. -/
def contentsOf? (path : String) : IO (Option Utf8.Bytes) := do
  try
    return some (← IO.FS.readBinFile path).toList
  catch _ => return none

/-- The path is that of a directory. -/
def isDirectory (path : String) : IO Bool := do
  try
    discard <| IO.FS.realPath (path ++ "/.")
    return true
  catch _ => return false

/-- What the program finds of the paths that it is told of. -/
def lookAt (directory : String) (paths : List String) : IO Shell.Files := do
  let mut files : Shell.Files := ⟨[], [directory]⟩
  for path in paths do
    let place := Shell.Files.absolute directory path
    match ← contentsOf? path with
    | some bytes => files := { files with entries := files.entries ++ [(place, bytes)] }
    | none =>
      if ← isDirectory path then
        files := { files with directories := files.directories ++ [place] }
  return files

/-- The input, if the options ask for it to be served. -/
def inputFor (parsed : Parsed) : IO Utf8.Bytes := do
  match parsed with
  | .run ⟨_, _, .serve⟩ => return (← readAll (← IO.getStdin) .empty).toList
  | _ => return []

end CompilerSession.CommandLine

open CompilerSession in
/-- **The program.** -/
def main (arguments : List String) : IO UInt32 := do
  let directory := (← IO.currentDir).toString
  let parsed := CommandLine.parse arguments
  let paths := match parsed with
    | .run options => options.paths
    | _ => []
  let outcome := CommandLine.run
    { files := ← CommandLine.lookAt directory paths
      directory
      home := ← IO.getEnv "HOME"
      platform := .linux
      stdin := ← CommandLine.inputFor parsed } arguments
  IO.print outcome.stdout
  IO.eprint outcome.stderr
  return UInt32.ofNat (outcome.status.getD 1)
