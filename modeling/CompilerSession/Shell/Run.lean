import CompilerSession.Shell.Command

/-
Running shell scripts.

The parts of a script run in the order that their structure prescribes, each in the state
that the one before it left. What is run apart, such as the script of a substitution, leaves
only its output and its status behind.
-/

set_option autoImplicit false

namespace CompilerSession.Shell

/-- A redirection takes effect. The status tells whether it could. -/
def redirect (substitute : Substitute) (r : Redirection) : Run Bool := do
  let target ← expandWhole substitute r.target
  let s ← get
  let descriptor (n : Nat) : Sink := if n = 2 then s.errors else s.output
  let into (sink : Sink) : State :=
    if r.descriptor = 2 then { s with errors := sink } else { s with output := sink }
  match r.direction with
  | .duplicate =>
    set (into (match target.toNat? with
      | some n => descriptor n
      | none => .nowhere))
    return true
  | .write =>
    set (into .nowhere)
    return true
  | .read =>
    match ← readFile "sh" target with
    | some bytes =>
      modify fun s => { s with unread := bytes, inputOpen := false }
      return true
    | none => return false

/-- Run with redirections, which end with the run. -/
def withRedirections (substitute : Substitute) (rs : List Redirection) (run : Run Unit) :
    Run Unit := do
  let before ← get
  let reading := rs.any fun r => r.direction = .read
  let mut fine := true
  for r in rs do
    if fine then fine ← redirect substitute r
  if fine then run else modify fun s => { s with status := 1 }
  modify fun s =>
    let s := { s with output := before.output, errors := before.errors }
    if reading then { s with unread := before.unread, inputOpen := before.inputOpen } else s

/-- How a nested script runs: its text, its name and its arguments. -/
abbrev Interpret := List Char → String → List String → Run Nat

/-- A command with all its words, which may be a shell of its own or take the place of this
one. -/
def invoke (interpret : Interpret) : List String → Run Unit
  | [] => pure ()
  | "exec" :: [] => pure ()
  | "exec" :: words => do
    invoke interpret words
    throw (.exited (← get).status)
  | "sh" :: "-c" :: script :: rest => do
    let status ← interpret script.toList (rest.headD "sh") (rest.drop 1)
    modify fun s => { s with status }
  | "eval" :: words => do
    let s ← get
    let status ← interpret (" ".intercalate words).toList s.name s.arguments
    modify fun s => { s with status }
  | name :: arguments => do
    let status ← command name arguments
    modify fun s => { s with status }

/-- **A simple command.** -/
def runSimple (substitute : Substitute) (interpret : Interpret) (c : Simple) : Run Unit := do
  let fields ← c.words.mapM (expand substitute)
  for (name, value) in c.assignments do
    modify fun s => { s with status := 0 }
    setVariable name (← expandWhole substitute value)
  match fields.flatten with
  | [] => withRedirections substitute c.redirections (pure ())
  | ["exec"] =>
    for r in c.redirections do
      let _ ← redirect substitute r
    modify fun s => { s with status := 0 }
  | words => withRedirections substitute c.redirections (invoke interpret words)

/-- **A script runs.** The number bounds how deep scripts are nested. -/
def runScript : Nat → Script → Run Unit
  | 0, _ => throw (.exited 2)
  | n + 1, script => do
    let interpret : Interpret := fun text name arguments => do
      match Script.parse? text with
      | none => return 2
      | some script =>
        runApart do
          modify fun s => { s with name, arguments }
          runScript n script
        return (← get).status
    let substitute : Substitute := fun text =>
      match Script.parse? text with
      | none => throw (.exited 2)
      | some script => collect (runScript n script)
    match script with
    | .empty => pure ()
    | .simple c => runSimple substitute interpret c
    | .group apart body rs =>
      withRedirections substitute rs (if apart then runApart (runScript n body) else runScript n body)
    | .branch condition first second => do
      runScript n condition
      if (← get).status = 0 then runScript n first
      else
        modify fun s => { s with status := 0 }
        runScript n second
    | .loop succeeds condition body => do
      let mut going := true
      let mut status := 0
      for _ in List.range n do
        if going then
          runScript n condition
          if ((← get).status = 0) = succeeds then
            runScript n body
            status := (← get).status
          else going := false
      modify fun s => { s with status }
    | .each name words body => do
      let fields ← match words with
        | some words => (·.flatten) <$> words.mapM (expand substitute)
        | none => pure (← get).arguments
      for field in fields do
        setVariable name field
        runScript n body
    | .negation body => do
      runScript n body
      modify fun s => { s with status := if s.status = 0 then 1 else 0 }
    | .pipe first second => do
      let bytes ← collect (runScript n first)
      withInput bytes (runApart (runScript n second))
    | .both first second => do
      runScript n first
      if (← get).status = 0 then runScript n second
    | .either first second => do
      runScript n first
      if (← get).status ≠ 0 then runScript n second
    | .sequence first second => do
      runScript n first
      runScript n second

end CompilerSession.Shell
