import CompilerSession.Proofs.Server.Serving

/-
The commands of clients.

A handler reads the command of its line in its first turn, and obeys it in the same turn. After that
it waits for what is under way, if there is anything to wait for, and replies. `Attends` has one
rule for each of these turns. It keeps the functions that the turns are made of, so that a law about
one command looks only at what that command does.
-/

set_option autoImplicit false

namespace CompilerSession.Simulation

open Json (Value)
open Server (Handler)

/-- **The command of a line**, with the id that came with it. -/
def command? (line : String) : Option (Value × Command) :=
  match Envelope.parse line with
  | .error _ => none
  | .ok envelope =>
    match Command.parse envelope.method envelope.params with
    | .error _ => none
    | .ok command => some (envelope.id, command)

/-- **What a handler obeys** in its next turn, if that is the first one. -/
def obeys? (w : World) (n : Nat) : Option (Value × Command) :=
  match w.server.handlers.find? (·.number = n) with
  | some ⟨_, .fresh line⟩ => command? line
  | _ => none

/-- **What a handler does in its turn.** -/
inductive Attends (w : World) (n : Nat) : World → Prop where
  /-- There is no command in the line. -/
  | rejects (line : String) (known : w.server.handlers.find? (·.number = n) = some ⟨n, .fresh line⟩)
      (nothing : command? line = none) (message : String) :
      Attends w n (w.replyAndLeave n (.error (lineId line) (.invalidRequest message)))
  | obeys (id : Value) (command : Command) (asked : obeys? w n = some (id, command)) :
      Attends w n (w.obey n id command)
  /-- What it waited for is over. -/
  | concludes (x : Handler) (known : w.server.handlers.find? (·.number = n) = some x)
      (begun : ∀ line, x.handling ≠ .fresh line) (work : Work) (a : Achievement)
      (job : w.work? (.handler n) = some work) (achieved : w.achievement? work = some a) :
      Attends w n (((w.relieve (.handler n)).forget work).concludeHandler n x.handling a)
  /-- It carries on with what is under way. -/
  | carriesOn (x : Handler) (known : w.server.handlers.find? (·.number = n) = some x)
      (begun : ∀ line, x.handling ≠ .fresh line) (w' : World) (beside : Beside w w') :
      Attends w n w'

section Attends

variable {w w' : World} {n : Nat}

/-- A handler that is fresh obeys the command of its line. -/
theorem obeys?_fresh {line : String}
    (known : w.server.handlers.find? (·.number = n) = some ⟨n, .fresh line⟩) :
    obeys? w n = command? line := by
  simp only [obeys?, known]

/-- A line with a command is read as that command. -/
theorem read_of_command {line : String} {id : Value} {command : Command}
    (read : command? line = some (id, command)) : ∃ envelope, Envelope.parse line = .ok envelope ∧
      envelope.id = id ∧ Command.parse envelope.method envelope.params = .ok command := by
  unfold command? at read
  split at read
  · cases read
  · rename_i envelope parsed
    split at read
    · cases read
    · rename_i parsed'
      obtain ⟨rfl, rfl⟩ := Prod.mk.inj (Option.some.inj read)
      exact ⟨envelope, parsed, rfl, parsed'⟩

/-- A handler that obeys has the line of the command, and its id is the one of the line. -/
theorem known_of_obeys {id : Value} {command : Command} (asked : obeys? w n = some (id, command)) :
    ∃ line, w.server.handlers.find? (·.number = n) = some ⟨n, .fresh line⟩ ∧
      command? line = some (id, command) ∧ lineId line = id := by
  unfold obeys? at asked
  split at asked
  · rename_i m line known
    obtain rfl : m = n := by simpa using List.find?_some known
    obtain ⟨envelope, parsed, own, -⟩ := read_of_command asked
    exact ⟨line, known, asked, by simp only [lineId, parsed, own]⟩
  · cases asked

/-- A line that is a command is obeyed. -/
theorem handleLine_obeys {line : String} {id : Value} {command : Command}
    (read : command? line = some (id, command)) : w.handleLine n line = w.obey n id command := by
  obtain ⟨envelope, parsed, rfl, parsed'⟩ := read_of_command read
  simp only [World.handleLine, parsed, parsed']

/-- A line that is none is answered by an error, with the id that can be read off it. -/
theorem handleLine_rejects {line : String} (nothing : command? line = none) :
    ∃ message, w.handleLine n line =
      w.replyAndLeave n (.error (lineId line) (.invalidRequest message)) := by
  cases parsed : Envelope.parse line with
  | error fault =>
    simp only [World.handleLine, lineId, parsed]
    exact ⟨_, rfl⟩
  | ok envelope =>
    cases parsed' : Command.parse envelope.method envelope.params with
    | error message =>
      simp only [World.handleLine, lineId, parsed, parsed']
      exact ⟨message, rfl⟩
    | ok command =>
      simp only [command?, parsed, parsed'] at nothing
      cases nothing

/-- **A handler goes on by one of the rules.** -/
theorem stepHandler_attends (h : w.stepHandler? n = some w') : Attends w n w' := by
  unfold World.stepHandler? at h
  split at h
  · cases h
  · rename_i x known
    have number : x.number = n := by simpa using List.find?_some known
    split at h
    · rename_i line fresh
      cases h
      replace known : w.server.handlers.find? (·.number = n) = some ⟨n, .fresh line⟩ := by
        rw [known, ← number, ← fresh]
      cases read : command? line with
      | none =>
        obtain ⟨message, rejected⟩ := handleLine_rejects (w := w) (n := n) read
        rw [rejected]
        exact .rejects line known read message
      | some command =>
        rw [handleLine_obeys read]
        exact .obeys _ _ ((obeys?_fresh known).trans read)
    · rename_i begun
      rcases World.stepJob_cases h with ⟨work, a, job, achieved, rfl⟩ | beside
      · exact .concludes x known begun work a job achieved
      · exact .carriesOn x known begun w' beside

/-- A handler that has a command to obey does so in its turn. -/
theorem act_obeys {id : Value} {command : Command} (asked : obeys? w n = some (id, command)) :
    act w (.go (.handler n)) = w.obey n id command := by
  obtain ⟨line, known, read, -⟩ := known_of_obeys asked
  simp only [act, World.step?, World.stepHandler?, known, Option.getD_some, handleLine_obeys read]

/-- A handler that replies is gone, and serving learns of it. -/
theorem replyAndLeave_spec (w : World) (n : Nat) (r : Reply) :
    ∃ ready, w.replyAndLeave n r =
      { w with
        ready
        server := { w.server.write (.reply r) with
          handlers := w.server.handlers.filter (·.number ≠ n) } } :=
  World.wakes_wake (w.onServer fun s =>
    { s.write (.reply r) with handlers := s.handlers.filter (·.number ≠ n) }) .serve

end Attends

end CompilerSession.Simulation
