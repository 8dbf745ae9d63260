import CompilerSession.Proofs.Server.Admission
import CompilerSession.Proofs.Server.Lines

/-
Requests and cancellations find each other by ids.

The id of a display request stands at the front of its line, and the id that a cancellation names is
within its parameters, so that they come to the register on different ways. There they are compared
by their compact texts, and by nothing else. Still they meet if and only if they are equal as JSON
values, however their members are listed: on both ways the members are put in order, and the compact
text of what comes out tells which value it is.

What is not the same on both ways is the room. So many containers may be open in a line, and the
parameters are one more around the id, so that the deepest id that a request can have is one that no
cancellation can name.
-/

set_option autoImplicit false

namespace CompilerSession.Simulation

open Json (Value)

/-! ## Keys -/

/-- **The key under which the request of a line is registered.** -/
def displayKey? (line : String) : Option String :=
  (command? line).bind fun
    | (id, .display _) => some (requestKey id)
    | _ => none

/-- **The key that is looked up for the cancellation of a line.** -/
def cancelKey? (line : String) : Option String :=
  (command? line).bind fun
    | (_, .cancel target) => some (requestKey target)
    | _ => none

/-- **The line asks for display**, with an id. Nothing else in it is in the way. -/
inductive DisplayLine (line : String) : Value → Prop where
  | mk {id : Option Value} {params : Value} {given : DisplayParams}
      (spelled : Envelope.Spelled line id "display" params)
      (room : params.depth < Json.depthLimit)
      (asks : Command.parse "display" params.sorted = .ok (.display given)) :
      DisplayLine line (id.getD .null)

/-- **The line cancels the request of an id.** Nothing else in it is in the way. -/
inductive CancelLine (line : String) : Value → Prop where
  | mk {own : Option Value} {params target : Value}
      (spelled : Envelope.Spelled line own "cancel" params)
      (names : Command.Designates params target)
      (ownRoom : (own.getD .null).depth < Json.depthLimit)
      (room : params.depth = target.depth + 1 ∨ params.depth < Json.depthLimit) :
      CancelLine line target

section Keys

variable {line : String} {a b : Value}

/-- **A line is a command** if neither its id nor its parameters are too deep, and the method and
the parameters make one up. -/
theorem command?_eq_some_iff {id : Option Value} {method : String} {params : Value}
    {command : Command} (spelled : Envelope.Spelled line id method params)
    (parsed : Command.parse method params.sorted = .ok command) {c : Value × Command} :
    command? line = some c ↔
      ((id.getD .null).depth < Json.depthLimit ∧ params.depth < Json.depthLimit) ∧
        c = ((id.getD .null).sorted, command) := by
  obtain ⟨own, asked⟩ := c
  constructor
  · intro read
    obtain ⟨e, envelope, rfl, parsed'⟩ := read_of_command read
    obtain ⟨room, rfl⟩ := spelled.parse_iff.mp envelope
    rw [parsed] at parsed'
    exact ⟨room, Prod.ext rfl (Except.ok.inj parsed').symm⟩
  · rintro ⟨room, same⟩
    obtain ⟨rfl, rfl⟩ := Prod.mk.inj same
    have read := spelled.parse_iff.mpr ⟨room, rfl⟩
    simp only [command?, read, parsed]

/-- A display request is read if there is room for its id. -/
theorem DisplayLine.reads_iff (asks : DisplayLine line a) : ∃ given, ∀ c, command? line = some c ↔
    a.depth < Json.depthLimit ∧ c = (a.sorted, .display given) := by
  obtain @⟨id, params, given, spelled, room, asks⟩ := asks
  refine ⟨given, fun c => ?_⟩
  rw [command?_eq_some_iff spelled asks, and_iff_left room]

/-- A cancellation is read if there is room for the id that it names, within the parameters. -/
theorem CancelLine.reads_iff (cancels : CancelLine line b) : ∃ own, ∀ c, command? line = some c ↔
    b.depth + 1 < Json.depthLimit ∧ c = (own, .cancel b.sorted) := by
  obtain @⟨own, params, _, spelled, names, ownRoom, room⟩ := cancels
  refine ⟨(own.getD .null).sorted, fun c => ?_⟩
  have inside := names.depth_lt
  rw [command?_eq_some_iff spelled (Command.parse_designated names), and_iff_right ownRoom]
  -- the parameters are one container around the id at least, and nothing else in them is deeper
  refine and_congr_left fun _ => ?_
  omega

/-- What is read of a line in one way or not at all has one key. -/
theorem bind_reads_iff {α : Type} {o : Option α} {P : Prop} {c : α}
    (reads : ∀ c', o = some c' ↔ P ∧ c' = c) {f : α → Option String} {own key : String}
    (known : f c = some own) : o.bind f = some key ↔ P ∧ key = own := by
  rw [Option.bind_eq_some_iff]
  constructor
  · rintro ⟨c', read, found⟩
    obtain ⟨holds, rfl⟩ := (reads c').mp read
    rw [known] at found
    exact ⟨holds, (Option.some.inj found).symm⟩
  · rintro ⟨holds, rfl⟩
    exact ⟨c, (reads c).mpr ⟨holds, rfl⟩, known⟩

/-- A display line has a key if its id is not too deep. -/
theorem DisplayLine.key_iff (asks : DisplayLine line a) {key : String} :
    displayKey? line = some key ↔ a.depth < Json.depthLimit ∧ key = requestKey a.sorted := by
  obtain ⟨given, reads⟩ := asks.reads_iff
  exact bind_reads_iff reads rfl

/-- A cancellation names a key if the id, one level further down, is not too deep. -/
theorem CancelLine.key_iff (cancels : CancelLine line b) {key : String} :
    cancelKey? line = some key ↔ b.depth + 1 < Json.depthLimit ∧ key = requestKey b.sorted := by
  obtain ⟨own, reads⟩ := cancels.reads_iff
  exact bind_reads_iff reads rfl

/-- **Ids with one key are equal.** The key is the text of the id with its members in order. -/
theorem requestKey_sorted_iff (whole : a.Whole) (whole' : b.Whole) :
    requestKey a.sorted = requestKey b.sorted ↔ a.Equal b := by
  rw [Json.equal_iff_sorted_eq]
  constructor
  · intro same
    exact Json.compact_injective (Json.whole_sorted a whole) (Json.whole_sorted b whole') same
  · exact congrArg requestKey

end Keys

/-! ## Turns of handlers -/

section Turns

variable {platform : Platform} {e : (machine platform).Event}

/-- **The line that a handler takes up**, with the handler. -/
def takenUp (e : (machine platform).Event) : Option (Nat × String) :=
  match e.action with
  | .go (.handler n) =>
    match e.before.server.handlers.find? (·.number = n) with
    | some ⟨_, .fresh line⟩ => some (n, line)
    | _ => none
  | _ => none

section Event

variable {n : Nat} {line : String} (taken : takenUp e = some (n, line))
include taken

/-- The handler of a line obeys the command of the line. -/
theorem asked_of_takenUp :
    e.action = .go (.handler n) ∧ asked e = (command? line).map (n, ·) := by
  unfold takenUp at taken
  split at taken
  · rename_i m action
    split at taken
    · rename_i number line' known
      obtain ⟨rfl, rfl⟩ := Prod.mk.inj (Option.some.inj taken)
      simp only [asked, obeys?, action, known]
      exact ⟨trivial, trivial⟩
    · cases taken
  · cases taken

/-- The handler of a line names the key that the line names. -/
theorem names_of_takenUp : names e = cancelKey? line := by
  unfold names cancelKey?
  rw [(asked_of_takenUp taken).2]
  cases command? line with
  | none => rfl
  | some c =>
    obtain ⟨id, command⟩ := c
    cases command <;> rfl

/-- If it is admitted, its key is that of the line. -/
theorem admits_of_takenUp {x : Nat × Value} (admitted : admits e = some x) :
    x.1 = n ∧ displayKey? line = some (requestKey x.2) := by
  unfold admits at admitted
  unfold displayKey?
  rw [(asked_of_takenUp taken).2] at admitted
  cases read : command? line with
  | none =>
    rw [read] at admitted
    cases admitted
  | some c =>
    obtain ⟨id, command⟩ := c
    rw [read, Option.map_some] at admitted
    cases command with
    | display params =>
      obtain ⟨-, same⟩ := Option.ite_none_right_eq_some.mp admitted
      obtain rfl := Option.some.inj same
      exact ⟨rfl, rfl⟩
    | _ => cases admitted

end Event

/-- **What a handler's turn means for a request under way**: its token fires if the line that the
handler takes up names its key, and else it is left as it is. -/
theorem turn_fires {as : List Action} {past mid later : List (machine platform).Event}
    {d e : (machine platform).Event} {m n : Nat} {id : Value} {line : String}
    (cut : (machine platform).history as = past ++ d :: (mid ++ e :: later))
    (admitted : admits d = some (m, id))
    (due : m ∉ (answered (past ++ d :: mid)).map (·.1)) (taken : takenUp e = some (n, line)) :
    requestKey id ∈ inUse (past ++ d :: mid) ∧ Registering (past ++ d :: mid) e ∧
      ∃ k t, e.before.work? (.handler m) = some (.submission k) ∧
        (k, t) ∈ e.before.submissions.map Submission.ticket ∧
        (requestKey id, t) ∈ e.before.registry.entries ∧
        (t ∈ e.after.registry.tokens.fired ↔
          t ∈ e.before.registry.tokens.fired ∨ cancelKey? line = some (requestKey id)) := by
  have there : (m, id) ∈ underWay (past ++ d :: mid) := by
    refine List.mem_filter.mpr ⟨List.mem_filterMap.mpr ⟨d, ?_, admitted⟩, decide_eq_true due⟩
    exact List.mem_append_right _ List.mem_cons_self
  obtain ⟨ys, zs, -, -, -, -, same, before⟩ := (machine platform).history_split_two cut
  have tended : Tended (past ++ d :: mid) e.before.desk := by
    rw [same, before]
    exact run_tended _
  have ledger : Ledger (past ++ d :: mid) e.before.server := by
    rw [same, before]
    exact run_ledger platform _
  obtain ⟨k, t, job, ticket, entry⟩ := tended.filed.own _ (tended.shown there)
  obtain ⟨deed, does⟩ := event_does ledger tended.filed
  have register : e.after.registry = deed.register e.before.registry := does.files.register
  have action : e.action = .go (.handler n) := (asked_of_takenUp taken).1
  -- a handler does not bring serving to its end, so that only a cancellation can fire the token
  have on : ¬ Stops e.before e.after := not_stops (action ▸ handler_passes e.before n).stage
  have fires : t ∈ (deed.register e.before.registry).tokens.fired ↔
      t ∈ e.before.registry.tokens.fired ∨ deed.cancelled = some (requestKey id) ∨ deed = .stops :=
    deed.fires tended.filed.register entry
  rw [← register, does.cancelled, names_of_takenUp taken, does.stops, or_iff_left on] at fires
  exact ⟨List.mem_map_of_mem there, registering ledger tended, k, t, job, ticket, entry,
    fires⟩

end Turns

/-! ## Lines with an id -/

/-- A display request with an id. -/
def displayLine (id : Value) : String :=
  (Value.object [("jsonrpc", .text "2.0"), ("id", id), ("method", .text "display"),
    ("params", .object [("args", .texts ["wait"])])]).compact

/-- A cancellation of an id, written as a list. -/
def cancelLine (target : Value) : String :=
  (Value.array [.number (.integer 2), .text "cancel", .object [("request_id", target)]]).compact

/-- The line that is written for an id asks for a display with this id. -/
theorem displayLine_asks {id : Value} (whole : id.Whole) : DisplayLine (displayLine id) id := by
  have wholes : (Value.object [("jsonrpc", .text "2.0"), ("id", id), ("method", .text "display"),
      ("params", .object [("args", .texts ["wait"])])]).Whole :=
    ⟨trivial, whole, trivial, ⟨Value.texts_whole _, trivial⟩, trivial⟩
  have foreign : ∀ m ∈ [((some "jsonrpc" : Json.Name), Json.Tree.text "2.0")],
      ∃ key, m.1 = some key ∧ key ∉ ["id", "method", "params"] ∧ m.2.isSound = true := by
    intro m member
    obtain rfl := List.mem_singleton.mp member
    exact ⟨_, rfl, by decide, rfl⟩
  have spelled : Envelope.Spelled (displayLine id) (some id) "display"
      (.object [("args", .texts ["wait"])]) := by
    refine .object (Json.ofText_compact wholes) ?_ foreign
    exact .refl _
  exact .mk spelled (by decide) rfl

/-- The line that is written for a target cancels it. -/
theorem cancelLine_cancels {target : Value} (whole : target.Whole) :
    CancelLine (cancelLine target) target := by
  have wholes : (Value.array [.number (.integer 2), .text "cancel",
      .object [("request_id", target)]]).Whole :=
    ⟨⟨by decide, by decide⟩, trivial, ⟨whole, trivial⟩, trivial⟩
  have names : Command.Designates (.object [("request_id", target)]) target :=
    .member (.swap _ _ _) rfl rfl
  refine .mk (.list (Json.ofText_compact wholes)) names (by decide) (.inl ?_)
  exact congrArg (· + 1) (Nat.max_zero target.depth)

/-- An id as the client writes it first, and as the client writes it in the cancellation. -/
def writtenId : Value :=
  .object [("b", .number (.integer (-1))), ("a", .array [.text "\u00e9\n", .null])]

def recalledId : Value :=
  .object [("a", .array [.text "\u00e9\n", .null]), ("b", .number (.integer (-1)))]

/-- Both lines arrive, and are given to handlers. -/
def recalledRun : List Action :=
  startedRun ++ [typed (displayLine writtenId), typed (cancelLine recalledId)] ++ again 2 .serve

/-- Lists within each other. -/
def nested : Nat → Value
  | 0 => .array []
  | n + 1 => .array [nested n]

/-- A nest of arrays is as deep as it was made. -/
theorem depth_nested (n : Nat) : (nested n).depth = n + 1 := by
  induction n with
  | zero => rfl
  | succ n ih => exact congrArg (· + 1) ((Nat.max_zero _).trans ih)

theorem whole_nested (n : Nat) : (nested n).Whole := by
  induction n with
  | zero => trivial
  | succ n ih => exact ⟨ih, trivial⟩

/-! ## The main statement -/

/-- **A cancellation reaches the request of an equal id, and no other.** For all ids without
floating point, whatever is in them and however it is listed:

* The id of a display request is read if it opens fewer containers than a line may, and the id that
  a cancellation names if there is room for one more around it.
* The keys that are computed from the two lines are the same if and only if the ids are equal.
* In every run, while the request of the first line is under way, it has a token of its own, and
  the turn in which the second line is taken up fires this token if and only if the id is read and
  equal. If it is read the client is told whether there was a request, and there was one if the ids
  are equal. -/
theorem cancellations_reach_equal_ids {line line' : String} {a b : Value}
    (display : DisplayLine line a) (cancel : CancelLine line' b) (whole : a.Whole)
    (whole' : b.Whole) :
    ((displayKey? line).isSome = true ↔ a.depth < Json.depthLimit) ∧
    ((cancelKey? line').isSome = true ↔ b.depth + 1 < Json.depthLimit) ∧
    (∀ key key', displayKey? line = some key → cancelKey? line' = some key' →
      (key = key' ↔ a.Equal b)) ∧
    ∀ (platform : Platform) (as : List Action) (past mid later : List (machine platform).Event)
      (d e : (machine platform).Event) (m n : Nat),
      (machine platform).history as = past ++ d :: (mid ++ e :: later) →
      takenUp d = some (m, line) → (admits d).isSome = true →
      m ∉ (answered (past ++ d :: mid)).map (·.1) → takenUp e = some (n, line') →
      (∃ key k t, displayKey? line = some key ∧ (key, t) ∈ e.before.registry.entries ∧
        e.before.work? (.handler m) = some (.submission k) ∧
        (k, t) ∈ e.before.submissions.map Submission.ticket ∧
        (t ∈ e.after.registry.tokens.fired ↔ t ∈ e.before.registry.tokens.fired ∨
          (b.depth + 1 < Json.depthLimit ∧ a.Equal b))) ∧
      (b.depth + 1 < Json.depthLimit → ∃ own found,
        e.outputs = [.reply (.ok own (Server.cancelValue found))] ∧
          (a.Equal b → found = true)) := by
  have keys := requestKey_sorted_iff whole whole'
  refine ⟨?_, ?_, ?_, ?_⟩
  · rw [Option.isSome_iff_exists]
    simp only [display.key_iff, exists_and_left, exists_eq, and_true]
  · rw [Option.isSome_iff_exists]
    simp only [cancel.key_iff, exists_and_left, exists_eq, and_true]
  · intro key key' first second
    obtain ⟨-, rfl⟩ := display.key_iff.mp first
    obtain ⟨-, rfl⟩ := cancel.key_iff.mp second
    exact keys
  · intro platform as past mid later d e m n cut taken admitted due taken'
    obtain ⟨⟨m', id⟩, admitted⟩ := Option.isSome_iff_exists.mp admitted
    obtain ⟨rfl, registered⟩ := admits_of_takenUp taken admitted
    obtain ⟨-, key⟩ := display.key_iff.mp registered
    obtain ⟨used, law, k, t, job, ticket, entry, fires⟩ := turn_fires cut admitted due taken'
    rw [key] at used fires
    -- first what becomes of the token, then what the client is told
    constructor
    · refine ⟨_, k, t, registered, entry, job, ticket, fires.trans (or_congr_right ?_)⟩
      rw [cancel.key_iff, keys]
    · intro room
      obtain ⟨own, reads⟩ := cancel.reads_iff
      have asks : asked e = some (n, own, .cancel b.sorted) := by
        rw [(asked_of_takenUp taken').2, (reads _).mpr ⟨room, rfl⟩, Option.map_some]
      obtain ⟨told, -, -⟩ := law.cancelled n own b.sorted asks
      refine ⟨own, _, told, fun equal => ?_⟩
      rw [keys.mpr equal] at used
      exact decide_eq_true used

/-- In this run an id is written in one way when the display is asked for, and in another way when
it is cancelled. -/
theorem recalledRun_reaches_request :
    writtenId.Equal recalledId ∧
      displayKey? (displayLine writtenId) = cancelKey? (cancelLine recalledId) ∧
      ∃ key k t, displayKey? (displayLine writtenId) = some key ∧
        (key, t) ∈ ((machine .linux).run (recalledRun ++ [.go (.handler 0)])).registry.entries ∧
        ((machine .linux).run (recalledRun ++ [.go (.handler 0)])).work? (.handler 0) =
          some (.submission k) ∧
        t ∈ ((machine .linux).run (recalledRun ++ [.go (.handler 0)] ++
          [.go (.handler 1)])).registry.tokens.fired := by
  have number : (Value.number (.integer (-1))).Whole := ⟨by decide, by decide⟩
  have whole : writtenId.Whole := ⟨number, ⟨trivial, trivial, trivial⟩, trivial⟩
  have whole' : recalledId.Whole := ⟨⟨trivial, trivial, trivial⟩, number, trivial⟩
  have equal : writtenId.Equal recalledId := Json.equal_iff_sorted_eq.mpr rfl
  obtain ⟨first, second, same, runs⟩ := cancellations_reach_equal_ids (displayLine_asks whole)
    (cancelLine_cancels whole') whole whole'
  obtain ⟨key, own⟩ := Option.isSome_iff_exists.mp (first.mpr (by decide))
  obtain ⟨key', named⟩ := Option.isSome_iff_exists.mp (second.mpr (by decide))
  have meet : @takenUp .linux ⟨(machine .linux).run recalledRun, .go (.handler 0)⟩ =
        some (0, displayLine writtenId) ∧
      (@admits .linux ⟨(machine .linux).run recalledRun, .go (.handler 0)⟩).isSome = true ∧
      0 ∉ (answered ((machine .linux).history (recalledRun ++ [.go (.handler 0)]))).map (·.1) ∧
      @takenUp .linux ⟨(machine .linux).run (recalledRun ++ [.go (.handler 0)]), .go (.handler 1)⟩ =
        some (1, cancelLine recalledId) := by
    decide +kernel
  obtain ⟨taken, admitted, due, taken'⟩ := meet
  rw [Machine.history_concat] at due
  obtain ⟨⟨_, k, t, registered, entry, job, -, fires⟩, -⟩ := runs .linux
    (recalledRun ++ [.go (.handler 0)] ++ [.go (.handler 1)]) _ [] [] _ _ 0 1
    (by rw [Machine.history_concat, Machine.history_concat, List.append_assoc]; rfl)
    taken admitted due taken'
  refine ⟨equal, ?_, _, k, t, registered, entry, job, ?_⟩
  · rw [own, named, (same key key' own named).mpr equal]
  · rw [Machine.run_concat]
    exact fires.mpr (.inr ⟨by decide, equal⟩)

/-- The deepest id that a request can have is one that no cancellation can name: the request has a
key, and the cancellation of the same id has none. -/
theorem deepest_id_cannot_be_named :
    DisplayLine (displayLine (nested 125)) (nested 125) ∧
      CancelLine (cancelLine (nested 125)) (nested 125) ∧ (nested 125).Whole ∧
      (nested 125).Equal (nested 125) ∧
      displayKey? (displayLine (nested 125)) = some (requestKey (nested 125).sorted) ∧
      cancelKey? (cancelLine (nested 125)) = none := by
  have asks := displayLine_asks (whole_nested 125)
  have cancels := cancelLine_cancels (whole_nested 125)
  refine ⟨asks, cancels, whole_nested 125, Json.equal_iff_sorted_eq.mpr rfl, ?_, ?_⟩
  · rw [asks.key_iff, depth_nested]
    exact ⟨by decide, rfl⟩
  · refine Option.eq_none_iff_forall_ne_some.mpr fun key named => ?_
    have room := (cancels.key_iff.mp named).1
    rw [depth_nested] at room
    exact absurd room (by decide)

end CompilerSession.Simulation
