import CompilerSession.Proofs.Wire.Requests
import CompilerSession.Shell.Child

/-
How answers are read off the stream of a process.

Nothing separates the answers of a process but their lengths, so a call that took a byte too few or
too many would spoil all calls behind it. A call takes its frame and no more (`callOn_framed`), and
so the calls go through the frames one after the other, whatever stands behind them
(`callsOn_framed`). A stream is whole frames first, and then it ends, is cut off within a frame, or
goes on with a length that is too large (`exists_frames`); a call that comes there gets a fault and
no part of an answer.

The calls of a process find more on its stream from one to the next, because it writes as it is
asked. A frame that is whole stays what it is when more is written behind it
(`nextFrame_append`), so these calls get the answers that they would get if all of the stream were
there at once (`Child.call_eq_callOn`).
-/

set_option autoImplicit false

namespace CompilerSession

open Utf8 (Bytes encode)

namespace Wire

/-! ## Calls on a stream -/

/-- What a call asks for: arguments, and file contents if there are any. -/
abbrev Query := List String × Option String

/-- The frame of a payload. -/
def framed (payload : Bytes) : Bytes :=
  littleEndian payload.length ++ payload

/-- What a call leaves of a stream that will get no more bytes. One that ends too early is read to
its end, and of a frame that is too long only the length is read. -/
def leftover (stream : Bytes) : Bytes :=
  match nextFrame stream with
  | .payload _ rest => rest
  | .incomplete => []
  | .oversized _ rest => rest

/-- **One call** on a stream that will get no more bytes: its answer, and what it leaves of the
stream. A request without a frame is not written, and nothing is read for it. -/
def callOn (query : Query) (stream : Bytes) : Except ChannelFault Response × Bytes :=
  match encodeRequest query.1 query.2 with
  | .error fault => (.error fault, stream)
  | .ok _ => ((readResponse stream).map Prod.fst, leftover stream)

/-- **Calls one after the other.** -/
def callsOn : List Query → Bytes → List (Except ChannelFault Response) × Bytes
  | [], stream => ([], stream)
  | query :: queries, stream =>
    let first := callOn query stream
    let others := callsOn queries first.2
    (first.1 :: others.1, others.2)

/-- The request fits its frame. -/
def Sendable (query : Query) : Prop :=
  ∃ request, encodeRequest query.1 query.2 = .ok request

/-- A query can be sent if its length fits. -/
theorem sendable_iff {query : Query} :
    Sendable query ↔ requestLength query.1 query.2 < UInt32.size := by
  rw [← length_requestPayload]
  constructor
  · rintro ⟨request, sent⟩
    exact (encodeRequest_eq_ok_iff.mp sent).1
  · intro fits
    exact ⟨_, encodeRequest_eq_ok_iff.mpr ⟨fits, rfl⟩⟩

instance (query : Query) : Decidable (Sendable query) :=
  decidable_of_iff _ sendable_iff.symm

/-- **The stream ends within a frame**: inside of its length, or before its payload is complete. -/
def Cut (stream : Bytes) : Prop :=
  stream.length < 4 ∨
    ∃ n part, n ≤ maxResponseLength ∧ part.length < n ∧ stream = littleEndian n ++ part

/-! ## The front of a stream -/

/-- **What is found behind a length.** -/
theorem nextFrame_littleEndian {n : Nat} (fits : n < UInt32.size) (rest : Bytes) :
    nextFrame (littleEndian n ++ rest) =
      if maxResponseLength < n then .oversized n rest
      else if n ≤ rest.length then .payload (rest.take n) (rest.drop n)
      else .incomplete := by
  have length := ofLittleEndian_littleEndian fits
  rw [ofLittleEndian] at length
  simp only [littleEndian, List.cons_append, List.nil_append, nextFrame, length]

/-- With fewer than four bytes there is no frame. -/
theorem nextFrame_short {stream : Bytes} (short : stream.length < 4) :
    nextFrame stream = .incomplete := by
  match stream, short with
  | [], _ | [_], _ | [_, _], _ | [_, _, _], _ => rfl

/-- Every four bytes are the length of some payload. -/
theorem littleEndian_ofLittleEndian (b₀ b₁ b₂ b₃ : UInt8) :
    littleEndian (ofLittleEndian b₀ b₁ b₂ b₃) = [b₀, b₁, b₂, b₃] ∧
      ofLittleEndian b₀ b₁ b₂ b₃ < UInt32.size := by
  have h₀ := b₀.toNat_lt
  have h₁ := b₁.toNat_lt
  have h₂ := b₂.toNat_lt
  have h₃ := b₃.toNat_lt
  have size : UInt32.size = 4294967296 := rfl
  constructor
  · simp only [littleEndian, ofLittleEndian, List.cons.injEq, and_true, ← UInt8.toNat_inj,
      UInt8.toNat_ofNat']
    omega
  · rw [ofLittleEndian, size]
    omega

/-- A stream is too short for a length, or it begins with one. -/
theorem short_or_length (stream : Bytes) :
    stream.length < 4 ∨ ∃ n rest, n < UInt32.size ∧ stream = littleEndian n ++ rest := by
  match stream with
  | [] | [_] | [_, _] | [_, _, _] => exact .inl (by simp)
  | b₀ :: b₁ :: b₂ :: b₃ :: rest =>
    obtain ⟨same, fits⟩ := littleEndian_ofLittleEndian b₀ b₁ b₂ b₃
    exact .inr ⟨_, rest, fits, by rw [same]; rfl⟩

theorem maxResponseLength_lt : maxResponseLength < UInt32.size := by decide

theorem oversizedFault_eq (n : Nat) :
    oversizedFault n = .protocol ("response of " ++ n.repr ++ " bytes exceeds 67108864") := by
  have limit : " bytes exceeds " ++ maxResponseLength.repr = " bytes exceeds 67108864" := by decide
  rw [oversizedFault, String.append_assoc, limit]

/-- **A frame that is found is found again** when more bytes stand behind it. -/
theorem nextFrame_append {stream : Bytes} (more : Bytes) :
    (∀ {payload rest}, nextFrame stream = .payload payload rest →
      nextFrame (stream ++ more) = .payload payload (rest ++ more)) ∧
    ∀ {n rest}, nextFrame stream = .oversized n rest →
      nextFrame (stream ++ more) = .oversized n (rest ++ more) := by
  rcases short_or_length stream with short | ⟨n, behind, fits, rfl⟩
  · rw [nextFrame_short short]
    exact ⟨nofun, nofun⟩
  · rw [List.append_assoc, nextFrame_littleEndian fits, nextFrame_littleEndian fits]
    by_cases beyond : maxResponseLength < n
    · rw [if_pos beyond, if_pos beyond]
      refine ⟨nofun, fun h => ?_⟩
      obtain ⟨rfl, rfl⟩ := Frame.oversized.inj h
      rfl
    · rw [if_neg beyond, if_neg beyond]
      by_cases whole : n ≤ behind.length
      · have still : n ≤ (behind ++ more).length := by
          rw [List.length_append]
          omega
        rw [if_pos whole, if_pos still]
        refine ⟨fun h => ?_, nofun⟩
        obtain ⟨rfl, rfl⟩ := Frame.payload.inj h
        rw [List.take_append_of_le_length whole, List.drop_append_of_le_length whole]
      · rw [if_neg whole]
        exact ⟨nofun, nofun⟩

/-- How much of a stream stands before what is left behind its frame. -/
theorem drop_of_nextFrame {stream : Bytes} :
    (∀ {payload rest}, nextFrame stream = .payload payload rest →
      stream.drop (4 + payload.length) = rest) ∧
    ∀ {n rest}, nextFrame stream = .oversized n rest → stream.drop 4 = rest := by
  rcases short_or_length stream with short | ⟨n, behind, fits, rfl⟩
  · rw [nextFrame_short short]
    exact ⟨nofun, nofun⟩
  · have header : (littleEndian n).length = 4 := rfl
    rw [nextFrame_littleEndian fits]
    split
    · refine ⟨nofun, fun h => ?_⟩
      obtain ⟨-, rfl⟩ := Frame.oversized.inj h
      rw [← header, List.drop_left]
    · split
      · rename_i whole
        refine ⟨fun h => ?_, nofun⟩
        obtain ⟨rfl, rfl⟩ := Frame.payload.inj h
        rw [List.length_take, Nat.min_eq_left whole, ← header, List.drop_append]
        simp
      · exact ⟨nofun, nofun⟩

/-! ## One call -/

section Call

variable {query : Query} (sendable : Sendable query)

include sendable

/-- **A call reads one frame**, and what comes of it depends on the frame. -/
theorem callOn_eq (stream : Bytes) :
    callOn query stream = match nextFrame stream with
      | .payload payload rest => (.ok (decodeResponse payload), rest)
      | .incomplete => (.error earlyEndFault, [])
      | .oversized n rest => (.error (oversizedFault n), rest) := by
  obtain ⟨request, sent⟩ := sendable
  rw [callOn, sent]
  dsimp only
  rw [readResponse, leftover]
  cases nextFrame stream <;> rfl

/-- **A call takes its frame and no more.** -/
theorem callOn_framed {payload : Bytes} (within : payload.length ≤ maxResponseLength)
    (rest : Bytes) :
    callOn query (framed payload ++ rest) = (.ok (decodeResponse payload), rest) := by
  have fits := Nat.lt_of_le_of_lt within maxResponseLength_lt
  rw [callOn_eq sendable, framed, List.append_assoc, nextFrame_littleEndian fits,
    if_neg (Nat.not_lt.mpr within), if_pos (by simp)]
  simp

/-- **A frame that is cut off has no answer**, and nothing is left behind it. -/
theorem callOn_cut {stream : Bytes} (cut : Cut stream) :
    callOn query stream = (.error (.closed "early eof"), []) := by
  have incomplete : nextFrame stream = .incomplete := by
    rcases cut with short | ⟨n, part, within, less, rfl⟩
    · exact nextFrame_short short
    · have fits := Nat.lt_of_le_of_lt within maxResponseLength_lt
      rw [nextFrame_littleEndian fits, if_neg (Nat.not_lt.mpr within),
        if_neg (Nat.not_le.mpr less)]
  rw [callOn_eq sendable, incomplete]
  rfl

/-- **Of a frame that is too long, only the length is read.** -/
theorem callOn_beyond {n : Nat} (beyond : maxResponseLength < n) (fits : n < UInt32.size)
    (rest : Bytes) :
    callOn query (littleEndian n ++ rest) = (.error (oversizedFault n), rest) := by
  rw [callOn_eq sendable, nextFrame_littleEndian fits, if_pos beyond]

end Call

/-! ## Calls one after the other -/

/-- More calls read on where the first ones stopped. -/
theorem callsOn_append (queries more : List Query) (stream : Bytes) :
    callsOn (queries ++ more) stream =
      ((callsOn queries stream).1 ++ (callsOn more (callsOn queries stream).2).1,
        (callsOn more (callsOn queries stream).2).2) := by
  induction queries generalizing stream with
  | nil => rfl
  | cons query queries ih =>
    rw [List.cons_append, callsOn, ih]
    rfl

/-- **The calls go through the frames one after the other.** -/
theorem callsOn_framed {queries : List Query} (sendable : ∀ q ∈ queries, Sendable q)
    {payloads : List Bytes} (within : ∀ p ∈ payloads, p.length ≤ maxResponseLength)
    (each : queries.length = payloads.length) (tail : Bytes) :
    callsOn queries (payloads.flatMap framed ++ tail) =
      (payloads.map fun p => .ok (decodeResponse p), tail) := by
  induction queries generalizing payloads with
  | nil =>
    obtain rfl : payloads = [] := List.eq_nil_of_length_eq_zero each.symm
    rfl
  | cons query queries ih =>
    cases payloads with
    | nil => cases each
    | cons payload payloads =>
      obtain ⟨first, sendable⟩ := List.forall_mem_cons.mp sendable
      obtain ⟨short, within⟩ := List.forall_mem_cons.mp within
      rw [List.flatMap_cons, List.append_assoc, callsOn, callOn_framed first short]
      dsimp only
      rw [ih sendable within (Nat.succ.inj each)]
      rfl

/-- On a stream that is cut all calls find it closed. -/
theorem callsOn_cut {queries : List Query} (sendable : ∀ q ∈ queries, Sendable q) {stream : Bytes}
    (cut : Cut stream) :
    (callsOn queries stream).1 = queries.map fun _ => .error (.closed "early eof") := by
  induction queries generalizing stream with
  | nil => rfl
  | cons query queries ih =>
    obtain ⟨first, sendable⟩ := List.forall_mem_cons.mp sendable
    rw [callsOn, callOn_cut first cut]
    dsimp only
    -- nothing is left of the stream, so it is cut off for the other calls as well
    rw [ih sendable (.inl (by decide))]
    rfl

/-- **What a stream is made of**: whole frames, and then an end, or a length that is too large. -/
theorem exists_frames (stream : Bytes) :
    ∃ (payloads : List Bytes) (tail : Bytes), stream = payloads.flatMap framed ++ tail ∧
      (∀ p ∈ payloads, p.length ≤ maxResponseLength) ∧
      (Cut tail ∨ ∃ n rest, maxResponseLength < n ∧ n < UInt32.size ∧
        tail = littleEndian n ++ rest) := by
  -- by induction on the length: every frame takes its header from the stream
  induction size : stream.length using Nat.strongRecOn generalizing stream with
  | ind size' ih =>
    subst size
    rcases short_or_length stream with short | ⟨n, behind, fits, rfl⟩
    · exact ⟨[], stream, rfl, nofun, .inl (.inl short)⟩
    · by_cases beyond : maxResponseLength < n
      · exact ⟨[], _, rfl, nofun, .inr ⟨n, behind, beyond, fits, rfl⟩⟩
      · have within := Nat.le_of_not_lt beyond
        by_cases whole : n ≤ behind.length
        · have less : (behind.drop n).length < (littleEndian n ++ behind).length := by
            have header : (littleEndian n).length = 4 := rfl
            rw [List.length_append, List.length_drop, header]
            omega
          obtain ⟨payloads, tail, same, short, ends⟩ := ih _ less (behind.drop n) rfl
          have length : (behind.take n).length = n := by
            rw [List.length_take, Nat.min_eq_left whole]
          refine ⟨behind.take n :: payloads, tail, ?_, ?_, ends⟩
          · rw [List.flatMap_cons, List.append_assoc, ← same, framed, length, List.append_assoc,
              List.take_append_drop]
          · exact List.forall_mem_cons.mpr ⟨by rwa [length], short⟩
        · exact ⟨[], _, rfl, nofun, .inl (.inr ⟨n, behind, within, Nat.lt_of_not_le whole, rfl⟩)⟩

end Wire

/-! ## Calls of a process -/

namespace Shell.Child

open Wire (Query Sendable callOn callsOn)

/-- **The answers of a process** to calls one after the other; none where a call waits for ever. -/
def calls : Child → List Query → List (Option (Except ChannelFault Response))
  | _, [] => []
  | c, query :: queries => (c.call query.1 query.2).1 :: calls (c.call query.1 query.2).2 queries

/-- **The stream is what the process writes** while it is asked. It runs when a request is written;
by then it has written the front of the stream, and all of it if it has ended; and the call does
not wait for ever. -/
inductive Speaks (stream : Bytes) : Child → List Query → Prop where
  | silent (c : Child) : Speaks stream c []
  | asked {c told : Child} {query : Query} {queries : List Query} {request : Bytes} :
      Wire.encodeRequest query.1 query.2 = .ok request → c.exit? = none →
      told = { c with input := c.input ++ request } → told.output <+: stream →
      (told.exit?.isSome → told.output = stream) → (c.call query.1 query.2).1.isSome →
      Speaks stream (c.call query.1 query.2).2 queries → Speaks stream c (query :: queries)

/-- **A call of a process is a call on its stream.** Unless the process has ended, the call leaves
what is behind the bytes that have been taken. -/
theorem call_eq_callOn {stream request : Bytes} {c told : Child} {query : Query}
    (sent : Wire.encodeRequest query.1 query.2 = .ok request) (running : c.exit? = none)
    (asked : told = { c with input := c.input ++ request }) (front : told.output <+: stream)
    (ended : told.exit?.isSome → told.output = stream)
    (returns : (c.call query.1 query.2).1.isSome) :
    (c.call query.1 query.2).1 = some (callOn query (stream.drop c.taken)).1 ∧
      ((c.call query.1 query.2).2.exit?.isSome ∨
        (callOn query (stream.drop c.taken)).2 =
          stream.drop (c.call query.1 query.2).2.taken) := by
  obtain ⟨more, rfl⟩ := front
  -- a frame in what the process has written is a frame of the stream, at the same place
  have enough (found : Wire.nextFrame (told.output.drop c.taken) ≠ .incomplete) :
      (told.output ++ more).drop c.taken = told.output.drop c.taken ++ more := by
    rw [List.drop_append_of_le_length]
    by_contra short
    have nothing : told.output.drop c.taken = [] := List.drop_eq_nil_of_le (by omega)
    exact found (by rw [nothing]; rfl)
  rw [Wire.callOn_eq ⟨request, sent⟩]
  cases next : Wire.nextFrame (told.output.drop c.taken) with
  | payload payload rest =>
    have called : c.call query.1 query.2 = (some (.ok (Wire.decodeResponse payload)),
        { told with taken := c.taken + 4 + payload.length }) := by
      rw [call, sent]
      dsimp only
      rw [running, ← asked, next, asked]
      rfl
    have same := enough (by rw [next]; nofun)
    have again := (Wire.nextFrame_append more).1 next
    have behind := (Wire.drop_of_nextFrame).1 again
    rw [called, same, again]
    refine ⟨rfl, .inr ?_⟩
    dsimp only
    rw [Nat.add_assoc, ← List.drop_drop, same, behind]
  | oversized n rest =>
    have called : c.call query.1 query.2 =
        (some (.error (Wire.oversizedFault n)), { told with taken := c.taken + 4 }) := by
      rw [call, sent]
      dsimp only
      rw [running, ← asked, next, asked]
      rfl
    have same := enough (by rw [next]; nofun)
    have again := (Wire.nextFrame_append more).2 next
    have behind := (Wire.drop_of_nextFrame).2 again
    rw [called, same, again]
    refine ⟨rfl, .inr ?_⟩
    dsimp only
    rw [← List.drop_drop, same, behind]
  | incomplete =>
    have called : c.call query.1 query.2 =
        if told.exit?.isSome then (some (.error Wire.earlyEndFault), told) else (none, told) := by
      rw [call, sent]
      dsimp only
      rw [running, ← asked, next]
      rfl
    -- the call returns only when the process is gone
    rw [called] at returns ⊢
    by_cases gone : told.exit?.isSome
    · -- the process has ended, so there is no more of the stream than it has written
      rw [if_pos gone, ← ended gone, next]
      exact ⟨rfl, .inl gone⟩
    · rw [if_neg gone] at returns
      cases returns

/-- **The calls of a process are calls on its stream.** -/
theorem calls_eq_callsOn {stream : Bytes} {c : Child} {queries : List Query}
    (speaks : Speaks stream c queries) :
    c.calls queries = (callsOn queries (stream.drop c.taken)).1.map some := by
  induction speaks with
  | silent c => rfl
  | asked sent running asked front ended returns speaks ih =>
    obtain ⟨answer, left⟩ := call_eq_callOn sent running asked front ended returns
    rw [calls, callsOn, answer, List.map_cons, ih]
    congr 2
    rcases left with gone | left
    · -- nothing can be asked of a process that has ended
      cases speaks with
      | silent => rfl
      | asked _ running => rw [running] at gone; cases gone
    · rw [left]

end Shell.Child

namespace Wire

/-- **Calls read frames one after the other.**

The first calls get the payloads at the front of the stream, the first call the first and so on,
and each takes its frame and no more. If the stream then ends within a frame, all other calls are
told that it is closed; if it goes on with a length that is too large, the next call is told so,
and the stream goes on behind that length. Every stream is of one of these forms. And all of this
holds of the calls of a process on the stream that it writes. -/
theorem calls_read_consecutive_frames {queries more : List Query}
    (sendable : ∀ q ∈ queries ++ more, Sendable q) {payloads : List Bytes}
    (within : ∀ p ∈ payloads, p.length ≤ maxResponseLength)
    (each : queries.length = payloads.length) (tail : Bytes) :
    callsOn (queries ++ more) (payloads.flatMap framed ++ tail) =
        ((payloads.map fun p => .ok (decodeResponse p)) ++ (callsOn more tail).1,
          (callsOn more tail).2) ∧
    (Cut tail → (callsOn more tail).1 = more.map fun _ => .error (.closed "early eof")) ∧
    (∀ n rest query later, maxResponseLength < n → n < UInt32.size →
      tail = littleEndian n ++ rest → more = query :: later →
      callsOn more tail =
        (.error (.protocol ("response of " ++ n.repr ++ " bytes exceeds 67108864")) ::
          (callsOn later rest).1, (callsOn later rest).2)) ∧
    (∀ stream : Bytes, ∃ (payloads : List Bytes) (tail : Bytes),
      stream = payloads.flatMap framed ++ tail ∧
      (∀ p ∈ payloads, p.length ≤ maxResponseLength) ∧
      (Cut tail ∨ ∃ n rest, maxResponseLength < n ∧ n < UInt32.size ∧
        tail = littleEndian n ++ rest)) ∧
    ∀ (stream : Bytes) (c : Shell.Child) (asked : List Query), c.Speaks stream asked →
      c.calls asked = (callsOn asked (stream.drop c.taken)).1.map some := by
  obtain ⟨first, others⟩ := List.forall_mem_append.mp sendable
  refine ⟨?_, callsOn_cut others, ?_, exists_frames,
    fun stream c asked => Shell.Child.calls_eq_callsOn⟩
  · rw [callsOn_append, callsOn_framed first within each]
  · rintro n rest query later beyond fits rfl rfl
    have next := others query List.mem_cons_self
    rw [callsOn, callOn_beyond next beyond fits, oversizedFault_eq]

/-- A shell that reads a line and then complains where it should answer. -/
def complainingShell : Shell.Child :=
  ⟨.empty, "/", [], "sh", ["-c", "read line; nosuch"], [], 0, false⟩

/-- The shell writes this to its standard error. -/
theorem complainingShell_speaks :
    complainingShell.Speaks (encode "sh: nosuch: not found\n") [(["-version"], none)] :=
  .asked
    (show _ = Except.ok [9, 0, 0, 0, 45, 118, 101, 114, 115, 105, 111, 110, 10] by decide +kernel)
    (by decide +kernel) rfl (by decide +kernel) (by decide +kernel) (by decide +kernel) (.silent _)

/-- An empty payload, a payload of one line and one that is cut off; and a process whose complaint
is taken for a length. -/
theorem cut_stream_and_complaint_are_read :
    (callsOn [(["-v"], none), ([], some ""), (["a"], none)]
        [0, 0, 0, 0, 2, 0, 0, 0, 52, 10, 5, 0, 0, 0, 52]).1 =
      [.ok ⟨"", [], false⟩, .ok ⟨"4\n", [], false⟩, .error (.closed "early eof")] ∧
    complainingShell.calls [(["-version"], none)] =
      [some (.error (.protocol "response of 540698739 bytes exceeds 67108864"))] := by
  have sendable : ∀ q ∈ [(["-v"], none), ([], some "")] ++ [(["a"], none)], Sendable q := by
    decide +kernel
  have within : ∀ p ∈ ([[], [52, 10]] : List Bytes), p.length ≤ maxResponseLength := by decide
  obtain ⟨framed, cut, -, -, process⟩ :=
    calls_read_consecutive_frames sendable within rfl [5, 0, 0, 0, 52]
  constructor
  · have closed := cut (.inr ⟨5, [52], by decide, by decide, rfl⟩)
    have answers := congrArg Prod.fst framed
    rw [closed] at answers
    exact answers
  · rw [process _ _ _ complainingShell_speaks]
    decide +kernel

end Wire

end CompilerSession
