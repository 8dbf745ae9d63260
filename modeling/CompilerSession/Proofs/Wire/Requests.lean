import CompilerSession.Proofs.Text.Utf8
import CompilerSession.Wire

/-
How a request is read at the other end.

A request has no escapes: its arguments are lines, and a marker at the beginning of a line says that
the rest is the contents of a file. `readRequest` is the reader that goes with that. It checks the
length, takes lines for arguments until the payload ends or a line begins with the marker, and then
takes what is left for the contents.

What it reads are the arguments that were written if and only if they are `Legible`. One direction
follows the lines as they were written (`readLines_argumentBytes`), and it does not matter what the
contents are. For the other direction, whatever bytes are read, no argument that comes of them has
a line feed in it or begins with the marker (`readLines_clean`).
-/

set_option autoImplicit false

namespace CompilerSession.Wire

open Utf8 (Bytes encode)

/-! ## The reader -/

/-- The number in four bytes, least significant first. -/
def ofLittleEndian (b₀ b₁ b₂ b₃ : UInt8) : Nat :=
  b₀.toNat + b₁.toNat * 256 + b₂.toNat * 65536 + b₃.toNat * 16777216

/-- **The lines of a payload and the bytes behind its marker.** A marker counts at the beginning of
a line only, so `fresh` says whether one begins here; if not, the first line that is read is the
rest of the one that has begun. -/
def readLines (fresh : Bool) : Bytes → Option (List Bytes × Option Bytes)
  | [] => if fresh then some ([], none) else none
  | b :: rest =>
    if fresh ∧ b = stdinMarker then some ([], some rest)
    else if b = 10 then (readLines true rest).map fun (lines, contents) => ([] :: lines, contents)
    else match readLines false rest with
      | some (line :: lines, contents) => some ((b :: line) :: lines, contents)
      | _ => none

/-- Bytes as text, if they are text. -/
def readText (bytes : Bytes) : Option String :=
  (Utf8.decode? bytes).map String.ofList

/-- The arguments and the file contents in a payload. -/
def readPayload (payload : Bytes) : Option (List String × Option String) := do
  let (lines, contents) ← readLines true payload
  return (← lines.mapM readText, ← contents.mapM readText)

/-- **The arguments and the file contents of a request**, if its frame is well-formed. -/
def readRequest : Bytes → Option (List String × Option String)
  | b₀ :: b₁ :: b₂ :: b₃ :: payload =>
    if ofLittleEndian b₀ b₁ b₂ b₃ = payload.length then readPayload payload else none
  | _ => none

/-- **What a reader can tell apart.** No argument has a line feed in it, and none begins like file
contents. -/
def Legible (arguments : List String) : Prop :=
  ∀ a ∈ arguments, '\n' ∉ a.toList ∧ a.toList.head? ≠ some '\x01'

instance (arguments : List String) : Decidable (Legible arguments) :=
  inferInstanceAs (Decidable (∀ a ∈ arguments, '\n' ∉ a.toList ∧ a.toList.head? ≠ some '\x01'))

/-! ## Bytes of texts -/

/-- What was encoded is read. -/
theorem readText_encode (s : String) : readText (encode s) = some s := by
  rw [readText, Utf8.decode?_encode, Option.map_some, String.ofList_toList]

/-- A line feed among the characters is one among the bytes. -/
theorem lineFeed_mem_iff {p : Bytes} : '\n' ∈ Utf8.decodeLossy p ↔ 10 ∈ p :=
  Utf8.mem_decodeLossy_iff (a := 10) (by decide) (by decide)

/-- A marker in front of the characters is one in front of the bytes. -/
theorem marker_head_iff {p : Bytes} :
    (Utf8.decodeLossy p).head? = some '\x01' ↔ p.head? = some stdinMarker :=
  Utf8.head?_decodeLossy_iff (a := 1) (by decide) (by decide)

/-- A text that was read has a line feed, or begins with the marker, where its bytes do. -/
theorem decodeLossy_of_readText {p : Bytes} {s : String} (h : readText p = some s) :
    Utf8.decodeLossy p = s.toList := by
  obtain ⟨cs, read, rfl⟩ := Option.map_eq_some_iff.mp h
  rw [Utf8.decodeLossy_of_decode? read, String.toList_ofList]

theorem length_encode (s : String) : (encode s).length = s.utf8ByteSize := by
  rw [encode, String.toUTF8_eq_toByteArray, ByteArray.toList, Utf8.toList_loop]
  simp

/-! ## Reading what was written -/

/-- A line is read up to its line feed. -/
theorem readLines_line {line : Bytes} (rest : Bytes) (unbroken : 10 ∉ line) :
    readLines false (line ++ 10 :: rest) =
      (readLines true rest).map fun (lines, contents) => (line :: lines, contents) := by
  induction line with
  | nil => rfl
  | cons b line ih =>
    obtain ⟨other, unbroken⟩ : b ≠ 10 ∧ 10 ∉ line := by simpa [eq_comm] using unbroken
    rw [List.cons_append, readLines, if_neg (by simp), if_neg other, ih unbroken]
    cases readLines true rest <;> rfl

/-- **A line is read as it was written**, unless it begins with the marker. -/
theorem readLines_fresh {line : Bytes} (rest : Bytes) (unbroken : 10 ∉ line)
    (unmarked : line.head? ≠ some stdinMarker) :
    readLines true (line ++ 10 :: rest) =
      (readLines true rest).map fun (lines, contents) => (line :: lines, contents) := by
  cases line with
  | nil =>
    rw [List.nil_append, readLines, if_neg (by decide), if_pos rfl]
  | cons b line =>
    obtain ⟨other, unbroken⟩ : b ≠ 10 ∧ 10 ∉ line := by simpa [eq_comm] using unbroken
    have plain : b ≠ stdinMarker := by simpa using unmarked
    rw [List.cons_append, readLines, if_neg (by simp [plain]), if_neg other,
      readLines_line rest unbroken]
    cases readLines true rest <;> rfl

/-- **Arguments are read back** line by line, if they are legible. -/
theorem readLines_argumentBytes {arguments : List String} (legible : Legible arguments)
    (rest : Bytes) :
    readLines true (argumentBytes arguments ++ rest) =
      (readLines true rest).map fun (lines, contents) =>
        (arguments.map encode ++ lines, contents) := by
  induction arguments with
  | nil => cases h : readLines true rest <;> simp [argumentBytes, h]
  | cons a arguments ih =>
    obtain ⟨⟨unbroken, unmarked⟩, legible⟩ := List.forall_mem_cons.mp legible
    rw [← Utf8.decodeLossy_encode, lineFeed_mem_iff] at unbroken
    rw [← Utf8.decodeLossy_encode, ne_eq, marker_head_iff] at unmarked
    have bytes : argumentBytes (a :: arguments) ++ rest =
        encode a ++ 10 :: (argumentBytes arguments ++ rest) := by
      simp [argumentBytes]
    rw [bytes, readLines_fresh _ unbroken unmarked, ih legible]
    cases readLines true rest <;> rfl

/-- **The payload of a request is read back** when its arguments are legible. -/
theorem readLines_requestPayload {arguments : List String} (legible : Legible arguments)
    (stdin : Option String) :
    readLines true (requestPayload arguments stdin) =
      some (arguments.map encode, stdin.map encode) := by
  cases stdin with
  | none =>
    rw [requestPayload.eq_def, readLines_argumentBytes legible]
    simp [readLines]
  | some contents =>
    rw [requestPayload.eq_def, readLines_argumentBytes legible]
    simp [readLines]

/-! ## What is read of any bytes -/

/-- **No line that is read is broken or begins with the marker**, apart from the rest of a line
that has begun before. -/
theorem readLines_clean {fresh : Bool} {p : Bytes} {lines : List Bytes} {contents : Option Bytes}
    (h : readLines fresh p = some (lines, contents)) :
    (∀ l ∈ lines, 10 ∉ l) ∧
      ∀ l ∈ if fresh then lines else lines.tail, l.head? ≠ some stdinMarker := by
  -- by induction on the bytes: each is the marker, a line feed, or one more byte of a line
  induction p generalizing fresh lines contents with
  | nil =>
    cases fresh with
    | true =>
      obtain ⟨rfl, -⟩ := Prod.mk.inj (Option.some.inj h)
      exact ⟨nofun, nofun⟩
    | false => cases h
  | cons b p ih =>
    rw [readLines] at h
    split at h
    · obtain ⟨rfl, -⟩ := Prod.mk.inj (Option.some.inj h)
      cases fresh <;> exact ⟨nofun, nofun⟩
    · rename_i unmarked
      split at h
      · -- an empty line is read here, and all others behind it
        obtain ⟨⟨lines', contents'⟩, read, same⟩ := Option.map_eq_some_iff.mp h
        obtain ⟨rfl, -⟩ := Prod.mk.inj same
        obtain ⟨unbroken, plain⟩ := ih read
        refine ⟨List.forall_mem_cons.mpr ⟨List.not_mem_nil, unbroken⟩, ?_⟩
        cases fresh with
        | true => exact List.forall_mem_cons.mpr ⟨nofun, plain⟩
        | false => exact plain
      · rename_i other
        split at h
        · rename_i line lines' contents' read
          obtain ⟨rfl, -⟩ := Prod.mk.inj (Option.some.inj h)
          obtain ⟨unbroken, plain⟩ := ih read
          obtain ⟨first, unbroken⟩ := List.forall_mem_cons.mp unbroken
          refine ⟨List.forall_mem_cons.mpr ⟨?_, unbroken⟩, ?_⟩
          · rw [List.mem_cons, not_or]
            exact ⟨Ne.symm other, first⟩
          · cases fresh with
            | false => exact plain
            | true =>
              refine List.forall_mem_cons.mpr ⟨?_, plain⟩
              intro marked
              exact unmarked ⟨rfl, Option.some.inj marked⟩
        · cases h

/-- Arguments that are read off clean lines are legible. -/
theorem legible_of_read {lines : List Bytes} {arguments : List String}
    (clean : ∀ l ∈ lines, 10 ∉ l ∧ l.head? ≠ some stdinMarker)
    (read : lines.mapM readText = some arguments) : Legible arguments := by
  induction lines generalizing arguments with
  | nil =>
    obtain rfl : arguments = [] := by simpa using read.symm
    exact nofun
  | cons l lines ih =>
    rw [List.mapM_cons] at read
    obtain ⟨a, text, read⟩ := Option.bind_eq_some_iff.mp read
    obtain ⟨as, texts, same⟩ := Option.bind_eq_some_iff.mp read
    obtain rfl := Option.some.inj same
    obtain ⟨⟨unbroken, unmarked⟩, clean⟩ := List.forall_mem_cons.mp clean
    refine List.forall_mem_cons.mpr ⟨?_, ih clean texts⟩
    rw [← decodeLossy_of_readText text, lineFeed_mem_iff, ne_eq, marker_head_iff]
    exact ⟨unbroken, unmarked⟩

/-! ## Frames -/

/-- **A length that fits is read back.** -/
theorem ofLittleEndian_littleEndian {n : Nat} (fits : n < UInt32.size) :
    ofLittleEndian (UInt8.ofNat n) (UInt8.ofNat (n / 256)) (UInt8.ofNat (n / 65536))
      (UInt8.ofNat (n / 16777216)) = n := by
  have size : n < 4294967296 := fits
  rw [ofLittleEndian, UInt8.toNat_ofNat', UInt8.toNat_ofNat', UInt8.toNat_ofNat',
    UInt8.toNat_ofNat']
  omega

/-- **The length of a payload**: a byte more than its text for each argument, and a byte more than
its contents if there are any. -/
def requestLength (arguments : List String) (stdin : Option String) : Nat :=
  arguments.foldr (fun a n => a.utf8ByteSize + 1 + n) (stdin.elim 0 (·.utf8ByteSize + 1))

/-- The payload is as long as was reckoned. -/
theorem length_requestPayload (arguments : List String) (stdin : Option String) :
    (requestPayload arguments stdin).length = requestLength arguments stdin := by
  rw [requestPayload.eq_def, requestLength]
  induction arguments with
  | nil =>
    cases stdin with
    | none => rfl
    | some contents => exact congrArg Nat.succ (length_encode contents)
  | cons a arguments ih =>
    rw [List.foldr_cons, ← ih, argumentBytes, List.flatMap_cons, List.append_assoc,
      List.length_append, List.length_append, length_encode]
    rfl

/-- **A request is encoded** if its length fits, and its frame is the length and the payload. -/
theorem encodeRequest_eq_ok_iff {arguments : List String} {stdin : Option String} {frame : Bytes} :
    encodeRequest arguments stdin = .ok frame ↔
      (requestPayload arguments stdin).length < UInt32.size ∧
        littleEndian (requestPayload arguments stdin).length ++ requestPayload arguments stdin =
          frame := by
  rw [encodeRequest]
  by_cases fits : (requestPayload arguments stdin).length < UInt32.size
  · rw [if_pos fits, Except.ok.injEq]
    exact (and_iff_right fits).symm
  · rw [if_neg fits]
    exact iff_of_false nofun fun h => fits h.1

/-- **A request cannot be encoded** if its length does not fit. -/
theorem encodeRequest_fails_iff {arguments : List String} {stdin : Option String} :
    (∃ fault, encodeRequest arguments stdin = .error fault) ↔
      UInt32.size - 1 < requestLength arguments stdin := by
  have long : UInt32.size - 1 < requestLength arguments stdin ↔
      ¬ (requestPayload arguments stdin).length < UInt32.size := by
    rw [Nat.lt_iff_add_one_le, Nat.not_lt, length_requestPayload]
    rfl
  rw [encodeRequest, long]
  by_cases fits : (requestPayload arguments stdin).length < UInt32.size
  · rw [if_pos fits]
    exact iff_of_false nofun (not_not_intro fits)
  · rw [if_neg fits]
    exact iff_of_true ⟨_, rfl⟩ fits

/-- **A frame is read as its payload.** -/
theorem readRequest_frame {payload : Bytes} (fits : payload.length < UInt32.size) :
    readRequest (littleEndian payload.length ++ payload) = readPayload payload := by
  rw [littleEndian]
  simp only [List.cons_append, List.nil_append, readRequest]
  rw [if_pos (ofLittleEndian_littleEndian fits)]

theorem mapM_readText (texts : List String) : (texts.map encode).mapM readText = some texts := by
  induction texts with
  | nil => rfl
  | cons s texts ih => rw [List.map_cons, List.mapM_cons, readText_encode, ih]; rfl

/-- **A payload is read back if and only if its arguments are legible.** -/
theorem readPayload_requestPayload {arguments : List String} {stdin : Option String} :
    readPayload (requestPayload arguments stdin) = some (arguments, stdin) ↔ Legible arguments := by
  constructor
  · intro h
    obtain ⟨⟨lines, contents⟩, read, h⟩ := Option.bind_eq_some_iff.mp h
    obtain ⟨texts, same, h⟩ := Option.bind_eq_some_iff.mp h
    obtain ⟨stdin', -, h⟩ := Option.bind_eq_some_iff.mp h
    obtain ⟨rfl, -⟩ := Prod.mk.inj (Option.some.inj h)
    obtain ⟨unbroken, unmarked⟩ := readLines_clean read
    exact legible_of_read (fun l member => ⟨unbroken l member, unmarked l member⟩) same
  · intro legible
    refine Option.bind_eq_some_iff.mpr ⟨_, readLines_requestPayload legible stdin, ?_⟩
    refine Option.bind_eq_some_iff.mpr ⟨_, mapM_readText arguments, ?_⟩
    cases stdin with
    | none => rfl
    | some contents => simp [readText_encode]

/-- **What the frame of a request says.**

A request has a frame unless its payload is too long for the length. The frame is read back as the
request it was made of if and only if the arguments are legible. So legible requests have a frame
each of their own; and a request without contents never has the frame of one whose contents are
empty. -/
theorem request_is_read_back_iff_legible (arguments : List String) (stdin : Option String) :
    ((∃ fault, encodeRequest arguments stdin = .error fault) ↔
      UInt32.size - 1 < requestLength arguments stdin) ∧
    ∀ frame, encodeRequest arguments stdin = .ok frame →
      (readRequest frame = some (arguments, stdin) ↔ Legible arguments) ∧
      (∀ arguments' stdin', Legible arguments → Legible arguments' →
        encodeRequest arguments' stdin' = .ok frame → arguments' = arguments ∧ stdin' = stdin) ∧
      (stdin = none → encodeRequest arguments (some "") ≠ .ok frame) := by
  have back {arguments stdin frame} (sent : encodeRequest arguments stdin = .ok frame) :
      readRequest frame = some (arguments, stdin) ↔ Legible arguments := by
    obtain ⟨fits, rfl⟩ := encodeRequest_eq_ok_iff.mp sent
    rw [readRequest_frame fits, readPayload_requestPayload]
  refine ⟨encodeRequest_fails_iff, ?_⟩
  intro frame sent
  refine ⟨back sent, ?_, ?_⟩
  · intro arguments' stdin' legible legible' sent'
    have same := ((back sent').mpr legible').symm.trans ((back sent).mpr legible)
    exact Prod.mk.inj (Option.some.inj same)
  · rintro rfl sent'
    obtain ⟨-, absent⟩ := encodeRequest_eq_ok_iff.mp sent
    obtain ⟨-, empty⟩ := encodeRequest_eq_ok_iff.mp sent'
    have nothing : encode "" = [] := Utf8.encode_eq ""
    have marked : requestPayload arguments (some "") =
        requestPayload arguments none ++ [stdinMarker] := by
      simp [requestPayload.eq_def, nothing]
    -- the marker makes the frame a byte longer
    have lengths := congrArg List.length (absent.trans empty.symm)
    rw [List.length_append, List.length_append, marked, List.length_append] at lengths
    have four (n : Nat) : (littleEndian n).length = 4 := rfl
    rw [four, four, List.length_singleton] at lengths
    omega

/-- A request with an empty argument, and contents that begin like contents, is read back; an
argument with a line feed in it is not. -/
theorem legible_request_and_broken_argument :
    (∃ frame, encodeRequest ["--x", "Größe", ""] (some "\x01\na😀\n") = .ok frame ∧
      readRequest frame = some (["--x", "Größe", ""], some "\x01\na😀\n")) ∧
    encodeRequest ["a\nb"] none = .ok [4, 0, 0, 0, 97, 10, 98, 10] ∧
      readRequest [4, 0, 0, 0, 97, 10, 98, 10] ≠ some (["a\nb"], none) := by
  have sent : encodeRequest ["--x", "Größe", ""] (some "\x01\na😀\n") =
      .ok [22, 0, 0, 0, 45, 45, 120, 10, 71, 114, 195, 182, 195, 159, 101, 10, 10, 1, 1, 10,
        97, 240, 159, 152, 128, 10] := by
    rw [encodeRequest, requestPayload, argumentBytes]
    simp only [Utf8.encode_eq]
    rfl
  have broken : encodeRequest ["a\nb"] none = .ok [4, 0, 0, 0, 97, 10, 98, 10] := by
    rw [encodeRequest, requestPayload, argumentBytes]
    simp only [Utf8.encode_eq]
    rfl
  refine ⟨⟨_, sent, ?_⟩, broken, ?_⟩
  · exact ((request_is_read_back_iff_legible _ _).2 _ sent).1.mpr (by decide)
  · rw [ne_eq, ((request_is_read_back_iff_legible _ _).2 _ broken).1]
    decide

end CompilerSession.Wire
