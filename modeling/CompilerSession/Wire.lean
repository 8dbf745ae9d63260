import CompilerSession.Failure
import CompilerSession.Text.Utf8

/-
The framing between the session and a display process.

Every message is a payload behind its length, four bytes with the least
significant first. A request's payload is its arguments, each followed by a line
feed, and then, if the request carries file contents, the byte `1` and the
contents. A response's payload is lines: a line that begins with the byte `1` is
a print of the compiler, in which further bytes `1` stand for line breaks, a line
that begins with the byte `2` marks the response as an error, and all other lines
are the body.

The first half of the file writes requests, the second reads responses: first the
payload, then the frame that carries it.
-/

set_option autoImplicit false

namespace CompilerSession

open Utf8 (Bytes)

/-- **One answer of the compiler.** -/
structure Response where
  output : String
  prints : List String
  hasError : Bool
  deriving DecidableEq, Repr, Inhabited

/-- What a caller gets of a successful answer. -/
structure RawOutput where
  text : String
  prints : List String
  deriving DecidableEq, Repr, Inhabited

/-- The answer without its error mark. -/
def Response.raw (r : Response) : RawOutput where
  text := r.output
  prints := r.prints

namespace Wire

/-! ## Requests -/

/-- The byte before the file contents of a request. -/
def stdinMarker : UInt8 := 1

/-- The four bytes of a length, least significant first. -/
def littleEndian (n : Nat) : Bytes :=
  [UInt8.ofNat n, UInt8.ofNat (n / 256), UInt8.ofNat (n / 65536), UInt8.ofNat (n / 16777216)]

/-- The arguments of a request, each with its line feed. -/
def argumentBytes (arguments : List String) : Bytes :=
  arguments.flatMap fun a => Utf8.encode a ++ [10]

def requestPayload (arguments : List String) (stdin : Option String) : Bytes :=
  argumentBytes arguments ++
    match stdin with
    | some contents => stdinMarker :: Utf8.encode contents
    | none => []

/-- **The frame of a request.** A payload whose length does not fit the prefix is
refused. -/
def encodeRequest (arguments : List String) (stdin : Option String) :
    Except ChannelFault Bytes :=
  let payload := requestPayload arguments stdin
  if payload.length < UInt32.size then
    .ok (littleEndian payload.length ++ payload)
  else
    .error (.protocol ("request of " ++ payload.length.repr ++
      " bytes exceeds the u32 length prefix"))

/-! ## Responses -/

/-- The character at the front of a print line. -/
def printMarker : Char := '\x01'

/-- The character at the front of an error line. -/
def errorMarker : Char := '\x02'

/-- The pieces of a text between line feeds; at least one, and none of them holds a
line feed. -/
def pieces : List Char → List (List Char)
  | [] => [[]]
  | c :: rest =>
    if c = '\n' then [] :: pieces rest
    else match pieces rest with
      | [] => [[c]]
      | line :: lines => (c :: line) :: lines

/-- The lines of a payload: an empty piece at the end is no line. -/
def lines (s : List Char) : List (List Char) :=
  let all := pieces s
  if all.getLast? = some [] then all.dropLast else all

/-- The text of a print: its inner markers are line breaks. -/
def printText (s : List Char) : List Char :=
  s.map fun c => if c = printMarker then '\n' else c

/-- A line of a response, by kind. -/
inductive Line where
  | body (text : List Char)
  | print (text : List Char)
  | mark
  deriving DecidableEq, Repr

/-- The kind of a line is told by its first character. -/
def Line.ofChars : List Char → Line
  | [] => .body []
  | c :: rest =>
    if c = printMarker then .print (printText rest)
    else if c = errorMarker then .mark
    else .body (c :: rest)

/-- The answer that lines make up: the body lines each with a line feed, the prints
in order, and the error mark if any line is one. -/
def answerOfLines (ls : List Line) : Response where
  output := String.ofList (ls.flatMap fun
    | .body text => text ++ ['\n']
    | _ => [])
  prints := ls.filterMap fun
    | .print text => some (String.ofList text)
    | _ => none
  hasError := ls.any (· == .mark)

/-- **The answer in a payload.** Bytes that are no text become U+FFFD. -/
def decodeResponse (payload : Bytes) : Response :=
  answerOfLines ((lines (Utf8.decodeLossy payload)).map Line.ofChars)

/-! ## Response frames -/

/-- The longest payload that is read. -/
def maxResponseLength : Nat := 64 * 1024 * 1024

/-- What stands at the front of the bytes a process has written. -/
inductive Frame where
  /-- A whole frame and the bytes behind it. -/
  | payload (bytes rest : Bytes)
  /-- The frame is not complete yet. -/
  | incomplete
  /-- The length is beyond what is read. -/
  | oversized (length : Nat) (rest : Bytes)
  deriving DecidableEq, Repr

/-- **The next frame of a byte stream.** -/
def nextFrame : Bytes → Frame
  | b₀ :: b₁ :: b₂ :: b₃ :: rest =>
    let length := b₀.toNat + b₁.toNat * 256 + b₂.toNat * 65536 + b₃.toNat * 16777216
    if maxResponseLength < length then .oversized length rest
    else if length ≤ rest.length then .payload (rest.take length) (rest.drop length)
    else .incomplete
  | _ => .incomplete

/-- The fault of a length that is too large. -/
def oversizedFault (length : Nat) : ChannelFault :=
  .protocol ("response of " ++ length.repr ++ " bytes exceeds " ++ maxResponseLength.repr)

/-- The fault of a stream that ends inside a frame. -/
def earlyEndFault : ChannelFault :=
  .ofPipe .unexpectedEnd "early eof"

/-- **One read of the channel** on a stream that will get no more bytes: the answer
in the next frame and the bytes left, or the fault. -/
def readResponse (stream : Bytes) : Except ChannelFault (Response × Bytes) :=
  match nextFrame stream with
  | .payload bytes rest => .ok (decodeResponse bytes, rest)
  | .incomplete => .error earlyEndFault
  | .oversized length _ => .error (oversizedFault length)

end Wire

end CompilerSession
