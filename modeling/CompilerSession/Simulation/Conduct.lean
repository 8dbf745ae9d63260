import CompilerSession.Wire

/-
How a scripted display process conducts itself.

A scripted process reads its part from the arguments of a call. The first argument is
a command word that says how the call ends: with an answer, with a broken channel, with
the end of the process, or after a while. Without a command word the call is answered by
an echo of its arguments.
-/

set_option autoImplicit false

namespace CompilerSession.Simulation

/-- **What a process does about a call.** -/
inductive Conduct where
  | reply (result : Except ChannelFault Response)
  /-- The process ends, and then the call does. -/
  | exit (exit : Exit) (result : Except ChannelFault Response)
  /-- The call waits for a permit; then the remaining words apply. -/
  | wait (rest : List String)

namespace Conduct

/-- Words with a blank between them. -/
def joined (words : List String) : String :=
  " ".intercalate words

def say (output : String) : Except ChannelFault Response :=
  .ok ⟨output, [], false⟩

/-- The fault of a process that is gone. -/
def gone : ChannelFault := .closed "process exited"

/-- A decimal integer of 32 bits, with a sign or without. -/
def int32? (s : String) : Option Int :=
  let digits (s : List Char) : Option Nat :=
    if s = [] ∨ ¬ s.all Char.isDigit then none
    else some (s.foldl (fun n c => n * 10 + (c.toNat - 48)) 0)
  let value : Option Int := match s.toList with
    | '-' :: rest => (digits rest).map fun n => -(n : Int)
    | '+' :: rest => (digits rest).map fun n => (n : Int)
    | rest => (digits rest).map fun n => (n : Int)
  value.filter fun n => -2147483648 ≤ n ∧ n ≤ 2147483647

/-- The exit that the words after a command name. -/
def exitOf (rest : List String) : Exit :=
  match joined rest with
  | "signal" => ⟨none⟩
  | code => ⟨some ((int32? code).getD 1)⟩

/-- The bytes of a text in hexadecimal digits. -/
def bytesOfHex : List Char → Utf8.Bytes
  | a :: b :: rest => UInt8.ofNat (digit a * 16 + digit b) :: bytesOfHex rest
  | _ => []
where
  /-- The value of a digit. -/
  digit (c : Char) : Nat :=
    if c.isDigit then c.toNat - 48 else if c.toNat < 97 then c.toNat - 55 else c.toNat - 87

/-- **The conduct that a command word asks for**, if the first argument is one. -/
def commanded? (stdin : Option String) : List String → Option Conduct
  | "wait" :: rest => some (.wait rest)
  | "fail" :: rest => some (.reply (.ok ⟨joined rest ++ "\n", [], true⟩))
  | "crash" :: rest => some (.exit (exitOf rest) (.error gone))
  | "lastwords" :: rest => some (.exit (exitOf rest) (say "bye\n"))
  | "eof" :: rest => some (.reply (.error (.closed (joined rest))))
  | "io" :: rest => some (.reply (.error (.io (joined rest))))
  | "protocol" :: rest => some (.reply (.error (.protocol (joined rest))))
  | "payload" :: rest =>
    some (.reply (.ok (Wire.decodeResponse (bytesOfHex (rest.headD "").toList))))
  | "stdin" :: _ => some (.reply (say (stdin.getD "<none>")))
  | _ => none

/-- **The conduct for a call**, as far as `words` of its arguments are still to be acted on. -/
def ofCall (arguments : List String) (stdin : Option String) (words : List String) : Conduct :=
  (commanded? stdin words).getD (.reply (say (joined arguments)))

end Conduct

end CompilerSession.Simulation
