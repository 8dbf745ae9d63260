import CompilerSession.Wire

/-
The version probe.

Before a process gets its first request it has to tell its version. The probe is
one call; this file says what its outcome means. The version is looked for in the
body of the answer and then in the prints, one after the other. An answer that
names a version is good even if the compiler marked it as an error.
-/

set_option autoImplicit false

namespace CompilerSession.Probe

def arguments : List String := ["-version"]

/-- How many seconds a process has to answer. -/
def patience : Nat := 30

/-- What came of the one call. -/
inductive Outcome where
  | answered (response : Response)
  | broken (fault : ChannelFault)
  | timedOut
  deriving DecidableEq, Repr

def namedVersion? (r : Response) : Option Version :=
  (Version.find? r.output).or (r.prints.findSome? Version.find?)

/-- Why an answer that names no version fails the probe. -/
def unnamed (r : Response) : Failure :=
  let body := Text.trim r.output
  if r.hasError then .probe ("toolchain reported an error: " ++ body)
  else .probe ("no version in response " ++ Text.quote body)

def found : Outcome → Except Failure Version
  | .answered response =>
    match namedVersion? response with
    | some version => .ok version
    | none => .error (unnamed response)
  | .broken fault => .error (.probe fault.message)
  | .timedOut => .error (.probe ("no answer after " ++ patience.repr ++ " seconds"))

/-- **The verdict of the probe**: the version of a compiler that is new enough, or the
reason not to use it. -/
def verdict (outcome : Outcome) : Except Failure Version := do
  (← found outcome).checkSupported

end CompilerSession.Probe
