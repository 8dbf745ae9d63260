import CompilerSession.Token

/-
The requests that can be cancelled.

While a display request is under way its id stands in a register, together with
its token, so that a cancellation that names the id can fire the token. An id is
admitted only once at a time. When a request is finished its id may be used again,
for a request with a new token.
-/

set_option autoImplicit false

namespace CompilerSession

/-- **The register of requests under way.** -/
structure Registry where
  tokens : Tokens
  /-- Ids and tokens of the requests, oldest first. -/
  entries : List (String × Token)
  deriving DecidableEq, Repr, Inhabited

namespace Registry

def empty : Registry := ⟨Tokens.none, []⟩

def token? (r : Registry) (key : String) : Option Token :=
  (r.entries.find? (·.1 = key)).map (·.2)

/-- The id belongs to a request under way. -/
def isLive (r : Registry) (key : String) : Bool :=
  (r.token? key).isSome

def size (r : Registry) : Nat :=
  r.entries.length

def hasFired (r : Registry) (t : Token) : Bool :=
  r.tokens.hasFired t

/-- **Admit a request** under an id, with a new token; none if the id is in use. -/
def register (r : Registry) (key : String) : Registry × Option Token :=
  if r.isLive key then (r, none)
  else
    let (tokens, t) := r.tokens.issue
    (⟨tokens, r.entries ++ [(key, t)]⟩, some t)

/-- The request of an id is finished. -/
def finish (r : Registry) (key : String) : Registry :=
  { r with entries := r.entries.filter (·.1 ≠ key) }

/-- **Cancel** the request of an id; tells whether there is one. -/
def cancel (r : Registry) (key : String) : Registry × Bool :=
  match r.token? key with
  | some t => ({ r with tokens := r.tokens.fire t }, true)
  | none => (r, false)

/-- **Cancel everything**; tells how many requests that were. -/
def cancelAll (r : Registry) : Registry × Nat :=
  ({ r with tokens := (r.entries.map (·.2)).foldl Tokens.fire r.tokens }, r.size)

end Registry

end CompilerSession
