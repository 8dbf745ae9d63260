/-
Cancellation tokens.

Every display request comes with a token. Firing the token asks for the request to
be cancelled; nobody is interrupted by that, and a token that fired stays so.
Tokens are numbers, handed out in order.
-/

set_option autoImplicit false

namespace CompilerSession

/-- A token for cancelling one request. -/
abbrev Token := Nat

/-- **The tokens** that were handed out so far, and those that fired. -/
structure Tokens where
  issued : Nat
  fired : List Token
  deriving DecidableEq, Repr, Inhabited

namespace Tokens

def none : Tokens := ⟨0, []⟩

def issue (ts : Tokens) : Tokens × Token :=
  ({ ts with issued := ts.issued + 1 }, ts.issued)

def hasFired (ts : Tokens) (t : Token) : Bool :=
  ts.fired.contains t

def fire (ts : Tokens) (t : Token) : Tokens :=
  if ts.hasFired t then ts else { ts with fired := ts.fired ++ [t] }

end Tokens

end CompilerSession
