import CompilerSession.Decimal.Binary64

/-
The shortest decimal that reads back as a given binary magnitude.

The reals that round to `m · 2^q` form an interval around it, whose ends belong
to it exactly when `m` is even. Of the decimals in that interval the wanted one
has the fewest digits, and among those it is nearest to the magnitude. For each
number of digits, one to seventeen, only the two neighbours of the magnitude on
the decimal grid have to be tried, and that is done with natural numbers alone.
-/

set_option autoImplicit false

namespace CompilerSession.Decimal

open Binary64 (Magnitude)

/-- A decimal `digits · 10^exponent`. -/
structure Scientific where
  digits : Nat
  exponent : Int
  deriving DecidableEq, Repr

/-- The magnitude and the ends of its interval over one denominator. -/
structure Interval where
  low : Nat
  value : Nat
  high : Nat
  den : Nat
  closed : Bool
  deriving Repr

/-- **The reals that round to a magnitude.** Below a power of two the neighbour is
only half as far away. -/
def Interval.of (x : Magnitude) : Interval :=
  let narrow : Bool := x.m = Nat.pow 2 52 && x.q != -1074
  let low := if narrow then 4 * x.m - 1 else 4 * x.m - 2
  let scale : Int := x.q - 2
  let (up, den) := if 0 ≤ scale then (Nat.pow 2 scale.toNat, 1) else (1, Nat.pow 2 (-scale).toNat)
  { low := low * up
    value := 4 * x.m * up
    high := (4 * x.m + 2) * up
    den := den
    closed := x.m % 2 = 0 }

/-- The decimal `digits · 10^e` lies in the interval. -/
def Interval.holds (i : Interval) (s : Scientific) : Bool :=
  let (a, b) := if 0 ≤ s.exponent then (s.digits * Nat.pow 10 s.exponent.toNat, 1)
    else (s.digits, Nat.pow 10 (-s.exponent).toNat)
  -- compare a / b with the ends over den
  let scaled := a * i.den
  if i.closed then i.low * b ≤ scaled && scaled ≤ i.high * b
  else i.low * b < scaled && scaled < i.high * b

/-- The number of decimal digits before the point; zero or less for values below one
tenth. The search ends at `fuel` places. -/
def pointPosition (num den : Nat) : Int :=
  if den ≤ num then ((Nat.toDigits 10 (num / den)).length : Int)
  else
    let rec below (fuel : Nat) (num : Nat) (places : Int) : Int :=
      match fuel with
      | 0 => places
      | fuel + 1 => if den ≤ num * 10 then places else below fuel (num * 10) (places - 1)
    below 400 num 0

/-- The two neighbours of the value on the grid of `10^e`, and which one is nearer. -/
def neighbours (i : Interval) (e : Int) : Scientific × Scientific × Bool :=
  let (a, b) := if 0 ≤ e then (i.value, i.den * Nat.pow 10 e.toNat)
    else (i.value * Nat.pow 10 (-e).toNat, i.den)
  let below := a / b
  let twice := 2 * (a % b)
  let belowIsNearer := twice < b || (twice = b && below % 2 = 0)
  (⟨below, e⟩, ⟨below + 1, e⟩, belowIsNearer)

/-- The choice on one grid: of two hits the nearer one. -/
def onGrid? (i : Interval) (e : Int) : Option Scientific :=
  let (below, above, belowIsNearer) := neighbours i e
  match i.holds below, i.holds above with
  | true, true => some (if belowIsNearer then below else above)
  | true, false => some below
  | false, true => some above
  | false, false => none

def Scientific.strip (fuel : Nat) (s : Scientific) : Scientific :=
  match fuel with
  | 0 => s
  | fuel + 1 =>
    if s.digits ≠ 0 ∧ s.digits % 10 = 0 then Scientific.strip fuel ⟨s.digits / 10, s.exponent + 1⟩
    else s

/-- **The shortest decimal** of a positive magnitude. -/
def shortest (x : Magnitude) : Scientific :=
  let i := Interval.of x
  let point := pointPosition i.value i.den
  let found := (List.range 17).findSome? fun (n : Nat) => onGrid? i (point - (n + 1 : Nat))
  (found.getD ⟨0, 0⟩).strip 20

end CompilerSession.Decimal
