/-
Binary floating-point numbers of 64 bits, as exact arithmetic.

A finite magnitude is `m · 2^q` with `m < 2^53` and `-1074 ≤ q`, and its bit
pattern is the number `(q + 1074) · 2^52 + m`: for normal numbers the leading bit
of `m` carries into the exponent field, for subnormal ones `q = -1074` and the
pattern is `m` itself. Nothing here is a machine operation; sums, products and
quotients of magnitudes are taken exactly as ratios of natural numbers and then
rounded once, to the nearest magnitude, ties to the even one.
-/

set_option autoImplicit false

namespace CompilerSession.Binary64

/-- A magnitude `m · 2^q`. -/
structure Magnitude where
  m : Nat
  q : Int
  deriving DecidableEq, Repr

def signBit : Nat := Nat.pow 2 63

/-- The bit pattern of the magnitude infinity; every finite one is below it. -/
def infinity : Nat := 0x7FF * Nat.pow 2 52

def isNegative (bits : UInt64) : Bool :=
  signBit ≤ bits.toNat

/-- **Reading a bit pattern.** The magnitude of a finite pattern, sign dropped. -/
def magnitude (bits : UInt64) : Magnitude :=
  let field : Nat := bits.toNat / Nat.pow 2 52 % 2048
  let fraction : Nat := bits.toNat % Nat.pow 2 52
  if field = 0 then ⟨fraction, -1074⟩ else ⟨fraction + Nat.pow 2 52, (field : Int) - 1075⟩

/-- The ratio of a magnitude: a numerator and a denominator. -/
def Magnitude.ratio (x : Magnitude) : Nat × Nat :=
  if 0 ≤ x.q then (x.m * Nat.pow 2 x.q.toNat, 1) else (x.m, Nat.pow 2 (-x.q).toNat)

/-- A quotient rounded to the nearest whole number, a half to the even one. -/
def roundHalfEven (num den : Nat) : Nat :=
  let whole := num / den
  let twice := 2 * (num % den)
  if twice < den then whole
  else if den < twice then whole + 1
  else if whole % 2 = 0 then whole else whole + 1

/-- The exponent at which a positive ratio has 53 binary digits, or the least exponent
there is. -/
def exponentOf (num den : Nat) : Int :=
  let q : Int := (num.log2 : Int) - (den.log2 : Int) - 53
  let (a, b) := if 0 ≤ q then (num, den * Nat.pow 2 q.toNat) else (num * Nat.pow 2 (-q).toNat, den)
  let q := if Nat.pow 2 53 * b ≤ a then q + 1 else q
  max q (-1074)

/-- **Rounding a ratio.** The pattern of the magnitude nearest to `num / den`, ties
to even; none beyond the largest finite one. -/
def nearest? (num den : Nat) : Option Nat :=
  if num = 0 then some 0
  else
    let q := exponentOf num den
    let m := if 0 ≤ q then roundHalfEven num (den * Nat.pow 2 q.toNat)
      else roundHalfEven (num * Nat.pow 2 (-q).toNat) den
    let pattern := (q + 1074).toNat * Nat.pow 2 52 + m
    if pattern < infinity then some pattern else none

def ratioOf (pattern : Nat) : Nat × Nat :=
  (magnitude (UInt64.ofNat pattern)).ratio

/-- The product of two magnitudes, given as patterns. -/
def mul? (x y : Nat) : Option Nat :=
  let (a, b) := ratioOf x
  let (c, d) := ratioOf y
  nearest? (a * c) (b * d)

/-- The quotient of two magnitudes, given as patterns; the divisor is not zero. -/
def div? (x y : Nat) : Option Nat :=
  let (a, b) := ratioOf x
  let (c, d) := ratioOf y
  nearest? (a * d) (b * c)

/-- The magnitude nearest to a power of ten. -/
def powerOfTen? (n : Nat) : Option Nat :=
  nearest? (Nat.pow 10 n) 1

def withSign (negative : Bool) (pattern : Nat) : UInt64 :=
  UInt64.ofNat (if negative then signBit + pattern else pattern)

end CompilerSession.Binary64
