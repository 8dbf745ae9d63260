import CompilerSession.Decimal.Shortest

/-
The numbers of JSON.

An integer that fits 64 bits, signed or unsigned, stays an integer. Every other
number is a binary floating-point number of 64 bits, and so is `-0`. The first
half of the file reads a decimal as it is spelled; the second half prints.

Reading is not correctly rounded. As many digits as fit 64 bits are taken as a
whole number, the rest only count for the exponent, and the whole number is then
multiplied or divided by a power of ten, each step rounded. The last bit of a
long decimal depends on that, so the steps are spelled out here one by one.
-/

set_option autoImplicit false

namespace CompilerSession.Json

/-- **A number.** The integer lies in `[-2^63, 2^64)`. -/
inductive Number where
  | integer (value : Int)
  | double (bits : UInt64)
  deriving DecidableEq, Repr

/-- A number as it is spelled: digit values, and an exponent if one is written. -/
structure Spelling where
  negative : Bool
  whole : List Nat
  fraction : Option (List Nat)
  exponent : Option (Bool × List Nat)
  deriving DecidableEq, Repr

namespace Spelling

/-- The largest whole number that is collected. -/
def limit : Nat := UInt64.size - 1

/-- Digits taken into a whole number while it fits, and the digits left over. -/
def collect (sum : Nat) : List Nat → Nat × List Nat
  | [] => (sum, [])
  | d :: rest => if limit < sum * 10 + d then (sum, d :: rest) else collect (sum * 10 + d) rest

/-- The whole number and the decimal exponent of the digits before any written
exponent. -/
def mantissa (s : Spelling) : Nat × Int :=
  let (sum, left) := collect 0 s.whole
  let (sum', left') := collect sum (s.fraction.getD [])
  let taken := (s.fraction.getD []).length - left'.length
  (sum', (left.length : Int) - taken)

/-- The written exponent; none when its digits go beyond 32 bits. -/
def writtenExponent? (digits : List Nat) : Option Nat :=
  digits.foldl (fun sum d => do
    let sum ← sum
    if 0x7FFFFFFF < sum * 10 + d then none else some (sum * 10 + d)) (some 0)

/-- A whole number times a power of ten: one rounded multiplication or division, after
steps of `10^308` while the exponent is out of reach. None when the result is too
large. -/
def scale? (fuel : Nat) (pattern : Nat) (exponent : Int) : Option Nat :=
  if exponent.natAbs ≤ 308 then
    match Binary64.powerOfTen? exponent.natAbs with
    | some power =>
      if 0 ≤ exponent then Binary64.mul? pattern power else Binary64.div? pattern power
    | none => none
  else if pattern = 0 then some 0
  else if 0 ≤ exponent then none
  else match fuel with
    | 0 => some 0
    | fuel + 1 =>
      match (Binary64.powerOfTen? 308).bind (Binary64.div? pattern) with
      | some smaller => scale? fuel smaller (exponent + 308)
      | none => none

/-- Exponents are kept within 32 bits. -/
def clamp (e : Int) : Int :=
  max (-0x80000000) (min 0x7FFFFFFF e)

/-- The floating-point value of a spelling; none when it is too large. -/
def double? (s : Spelling) : Option UInt64 :=
  let (sum, exponent) := s.mantissa
  let pattern? : Option Nat :=
    match s.exponent with
    | none => (Binary64.nearest? sum 1).bind (scale? 4 · exponent)
    | some (negative, digits) =>
      match writtenExponent? digits with
      | none => if sum ≠ 0 ∧ negative = false then none else some 0
      | some e =>
        let exponent := clamp (if negative then exponent - e else exponent + e)
        (Binary64.nearest? sum 1).bind (scale? 4 · exponent)
  pattern?.map (Binary64.withSign s.negative)

/-- **The value of a spelling.** None when it is beyond the largest floating-point
number. -/
def value? (s : Spelling) : Option Number :=
  match s.fraction, s.exponent, collect 0 s.whole with
  | none, none, (n, []) =>
    if s.negative then
      if n = 0 ∨ 0x8000000000000000 < n then (double? s).map .double
      else some (.integer (-(n : Int)))
    else some (.integer n)
  | _, _, _ => (double? s).map .double

end Spelling

/-! ## Printing -/

def zeros (n : Nat) : List Char :=
  List.replicate n '0'

/-- **The decimal text of a positive magnitude.** Up to sixteen digits before the
point and down to `0.00001` it is written out, with at least one digit behind the
point; beyond that it has an exponent with a sign. -/
def magnitudeText (x : Binary64.Magnitude) : List Char :=
  let s := Decimal.shortest x
  let digits := Nat.toDigits 10 s.digits
  let point : Int := digits.length + s.exponent
  if 0 < point ∧ point ≤ 16 then
    if 0 ≤ s.exponent then digits ++ zeros s.exponent.toNat ++ ['.', '0']
    else digits.take point.toNat ++ ['.'] ++ digits.drop point.toNat
  else if -5 < point ∧ point ≤ 0 then
    ['0', '.'] ++ zeros (-point).toNat ++ digits
  else
    let e := point - 1
    let shown := match digits with
      | [] => []
      | [d] => [d]
      | d :: rest => d :: '.' :: rest
    shown ++ ['e', if e < 0 then '-' else '+'] ++ Nat.toDigits 10 e.natAbs

def Number.text : Number → List Char
  | .integer value =>
    if value < 0 then '-' :: Nat.toDigits 10 value.natAbs else Nat.toDigits 10 value.natAbs
  | .double bits =>
    let x := Binary64.magnitude bits
    let body := if x.m = 0 then ['0', '.', '0'] else magnitudeText x
    if Binary64.isNegative bits then '-' :: body else body

end CompilerSession.Json
