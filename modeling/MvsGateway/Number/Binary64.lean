/-!
# Binary floating point

A finite 64-bit floating-point number is a sign, a mantissa below `2 ^ 53` and
a power of two. All arithmetic is on exact fractions and rounds once, to the
nearest number and to an even mantissa from half way.
-/

namespace MvsGateway

/-- The number `± mantissa * 2 ^ exponent`. The exponent is `-1074` at least,
and the mantissa has 53 bits unless the exponent is that. -/
structure Binary64 where
  negative : Bool
  mantissa : Nat
  exponent : Int
  deriving DecidableEq, Repr

namespace Binary64

def zero : Binary64 := ⟨false, 0, -1074⟩

def isZero (x : Binary64) : Bool := x.mantissa == 0

def negate (x : Binary64) : Binary64 := { x with negative := !x.negative }

/-- The fraction `num / den` scaled by `2 ^ (-e)`. -/
def scaled (num den : Nat) (e : Int) : Nat × Nat :=
  if 0 ≤ e then (num, den * Nat.pow 2 e.toNat) else (num * Nat.pow 2 (-e).toNat, den)

/-- The quotient to the nearest whole number, half way to the even one. -/
def roundHalfEven (num den : Nat) : Nat :=
  let q := num / den
  let r := num % den
  if 2 * r > den || (2 * r == den && q % 2 == 1) then q + 1 else q

/-- The least exponent from `-1074` on at which the fraction is below `2 ^ 53`. -/
def exponentOf (num den : Nat) : Int :=
  let guess := (Nat.log2 num : Int) - Nat.log2 den - 53
  let fits (e : Int) : Bool := let (n, d) := scaled num den e; n / d < Nat.pow 2 53
  max (-1074) (if fits guess then guess else if fits (guess + 1) then guess + 1 else guess + 2)

/-- The number nearest to `num / den`, if it does not exceed the range. -/
def ofRatio? (num den : Nat) : Option Binary64 :=
  let e := exponentOf num den
  let (n, d) := scaled num den e
  let m := roundHalfEven n d
  let (m, e) := if m == Nat.pow 2 53 then (Nat.pow 2 52, e + 1) else (m, e)
  if m == 0 then some zero
  else if e > 971 then none
  else some ⟨false, m, e⟩

def ofNat? (n : Nat) : Option Binary64 := ofRatio? n 1

/-- The absolute value as an exact fraction. -/
def toRatio (x : Binary64) : Nat × Nat :=
  if 0 ≤ x.exponent then (x.mantissa * Nat.pow 2 x.exponent.toNat, 1)
  else (x.mantissa, Nat.pow 2 (-x.exponent).toNat)

/-- The rounded product of two numbers without sign. -/
def mul? (x y : Binary64) : Option Binary64 :=
  let (a, b) := x.toRatio
  let (c, d) := y.toRatio
  ofRatio? (a * c) (b * d)

/-- The rounded quotient of two numbers without sign. -/
def div? (x y : Binary64) : Option Binary64 :=
  let (a, b) := x.toRatio
  let (c, d) := y.toRatio
  ofRatio? (a * d) (b * c)

/-- The power of ten as a floating-point number. -/
def tenTo (k : Nat) : Binary64 := (ofNat? (Nat.pow 10 k)).getD zero

/-- A number times a power of ten, in one multiplication or division where the
power is in range. Smaller powers divide by `10 ^ 308` first; two such steps
leave nothing of a 64-bit number, so three are enough. -/
def scaleByTen : Nat → Binary64 → Int → Option Binary64
  | _, x, .ofNat k =>
    if k ≤ 308 then x.mul? (tenTo k) else if x.isZero then some x else none
  | steps, x, .negSucc k =>
    if k + 1 ≤ 308 then x.div? (tenTo (k + 1))
    else if x.isZero then some x
    else match steps with
      | 0 => some zero
      | steps + 1 => (x.div? (tenTo 308)).bind fun y => scaleByTen steps y (.negSucc k + 308)

/-- The number read from a significand below `2 ^ 64` and a power of ten: the
significand is rounded first and scaled then, so the result may differ from
the nearest number in the last place. -/
def ofDecimal? (significand : Nat) (power : Int) : Option Binary64 :=
  (ofNat? significand).bind fun x => scaleByTen 3 x power

end Binary64

end MvsGateway
