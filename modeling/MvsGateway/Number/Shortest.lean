import MvsGateway.Number.Binary64
import MvsGateway.Chars.Decimal

/-!
# Shortest decimal text

The text of a floating-point number has the fewest digits that read back as
the same number and, of those, the nearest to it.
-/

namespace MvsGateway.Binary64

/-- `digits * 10 ^ power` as a fraction. -/
def decimalRatio (digits : Nat) (power : Int) : Nat × Nat :=
  if 0 ≤ power then (digits * Nat.pow 10 power.toNat, 1)
  else (digits, Nat.pow 10 (-power).toNat)

def readsBack (x : Binary64) (digits : Nat) (power : Int) : Bool :=
  let (n, d) := decimalRatio digits power
  ofRatio? n d == some { x with negative := false }

/-- The exponent of the leading decimal digit of `num / den`. -/
def leadingPower (num den : Nat) : Int :=
  let size (n : Nat) : Int := (Nat.toDigits 10 n).length
  let guess := size num - size den
  let (n, d) := decimalRatio den guess
  if n ≤ num * d then guess else guess - 1

/-- The two neighbours of the number on the grid of multiples of `10 ^ power`:
the lower one, and whether the upper one is nearer; half way, the even one. -/
def neighbours (num den : Nat) (power : Int) : Nat × Bool :=
  let (n, d) := decimalRatio den power
  let top := num * d
  let low := top / n
  let twice := 2 * (top % n)
  (low, twice > n || (twice == n && low % 2 == 1))

/-- The digits and the power of ten, tried from `count` digits on. -/
def shortestFrom (x : Binary64) (num den : Nat) (lead : Int) : Nat → Nat → Nat × Int
  | 0, count =>
    let power := lead - count + 1
    ((neighbours num den power).1, power)
  | more + 1, count =>
    let power := lead - count + 1
    let (low, upperNearer) := neighbours num den power
    let near := if upperNearer then low + 1 else low
    let far := if upperNearer then low else low + 1
    if readsBack x near power then (near, power)
    else if readsBack x far power then (far, power)
    else shortestFrom x num den lead more (count + 1)

/-- The shortest digits, and the power of ten of the last one. -/
def shortest (x : Binary64) : Nat × Int :=
  let (num, den) := x.toRatio
  shortestFrom x num den (leadingPower num den) 17 1

/-- Digits without the zeros at their end. -/
def strip (digits : List Char) : List Char :=
  (digits.reverse.dropWhile (· == '0')).reverse

/-- Numbers whose leading digit stands at the powers `-5` to `15` are written
positionally, with a digit on each side of the point; all others with one
digit before the point and the power behind an `e` and a sign. -/
def text (x : Binary64) : String :=
  let body : List Char :=
    if x.isZero then ['0', '.', '0'] else
      let (n, power) := x.shortest
      let written := Chars.decimal n
      let lead := power + written.length - 1
      let digits := strip written
      let count : Int := digits.length
      if -5 ≤ lead && lead ≤ 15 then
        if lead < 0 then
          ['0', '.'] ++ List.replicate (-lead - 1).toNat '0' ++ digits
        else if count ≤ lead + 1 then
          digits ++ List.replicate (lead + 1 - count).toNat '0' ++ ['.', '0']
        else digits.take (lead + 1).toNat ++ '.' :: digits.drop (lead + 1).toNat
      else
        let fraction := if digits.length ≤ 1 then [] else '.' :: digits.drop 1
        let sign := if lead < 0 then '-' else '+'
        digits.take 1 ++ fraction ++ 'e' :: sign :: Chars.decimal lead.natAbs
  String.ofList (if x.negative then '-' :: body else body)

end MvsGateway.Binary64
