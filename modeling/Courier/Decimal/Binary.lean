import Courier.Decimal.Natural

/-!
# Binary numbers of 53 bits

A finite number of the double format is a sign and `mantissa · 2^exponent`, with a mantissa below
`2^53` and an exponent from -1074 to 971, where the mantissa has all its 53 bits unless the exponent
is the least. Arithmetic is exact on naturals, followed by one rounding to nearest with ties to the
even mantissa. A result too large for the format is `none`.
-/

namespace Courier.Decimal

/-- A finite number of the double format: `± mantissa · 2^exponent`. -/
structure Binary where
  negative : Bool
  mantissa : Nat
  exponent : Int
deriving DecidableEq, Repr

namespace Binary

def minExponent : Int := -1074

def maxExponent : Int := 971

def zero : Binary := ⟨false, 0, minExponent⟩

def isZero (x : Binary) : Bool := x.mantissa == 0

def neg (x : Binary) : Binary := { x with negative := !x.negative }

def roundHalfEven (num den : Nat) : Nat :=
  let q := num / den
  let r := 2 * (num % den)
  if r < den then q
  else if den < r then q + 1
  else if q % 2 = 0 then q else q + 1

def inUnits (num den : Nat) (exponent : Int) : Nat :=
  roundHalfEven (num * twoTo (-exponent).toNat) (den * twoTo exponent.toNat)

/-- The exponent at which `num / den` has 53 bits before the point, or the least. -/
def unitOf (num den : Nat) : Int :=
  let guess : Int := (num.log2 : Int) - den.log2 - 53
  let whole := num * twoTo (-guess).toNat / (den * twoTo guess.toNat)
  max minExponent (if whole < twoTo 53 then guess else guess + 1)

/-- The number nearest to `num / den`; `none` beyond the largest. -/
def ofRatio? (num den : Nat) : Option Binary :=
  if num = 0 then some zero
  else
    let e := unitOf num den
    let m := inUnits num den e
    let x : Binary := if m < twoTo 53 then ⟨false, m, e⟩ else ⟨false, twoTo 52, e + 1⟩
    if x.exponent ≤ maxExponent then some x else none

def ofNat? (n : Nat) : Option Binary := ofRatio? n 1

def numerator (x : Binary) : Nat := x.mantissa * twoTo x.exponent.toNat

def denominator (x : Binary) : Nat := twoTo (-x.exponent).toNat

def mul? (x y : Binary) : Option Binary :=
  ofRatio? (x.numerator * y.numerator) (x.denominator * y.denominator)

def div? (x y : Binary) : Option Binary :=
  ofRatio? (x.numerator * y.denominator) (x.denominator * y.numerator)

def tenTo? (k : Nat) : Option Binary := ofNat? (tenTo k)

end Binary

end Courier.Decimal
