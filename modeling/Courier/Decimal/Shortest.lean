import Courier.Decimal.Natural
import Courier.Decimal.Binary

/-!
# The fewest digits that identify a binary number

The decimals that round to a number of the double format form an interval around it. On the decimal
grids from coarse to fine the two neighbours of the number are tried, and the first grid with a hit
gives the digits; of two hits the nearer is taken, and the even one of two equally near.

`Notation` holds the layout of the digits: where positional writing ends and how an exponent looks.
-/

namespace Courier.Decimal

structure Scientific where
  significand : Nat
  exponent : Int
deriving DecidableEq, Repr

namespace Binary

/-- The decimal exponent `k` with `10^(k-1) ≤ |x| < 10^k`, for a number other than zero. -/
def magnitude (x : Binary) : Int :=
  let num := x.numerator
  let den := x.denominator
  if den ≤ num then (digits (num / den)).length
  else
    let inverse := (den + num - 1) / num
    1 - (digits (inverse - 1)).length

/-- Whether the decimal `n · 10^k` rounds to the magnitude of `x`: it lies within half a unit of
the last place, where the unit below a power of two is half as large, and the ends count when the
mantissa is even. -/
def accepts (x : Binary) (n : Nat) (k : Int) : Bool :=
  -- both sides in quarters of the unit `2^exponent`
  let lhs := 4 * n * tenTo k.toNat * twoTo (-x.exponent).toNat
  let scale := tenTo (-k).toNat * twoTo x.exponent.toNat
  let below := if x.mantissa = twoTo 52 ∧ minExponent < x.exponent then 1 else 2
  let lo := (4 * x.mantissa - below) * scale
  let hi := (4 * x.mantissa + 2) * scale
  if x.mantissa % 2 = 0 then lo ≤ lhs && lhs ≤ hi else lo < lhs && lhs < hi

/-- The better of the two neighbours of `x` on the grid of multiples of `10^k`, if one rounds
to `x`. -/
def onGrid? (x : Binary) (k : Int) : Option Scientific :=
  let num := x.numerator * tenTo (-k).toNat
  let den := x.denominator * tenTo k.toNat
  let q := num / den
  let r := 2 * (num % den)
  match accepts x q k, accepts x (q + 1) k with
  | true, true =>
      if r < den then some ⟨q, k⟩
      else if den < r then some ⟨q + 1, k⟩
      else some ⟨if q % 2 = 0 then q else q + 1, k⟩
  | true, false => some ⟨q, k⟩
  | false, true => some ⟨q + 1, k⟩
  | false, false => none

def stripZeros (significand : Nat) (exponent : Int) : Scientific :=
  if h : significand ≠ 0 ∧ significand % 10 = 0 then
    stripZeros (significand / 10) (exponent + 1)
  else ⟨significand, exponent⟩
termination_by significand

/-- The decimal with the fewest digits that rounds to the magnitude of `x`. Seventeen digits always
do. -/
def shortest (x : Binary) : Scientific :=
  if x.isZero then ⟨0, 0⟩
  else
    let found := (List.range 18).findSome? fun (n : Nat) => onGrid? x (x.magnitude - n)
    let d := found.getD ⟨x.mantissa, 0⟩
    stripZeros d.significand d.exponent

end Binary

structure Notation where
  positionalTo : Int
  /-- The least decimal exponent of a number written positionally; `0.1` has exponent 0. -/
  positionalFrom : Int
  plus : List Char

namespace Notation

def zeros (n : Nat) : List Char := List.replicate n '0'

def positional (ds : List Char) (place : Int) : List Char :=
  if place ≤ 0 then '0' :: '.' :: zeros (-place).toNat ++ ds
  else if ds.length ≤ place.toNat then ds ++ zeros (place.toNat - ds.length) ++ ['.', '0']
  else ds.take place.toNat ++ '.' :: ds.drop place.toNat

def scientific (f : Notation) (ds : List Char) (place : Int) : List Char :=
  let mantissa := match ds with
    | [d] => [d]
    | d :: rest => d :: '.' :: rest
    | [] => []
  let e := place - 1
  mantissa ++ 'e' :: (if e < 0 then integer e else f.plus ++ integer e)

def render (f : Notation) (x : Binary) : List Char :=
  let sign := if x.negative then ['-'] else []
  let d := x.shortest
  let ds := digits d.significand
  let place := ds.length + d.exponent
  if x.isZero then sign ++ ['0', '.', '0']
  else if f.positionalFrom ≤ place ∧ place ≤ f.positionalTo then sign ++ positional ds place
  else sign ++ f.scientific ds place

end Notation

end Courier.Decimal
