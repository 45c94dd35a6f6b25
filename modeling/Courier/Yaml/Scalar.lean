import Courier.Decimal.Shortest

/-!
# What plain scalars mean

A plain scalar is null, a truth value, an integer, a floating point number, or else a text. Integers
may be written in four bases; zeros before a decimal number make it a text.
-/

namespace Courier.Yaml

open Decimal

def ofBase? (base : Nat) (cs : List Char) : Option Nat :=
  if cs.isEmpty then none
  else cs.foldlM (fun n c => ((hexValue? c).filter (· < base)).map (n * base + ·)) 0

def splitBase : List Char → Option (Nat × List Char)
  | '0' :: 'x' :: cs => some (16, cs)
  | '0' :: 'o' :: cs => some (8, cs)
  | '0' :: 'b' :: cs => some (2, cs)
  | _ => none

/-- Whether a text is digits with a zero before them, which make it no number. -/
def isPaddedDigits (cs : List Char) : Bool :=
  let cs := match cs with
    | '-' :: cs => cs
    | '+' :: cs => cs
    | cs => cs
  match cs with
  | '0' :: d :: ds => (d :: ds).all Char.isDigit
  | _ => false

def magnitude? (isPadded : Bool) (cs : List Char) : Option Nat :=
  match splitBase cs with
  | some (base, ds) => ofBase? base ds
  | none => if isPadded then none else ofBase? 10 cs

def natural? (cs : List Char) : Option Nat :=
  magnitude? (isPaddedDigits cs) (match cs with | '+' :: cs => cs | cs => cs)

def integer? (cs : List Char) : Option Int :=
  match cs with
  | '-' :: ds => (magnitude? (isPaddedDigits cs) ds).map fun n => -(n : Int)
  | cs => (natural? cs).map Int.ofNat

def isNull (cs : List Char) : Bool :=
  ["null", "Null", "NULL", "~"].contains (String.ofList cs)

def bool? (cs : List Char) : Option Bool :=
  match String.ofList cs with
  | "true" => some true
  | "True" => some true
  | "TRUE" => some true
  | "false" => some false
  | "False" => some false
  | "FALSE" => some false
  | _ => none

inductive Floating where
  | finite (x : Binary)
  | infinite (isNegative : Bool)
  | notANumber
deriving DecidableEq, Repr

namespace Floating

def layout : Notation := ⟨400, -400, []⟩

def render : Floating → String
  | .finite x => String.ofList (layout.render x)
  | .infinite false => "inf"
  | .infinite true => "-inf"
  | .notANumber => "NaN"

end Floating

def exponent? : List Char → Option Int
  | [] => some 0
  | e :: cs =>
      if e ≠ 'e' ∧ e ≠ 'E' then none
      else match cs with
        | '-' :: ds => (ofBase? 10 ds).map fun n => -(n : Int)
        | '+' :: ds => (ofBase? 10 ds).map Int.ofNat
        | ds => (ofBase? 10 ds).map Int.ofNat

/-- The number nearest to `significand · 10^exponent`; `none` beyond the largest. Far from one the
power is not needed to tell zero and the infinite. -/
def nearest? (significand : Nat) (exponent : Int) : Option Binary :=
  let size := ((digits significand).length : Int) + exponent
  if significand = 0 ∨ size < -400 then some .zero
  else if 400 < size then none
  else Binary.ofRatio? (significand * tenTo exponent.toNat) (tenTo (-exponent).toNat)

/-- The finite number that a text without sign spells: digits with a point among them or none, and
an exponent or none. -/
def unsigned? (cs : List Char) : Option Binary :=
  let whole := cs.takeWhile Char.isDigit
  let rest := cs.dropWhile Char.isDigit
  let (places, rest) := match rest with
    | '.' :: rest => (rest.takeWhile Char.isDigit, rest.dropWhile Char.isDigit)
    | rest => ([], rest)
  match ofBase? 10 (whole ++ places), exponent? rest with
  | some n, some e => nearest? n (e - places.length)
  | _, _ => none

def real? (cs : List Char) : Option Floating :=
  let positive := match cs with | '+' :: cs => cs | cs => cs
  if [".inf", ".Inf", ".INF"].contains (String.ofList positive) then some (.infinite false)
  else if ["-.inf", "-.Inf", "-.INF"].contains (String.ofList cs) then some (.infinite true)
  else if [".nan", ".NaN", ".NAN"].contains (String.ofList cs) then some .notANumber
  else match cs with
    | '-' :: ds => (unsigned? ds).map (.finite ·.neg)
    | _ => (unsigned? positive).map .finite

end Courier.Yaml
