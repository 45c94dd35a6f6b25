import Courier.Decimal.Natural

/-!
# Protocol versions

A version is written `CMIT/<major>.<minor>`, where the first part may be missing and each number has
one to three digits. One major version is served.
-/

namespace Courier

structure Version where
  major : Nat
  minor : Nat
deriving DecidableEq, Repr

namespace Version

/-- The version written where no request tells one. -/
def default : String := "CMIT/1.0"

def servedMajor : Nat := 1

def scheme : List Char := ['C', 'M', 'I', 'T', '/']

def dropScheme (cs : List Char) : List Char :=
  if scheme.isPrefixOf cs then cs.drop scheme.length else cs

def part? (cs : List Char) : Option Nat :=
  if cs.length ≤ 3 then Decimal.ofDigits? cs else none

def ofToken? (token : String) : Option Version :=
  let cs := dropScheme token.toList
  -- the first point divides, so that a second one stands among the digits of the minor number
  match cs.dropWhile (· != '.') with
  | [] => none
  | _ :: minor =>
      match part? (cs.takeWhile (· != '.')), part? minor with
      | some major, some minor => some ⟨major, minor⟩
      | _, _ => none

def isServed (v : Version) : Bool := v.major == servedMajor

def numbers (v : Version) : String := Decimal.numeral v.major ++ "." ++ Decimal.numeral v.minor

/-- Versions in order, the major number first. -/
def compare (a b : Version) : Ordering :=
  (Ord.compare a.major b.major).then (Ord.compare a.minor b.minor)

end Version

end Courier
