import Courier.Decimal.Binary
import Courier.Keyed

/-!
# JSON values

A value is a tree. The fields of an object are kept in ascending order of their keys, each key once:
`Keyed.insert` puts a field at its place and replaces the one with the same key.
-/

namespace Courier.Json

open Decimal

/-- A JSON number: a whole one from `-2^63` to `2^64 - 1` is exact, any other is rounded to the
double format. -/
inductive Number where
  | whole (n : Int)
  | real (x : Binary)
deriving DecidableEq, Repr

inductive Value where
  | null
  | bool (b : Bool)
  | number (n : Number)
  | string (s : String)
  | array (items : List Value)
  | object (fields : List (String × Value))
deriving Repr, Inhabited

namespace Value

def ofFields (fields : List (String × Value)) : Value := .object (Keyed.ofList fields)

def ofNat (n : Nat) : Value := .number (.whole n)

def field? (key : String) : Value → Option Value
  | .object fields => Keyed.get? key fields
  | _ => none

/-- Of several fields with one key the last counts. -/
theorem field?_ofFields (key : String) (fields : List (String × Value)) :
    (ofFields fields).field? key = (fields.reverse.find? (·.1 == key)).map (·.2) :=
  Keyed.get?_ofList key fields

def string? : Value → Option String
  | .string s => some s
  | _ => none

end Value

end Courier.Json
