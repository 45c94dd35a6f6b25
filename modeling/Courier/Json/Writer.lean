import Courier.Json.Value
import Courier.Decimal.Shortest

/-!
# Writing JSON

Compact text: no blanks between tokens, object keys in ascending order, in strings only what must
be escaped is. Numbers that are not whole have the fewest digits that read back.
-/

namespace Courier.Json

open Decimal

/-- Numbers from `10^-5` to below `10^16` are positional; the exponent of others has a sign. -/
def realNotation : Notation := ⟨16, -4, ['+']⟩

def Number.render : Number → List Char
  | .whole n => integer n
  | .real x => realNotation.render x

def escapeChar (c : Char) : List Char :=
  if c = '"' then ['\\', '"']
  else if c = '\\' then ['\\', '\\']
  else if c = '\x08' then ['\\', 'b']
  else if c = '\x0c' then ['\\', 'f']
  else if c = '\n' then ['\\', 'n']
  else if c = '\r' then ['\\', 'r']
  else if c = '\t' then ['\\', 't']
  else if c.toNat < 0x20 then
    ['\\', 'u', '0', '0', digitChar (c.toNat / 16), digitChar (c.toNat % 16)]
  else [c]

def renderString (s : String) : List Char := '"' :: s.toList.flatMap escapeChar ++ ['"']

mutual

def Value.render : Value → List Char
  | .null => ['n', 'u', 'l', 'l']
  | .bool true => ['t', 'r', 'u', 'e']
  | .bool false => ['f', 'a', 'l', 's', 'e']
  | .number n => n.render
  | .string s => renderString s
  | .array [] => ['[', ']']
  | .array (v :: vs) => '[' :: v.render ++ renderItems vs ++ [']']
  | .object fields => renderObject fields

def renderObject : List (String × Value) → List Char
  | [] => ['\x7b', '\x7d']
  | (k, v) :: fs =>
      '\x7b' :: renderString k ++ ':' :: v.render ++ renderFields fs ++ ['\x7d']

/-- The items after the first, each after a comma. -/
def renderItems : List Value → List Char
  | [] => []
  | v :: vs => ',' :: v.render ++ renderItems vs

/-- The fields after the first, each after a comma. -/
def renderFields : List (String × Value) → List Char
  | [] => []
  | (k, v) :: fs => ',' :: renderString k ++ ':' :: v.render ++ renderFields fs

end

end Courier.Json
