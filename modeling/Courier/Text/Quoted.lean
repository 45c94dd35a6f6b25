import Courier.Text.Property
import Courier.Decimal.Natural

/-!
# Text in quotes, for messages

A text is shown between double quotes so that every character of it can be told from every other:
quotes and backslashes are escaped, the usual controls have their letters, and what cannot be seen
by itself is given by its code point.
-/

namespace Courier.Text.Quoted

def showChar (c : Char) : List Char :=
  match c with
  | '\x00' => ['\\', '0']
  | '\t' => ['\\', 't']
  | '\n' => ['\\', 'n']
  | '\r' => ['\\', 'r']
  | '"' => ['\\', '"']
  | '\\' => ['\\', '\\']
  | _ =>
      if isExtending c || isInvisible c then
        ['\\', 'u', '\x7b'] ++ Decimal.hexDigits c.toNat ++ ['\x7d']
      else [c]

def encode (cs : List Char) : List Char := '"' :: cs.flatMap showChar ++ ['"']

end Courier.Text.Quoted

namespace Courier.Text

/-- A text in quotes, as messages show it. -/
def quoted (s : String) : String := String.ofList (Quoted.encode s.toList)

end Courier.Text
