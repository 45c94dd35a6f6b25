import Courier.Json.Writer
import Courier.Text.Quoted

/-!
# What kind of value was found

The words for a value that stands where another kind was expected.
-/

namespace Courier.Json

def backquoted (s : String) : String := "`" ++ s ++ "`"

def Number.describe (n : Number) : String :=
  match n with
  | .whole _ => "integer " ++ backquoted (String.ofList n.render)
  | .real _ => "floating point " ++ backquoted (String.ofList n.render)

/-- The value with its kind; of a container only the kind. -/
def Value.describe : Value → String
  | .null => "null"
  | .bool b => "boolean " ++ backquoted (if b then "true" else "false")
  | .number n => n.describe
  | .string s => "string " ++ Text.quoted s
  | .array _ => "sequence"
  | .object _ => "map"

end Courier.Json
