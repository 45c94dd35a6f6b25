import Courier.Files.Basic
import Courier.Json.Kind
import Courier.Settings.Basic
import Courier.Text.Quoted
import Courier.Yaml.Document
import Courier.Yaml.Scalar

/-!
# Why settings cannot be read

Settings may be no YAML, or YAML of the wrong shape, or not readable at all. A complaint about the
shape says where the offending part is, by the names that lead to it and by its place in the text.
-/

namespace Courier

open Yaml

inductive FoundItem where
  | unit
  | bool (b : Bool)
  | integer (n : Int)
  | real (x : Floating)
  | string (s : String)
  | list
  | map

namespace FoundItem

/-- An integer in words; one of more than 64 bits is said to be of 128. -/
def describeInteger (n : Int) : String :=
  let shown := "integer " ++ Json.backquoted (String.ofList (Decimal.integer n))
  if (Decimal.twoTo 64 : Int) ≤ n then shown ++ " as u128"
  else if n < -(Decimal.twoTo 63 : Int) then shown ++ " as i128"
  else shown

def describe : FoundItem → String
  | .unit => "unit value"
  | .bool b => "boolean " ++ Json.backquoted (if b then "true" else "false")
  | .integer n => describeInteger n
  | .real x => "floating point " ++ Json.backquoted x.render
  | .string s => "string " ++ Text.quoted s
  | .list => "sequence"
  | .map => "map"

end FoundItem

inductive Complaint where
  | wrongType (found : FoundItem) (expected : String)
  | wrongValue (found : FoundItem) (expected : String)
  | unknownField (name : String) (known : List String)
  | unknownVariant (name : String) (known : List String)
  | duplicateField (name : String)
  | missingField (name : String)

namespace Complaint

def oneOf : List String → String
  | [a, b] => Json.backquoted a ++ " or " ++ Json.backquoted b
  | names => "one of " ++ ", ".intercalate (names.map Json.backquoted)

def message : Complaint → String
  | .wrongType found expected => "invalid type: " ++ found.describe ++ ", expected " ++ expected
  | .wrongValue found expected => "invalid value: " ++ found.describe ++ ", expected " ++ expected
  | .unknownField name known =>
      "unknown field " ++ Json.backquoted name ++ ", expected " ++ oneOf known
  | .unknownVariant name known =>
      "unknown variant " ++ Json.backquoted name ++ ", expected " ++ oneOf known
  | .duplicateField name => "duplicate field " ++ Json.backquoted name
  | .missingField name => "missing field " ++ Json.backquoted name

end Complaint

inductive ShapeError where
  | broken (fault : Break)
  | ended
  | severalDocuments
  /-- A complaint with the names that lead to its object and the place of it, once they are known.
  -/
  | complaint (c : Complaint) (place : Option (List String × Mark))

namespace ShapeError

def atMark (m : Mark) : String := if m.isStart then "" else " at " ++ m.message

def message : ShapeError → String
  | .broken (.syntaxError e) => e.message
  | .broken (.unknownAnchor m) => "unknown anchor" ++ atMark m
  | .ended => "EOF while parsing a value"
  | .severalDocuments =>
      "deserializing from YAML containing more than one document is not supported"
  | .complaint c none => c.message
  | .complaint c (some (path, m)) =>
      let front := if path.isEmpty then "" else ".".intercalate path ++ ": "
      front ++ c.message ++ atMark m

end ShapeError

inductive SettingsError where
  | unreadable (path : String) (e : OsError)
  | notUtf8 (path : String)
  | shape (e : ShapeError)
  | flaw (f : SettingsFlaw)

namespace SettingsError

def code : SettingsError → ErrorCode
  | .unreadable _ _ => .internal
  | .notUtf8 _ => .internal
  | .shape _ => .badRequest
  | .flaw f => f.code

def detail : SettingsError → String
  | .unreadable path e => "read config " ++ path ++ " failed: " ++ e.message
  | .notUtf8 path => "read config " ++ path ++ " failed: stream did not contain valid UTF-8"
  | .shape e => "invalid yaml: " ++ e.message
  | .flaw f => f.detail

def message (e : SettingsError) : String := e.code.explain e.detail

end SettingsError

end Courier
