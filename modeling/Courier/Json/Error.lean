import Courier.Text.Utf8
import Courier.Decimal.Natural

/-!
# What can be wrong with a JSON text

A fault is a flaw and the bytes that were unread when it was found. In the whole text that is a
place: the line, counted from one, and the number of bytes of that line up to the fault.
-/

namespace Courier.Json

open Text

inductive Flaw where
  | endInList
  | endInObject
  | endInString
  | endInValue
  | expectedColon
  | expectedListCommaOrEnd
  | expectedObjectCommaOrEnd
  | expectedLiteral
  | expectedValue
  | invalidEscape
  | invalidNumber
  | numberOutOfRange
  | invalidText
  | controlInString
  | keyNotString
  | loneSurrogate
  | trailingComma
  | trailingText
  | endOfSurrogate
  | tooDeep
deriving DecidableEq, Repr

def Flaw.message : Flaw → String
  | .endInList => "EOF while parsing a list"
  | .endInObject => "EOF while parsing an object"
  | .endInString => "EOF while parsing a string"
  | .endInValue => "EOF while parsing a value"
  | .expectedColon => "expected `:`"
  | .expectedListCommaOrEnd => "expected `,` or `]`"
  | .expectedObjectCommaOrEnd => "expected `,` or `\x7d`"
  | .expectedLiteral => "expected ident"
  | .expectedValue => "expected value"
  | .invalidEscape => "invalid escape"
  | .invalidNumber => "invalid number"
  | .numberOutOfRange => "number out of range"
  | .invalidText => "invalid unicode code point"
  | .controlInString => "control character (\\u0000-\\u001F) found while parsing a string"
  | .keyNotString => "key must be a string"
  | .loneSurrogate => "lone leading surrogate in hex escape"
  | .trailingComma => "trailing comma"
  | .trailingText => "trailing characters"
  | .endOfSurrogate => "unexpected end of hex escape"
  | .tooDeep => "recursion limit exceeded"

/-- A flaw and the bytes after the place where it was found. -/
structure Fault where
  flaw : Flaw
  rest : Bytes
deriving DecidableEq, Repr

structure Place where
  line : Nat
  column : Nat
deriving DecidableEq, Repr

namespace Place

def step (p : Place) (b : UInt8) : Place :=
  if b = 10 then ⟨p.line + 1, 0⟩ else ⟨p.line, p.column + 1⟩

def after (bs : Bytes) : Place := bs.foldl step ⟨1, 0⟩

/-- The place in a text where some of it is left. -/
def before (text rest : Bytes) : Place := after (text.take (text.length - rest.length))

def message (p : Place) : String :=
  "line " ++ Decimal.numeral p.line ++ " column " ++ Decimal.numeral p.column

end Place

structure Error where
  flaw : Flaw
  place : Place
deriving DecidableEq, Repr

namespace Error

def message (e : Error) : String := e.flaw.message ++ " at " ++ e.place.message

end Error

def Fault.within (f : Fault) (text : Bytes) : Error := ⟨f.flaw, Place.before text f.rest⟩

end Courier.Json
