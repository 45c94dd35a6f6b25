import Courier.Message.Token
import Courier.Text.Blank

/-!
# Head lines

The first line of a request has exactly two words, its verb and its version. The first line of a
response begins with a version and a status; the rest of it, trimmed, is the reason.
-/

namespace Courier.Wire

open Text

def requestWords? (head : List Char) : Option (String × String) :=
  match nextWord? head with
  | none => none
  | some (verb, rest) =>
      match nextWord? rest with
      | none => none
      | some (version, rest) =>
          match nextWord? rest with
          | none => some (String.ofList verb, String.ofList version)
          | some _ => none

def readRequestLine (head : List Char) : Except Failure (String × String) :=
  match requestWords? head with
  | some words => .ok words
  | none => .error (.badRequest (.requestLine (String.ofList head)))

def statusWords? (head : List Char) : Option (String × String × String) :=
  match nextWord? head with
  | none => none
  | some (version, rest) =>
      match nextWord? rest with
      | none => none
      | some (status, rest) =>
          some (String.ofList version, String.ofList status, String.ofList (trim rest))

def readStatusLine (head : List Char) : Except Failure (String × Status × String) :=
  match statusWords? head with
  | none => .error (.badRequest (.statusLine (String.ofList head)))
  | some (version, status, reason) =>
      match Status.ofToken status with
      | .error f => .error f
      | .ok status => .ok (version, status, reason)

def flattenReason (reason : String) : List Char :=
  reason.toList.map fun c => if c = '\r' ∨ c = '\n' then ' ' else c

def requestLine (verb version : String) : List Char := verb.toList ++ ' ' :: version.toList

/-- Writes a status line. Without a reason it ends behind the status. -/
def statusLine (version : String) (status : Status) (reason : String) : List Char :=
  let start := version.toList ++ ' ' :: status.token.toList
  match flattenReason reason with
  | [] => start
  | c :: cs => start ++ ' ' :: c :: cs

end Courier.Wire
