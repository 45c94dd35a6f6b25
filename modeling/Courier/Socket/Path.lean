import Courier.Text.Blank
import Courier.Text.Quoted
import Courier.Text.Utf8

/-!
# Paths of sockets

The path of a socket must fit into a socket's address and must not be able to write control
characters into a log.
-/

namespace Courier.Socket

open Text

def maxPathBytes : Nat := 103

inductive PathFlaw where
  | notUtf8
  | empty
  | controlCharacters
  | tooLong
deriving DecidableEq, Repr

namespace PathFlaw

def message : PathFlaw → String
  | .notUtf8 => "not valid UTF-8"
  | .empty => "empty"
  | .controlCharacters => "contains control characters"
  | .tooLong => "too long for a unix socket address"

end PathFlaw

def pathFlaw? (path : Bytes) : Option PathFlaw :=
  match Utf8.decode? path with
  | none => some .notUtf8
  | some cs =>
      if cs.isEmpty then some .empty
      else if cs.any isControl then some .controlCharacters
      else if maxPathBytes < path.length then some .tooLong
      else none

end Courier.Socket
