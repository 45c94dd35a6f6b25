import Courier.Message.Failure
import Courier.Text.Blank

/-!
# Tokens

Verbs, versions and statuses are tokens: one or more characters, none of them a space or a control
character. A status holds the proof that it is one.
-/

namespace Courier

open Text

def isToken (cs : List Char) : Bool := !cs.isEmpty && cs.all fun c => !isSpace c && !isControl c

/-- Why a text that is no token is refused; `kind` says what it was to be. -/
def tokenFlaw (kind token : String) : Malformed :=
  if token.toList.isEmpty then .emptyToken kind else .blankInToken kind token

def checkToken (kind token : String) : Except Failure Unit :=
  if isToken token.toList then .ok () else .error (.badRequest (tokenFlaw kind token))

/-- The status token of a response. Any token may be one. -/
structure Status where
  token : String
  valid : isToken token.toList = true
deriving DecidableEq

namespace Status

def ok : Status := ⟨"ok", by decide⟩

def error : Status := ⟨"error", by decide⟩

def ofToken (token : String) : Except Failure Status :=
  if h : isToken token.toList = true then .ok ⟨token, h⟩
  else .error (.badRequest (tokenFlaw "status" token))

def isOk (s : Status) : Bool := s.token == ok.token

end Status

end Courier
