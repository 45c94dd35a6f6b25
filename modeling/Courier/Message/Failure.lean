import Courier.Json.Error
import Courier.Json.Kind
import Courier.Message.Version

/-!
# What can go wrong with a message

A failure is a cause. Its code is what peers may rely on, its phrase goes on the status line, and
its message is for people; each is settled here and nowhere else.
-/

namespace Courier

inductive ErrorCode where
  | badRequest
  | notImplemented
  | unsupportedVersion
  | payloadTooLarge
  | notFound
  | transport
  | internal
deriving DecidableEq, Repr

namespace ErrorCode

def name : ErrorCode → String
  | .badRequest => "BAD_REQUEST"
  | .notImplemented => "NOT_IMPLEMENTED"
  | .unsupportedVersion => "UNSUPPORTED_VERSION"
  | .payloadTooLarge => "PAYLOAD_TOO_LARGE"
  | .notFound => "NOT_FOUND"
  | .transport => "TRANSPORT"
  | .internal => "INTERNAL"

/-- The name in small letters, the last part of the topic of an error that answers no request. -/
def topicName : ErrorCode → String
  | .badRequest => "bad_request"
  | .notImplemented => "not_implemented"
  | .unsupportedVersion => "unsupported_version"
  | .payloadTooLarge => "payload_too_large"
  | .notFound => "not_found"
  | .transport => "transport"
  | .internal => "internal"

def phrase : ErrorCode → String
  | .badRequest => "Bad Request"
  | .notImplemented => "Not Implemented"
  | .unsupportedVersion => "Unsupported Version"
  | .payloadTooLarge => "Payload Too Large"
  | .notFound => "Not Found"
  | .transport => "Transport Failure"
  | .internal => "Internal Server Error"

def explain (code : ErrorCode) (detail : String) : String :=
  match code with
  | .badRequest => "bad request: " ++ detail
  | .notImplemented => "unknown verb: " ++ detail
  | .unsupportedVersion => "unsupported protocol version: " ++ detail
  | .payloadTooLarge => "frame exceeds " ++ detail ++ " bytes"
  | .notFound => "not found: " ++ detail
  | .transport => "transport: " ++ detail
  | .internal => "internal: " ++ detail

end ErrorCode

inductive EnvelopeFlaw where
  | unknownField (name : String)
  | duplicateField (name : String)
  | missingField (name : String)
  | wrongKind (found : Json.Value) (expected : String)
  | badTimestamp
  /-- A list that ends before the topic. -/
  | tooShort (length : Nat)

namespace EnvelopeFlaw

def message : EnvelopeFlaw → String
  | .unknownField name =>
      "unknown field " ++ Json.backquoted name
        ++ ", expected one of `_id`, `id`, `timestamp`, `topic`, `payload`"
  | .duplicateField name => "duplicate field " ++ Json.backquoted name
  | .missingField name => "missing field " ++ Json.backquoted name
  | .wrongKind found expected => "invalid type: " ++ found.describe ++ ", expected " ++ expected
  | .badTimestamp => "data did not match any variant of untagged enum Stamp"
  | .tooShort length =>
      "invalid length " ++ Decimal.numeral length ++ ", expected struct Envelope with 4 elements"

end EnvelopeFlaw

inductive Malformed where
  | unfinishedFrame
  | trailingBytes
  | headNotText
  | requestLine (head : String)
  | statusLine (head : String)
  | noSeparator
  | noBody
  | bodyNotJson (error : Json.Error)
  | bodyNotObject
  | badEnvelope (flaw : EnvelopeFlaw)
  | noResponseId
  | emptyToken (kind : String)
  | blankInToken (kind token : String)
  | other (reason : String)

namespace Malformed

def message : Malformed → String
  | .unfinishedFrame => "incomplete frame: missing blank-line delimiter"
  | .trailingBytes => "trailing bytes after frame"
  | .headNotText => "head line is not valid UTF-8"
  | .requestLine head => "bad request syntax (" ++ Text.quoted head ++ ")"
  | .statusLine head => "bad status line (" ++ Text.quoted head ++ ")"
  | .noSeparator => "missing blank line after head line"
  | .noBody => "missing message body"
  | .bodyNotJson error => "invalid envelope json: " ++ error.message
  | .bodyNotObject => "message body must be a JSON object"
  | .badEnvelope flaw => "invalid envelope: " ++ flaw.message
  | .noResponseId => "response body missing id"
  | .emptyToken kind => kind ++ " must not be empty"
  | .blankInToken kind token =>
      kind ++ " must not contain whitespace (" ++ Text.quoted token ++ ")"
  | .other reason => reason

end Malformed

inductive VersionFlaw where
  | malformed (token : String)
  | unserved (version : Version)
  | other (reason : String)
deriving DecidableEq, Repr

namespace VersionFlaw

def message : VersionFlaw → String
  | .malformed token => "bad protocol version (" ++ token ++ ")"
  | .unserved version => "invalid CMIT version (" ++ version.numbers ++ ")"
  | .other reason => reason

end VersionFlaw

inductive Absent where
  | queueEntry (id : String)
  | other (what : String)
deriving DecidableEq, Repr

namespace Absent

def message : Absent → String
  | .queueEntry id => "queue entry " ++ id
  | .other what => what

end Absent

inductive Failure where
  | badRequest (cause : Malformed)
  | unknownVerb (verb : String)
  | unsupportedVersion (cause : VersionFlaw)
  | payloadTooLarge (limit : Nat)
  | notFound (what : Absent)
  | transport (what : String)
  | internal (what : String)

namespace Failure

def code : Failure → ErrorCode
  | .badRequest _ => .badRequest
  | .unknownVerb _ => .notImplemented
  | .unsupportedVersion _ => .unsupportedVersion
  | .payloadTooLarge _ => .payloadTooLarge
  | .notFound _ => .notFound
  | .transport _ => .transport
  | .internal _ => .internal

def detail : Failure → String
  | .badRequest cause => cause.message
  | .unknownVerb verb => verb
  | .unsupportedVersion cause => cause.message
  | .payloadTooLarge limit => Decimal.numeral limit
  | .notFound what => what.message
  | .transport what => what
  | .internal what => what

def message (f : Failure) : String := f.code.explain f.detail

end Failure

/-- The version that a token spells, which must be one that is served. -/
def Version.check (token : String) : Except Failure Version :=
  match Version.ofToken? token with
  | none => .error (.unsupportedVersion (.malformed token))
  | some v => if v.isServed then .ok v else .error (.unsupportedVersion (.unserved v))

def Version.parse (token : String) : Except Failure Version :=
  match Version.ofToken? token with
  | none => .error (.unsupportedVersion (.malformed token))
  | some v => .ok v

theorem Version.check_error {token : String} {failure : Failure}
    (h : Version.check token = .error failure) : ∃ cause, failure = .unsupportedVersion cause := by
  unfold Version.check at h
  split at h
  · exact ⟨_, (Except.error.inj h).symm⟩
  · split at h
    · simp at h
    · exact ⟨_, (Except.error.inj h).symm⟩

theorem Version.parse_error {token : String} {failure : Failure}
    (h : Version.parse token = .error failure) : ∃ cause, failure = .unsupportedVersion cause := by
  unfold Version.parse at h
  split at h
  · exact ⟨_, (Except.error.inj h).symm⟩
  · cases h

end Courier
