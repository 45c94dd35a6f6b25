import Courier.Message.Failure
import Courier.Wire.Decoder

/-!
# Settings

What a server is told before it starts, and the limits within which it must be told so. `check`
finds the first flaw in the order of the fields.
-/

namespace Courier

inductive SessionMode where
  | singleShot
  | persistent
deriving DecidableEq, Repr

structure Settings where
  /-- The version of the settings, not of the protocol. -/
  version : Nat := 1
  /-- The path of the socket, which need not be text before it is checked. -/
  socketPath : Text.Bytes := Text.utf8 "/tmp/cmitp.sock"
  sessionMode : SessionMode := .singleShot
  maxFrameBytes : Nat := Decoder.defaultLimit
  socketMode : Nat := 384
  readTimeout : Option Nat := none
  writeTimeout : Option Nat := none
deriving DecidableEq, Repr

inductive SettingsFlaw where
  | version (n : Nat)
  | noSocketPath
  | maxFrameBytes
  | socketMode
  | timeout (name : String)
deriving DecidableEq, Repr

namespace SettingsFlaw

def code : SettingsFlaw → ErrorCode
  | .version _ => .unsupportedVersion
  | _ => .badRequest

def detail : SettingsFlaw → String
  | .version n => "config version " ++ Decimal.numeral n
  | .noSocketPath => "server.socket_path must not be empty"
  | .maxFrameBytes => "server.max_frame_bytes must be between 256 and 16777216"
  | .socketMode => "server.socket_mode must be a permission mask (<= 0o777)"
  | .timeout name => "server." ++ name ++ " must be between 1 and 3600000"

def message (flaw : SettingsFlaw) : String := flaw.code.explain flaw.detail

end SettingsFlaw

namespace Settings

def readTimeoutName : String := "read_timeout_ms"

def writeTimeoutName : String := "write_timeout_ms"

/-- Whether a time limit is absent or within an hour. -/
def isTimeout (t : Option Nat) : Bool := t.all fun ms => 1 ≤ ms && ms ≤ 3600000

def path (s : Settings) : String := String.ofList (Text.Utf8.decodeLossy s.socketPath)

def flaw? (s : Settings) : Option SettingsFlaw :=
  if s.version ≠ 1 then some (.version s.version)
  else if s.socketPath.isEmpty then some .noSocketPath
  else if s.maxFrameBytes < 256 ∨ 16777216 < s.maxFrameBytes then some .maxFrameBytes
  else if 511 < s.socketMode then some .socketMode
  else if !isTimeout s.readTimeout then some (.timeout readTimeoutName)
  else if !isTimeout s.writeTimeout then some (.timeout writeTimeoutName)
  else none

def check (s : Settings) : Except SettingsFlaw Settings :=
  match s.flaw? with
  | none => .ok s
  | some flaw => .error flaw

end Settings

end Courier
