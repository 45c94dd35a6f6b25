import Courier.Launch.Basic
import Std.Time.DateTime.Timestamp

/-!
# Command line

Serves one session on the standard streams, for whatever holds the socket and starts a program for
each connection. Notices go to the standard error stream. The program fails if its settings cannot
be read.
-/

namespace Courier.CommandLine

open Text

def osError : IO.Error → OsError
  | .permissionDenied .. => .denied
  | .inappropriateType .. => .isDirectory
  | _ => .noEntry

def readFile (path : String) : IO (Except OsError Bytes) := do
  try
    return .ok (← IO.FS.readBinFile path).toList
  catch e =>
    return .error (osError e)

def hasEntry (path : String) : IO Bool := do
  match ← readFile path with
  | .error .noEntry => return false
  | _ => return true

def hexText (n : Nat) : String :=
  let ds := Nat.toDigits 16 (n % Decimal.twoTo 128)
  String.ofList (List.replicate (32 - ds.length) '0' ++ ds)

def timeText : IO String := do
  let nanos := (← Std.Time.Timestamp.now).toNanosecondsSinceUnixEpoch.val.toNat
  let micros := Decimal.digits (nanos / 1000 % 1000000)
  return Decimal.numeral (nanos / 1000000000) ++ "."
    ++ String.ofList (List.replicate (6 - micros.length) '0' ++ micros)

/-- Random ids, and the present time for as long as it is the present. -/
def freshSupply : IO Supply := do
  let seed := (← IO.getRandomBytes 16).toList.foldl (fun n b => n * 256 + b.toNat) 0
  let time ← timeText
  return ⟨fun n => hexText (seed + n), fun _ => time, fun _ => 0, 0⟩

def tell (notice : Notice) : IO Unit := IO.eprintln notice.render

def emit (events : List Event) : IO Unit := do
  let out ← IO.getStdout
  out.write ⟨(events.flatMap Event.wire).toArray⟩
  out.flush

partial def converse (server : Server) (session : Session) (state : ServerState) :
    IO ServerState := do
  if !session.isOpen then return state
  let bs ← (← IO.getStdin).read 4096
  let arrival := if bs.isEmpty then .finished else .bytes bs.toList
  let state := { state with supply := ← freshSupply }
  let (events, session, state) := session.resume server arrival state
  emit events
  converse server session state

def serve (server : Server) : IO Unit := do
  let (events, session, state) := Session.start server {} false { supply := ← freshSupply }
  emit events
  let state ← converse server session state
  tell (.stopped state.queue.length)
  tell (.metrics state.metrics)

def run (invocation : Invocation) : IO UInt32 := do
  let source := invocation.source (← hasEntry SettingsSource.usualPath)
  tell (.loading source)
  let contents ← readFile (source.path?.getD "")
  match source.load fun _ => contents with
  | .error e =>
      tell (.settingsFailed e)
      return 1
  | .ok settings =>
      match Server.ofSettings settings [] with
      | .error flaw =>
          tell (.startFailed (.config flaw))
          return 1
      | .ok server =>
          serve server
          return 0

end Courier.CommandLine

def main (arguments : List String) : IO UInt32 := do
  let value ← IO.getEnv Courier.Invocation.variableName
  Courier.CommandLine.run { arguments := arguments, fromVariable := value }
