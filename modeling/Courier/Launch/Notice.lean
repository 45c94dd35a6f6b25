import Courier.Metrics.Report
import Courier.Settings.Error
import Courier.Socket.Bind

/-!
# Notices

What a program that runs a server tells whoever started it. A notice is written with its level, the
part of the program that speaks, a message and, where there is one, a field.
-/

namespace Courier

inductive SettingsSource where
  | named (path : String)
  /-- The file that is looked for when none was asked for. -/
  | usual
  | nowhere
deriving DecidableEq, Repr

def SettingsSource.usualPath : String := "cmit.yaml"

inductive Notice where
  | loading (source : SettingsSource)
  | settingsFailed (e : SettingsError)
  | startFailed (e : Socket.BindError)
  | removingStale (path : String)
  | listening (path : String)
  | signalled
  | notListening
  | stopped (queued : Nat)
  | metrics (m : Metrics)

namespace Notice

inductive Level where
  | info
  | error
deriving DecidableEq, Repr

def Level.name : Level → String
  | .info => "INFO"
  | .error => "ERROR"

def level : Notice → Level
  | .settingsFailed _ => .error
  | .startFailed _ => .error
  | _ => .info

def speaker : Notice → String
  | .removingStale _ => "cmit_server::transport::listener"
  | .listening _ => "cmit_server::transport::listener"
  | .notListening => "cmit_server::transport::listener"
  | _ => "cmit_server"

def message : Notice → String
  | .loading .nowhere => "no config file found, using defaults"
  | .loading _ => "loading config"
  | .settingsFailed _ => "failed to load config"
  | .startFailed _ => "failed to start server"
  | .removingStale _ => "removing stale unix socket"
  | .listening _ => "cmit listener active"
  | .signalled => "signal received, starting graceful shutdown"
  | .notListening => "cmit listener stopped"
  | .stopped _ => "server stopped"
  | .metrics m => "final metrics\n" ++ String.ofList m.render

/-- The field of the notice, with its name. The path that nobody asked for is quoted. -/
def field? : Notice → Option (String × String)
  | .loading (.named path) => some ("path", path)
  | .loading .usual => some ("path", Text.quoted SettingsSource.usualPath)
  | .settingsFailed e => some ("error", e.message)
  | .startFailed e => some ("error", e.message)
  | .removingStale path => some ("path", path)
  | .listening path => some ("path", path)
  | .stopped queued => some ("queued", Decimal.numeral queued)
  | _ => none

def render (n : Notice) : String :=
  let field := n.field?.elim "" fun (name, value) => " " ++ name ++ "=" ++ value
  n.level.name ++ " " ++ n.speaker ++ ": " ++ n.message ++ field

end Notice

end Courier
