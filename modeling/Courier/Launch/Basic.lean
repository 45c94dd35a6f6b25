import Courier.Launch.Notice
import Courier.Server.Service
import Courier.Settings.Read

/-!
# Launching a server

A program that runs a server finds its settings, binds the socket, serves until it is told to stop,
and reports. Settings that were asked for must be there; only those that nobody asked for may be
missing, and then a server starts with what is so by default.
-/

namespace Courier

structure Invocation where
  arguments : List String := []
  fromVariable : Option String := none
deriving DecidableEq, Repr

namespace Invocation

def variableName : String := "CMIT_CONFIG"

/-- The settings that are asked for: the variable goes before the first argument. -/
def wanted? (i : Invocation) : Option String := i.fromVariable.or i.arguments.head?

/-- Where to look for the settings, given whether there is a file where they usually are. -/
def source (i : Invocation) (hasUsual : Bool) : SettingsSource :=
  match i.wanted? with
  | some path => .named path
  | none => if hasUsual then .usual else .nowhere

end Invocation

def SettingsSource.path? : SettingsSource → Option String
  | .named path => some path
  | .usual => some usualPath
  | .nowhere => none

def SettingsSource.load (source : SettingsSource) (read : String → Except OsError Text.Bytes) :
    Except SettingsError Settings :=
  match source.path? with
  | some path => Settings.ofReading path (read path)
  | none => .ok {}

inductive Launch where
  | failed
  | serving (service : Service)

namespace Launch

def siteNotices (settings : Settings) (fs : Files) : List Notice :=
  match Socket.site Files.kernel settings fs with
  | .ok .stale => [.removingStale settings.path]
  | _ => []

def start (i : Invocation) (supply : Supply) (fs : Files) : List Notice × Launch × Files :=
  let source := i.source (fs.hasEntry SettingsSource.usualPath)
  let told := [Notice.loading source]
  match source.load fs.read with
  | .error e => (told ++ [.settingsFailed e], .failed, fs)
  | .ok settings =>
      match Server.ofSettings settings [] with
      | .error flaw => (told ++ [.startFailed (.config flaw)], .failed, fs)
      | .ok server =>
          let told := told ++ siteNotices settings fs
          match Socket.bind Files.kernel settings fs with
          | (.error e, fs) => (told ++ [.startFailed e], .failed, fs)
          | (.ok (), fs) =>
              (told ++ [.listening settings.path],
                .serving { server := server, state := { supply := supply } }, fs)

def stop (s : Service) (fs : Files) : List Notice × Service × Files :=
  let s := s.stop
  ([.signalled, .notListening, .stopped s.state.queue.length, .metrics s.state.metrics], s,
    Socket.unbind Files.kernel s.server.settings fs)

end Launch

end Courier
