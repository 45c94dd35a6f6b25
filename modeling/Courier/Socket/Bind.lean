import Courier.Files.Kernel
import Courier.Files.Path
import Courier.Settings.Basic
import Courier.Socket.Path

/-!
# Binding a socket

A server's socket goes where nothing stands, or where a socket stands that nobody listens to any
more. `survey` finds out which without touching anything; every refusal that comes from it, from the
settings or from the path leaves all files as they are. `bind` then clears the place, makes the
directories above it, and puts the socket there with the permission bits of the settings.
-/

namespace Courier.Socket

open Text

inductive BindError where
  | config (flaw : SettingsFlaw)
  | invalidPath (path : List Char) (flaw : PathFlaw)
  | inUse (path : String)
  | notSocket (path : String)
  | metadata (path : String) (e : OsError)
  | connect (path : String) (e : OsError)
  | cleanup (path : String) (e : OsError)
  | createDirectory (path : String) (e : OsError)
  | bind (path : String) (e : OsError)
  | permissions (path : String) (e : OsError)
  /-- No connections can be waited for. -/
  | runtime (e : OsError)
deriving DecidableEq, Repr

namespace BindError

def message : BindError → String
  | .config flaw => "invalid server config: " ++ flaw.message
  | .invalidPath path flaw =>
      "invalid unix socket path " ++ quoted (String.ofList path) ++ ": " ++ flaw.message
  | .inUse path => "existing unix socket " ++ path ++ " is already in use"
  | .notSocket path => "unix socket path " ++ path ++ " is not a socket"
  | .metadata path e => "failed to read metadata for unix socket " ++ path ++ ": " ++ e.message
  | .connect path e => "failed to connect to existing unix socket " ++ path ++ ": " ++ e.message
  | .cleanup path e => "failed to remove stale unix socket " ++ path ++ ": " ++ e.message
  | .createDirectory path e => "failed to create socket directory " ++ path ++ ": " ++ e.message
  | .bind path e => "failed to bind unix listener at " ++ path ++ ": " ++ e.message
  | .permissions path e => "failed to set permissions on " ++ path ++ ": " ++ e.message
  | .runtime e => "failed to register listener with the runtime: " ++ e.message

end BindError

def checkPath (path : Bytes) : Except BindError Unit :=
  match pathFlaw? path with
  | none => .ok ()
  | some flaw => .error (.invalidPath (Utf8.decodeLossy path) flaw)

inductive Site where
  | vacant
  | stale
deriving DecidableEq, Repr

variable {σ : Type} (k : Kernel σ)

/-- Finds out what stands at a path. Anything but a socket that refuses connections is in the way;
one that is gone by then counts as refusing. -/
def survey (path : String) (s : σ) : Except BindError Site :=
  match k.lookUp s path with
  | .error .noEntry => .ok .vacant
  | .error e => .error (.metadata path e)
  | .ok (.socket _) =>
      match k.connect s path with
      | .refused => .ok .stale
      | .failed .noEntry => .ok .stale
      | .accepted => .error (.inUse path)
      | .failed e => .error (.connect path e)
  | .ok _ => .error (.notSocket path)

def clear (path : String) (s : σ) : Site → Except BindError σ
  | .vacant => .ok s
  | .stale =>
      match k.remove s path with
      | .ok s => .ok s
      | .error e => .error (.cleanup path e)

/-- Puts a socket at a path and sets its permission bits. If they cannot be set it does not stay. -/
def put (path : String) (mode : Nat) (s : σ) : Except BindError Unit × σ :=
  match k.makeSocket s path with
  | .error e => (.error (.bind path e), s)
  | .ok s =>
      match k.setMode s path mode with
      | .error e => (.error (.permissions path e), k.discard path s)
      | .ok s =>
          match k.attend s path with
          | .error e => (.error (.runtime e), k.discard path s)
          | .ok () => (.ok (), s)

def putBelow (path : String) (mode : Nat) (s : σ) : Except BindError Unit × σ :=
  let above := Files.above path
  match k.makeDirectories s above with
  | (.error e, s) => (.error (.createDirectory (above.headD "") e), s)
  | (.ok (), s) => put k path mode s

def site (settings : Settings) (s : σ) : Except BindError Site :=
  match settings.flaw? with
  | some flaw => .error (.config flaw)
  | none =>
      match checkPath settings.socketPath with
      | .error e => .error e
      | .ok () => survey k settings.path s

def bind (settings : Settings) (s : σ) : Except BindError Unit × σ :=
  match site k settings s with
  | .error e => (.error e, s)
  | .ok found =>
      match clear k settings.path s found with
      | .error e => (.error e, s)
      | .ok s => putBelow k settings.path settings.socketMode s

def unbind (settings : Settings) (s : σ) : σ := k.discard settings.path s

end Courier.Socket
