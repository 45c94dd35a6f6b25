import Courier.Files.Basic

/-!
# Kernels

The calls on files that a server makes. They are those of whatever kernel runs it: `Files.kernel`
answers them from files that are held as a list, and what is built from the calls here works with
any other.
-/

namespace Courier

inductive Standing where
  | directory
  | socket (mode : Nat)
  | other
deriving DecidableEq, Repr

/-- The calls of a kernel that keeps a `σ`. A call that fails leaves what it keeps as it was, and so
does one that only asks. -/
structure Kernel (σ : Type) where
  /-- What stands at a path; a link at its end is not followed. -/
  lookUp : σ → String → Except OsError Standing
  /-- Whether a path leads to a directory; a link at its end is followed. -/
  isDirectory : σ → String → Bool
  connect : σ → String → Reception
  makeDirectory : σ → String → Except OsError σ
  makeSocket : σ → String → Except OsError σ
  setMode : σ → String → Nat → Except OsError σ
  remove : σ → String → Except OsError σ
  /-- Whether this process can wait for connections to the socket that it has put at a path. -/
  attend : σ → String → Except OsError Unit

namespace Kernel

variable {σ : Type} (k : Kernel σ)

/-- Makes a directory, of which the second argument lists the path and the ones above it, together
with those that are missing. -/
def makeDirectories (s : σ) : List String → Except OsError Unit × σ
  | [] => (.ok (), s)
  | path :: above =>
      match k.makeDirectory s path with
      | .ok s => (.ok (), s)
      | .error .noEntry =>
          match makeDirectories s above with
          | (.error e, s) => (.error e, s)
          | (.ok (), s) =>
              match k.makeDirectory s path with
              | .ok s => (.ok (), s)
              | .error e => (if k.isDirectory s path then .ok () else .error e, s)
      | .error e => (if k.isDirectory s path then .ok () else .error e, s)

def discard (path : String) (s : σ) : σ :=
  match k.remove s path with
  | .ok s => s
  | .error _ => s

end Kernel

def Node.standing : Node → Standing
  | .directory => .directory
  | .file _ => .other
  | .socket _ mode => .socket mode

namespace Files

def connect (fs : Files) (path : String) : Reception :=
  match fs.lookUp path with
  | .error e => .failed e
  | .ok (_, .socket reception _) => reception
  | .ok (_, _) => .refused

def kernel : Kernel Files where
  lookUp fs path := (fs.lookUp path).map fun (_, node) => node.standing
  isDirectory := isDirectory
  connect := connect
  makeDirectory := makeDirectory
  makeSocket := makeSocket
  setMode := setMode
  remove := remove
  attend _ _ := .ok ()

end Files

end Courier
