import Courier.Files.Path
import Courier.Text.Utf8
import Courier.Decimal.Natural

/-!
# Files

The files of a machine: directories, plain files and sockets by their location, which is the list
of names from the root. Paths are walked name by name, and what may go wrong on the way is what a
kernel reports.
-/

namespace Courier

open Text

inductive OsError where
  | noEntry
  | denied
  | exists
  | notDirectory
  | isDirectory
  | addressInUse
  | other (number : Nat) (phrase : String)
deriving DecidableEq, Repr

namespace OsError

def number : OsError → Nat
  | .noEntry => 2
  | .denied => 13
  | .exists => 17
  | .notDirectory => 20
  | .isDirectory => 21
  | .addressInUse => 98
  | .other number _ => number

def phrase : OsError → String
  | .noEntry => "No such file or directory"
  | .denied => "Permission denied"
  | .exists => "File exists"
  | .notDirectory => "Not a directory"
  | .isDirectory => "Is a directory"
  | .addressInUse => "Address already in use"
  | .other _ phrase => phrase

def message (e : OsError) : String :=
  e.phrase ++ " (os error " ++ Decimal.numeral e.number ++ ")"

end OsError

inductive Reception where
  | accepted
  | refused
  | failed (e : OsError)
deriving DecidableEq, Repr

inductive Node where
  | directory
  | file (data : Bytes)
  | socket (reception : Reception) (mode : Nat)
deriving DecidableEq, Repr

abbrev Location := List String

/-- Files by location. The root is always a directory. -/
structure Files where
  nodes : List (Location × Node) := []
  current : Location := []
deriving DecidableEq, Repr

namespace Files

def get? (fs : Files) (location : Location) : Option Node :=
  if location = [] then some .directory else (fs.nodes.find? (·.1 = location)).map (·.2)

def erase (fs : Files) (location : Location) : Files :=
  { fs with nodes := fs.nodes.filter (·.1 ≠ location) }

def put (fs : Files) (location : Location) (node : Node) : Files :=
  { fs with nodes := (location, node) :: (fs.erase location).nodes }

def step (fs : Files) (location : Location) (name : String) : Except OsError Location :=
  match fs.get? location with
  | none => .error .noEntry
  | some .directory =>
      .ok (if name = "." then location
        else if name = ".." then location.dropLast
        else location ++ [name])
  | some _ => .error .notDirectory

def walk (fs : Files) (location : Location) (names : List String) : Except OsError Location :=
  names.foldlM fs.step location

/-- Where a path starts. The empty path starts nowhere. -/
def start (fs : Files) (path : String) : Except OsError Location :=
  if path.isEmpty then .error .noEntry
  else .ok (if isAbsolute path then [] else fs.current)

def lookUp (fs : Files) (path : String) : Except OsError (Location × Node) :=
  match (fs.start path).bind fun location => fs.walk location (names path) with
  | .error e => .error e
  | .ok location =>
      match fs.get? location with
      | none => .error .noEntry
      | some node =>
          if asksDirectory path ∧ node ≠ .directory then .error .notDirectory
          else .ok (location, node)

def hasEntry (fs : Files) (path : String) : Bool := (fs.lookUp path).toOption.isSome

def isDirectory (fs : Files) (path : String) : Bool :=
  match fs.lookUp path with
  | .ok (_, .directory) => true
  | _ => false

/-- The location where a path would put something new: nothing stands there, but in a directory. -/
def vacancy (fs : Files) (path : String) : Except OsError Location :=
  match (fs.start path).bind fun location => fs.walk location (names path).dropLast with
  | .error e => .error e
  | .ok parent =>
      match (names path).getLast?, fs.get? parent with
      | none, _ => .error .exists
      | some _, none => .error .noEntry
      | some name, some .directory =>
          if name = "." ∨ name = ".." ∨ (fs.get? (parent ++ [name])).isSome then .error .exists
          else .ok (parent ++ [name])
      | some _, some _ => .error .notDirectory

def makeDirectory (fs : Files) (path : String) : Except OsError Files :=
  (fs.vacancy path).map fun location => fs.put location .directory

/-- Puts a socket that somebody listens to where nothing stands; its mode is still open. -/
def makeSocket (fs : Files) (path : String) : Except OsError Files :=
  match fs.vacancy path with
  | .error .exists => .error .addressInUse
  | .error e => .error e
  | .ok location =>
      if asksDirectory path then .error .noEntry else .ok (fs.put location (.socket .accepted 511))

def setMode (fs : Files) (path : String) (mode : Nat) : Except OsError Files :=
  (fs.lookUp path).map fun (location, node) =>
    match node with
    | .socket reception _ => fs.put location (.socket reception mode)
    | _ => fs

def remove (fs : Files) (path : String) : Except OsError Files :=
  match fs.lookUp path with
  | .error e => .error e
  | .ok (_, .directory) => .error .isDirectory
  | .ok (location, _) => .ok (fs.erase location)

def read (fs : Files) (path : String) : Except OsError Bytes :=
  match fs.lookUp path with
  | .error e => .error e
  | .ok (_, .file data) => .ok data
  | .ok (_, _) => .error .isDirectory

end Files

end Courier
