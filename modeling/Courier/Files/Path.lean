/-!
# Paths

A path is a text whose parts stand between slashes. Empty parts mean nothing, except that a path
that begins with one starts at the root and a path that ends with one asks for a directory.
-/

namespace Courier.Files

def parts (path : String) : List String := (path.toList.splitOn '/').map String.ofList

def names (path : String) : List String := (parts path).filter (· ≠ "")

def isAbsolute (path : String) : Bool := path.toList.head? == some '/'

def asksDirectory (path : String) : Bool := path.toList.getLast? == some '/'

/-- The path with the given parts; a single empty part is the root. -/
def join (parts : List String) : String := if parts = [""] then "/" else "/".intercalate parts

/-- A path and the directories above it, the nearest first, from its parts with the last one first.
A part that is empty or a single dot is passed over unless it is the first of all. -/
def upward : List String → List String
  | [] => []
  | part :: above =>
      if above ≠ [] ∧ (part = "" ∨ part = ".") then upward above
      else join (part :: above).reverse :: upward above

def above (path : String) : List String := (upward (parts path).reverse).tail

end Courier.Files
