import Courier.Yaml.Cursor

/-!
# Lines folded into one

A scalar may go over several lines. The blanks around a line break are dropped; a single break
becomes a space, and of several the first is dropped.
-/

namespace Courier.Yaml

def fold (first : List Char) (others : List Char) : List Char :=
  if first = ['\n'] then if others = [] then [' '] else others else first ++ others

structure Gathered where
  /-- The text, the last character first. -/
  text : List Char := []
  blanks : List Char := []
  first : List Char := []
  others : List Char := []
  isBroken : Bool := false

namespace Gathered

def isPending (g : Gathered) : Bool := g.isBroken || !g.blanks.isEmpty

/-- With one more blank; it counts only before the first line break. -/
def addBlank (g : Gathered) (c : Char) : Gathered :=
  if g.isBroken then g else { g with blanks := c :: g.blanks }

def addBreak (g : Gathered) (c : Char) : Gathered :=
  if g.isBroken then { g with others := c :: g.others }
  else { g with blanks := [], first := [c], isBroken := true }

def join (g : Gathered) : Gathered :=
  let gap := if g.isBroken then fold g.first g.others.reverse else g.blanks.reverse
  { text := gap.reverse ++ g.text }

def push (g : Gathered) (c : Char) : Gathered := { g with text := c :: g.text }

end Gathered

end Courier.Yaml
