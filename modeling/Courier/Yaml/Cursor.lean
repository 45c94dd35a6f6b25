/-!
# Places in a YAML text

A cursor stands at a place of a text and holds what follows it. Lines end at five kinds of line
break, of which a carriage return with a line feed is one. Columns count characters, indices count
bytes.
-/

namespace Courier.Yaml

def byteCount (cs : List Char) : Nat := cs.foldr (fun c n => c.utf8Size + n) 0

structure Mark where
  index : Nat := 0
  line : Nat := 0
  column : Nat := 0
deriving DecidableEq, Repr

namespace Mark

def next (m : Mark) (c : Char) : Mark := ⟨m.index + c.utf8Size, m.line, m.column + 1⟩

def past (m : Mark) (cs : List Char) : Mark :=
  ⟨m.index + byteCount cs, m.line, m.column + cs.length⟩

def nextLine (m : Mark) (ending : List Char) : Mark := ⟨m.index + byteCount ending, m.line + 1, 0⟩

def isStart (m : Mark) : Bool := m.line == 0 && m.column == 0

end Mark

def isBreak (c : Char) : Bool :=
  c == '\n' || c == '\r' || c == '\u0085' || c == '\u2028' || c == '\u2029'

def isBlank (c : Char) : Bool := c == ' ' || c == '\t'

/-- Whether a place holds no visible character: a blank, a break, or the end of the text. -/
def isEdge : Option Char → Bool
  | none => true
  | some c => isBlank c || isBreak c

def isWordChar (c : Char) : Bool := c.isAlphanum || c == '_' || c == '-'

/-- The break at the front of a text, as it is read, and the number of its characters. Two breaks
keep their kind, the others are read as a line feed. -/
def breakOf : List Char → Option (Char × Nat)
  | '\r' :: '\n' :: _ => some ('\n', 2)
  | c :: _ =>
      if isBreak c then some (if c = '\u2028' ∨ c = '\u2029' then c else '\n', 1) else none
  | [] => none

def beginsMarker (c : Char) : List Char → Bool
  | a :: b :: d :: rest => a == c && b == c && d == c && isEdge rest.head?
  | _ => false

def isDocumentMarker (m : Mark) (cs : List Char) : Bool :=
  m.column == 0 && (beginsMarker '-' cs || beginsMarker '.' cs)

structure Cursor where
  rest : List Char
  mark : Mark := {}
  /-- The number of bytes before the forbidden character for which no more can be read; none if all
  the rest of the text can be read. -/
  forbidden : Option Nat := none
deriving Repr

namespace Cursor

def at? (c : Cursor) (n : Nat) : Option Char := c.rest[n]?

def peek? (c : Cursor) : Option Char := c.rest.head?

def sees (c : Cursor) (x : Char) : Bool := c.peek? == some x

def skip (c : Cursor) : Cursor :=
  { c with rest := c.rest.tail, mark := c.mark.past (c.rest.take 1) }

def skips (n : Nat) (c : Cursor) : Cursor :=
  { c with rest := c.rest.drop n, mark := c.mark.past (c.rest.take n) }

def takeWhile (test : Char → Bool) (c : Cursor) : List Char × Cursor :=
  let taken := c.rest.takeWhile test
  (taken, { c with rest := c.rest.dropWhile test, mark := c.mark.past taken })

def skipWhile (test : Char → Bool) (c : Cursor) : Cursor := (c.takeWhile test).2

def skipBlanks (c : Cursor) : Cursor := c.skipWhile isBlank

def skipComment (c : Cursor) : Cursor := if c.sees '#' then c.skipWhile (!isBreak ·) else c

def skipBreak (c : Cursor) : Cursor :=
  match breakOf c.rest with
  | none => c
  | some (_, size) =>
      { c with rest := c.rest.drop size, mark := c.mark.nextLine (c.rest.take size) }

def atLineEnd (c : Cursor) : Bool := c.peek?.all isBreak

def edgeAt (c : Cursor) (n : Nat) : Bool := isEdge (c.at? n)

end Cursor

end Courier.Yaml
