import Courier.Decimal.Natural
import Courier.Yaml.Error
import Courier.Yaml.Token

/-!
# Block scalars

A block scalar has a header, which says how its lines are joined, how many columns it is indented
and what becomes of the breaks at its end, and then lines at that indentation. Without a number in
the header the first line that is not empty tells the indentation.
-/

namespace Courier.Yaml

inductive Chomping where
  | strip
  | clip
  | keep
deriving DecidableEq, Repr

structure BlockHeader where
  chomping : Chomping := .clip
  increment : Option Nat := none
deriving DecidableEq, Repr

def readChomping (c : Cursor) : Option Chomping × Cursor :=
  if c.sees '+' then (some .keep, c.skip)
  else if c.sees '-' then (some .strip, c.skip)
  else (none, c)

def readIncrement (start : Mark) (c : Cursor) : Except SyntaxError (Option Nat × Cursor) :=
  match c.peek?.bind Decimal.digitValue? with
  | none => .ok (none, c)
  | some 0 => flawAt .zeroIndentation c.mark .blockScalar start
  | some n => .ok (some n, c.skip)

def readIndicators (start : Mark) (c : Cursor) : Except SyntaxError (BlockHeader × Cursor) :=
  match readChomping c with
  | (some chomping, c) => (readIncrement start c).map fun (n, c) => (⟨chomping, n⟩, c)
  | (none, c) =>
      match readIncrement start c with
      | .error e => .error e
      | .ok (none, c) => .ok ({}, c)
      | .ok (some n, c) =>
          let (chomping, c) := readChomping c
          .ok (⟨chomping.getD .clip, some n⟩, c)

structure BlockText where
  /-- The text, the last character first. -/
  text : List Char := []
  first : List Char := []
  others : List Char := []
  column : Option Nat
  /-- The deepest indentation of the empty lines before the first that is not empty. -/
  deepest : Nat := 0
  isIndented : Bool := false

namespace BlockText

/-- With the breaks before a new line made part of the text. Between two lines that do not begin
with a blank a folded scalar has a space for a single break. -/
def joinLine (b : BlockText) (isFolded : Bool) (c : Char) : BlockText :=
  let isFolding := isFolded && b.first == ['\n'] && !b.isIndented && !isBlank c
  let gap :=
    if isFolding then if b.others.isEmpty then [' '] else b.others else b.others ++ b.first
  { b with text := gap ++ b.text, first := [], others := [], isIndented := isBlank c }

def addBreak (b : BlockText) (inLine : Bool) (c : Char) : BlockText :=
  if inLine then { b with first := [c] } else { b with others := c :: b.others }

def finish (b : BlockText) (chomping : Chomping) : List Char :=
  match chomping with
  | .strip => b.text.reverse
  | .clip => (b.first ++ b.text).reverse
  | .keep => (b.others ++ b.first ++ b.text).reverse

end BlockText

/-- Reads on in a block scalar, within a line or before one. An indentation that no number gave is
at least `least`. -/
def readBlockOnto (isFolded : Bool) (least : Nat) (start : Mark) (forbidden : Option Nat)
    (b : BlockText) (inLine : Bool) (m : Mark) : List Char → Except SyntaxError (BlockText × Cursor)
  | [] => (need forbidden 1 []).map fun _ => (b, ⟨[], m, forbidden⟩)
  | '\r' :: '\n' :: cs =>
      readBlockOnto isFolded least start forbidden (b.addBreak inLine '\n') false
        (m.nextLine ['\r', '\n']) cs
  | c :: cs =>
      match breakOf (c :: cs) with
      | some (x, _) => do
          need forbidden 2 (c :: cs)
          readBlockOnto isFolded least start forbidden (b.addBreak inLine x) false (m.nextLine [c])
            cs
      | none =>
          if inLine then
            readBlockOnto isFolded least start forbidden { b with text := c :: b.text } true
              (m.next c) cs
          else
            let isOutside := b.column.all (m.column < ·)
            if isOutside && c == ' ' then
              let b := { b with deepest := max b.deepest (m.column + 1) }
              readBlockOnto isFolded least start forbidden b false (m.next c) cs
            else if isOutside && c == '\t' then flawAt .tabForIndentation m .blockScalar start
            else
              let column := b.column.getD (max least (max b.deepest m.column))
              if m.column = column then
                let b := { b with column := some column }.joinLine isFolded c
                readBlockOnto isFolded least start forbidden { b with text := c :: b.text } true
                  (m.next c) cs
              else .ok (b, ⟨c :: cs, m, forbidden⟩)

def readBlock (indent : Option Nat) (c : Cursor) : Except SyntaxError (List Char × Cursor) := do
  let start := c.mark
  let isFolded := c.sees '>'
  let (header, c) ← readIndicators start c.skip
  let c ← c.skipBlanks.skipComment.ensure 1
  if !c.atLineEnd then flawAt .noCommentOrBreak c.mark .blockScalar start
  else
    let c ← c.takeBreak
    let column := header.increment.map (indent.getD 0 + ·)
    let least := max 1 ((indent.map (· + 1)).getD 0)
    let (b, c) ←
      readBlockOnto isFolded least start c.forbidden { column := column } false c.mark c.rest
    return (b.finish header.chomping, c)

end Courier.Yaml
