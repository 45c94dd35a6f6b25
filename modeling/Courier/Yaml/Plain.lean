import Courier.Yaml.Error
import Courier.Yaml.Folding

/-!
# Plain scalars

A plain scalar ends at a comment, at a colon before an edge, in a flow collection at a comma or a
bracket, and in a block at a line that is not indented deeply enough.
-/

namespace Courier.Yaml

def isFlowIndicator (c : Char) : Bool :=
  c == ',' || c == '[' || c == ']' || c == '\x7b' || c == '\x7d'

/-- Reads on in a plain scalar, whose further lines stand at the given column or behind it. A
character behind blanks or breaks is looked at with the three that follow it, any other with the
next one. -/
def readPlainOnto (inFlow : Bool) (column : Nat) (start : Mark) (forbidden : Option Nat)
    (g : Gathered) (m : Mark) : List Char → Except SyntaxError (Gathered × Cursor)
  | [] => (need forbidden 1 []).map fun _ => (g, ⟨[], m, forbidden⟩)
  | '\r' :: '\n' :: cs =>
      readPlainOnto inFlow column start forbidden (g.addBreak '\n') (m.nextLine ['\r', '\n']) cs
  | c :: cs => do
      need forbidden (if g.isPending then 1 else 2) (c :: cs)
      if isBlank c then
        if g.isBroken && m.column < column && c == '\t' then
          flawAt .tabInIndentation m .plainScalar start
        else readPlainOnto inFlow column start forbidden (g.addBlank c) (m.next c) cs
      else match breakOf (c :: cs) with
        | some (b, _) =>
            need forbidden 2 (c :: cs)
            readPlainOnto inFlow column start forbidden (g.addBreak b) (m.nextLine [c]) cs
        | none =>
            let isOutside := g.isPending && !inFlow && m.column < column
            if g.isPending && !isOutside then need forbidden 4 (c :: cs)
            if isOutside || (g.isPending && (isDocumentMarker m (c :: cs) || c == '#')) then
              return (g, ⟨c :: cs, m, forbidden⟩)
            else if inFlow && c == ':'
                && cs.head?.any fun d => isFlowIndicator d || d == '?' then
              flawAt .unexpectedColon m .plainScalar start
            else if (c == ':' && isEdge cs.head?) || (inFlow && isFlowIndicator c) then
              return (g, ⟨c :: cs, m, forbidden⟩)
            else readPlainOnto inFlow column start forbidden (g.join.push c) (m.next c) cs

def readPlain (inFlow : Bool) (column : Nat) (c : Cursor) :
    Except SyntaxError (List Char × Bool × Cursor) :=
  (readPlainOnto inFlow column c.mark c.forbidden {} c.mark c.rest).map fun (g, rest) =>
    (g.text.reverse, g.isBroken, rest)

end Courier.Yaml
