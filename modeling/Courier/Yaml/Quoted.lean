import Courier.Decimal.Natural
import Courier.Yaml.Error
import Courier.Yaml.Folding

/-!
# Quoted scalars

Between single quotes a quote is written twice and nothing else is special. Between double quotes a
backslash begins an escape, and before a line break it keeps the break out of the text. Lines are
folded in both.
-/

namespace Courier.Yaml

inductive Quote where
  | single
  | double
deriving DecidableEq, Repr

def Quote.char : Quote → Char
  | .single => '\x27'
  | .double => '"'

def escapeOf? : Char → Option Char
  | '0' => some '\x00'
  | 'a' => some '\x07'
  | 'b' => some '\x08'
  | 't' => some '\t'
  | '\t' => some '\t'
  | 'n' => some '\n'
  | 'v' => some '\x0b'
  | 'f' => some '\x0c'
  | 'r' => some '\r'
  | 'e' => some '\x1b'
  | ' ' => some ' '
  | '"' => some '"'
  | '/' => some '/'
  | '\\' => some '\\'
  | 'N' => some '\u0085'
  | '_' => some '\u00a0'
  | 'L' => some '\u2028'
  | 'P' => some '\u2029'
  | _ => none

def escapeSize? : Char → Option Nat
  | 'x' => some 2
  | 'u' => some 4
  | 'U' => some 8
  | _ => none

def readHex? : Nat → Nat → List Char → Option Nat
  | 0, n, _ => some n
  | _ + 1, _, [] => none
  | size + 1, n, c :: cs => (Decimal.hexValue? c).bind fun d => readHex? size (n * 16 + d) cs

/-- Reads on in a quoted scalar. A character behind blanks or breaks is looked at with the three
that follow it, any other with the next one. -/
def readQuotedOnto (quote : Quote) (start : Mark) (forbidden : Option Nat) (g : Gathered) (m : Mark)
    (cs : List Char) : Except SyntaxError (List Char × Cursor) :=
  match cs with
  | [] => do
      need forbidden 1 []
      flawAt .endOfText m .quotedScalar start
  | '\r' :: '\n' :: cs =>
      readQuotedOnto quote start forbidden (g.addBreak '\n') (m.nextLine ['\r', '\n']) cs
  | c :: cs => do
      need forbidden (if g.isPending then 1 else 2) (c :: cs)
      if isBlank c then readQuotedOnto quote start forbidden (g.addBlank c) (m.next c) cs
      else match breakOf (c :: cs) with
        | some (b, _) =>
            need forbidden 2 (c :: cs)
            readQuotedOnto quote start forbidden (g.addBreak b) (m.nextLine [c]) cs
        | none =>
            if g.isPending then need forbidden 4 (c :: cs)
            if isDocumentMarker m (c :: cs) then flawAt .documentMarker m .quotedScalar start
            else
              let g := g.join
              if c = quote.char then
                match quote, cs with
                | .single, '\x27' :: cs =>
                    readQuotedOnto quote start forbidden (g.push c) (m.past [c, c]) cs
                | _, cs => return (g.text.reverse, ⟨cs, m.next c, forbidden⟩)
              else if quote = .double ∧ c = '\\' then
                match cs with
                | [] => flawAt .unknownEscape m .escape start
                | e :: tail =>
                    match breakOf (e :: tail) with
                    | some (_, size) =>
                        need forbidden 3 (c :: e :: tail)
                        let ahead := (m.next c).nextLine ((e :: tail).take size)
                        have : ((e :: tail).drop size).length ≤ (e :: tail).length := by simp
                        match h : (e :: tail).drop size with
                        | '"' :: rest =>
                            return (g.text.reverse, ⟨rest, ahead.next '"', forbidden⟩)
                        | rest =>
                            readQuotedOnto quote start forbidden { g with isBroken := true } ahead
                              rest
                    | none =>
                        let ahead := m.past [c, e]
                        match escapeOf? e, escapeSize? e with
                        | some x, _ => readQuotedOnto quote start forbidden (g.push x) ahead tail
                        | none, none => flawAt .unknownEscape m .escape start
                        | none, some size =>
                            need forbidden size tail
                            match readHex? size 0 tail with
                            | none => flawAt .noHexDigits ahead .escape start
                            | some n =>
                                have : (tail.drop size).length ≤ tail.length := by simp
                                if n.isValidChar then
                                  readQuotedOnto quote start forbidden (g.push (Char.ofNat n))
                                    (ahead.past (tail.take size)) (tail.drop size)
                                else flawAt .badEscapeCode ahead .escape start
              else readQuotedOnto quote start forbidden (g.push c) (m.next c) cs
termination_by cs.length
decreasing_by all_goals simp_all <;> omega

def readQuoted (quote : Quote) (c : Cursor) : Except SyntaxError (List Char × Cursor) := do
  let inside ← c.skip.ensure 4
  readQuotedOnto quote c.mark inside.forbidden {} inside.mark inside.rest

end Courier.Yaml
