import Courier.Yaml.Block
import Courier.Yaml.Page
import Courier.Yaml.Plain
import Courier.Yaml.Property
import Courier.Yaml.Quoted

/-!
# The tokens of a text

Tokens are read only as far as they are asked for, so that an error in a text is met after
everything that comes before it. What stands before a colon is the key of a map, which is known only
once the colon is seen: until then the place of such a key is remembered, and a token that may turn
out to be a key is held back.
-/

namespace Courier.Yaml

structure PendingKey where
  isRequired : Bool
  number : Nat
  mark : Mark
deriving DecidableEq, Repr

structure Tokens where
  cursor : Cursor
  queue : List Token := []
  taken : Nat := 0
  indents : List Nat := []
  /-- A key that may have begun, in the innermost flow collection or in the block around all. -/
  pending : Option PendingKey := none
  /-- The same for what is around it. There is one for each open flow collection. -/
  outer : List (Option PendingKey) := []
  mayBeKey : Bool := true
deriving Repr

namespace Tokens

def ofText (cs : List Char) : Tokens := { cursor := .ofText cs }

def inFlow (t : Tokens) : Bool := !t.outer.isEmpty

def mark (t : Tokens) : Mark := t.cursor.mark

def push (t : Tokens) (lexeme : Lexeme) (start stop : Mark) : Tokens :=
  { t with queue := t.queue ++ [⟨lexeme, start, stop⟩] }

def pushHere (t : Tokens) (lexeme : Lexeme) : Tokens := t.push lexeme t.mark t.mark

def insert (t : Tokens) (number : Nat) (lexeme : Lexeme) (m : Mark) : Tokens :=
  { t with queue := t.queue.insertIdx (number - t.taken) ⟨lexeme, m, m⟩ }

def pushIndicator (t : Tokens) (lexeme : Lexeme) (size : Nat) : Tokens :=
  let cursor := t.cursor.skips size
  { t with cursor := cursor }.push lexeme t.mark cursor.mark

def pushTo (t : Tokens) (lexeme : Lexeme) (cursor : Cursor) : Tokens :=
  { t with cursor := cursor }.push lexeme t.mark cursor.mark

/-- Past blanks, comments and line breaks. Tabs count as blanks only where no key may begin, and a
byte order mark only at the start of a line. -/
def skipSpace (t : Tokens) : Except SyntaxError Tokens :=
  go t.inFlow t.cursor t.mayBeKey (t.cursor.rest.length + 1)
where
  go (inFlow : Bool) (c : Cursor) (mayBeKey : Bool) : Nat → Except SyntaxError Tokens
    | 0 => .ok { t with cursor := c, mayBeKey := mayBeKey }
    | fuel + 1 => do
        let c := if c.mark.column = 0 ∧ c.sees '\ufeff' then c.skip else c
        let c := c.skipWhile fun x => x == ' ' || ((inFlow || !mayBeKey) && x == '\t')
        let c ← c.skipComment.ensure 1
        if c.peek?.any isBreak then go inFlow (← c.takeBreak) (mayBeKey || !inFlow) fuel
        else return { t with cursor := c, mayBeKey := mayBeKey }

/-- Whether a key that began there can no longer be one: it must end on its line and within 1024
bytes. -/
def isStale (here : Mark) (k : PendingKey) : Bool :=
  k.mark.line < here.line || k.mark.index + 1024 < here.index

/-- Forgets a key that has become stale; a required one is an error. -/
def refresh (here : Mark) (k : Option PendingKey) : Except SyntaxError (Option PendingKey) :=
  match k with
  | none => .ok none
  | some k =>
      if !isStale here k then .ok (some k)
      else if k.isRequired then flawAt .noColonAfterKey here .simpleKey k.mark
      else .ok none

def dropStale (t : Tokens) : Except SyntaxError Tokens := do
  let outer ← t.outer.mapM (refresh t.mark)
  let pending ← refresh t.mark t.pending
  return { t with outer := outer, pending := pending }

def dropKey (t : Tokens) : Except SyntaxError Tokens :=
  match t.pending with
  | none => .ok t
  | some k =>
      if k.isRequired then flawAt .noColonAfterKey t.mark .simpleKey k.mark
      else .ok { t with pending := none }

def saveKey (t : Tokens) : Except SyntaxError Tokens :=
  if t.mayBeKey then
    t.dropKey.map fun t =>
      let isRequired := !t.inFlow && t.indents.head? == some t.mark.column
      { t with pending := some ⟨isRequired, t.taken + t.queue.length, t.mark⟩ }
  else .ok t

def unroll (t : Tokens) (column : Option Nat) : Tokens :=
  if t.inFlow then t
  else
    let isDeeper := fun indent => column.all (· < indent)
    let ended := t.indents.takeWhile isDeeper
    { t with
      queue := t.queue ++ ended.map fun _ => ⟨.blockEnd, t.mark, t.mark⟩
      indents := t.indents.dropWhile isDeeper }

/-- Begins a block at a column, if it is deeper than the open ones; its token comes before the one
of the given number, or last. -/
def roll (t : Tokens) (m : Mark) (number : Option Nat) (lexeme : Lexeme) : Tokens :=
  if t.inFlow || t.indents.head?.any (m.column ≤ ·) then t
  else
    let t := { t with indents := m.column :: t.indents }
    match number with
    | none => t.push lexeme m m
    | some n => t.insert n lexeme m

/-! ## One token after another -/

def endText (t : Tokens) : Except SyntaxError Tokens :=
  let m := t.mark
  let m := if m.column = 0 then m else ⟨m.index, m.line + 1, 0⟩
  let t := { t with cursor := { t.cursor with mark := m } }
  (t.unroll none).dropKey.map fun t => { t with mayBeKey := false }.pushHere .textEnd

def directive (t : Tokens) : Except SyntaxError Tokens := do
  let t ← (t.unroll none).dropKey
  let (lexeme, stop, cursor) ← readDirective t.cursor
  return { t with mayBeKey := false, cursor := cursor }.push lexeme t.mark stop

def documentMark (t : Tokens) (lexeme : Lexeme) : Except SyntaxError Tokens :=
  (t.unroll none).dropKey.map fun t => { t with mayBeKey := false }.pushIndicator lexeme 3

def flowStart (t : Tokens) (lexeme : Lexeme) : Except SyntaxError Tokens :=
  t.saveKey.map fun t =>
    { t with outer := t.pending :: t.outer, pending := none, mayBeKey := true }.pushIndicator
      lexeme 1

def flowEnd (t : Tokens) (lexeme : Lexeme) : Except SyntaxError Tokens :=
  t.dropKey.map fun t =>
    let t := match t.outer with
      | [] => t
      | pending :: outer => { t with pending := pending, outer := outer }
    { t with mayBeKey := false }.pushIndicator lexeme 1

def flowEntry (t : Tokens) : Except SyntaxError Tokens :=
  t.dropKey.map fun t => { t with mayBeKey := true }.pushIndicator .flowEntry 1

def notAllowed {α : Type} (t : Tokens) (flaw : Flaw) : Except SyntaxError α :=
  .error { flaw := flaw, mark := t.mark }

def blockEntry (t : Tokens) : Except SyntaxError Tokens :=
  if !t.inFlow && !t.mayBeKey then t.notAllowed .entryNotAllowed
  else (t.roll t.mark none .blockListStart).dropKey.map fun t =>
    { t with mayBeKey := true }.pushIndicator .blockEntry 1

def key (t : Tokens) : Except SyntaxError Tokens :=
  if !t.inFlow && !t.mayBeKey then t.notAllowed .keyNotAllowed
  else (t.roll t.mark none .blockMapStart).dropKey.map fun t =>
    { t with mayBeKey := !t.inFlow }.pushIndicator .key 1

/-- The mark of a value. What may have been a key is one. -/
def value (t : Tokens) : Except SyntaxError Tokens :=
  match t.pending with
  | some k =>
      let t := t.insert k.number .key k.mark
      let t := t.roll k.mark (some k.number) .blockMapStart
      .ok ({ t with pending := none, mayBeKey := false }.pushIndicator .value 1)
  | none =>
      if !t.inFlow && !t.mayBeKey then t.notAllowed .valueNotAllowed
      else
        let t := t.roll t.mark none .blockMapStart
        .ok ({ t with mayBeKey := !t.inFlow }.pushIndicator .value 1)

def name (t : Tokens) (context : Context) (lexeme : String → Lexeme) :
    Except SyntaxError Tokens := do
  let t ← t.saveKey
  let (name, cursor) ← readName context t.cursor
  return { t with mayBeKey := false }.pushTo (lexeme name) cursor

def tag (t : Tokens) : Except SyntaxError Tokens := do
  let t ← t.saveKey
  let (handle, suffix, cursor) ← readTag t.inFlow t.cursor
  return { t with mayBeKey := false }.pushTo (.tag handle suffix) cursor

def blockScalar (t : Tokens) (style : Style) : Except SyntaxError Tokens := do
  let t ← t.dropKey
  let (text, cursor) ← readBlock t.indents.head? t.cursor
  return { t with mayBeKey := true }.pushTo (.scalar text style) cursor

def quotedScalar (t : Tokens) (quote : Quote) (style : Style) : Except SyntaxError Tokens := do
  let t ← t.saveKey
  let (text, cursor) ← readQuoted quote t.cursor
  return { t with mayBeKey := false }.pushTo (.scalar text style) cursor

/-- A plain scalar. Behind one that ends with its line a key may begin. -/
def plainScalar (t : Tokens) : Except SyntaxError Tokens := do
  let t ← t.saveKey
  let column := (t.indents.head?.map (· + 1)).getD 0
  let (text, endsLine, cursor) ← readPlain t.inFlow column t.cursor
  return { t with mayBeKey := endsLine }.pushTo (.scalar text .plain) cursor

def beginsPlain (inFlow : Bool) (c : Char) (next : Option Char) : Bool :=
  (!(isEdge (some c)) && !"-?:,[]\x7b\x7d#&*!|>\x27\"%@`".toList.contains c)
    || (c == '-' && !next.any isBlank)
    || (!inFlow && (c == '?' || c == ':') && !isEdge next)

def fetch (t : Tokens) : Except SyntaxError Tokens := do
  let t ← (← t.skipSpace).dropStale
  let t := t.unroll (some t.mark.column)
  let cs := (← t.cursor.ensure 4).rest
  match cs with
  | [] => t.endText
  | c :: _ =>
      let next := t.cursor.at? 1
      if t.mark.column = 0 ∧ c = '%' then t.directive
      else if isDocumentMarker t.mark cs then
        t.documentMark (if c = '-' then .documentStart else .documentEnd)
      else if c = '[' then t.flowStart .flowListStart
      else if c = '\x7b' then t.flowStart .flowMapStart
      else if c = ']' then t.flowEnd .flowListEnd
      else if c = '\x7d' then t.flowEnd .flowMapEnd
      else if c = ',' then t.flowEntry
      else if c = '-' ∧ isEdge next then t.blockEntry
      else if c = '?' ∧ (t.inFlow ∨ isEdge next) then t.key
      else if c = ':' ∧ (t.inFlow ∨ isEdge next) then t.value
      else if c = '*' then t.name .aliasName .aliasName
      else if c = '&' then t.name .anchor .anchor
      else if c = '!' then t.tag
      else if c = '|' ∧ !t.inFlow then t.blockScalar .literal
      else if c = '>' ∧ !t.inFlow then t.blockScalar .folded
      else if c = '\x27' then t.quotedScalar .single .singleQuoted
      else if c = '"' then t.quotedScalar .double .doubleQuoted
      else if beginsPlain t.inFlow c next then t.plainScalar
      else flawAt .noToken t.mark .nextToken t.mark

def isHeldBack (t : Tokens) : Bool :=
  (t.pending :: t.outer).any fun k => k.any (·.number == t.taken)

/-- Reads on until the next token is certain. Each round reads at least a character. -/
def fill : Nat → Tokens → Except SyntaxError Tokens
  | 0, t => .ok t
  | fuel + 1, t =>
      if t.queue.isEmpty then t.fetch.bind (fill fuel)
      else t.dropStale.bind fun t => if t.isHeldBack then t.fetch.bind (fill fuel) else .ok t

def peek (t : Tokens) : Except SyntaxError (Token × Tokens) :=
  (fill (t.cursor.rest.length + 2) t).map fun t =>
    (t.queue.headD ⟨.textEnd, t.mark, t.mark⟩, t)

def drop (t : Tokens) : Tokens := { t with queue := t.queue.tail, taken := t.taken + 1 }

end Tokens

end Courier.Yaml
