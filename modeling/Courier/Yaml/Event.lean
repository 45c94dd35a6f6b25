import Courier.Yaml.Tokens

/-!
# The events of a text

Events tell the structure of a text: where documents, lists and maps begin and end, and the scalars
and aliases in them. What may come next is a stack of goals, the nearest first; each event reaches
one of them and may set others.
-/

namespace Courier.Yaml

open Text

inductive Event where
  | textEnd
  | documentStart
  | documentEnd
  | aliasName (name : String)
  | scalar (anchor : Option String) (tag : Option Bytes) (text : List Char) (style : Style)
  | listStart (anchor : Option String) (tag : Option Bytes)
  | listEnd
  | mapStart (anchor : Option String) (tag : Option Bytes)
  | mapEnd
deriving DecidableEq, Repr

inductive Goal where
  | document (isFirst : Bool)
  | content
  | documentEnd
  | node
  | blockEntry (start : Mark)
  /-- An item of a list at the indentation of the map that it is a value of. -/
  | looseEntry
  | blockKey (start : Mark)
  | blockValue (start : Mark)
  | flowEntry (start : Mark) (isFirst : Bool)
  /-- The parts of a map of one pair that stands in a flow list without braces. -/
  | pairKey
  | pairValue
  | pairEnd
  | flowKey (start : Mark) (isFirst : Bool)
  | flowValue (start : Mark)
  | noValue
deriving DecidableEq, Repr

structure Structure where
  tokens : Tokens
  goals : List Goal := [.document true]
  handles : List (String × Bytes) := []

abbrev Reading := StateT Structure (Except SyntaxError)

namespace Reading

def peek : Reading Token := do
  let s ← get
  let (token, tokens) ← s.tokens.peek
  set { s with tokens := tokens }
  return token

def drop : Reading Unit := modify fun s => { s with tokens := s.tokens.drop }

def aim (goals : List Goal) : Reading Unit := modify fun s => { s with goals := goals ++ s.goals }

def fail {α : Type} (flaw : Flaw) (m : Mark) (context : Option (Context × Mark)) : Reading α :=
  throw { flaw := flaw, mark := m, context := context }

def absent (m : Mark) : Reading (Event × Mark) := return (.scalar none none [] .plain, m)

/-! ## Nodes -/

structure Properties where
  anchor : Option String := none
  tag : Option (String × Bytes × Mark) := none

def anchor : Reading (Option String) := do
  match (← peek).lexeme with
  | .anchor name => drop; return some name
  | _ => return none

def tag : Reading (Option (String × Bytes × Mark)) := do
  let token ← peek
  match token.lexeme with
  | .tag handle suffix => drop; return some (handle, suffix, token.start)
  | _ => return none

def properties : Reading Properties := do
  match ← anchor with
  | some name => return ⟨some name, ← tag⟩
  | none =>
      match ← tag with
      | some t => return ⟨← anchor, some t⟩
      | none => return {}

def resolve (start : Mark) (tag : Option (String × Bytes × Mark)) : Reading (Option Bytes) := do
  match tag with
  | none => return none
  | some (handle, suffix, m) =>
      if handle.isEmpty then return some suffix
      else match (← get).handles.find? (·.1 == handle) with
        | some (_, meaning) => return some (meaning ++ suffix)
        | none => fail .undefinedHandle m (some (.node, start))

/-- Reads a node, or its beginning. Where blocks may stand, `isLoose` admits a list without
indentation. -/
def node (isBlock isLoose : Bool) : Reading (Event × Mark) := do
  let token ← peek
  match token.lexeme with
  | .aliasName name => drop; return (.aliasName name, token.start)
  | _ =>
      let start := token.start
      let ps ← properties
      let tag ← resolve start ps.tag
      let token ← peek
      let listStart := (Event.listStart ps.anchor tag, start)
      let mapStart := (Event.mapStart ps.anchor tag, start)
      match token.lexeme with
      | .scalar text style =>
          drop
          return (.scalar ps.anchor tag text style, start)
      | .flowListStart => drop; aim [.flowEntry token.start true]; return listStart
      | .flowMapStart => drop; aim [.flowKey token.start true]; return mapStart
      | lexeme =>
          if isLoose && lexeme == .blockEntry then
            aim [.looseEntry]
            return listStart
          else if isBlock && lexeme == .blockListStart then
            drop
            aim [.blockEntry token.start]
            return listStart
          else if isBlock && lexeme == .blockMapStart then
            drop
            aim [.blockKey token.start]
            return mapStart
          else if ps.anchor.isSome || tag.isSome then
            return (.scalar ps.anchor tag [] .plain, start)
          else
            fail .noNodeContent token.start
              (some (if isBlock then .blockNode else .flowNode, start))

def blockNodeUnless (absentAt : Mark) (enders : List Lexeme) (isLoose : Bool) :
    Reading (Event × Mark) := do
  if enders.contains (← peek).lexeme then absent absentAt else node true isLoose

def flowNodeUnless (enders : List Lexeme) : Reading (Event × Mark) := do
  let token ← peek
  if enders.contains token.lexeme then absent token.start else node false false

/-! ## Documents -/

/-- Adds the meaning of a handle. One that is known is left as it is or is an error. -/
def addHandle (name : String) (meaning : Bytes) (mayBeKnown : Bool) (m : Mark) : Reading Unit := do
  let s ← get
  if s.handles.any (·.1 == name) then
    if mayBeKnown then return () else fail .duplicateHandle m none
  else set { s with handles := s.handles ++ [(name, meaning)] }

/-- Reads directives; `fuel` is more than there are tokens. -/
def directives (hasVersion : Bool) : Nat → Reading Unit
  | 0 => return ()
  | fuel + 1 => do
      let token ← peek
      match token.lexeme with
      | .version major minor =>
          if hasVersion then fail .duplicateVersion token.start none
          else if major ≠ 1 ∨ (minor ≠ 1 ∧ minor ≠ 2) then
            fail .incompatibleVersion token.start none
          else
            drop
            directives true fuel
      | .handle name meaning =>
          addHandle name meaning false token.start
          drop
          directives hasVersion fuel
      | _ =>
          addHandle "!" (Utf8.encode ['!']) true token.start
          addHandle "!!" (utf8 "tag:yaml.org,2002:") true token.start

def skipDocumentEnds : Nat → Reading Unit
  | 0 => return ()
  | fuel + 1 => do
      match (← peek).lexeme with
      | .documentEnd => drop; skipDocumentEnds fuel
      | _ => return ()

def standsOutside : Lexeme → Bool
  | .version _ _ => true
  | .handle _ _ => true
  | .documentStart => true
  | .textEnd => true
  | _ => false

def document (isFirst : Bool) : Reading (Event × Mark) := do
  let fuel := (← get).tokens.cursor.rest.length + (← get).tokens.queue.length + 2
  if !isFirst then skipDocumentEnds fuel
  let token ← peek
  if isFirst && !standsOutside token.lexeme then
    directives false fuel
    aim [.node, .documentEnd]
    return (.documentStart, token.start)
  else if token.lexeme = .textEnd then
    drop
    return (.textEnd, token.start)
  else
    directives false fuel
    let start ← peek
    if start.lexeme = .documentStart then
      drop
      aim [.content, .documentEnd]
      return (.documentStart, token.start)
    else fail .noDocumentStart start.start none

def content : Reading (Event × Mark) := do
  let token ← peek
  if standsOutside token.lexeme || token.lexeme == .documentEnd then absent token.start
  else node true false

/-- Reads the end of a document, which forgets all handles. -/
def documentEnd : Reading (Event × Mark) := do
  let token ← peek
  if token.lexeme = .documentEnd then drop
  modify fun s => { s with handles := [] }
  aim [.document false]
  return (.documentEnd, token.start)

/-! ## Lists and maps -/

def blockEntry (start : Mark) : Reading (Event × Mark) := do
  let token ← peek
  match token.lexeme with
  | .blockEntry =>
      drop
      let next ← peek
      aim [.blockEntry start]
      if next.lexeme == .blockEntry || next.lexeme == .blockEnd then absent token.stop
      else node true false
  | .blockEnd => drop; return (.listEnd, token.start)
  | _ => fail .noEntry token.start (some (.blockList, start))

def looseEntry : Reading (Event × Mark) := do
  let token ← peek
  match token.lexeme with
  | .blockEntry =>
      drop
      aim [.looseEntry]
      blockNodeUnless token.stop [.blockEntry, .key, .value, .blockEnd] false
  | _ => return (.listEnd, token.start)

def blockKey (start : Mark) : Reading (Event × Mark) := do
  let token ← peek
  match token.lexeme with
  | .key =>
      drop
      aim [.blockValue start]
      blockNodeUnless token.stop [.key, .value, .blockEnd] true
  | .blockEnd => drop; return (.mapEnd, token.start)
  | _ => fail .noKey token.start (some (.blockMap, start))

def blockValue (start : Mark) : Reading (Event × Mark) := do
  let token ← peek
  aim [.blockKey start]
  match token.lexeme with
  | .value =>
      drop
      blockNodeUnless token.stop [.key, .value, .blockEnd] true
  | _ => absent token.start

def comma (isFirst : Bool) (flaw : Flaw) (context : Context) (start : Mark) : Reading Token := do
  let token ← peek
  if isFirst then return token
  else match token.lexeme with
    | .flowEntry => drop; peek
    | _ => fail flaw token.start (some (context, start))

def flowEntry (start : Mark) (isFirst : Bool) : Reading (Event × Mark) := do
  let token ← peek
  let token ←
    if token.lexeme = .flowListEnd then pure token
    else comma isFirst .noListCommaOrEnd .flowList start
  match token.lexeme with
  | .flowListEnd => drop; return (.listEnd, token.start)
  | .key =>
      drop
      aim [.pairKey, .flowEntry start false]
      return (.mapStart none none, token.start)
  | _ =>
      aim [.flowEntry start false]
      node false false

def pairKey : Reading (Event × Mark) := do
  let token ← peek
  aim [.pairValue]
  match token.lexeme with
  | .value => drop; absent token.stop
  | .flowEntry => drop; absent token.stop
  | .flowListEnd => drop; absent token.stop
  | _ => node false false

def pairValue : Reading (Event × Mark) := do
  let token ← peek
  aim [.pairEnd]
  match token.lexeme with
  | .value =>
      drop
      flowNodeUnless [.flowEntry, .flowListEnd]
  | _ => absent token.start

def flowKey (start : Mark) (isFirst : Bool) : Reading (Event × Mark) := do
  let token ← peek
  let token ←
    if token.lexeme = .flowMapEnd then pure token
    else comma isFirst .noMapCommaOrEnd .flowMap start
  match token.lexeme with
  | .flowMapEnd => drop; return (.mapEnd, token.start)
  | .key =>
      drop
      aim [.flowValue start]
      flowNodeUnless [.value, .flowEntry, .flowMapEnd]
  | _ =>
      aim [.noValue, .flowKey start false]
      node false false

def flowValue (start : Mark) : Reading (Event × Mark) := do
  let token ← peek
  aim [.flowKey start false]
  match token.lexeme with
  | .value =>
      drop
      flowNodeUnless [.flowEntry, .flowMapEnd]
  | _ => absent token.start

def reach : Goal → Reading (Event × Mark)
  | .document isFirst => document isFirst
  | .content => content
  | .documentEnd => documentEnd
  | .node => node true false
  | .blockEntry start => blockEntry start
  | .looseEntry => looseEntry
  | .blockKey start => blockKey start
  | .blockValue start => blockValue start
  | .flowEntry start isFirst => flowEntry start isFirst
  | .pairKey => pairKey
  | .pairValue => pairValue
  | .pairEnd => do return (.mapEnd, (← peek).start)
  | .flowKey start isFirst => flowKey start isFirst
  | .flowValue start => flowValue start
  | .noValue => do absent (← peek).start

/-- Reads the next event. Behind the end of the text there is only that end. -/
def next : Reading (Event × Mark) := do
  let s ← get
  match s.goals with
  | [] => return (.textEnd, s.tokens.mark)
  | goal :: goals =>
      set { s with goals := goals }
      reach goal

end Reading

end Courier.Yaml
