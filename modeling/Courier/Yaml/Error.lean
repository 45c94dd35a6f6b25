import Courier.Decimal.Natural
import Courier.Yaml.Cursor

/-!
# What can be wrong with a YAML text

An error is a flaw with its place, and what was being read with the place where that began. Places
at the very start of a text go unmentioned.
-/

namespace Courier.Yaml

inductive Flaw where
  | controlCharacter
  | noColonAfterKey
  | noToken
  | entryNotAllowed
  | keyNotAllowed
  | valueNotAllowed
  | unknownDirective
  | noCommentOrBreak
  | noDirectiveName
  | badDirectiveName
  | noVersionPoint
  | longVersion
  | noVersion
  | noBlank
  | noBlankOrBreak
  | noAnchorName
  | noTagEnd
  | noTagMark
  | noTagUri
  | noEscapedOctet
  | badLeadingOctet
  | badTrailingOctet
  | zeroIndentation
  | tabForIndentation
  | documentMarker
  | endOfText
  | unknownEscape
  | noHexDigits
  | badEscapeCode
  | unexpectedColon
  | tabInIndentation
  | noDocumentStart
  | undefinedHandle
  | noNodeContent
  | noEntry
  | noKey
  | noListCommaOrEnd
  | noMapCommaOrEnd
  | duplicateVersion
  | incompatibleVersion
  | duplicateHandle
deriving DecidableEq, Repr

def Flaw.message : Flaw → String
  | .controlCharacter => "control characters are not allowed"
  | .noColonAfterKey => "could not find expected ':'"
  | .noToken => "found character that cannot start any token"
  | .entryNotAllowed => "block sequence entries are not allowed in this context"
  | .keyNotAllowed => "mapping keys are not allowed in this context"
  | .valueNotAllowed => "mapping values are not allowed in this context"
  | .unknownDirective => "found unknown directive name"
  | .noCommentOrBreak => "did not find expected comment or line break"
  | .noDirectiveName => "could not find expected directive name"
  | .badDirectiveName => "found unexpected non-alphabetical character"
  | .noVersionPoint => "did not find expected digit or '.' character"
  | .longVersion => "found extremely long version number"
  | .noVersion => "did not find expected version number"
  | .noBlank => "did not find expected whitespace"
  | .noBlankOrBreak => "did not find expected whitespace or line break"
  | .noAnchorName => "did not find expected alphabetic or numeric character"
  | .noTagEnd => "did not find the expected '>'"
  | .noTagMark => "did not find expected '!'"
  | .noTagUri => "did not find expected tag URI"
  | .noEscapedOctet => "did not find URI escaped octet"
  | .badLeadingOctet => "found an incorrect leading UTF-8 octet"
  | .badTrailingOctet => "found an incorrect trailing UTF-8 octet"
  | .zeroIndentation => "found an indentation indicator equal to 0"
  | .tabForIndentation => "found a tab character where an indentation space is expected"
  | .documentMarker => "found unexpected document indicator"
  | .endOfText => "found unexpected end of stream"
  | .unknownEscape => "found unknown escape character"
  | .noHexDigits => "did not find expected hexadecimal number"
  | .badEscapeCode => "found invalid Unicode character escape code"
  | .unexpectedColon => "found unexpected ':'"
  | .tabInIndentation => "found a tab character that violates indentation"
  | .noDocumentStart => "did not find expected <document start>"
  | .undefinedHandle => "found undefined tag handle"
  | .noNodeContent => "did not find expected node content"
  | .noEntry => "did not find expected '-' indicator"
  | .noKey => "did not find expected key"
  | .noListCommaOrEnd => "did not find expected ',' or ']'"
  | .noMapCommaOrEnd => "did not find expected ',' or '\x7d'"
  | .duplicateVersion => "found duplicate %YAML directive"
  | .incompatibleVersion => "found incompatible YAML document"
  | .duplicateHandle => "found duplicate %TAG directive"

inductive Context where
  | simpleKey
  | nextToken
  | directive
  | versionDirective
  | tagDirective
  | handleOfDirective
  | endOfHandle
  | prefixOfDirective
  | anchor
  | aliasName
  | tag
  | uriOfTag
  | blockScalar
  | quotedScalar
  | escape
  | plainScalar
  | node
  | blockNode
  | flowNode
  | blockList
  | blockMap
  | flowList
  | flowMap
deriving DecidableEq, Repr

def Context.message : Context → String
  | .simpleKey => "while scanning a simple key"
  | .nextToken => "while scanning for the next token"
  | .directive => "while scanning a directive"
  | .versionDirective => "while scanning a %YAML directive"
  | .tagDirective => "while scanning a %TAG directive"
  | .handleOfDirective => "while scanning a tag directive"
  | .endOfHandle => "while parsing a tag directive"
  | .prefixOfDirective => "while parsing a %TAG directive"
  | .anchor => "while scanning an anchor"
  | .aliasName => "while scanning an alias"
  | .tag => "while scanning a tag"
  | .uriOfTag => "while parsing a tag"
  | .blockScalar => "while scanning a block scalar"
  | .quotedScalar => "while scanning a quoted scalar"
  | .escape => "while parsing a quoted scalar"
  | .plainScalar => "while scanning a plain scalar"
  | .node => "while parsing a node"
  | .blockNode => "while parsing a block node"
  | .flowNode => "while parsing a flow node"
  | .blockList => "while parsing a block collection"
  | .blockMap => "while parsing a block mapping"
  | .flowList => "while parsing a flow sequence"
  | .flowMap => "while parsing a flow mapping"

def Mark.message (m : Mark) : String :=
  "line " ++ Decimal.numeral (m.line + 1) ++ " column " ++ Decimal.numeral (m.column + 1)

structure SyntaxError where
  flaw : Flaw
  mark : Mark := {}
  context : Option (Context × Mark) := none
  /-- The number of bytes before a flaw that has no mark. -/
  offset : Nat := 0
deriving DecidableEq, Repr

namespace SyntaxError

def place (e : SyntaxError) : String :=
  if !e.mark.isStart then " at " ++ e.mark.message
  else if e.offset ≠ 0 then " at position " ++ Decimal.numeral e.offset
  else ""

/-- What was being read, in words; where it began only if that is not the place of the flaw. -/
def circumstance (e : SyntaxError) : String :=
  match e.context with
  | none => ""
  | some (context, m) =>
      ", " ++ context.message
        ++ if m.isStart || (m.line == e.mark.line && m.column == e.mark.column) then ""
          else " at " ++ m.message

def message (e : SyntaxError) : String := e.flaw.message ++ e.place ++ e.circumstance

end SyntaxError

def flawAt {α : Type} (flaw : Flaw) (m : Mark) (context : Context) (start : Mark) :
    Except SyntaxError α :=
  .error { flaw := flaw, mark := m, context := some (context, start) }

/-! ## Text that cannot be read -/

/-- Fails if fewer than so many characters are left because of a forbidden one, which stands behind
the given number of bytes. -/
def need (forbidden : Option Nat) (n : Nat) (cs : List Char) : Except SyntaxError Unit :=
  match forbidden with
  | none => .ok ()
  | some offset =>
      if (cs.take n).length < n then .error { flaw := .controlCharacter, offset := offset }
      else .ok ()

def Cursor.ensure (n : Nat) (c : Cursor) : Except SyntaxError Cursor :=
  (need c.forbidden n c.rest).map fun _ => c

/-- Past a line break, if one is here. What follows the break is looked at with it. -/
def Cursor.takeBreak (c : Cursor) : Except SyntaxError Cursor :=
  if (breakOf c.rest).isSome then (c.ensure 2).map Cursor.skipBreak else .ok c

end Courier.Yaml
