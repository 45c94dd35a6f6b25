import Courier.Decimal.Natural
import Courier.Yaml.Error
import Courier.Yaml.Token

/-!
# Names, tags and directives

An anchor names a node and an alias stands for the node so named; a tag tells the type of a node.
Directives before a document say which version it is written in and what the handles of its tags
mean.
-/

namespace Courier.Yaml

open Text

def readName (context : Context) (c : Cursor) : Except SyntaxError (String × Cursor) := do
  let start := c.mark
  let (name, c) := c.skip.takeWhile isWordChar
  let c ← c.ensure 1
  let mayFollow := c.edgeAt 0 || c.peek?.any fun x => "?:,]\x7d%@`".toList.contains x
  if name.isEmpty || !mayFollow then flawAt .noAnchorName c.mark context start
  else return (String.ofList name, c)

/-- A character of the URI of a tag. Commas and brackets may stand in one between angle brackets and
in a directive. -/
def isUriChar (isLoose : Bool) (c : Char) : Bool :=
  isWordChar c || ";/?:@&=+$.!~*()\x27".toList.contains c || (isLoose && ",[]".toList.contains c)

def octetsFrom (octet : Nat) : Option Nat :=
  if octet < 0x80 then some 1
  else if octet < 0xC0 then none
  else if octet < 0xE0 then some 2
  else if octet < 0xF0 then some 3
  else if octet < 0xF8 then some 4
  else none

def readUriOnto (isLoose : Bool) (context : Context) (start : Mark) (forbidden : Option Nat)
    (done : Bytes) (missing : Nat) (m : Mark) : List Char → Except SyntaxError (Bytes × Cursor)
  | '%' :: h :: l :: cs =>
      match Decimal.hexValue? h, Decimal.hexValue? l with
      | some hi, some lo =>
          let octet := hi * 16 + lo
          let ahead := m.past ['%', h, l]
          let done := UInt8.ofNat octet :: done
          if missing = 0 then
            match octetsFrom octet with
            | none => flawAt .badLeadingOctet m context start
            | some n => readUriOnto isLoose context start forbidden done (n - 1) ahead cs
          else if octet / 0x40 = 2 then
            readUriOnto isLoose context start forbidden done (missing - 1) ahead cs
          else flawAt .badTrailingOctet m context start
      | _, _ => flawAt .noEscapedOctet m context start
  | c :: cs =>
      if missing ≠ 0 ∨ c = '%' then do
        need forbidden 3 (c :: cs)
        flawAt .noEscapedOctet m context start
      else if isUriChar isLoose c then
        readUriOnto isLoose context start forbidden (UInt8.ofNat c.toNat :: done) 0 (m.next c) cs
      else .ok (done, ⟨c :: cs, m, forbidden⟩)
  | [] => do
      need forbidden 1 []
      if missing ≠ 0 then flawAt .noEscapedOctet m context start
      else return (done, ⟨[], m, forbidden⟩)

/-- Reads a URI, of which the part `head` has been read. What follows an octet zero is lost. -/
def readUri (isLoose : Bool) (context : Context) (start : Mark) (head : Option (List Char))
    (c : Cursor) : Except SyntaxError (Bytes × Cursor) := do
  let front := Utf8.encode ((head.getD []).tail)
  let (done, c) ← readUriOnto isLoose context start c.forbidden front.reverse 0 c.mark c.rest
  if head.isNone && done.isEmpty then flawAt .noTagUri c.mark context start
  else return (done.reverse.takeWhile (· ≠ 0), c)

/-- Reads what may be the handle of a tag: an exclamation mark, the name behind it, and the next
exclamation mark if it follows at once. -/
def readHandle (context : Context) (start : Mark) (c : Cursor) :
    Except SyntaxError (List Char × Cursor) := do
  if !c.sees '!' then flawAt .noTagMark c.mark context start
  else
    let (name, c) := c.skip.takeWhile isWordChar
    let c ← c.ensure 1
    return if c.sees '!' then ('!' :: name ++ ['!'], c.skip) else ('!' :: name, c)

def readTagBody (start : Mark) (c : Cursor) : Except SyntaxError (String × Bytes × Cursor) := do
  if c.at? 1 = some '<' then
    let (suffix, c) ← readUri true .uriOfTag start none c.skip.skip
    if c.sees '>' then return ("", suffix, c.skip) else flawAt .noTagEnd c.mark .tag start
  else
    let (handle, c) ← readHandle .tag start c
    if 1 < handle.length && handle.getLast? == some '!' then
      let (suffix, c) ← readUri false .uriOfTag start none c
      return (String.ofList handle, suffix, c)
    else
      let (suffix, c) ← readUri false .uriOfTag start (some handle) c
      return if suffix.isEmpty then ("", Utf8.encode ['!'], c) else ("!", suffix, c)

def readTag (inFlow : Bool) (c : Cursor) : Except SyntaxError (String × Bytes × Cursor) := do
  let (handle, suffix, rest) ← readTagBody c.mark c
  let rest ← rest.ensure 1
  if (inFlow && rest.sees ',') || rest.edgeAt 0 then return (handle, suffix, rest)
  else flawAt .noBlankOrBreak rest.mark .tag c.mark

def readVersionPart (start : Mark) (c : Cursor) : Except SyntaxError (Nat × Cursor) := do
  let (ds, rest) := c.takeWhile Char.isDigit
  if 9 < ds.length then flawAt .longVersion (c.skips 9).mark .versionDirective start
  else
    let rest ← rest.ensure 1
    match Decimal.ofDigits? ds with
    | none => flawAt .noVersion rest.mark .versionDirective start
    | some n => return (n, rest)

def readVersion (start : Mark) (c : Cursor) : Except SyntaxError (Lexeme × Cursor) := do
  let (major, c) ← readVersionPart start c.skipBlanks
  if !c.sees '.' then flawAt .noVersionPoint c.mark .versionDirective start
  else
    let (minor, c) ← readVersionPart start c.skip
    return (.version major minor, c)

def readHandleMeaning (start : Mark) (c : Cursor) : Except SyntaxError (Lexeme × Cursor) := do
  let c ← c.skipBlanks.ensure 1
  let (handle, c) ← readHandle .handleOfDirective start c
  if handle.getLast? ≠ some '!' then flawAt .noTagMark c.mark .endOfHandle start
  else
    let c ← c.ensure 1
    if !c.peek?.any isBlank then flawAt .noBlank c.mark .tagDirective start
    else
      let (meaning, c) ← readUri true .prefixOfDirective start none c.skipBlanks
      let c ← c.ensure 1
      if !c.edgeAt 0 then flawAt .noBlankOrBreak c.mark .tagDirective start
      else return (.handle (String.ofList handle) meaning, c)

def readDirective (c : Cursor) : Except SyntaxError (Lexeme × Mark × Cursor) := do
  let start := c.mark
  let (name, c) := c.skip.takeWhile isWordChar
  let c ← c.ensure 1
  if name.isEmpty then flawAt .noDirectiveName c.mark .directive start
  else if !c.edgeAt 0 then flawAt .badDirectiveName c.mark .directive start
  else
    let (lexeme, c) ← match String.ofList name with
      | "YAML" => readVersion start c
      | "TAG" => readHandleMeaning start c
      | _ => flawAt .unknownDirective c.mark .directive start
    let stop := c.mark
    let c ← c.skipBlanks.skipComment.ensure 1
    if !c.atLineEnd then flawAt .noCommentOrBreak c.mark .directive start
    else return (lexeme, stop, ← c.takeBreak)

end Courier.Yaml
