import Courier.Yaml.Cursor

/-!
# The readable part of a text

A text is read page by page, and a page with a forbidden character cannot be read at all. So the
characters before that page can be read even though the text has a flaw, and the flaw counts only
for who needs more of the text than they are.
-/

namespace Courier.Yaml

def isForbidden (c : Char) : Bool :=
  let n := c.toNat
  !(n == 0x9 || n == 0xA || n == 0xD || (0x20 ≤ n && n ≤ 0x7E) || n == 0x85
    || (0xA0 ≤ n && n ≤ 0xFFFD) || 0x10000 ≤ n)

/-- The number of bytes that a page has room for. A character that does not fit as a whole begins
the next page. -/
def pageSize : Nat := 16384

/-- The number of characters before the page of the last character, where `count` characters stand
before the given ones, and the latest page begins behind `start` of them and holds `filled`
bytes. -/
def pageStart (count start filled : Nat) : List Char → Nat
  | [] => start
  | c :: cs =>
      if pageSize < filled + c.utf8Size then pageStart (count + 1) count c.utf8Size cs
      else pageStart (count + 1) start (filled + c.utf8Size) cs

def Cursor.ofText (cs : List Char) : Cursor :=
  match cs.findIdx? isForbidden with
  | none => { rest := cs }
  | some i =>
      { rest := cs.take (pageStart 0 0 0 (cs.take (i + 1)))
        forbidden := some (byteCount (cs.take i)) }

end Courier.Yaml
