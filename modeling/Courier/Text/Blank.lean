import Courier.Text.Utf8

/-!
# Blanks, words and control characters

Two notions of white space meet in a message. Lines are told blank by their bytes, by the five
ASCII blanks; head lines are cut into words at the characters with the Unicode property
White_Space, of which there are twenty-five.
-/

namespace Courier.Text

def isBlankByte (b : UInt8) : Bool := b == 9 || b == 10 || b == 12 || b == 13 || b == 32

/-- A character with the Unicode property White_Space. -/
def isSpace (c : Char) : Bool :=
  let n := c.toNat
  (9 ≤ n && n ≤ 13) || n == 0x20 || n == 0x85 || n == 0xA0 || n == 0x1680 ||
    (0x2000 ≤ n && n ≤ 0x200A) || n == 0x2028 || n == 0x2029 || n == 0x202F || n == 0x205F ||
    n == 0x3000

/-- A control character: one of the first thirty-two code points, or U+007F to U+009F. -/
def isControl (c : Char) : Bool :=
  let n := c.toNat
  n < 0x20 || (0x7F ≤ n && n ≤ 0x9F)

def trimStart (cs : List Char) : List Char := cs.dropWhile isSpace

def trimEnd (cs : List Char) : List Char := (cs.reverse.dropWhile isSpace).reverse

def trim (cs : List Char) : List Char := trimEnd (trimStart cs)

/-- The first word of a text and what follows it; `none` if the text holds spaces only. -/
def nextWord? (cs : List Char) : Option (List Char × List Char) :=
  match trimStart cs with
  | [] => none
  | c :: rest => some ((c :: rest).takeWhile (!isSpace ·), (c :: rest).dropWhile (!isSpace ·))

theorem nextWord?_eq_some {cs word rest : List Char} (h : nextWord? cs = some (word, rest)) :
    trimStart cs = word ++ rest ∧ word ≠ [] ∧ ∀ c ∈ word, isSpace c = false := by
  unfold nextWord? at h
  split at h
  · exact absurd h (by simp)
  · rename_i c tail hc
    simp only [Option.some.injEq, Prod.mk.injEq] at h
    obtain ⟨rfl, rfl⟩ := h
    have hns : isSpace c = false := by
      have := List.head?_dropWhile_not isSpace cs
      unfold trimStart at hc
      rw [hc] at this
      simpa using this
    refine ⟨by rw [hc, List.takeWhile_append_dropWhile], ?_, ?_⟩
    · simp [hns]
    · intro d hd
      have := List.all_takeWhile (p := fun x => !isSpace x) (l := c :: tail)
      simpa using List.all_eq_true.1 this d hd

end Courier.Text
