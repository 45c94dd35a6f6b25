import Courier.Text.Blank

/-!
# Lines

A line ends with a line feed, before which one carriage return does not belong to its text. Until
the line feed has come there is no line.

Main statement: `next?_bytes`, nothing is lost.
-/

namespace Courier.Wire

open Text

structure Line where
  text : Bytes
  ending : Bytes
deriving DecidableEq, Repr

namespace Line

def bytes (l : Line) : Bytes := l.text ++ l.ending

def isBlank (l : Line) : Bool := l.text.all isBlankByte

def ofText (text : Bytes) : Line :=
  match text.getLast? with
  | some 13 => ⟨text.dropLast, [13, 10]⟩
  | _ => ⟨text, [10]⟩

/-- The first line and what follows it; `none` while it has no end. -/
def next? (bs : Bytes) : Option (Line × Bytes) :=
  match bs.dropWhile (· != 10) with
  | [] => none
  | _ :: rest => some (ofText (bs.takeWhile (· != 10)), rest)

theorem bytes_ofText (text : Bytes) : (ofText text).bytes = text ++ [10] := by
  unfold ofText bytes
  split
  · rename_i h
    have hne : text ≠ [] := by
      rintro rfl
      simp at h
    have hlast : text.getLast hne = 13 := by
      rw [List.getLast?_eq_some_getLast hne] at h
      simpa using h
    have := List.dropLast_concat_getLast hne
    rw [hlast] at this
    conv => rhs; rw [← this]
    simp
  · rfl

theorem next?_bytes {bs rest : Bytes} {l : Line} (h : next? bs = some (l, rest)) :
    l.bytes ++ rest = bs := by
  unfold next? at h
  split at h
  · simp at h
  · rename_i b tail hb
    simp only [Option.some.injEq, Prod.mk.injEq] at h
    obtain ⟨rfl, rfl⟩ := h
    have hb10 : b = 10 := by
      have := List.head?_dropWhile_not (· != 10) bs
      rw [hb] at this
      simpa using this
    have := List.takeWhile_append_dropWhile (p := (· != 10)) (l := bs)
    rw [hb, hb10] at this
    rw [bytes_ofText, List.append_assoc, List.singleton_append]
    exact this

theorem length_next? {bs rest : Bytes} {l : Line} (h : next? bs = some (l, rest)) :
    rest.length < bs.length := by
  unfold next? at h
  split at h
  · simp at h
  · rename_i b tail hb
    simp only [Option.some.injEq, Prod.mk.injEq] at h
    have := (List.dropWhile_suffix (l := bs) (· != 10)).length_le
    rw [hb, List.length_cons] at this
    rw [← h.2]
    omega

end Line

end Courier.Wire
