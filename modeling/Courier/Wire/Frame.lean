import Courier.Wire.Line

/-!
# Frames

A frame is a head line, one blank line, the lines of the body, and a blank line that ends it. It is
there only once its last line is; the end of the stream ends nothing. Without the first blank line
the frame still ends at the next one, so that the stream stays in step.

A frame holds its bytes in five parts. Main statement: `locate?_bytes`, the parts and the rest are
the buffer.
-/

namespace Courier.Wire

open Text

structure Frame where
  head : Bytes
  headEnd : Bytes
  /-- The blank line after the head; empty if another line stands there. -/
  gap : Bytes
  body : Bytes
  close : Bytes
deriving DecidableEq, Repr

namespace Frame

def bytes (f : Frame) : Bytes := f.head ++ f.headEnd ++ f.gap ++ f.body ++ f.close

def size (f : Frame) : Nat := f.bytes.length

def isSeparated (f : Frame) : Bool := !f.gap.isEmpty

/-- Takes lines up to the first blank one: their bytes onto those already taken, in lines (latest
first), then the blank line and what follows it. -/
def takeBody? (done : List Line) (bs : Bytes) : Option (List Line × Line × Bytes) :=
  match h : Line.next? bs with
  | none => none
  | some (l, rest) =>
      have := Line.length_next? h
      if l.isBlank then some (done.reverse, l, rest) else takeBody? (l :: done) rest
termination_by bs.length

/-- The frame at the front of the buffer and what follows it; `none` while it is not complete. The
head line comes first, blank or not. -/
def locate? (bs : Bytes) : Option (Frame × Bytes) :=
  match Line.next? bs with
  | none => none
  | some (head, rest) =>
      match Line.next? rest with
      | none => none
      | some (second, rest') =>
          -- a second line that is not blank is the first of the body
          let (gap, start) := if second.isBlank then (second.bytes, rest') else ([], rest)
          match takeBody? [] start with
          | none => none
          | some (body, close, after) =>
              some (⟨head.text, head.ending, gap, body.flatMap Line.bytes, close.bytes⟩, after)

def skipBlankLines (bs : Bytes) : Bytes :=
  match h : Line.next? bs with
  | none => bs
  | some (l, rest) =>
      have := Line.length_next? h
      if l.isBlank then skipBlankLines rest else bs
termination_by bs.length

theorem takeBody?_bytes {done body : List Line} {bs rest : Bytes} {close : Line}
    (h : takeBody? done bs = some (body, close, rest)) :
    done.reverse.flatMap Line.bytes ++ bs
      = body.flatMap Line.bytes ++ close.bytes ++ rest ∧ close.isBlank = true := by
  fun_induction takeBody? done bs with
  | case1 => simp at h
  | case2 done bs l rest' hl _ hb =>
      simp only [Option.some.injEq, Prod.mk.injEq] at h
      obtain ⟨rfl, rfl, rfl⟩ := h
      exact ⟨by rw [← Line.next?_bytes hl, List.append_assoc], hb⟩
  | case3 done bs l rest' hl _ hb ih =>
      obtain ⟨ih, hc⟩ := ih h
      refine ⟨?_, hc⟩
      rw [← ih, ← Line.next?_bytes hl]
      simp

theorem locate?_bytes {bs rest : Bytes} {f : Frame} (h : locate? bs = some (f, rest)) :
    f.bytes ++ rest = bs := by
  unfold locate? at h
  split at h
  · simp at h
  rename_i head rest1 h1
  split at h
  · simp at h
  rename_i second rest2 h2
  dsimp only at h
  split at h
  · simp at h
  rename_i body close after hb
  simp only [Option.some.injEq, Prod.mk.injEq] at h
  obtain ⟨rfl, rfl⟩ := h
  obtain ⟨hbytes, -⟩ := takeBody?_bytes hb
  simp only [List.reverse_nil, List.flatMap_nil, List.nil_append] at hbytes
  have e1 := Line.next?_bytes h1
  have e2 := Line.next?_bytes h2
  simp only [bytes]
  by_cases hs : second.isBlank = true
  · simp only [hs, if_true] at hbytes ⊢
    rw [← e1, ← e2, hbytes]
    simp [Line.bytes]
  · simp only [hs] at hbytes ⊢
    rw [← e1]
    simp only [Bool.false_eq_true, if_false] at hbytes ⊢
    rw [hbytes]
    simp [Line.bytes]

theorem takeBody?_close {done body : List Line} {bs rest : Bytes} {close : Line}
    (h : takeBody? done bs = some (body, close, rest)) : close.bytes ≠ [] := by
  fun_induction takeBody? done bs with
  | case1 => simp at h
  | case2 done bs l rest' hl _ hb =>
      simp only [Option.some.injEq, Prod.mk.injEq] at h
      obtain ⟨rfl, rfl, rfl⟩ := h
      intro hn
      have hlen := Line.length_next? hl
      have := Line.next?_bytes hl
      rw [hn, List.nil_append] at this
      rw [this] at hlen
      omega
  | case3 done bs l rest' hl _ hb ih => exact ih h

theorem length_locate? {bs rest : Bytes} {f : Frame} (h : locate? bs = some (f, rest)) :
    rest.length < bs.length := by
  have hb := locate?_bytes h
  have hf : f.bytes ≠ [] := by
    unfold locate? at h
    split at h
    · simp at h
    split at h
    · simp at h
    dsimp only at h
    split at h
    · simp at h
    rename_i hc
    simp only [Option.some.injEq, Prod.mk.injEq] at h
    obtain ⟨rfl, rfl⟩ := h
    simp [bytes, takeBody?_close hc]
  have := congrArg List.length hb
  rw [List.length_append] at this
  have := List.length_pos_iff.2 hf
  omega

theorem length_skipBlankLines (bs : Bytes) : (skipBlankLines bs).length ≤ bs.length := by
  fun_induction skipBlankLines bs with
  | case1 => exact Nat.le_refl _
  | case2 bs l rest h hlt _ ih => omega
  | case3 => exact Nat.le_refl _

end Frame

end Courier.Wire
