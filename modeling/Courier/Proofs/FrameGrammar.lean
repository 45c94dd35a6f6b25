import Courier.Proofs.Streams

/-!
# The lines of a frame

What a frame is can be said without a reader, by its lines: a head line, a blank line, the lines of
the body, none of them blank, and one more blank line. Without the first blank line the body begins
at once. Such frames are what the reader of frames finds (`locate?_eq_some_iff`).

`FrameText` holds the lines of a frame with a body as they stand in a stream, with the blank ones in
front. `locate?_bytes` and `exists_of_locate?` tell that messages are in such texts only.

Main statement: `takeOnly_eq_ok_iff`.
-/

namespace Courier

open Text Wire

namespace Wire.Frame

/-! ## Lines -/

/-- Bytes with a line feed at their end and none before; `blank` tells whether they are blanks. -/
def IsLine (blank : Bool) (bs : Bytes) : Prop :=
  ∃ text, bs = text ++ [10] ∧ 10 ∉ text ∧ text.all isBlankByte = blank

variable {blank : Bool} {bs rest : Bytes} {l : Line}

theorem IsLine.ne_nil (h : IsLine blank bs) : bs ≠ [] := by
  obtain ⟨text, rfl, -⟩ := h
  simp

theorem isLine_of_next? (h : Line.next? bs = some (l, rest)) : IsLine l.isBlank l.bytes := by
  obtain ⟨text, hfeed, rfl, -⟩ := Line.next?_eq_some h
  exact ⟨text, Line.bytes_ofText text, hfeed, (Line.isBlank_ofText text).symm⟩

theorem next?_of_isLine (h : IsLine blank bs) (more : Bytes) :
    ∃ l, Line.next? (bs ++ more) = some (l, more) ∧ l.isBlank = blank ∧ l.bytes = bs := by
  obtain ⟨text, rfl, hfeed, hblank⟩ := h
  refine ⟨Line.ofText text, ?_, ?_, Line.bytes_ofText text⟩
  · rw [List.append_assoc]
    exact Line.next?_text hfeed more
  · rw [Line.isBlank_ofText, hblank]

theorem forall_isLine {lines : List Line} (h : ∀ l ∈ lines, IsLine blank l.bytes) :
    ∀ bs ∈ lines.map Line.bytes, IsLine blank bs := by
  intro bs hbs
  obtain ⟨l, hl, rfl⟩ := List.mem_map.mp hbs
  exact h l hl

/-! ## Bodies -/

theorem takeBody?_lines {lines : List Bytes} (hlines : ∀ l ∈ lines, IsLine false l) {last : Bytes}
    (hlast : IsBlankLine last) (more : Bytes) (done : List Line) :
    ∃ body close, takeBody? done (lines.flatten ++ last ++ more) =
        some (done.reverse ++ body, close, more) ∧
      body.map Line.bytes = lines ∧ close.bytes = last := by
  induction lines generalizing done with
  | nil =>
    obtain ⟨close, hnext, hblank, hbytes⟩ := next?_of_isLine hlast more
    refine ⟨[], close, ?_, rfl, hbytes⟩
    rw [List.flatten_nil, List.nil_append, List.append_nil]
    exact takeBody?_blank hnext hblank
  | cons line lines ih =>
    obtain ⟨hline, hlines⟩ := List.forall_mem_cons.mp hlines
    obtain ⟨l, hnext, hfilled, hbytes⟩ := next?_of_isLine hline (lines.flatten ++ last ++ more)
    obtain ⟨body, close, hbody, hmap, hclose⟩ := ih hlines (l :: done)
    refine ⟨l :: body, close, ?_, by rw [List.map_cons, hmap, hbytes], hclose⟩
    rw [List.flatten_cons, List.append_assoc, List.append_assoc, ← List.append_assoc lines.flatten,
      takeBody?_line hnext hfilled, hbody]
    simp

theorem takeBody?_eq_some {done body : List Line} {close : Line}
    (h : takeBody? done bs = some (body, close, rest)) :
    ∃ lines : List Line, body = done.reverse ++ lines ∧ (∀ l ∈ lines, IsLine false l.bytes) ∧
      IsBlankLine close.bytes ∧ bs = lines.flatMap Line.bytes ++ close.bytes ++ rest := by
  fun_induction takeBody? done bs with
  | case1 => simp at h
  | case2 done bs l rest' hl _ hb =>
    simp only [Option.some.injEq, Prod.mk.injEq] at h
    obtain ⟨rfl, rfl, rfl⟩ := h
    have hclose : IsLine true l.bytes := hb ▸ isLine_of_next? hl
    exact ⟨[], by simp, by simp, hclose, (Line.next?_bytes hl).symm⟩
  | case3 done bs l rest' hl _ hb ih =>
    obtain ⟨lines, rfl, hlines, hclose, rfl⟩ := ih h
    have hfilled : IsLine false l.bytes := by
      have hline := isLine_of_next? hl
      rwa [Bool.eq_false_iff.mpr hb] at hline
    refine ⟨l :: lines, by simp, ?_, hclose, ?_⟩
    · intro line hline
      rcases List.mem_cons.mp hline with rfl | hline
      · exact hfilled
      · exact hlines line hline
    · rw [← Line.next?_bytes hl]
      simp

/-! ## Frames -/

/-- The lines of a frame: a head line, a blank line or nothing, lines that are not blank, of which
there is one at least where nothing stands before them, and a blank line. -/
structure IsComplete (f : Frame) : Prop where
  head : ∃ text, 10 ∉ text ∧ f.head = (Line.ofText text).text ∧
    f.headEnd = (Line.ofText text).ending
  gap : f.gap = [] ∨ IsLine true f.gap
  body : ∃ lines : List Bytes, f.body = lines.flatten ∧ (∀ l ∈ lines, IsLine false l) ∧
    (f.gap = [] → lines ≠ [])
  close : IsLine true f.close

theorem isComplete_of_locate? {f : Frame} (h : locate? bs = some (f, rest)) : f.IsComplete := by
  obtain ⟨head, second, tail, tail', body, close, h1, h2, htake, rfl⟩ := locate?_eq_some h
  obtain ⟨text, hfeed, rfl, -⟩ := Line.next?_eq_some h1
  have hsecond : IsLine second.isBlank second.bytes := isLine_of_next? h2
  cases hblank : second.isBlank with
  | true =>
    simp only [hblank, if_true] at htake hsecond ⊢
    obtain ⟨lines, rfl, hlines, hclose, -⟩ := takeBody?_eq_some htake
    exact ⟨⟨text, hfeed, rfl, rfl⟩, Or.inr hsecond,
      ⟨_, rfl, forall_isLine hlines, fun hnil => absurd hnil hsecond.ne_nil⟩, hclose⟩
  | false =>
    -- the second line is the first of the body
    simp only [hblank, Bool.false_eq_true, if_false] at htake hsecond ⊢
    rw [takeBody?_line h2 hblank] at htake
    obtain ⟨lines, rfl, hlines, hclose, -⟩ := takeBody?_eq_some htake
    have hall : ∀ l ∈ second :: lines, IsLine false l.bytes :=
      List.forall_mem_cons.mpr ⟨hsecond, hlines⟩
    exact ⟨⟨text, hfeed, rfl, rfl⟩, Or.inl rfl, ⟨_, rfl, forall_isLine hall, by simp⟩, hclose⟩

theorem IsComplete.locate? {f : Frame} (hf : f.IsComplete) (more : Bytes) :
    locate? (f.bytes ++ more) = some (f, more) := by
  obtain ⟨head, headEnd, gap, body, close⟩ := f
  obtain ⟨⟨text, hfeed, rfl, rfl⟩, hgap, ⟨lines, rfl, hlines, hfirst⟩, hclose⟩ := hf
  simp only at hgap hfirst hclose
  have hhead : (Line.ofText text).text ++ (Line.ofText text).ending = text ++ [10] :=
    Line.bytes_ofText text
  have hbytes : (Line.ofText text).text ++ (Line.ofText text).ending ++ gap ++ lines.flatten ++
      close ++ more = text ++ 10 :: (gap ++ (lines.flatten ++ close ++ more)) := by
    simp [hhead]
  have hnext := Line.next?_text hfeed (gap ++ (lines.flatten ++ close ++ more))
  obtain ⟨body, last, htake, hbody, hlast⟩ := takeBody?_lines hlines hclose more []
  rw [Frame.bytes, hbytes]
  rcases hgap with rfl | hgap
  · -- the second line is the first of the body
    obtain ⟨line, lines, rfl⟩ := List.exists_cons_of_ne_nil (hfirst rfl)
    obtain ⟨second, hsecond, hfilled, -⟩ :=
      next?_of_isLine (hlines line List.mem_cons_self) (lines.flatten ++ close ++ more)
    rw [← List.append_assoc, ← List.append_assoc, ← List.flatten_cons] at hsecond
    rw [locate?_lines hnext hsecond]
    simp only [hfilled, Bool.false_eq_true, if_false, List.nil_append, htake, Option.map_some]
    simp [List.flatMap_def, hbody, hlast]
  · obtain ⟨second, hsecond, hblank, hsecondBytes⟩ :=
      next?_of_isLine hgap (lines.flatten ++ close ++ more)
    rw [locate?_lines hnext hsecond]
    simp only [hblank, if_true, htake, Option.map_some]
    simp [List.flatMap_def, hbody, hlast, hsecondBytes]

/-- What is found is a complete frame at the front of the buffer, and each one there is found. -/
theorem locate?_eq_some_iff {f : Frame} :
    locate? bs = some (f, rest) ↔ f.IsComplete ∧ f.bytes ++ rest = bs := by
  constructor
  · intro h
    exact ⟨isComplete_of_locate? h, locate?_bytes h⟩
  · rintro ⟨hf, rfl⟩
    exact hf.locate? rest

end Wire.Frame

/-! ## Texts of frames -/

namespace Wire

/-- The lines of a frame with the blank ones in front of it. The line feed of the head line is not
among its bytes. -/
structure FrameText where
  before : List Bytes
  head : Bytes
  gap : Bytes
  body : List Bytes
  close : Bytes

namespace FrameText

open Wire.Frame

def bytes (t : FrameText) : Bytes :=
  t.before.flatten ++ (t.head ++ [10]) ++ t.gap ++ t.body.flatten ++ t.close

/-- Each line is of its kind, and the body has a line. -/
structure IsProper (t : FrameText) : Prop where
  before : ∀ l ∈ t.before, IsLine true l
  head : IsLine false (t.head ++ [10])
  gap : IsLine true t.gap
  body : ∀ l ∈ t.body, IsLine false l
  body_ne : t.body ≠ []
  close : IsLine true t.close

/-- The frame in the text. A carriage return at the end of the head line is no part of the head. -/
def frame (t : FrameText) : Frame :=
  ⟨(Line.ofText t.head).text, (Line.ofText t.head).ending, t.gap, t.body.flatten, t.close⟩

theorem IsProper.isSeparated {t : FrameText} (ht : t.IsProper) : t.frame.isSeparated = true := by
  simp [frame, Frame.isSeparated, ht.gap.ne_nil]

theorem IsProper.visible {t : FrameText} (ht : t.IsProper) :
    t.body.flatten.all isBlankByte = false := by
  obtain ⟨l, hl⟩ := List.exists_mem_of_ne_nil _ ht.body_ne
  obtain ⟨text, rfl, -, htext⟩ := ht.body l hl
  obtain ⟨b, hb, hvisible⟩ := List.all_eq_false.mp htext
  refine List.all_eq_false.mpr ⟨b, ?_, hvisible⟩
  exact List.mem_flatten_of_mem hl (List.mem_append_left _ hb)

theorem bytes_eq (t : FrameText) : t.bytes = t.before.flatten ++ t.frame.bytes := by
  have hhead := Line.bytes_ofText t.head
  rw [Line.bytes] at hhead
  simp [bytes, frame, Frame.bytes, ← hhead]

theorem IsProper.isComplete {t : FrameText} (ht : t.IsProper) : t.frame.IsComplete := by
  obtain ⟨text, htext, hfeed, -⟩ := ht.head
  obtain rfl := List.append_cancel_right htext
  exact ⟨⟨t.head, hfeed, rfl, rfl⟩, Or.inr ht.gap, ⟨t.body, rfl, ht.body, fun _ => ht.body_ne⟩,
    ht.close⟩

theorem locate?_bytes {t : FrameText} (ht : t.IsProper) (more : Bytes) :
    locate? (skipBlankLines (t.bytes ++ more)) = some (t.frame, more) := by
  have hlocate := ht.isComplete.locate? more
  have hfilled : t.frame.head.all isBlankByte = false := by
    obtain ⟨text, htext, -, hfilled⟩ := ht.head
    obtain rfl := List.append_cancel_right htext
    exact (Line.isBlank_ofText t.head).trans hfilled
  rw [bytes_eq, List.append_assoc, (skipBlankLines_flatten ht.before _).1,
    (skipBlankLines_of_locate? hlocate hfilled).1]
  exact hlocate

/-- A frame with a blank line after its head, and with a body, is the one in some text. -/
theorem exists_of_locate? {bs rest : Bytes} {f : Frame}
    (h : locate? (skipBlankLines bs) = some (f, rest)) (hsep : f.isSeparated = true)
    (hbody : f.body ≠ []) : ∃ t : FrameText, t.IsProper ∧ t.frame = f ∧ bs = t.bytes ++ rest := by
  have hfilled := head_of_locate? h
  obtain ⟨hf, hbytes⟩ := locate?_eq_some_iff.mp h
  obtain ⟨head, headEnd, gap, body, close⟩ := f
  obtain ⟨⟨text, hfeed, rfl, rfl⟩, hgap, ⟨lines, rfl, hlines, -⟩, hclose⟩ := hf
  have hgap : IsLine true gap := by
    rcases hgap with rfl | hgap
    · cases hsep
    · exact hgap
  let t : FrameText := ⟨(blankLines bs).map Line.bytes, text, gap, lines, close⟩
  refine ⟨t, ⟨forall_isBlankLine bs, ?_, hgap, hlines, ?_, hclose⟩, rfl, ?_⟩
  · exact ⟨text, rfl, hfeed, by rw [← Line.isBlank_ofText]; exact hfilled⟩
  · rintro rfl
    exact hbody rfl
  · have hframe : t.frame.bytes ++ rest = skipBlankLines bs := hbytes
    rw [bytes_eq, List.append_assoc, hframe, ← List.flatMap_def, blankLines_bytes]

end FrameText

end Wire

/-! ## Exactly one message -/

namespace Decoder

open Frame

variable {α : Type} {read : Frame → Except Failure α} {bs : Bytes}

/-- What is read from all of the bytes is read from the frame in front, and blanks follow it. -/
theorem takeOnly_eq_ok_iff_locate? {m : α} : takeOnly read bs = .ok m ↔
    ∃ f rest, locate? (skipBlankLines bs) = some (f, rest) ∧ read f = .ok m ∧
      rest.all isBlankByte = true := by
  cases hlocate : locate? (skipBlankLines bs) with
  | none =>
    have hcut : unlimited.cut bs = (.more, skipBlankLines bs) := cut_unlocated hlocate
    simp [takeOnly, take_more hcut]
  | some p =>
    obtain ⟨f, rest⟩ := p
    have hcut : unlimited.cut bs = (.frame f, rest) := cut_located hlocate
    rw [takeOnly, take_frame hcut]
    cases hread : read f with
    | error e =>
      constructor
      · intro h
        cases h
      · rintro ⟨g, after, ⟨⟩, hm, -⟩
        rw [hread] at hm
        cases hm
    | ok m' =>
      dsimp only [Except.map]
      split
      · rename_i hblank
        constructor
        · rintro ⟨⟩
          exact ⟨f, rest, rfl, hread, hblank⟩
        · rintro ⟨g, after, ⟨⟩, hm, -⟩
          rw [hread] at hm
          exact hm
      · rename_i hblank
        constructor
        · intro h
          cases h
        · rintro ⟨g, after, ⟨⟩, -, hafter⟩
          exact absurd hafter hblank

/-- **Exactly the texts of one frame are read**, with any blanks behind them, if the message of a
frame is in its body. -/
theorem takeOnly_eq_ok_iff
    (hread : ∀ {f m}, read f = .ok m → f.isSeparated = true ∧ f.body ≠ []) {m : α} :
    takeOnly read bs = .ok m ↔ ∃ (t : FrameText) (after : Bytes), t.IsProper ∧
      after.all isBlankByte = true ∧ bs = t.bytes ++ after ∧ read t.frame = .ok m := by
  rw [takeOnly_eq_ok_iff_locate?]
  constructor
  · rintro ⟨f, rest, hlocate, hm, hblank⟩
    obtain ⟨hsep, hbody⟩ := hread hm
    obtain ⟨t, ht, rfl, hbytes⟩ := FrameText.exists_of_locate? hlocate hsep hbody
    exact ⟨t, rest, ht, hblank, hbytes, hm⟩
  · rintro ⟨t, after, ht, hblank, rfl, hm⟩
    exact ⟨t.frame, after, FrameText.locate?_bytes ht after, hm, hblank⟩

theorem takeOnly_error
    (hread : ∀ {f failure}, read f = .error failure → ∃ cause, failure = .badRequest cause)
    {failure : Failure} (h : takeOnly read bs = .error failure) :
    ∃ cause, failure = .badRequest cause := by
  cases hlocate : locate? (skipBlankLines bs) with
  | none =>
    have hcut : unlimited.cut bs = (.more, skipBlankLines bs) := cut_unlocated hlocate
    rw [takeOnly, take_more hcut] at h
    exact ⟨_, (Except.error.inj h).symm⟩
  | some p =>
    obtain ⟨f, rest⟩ := p
    have hcut : unlimited.cut bs = (.frame f, rest) := cut_located hlocate
    rw [takeOnly, take_frame hcut] at h
    cases hm : read f with
    | error e =>
      rw [hm] at h
      obtain rfl := Except.error.inj h
      exact hread hm
    | ok m =>
      rw [hm] at h
      dsimp only [Except.map] at h
      split at h
      · cases h
      · exact ⟨_, (Except.error.inj h).symm⟩

end Decoder

end Courier
