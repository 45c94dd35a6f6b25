import Courier.Proofs.FrameGrammar
import Mathlib.Data.List.Chain

/-!
# Where a frame stands

A frame is cut off the buffer as its parts. It can be told by places alone as well: a cursor goes
over the buffer from line to line, and what it finds is where the text of the head line and the body
stand, and the place behind the last line. `Places.find?` is this scan; it finds the places of the
frame that `locate?` cuts off, and nothing where that finds nothing (`Places.find?_eq`).

The cursor cannot go on for ever, since each line takes it forward and none beyond the buffer
(`CursorEnds`). A frame, once its last line is there, is found whatever follows, and before that
nothing is; its places are in order and within the buffer.

Main statement: `located_once_complete`.
-/

namespace Courier

open Text

namespace Wire

/-! ## Stretches of a buffer -/

/-- The stretch of a buffer from `start` up to, but not with, `stop`. -/
structure Span where
  start : Nat
  stop : Nat
deriving DecidableEq, Repr

namespace Span

/-- The bytes that stand there; `none` if the buffer has no such stretch. -/
def bytes? (s : Span) (bs : Bytes) : Option Bytes :=
  if s.start ≤ s.stop ∧ s.stop ≤ bs.length then some (bs.extract s.start s.stop) else none

def isBlank (s : Span) (bs : Bytes) : Bool := ((s.bytes? bs).getD []).all isBlankByte

theorem bytes?_append (before part after : Bytes) :
    (Span.mk before.length (before.length + part.length)).bytes? (before ++ part ++ after)
      = some part := by
  have hbound : before.length ≤ before.length + part.length ∧
      before.length + part.length ≤ (before ++ part ++ after).length := by
    simp only [List.length_append]
    omega
  rw [bytes?, if_pos hbound]
  simp

end Span

/-! ## Lines by their places -/

/-- The line that begins at a place: where its text stands, and the place behind its line feed.
`none` while it has no end. -/
def lineAt? (bs : Bytes) (start : Nat) : Option (Span × Nat) :=
  ((bs.drop start).idxOf? 10).map fun n =>
    let feed := start + n
    (⟨start, if start < feed ∧ bs[feed - 1]? = some 13 then feed - 1 else feed⟩, feed + 1)

variable {bs : Bytes} {start next : Nat} {line : Span}

theorem idxOf?_feed {text : Bytes} (h : 10 ∉ text) (rest : Bytes) :
    (text ++ 10 :: rest).idxOf? 10 = some text.length := by
  have hnone : text.findIdx? (· == 10) = none := by
    rw [List.findIdx?_eq_none_iff]
    intro b hb
    simp only [beq_eq_false_iff_ne, ne_eq]
    rintro rfl
    exact h hb
  rw [List.idxOf?, List.findIdx?_append, hnone, List.findIdx?_cons]
  simp

theorem length_text_ofText (text : Bytes) :
    (Line.ofText text).text.length =
      if 0 < text.length ∧ text[text.length - 1]? = some 13 then text.length - 1
      else text.length := by
  rw [← List.getLast?_eq_getElem?]
  unfold Line.ofText
  split
  · rename_i hreturn
    have hpos : 0 < text.length := by
      apply List.length_pos_iff.mpr
      rintro rfl
      simp at hreturn
    rw [if_pos ⟨hpos, hreturn⟩, List.length_dropLast]
  · rename_i hreturn
    rw [if_neg fun h => hreturn h.2]

theorem lineAt?_eq (bs : Bytes) (start : Nat) :
    lineAt? bs start = (Line.next? (bs.drop start)).map fun found =>
      (⟨start, start + found.1.text.length⟩, start + found.1.bytes.length) := by
  cases hnext : Line.next? (bs.drop start) with
  | none =>
    rw [lineAt?, List.idxOf?_eq_none_iff.mpr (Line.next?_eq_none_iff.mp hnext)]
    rfl
  | some found =>
    obtain ⟨l, rest⟩ := found
    obtain ⟨text, hfeed, rfl, htext⟩ := Line.next?_eq_some hnext
    have hget : ∀ n, n < text.length → bs[start + n]? = text[n]? := by
      intro n hn
      rw [← List.getElem?_drop, htext, List.getElem?_append_left hn]
    -- the byte before the line feed is the last of the text, if there is a text
    have hlast : (start < start + text.length ∧ bs[start + text.length - 1]? = some 13) ↔
        (0 < text.length ∧ text[text.length - 1]? = some 13) := by
      rw [Nat.lt_add_right_iff_pos]
      apply and_congr_right
      intro hpos
      rw [Nat.add_sub_assoc hpos, hget _ (by omega)]
    rw [lineAt?, htext, idxOf?_feed hfeed]
    simp only [Option.map_some, Line.bytes_ofText, length_text_ofText, hlast, List.length_append,
      List.length_singleton]
    split
    · rename_i hreturn
      rw [Nat.add_sub_assoc hreturn.1]
      rfl
    · rfl

theorem lineAt?_of_next? {l : Line} {rest : Bytes}
    (h : Line.next? (bs.drop start) = some (l, rest)) :
    lineAt? bs start = some (⟨start, start + l.text.length⟩, start + l.bytes.length) ∧
      Span.isBlank ⟨start, start + l.text.length⟩ bs = l.isBlank ∧
      bs.drop (start + l.bytes.length) = rest ∧ start + l.bytes.length ≤ bs.length ∧
      0 < l.bytes.length := by
  have hbytes := Line.next?_bytes h
  have hshort := Line.length_next? h
  have hlength := congrArg List.length hbytes
  rw [List.length_append, List.length_drop] at hlength
  rw [List.length_drop] at hshort
  refine ⟨by rw [lineAt?_eq, h]; rfl, ?_, ?_, by omega, by omega⟩
  · have hbefore : (bs.take start).length = start := by
      rw [List.length_take]
      omega
    have hwhole : bs.take start ++ l.text ++ (l.ending ++ rest) = bs := by
      rw [List.append_assoc, ← List.append_assoc l.text, ← Line.bytes, hbytes,
        List.take_append_drop]
    have htext := Span.bytes?_append (bs.take start) l.text (l.ending ++ rest)
    rw [hwhole, hbefore] at htext
    rw [Span.isBlank, htext]
    rfl
  · rw [← List.drop_drop, ← hbytes, List.drop_left]

theorem lineAt?_forward (h : lineAt? bs start = some (line, next)) :
    start < next ∧ next ≤ bs.length := by
  rw [lineAt?_eq] at h
  obtain ⟨⟨l, rest⟩, hnext, hfound⟩ := Option.map_eq_some_iff.mp h
  obtain ⟨-, -, -, hle, hpos⟩ := lineAt?_of_next? hnext
  simp only [Prod.mk.injEq] at hfound
  omega

/-! ## The cursor -/

/-- The cursor goes on from a line that is not blank. -/
def Passes (bs : Bytes) (cursor next : Nat) : Prop :=
  ∃ line, lineAt? bs cursor = some (line, next) ∧ line.isBlank bs = false

/-- Where the cursor comes to a blank line, and the place behind that line. -/
def closeAt? (bs : Bytes) (cursor : Nat) : Option (Nat × Nat) :=
  match h : lineAt? bs cursor with
  | none => none
  | some (line, next) =>
      have := lineAt?_forward h
      if line.isBlank bs then some (cursor, next) else closeAt? bs next
termination_by bs.length - cursor

theorem closeAt?_none (h : lineAt? bs start = none) : closeAt? bs start = none := by
  rw [closeAt?]
  split <;> rename_i h' <;> cases h.symm.trans h'
  rfl

theorem closeAt?_some (h : lineAt? bs start = some (line, next)) :
    closeAt? bs start = if line.isBlank bs then some (start, next) else closeAt? bs next := by
  rw [closeAt?]
  split <;> rename_i h' <;> cases h.symm.trans h'
  rfl

/-- The cursor finds the end of the body that is taken line by line. It stands behind the lines
that are done, the first of which begins at `first`. -/
theorem closeAt?_eq (first : Nat) (done : List Line) {cursor : Nat}
    (hdone : cursor = first + (done.flatMap Line.bytes).length) :
    closeAt? bs cursor = (Frame.takeBody? done (bs.drop cursor)).map fun found =>
      (first + (found.1.flatMap Line.bytes).length,
        first + (found.1.flatMap Line.bytes).length + found.2.1.bytes.length) := by
  induction hn : bs.length - cursor using Nat.strongRecOn generalizing done cursor with
  | ind n ih =>
    cases hnext : Line.next? (bs.drop cursor) with
    | none =>
      rw [closeAt?_none (by rw [lineAt?_eq, hnext]; rfl), Frame.takeBody?_none hnext]
      rfl
    | some found =>
      obtain ⟨l, rest⟩ := found
      obtain ⟨hline, hblank, hrest, hle, hpos⟩ := lineAt?_of_next? hnext
      rw [closeAt?_some hline, hblank]
      cases hb : l.isBlank with
      | true =>
        have hreverse : (done.reverse.flatMap Line.bytes).length =
            (done.flatMap Line.bytes).length := by
          simp [List.length_flatMap, List.sum_reverse]
        rw [Frame.takeBody?_blank hnext hb, Option.map_some, hreverse, ← hdone]
        rfl
      | false =>
        have hmore : cursor + l.bytes.length =
            first + ((l :: done).flatMap Line.bytes).length := by
          rw [List.flatMap_cons, List.length_append]
          omega
        rw [Frame.takeBody?_line hnext hb, ← hrest]
        exact ih _ (by omega) (l :: done) hmore rfl

/-- The cursor stops where its way over lines that are not blank comes to a blank one. -/
theorem closeAt?_eq_some_iff {stop : Nat} : closeAt? bs start = some (stop, next) ↔
    Relation.ReflTransGen (Passes bs) start stop ∧
      ∃ line, lineAt? bs stop = some (line, next) ∧ line.isBlank bs = true := by
  fun_induction closeAt? bs start with
  | case1 start h =>
    constructor
    · rintro ⟨⟩
    · rintro ⟨hway, line, hline, -⟩
      rcases Relation.ReflTransGen.cases_head hway with rfl | ⟨after, ⟨l, hl, -⟩, -⟩
      · exact absurd (h.symm.trans hline) (by simp)
      · exact absurd (h.symm.trans hl) (by simp)
  | case2 start line after h _ hb =>
    constructor
    · rintro ⟨⟩
      exact ⟨.refl, line, h, hb⟩
    · rintro ⟨hway, line', hline, -⟩
      rcases Relation.ReflTransGen.cases_head hway with rfl | ⟨after', ⟨l, hl, hfilled⟩, -⟩
      · cases h.symm.trans hline
        rfl
      · cases h.symm.trans hl
        exact absurd (hb.symm.trans hfilled) (by simp)
  | case3 start line after h _ hb ih =>
    rw [ih]
    have hfilled : line.isBlank bs = false := by simpa using hb
    constructor
    · rintro ⟨hway, hlast⟩
      exact ⟨hway.head ⟨line, h, hfilled⟩, hlast⟩
    · rintro ⟨hway, line', hline, hblank⟩
      rcases Relation.ReflTransGen.cases_head hway with rfl | ⟨after', ⟨l, hl, -⟩, hway⟩
      · cases h.symm.trans hline
        exact absurd hblank hb
      · cases h.symm.trans hl
        exact ⟨hway, line', hline, hblank⟩

theorem exists_rest (bs : Bytes) (start : Nat) :
    ∃ stop, Relation.ReflTransGen (Passes bs) start stop ∧ ∀ next, ¬ Passes bs stop next := by
  fun_induction closeAt? bs start with
  | case1 start h =>
    refine ⟨start, .refl, ?_⟩
    rintro next ⟨line, hline, -⟩
    exact absurd (h.symm.trans hline) (by simp)
  | case2 start line after h _ hb =>
    refine ⟨start, .refl, ?_⟩
    rintro next ⟨line', hline, hfilled⟩
    cases h.symm.trans hline
    exact absurd (hb.symm.trans hfilled) (by simp)
  | case3 start line after h _ hb ih =>
    obtain ⟨stop, hway, hrest⟩ := ih
    exact ⟨stop, hway.head ⟨line, h, by simpa using hb⟩, hrest⟩

theorem length_le_of_isChain {cursors : List Nat}
    (h : List.IsChain (Passes bs) (start :: cursors)) : cursors.length ≤ bs.length - start := by
  induction cursors generalizing start with
  | nil => exact Nat.zero_le _
  | cons next cursors ih =>
    obtain ⟨⟨line, hline, -⟩, hrest⟩ := List.isChain_cons_cons.mp h
    have hforward := lineAt?_forward hline
    have hlength := ih hrest
    rw [List.length_cons]
    omega

/-- The cursor goes forward and not beyond the buffer, so that it takes no more steps than there are
bytes from where it starts, and comes to rest. A body is closed at the first blank line that it
comes to. -/
structure CursorEnds (bs : Bytes) : Prop where
  forward : ∀ cursor next, Passes bs cursor next → cursor < next ∧ next ≤ bs.length
  bounded : ∀ start cursors, List.IsChain (Passes bs) (start :: cursors) →
    cursors.length ≤ bs.length - start
  rests : ∀ start, ∃ stop, Relation.ReflTransGen (Passes bs) start stop ∧
    ∀ next, ¬ Passes bs stop next
  stops : ∀ start stop next, closeAt? bs start = some (stop, next) ↔
    Relation.ReflTransGen (Passes bs) start stop ∧
      ∃ line, lineAt? bs stop = some (line, next) ∧ line.isBlank bs = true

theorem cursorEnds (bs : Bytes) : CursorEnds bs where
  forward := by
    rintro cursor next ⟨line, hline, -⟩
    exact lineAt?_forward hline
  bounded _ _ := length_le_of_isChain
  rests := exists_rest bs
  stops _ _ _ := closeAt?_eq_some_iff

/-! ## Places of a frame -/

/-- Where a frame stands: the text of its head line, its body, and the place behind its last
line. -/
structure Places where
  head : Span
  body : Span
  stop : Nat
  isSeparated : Bool
deriving DecidableEq, Repr

def Frame.places (f : Frame) : Places :=
  let start := (f.head ++ f.headEnd ++ f.gap).length
  ⟨⟨0, f.head.length⟩, ⟨start, start + f.body.length⟩, f.size, f.isSeparated⟩

theorem Frame.places_lines (head close : Line) (gap : Bytes) (body : List Line) :
    Frame.places ⟨head.text, head.ending, gap, body.flatMap Line.bytes, close.bytes⟩ =
      ⟨⟨0, head.text.length⟩, ⟨head.bytes.length + gap.length,
          head.bytes.length + gap.length + (body.flatMap Line.bytes).length⟩,
        head.bytes.length + gap.length + (body.flatMap Line.bytes).length + close.bytes.length,
        !gap.isEmpty⟩ := by
  simp only [places, size, Frame.bytes, isSeparated, Line.bytes, List.length_append, Nat.add_assoc]

namespace Places

/-- The places of the frame at the front of the buffer; `none` while it is not complete. -/
def find? (bs : Bytes) : Option Places :=
  match lineAt? bs 0 with
  | none => none
  | some (head, afterHead) =>
      match lineAt? bs afterHead with
      | none => none
      | some (second, afterSecond) =>
          let isSeparated := second.isBlank bs
          let start := if isSeparated then afterSecond else afterHead
          match closeAt? bs start with
          | none => none
          | some (stop, next) => some ⟨head, ⟨start, stop⟩, next, isSeparated⟩

theorem find?_eq (bs : Bytes) :
    find? bs = (Frame.locate? bs).map fun found => found.1.places := by
  cases h1 : Line.next? bs with
  | none =>
    have hhead : lineAt? bs 0 = none := by
      rw [lineAt?_eq, List.drop_zero, h1]
      rfl
    simp [find?, hhead, Frame.locate?, h1]
  | some p =>
    obtain ⟨head, rest⟩ := p
    have hfirst : Line.next? (bs.drop 0) = some (head, rest) := h1
    obtain ⟨hhead, -, hrest, -⟩ := lineAt?_of_next? hfirst
    simp only [Nat.zero_add] at hhead hrest
    cases h2 : Line.next? rest with
    | none =>
      have hsecond : lineAt? bs head.bytes.length = none := by
        rw [lineAt?_eq, hrest, h2]
        rfl
      simp [find?, hhead, hsecond, Frame.locate?, h1, h2]
    | some q =>
      obtain ⟨second, rest'⟩ := q
      obtain ⟨hsecond, hblank, hrest', -, hpos⟩ := lineAt?_of_next? (hrest.symm ▸ h2)
      rw [Frame.locate?_lines h1 h2]
      simp only [find?, hhead, hsecond, hblank]
      cases hb : second.isBlank with
      | true =>
        -- the body begins behind the separator, and otherwise behind the head
        have hgap : second.bytes ≠ [] := List.length_pos_iff.mp hpos
        simp only [if_true]
        rw [closeAt?_eq (head.bytes.length + second.bytes.length) [] (by simp), hrest']
        rcases Frame.takeBody? [] rest' with _ | ⟨body, close, after⟩
        · rfl
        · simp [Frame.places_lines, hgap]
      | false =>
        simp only [Bool.false_eq_true, if_false]
        rw [closeAt?_eq head.bytes.length [] (by simp), hrest]
        rcases Frame.takeBody? [] rest with _ | ⟨body, close, after⟩
        · rfl
        · simp [Frame.places_lines]

/-- Places that stand for a frame in a buffer. They are in order and within the buffer, so that the
bytes at each of them are there; the body is made of lines none of which is blank, and the line that
ends at the last place is blank. -/
structure Mark (p : Places) (f : Frame) (bs : Bytes) : Prop where
  head_le : p.head.stop ≤ p.body.start
  body_le : p.body.start ≤ p.body.stop
  body_le_stop : p.body.stop ≤ p.stop
  stop_le : p.stop ≤ bs.length
  bytes : bs.take p.stop = f.bytes
  head : p.head.bytes? (bs.take p.stop) = some f.head
  body : p.body.bytes? (bs.take p.stop) = some f.body
  lines : ∃ lines : List Bytes, f.body = lines.flatten ∧ ∀ l ∈ lines, Frame.IsLine false l
  close : ∃ line, (Span.mk p.body.stop p.stop).bytes? bs = some line ∧ Frame.IsLine true line

theorem mark_of_isComplete {f : Frame} (hf : f.IsComplete) (rest : Bytes) :
    f.places.Mark f (f.bytes ++ rest) := by
  obtain ⟨-, -, ⟨lines, hbody, hlines, -⟩, hclose⟩ := hf
  have htake : (f.bytes ++ rest).take f.places.stop = f.bytes := List.take_left
  constructor
  case head_le => simp [Frame.places]
  case body_le => simp [Frame.places]
  case body_le_stop =>
    simp only [Frame.places, Frame.size, Frame.bytes, List.length_append]
    omega
  case stop_le => simp [Frame.places, Frame.size]
  case bytes => exact htake
  case head =>
    rw [htake]
    have hhead := Span.bytes?_append [] f.head (f.headEnd ++ f.gap ++ f.body ++ f.close)
    simpa [Frame.bytes, Frame.places] using hhead
  case body =>
    rw [htake]
    exact Span.bytes?_append (f.head ++ f.headEnd ++ f.gap) f.body f.close
  case lines => exact ⟨lines, hbody, hlines⟩
  case close =>
    refine ⟨f.close, ?_, hclose⟩
    have hlast := Span.bytes?_append (f.head ++ f.headEnd ++ f.gap ++ f.body) f.close rest
    simpa [Frame.bytes, Frame.places, Frame.size, Nat.add_assoc] using hlast

end Places

/-! ## Frames that are found -/

namespace Frame

variable {rest front : Bytes} {f : Frame}

/-- Nothing is found in fewer bytes than those of the frame. -/
theorem locate?_front (h : locate? bs = some (f, rest)) (hfront : front <+: bs)
    (hshort : front.length < f.size) : locate? front = none := by
  have hsize := size_locate? h
  exact local_locate?.eq_none_of_prefix h hfront (by omega)

/-- **A frame is found once its last line is there, and from then on at the same places.** What is
found at the front of a buffer is a complete frame that stands there, and each such frame is found;
the scan over places finds the places of the frame that is cut off. When places are found, the same
places and the same frame are found whatever comes behind, and nothing in a front part that is
shorter than the frame. They are in order and within the buffer, so that the head and the body are
there to be read; the body is made of whole lines, none of them blank, and the line at whose end the
frame ends is blank. Behind skipped blank lines its head is not blank. The scan comes to an end,
since each step takes the cursor forward within the buffer. -/
theorem located_once_complete (bs : Bytes) :
    (∀ f rest, locate? bs = some (f, rest) ↔ f.IsComplete ∧ f.bytes ++ rest = bs) ∧
    Places.find? bs = (locate? bs).map (fun found => found.1.places) ∧
    (∀ p, Places.find? bs = some p → ∃ f rest, locate? bs = some (f, rest) ∧ p.Mark f bs ∧
      (∀ more, Places.find? (bs ++ more) = some p ∧
        locate? (bs ++ more) = some (f, rest ++ more)) ∧
      (∀ front, front <+: bs → front.length < p.stop →
        Places.find? front = none ∧ locate? front = none) ∧
      ∀ buffer, bs = skipBlankLines buffer → f.head.all isBlankByte = false) ∧
    CursorEnds bs := by
  refine ⟨fun _ _ => locate?_eq_some_iff, Places.find?_eq bs, ?_, cursorEnds bs⟩
  intro p hp
  rw [Places.find?_eq] at hp
  obtain ⟨⟨f, rest⟩, h, rfl⟩ := Option.map_eq_some_iff.mp hp
  refine ⟨f, rest, h, ?_, ?_, ?_, ?_⟩
  · obtain ⟨hf, rfl⟩ := locate?_eq_some_iff.mp h
    exact Places.mark_of_isComplete hf rest
  · intro more
    have hmore := local_locate?.append more h
    exact ⟨by rw [Places.find?_eq, hmore]; rfl, hmore⟩
  · intro front hfront hshort
    have hnone := locate?_front h hfront hshort
    exact ⟨by rw [Places.find?_eq, hnone]; rfl, hnone⟩
  · rintro buffer rfl
    exact head_of_locate? h

/-- Without a blank line behind the head, with carriage returns, and with a blank line skipped in
front: nothing is found before the last byte, and afterwards the frame whatever follows. -/
theorem located_once_complete_unseparated :
    let buffer := utf8 " \r\nX\r\nY\n \t\r\nPO"
    let bs := skipBlankLines buffer
    let f : Frame := ⟨utf8 "X", utf8 "\r\n", [], utf8 "Y\n", utf8 " \t\r\n"⟩
    let p : Places := ⟨⟨0, 1⟩, ⟨3, 5⟩, 9, false⟩
    Places.find? bs = some p ∧ p.Mark f bs ∧ locate? (bs.take 8) = none ∧
      (∀ more, locate? (bs ++ more) = some (f, utf8 "PO" ++ more)) ∧
      f.head.all isBlankByte = false := by
  intro buffer bs f p
  have hlocate : locate? bs = some (f, utf8 "PO") := by decide +kernel
  obtain ⟨-, hplaces, hfound, -⟩ := located_once_complete bs
  rw [hlocate] at hplaces
  have hp : Places.find? bs = some p := hplaces.trans (by decide +kernel)
  obtain ⟨g, rest, hg, hmark, hmore, hfront, hhead⟩ := hfound p hp
  obtain ⟨rfl, rfl⟩ := Prod.mk.inj (Option.some.inj (hlocate.symm.trans hg))
  have hshort : (bs.take 8).length < p.stop := by decide +kernel
  exact ⟨hp, hmark, (hfront _ (List.take_prefix 8 bs) hshort).2, fun more => (hmore more).2,
    hhead buffer rfl⟩

end Frame

end Wire

end Courier
