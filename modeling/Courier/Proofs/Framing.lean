import Courier.Wire.Decoder

/-!
# What a cut depends on

A line, the lines of a body and a frame are each read from the front of a buffer, and none of them
looks beyond its own last byte. `Local` says so once for the three readers. From it follow the facts
that every later argument about a growing buffer rests on: what has been found stays
(`Local.append`), what has not been found is found only behind the bytes that are there
(`Local.rest_shorter`), and what is found is not found in fewer bytes (`Local.eq_none_of_prefix`).

Skipping blank lines is not local, since an unfinished line may turn out blank later; but skipping
may be done before or after more bytes come (`skipBlankLines_append`).
-/

namespace Courier

open Text

namespace Wire

/-- A reader that looks at no byte behind those it takes. -/
def Local {α : Type} (read : Bytes → Option (α × Bytes)) : Prop :=
  ∀ bs a rest, read bs = some (a, rest) →
    ∃ used, bs = used ++ rest ∧ ∀ more, read (used ++ more) = some (a, more)

namespace Local

variable {α : Type} {read : Bytes → Option (α × Bytes)}

/-- What has been found stays when more bytes come. -/
theorem append (hl : Local read) {bs rest : Bytes} {a : α} (more : Bytes)
    (h : read bs = some (a, rest)) : read (bs ++ more) = some (a, rest ++ more) := by
  obtain ⟨used, rfl, hused⟩ := hl bs a rest h
  rw [List.append_assoc]
  exact hused (rest ++ more)

/-- What is found only once more bytes have come ends among these. -/
theorem rest_shorter (hl : Local read) {bs more rest : Bytes} {a : α}
    (hnone : read bs = none) (h : read (bs ++ more) = some (a, rest)) :
    rest.length < more.length := by
  obtain ⟨used, heq, hused⟩ := hl _ _ _ h
  apply Nat.lt_of_not_ge
  intro hle
  -- otherwise the bytes taken are all there already
  have hlen : used.length ≤ bs.length := by
    have := congrArg List.length heq
    simp only [List.length_append] at this
    omega
  obtain ⟨gap, rfl⟩ := List.prefix_of_prefix_length_le
    (List.prefix_append used rest) (heq ▸ List.prefix_append bs more) hlen
  rw [hused gap] at hnone
  exact absurd hnone (by simp)

/-- What is found is not found in fewer bytes than those that are taken. -/
theorem eq_none_of_prefix (hl : Local read) {bs front rest : Bytes} {a : α}
    (h : read bs = some (a, rest)) (hfront : front <+: bs)
    (hshort : front.length + rest.length < bs.length) : read front = none := by
  cases hread : read front with
  | none => rfl
  | some found =>
      obtain ⟨b, after⟩ := found
      obtain ⟨more, rfl⟩ := hfront
      -- what is found early stays, and all that is still to come would be left
      have hstays := hl.append more hread
      rw [h, Option.some.injEq, Prod.mk.injEq] at hstays
      rw [hstays.2, List.length_append, List.length_append] at hshort
      omega

end Local

/-! ## Lines -/

namespace Line

theorem next?_text {text : Bytes} (h : 10 ∉ text) (rest : Bytes) :
    next? (text ++ 10 :: rest) = some (ofText text, rest) := by
  have hne : ∀ b ∈ text, (b != 10) = true := by
    intro b hb
    have : b ≠ 10 := fun he => h (he ▸ hb)
    simpa using this
  have hd : (text ++ 10 :: rest).dropWhile (· != 10) = 10 :: rest := by
    rw [List.dropWhile_append_of_pos hne]
    simp
  have ht : (text ++ 10 :: rest).takeWhile (· != 10) = text := by
    rw [List.takeWhile_append_of_pos hne]
    simp
  simp only [next?, hd, ht]

theorem next?_eq_some {bs rest : Bytes} {l : Line} (h : next? bs = some (l, rest)) :
    ∃ text, 10 ∉ text ∧ l = ofText text ∧ bs = text ++ 10 :: rest := by
  have hbytes := next?_bytes h
  unfold next? at h
  split at h
  · simp at h
  · simp only [Option.some.injEq, Prod.mk.injEq] at h
    obtain ⟨rfl, rfl⟩ := h
    refine ⟨bs.takeWhile (· != 10), ?_, rfl, ?_⟩
    · intro hm
      have := List.all_eq_true.mp (List.all_takeWhile (p := (· != 10)) (l := bs)) 10 hm
      simp at this
    · rw [bytes_ofText] at hbytes
      simpa using hbytes.symm

theorem feed_notMem_text {bs rest : Bytes} {l : Line} (h : next? bs = some (l, rest)) :
    10 ∉ l.text := by
  obtain ⟨text, hn, rfl, -⟩ := next?_eq_some h
  unfold ofText
  split
  · exact fun hm => hn (List.dropLast_subset text hm)
  · exact hn

theorem next?_eq_none_iff {bs : Bytes} : next? bs = none ↔ 10 ∉ bs := by
  constructor
  · intro h hm
    obtain ⟨text, rest, rfl, hn⟩ := List.eq_append_cons_of_mem hm
    rw [next?_text hn] at h
    simp at h
  · intro h
    cases hx : next? bs with
    | none => rfl
    | some p =>
        obtain ⟨l, rest⟩ := p
        obtain ⟨text, -, -, rfl⟩ := next?_eq_some hx
        simp at h

theorem local_next? : Local next? := by
  intro bs l rest h
  obtain ⟨text, hn, rfl, rfl⟩ := next?_eq_some h
  refine ⟨text ++ [10], by simp, ?_⟩
  intro more
  simpa using next?_text hn more

/-- The carriage return that does not belong to the text is a blank, so that it does not matter to
whether the line is one. -/
theorem isBlank_ofText (text : Bytes) : (ofText text).isBlank = text.all isBlankByte := by
  unfold ofText isBlank
  split
  · rename_i h
    obtain ⟨front, rfl⟩ := List.getLast?_eq_some_iff.mp h
    simp [isBlankByte]
  · rfl

end Line

/-! ## Frames -/

namespace Frame

theorem takeBody?_blank {done : List Line} {bs rest : Bytes} {l : Line}
    (hl : Line.next? bs = some (l, rest)) (hb : l.isBlank = true) :
    takeBody? done bs = some (done.reverse, l, rest) := by
  rw [takeBody?]
  split
  · rename_i hn
    rw [hl] at hn
    simp at hn
  · rename_i l' rest' hl'
    rw [hl] at hl'
    simp only [Option.some.injEq, Prod.mk.injEq] at hl'
    obtain ⟨rfl, rfl⟩ := hl'
    simp [hb]

theorem takeBody?_line {done : List Line} {bs rest : Bytes} {l : Line}
    (hl : Line.next? bs = some (l, rest)) (hb : l.isBlank = false) :
    takeBody? done bs = takeBody? (l :: done) rest := by
  rw [takeBody?]
  split
  · rename_i hn
    rw [hl] at hn
    simp at hn
  · rename_i l' rest' hl'
    rw [hl] at hl'
    simp only [Option.some.injEq, Prod.mk.injEq] at hl'
    obtain ⟨rfl, rfl⟩ := hl'
    simp [hb]

theorem takeBody?_none {done : List Line} {bs : Bytes} (hl : Line.next? bs = none) :
    takeBody? done bs = none := by
  rw [takeBody?]
  split
  · rfl
  · rename_i hs
    rw [hl] at hs
    simp at hs

/-- The lines of a body with the blank line behind them depend on their own bytes only. -/
theorem takeBody?_local {done body : List Line} {bs rest : Bytes} {close : Line}
    (h : takeBody? done bs = some (body, close, rest)) :
    ∃ used, bs = used ++ rest ∧
      ∀ more, takeBody? done (used ++ more) = some (body, close, more) := by
  fun_induction takeBody? done bs with
  | case1 => simp at h
  | case2 done bs l rest' hl _ hb =>
      simp only [Option.some.injEq, Prod.mk.injEq] at h
      obtain ⟨rfl, rfl, rfl⟩ := h
      obtain ⟨used, rfl, hused⟩ := Line.local_next? bs l rest' hl
      exact ⟨used, rfl, fun more => takeBody?_blank (hused more) hb⟩
  | case3 done bs l rest' hl _ hb ih =>
      obtain ⟨used', rfl, hbody⟩ := ih h
      obtain ⟨used, rfl, hused⟩ := Line.local_next? bs l _ hl
      refine ⟨used ++ used', by simp, ?_⟩
      intro more
      rw [List.append_assoc, takeBody?_line (hused (used' ++ more)) (by simpa using hb)]
      exact hbody more

theorem locate?_lines {bs rest rest' : Bytes} {head second : Line}
    (h1 : Line.next? bs = some (head, rest)) (h2 : Line.next? rest = some (second, rest')) :
    locate? bs = (takeBody? [] (if second.isBlank then rest' else rest)).map fun found =>
      (⟨head.text, head.ending, if second.isBlank then second.bytes else [],
        found.1.flatMap Line.bytes, found.2.1.bytes⟩, found.2.2) := by
  unfold locate?
  rw [h1]
  dsimp only
  rw [h2]
  dsimp only
  cases hb : second.isBlank with
  | true =>
      simp only [if_true]
      rcases takeBody? [] rest' with _ | ⟨body, close, after⟩ <;> rfl
  | false =>
      simp only [Bool.false_eq_true, if_false]
      rcases takeBody? [] rest with _ | ⟨body, close, after⟩ <;> rfl

theorem locate?_eq_some {bs after : Bytes} {f : Frame} (h : locate? bs = some (f, after)) :
    ∃ head second rest rest' body close,
      Line.next? bs = some (head, rest) ∧ Line.next? rest = some (second, rest') ∧
      takeBody? [] (if second.isBlank then rest' else rest) = some (body, close, after) ∧
      f = ⟨head.text, head.ending, if second.isBlank then second.bytes else [],
        body.flatMap Line.bytes, close.bytes⟩ := by
  cases h1 : Line.next? bs with
  | none => simp [locate?, h1] at h
  | some p =>
      obtain ⟨head, rest⟩ := p
      cases h2 : Line.next? rest with
      | none => simp [locate?, h1, h2] at h
      | some q =>
          obtain ⟨second, rest'⟩ := q
          rw [locate?_lines h1 h2] at h
          obtain ⟨⟨body, close, after'⟩, hbody, heq⟩ := Option.map_eq_some_iff.mp h
          simp only [Prod.mk.injEq] at heq
          obtain ⟨rfl, rfl⟩ := heq
          exact ⟨head, second, rest, rest', body, close, rfl, h2, hbody, rfl⟩

theorem local_locate? : Local locate? := by
  intro bs f after h
  obtain ⟨head, second, rest, rest', body, close, h1, h2, hbody, rfl⟩ := locate?_eq_some h
  obtain ⟨used1, rfl, hused1⟩ := Line.local_next? _ _ _ h1
  obtain ⟨used2, hrest, hused2⟩ := Line.local_next? _ _ _ h2
  obtain ⟨used3, hstart, hused3⟩ := takeBody?_local hbody
  cases hb : second.isBlank with
  | true =>
      -- the second line stands between the head and the body
      simp only [hb, if_true] at hstart hused3
      refine ⟨used1 ++ (used2 ++ used3), by rw [hrest, hstart]; simp, ?_⟩
      intro more
      rw [List.append_assoc, List.append_assoc]
      rw [locate?_lines (hused1 _) (hused2 _)]
      simp [hb, hused3]
  | false =>
      -- the second line is the first of the body, so that it is among the bytes taken there
      simp only [hb, Bool.false_eq_true, if_false] at hstart hused3
      refine ⟨used1 ++ used3, by rw [hstart]; simp, ?_⟩
      intro more
      obtain ⟨tail, h2'⟩ : ∃ tail, Line.next? used3 = some (second, tail) := by
        cases hn : Line.next? used3 with
        | none =>
            have := hused3 []
            rw [List.append_nil, takeBody?_none hn] at this
            simp at this
        | some p =>
            obtain ⟨l, tail⟩ := p
            have := Line.local_next?.append after hn
            rw [← hstart, h2] at this
            simp only [Option.some.injEq, Prod.mk.injEq] at this
            exact ⟨tail, by rw [this.1]⟩
      have h2'' := Line.local_next?.append more h2'
      rw [List.append_assoc, locate?_lines (hused1 _) h2'']
      simp [hb, hused3]

/-! ## Blank lines in front -/

def blankLines (bs : Bytes) : List Line :=
  match h : Line.next? bs with
  | none => []
  | some (l, rest) =>
      have := Line.length_next? h
      if l.isBlank then l :: blankLines rest else []
termination_by bs.length

theorem skipBlankLines_none {bs : Bytes} (h : Line.next? bs = none) :
    skipBlankLines bs = bs ∧ blankLines bs = [] := by
  constructor
  · rw [skipBlankLines]
    split
    · rfl
    · rename_i hs
      rw [h] at hs
      simp at hs
  · rw [blankLines]
    split
    · rfl
    · rename_i hs
      rw [h] at hs
      simp at hs

theorem skipBlankLines_some {bs rest : Bytes} {l : Line} (h : Line.next? bs = some (l, rest)) :
    skipBlankLines bs = (if l.isBlank then skipBlankLines rest else bs) ∧
      blankLines bs = if l.isBlank then l :: blankLines rest else [] := by
  constructor
  · rw [skipBlankLines]
    split
    · rename_i hn
      rw [h] at hn
      simp at hn
    · rename_i l' rest' hs
      rw [h] at hs
      simp only [Option.some.injEq, Prod.mk.injEq] at hs
      obtain ⟨rfl, rfl⟩ := hs
      rfl
  · rw [blankLines]
    split
    · rename_i hn
      rw [h] at hn
      simp at hn
    · rename_i l' rest' hs
      rw [h] at hs
      simp only [Option.some.injEq, Prod.mk.injEq] at hs
      obtain ⟨rfl, rfl⟩ := hs
      rfl

/-- Skipping blank lines loses nothing but these. -/
theorem blankLines_bytes (bs : Bytes) :
    (blankLines bs).flatMap Line.bytes ++ skipBlankLines bs = bs := by
  fun_induction skipBlankLines bs with
  | case1 bs h => simp [(skipBlankLines_none h).2]
  | case2 bs l rest h _ hb ih =>
      rw [(skipBlankLines_some h).2, if_pos hb, List.flatMap_cons, List.append_assoc, ih]
      exact Line.next?_bytes h
  | case3 bs l rest h _ hb => simp [(skipBlankLines_some h).2, hb]

/-- Behind the blank lines stands a line that is not blank, or none that is complete. -/
theorem next?_skipBlankLines {bs rest : Bytes} {l : Line}
    (h : Line.next? (skipBlankLines bs) = some (l, rest)) : l.isBlank = false := by
  fun_induction skipBlankLines bs with
  | case1 bs hn =>
      rw [hn] at h
      simp at h
  | case2 bs l' rest' hl _ hb ih => exact ih h
  | case3 bs l' rest' hl _ hb =>
      rw [hl] at h
      simp only [Option.some.injEq, Prod.mk.injEq] at h
      obtain ⟨rfl, rfl⟩ := h
      simpa using hb

theorem skipBlankLines_of_line {bs rest : Bytes} {l : Line}
    (h : Line.next? bs = some (l, rest)) (hb : l.isBlank = false) :
    skipBlankLines bs = bs ∧ blankLines bs = [] := by
  simpa [hb] using skipBlankLines_some h

theorem skipBlankLines_of_blank {bs rest : Bytes} {l : Line}
    (h : Line.next? bs = some (l, rest)) (hb : l.isBlank = true) :
    skipBlankLines bs = skipBlankLines rest ∧ blankLines bs = l :: blankLines rest := by
  simpa [hb] using skipBlankLines_some h

/-- Blank lines may be skipped before more bytes come or afterwards. -/
theorem skipBlankLines_append (bs more : Bytes) :
    skipBlankLines (bs ++ more) = skipBlankLines (skipBlankLines bs ++ more) ∧
      blankLines (bs ++ more) = blankLines bs ++ blankLines (skipBlankLines bs ++ more) := by
  fun_induction skipBlankLines bs with
  | case1 bs h => simp [(skipBlankLines_none h).2]
  | case2 bs l rest h _ hb ih =>
      have hmore := skipBlankLines_of_blank (Line.local_next?.append more h) hb
      rw [hmore.1, hmore.2, (skipBlankLines_of_blank h hb).2, ih.1, ih.2]
      simp
  | case3 bs l rest h _ hb => simp [(skipBlankLines_of_line h (by simpa using hb)).2]

theorem skipBlankLines_idem (bs : Bytes) :
    skipBlankLines (skipBlankLines bs) = skipBlankLines bs := by
  simpa using (skipBlankLines_append bs []).1.symm

/-- ASCII blanks with a line feed at their end and none before. -/
def IsBlankLine (bs : Bytes) : Prop :=
  ∃ text, bs = text ++ [10] ∧ 10 ∉ text ∧ text.all isBlankByte = true

theorem isBlankLine_of_mem {bs : Bytes} {l : Line} (h : l ∈ blankLines bs) :
    IsBlankLine l.bytes := by
  fun_induction blankLines bs with
  | case1 => simp at h
  | case2 bs l' rest hl _ hb ih =>
      rcases List.mem_cons.mp h with rfl | h
      · obtain ⟨text, hn, rfl, -⟩ := Line.next?_eq_some hl
        exact ⟨text, Line.bytes_ofText text, hn, Line.isBlank_ofText text ▸ hb⟩
      · exact ih h
  | case3 => simp at h

theorem forall_isBlankLine (bs : Bytes) :
    ∀ l ∈ (blankLines bs).map Line.bytes, IsBlankLine l := by
  intro l hl
  obtain ⟨line, hline, rfl⟩ := List.mem_map.mp hl
  exact isBlankLine_of_mem hline

theorem skipBlankLines_flatten {lines : List Bytes} (h : ∀ l ∈ lines, IsBlankLine l)
    (more : Bytes) :
    skipBlankLines (lines.flatten ++ more) = skipBlankLines more ∧
      (blankLines (lines.flatten ++ more)).map Line.bytes
        = lines ++ (blankLines more).map Line.bytes := by
  induction lines with
  | nil => simp
  | cons line lines ih =>
      obtain ⟨text, rfl, hn, hb⟩ := h line List.mem_cons_self
      have hl := Line.next?_text hn (lines.flatten ++ more)
      have hskip := skipBlankLines_of_blank hl (Line.isBlank_ofText text ▸ hb)
      have ih := ih fun l hm => h l (List.mem_cons_of_mem _ hm)
      rw [List.flatten_cons, List.append_assoc, List.append_assoc, List.singleton_append,
        hskip.1, hskip.2]
      refine ⟨ih.1, ?_⟩
      rw [List.map_cons, ih.2, Line.bytes_ofText]
      rfl

/-! ## Where a frame stands -/

/-- A frame is found again in its own bytes, whatever follows them. -/
theorem locate?_own {bs rest : Bytes} {f : Frame} (h : locate? bs = some (f, rest))
    (more : Bytes) : locate? (f.bytes ++ more) = some (f, more) := by
  obtain ⟨used, heq, hused⟩ := local_locate? _ _ _ h
  have hbytes := locate?_bytes h
  rw [heq] at hbytes
  rw [List.append_cancel_right hbytes]
  exact hused more

theorem size_locate? {bs rest : Bytes} {f : Frame} (h : locate? bs = some (f, rest)) :
    f.size + rest.length = bs.length := by
  rw [← locate?_bytes h, List.length_append, size]

theorem next?_of_locate? {bs rest : Bytes} {f : Frame} (h : locate? bs = some (f, rest)) :
    ∃ l after, Line.next? bs = some (l, after) ∧ l.text = f.head := by
  obtain ⟨head, second, rest, rest', body, close, h1, -, -, rfl⟩ := locate?_eq_some h
  exact ⟨head, rest, h1, rfl⟩

theorem skipBlankLines_of_locate? {bs rest : Bytes} {f : Frame}
    (h : locate? bs = some (f, rest)) (hb : f.head.all isBlankByte = false) :
    skipBlankLines bs = bs ∧ blankLines bs = [] := by
  obtain ⟨l, after, hl, htext⟩ := next?_of_locate? h
  exact skipBlankLines_of_line hl (by rw [Line.isBlank, htext, hb])

/-- Behind the blank lines no frame has a blank head line. -/
theorem head_of_locate? {bs rest : Bytes} {f : Frame}
    (h : locate? (skipBlankLines bs) = some (f, rest)) : f.head.all isBlankByte = false := by
  obtain ⟨l, after, hl, htext⟩ := next?_of_locate? h
  rw [← htext]
  exact next?_skipBlankLines hl

end Frame

end Wire

/-! ## Cuts -/

namespace Decoder

open Wire Frame

variable {d : Decoder} {buffer rest : Bytes}

theorem exceeded?_eq_some_iff {size limit : Nat} :
    d.exceeded? size = some limit ↔ d.limit = some limit ∧ limit < size := by
  simp [exceeded?, Option.filter_eq_some_iff]

theorem exceeded?_eq_none_iff {size : Nat} :
    d.exceeded? size = none ↔ ∀ limit, d.limit = some limit → size ≤ limit := by
  simp [exceeded?, Option.filter_eq_none_iff]

theorem exceeded?_of_le {size limit : Nat} (h : size ≤ limit) :
    exceeded? ⟨some limit⟩ size = none := by
  apply exceeded?_eq_none_iff.mpr
  rintro _ ⟨⟩
  exact h

theorem exceeded?_of_lt {size limit : Nat} (h : limit < size) :
    exceeded? ⟨some limit⟩ size = some limit :=
  exceeded?_eq_some_iff.mpr ⟨rfl, h⟩

theorem exceeded?_mono {size size' limit : Nat} (h : d.exceeded? size = some limit)
    (hle : size ≤ size') : d.exceeded? size' = some limit := by
  rw [exceeded?_eq_some_iff] at h ⊢
  exact ⟨h.1, Nat.lt_of_lt_of_le h.2 hle⟩

theorem cut_located {f : Frame} (h : locate? (skipBlankLines buffer) = some (f, rest)) :
    d.cut buffer = (match d.exceeded? f.size with
      | some limit => .tooLarge limit
      | none => .frame f, rest) := by
  simp only [cut, h]
  cases d.exceeded? f.size <;> rfl

theorem cut_unlocated (h : locate? (skipBlankLines buffer) = none) :
    d.cut buffer = (match d.exceeded? (skipBlankLines buffer).length with
      | some limit => .tooLarge limit
      | none => .more, skipBlankLines buffer) := by
  simp only [cut, h]
  cases d.exceeded? (skipBlankLines buffer).length <;> rfl

theorem cut_eq_frame_iff {f : Frame} : d.cut buffer = (.frame f, rest) ↔
    locate? (skipBlankLines buffer) = some (f, rest) ∧ d.exceeded? f.size = none := by
  cases h : locate? (skipBlankLines buffer) with
  | none =>
      rw [cut_unlocated h]
      cases d.exceeded? (skipBlankLines buffer).length <;> simp
  | some p =>
      obtain ⟨f', after⟩ := p
      rw [cut_located h]
      cases he : d.exceeded? f'.size with
      | none =>
          simp only [Prod.mk.injEq, Cut.frame.injEq, Option.some.injEq]
          constructor
          · rintro ⟨rfl, rfl⟩
            exact ⟨⟨rfl, rfl⟩, he⟩
          · rintro ⟨⟨rfl, rfl⟩, -⟩
            exact ⟨rfl, rfl⟩
      | some limit =>
          simp only [Prod.mk.injEq, reduceCtorEq, false_and, Option.some.injEq, false_iff, not_and]
          rintro ⟨rfl, -⟩
          simp [he]

theorem cut_eq_more_iff : d.cut buffer = (.more, rest) ↔
    locate? (skipBlankLines buffer) = none ∧
      d.exceeded? (skipBlankLines buffer).length = none ∧ rest = skipBlankLines buffer := by
  cases h : locate? (skipBlankLines buffer) with
  | none =>
      rw [cut_unlocated h]
      cases d.exceeded? (skipBlankLines buffer).length <;> simp [eq_comm]
  | some p =>
      obtain ⟨f, after⟩ := p
      rw [cut_located h]
      cases d.exceeded? f.size <;> simp

/-- A cut is too large by the frame that is there or by the bytes among which there is none. -/
theorem cut_eq_tooLarge_iff {limit : Nat} : d.cut buffer = (.tooLarge limit, rest) ↔
    (∃ f, locate? (skipBlankLines buffer) = some (f, rest) ∧ d.exceeded? f.size = some limit) ∨
      (locate? (skipBlankLines buffer) = none ∧
        d.exceeded? (skipBlankLines buffer).length = some limit ∧
        rest = skipBlankLines buffer) := by
  cases h : locate? (skipBlankLines buffer) with
  | none =>
      rw [cut_unlocated h]
      cases d.exceeded? (skipBlankLines buffer).length <;> simp [eq_comm]
  | some p =>
      obtain ⟨f, after⟩ := p
      rw [cut_located h]
      cases he : d.exceeded? f.size with
      | none => simp [he]
      | some exceeded =>
          simp only [Prod.mk.injEq, Cut.tooLarge.injEq, Option.some.injEq, reduceCtorEq,
            false_and, or_false]
          constructor
          · rintro ⟨rfl, rfl⟩
            exact ⟨f, ⟨rfl, rfl⟩, he⟩
          · rintro ⟨f', ⟨rfl, rfl⟩, hf⟩
            exact ⟨by simpa [he] using hf, rfl⟩

/-- A cut that gives a frame looks at no byte behind it. -/
theorem cut_frame_local {f : Frame} (h : d.cut buffer = (.frame f, rest)) :
    ∃ taken, buffer = taken ++ rest ∧ ∀ more, d.cut (taken ++ more) = (.frame f, more) := by
  obtain ⟨hf, hsize⟩ := cut_eq_frame_iff.mp h
  refine ⟨((blankLines buffer).map Line.bytes).flatten ++ f.bytes, ?_, ?_⟩
  · rw [List.append_assoc, locate?_bytes hf, ← List.flatMap_def, blankLines_bytes]
  · intro more
    have hown := locate?_own hf more
    rw [cut_eq_frame_iff, List.append_assoc, (skipBlankLines_flatten (forall_isBlankLine _) _).1,
      (skipBlankLines_of_locate? hown (head_of_locate? hf)).1]
    exact ⟨hown, hsize⟩

/-- Whether the blank lines in front have been skipped already makes no difference. -/
theorem cut_skipBlankLines (d : Decoder) (buffer : Bytes) :
    d.cut (skipBlankLines buffer) = d.cut buffer := by
  simp only [cut, skipBlankLines_idem]

end Decoder

end Courier
