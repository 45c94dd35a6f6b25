import Courier.Proofs.FrameGrammar

/-!
# No byte is lost

What a call of the decoder takes and what it leaves make up the buffer, and of what it takes each
byte is accounted for: by blank lines, and by one frame if the result speaks of a frame. The frames
are those of `IsFrameText`, which is said without the reader. A frame is complete once its last line
is, so that a buffer has one anywhere in it only if one is found at its front (`locate?_isSome`).

Main statement: `take_conserves`.
-/

namespace Courier

open Text Wire

namespace Wire.Frame

variable {bs rest : Bytes}

/-! ## Frames as texts -/

/-- A head line that is not blank, a line of either kind, lines that are not blank, and a blank
line. -/
inductive IsFrameText : Bytes → Prop
  | lines {head second close : Bytes} {blank : Bool} {body : List Bytes} :
      IsLine false head → IsLine blank second → (∀ l ∈ body, IsLine false l) → IsLine true close →
      IsFrameText (head ++ second ++ body.flatten ++ close)

theorem isFrameText_of_locate? {f : Frame} (h : locate? (skipBlankLines bs) = some (f, rest)) :
    IsFrameText f.bytes := by
  have hfilled := head_of_locate? h
  obtain ⟨head, headEnd, gap, body, close⟩ := f
  obtain ⟨⟨text, hfeed, rfl, rfl⟩, hgap, ⟨lines, rfl, hlines, hfirst⟩, hclose⟩ :=
    isComplete_of_locate? h
  have hhead : IsLine false ((Line.ofText text).text ++ (Line.ofText text).ending) :=
    ⟨text, Line.bytes_ofText text, hfeed, by rw [← Line.isBlank_ofText]; exact hfilled⟩
  rcases hgap with rfl | hgap
  · -- the second line is the first of the body
    obtain ⟨second, lines, rfl⟩ := List.exists_cons_of_ne_nil (hfirst rfl)
    obtain ⟨hsecond, hlines⟩ := List.forall_mem_cons.mp hlines
    simpa [bytes] using IsFrameText.lines hhead hsecond hlines hclose
  · exact .lines hhead hgap hlines hclose

theorem exists_isWhole (h : IsFrameText bs) : ∃ f : Frame, f.IsWhole ∧ f.bytes = bs := by
  obtain ⟨⟨text, rfl, hfeed, hfilled⟩, hsecond, hbody, hclose⟩ := h
  rename_i second close blank body
  have hhead : (Line.ofText text).text.all isBlankByte = false :=
    (Line.isBlank_ofText text).trans hfilled
  have hbytes : (Line.ofText text).text ++ (Line.ofText text).ending = text ++ [10] :=
    Line.bytes_ofText text
  cases blank with
  | true =>
    let f : Frame := ⟨(Line.ofText text).text, (Line.ofText text).ending, second, body.flatten,
      close⟩
    have hf : f.IsComplete := ⟨⟨text, hfeed, rfl, rfl⟩, Or.inr hsecond,
      ⟨body, rfl, hbody, fun hnil => absurd hnil hsecond.ne_nil⟩, hclose⟩
    exact ⟨f, ⟨by simpa using hf.locate? [], hhead⟩, by simp [f, bytes, ← hbytes]⟩
  | false =>
    let f : Frame := ⟨(Line.ofText text).text, (Line.ofText text).ending, [],
      (second :: body).flatten, close⟩
    have hall : ∀ l ∈ second :: body, IsLine false l := List.forall_mem_cons.mpr ⟨hsecond, hbody⟩
    have hf : f.IsComplete :=
      ⟨⟨text, hfeed, rfl, rfl⟩, Or.inl rfl, ⟨_, rfl, hall, fun _ => List.cons_ne_nil _ _⟩, hclose⟩
    exact ⟨f, ⟨by simpa using hf.locate? [], hhead⟩, by simp [f, bytes, ← hbytes]⟩

/-! ## Blank lines that are there -/

/-- Bytes that end with a line feed have a first line, and behind it none or again such bytes. -/
theorem next?_front {front : Bytes} (hfront : front.getLast? = some 10) (more : Bytes) :
    ∃ l after, Line.next? (front ++ more) = some (l, after ++ more) ∧
      (after = [] ∨ after.getLast? = some 10) ∧ after.length < front.length := by
  cases hnext : Line.next? front with
  | none =>
    rw [Line.next?_eq_none_iff] at hnext
    exact absurd (List.mem_of_getLast? hfront) hnext
  | some p =>
    obtain ⟨l, after⟩ := p
    refine ⟨l, after, Line.local_next?.append more hnext, ?_, Line.length_next? hnext⟩
    rcases List.eq_nil_or_concat after with rfl | ⟨init, b, rfl⟩
    · exact Or.inl rfl
    · right
      rw [← Line.next?_bytes hnext, List.concat_eq_append, ← List.append_assoc,
        List.getLast?_concat] at hfront
      rw [List.concat_eq_append, List.getLast?_concat]
      exact hfront

theorem takeBody?_isSome {front last : Bytes} (hfront : front = [] ∨ front.getLast? = some 10)
    (hlast : IsBlankLine last) (more : Bytes) (done : List Line) :
    (takeBody? done (front ++ (last ++ more))).isSome := by
  induction hn : front.length using Nat.strongRecOn generalizing front done with
  | ind n ih =>
    rcases hfront with rfl | hfront
    · obtain ⟨close, hnext, hblank, -⟩ := next?_of_isLine hlast more
      rw [List.nil_append, takeBody?_blank hnext hblank]
      rfl
    · obtain ⟨l, after, hnext, hafter, hshort⟩ := next?_front hfront (last ++ more)
      cases hblank : l.isBlank with
      | true =>
        rw [takeBody?_blank hnext hblank]
        rfl
      | false =>
        rw [takeBody?_line hnext hblank]
        exact ih after.length (hn ▸ hshort) hafter (l :: done) rfl

/-- There is a frame at the front if there is a blank line with two lines before it. -/
theorem locate?_isSome {front middle last : Bytes} (hfront : front.getLast? = some 10)
    (hmiddle : middle.getLast? = some 10) (hlast : IsBlankLine last) (more : Bytes) :
    (locate? (front ++ (middle ++ (last ++ more)))).isSome := by
  have happend : ∀ after : Bytes, (after ++ middle).getLast? = some 10 := by
    intro after
    rw [List.getLast?_append, hmiddle]
    rfl
  obtain ⟨head, after, hhead, -, -⟩ := next?_front hfront (middle ++ (last ++ more))
  obtain ⟨second, after', hsecond, hafter', -⟩ := next?_front (happend after) (last ++ more)
  rw [List.append_assoc] at hsecond
  rw [locate?_lines hhead hsecond, Option.isSome_map]
  split
  · exact takeBody?_isSome hafter' hlast more []
  · rw [← List.append_assoc]
    exact takeBody?_isSome (Or.inr (happend after)) hlast more []

/-- Where no frame is found at the front, there is none anywhere. -/
theorem no_frame_of_locate? (h : locate? bs = none) {text : Bytes} (htext : IsFrameText text) :
    ¬ text <:+: bs := by
  rintro ⟨before, after, rfl⟩
  obtain ⟨⟨head, rfl, -⟩, ⟨second, rfl, -⟩, hbody, hclose⟩ := htext
  rename_i close blank body
  have hmiddle : (second ++ [10] ++ body.flatten).getLast? = some 10 := by
    rcases List.eq_nil_or_concat body with rfl | ⟨init, l, rfl⟩
    · simp
    · obtain ⟨text, rfl, -⟩ := hbody l (by simp)
      simp [← List.append_assoc]
  have hfront : (before ++ (head ++ [10])).getLast? = some 10 := by
    rw [← List.append_assoc, List.getLast?_concat]
  have hsome := locate?_isSome hfront hmiddle hclose after
  simp only [List.append_assoc] at hsome h
  rw [h] at hsome
  cases hsome

end Wire.Frame

/-! ## One call -/

namespace Decoder

open Frame

variable {α : Type} {limit : Nat} {parse : Bytes → Except Failure α}
  {read : Frame → Except Failure α} {buffer taken rest : Bytes}

/-- What one call has taken accounts for its result and for what it has left. The messages of frames
are those that `parse` reads from all of their bytes. -/
inductive Account (limit : Nat) (parse : Bytes → Except Failure α) :
    Bytes → Except Failure (Option α) → Bytes → Prop
  | delivered {blanks : List Bytes} {frame rest : Bytes} {m : α} :
      (∀ l ∈ blanks, IsBlankLine l) → IsFrameText frame → frame.length ≤ limit →
      parse frame = .ok m → Account limit parse (blanks.flatten ++ frame) (.ok (some m)) rest
  | malformed {blanks : List Bytes} {frame rest : Bytes} {cause : Malformed} :
      (∀ l ∈ blanks, IsBlankLine l) → IsFrameText frame → frame.length ≤ limit →
      parse frame = .error (.badRequest cause) →
      Account limit parse (blanks.flatten ++ frame) (.error (.badRequest cause)) rest
  | oversized {blanks : List Bytes} {frame rest : Bytes} :
      (∀ l ∈ blanks, IsBlankLine l) → IsFrameText frame → limit < frame.length →
      Account limit parse (blanks.flatten ++ frame) (.error (.payloadTooLarge limit)) rest
  | waiting {blanks : List Bytes} {rest : Bytes} :
      (∀ l ∈ blanks, IsBlankLine l) → (∀ frame, IsFrameText frame → ¬ frame <:+: rest) →
      (∀ l, IsBlankLine l → ¬ l <+: rest) → rest.length ≤ limit →
      Account limit parse blanks.flatten (.ok none) rest
  | overflowing {blanks : List Bytes} {rest : Bytes} :
      (∀ l ∈ blanks, IsBlankLine l) → (∀ frame, IsFrameText frame → ¬ frame <:+: rest) →
      (∀ l, IsBlankLine l → ¬ l <+: rest) → limit < rest.length →
      Account limit parse blanks.flatten (.error (.payloadTooLarge limit)) rest

theorem take_snd (d : Decoder) (read : Frame → Except Failure α) (buffer : Bytes) :
    (d.take read buffer).2 = (d.cut buffer).2 := by
  unfold take
  split <;> rename_i h <;> rw [h]

theorem no_blankLine_skipped (buffer : Bytes) {l : Bytes} (hl : IsBlankLine l) :
    ¬ l <+: skipBlankLines buffer := by
  rintro ⟨more, heq⟩
  obtain ⟨line, hnext, hblank, -⟩ := next?_of_isLine hl more
  rw [heq] at hnext
  rw [next?_skipBlankLines hnext] at hblank
  cases hblank

/-- A frame behind blank lines is what a call takes, and its size alone decides whether it is
read. -/
theorem take_isFrameText (read : Frame → Except Failure α) {blanks : List Bytes} {frame : Bytes}
    (hblanks : ∀ l ∈ blanks, IsBlankLine l) (hframe : IsFrameText frame) (limit : Nat)
    (more : Bytes) :
    take ⟨some limit⟩ read (blanks.flatten ++ frame ++ more) =
      (if frame.length ≤ limit then (takeOnly read frame).map some
        else .error (.payloadTooLarge limit), more) := by
  obtain ⟨f, hf, rfl⟩ := exists_isWhole hframe
  have hlocate := (hf.locate? hblanks more).1
  rw [takeOnly_bytes read hf]
  split
  · rename_i hfits
    exact take_frame (cut_eq_frame_iff.mpr ⟨hlocate, exceeded?_of_le hfits⟩)
  · rename_i hover
    have hsize : limit < f.size := Nat.lt_of_not_le hover
    exact take_tooLarge (cut_eq_tooLarge_iff.mpr (Or.inl ⟨f, hlocate, exceeded?_of_lt hsize⟩))

theorem account_take
    (hread : ∀ {f failure}, read f = .error failure → ∃ cause, failure = .badRequest cause)
    (limit : Nat) (buffer : Bytes) :
    ∃ taken, buffer = taken ++ (take ⟨some limit⟩ read buffer).2 ∧
      Account limit (takeOnly read) taken (take ⟨some limit⟩ read buffer).1
        (take ⟨some limit⟩ read buffer).2 := by
  have hblanks := forall_isBlankLine buffer
  have hbuffer := blankLines_bytes buffer
  rw [List.flatMap_def] at hbuffer
  generalize (blankLines buffer).map Line.bytes = blanks at hblanks hbuffer
  -- the blank lines in front are taken in any case, and a frame behind them if it is complete
  cases hlocate : locate? (skipBlankLines buffer) with
  | none =>
    have hframe : ∀ frame, IsFrameText frame → ¬ frame <:+: skipBlankLines buffer :=
      fun _ => no_frame_of_locate? hlocate
    have hblank : ∀ l, IsBlankLine l → ¬ l <+: skipBlankLines buffer :=
      fun _ => no_blankLine_skipped buffer
    refine ⟨blanks.flatten, ?_⟩
    rcases Nat.lt_or_ge limit (skipBlankLines buffer).length with hover | hfits
    · have hcut : cut ⟨some limit⟩ buffer = (.tooLarge limit, skipBlankLines buffer) :=
        cut_eq_tooLarge_iff.mpr (Or.inr ⟨hlocate, exceeded?_of_lt hover, rfl⟩)
      rw [take_tooLarge hcut]
      exact ⟨hbuffer.symm, .overflowing hblanks hframe hblank hover⟩
    · have hcut : cut ⟨some limit⟩ buffer = (.more, skipBlankLines buffer) :=
        cut_eq_more_iff.mpr ⟨hlocate, exceeded?_of_le hfits, rfl⟩
      rw [take_more hcut]
      exact ⟨hbuffer.symm, .waiting hblanks hframe hblank hfits⟩
  | some p =>
    obtain ⟨f, rest⟩ := p
    have htext : IsFrameText f.bytes := isFrameText_of_locate? hlocate
    rw [← locate?_bytes hlocate, ← List.append_assoc] at hbuffer
    have htake := take_isFrameText read hblanks htext limit rest
    rw [hbuffer] at htake
    refine ⟨blanks.flatten ++ f.bytes, ?_⟩
    rw [htake]
    refine ⟨hbuffer.symm, ?_⟩
    dsimp only
    split
    · rename_i hfits
      cases hparse : takeOnly read f.bytes with
      | ok m => exact .delivered hblanks htext hfits hparse
      | error failure =>
        obtain ⟨cause, rfl⟩ := takeOnly_error hread hparse
        exact .malformed hblanks htext hfits hparse
    · rename_i hover
      exact .oversized hblanks htext (Nat.lt_of_not_le hover)

/-! ## Draining -/

/-- Calls again and again until a call takes nothing: what each call has taken, with its result, and
what is left. -/
def drain (d : Decoder) (read : Frame → Except Failure α) (buffer : Bytes) :
    List (Bytes × Except Failure (Option α)) × Bytes :=
  let (result, rest) := d.take read buffer
  if rest.length < buffer.length then
    let (later, last) := drain d read rest
    ((buffer.take (buffer.length - rest.length), result) :: later, last)
  else ([], buffer)
termination_by buffer.length

/-- Each of some calls has taken something and is accounted for, and so is the call behind them,
which takes nothing. -/
inductive Drained (limit : Nat) (parse : Bytes → Except Failure α) :
    Bytes → List (Bytes × Except Failure (Option α)) → Bytes → Prop
  | stop {result : Except Failure (Option α)} {rest : Bytes} :
      Account limit parse [] result rest → Drained limit parse rest [] rest
  | call {taken rest last : Bytes} {result : Except Failure (Option α)}
      {later : List (Bytes × Except Failure (Option α))} :
      taken ≠ [] → Account limit parse taken result rest → Drained limit parse rest later last →
      Drained limit parse (taken ++ rest) ((taken, result) :: later) last

theorem Drained.flatten {calls : List (Bytes × Except Failure (Option α))}
    (h : Drained limit parse buffer calls rest) :
    (calls.map Prod.fst).flatten ++ rest = buffer := by
  induction h with
  | stop => rfl
  | call _ _ _ ih => rw [List.map_cons, List.flatten_cons, List.append_assoc, ih]

theorem Drained.length_le {calls : List (Bytes × Except Failure (Option α))}
    (h : Drained limit parse buffer calls rest) : calls.length ≤ buffer.length := by
  induction h with
  | stop => exact Nat.zero_le _
  | call htaken _ _ ih =>
    have hpos := List.length_pos_iff.mpr htaken
    rw [List.length_cons, List.length_append]
    omega

theorem drained_drain
    (hread : ∀ {f failure}, read f = .error failure → ∃ cause, failure = .badRequest cause)
    (limit : Nat) (buffer : Bytes) :
    Drained limit (takeOnly read) buffer (drain ⟨some limit⟩ read buffer).1
      (drain ⟨some limit⟩ read buffer).2 := by
  fun_induction drain ⟨some limit⟩ read buffer with
  | case1 buffer result rest htake hless later last hlater ih =>
    obtain ⟨taken, hbuffer, haccount⟩ := account_take hread limit buffer
    rw [htake] at hbuffer haccount
    dsimp only at hbuffer haccount
    subst hbuffer
    have hne : taken ≠ [] := by
      rintro rfl
      exact absurd hless (Nat.lt_irrefl _)
    have hfront : (taken ++ rest).take ((taken ++ rest).length - rest.length) = taken := by
      rw [List.length_append, Nat.add_sub_cancel, List.take_left]
    rw [hlater] at ih
    rw [hfront]
    exact .call hne haccount ih
  | case2 buffer result rest htake hmore =>
    obtain ⟨taken, hbuffer, haccount⟩ := account_take hread limit buffer
    rw [htake] at hbuffer haccount
    dsimp only at hbuffer haccount
    subst hbuffer
    -- a call after which as much is left has taken nothing
    obtain rfl : taken = [] := by
      apply List.length_eq_zero_iff.mp
      rw [List.length_append] at hmore
      omega
    exact .stop haccount

/-- **A decoder loses no byte, and its limit bears on frames alone.** Whatever the limit and the
buffer, a call for a request takes a prefix of the buffer and leaves the rest: blank lines and one
frame if it gives a request, a bad request or a frame beyond the limit, and blank lines only if it
waits for more bytes or has more than the limit without a frame; then no frame is complete anywhere
in what is left, and no blank line in front. A call for a response takes the same. A frame that is
there is read if its size is within the limit and refused otherwise. Calls that take something come
to an end, after no more of them than there are bytes, and what they have taken makes up the buffer
with what is left. -/
theorem take_conserves (limit : Nat) (buffer : Bytes) :
    let d : Decoder := ⟨some limit⟩
    let rest := (d.takeRequest buffer).2
    let requests := d.drain Frame.toRequest buffer
    let responses := d.drain Frame.toResponse buffer
    (∃ taken, buffer = taken ++ rest ∧
      Account limit Request.parse taken (d.takeRequest buffer).1 rest ∧
      Account limit Response.parse taken (d.takeResponse buffer).1 rest) ∧
    (d.takeResponse buffer).2 = rest ∧
    (∀ (blanks : List Bytes) (frame more : Bytes), (∀ l ∈ blanks, IsBlankLine l) →
      IsFrameText frame → buffer = blanks.flatten ++ frame ++ more →
      d.takeRequest buffer =
          (if frame.length ≤ limit then (Request.parse frame).map some
            else .error (.payloadTooLarge limit), more) ∧
        d.takeResponse buffer =
          (if frame.length ≤ limit then (Response.parse frame).map some
            else .error (.payloadTooLarge limit), more)) ∧
    (Drained limit Request.parse buffer requests.1 requests.2 ∧
      requests.1.length ≤ buffer.length ∧
      (requests.1.map Prod.fst).flatten ++ requests.2 = buffer) ∧
    Drained limit Response.parse buffer responses.1 responses.2 ∧
      responses.1.length ≤ buffer.length ∧
      (responses.1.map Prod.fst).flatten ++ responses.2 = buffer := by
  intro d rest requests responses
  have hsame : (d.takeResponse buffer).2 = rest :=
    (take_snd d Frame.toResponse buffer).trans (take_snd d Frame.toRequest buffer).symm
  obtain ⟨taken, hbuffer, hrequest⟩ := account_take Frame.toRequest_error limit buffer
  obtain ⟨taken', hbuffer', hresponse⟩ := account_take Frame.toResponse_error limit buffer
  have hrequests : Drained limit Request.parse buffer requests.1 requests.2 :=
    drained_drain Frame.toRequest_error limit buffer
  have hresponses : Drained limit Response.parse buffer responses.1 responses.2 :=
    drained_drain Frame.toResponse_error limit buffer
  refine ⟨⟨taken, hbuffer, hrequest, ?_⟩, hsame, ?_,
    ⟨hrequests, hrequests.length_le, hrequests.flatten⟩,
    hresponses, hresponses.length_le, hresponses.flatten⟩
  · change buffer = taken' ++ (d.takeResponse buffer).2 at hbuffer'
    change Account limit Response.parse taken' _ (d.takeResponse buffer).2 at hresponse
    rw [hsame] at hbuffer' hresponse
    rw [List.append_cancel_right (hbuffer.symm.trans hbuffer')]
    exact hresponse
  · rintro blanks frame more hblanks hframe rfl
    exact ⟨take_isFrameText Frame.toRequest hblanks hframe limit more,
      take_isFrameText Frame.toResponse hblanks hframe limit more⟩

end Decoder

end Courier
