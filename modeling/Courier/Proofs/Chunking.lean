import Courier.Proofs.Framing

/-!
# Taking messages while bytes come in

A peer's bytes arrive in chunks of any size, and after each chunk whatever is complete is taken.
`harvest` is what one buffer gives; `takeAll` is the same as seen by a caller who asks for one
message after another, and `takeChunks` repeats it chunk by chunk.

Frames found early stay found, so that without a limit the chunks make no difference at all
(`harvest_append`). Under a limit they make one in a single case, told by `isSteady`: a blank line
of more than the limit is skipped where it arrives whole, but is refused as an unfinished frame
where its line feed is still to come. Main statement: `takeChunks_eq_iff_isSteady`.
-/

namespace Courier

open Text Wire

def Failure.isTooLarge : Failure → Bool
  | .payloadTooLarge _ => true
  | _ => false

theorem exists_ok_of_any {ε α : Type} {attempt : Except ε α} {p : α → Prop} [DecidablePred p]
    (h : attempt.toOption.any (fun a => p a) = true) : ∃ a, attempt = .ok a ∧ p a := by
  cases attempt with
  | error e => cases h
  | ok a => exact ⟨a, rfl, of_decide_eq_true h⟩

/-! ## A frame that is no message is a bad request -/

namespace Wire

theorem bind_eq_error {ε α β : Type} {x : Except ε α} {step : α → Except ε β} {e : ε}
    (h : x >>= step = .error e) : x = .error e ∨ ∃ a, x = .ok a ∧ step a = .error e := by
  cases x with
  | error e' => exact Or.inl (congrArg Except.error (Except.error.inj h))
  | ok a => exact Or.inr ⟨a, rfl, h⟩

theorem readRequestLine_error {head : List Char} {failure : Failure}
    (h : readRequestLine head = .error failure) : ∃ cause, failure = .badRequest cause := by
  unfold readRequestLine at h
  split at h
  · simp at h
  · exact ⟨_, (Except.error.inj h).symm⟩

theorem readStatusLine_error {head : List Char} {failure : Failure}
    (h : readStatusLine head = .error failure) : ∃ cause, failure = .badRequest cause := by
  unfold readStatusLine at h
  split at h
  · exact ⟨_, (Except.error.inj h).symm⟩
  · split at h
    · rename_i hs
      unfold Status.ofToken at hs
      split at hs
      · simp at hs
      · exact ⟨_, by rw [← Except.error.inj h, ← Except.error.inj hs]⟩
    · simp at h

theorem readBody_error {body : Bytes} {failure : Failure} (h : readBody body = .error failure) :
    ∃ cause, failure = .badRequest cause := by
  unfold readBody at h
  repeat' split at h
  all_goals first
    | exact ⟨_, (Except.error.inj h).symm⟩
    | simp at h

namespace Frame

theorem headText_error {f : Frame} {failure : Failure} (h : f.headText = .error failure) :
    ∃ cause, failure = .badRequest cause := by
  unfold headText at h
  split at h
  · simp at h
  · exact ⟨_, (Except.error.inj h).symm⟩

theorem envelope_error {f : Frame} {failure : Failure} (h : f.envelope = .error failure) :
    ∃ cause, failure = .badRequest cause := by
  unfold envelope at h
  split at h
  · exact readBody_error h
  · exact ⟨_, (Except.error.inj h).symm⟩

theorem toRequest_error {f : Frame} {failure : Failure} (h : f.toRequest = .error failure) :
    ∃ cause, failure = .badRequest cause := by
  rcases bind_eq_error h with hh | ⟨cs, -, h⟩
  · exact headText_error hh
  · rcases bind_eq_error h with hr | ⟨words, -, h⟩
    · exact readRequestLine_error hr
    · rcases bind_eq_error h with he | ⟨e, -, h⟩
      · exact envelope_error he
      · simp [pure, Except.pure] at h

theorem toResponse_error {f : Frame} {failure : Failure} (h : f.toResponse = .error failure) :
    ∃ cause, failure = .badRequest cause := by
  rcases bind_eq_error h with hh | ⟨cs, -, h⟩
  · exact headText_error hh
  · rcases bind_eq_error h with hr | ⟨words, -, h⟩
    · exact readStatusLine_error hr
    · rcases bind_eq_error h with he | ⟨e, -, h⟩
      · exact envelope_error he
      · dsimp only at h
        split at h
        · exact ⟨_, (Except.error.inj h).symm⟩
        · simp [pure, Except.pure] at h

end Frame

end Wire

namespace Decoder

open Frame

variable {d : Decoder} {buffer rest : Bytes}

/-! ## What a buffer gives -/

structure Harvest where
  frames : List Frame
  /-- The limit that the last cut was beyond, unless more bytes are waited for. -/
  refused : Option Nat
  rest : Bytes
deriving DecidableEq, Repr

/-- Cuts frames as long as there are any within the limit. -/
def harvest (d : Decoder) (buffer : Bytes) : Harvest :=
  match h : d.cut buffer with
  | (.frame f, rest) =>
      have := length_cut_frame h
      let later := harvest d rest
      { later with frames := f :: later.frames }
  | (.tooLarge limit, rest) => ⟨[], some limit, rest⟩
  | (.more, rest) => ⟨[], none, rest⟩
termination_by buffer.length

theorem harvest_frame {f : Frame} (h : d.cut buffer = (.frame f, rest)) :
    d.harvest buffer =
      ⟨f :: (d.harvest rest).frames, (d.harvest rest).refused, (d.harvest rest).rest⟩ := by
  rw [harvest]
  split <;> rename_i h' <;> cases h.symm.trans h'
  rfl

theorem harvest_tooLarge {limit : Nat} (h : d.cut buffer = (.tooLarge limit, rest)) :
    d.harvest buffer = ⟨[], some limit, rest⟩ := by
  rw [harvest]
  split <;> rename_i h' <;> cases h.symm.trans h'
  rfl

theorem harvest_more (h : d.cut buffer = (.more, rest)) :
    d.harvest buffer = ⟨[], none, rest⟩ := by
  rw [harvest]
  split <;> rename_i h' <;> cases h.symm.trans h'
  rfl

theorem harvest_congr {buffer' : Bytes} (h : d.cut buffer = d.cut buffer') :
    d.harvest buffer = d.harvest buffer' := by
  rcases hc : d.cut buffer' with ⟨_ | _ | _, rest⟩ <;> rw [hc] at h
  · rw [harvest_frame h, harvest_frame hc]
  · rw [harvest_tooLarge h, harvest_tooLarge hc]
  · rw [harvest_more h, harvest_more hc]

/-- A frame that is cut off stays the same when more bytes have come. -/
theorem cut_append_frame {f : Frame} (h : d.cut buffer = (.frame f, rest)) (more : Bytes) :
    d.cut (buffer ++ more) = (.frame f, rest ++ more) ∧
      blankLines (buffer ++ more) = blankLines buffer := by
  obtain ⟨hf, hsize⟩ := cut_eq_frame_iff.mp h
  have hmore := local_locate?.append more hf
  have hskip := skipBlankLines_of_locate? hmore (head_of_locate? hf)
  obtain ⟨happend, hblank⟩ := skipBlankLines_append buffer more
  constructor
  · rw [cut_eq_frame_iff, happend, hskip.1]
    exact ⟨hmore, hsize⟩
  · rw [hblank, hskip.2, List.append_nil]

/-- Waiting for more bytes changes nothing but that the blank lines in front are gone. -/
theorem cut_append_more (h : d.cut buffer = (.more, rest)) (more : Bytes) :
    d.cut (buffer ++ more) = d.cut (rest ++ more) := by
  obtain ⟨-, -, rfl⟩ := cut_eq_more_iff.mp h
  rw [← cut_skipBlankLines, (skipBlankLines_append buffer more).1, cut_skipBlankLines]

/-- As long as nothing is refused, what the bytes give does not depend on where they are divided:
the frames of the first part come first, and its rest goes on with the second part. -/
theorem harvest_append (h : (d.harvest buffer).refused = none) (more : Bytes) :
    d.harvest (buffer ++ more) =
      ⟨(d.harvest buffer).frames ++ (d.harvest ((d.harvest buffer).rest ++ more)).frames,
        (d.harvest ((d.harvest buffer).rest ++ more)).refused,
        (d.harvest ((d.harvest buffer).rest ++ more)).rest⟩ := by
  fun_induction harvest d buffer with
  | case1 buffer f rest hcut _ _ ih =>
      rw [harvest_frame (cut_append_frame hcut more).1, ih h]
      rfl
  | case2 buffer limit rest hcut => simp at h
  | case3 buffer rest hcut =>
      rw [harvest_congr (cut_append_more hcut more)]
      rfl

theorem cut_rest (h : (d.harvest buffer).refused = none) :
    d.cut (d.harvest buffer).rest = (.more, (d.harvest buffer).rest) := by
  fun_induction harvest d buffer with
  | case1 buffer f rest hcut _ _ ih => exact ih h
  | case2 buffer limit rest hcut => simp at h
  | case3 buffer rest hcut =>
      obtain ⟨-, -, rfl⟩ := cut_eq_more_iff.mp hcut
      rw [cut_skipBlankLines]
      exact hcut

theorem harvest_rest (h : (d.harvest buffer).refused = none) :
    d.harvest (d.harvest buffer).rest = ⟨[], none, (d.harvest buffer).rest⟩ :=
  harvest_more (cut_rest h)

/-! ## Blank lines beyond the limit -/

/-- Whether each blank line at the front of a buffer is within the limit even while its line feed
is still to come. -/
def fitsBlank (d : Decoder) (buffer : Bytes) : Bool :=
  (blankLines buffer).all fun l => (d.exceeded? (l.bytes.length - 1)).isNone

/-- Whether the blank lines before every frame of a stream, and those before what is left of it,
are within the limit. Those before bytes that are refused anyway do not count. -/
def isSteady (d : Decoder) (stream : Bytes) : Bool :=
  match h : d.cut stream with
  | (.frame _, rest) =>
      have := length_cut_frame h
      d.fitsBlank stream && isSteady d rest
  | (.more, _) => d.fitsBlank stream
  | (.tooLarge _, _) => true
termination_by stream.length

theorem isSteady_frame {f : Frame} (h : d.cut buffer = (.frame f, rest)) :
    d.isSteady buffer = (d.fitsBlank buffer && d.isSteady rest) := by
  rw [isSteady]
  split <;> rename_i h' <;> cases h.symm.trans h'
  rfl

theorem isSteady_more (h : d.cut buffer = (.more, rest)) :
    d.isSteady buffer = d.fitsBlank buffer := by
  rw [isSteady]
  split <;> rename_i h' <;> cases h.symm.trans h'
  rfl

theorem isSteady_tooLarge {limit : Nat} (h : d.cut buffer = (.tooLarge limit, rest)) :
    d.isSteady buffer = true := by
  rw [isSteady]
  split <;> rename_i h' <;> cases h.symm.trans h'
  rfl

/-- Bytes beyond the limit are not skipped later on: the line they begin with is not blank, or it is
not complete and would be a blank line beyond the limit. -/
theorem skipBlankLines_append_of_exceeded {limit : Nat} {more : Bytes}
    (hsize : d.exceeded? (skipBlankLines buffer).length = some limit)
    (hfits : d.fitsBlank (buffer ++ more) = true) :
    skipBlankLines (buffer ++ more) = skipBlankLines buffer ++ more := by
  obtain ⟨happend, hblank⟩ := skipBlankLines_append buffer more
  rw [happend]
  cases hl : Line.next? (skipBlankLines buffer ++ more) with
  | none => exact (skipBlankLines_none hl).1
  | some p =>
      obtain ⟨l, after⟩ := p
      cases hb : l.isBlank with
      | false => exact (skipBlankLines_of_line hl hb).1
      | true =>
          -- a line that was complete before was not blank
          have hopen : Line.next? (skipBlankLines buffer) = none := by
            cases hs : Line.next? (skipBlankLines buffer) with
            | none => rfl
            | some q =>
                obtain ⟨l', after'⟩ := q
                have hq := next?_skipBlankLines hs
                have := Line.local_next?.append more hs
                rw [hl] at this
                simp only [Option.some.injEq, Prod.mk.injEq] at this
                rw [this.1, hq] at hb
                simp at hb
          have hshort := Line.local_next?.rest_shorter hopen hl
          have hlen := congrArg List.length (Line.next?_bytes hl)
          simp only [List.length_append] at hlen
          have hmem : l ∈ blankLines (buffer ++ more) := by
            rw [hblank, (skipBlankLines_of_blank hl hb).2]
            simp
          have hfit := List.all_eq_true.mp hfits l hmem
          rw [exceeded?_mono hsize (by omega)] at hfit
          simp at hfit

/-- A limit that the bytes exceed, but no blank line of them, stays exceeded. -/
theorem cut_append_tooLarge {limit : Nat} (h : d.cut buffer = (.tooLarge limit, rest))
    (more : Bytes) (hfits : d.fitsBlank (buffer ++ more) = true) :
    ∃ rest', d.cut (buffer ++ more) = (.tooLarge limit, rest') := by
  rcases cut_eq_tooLarge_iff.mp h with ⟨f, hf, hsize⟩ | ⟨hnone, hsize, -⟩
  -- a frame beyond the limit is located again
  · have hmore := local_locate?.append more hf
    have hskip := skipBlankLines_of_locate? hmore (head_of_locate? hf)
    refine ⟨rest ++ more, cut_eq_tooLarge_iff.mpr (Or.inl ⟨f, ?_, hsize⟩)⟩
    rw [(skipBlankLines_append buffer more).1, hskip.1]
    exact hmore
  -- bytes without a frame have none yet, or have become a longer one
  · have hskip := skipBlankLines_append_of_exceeded hsize hfits
    cases hf : locate? (skipBlankLines buffer ++ more) with
    | none =>
        refine ⟨_, cut_eq_tooLarge_iff.mpr (Or.inr ⟨hskip ▸ hf, ?_, rfl⟩)⟩
        rw [hskip, List.length_append]
        exact exceeded?_mono hsize (by omega)
    | some p =>
        obtain ⟨f, after⟩ := p
        have hshort := local_locate?.rest_shorter hnone hf
        have hlen := size_locate? hf
        rw [List.length_append] at hlen
        exact ⟨after, cut_eq_tooLarge_iff.mpr
          (Or.inl ⟨f, hskip ▸ hf, exceeded?_mono hsize (by omega)⟩)⟩

theorem limit_of_cut {limit : Nat} (h : d.cut buffer = (.tooLarge limit, rest)) :
    d.limit = some limit := by
  rcases cut_eq_tooLarge_iff.mp h with ⟨f, -, hsize⟩ | ⟨-, hsize, -⟩
  · exact (exceeded?_eq_some_iff.mp hsize).1
  · exact (exceeded?_eq_some_iff.mp hsize).1

/-- In a steady stream a refusal comes after the same frames wherever the stream is divided. -/
theorem harvest_append_refused {limit : Nat} {more : Bytes}
    (hsteady : d.isSteady (buffer ++ more) = true) (h : (d.harvest buffer).refused = some limit) :
    (d.harvest (buffer ++ more)).frames = (d.harvest buffer).frames ∧
      (d.harvest (buffer ++ more)).refused = some limit := by
  fun_induction harvest d buffer with
  | case1 buffer f rest hcut _ _ ih =>
      have hmore := (cut_append_frame hcut more).1
      rw [isSteady_frame hmore, Bool.and_eq_true] at hsteady
      obtain ⟨hframes, hrefused⟩ := ih hsteady.2 h
      rw [harvest_frame hmore]
      exact ⟨congrArg (f :: ·) hframes, hrefused⟩
  | case2 buffer limit' rest hcut =>
      obtain rfl : limit' = limit := Option.some.inj h
      suffices hmore : ∃ rest', d.cut (buffer ++ more) = (.tooLarge limit', rest') by
        obtain ⟨rest', hmore⟩ := hmore
        rw [harvest_tooLarge hmore]
        exact ⟨rfl, rfl⟩
      rcases hmore : d.cut (buffer ++ more) with ⟨f | limit | _, rest'⟩
      · rw [isSteady_frame hmore, Bool.and_eq_true] at hsteady
        exact hmore ▸ cut_append_tooLarge hcut more hsteady.1
      · have heq := (limit_of_cut hmore).symm.trans (limit_of_cut hcut)
        exact ⟨rest', by rw [Option.some.inj heq]⟩
      · rw [isSteady_more hmore] at hsteady
        exact hmore ▸ cut_append_tooLarge hcut more hsteady
  | case3 buffer rest hcut => simp at h

/-- Of a steady stream that is not refused, no part at the front is. -/
theorem refused_front {more : Bytes} (hsteady : d.isSteady (buffer ++ more) = true)
    (hwhole : (d.harvest (buffer ++ more)).refused = none) : (d.harvest buffer).refused = none := by
  cases href : (d.harvest buffer).refused with
  | none => rfl
  | some limit =>
      rw [(harvest_append_refused hsteady href).2] at hwhole
      cases hwhole

theorem isSteady_append_more {more : Bytes} (hsteady : d.isSteady (buffer ++ more) = true)
    (h : (d.harvest buffer).refused = none) :
    d.isSteady ((d.harvest buffer).rest ++ more) = true := by
  fun_induction harvest d buffer with
  | case1 buffer f rest hcut _ _ ih =>
      rw [isSteady_frame (cut_append_frame hcut more).1, Bool.and_eq_true] at hsteady
      exact ih hsteady.2 h
  | case2 buffer limit rest hcut => simp at h
  | case3 buffer rest hcut =>
      obtain ⟨-, -, rfl⟩ := cut_eq_more_iff.mp hcut
      have hcuts := cut_append_more hcut more
      have hfits : d.fitsBlank (buffer ++ more) = true →
          d.fitsBlank (skipBlankLines buffer ++ more) = true := by
        intro h
        rw [fitsBlank, (skipBlankLines_append buffer more).2, List.all_append,
          Bool.and_eq_true] at h
        exact h.2
      rcases hc : d.cut (skipBlankLines buffer ++ more) with ⟨f | limit | _, rest'⟩ <;>
        rw [hc] at hcuts
      · rw [isSteady_frame hcuts, Bool.and_eq_true] at hsteady
        rw [isSteady_frame hc, hfits hsteady.1, hsteady.2]
        rfl
      · exact isSteady_tooLarge hc
      · rw [isSteady_more hcuts] at hsteady
        rw [isSteady_more hc]
        exact hfits hsteady

theorem cut_nil (d : Decoder) : d.cut [] = (.more, []) := by
  have hskip := (skipBlankLines_none (Line.next?_eq_none_iff.mpr (List.not_mem_nil (a := 10)))).1
  rw [cut_eq_more_iff, hskip]
  refine ⟨rfl, exceeded?_eq_none_iff.mpr ?_, rfl⟩
  intro limit _
  exact Nat.zero_le limit

/-! ## One message after another -/

section Taking

variable {α : Type} {read : Frame → Except Failure α}

/-- An attempt that gives a message, or another failure than that of bytes beyond the limit, has
taken a frame. -/
theorem length_take {result : Except Failure (Option α)} (h : d.take read buffer = (result, rest))
    (hsome : result ≠ .ok none) (hfail : ∀ limit, result ≠ .error (.payloadTooLarge limit)) :
    rest.length < buffer.length := by
  unfold take at h
  rcases hc : d.cut buffer with ⟨f | limit | _, rest'⟩ <;> rw [hc] at h <;>
    simp only [Prod.mk.injEq] at h <;> obtain ⟨rfl, rfl⟩ := h
  · exact length_cut_frame hc
  · exact absurd rfl (hfail limit)
  · exact absurd rfl hsome

/-- Takes one message after another until more bytes are needed or some are beyond the limit: what
the attempts give, and what is left. The attempt that would need more bytes gives nothing. -/
def takeAll (d : Decoder) (read : Frame → Except Failure α) (buffer : Bytes) :
    List (Except Failure α) × Bytes :=
  match h : d.take read buffer with
  | (.ok none, rest) => ([], rest)
  | (.ok (some m), rest) =>
      have := length_take h (by simp) (by simp)
      let (later, rest) := takeAll d read rest
      (.ok m :: later, rest)
  | (.error failure, rest) =>
      if hf : failure.isTooLarge then ([.error failure], rest)
      else
        have := length_take h (by simp)
          (by rintro limit heq; cases heq; simp [Failure.isTooLarge] at hf)
        let (later, rest) := takeAll d read rest
        (.error failure :: later, rest)
termination_by buffer.length

def isRefusal : Except Failure α → Bool
  | .error failure => failure.isTooLarge
  | .ok _ => false

/-- Takes messages while a buffer grows by one chunk after another, as many after each as there are,
until one attempt is refused for bytes beyond the limit. -/
def takeChunks (d : Decoder) (read : Frame → Except Failure α) (buffer : Bytes) :
    List Bytes → List (Except Failure α)
  | [] => []
  | chunk :: chunks =>
      let (results, rest) := d.takeAll read (buffer ++ chunk)
      if results.any isRefusal then results else results ++ takeChunks d read rest chunks

/-- What a harvest is to someone who asks for messages. -/
def Harvest.results (h : Harvest) (read : Frame → Except Failure α) : List (Except Failure α) :=
  h.frames.map read ++ h.refused.toList.map fun limit => .error (.payloadTooLarge limit)

theorem take_frame {f : Frame} (h : d.cut buffer = (.frame f, rest)) :
    d.take read buffer = ((read f).map some, rest) := by
  simp only [take, h]

theorem take_tooLarge {limit : Nat} (h : d.cut buffer = (.tooLarge limit, rest)) :
    d.take read buffer = (.error (.payloadTooLarge limit), rest) := by
  simp only [take, h]

theorem take_more (h : d.cut buffer = (.more, rest)) : d.take read buffer = (.ok none, rest) := by
  simp only [take, h]

theorem takeAll_none (h : d.take read buffer = (.ok none, rest)) :
    d.takeAll read buffer = ([], rest) := by
  rw [takeAll]
  split <;> rename_i h' <;> cases h.symm.trans h'
  rfl

theorem takeAll_some {m : α} (h : d.take read buffer = (.ok (some m), rest)) :
    d.takeAll read buffer = (.ok m :: (d.takeAll read rest).1, (d.takeAll read rest).2) := by
  rw [takeAll]
  split <;> rename_i h' <;> cases h.symm.trans h'
  rfl

theorem takeAll_error {failure : Failure} (h : d.take read buffer = (.error failure, rest)) :
    d.takeAll read buffer = if failure.isTooLarge then ([.error failure], rest)
      else (.error failure :: (d.takeAll read rest).1, (d.takeAll read rest).2) := by
  rw [takeAll]
  split <;> rename_i h' <;> cases h.symm.trans h'
  split <;> rfl

/-- Whoever asks for messages gets the harvest, frame by frame. -/
theorem takeAll_eq_harvest (hread : ∀ f, isRefusal (read f) = false) (d : Decoder)
    (buffer : Bytes) :
    d.takeAll read buffer = ((d.harvest buffer).results read, (d.harvest buffer).rest) := by
  fun_induction harvest d buffer with
  | case1 buffer f rest hcut _ later ih =>
      have htake : d.take read buffer = ((read f).map some, rest) := take_frame hcut
      have hf := hread f
      cases hr : read f with
      | ok m =>
          rw [hr] at htake
          rw [takeAll_some htake, ih]
          simp [Harvest.results, hr, later]
      | error failure =>
          rw [hr] at htake hf
          have hf' : failure.isTooLarge = false := hf
          rw [takeAll_error htake, hf', ih]
          simp [Harvest.results, hr, later]
  | case2 buffer limit rest hcut =>
      rw [takeAll_error (take_tooLarge hcut)]
      rfl
  | case3 buffer rest hcut =>
      rw [takeAll_none (take_more hcut)]
      rfl

theorem takeChunks_cons (d : Decoder) (buffer chunk : Bytes) (chunks : List Bytes) :
    d.takeChunks read buffer (chunk :: chunks) =
      if (d.takeAll read (buffer ++ chunk)).1.any isRefusal
      then (d.takeAll read (buffer ++ chunk)).1
      else (d.takeAll read (buffer ++ chunk)).1 ++
        d.takeChunks read (d.takeAll read (buffer ++ chunk)).2 chunks := rfl

theorem any_isRefusal_results (hread : ∀ f, isRefusal (read f) = false) (h : Harvest) :
    (h.results read).any isRefusal = h.refused.isSome := by
  obtain ⟨frames, refused, rest⟩ := h
  have hframes : (frames.map read).any isRefusal = false := by
    rw [List.any_map, List.any_eq_false]
    intro f _
    simp [hread f]
  cases refused with
  | none => simp [Harvest.results, hframes]
  | some limit => simp [Harvest.results, hframes, isRefusal, Failure.isTooLarge]

/-- Without a refusal the chunks that have come need not be told apart. -/
theorem takeChunks_step (hread : ∀ f, isRefusal (read f) = false) (d : Decoder)
    (buffer chunk : Bytes) (chunks : List Bytes) :
    d.takeChunks read buffer (chunk :: chunks) = (d.harvest (buffer ++ chunk)).results read ++
      if (d.harvest (buffer ++ chunk)).refused.isSome then []
      else d.takeChunks read (d.harvest (buffer ++ chunk)).rest chunks := by
  rw [takeChunks_cons, takeAll_eq_harvest hread, any_isRefusal_results hread]
  split <;> simp

/-- Nothing comes behind a refusal. -/
theorem pairwise_takeChunks (hread : ∀ f, isRefusal (read f) = false) (d : Decoder)
    (buffer : Bytes) (chunks : List Bytes) :
    (d.takeChunks read buffer chunks).Pairwise fun attempt _ => isRefusal attempt = false := by
  induction chunks generalizing buffer with
  | nil => exact List.Pairwise.nil
  | cons chunk chunks ih =>
      rw [takeChunks_step hread]
      generalize d.harvest (buffer ++ chunk) = h
      have hframes : ∀ attempt ∈ h.frames.map read, isRefusal attempt = false := by
        intro attempt hattempt
        obtain ⟨f, -, rfl⟩ := List.mem_map.mp hattempt
        exact hread f
      have hfirst : (h.frames.map read).Pairwise fun attempt _ => isRefusal attempt = false :=
        List.pairwise_iff_forall_sublist.mpr fun hsub =>
          hframes _ (hsub.subset List.mem_cons_self)
      cases href : h.refused with
      | none =>
          simp only [Harvest.results, href, Option.toList_none, List.map_nil, List.append_nil,
            Option.isSome_none, Bool.false_eq_true, if_false, List.pairwise_append]
          exact ⟨hfirst, ih h.rest, fun attempt hattempt _ _ => hframes attempt hattempt⟩
      | some limit =>
          simp only [Harvest.results, href, Option.toList_some, List.map_cons, List.map_nil,
            Option.isSome_some, if_true, List.append_nil, List.pairwise_append]
          exact ⟨hfirst, List.pairwise_singleton _ _,
            fun attempt hattempt _ _ => hframes attempt hattempt⟩

/-- In a steady stream the chunks make no difference: `buffer` is what earlier ones have left. -/
theorem takeChunks_of_isSteady (hread : ∀ f, isRefusal (read f) = false) {chunks : List Bytes}
    (hrest : d.harvest buffer = ⟨[], none, buffer⟩)
    (hsteady : d.isSteady (buffer ++ chunks.flatten) = true) :
    d.takeChunks read buffer chunks = (d.harvest (buffer ++ chunks.flatten)).results read := by
  induction chunks generalizing buffer with
  | nil => simp [takeChunks, hrest, Harvest.results]
  | cons chunk chunks ih =>
      rw [List.flatten_cons, ← List.append_assoc] at hsteady ⊢
      rw [takeChunks_step hread]
      cases href : (d.harvest (buffer ++ chunk)).refused with
      | some limit =>
          obtain ⟨hframes, hrefused⟩ := harvest_append_refused hsteady href
          rw [if_pos (by simp), List.append_nil]
          simp only [Harvest.results, hframes, hrefused, href]
      | none =>
          have hlater := ih (harvest_rest href) (isSteady_append_more hsteady href)
          rw [harvest_append href, if_neg (by simp), hlater]
          simp [Harvest.results, href]

theorem exists_of_mem_blankLines {bs : Bytes} {l : Line} (h : l ∈ blankLines bs) :
    ∃ front text back, bs = front ++ text ++ 10 :: back ∧ 10 ∉ text ∧
      skipBlankLines (front ++ text) = text ∧ text.length = l.bytes.length - 1 := by
  fun_induction blankLines bs with
  | case1 => simp at h
  | case2 bs l' rest hl _ hb ih =>
      obtain ⟨text', hn', rfl, rfl⟩ := Line.next?_eq_some hl
      rcases List.mem_cons.mp h with rfl | h
      · refine ⟨[], text', rest, by simp, hn', ?_, by simp [Line.bytes_ofText]⟩
        exact (skipBlankLines_none (Line.next?_eq_none_iff.mpr hn')).1
      · obtain ⟨front, text, back, rfl, hn, hskip, hlen⟩ := ih h
        refine ⟨text' ++ 10 :: front, text, back, by simp, hn, ?_, hlen⟩
        have hfront := Line.next?_text hn' (front ++ text)
        rw [List.append_assoc, List.cons_append, (skipBlankLines_of_blank hfront hb).1]
        exact hskip
  | case3 => simp at h

/-- A blank line beyond the limit is refused where its line feed is still to come. -/
theorem exists_tooLarge_of_not_fitsBlank (h : d.fitsBlank buffer = false) :
    ∃ front back limit rest, buffer = front ++ back ∧ d.cut front = (.tooLarge limit, rest) := by
  obtain ⟨l, hl, hlong⟩ := List.all_eq_false.mp h
  obtain ⟨front, text, back, rfl, hn, hskip, hlen⟩ := exists_of_mem_blankLines hl
  obtain ⟨limit, hlimit⟩ : ∃ limit, d.exceeded? text.length = some limit := by
    rw [hlen, ← Option.isSome_iff_exists, Option.isSome_iff_ne_none]
    simpa using hlong
  refine ⟨front ++ text, 10 :: back, limit, text, rfl, ?_⟩
  rw [cut_eq_tooLarge_iff, hskip]
  refine Or.inr ⟨?_, hlimit, rfl⟩
  simp [locate?, Line.next?_eq_none_iff.mpr hn]

/-- A stream that is not steady can be divided so that something is refused that would be taken, or
waited for, if it came whole. -/
theorem exists_division_of_not_isSteady (hread : ∀ f, isRefusal (read f) = false)
    (h : d.isSteady buffer = false) :
    ∃ front back, buffer = front ++ back ∧ (d.harvest front).refused.isSome = true ∧
      (d.harvest front).results read ≠ (d.harvest buffer).results read := by
  fun_induction harvest d buffer with
  | case1 buffer f rest hcut _ later ih =>
      rw [isSteady_frame hcut, Bool.and_eq_false_iff] at h
      rcases h with h | h
      · obtain ⟨front, back, limit, rest', rfl, hfront⟩ := exists_tooLarge_of_not_fitsBlank h
        refine ⟨front, back, rfl, by simp [harvest_tooLarge hfront], ?_⟩
        rw [harvest_tooLarge hfront]
        -- the first attempt is a refusal here and none there
        intro heq
        have hhead := (List.cons.inj heq).1
        have hf := hread f
        rw [← hhead] at hf
        simp [isRefusal, Failure.isTooLarge] at hf
      · obtain ⟨front, back, rfl, hrefused, hne⟩ := ih h
        obtain ⟨taken, hbuffer, htaken⟩ := cut_frame_local hcut
        refine ⟨taken ++ front, back, by rw [hbuffer, List.append_assoc], ?_, ?_⟩
        · rw [harvest_frame (htaken front)]
          exact hrefused
        · rw [harvest_frame (htaken front)]
          intro heq
          exact hne (List.cons.inj heq).2
  | case2 buffer limit rest hcut =>
      rw [isSteady_tooLarge hcut] at h
      simp at h
  | case3 buffer rest hcut =>
      rw [isSteady_more hcut] at h
      obtain ⟨front, back, limit, rest', rfl, hfront⟩ := exists_tooLarge_of_not_fitsBlank h
      refine ⟨front, back, rfl, by simp [harvest_tooLarge hfront], ?_⟩
      rw [harvest_tooLarge hfront]
      simp [Harvest.results]

theorem isRefusal_toRequest (f : Frame) : isRefusal f.toRequest = false := by
  cases h : f.toRequest with
  | ok r => rfl
  | error failure =>
      obtain ⟨cause, rfl⟩ := toRequest_error h
      rfl

theorem isRefusal_toResponse (f : Frame) : isRefusal f.toResponse = false := by
  cases h : f.toResponse with
  | ok r => rfl
  | error failure =>
      obtain ⟨cause, rfl⟩ := toResponse_error h
      rfl

theorem takeChunks_whole (hread : ∀ f, isRefusal (read f) = false) (d : Decoder) (stream : Bytes) :
    d.takeChunks read [] [stream] = (d.harvest stream).results read := by
  rw [takeChunks_step hread]
  split <;> simp [takeChunks]

end Taking

/-- **Chunks matter exactly at blank lines beyond the limit.** Requests are taken from a stream that
comes in chunks, after each chunk as many as there are. What the attempts give, up to the first that
is refused, is the same for any two divisions of the stream if and only if the stream is steady. -/
theorem takeChunks_eq_iff_isSteady (d : Decoder) (stream : Bytes) :
    (∀ chunks chunks' : List Bytes, chunks.flatten = stream → chunks'.flatten = stream →
      d.takeChunks Frame.toRequest [] chunks = d.takeChunks Frame.toRequest [] chunks') ↔
      d.isSteady stream = true := by
  constructor
  · intro h
    cases hs : d.isSteady stream with
    | true => rfl
    | false =>
        -- one division refuses what the whole does not
        obtain ⟨front, back, rfl, hrefused, hne⟩ :=
          exists_division_of_not_isSteady isRefusal_toRequest hs
        have heq := h [front, back] [front ++ back] (by simp) (by simp)
        rw [takeChunks_whole isRefusal_toRequest, takeChunks_step isRefusal_toRequest,
          List.nil_append, if_pos hrefused, List.append_nil] at heq
        exact absurd heq hne
  · rintro hs chunks chunks' rfl heq
    have hnil : d.harvest [] = ⟨[], none, []⟩ := harvest_more (cut_nil d)
    rw [takeChunks_of_isSteady isRefusal_toRequest hnil hs,
      takeChunks_of_isSteady isRefusal_toRequest hnil (heq ▸ hs), heq]

/-- A frame of 25 bytes behind a blank line of 40, under a limit of 32: in one chunk it is a
request, but where the line feed of the blank line comes in a chunk of its own the first attempt is
refused. -/
theorem takeChunks_long_blank_line :
    let d : Decoder := ⟨some 32⟩
    let blanks : Bytes := List.replicate 40 32
    let frame : Bytes := utf8 "PING 1.0\n\n\x7b\"topic\":\"t\"\x7d\n\n"
    frame.length = 25 ∧
      (d.takeChunks Frame.toRequest [] [blanks ++ 10 :: frame]).map isRefusal = [false] ∧
      (d.takeChunks Frame.toRequest [] [blanks, 10 :: frame]).map isRefusal = [true] ∧
      d.takeChunks Frame.toRequest [] [blanks ++ 10 :: frame]
        ≠ d.takeChunks Frame.toRequest [] [blanks, 10 :: frame] := by
  have hwhole : (Decoder.takeChunks ⟨some 32⟩ Frame.toRequest []
      [List.replicate 40 32 ++ 10 :: utf8 "PING 1.0\n\n\x7b\"topic\":\"t\"\x7d\n\n"]).map isRefusal
        = [false] := by decide +kernel
  have hdivided : (Decoder.takeChunks ⟨some 32⟩ Frame.toRequest []
      [List.replicate 40 32, 10 :: utf8 "PING 1.0\n\n\x7b\"topic\":\"t\"\x7d\n\n"]).map isRefusal
        = [true] := by decide +kernel
  refine ⟨by decide +kernel, hwhole, hdivided, ?_⟩
  intro heq
  rw [heq, hdivided] at hwhole
  simp at hwhole

end Decoder

end Courier
