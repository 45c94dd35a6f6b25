import Courier.Proofs.Conservation
import Courier.Proofs.SessionEnds
import Mathlib.Data.List.Forall2

/-!
# What a session has done when it waits

A session that starts to wait for bytes has answered each frame that has come and holds less than
one. Which frames have come is a matter of the bytes alone: `Divides` says it without a reader, and
in one way only (`Divides.unique`). A read joins what it brings to what is left of those before it
(`Divides.append`), so that the reads do not show in the frames.

Main statement: `owes_nothing`.
-/

namespace Courier

open Text Wire

namespace Wire.Frame

variable {bs more rest last : Bytes} {blanks frames later : List Bytes}

/-! ## Bytes divided into frames -/

/-- The bytes are complete frames with blank lines before them, and a rest: no frame is complete in
it, and no blank line is in front of it. -/
inductive Divides : Bytes → List Bytes → Bytes → Prop
  | rest {blanks : List Bytes} {rest : Bytes} :
      (∀ l ∈ blanks, IsBlankLine l) → (∀ frame, IsFrameText frame → ¬ frame <:+: rest) →
      (∀ l, IsBlankLine l → ¬ l <+: rest) → Divides (blanks.flatten ++ rest) [] rest
  | frame {blanks : List Bytes} {frame more : Bytes} {later : List Bytes} {rest : Bytes} :
      (∀ l ∈ blanks, IsBlankLine l) → IsFrameText frame → Divides more later rest →
      Divides (blanks.flatten ++ frame ++ more) (frame :: later) rest

namespace Divides

theorem no_frame (h : Divides bs frames rest) {frame : Bytes} (hframe : IsFrameText frame) :
    ¬ frame <:+: rest := by
  induction h with
  | rest _ hnone _ => exact hnone frame hframe
  | frame _ _ _ ih => exact ih

theorem no_blankLine (h : Divides bs frames rest) {l : Bytes} (hl : IsBlankLine l) :
    ¬ l <+: rest := by
  induction h with
  | rest _ _ hnone => exact hnone l hl
  | frame _ _ _ ih => exact ih

theorem behind (h : Divides bs frames rest) (hblanks : ∀ l ∈ blanks, IsBlankLine l) :
    Divides (blanks.flatten ++ bs) frames rest := by
  cases h with
  | rest hblanks' hframe hblank =>
    rw [← List.append_assoc, ← List.flatten_append]
    exact .rest (List.forall_mem_append.mpr ⟨hblanks, hblanks'⟩) hframe hblank
  | frame hblanks' hframe hlater =>
    rw [← List.append_assoc, ← List.append_assoc, ← List.flatten_append]
    exact .frame (List.forall_mem_append.mpr ⟨hblanks, hblanks'⟩) hframe hlater

/-- What comes later is divided together with what is left. -/
theorem append (h : Divides bs frames rest) (hmore : Divides (rest ++ more) later last) :
    Divides (bs ++ more) (frames ++ later) last := by
  induction h with
  | rest hblanks _ _ =>
    rw [List.append_assoc]
    exact hmore.behind hblanks
  | frame hblanks hframe _ ih =>
    rw [List.append_assoc]
    exact .frame hblanks hframe (ih hmore)

end Divides

/-! ## What the reader finds -/

theorem divides_of_locate? {f : Frame} (h : locate? (skipBlankLines bs) = some (f, more))
    (hmore : Divides more later rest) : Divides bs (f.bytes :: later) rest := by
  have hbytes := blankLines_bytes bs
  rw [List.flatMap_def, ← locate?_bytes h, ← List.append_assoc] at hbytes
  have hframe := Divides.frame (forall_isBlankLine bs) (isFrameText_of_locate? h) hmore
  rwa [hbytes] at hframe

theorem divides_of_locate?_none (h : locate? (skipBlankLines bs) = none) :
    Divides bs [] (skipBlankLines bs) := by
  have hbytes := blankLines_bytes bs
  rw [List.flatMap_def] at hbytes
  have hrest := Divides.rest (forall_isBlankLine bs) (fun _ => no_frame_of_locate? h)
    (fun _ => Decoder.no_blankLine_skipped bs)
  rwa [hbytes] at hrest

theorem skipBlankLines_of_no_blankLine (h : ∀ l, IsBlankLine l → ¬ l <+: bs) :
    skipBlankLines bs = bs := by
  cases hnext : Line.next? bs with
  | none => exact (skipBlankLines_none hnext).1
  | some p =>
    obtain ⟨l, after⟩ := p
    have hline := isLine_of_next? hnext
    cases hblank : l.isBlank with
    | false => exact (skipBlankLines_of_line hnext hblank).1
    | true =>
      rw [hblank] at hline
      exact absurd ⟨after, Line.next?_bytes hnext⟩ (h _ hline)

/-- The reader finds the first of the frames, or what is left if there is none. -/
theorem Divides.locate? (h : Divides bs frames rest) :
    (Frame.locate? (skipBlankLines bs) = none ∧ frames = [] ∧ rest = skipBlankLines bs) ∨
      ∃ f more later, Frame.locate? (skipBlankLines bs) = some (f, more) ∧
        frames = f.bytes :: later ∧ Divides more later rest := by
  cases h with
  | rest hblanks hframe hblank =>
    have hskip : skipBlankLines (_ ++ rest) = rest :=
      (skipBlankLines_flatten hblanks rest).1.trans (skipBlankLines_of_no_blankLine hblank)
    left
    refine ⟨?_, rfl, hskip.symm⟩
    rw [hskip]
    cases hlocate : Frame.locate? rest with
    | none => rfl
    | some p =>
      obtain ⟨f, after⟩ := p
      have hfound := hlocate
      rw [← skipBlankLines_of_no_blankLine hblank] at hfound
      exact absurd ⟨[], after, locate?_bytes hlocate⟩ (hframe _ (isFrameText_of_locate? hfound))
  | frame hblanks hframe hlater =>
    obtain ⟨f, hf, rfl⟩ := exists_isWhole hframe
    exact .inr ⟨f, _, _, (hf.locate? hblanks _).1, rfl, hlater⟩

/-- **Bytes are divided in one way only.** -/
theorem Divides.unique {frames' : List Bytes} {rest' : Bytes} (h : Divides bs frames rest)
    (h' : Divides bs frames' rest') : frames = frames' ∧ rest = rest' := by
  induction hn : bs.length using Nat.strongRecOn generalizing bs frames frames' with
  | ind n ih =>
    rcases h.locate? with ⟨hnone, rfl, rfl⟩ | ⟨f, more, later, hsome, rfl, hlater⟩
    · rcases h'.locate? with ⟨-, rfl, rfl⟩ | ⟨f', more', later', hsome', -, -⟩
      · exact ⟨rfl, rfl⟩
      · rw [hnone] at hsome'
        cases hsome'
    · rcases h'.locate? with ⟨hnone', -, -⟩ | ⟨f', more', later', hsome', rfl, hlater'⟩
      · rw [hsome] at hnone'
        cases hnone'
      · rw [hsome, Option.some.injEq, Prod.mk.injEq] at hsome'
        obtain ⟨rfl, rfl⟩ := hsome'
        have hshort := Nat.lt_of_lt_of_le (length_locate? hsome) (length_skipBlankLines bs)
        obtain ⟨rfl, rfl⟩ := ih more.length (hn ▸ hshort) hlater hlater' rfl
        exact ⟨rfl, rfl⟩

end Wire.Frame

open Frame

theorem Decoder.divides_harvest {d : Decoder} {buffer : Bytes}
    (h : (d.harvest buffer).refused = none) :
    Divides buffer ((d.harvest buffer).frames.map Frame.bytes) (d.harvest buffer).rest ∧
      ∀ f ∈ (d.harvest buffer).frames, f.IsWhole ∧ d.exceeded? f.size = none := by
  fun_induction Decoder.harvest d buffer with
  | case1 buffer f rest hcut _ later ih =>
    obtain ⟨hlocate, hsize⟩ := cut_eq_frame_iff.mp hcut
    obtain ⟨hdivides, hframes⟩ := ih h
    exact ⟨divides_of_locate? hlocate hdivides,
      List.forall_mem_cons.mpr ⟨⟨isWhole_of_locate? hlocate, hsize⟩, hframes⟩⟩
  | case2 buffer limit rest hcut => cases h
  | case3 buffer rest hcut =>
    obtain ⟨hnone, -, rfl⟩ := cut_eq_more_iff.mp hcut
    exact ⟨divides_of_locate?_none hnone, List.forall_mem_nil _⟩

/-- The server answers the frame so in some state. -/
def Server.Gives (server : Server) (frame : Bytes) (response : Response) : Prop :=
  ∃ state, response = (server.answerAttempt (Request.parse frame) state).1

namespace Session

variable {server : Server} {session : Session} {state : ServerState} {outlet outlet' : Outlet}
  {buffer received : Bytes} {events : List Event}

/-! ## One buffer -/

theorem settle_gives {frames : List Frame} (hframes : ∀ f ∈ frames, f.IsWhole)
    (h : (settle server (frames.map Frame.toRequest) outlet state).2.1 = some outlet') :
    List.Forall₂ server.Gives (frames.map Frame.bytes)
      (responses (settle server (frames.map Frame.toRequest) outlet state).1) := by
  induction frames generalizing outlet state with
  | nil => exact .nil
  | cons f frames ih =>
    obtain ⟨hf, hframes⟩ := List.forall_mem_cons.mp hframes
    rw [List.map_cons] at h
    rw [List.map_cons, List.map_cons]
    cases hspend : outlet.spend? with
    | none =>
      rw [settle_unspent hspend] at h
      cases h
    | some spent =>
      cases hlast : server.closesBehind f.toRequest with
      | true =>
        rw [settle_last hspend hlast] at h
        cases h
      | false =>
        rw [settle_step hspend hlast] at h ⊢
        refine .cons ⟨state, ?_⟩ (ih hframes h)
        rw [Request.parse_bytes hf]

/-- **A session that does not close takes its buffer apart**: it answers the frames, none of them
beyond the limit, and keeps the rest. -/
theorem divides_drain (hopen : (drain server ⟨buffer, outlet, true⟩ state).2.1.isOpen = true) :
    ∃ frames, Divides buffer frames (drain server ⟨buffer, outlet, true⟩ state).2.1.buffer ∧
      (∀ frame ∈ frames, frame.length ≤ server.settings.maxFrameBytes) ∧
      List.Forall₂ server.Gives frames
        (responses (drain server ⟨buffer, outlet, true⟩ state).1) := by
  obtain ⟨hevents, -, hisOpen, hkept⟩ := agrees_drain server buffer outlet state
  rw [hisOpen] at hopen
  obtain ⟨outlet', hsettled⟩ := Option.isSome_iff_exists.mp hopen
  obtain ⟨hrefused, hsession⟩ := hkept outlet' hsettled
  obtain ⟨hdivides, hframes⟩ := Decoder.divides_harvest hrefused
  rw [hevents, hsession]
  refine ⟨_, hdivides, ?_, ?_⟩
  · intro frame hframe
    obtain ⟨f, hf, rfl⟩ := List.mem_map.mp hframe
    exact Decoder.exceeded?_eq_none_iff.mp (hframes f hf).2 _ rfl
  · have hresults : (server.decoder.harvest buffer).results Frame.toRequest =
        (server.decoder.harvest buffer).frames.map Frame.toRequest := by
      simp [Decoder.Harvest.results, hrefused]
    rw [hresults] at hsettled ⊢
    exact settle_gives (fun f hf => (hframes f hf).1) hsettled

/-! ## One read after another -/

/-- The session waits for bytes, and this is what it has received and what has happened. Between
two reads anything may become of the state, which other sessions share. -/
inductive Awaits (server : Server) : Bytes → List Event → Session → Prop
  | opened (outlet : Outlet) (stopping : Bool) (state : ServerState) :
      (start server outlet stopping state).2.1.isOpen = true →
      Awaits server [] (start server outlet stopping state).1
        (start server outlet stopping state).2.1
  | heard {received : Bytes} {events : List Event} {session : Session} (piece : Bytes)
      (state : ServerState) :
      Awaits server received events session →
      (resume server (.bytes piece) session state).2.1.isOpen = true →
      Awaits server (received ++ piece)
        (events ++ (resume server (.bytes piece) session state).1)
        (resume server (.bytes piece) session state).2.1

theorem Awaits.isOpen (h : Awaits server received events session) : session.isOpen = true := by
  cases h with
  | opened _ _ _ hopen => exact hopen
  | heard _ _ _ hopen => exact hopen

theorem start_of_isOpen {stopping : Bool}
    (hopen : (start server outlet stopping state).2.1.isOpen = true) :
    (start server outlet stopping state).1 = [] ∧
      (start server outlet stopping state).2.1 = ⟨[], outlet, true⟩ := by
  cases stopping with
  | false => simp [start, drain_empty]
  | true => simp [start, drain_empty, close] at hopen

theorem Awaits.waits (h : Awaits server received events session) : Waits server session := by
  cases h with
  | opened outlet stopping state hopen =>
    rw [(start_of_isOpen hopen).2]
    exact waits_of_cut (Decoder.cut_nil _) outlet
  | heard piece state hbefore hopen =>
    rename_i session
    obtain ⟨buffer, outlet, isOpen⟩ := session
    obtain rfl : isOpen = true := hbefore.isOpen
    exact waits_drain hopen

/-- Through all reads: what has been received is frames that have been answered, and the buffer. -/
theorem Awaits.divides (h : Awaits server received events session) :
    ∃ frames, Divides received frames session.buffer ∧
      (∀ frame ∈ frames, frame.length ≤ server.settings.maxFrameBytes) ∧
      List.Forall₂ server.Gives frames (responses events) := by
  induction h with
  | opened outlet stopping state hopen =>
    obtain ⟨hevents, hsession⟩ := start_of_isOpen hopen
    obtain ⟨hnone, -, hskip⟩ := Decoder.cut_eq_more_iff.mp (Decoder.cut_nil server.decoder)
    have hempty := divides_of_locate?_none hnone
    rw [← hskip] at hempty
    rw [hevents, hsession]
    exact ⟨[], hempty, List.forall_mem_nil _, .nil⟩
  | heard piece state hbefore hopen ih =>
    rename_i session
    obtain ⟨frames, hdivides, hfits, hgives⟩ := ih
    obtain ⟨buffer, outlet, isOpen⟩ := session
    obtain rfl : isOpen = true := hbefore.isOpen
    obtain ⟨later, hlater, hlaterFits, hlaterGives⟩ := divides_drain hopen
    refine ⟨frames ++ later, hdivides.append hlater,
      List.forall_mem_append.mpr ⟨hfits, hlaterFits⟩, ?_⟩
    rw [responses_append]
    exact List.rel_append hgives hlaterGives

/-- **A session never waits with work in hand, and never hoards bytes.** Whenever a session starts
to wait for bytes, in any mode, with any verbs, whatever it has received and in whatever pieces, and
whatever has become of the shared state meanwhile: its buffer is no longer than a frame may be, no
frame is complete anywhere in it, and no blank line is in front of it. What it has received divides,
in one way only, into frames and this buffer; each frame is within the limit, and the responses that
the session has written are one for each frame, in order, each as the server answers that frame. -/
theorem owes_nothing (h : Awaits server received events session) :
    session.buffer.length ≤ server.settings.maxFrameBytes ∧
      (∀ frame, IsFrameText frame → ¬ frame <:+: session.buffer) ∧
      (∀ l, IsBlankLine l → ¬ l <+: session.buffer) ∧
      ∃ frames, Divides received frames session.buffer ∧
        (∀ frames' rest, Divides received frames' rest →
          frames' = frames ∧ rest = session.buffer) ∧
        (∀ frame ∈ frames, frame.length ≤ server.settings.maxFrameBytes) ∧
        (responses events).length = frames.length ∧
        List.Forall₂ server.Gives frames (responses events) := by
  obtain ⟨frames, hdivides, hfits, hgives⟩ := h.divides
  refine ⟨h.waits.fits, fun _ => hdivides.no_frame, fun _ => hdivides.no_blankLine, frames,
    hdivides, fun _ _ h' => h'.unique hdivides, hfits, hgives.length_eq.symm, hgives⟩

/-- A blank line, a frame that is no request, a request, and the beginning of another, in two pieces
the first of which ends inside the first frame. -/
theorem owes_nothing_two_frames :
    let server : Server := ⟨{ sessionMode := .persistent }, .builtin⟩
    let state : ServerState := { supply := ⟨fun _ => "id", fun _ => "time", fun _ => 0, 0⟩ }
    let first := utf8 " \nX\n"
    let second := utf8 "\n\nPING CMIT/1.0\n\n\x7b\"topic\":\"t\"\x7d\n\nP"
    let opened := start server {} false state
    let waiting := resume server (.bytes first) opened.2.1 opened.2.2
    let further := resume server (.bytes second) waiting.2.1 waiting.2.2
    (waiting.2.1.buffer = utf8 "X\n" ∧ responses waiting.1 = []) ∧
      ∃ frames, Divides (first ++ second) frames (utf8 "P") ∧ frames.length = 2 ∧
        List.Forall₂ server.Gives frames (responses further.1) := by
  intro server state first second opened waiting further
  have hisOpen : opened.2.1.isOpen = true := by decide +kernel
  have hfirst : Awaits server first (opened.1 ++ waiting.1) waiting.2.1 :=
    .heard first opened.2.2 (.opened {} false state hisOpen) (by decide +kernel)
  rw [(start_of_isOpen hisOpen).1, List.nil_append] at hfirst
  have hsecond : Awaits server (first ++ second) (waiting.1 ++ further.1) further.2.1 :=
    .heard second waiting.2.2 hfirst (by decide +kernel)
  have hbuffers : waiting.2.1.buffer = utf8 "X\n" ∧ further.2.1.buffer = utf8 "P" := by
    decide +kernel
  have hcounts : (responses waiting.1).length = 0 ∧ (responses further.1).length = 2 := by
    decide +kernel
  have hnone : responses waiting.1 = [] := List.length_eq_zero_iff.mp hcounts.1
  obtain ⟨-, -, -, frames, hdivides, -, -, hlength, hgives⟩ := owes_nothing hsecond
  rw [responses_append, hnone, List.nil_append] at hlength hgives
  rw [hbuffers.2] at hdivides
  exact ⟨⟨hbuffers.1, hnone⟩, frames, hdivides, by rw [← hlength, hcounts.2], hgives⟩

end Session

end Courier
