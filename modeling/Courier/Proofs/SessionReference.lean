import Courier.Proofs.SessionSteps
import Courier.Proofs.Streams

/-!
# What a persistent session writes

The reference for a session knows no buffer and no reads: it takes the frames of the stream one by
one, each as bytes of its own, and gives the answer that each calls for on the queue that those
before it have left (`Reference.answers`). A persistent session writes exactly these answers
(`run_eq_reference`), however its bytes are divided into reads.

A session refines the reference in two steps. What it writes for a buffer depends on the harvest of
the buffer only (`drain_harvest`), and harvests of a steady stream do not depend on the reads.
-/

namespace Courier

open Text Wire Frame

/-! ## The reference -/

namespace Reference

/-- The answer to bytes that are no request: it comes before any version is known and under an id,
a time and a topic of its own. -/
def malformed (failure : Failure) (supply : Supply) : Response :=
  ⟨"CMIT/1.0", .error, "Bad Request",
    ⟨some (supply.idAt supply.drawn), some (supply.timeAt (supply.drawn + 1)), "error.bad_request",
      some (.ofFields [("code", .string "BAD_REQUEST"), ("reason", .string failure.message)])⟩⟩

/-- The answer to a request in a version that is not served: it repeats the id, the time and the
topic of the request. -/
def unsupported (failure : Failure) (e : Envelope) : Response :=
  ⟨"CMIT/1.0", .error, "Unsupported Version",
    ⟨e.id, e.timestamp, e.topic,
      some (.ofFields
        [("code", .string "UNSUPPORTED_VERSION"), ("reason", .string failure.message)])⟩⟩

/-- The answer that a frame calls for, with the queue and the supply after it. -/
def answer (table : Table) (frame : Bytes) (queue : Queue) (supply : Supply) :
    Response × Queue × Supply :=
  match Request.parse frame with
  | .error failure => (malformed failure supply, queue, supply.next.next)
  | .ok r =>
      let (r, supply) := r.stamp supply
      match Version.check r.version with
      | .error failure => (unsupported failure r.envelope, queue, supply.next)
      | .ok _ =>
          let (response, queue) := table.dispatch r queue
          (response, queue, supply.next)

/-- The answers to frames one after another, and the queue that they leave. -/
def answers (table : Table) : List Bytes → Queue → Supply → List Response × Queue
  | [], queue, _ => ([], queue)
  | frame :: frames, queue, supply =>
      let (response, queue, supply) := answer table frame queue supply
      let (later, queue) := answers table frames queue supply
      (response :: later, queue)

theorem length_answers (table : Table) (frames : List Bytes) (queue : Queue) (supply : Supply) :
    (answers table frames queue supply).1.length = frames.length := by
  induction frames generalizing queue supply with
  | nil => rfl
  | cons frame frames ih => exact congrArg Nat.succ (ih _ _)

end Reference

/-! ## One frame -/

namespace Reference

theorem malformed_eq_unbound (cause : Malformed) (supply : Supply) :
    Response.unbound (.badRequest cause) supply
      = (malformed (.badRequest cause) supply, supply.next.next) := by
  rfl

theorem unsupported_eq_failure (cause : VersionFlaw) (e : Envelope) :
    Response.failure Version.default e (.unsupportedVersion cause)
      = unsupported (.unsupportedVersion cause) e := by
  rfl

/-- A server answers a whole frame as the reference does. -/
theorem answer_bytes {f : Frame} (hf : f.IsWhole) (server : Server) (state : ServerState) :
    answer server.table f.bytes state.queue state.supply
      = ((server.answerFrame f state).1, (server.answerFrame f state).2.queue,
          (server.answerFrame f state).2.supply) := by
  unfold answer Server.answerFrame
  rw [Request.parse_bytes hf]
  cases hread : f.toRequest with
  | error failure =>
    obtain ⟨cause, rfl⟩ := toRequest_error hread
    simp [Server.refuse, malformed_eq_unbound]
  | ok r =>
    simp only [Server.answer, Server.respond, Supply.drawLapse]
    cases hversion : Version.check (r.stamp state.supply).1.version with
    | error failure =>
      obtain ⟨cause, rfl⟩ := Version.check_error hversion
      simp [unsupported_eq_failure]
    | ok version => rfl

end Reference

/-! ## One buffer -/

namespace Server

def answerAll (server : Server) : List Frame → ServerState → List Response × ServerState
  | [], state => ([], state)
  | f :: frames, state =>
      let (response, state) := server.answerFrame f state
      let (later, state) := server.answerAll frames state
      (response :: later, state)

theorem answerAll_append (server : Server) (frames more : List Frame) (state : ServerState) :
    server.answerAll (frames ++ more) state =
      ((server.answerAll frames state).1
          ++ (server.answerAll more (server.answerAll frames state).2).1,
        (server.answerAll more (server.answerAll frames state).2).2) := by
  induction frames generalizing state with
  | nil => rfl
  | cons f frames ih =>
    simp only [List.cons_append, answerAll, ih]

theorem answers_bytes {frames : List Frame} (h : ∀ f ∈ frames, f.IsWhole) (server : Server)
    (state : ServerState) :
    Reference.answers server.table (frames.map Frame.bytes) state.queue state.supply
      = ((server.answerAll frames state).1, (server.answerAll frames state).2.queue) := by
  induction frames generalizing state with
  | nil => rfl
  | cons f frames ih =>
    have hf := Reference.answer_bytes (h f (by simp)) server state
    have ih := ih (fun g hg => h g (by simp [hg])) (server.answerFrame f state).2
    simp only [List.map_cons, Reference.answers, hf, ih, answerAll]

end Server

namespace Session

variable {server : Server} {session : Session} {state : ServerState}

/-- **What a session writes for its buffer is the answers to the harvest**, unless some of the
buffer is refused. -/
theorem drain_harvest (hmode : server.settings.sessionMode = .persistent)
    (hroom : session.outlet.room = none)
    (h : (server.decoder.harvest session.buffer).refused = none) :
    session.drain server state =
      ((server.answerAll (server.decoder.harvest session.buffer).frames state).1.map .wrote,
        { session with buffer := (server.decoder.harvest session.buffer).rest },
        (server.answerAll (server.decoder.harvest session.buffer).frames state).2) := by
  obtain ⟨buffer, outlet, isOpen⟩ := session
  dsimp only at hroom h ⊢
  fun_induction Decoder.harvest server.decoder buffer generalizing state with
  | case1 buffer f rest hcut _ later =>
    rename_i ih
    rw [drain_frame hmode hroom hcut, ih h]
    rfl
  | case2 buffer limit rest hcut => simp at h
  | case3 buffer rest hcut =>
    rw [drain_more hcut]
    rfl

/-! ## One read after another -/

/-- In a steady stream that is not refused, the answers to the harvest of the whole are written,
wherever the reads divide it; `buffer` is what earlier reads have left. -/
theorem follow_chunks (hmode : server.settings.sessionMode = .persistent) (outlet : Outlet)
    (hroom : outlet.room = none) (state : ServerState) (buffer : Bytes) (chunks : List Bytes)
    (hrest : server.decoder.harvest buffer = ⟨[], none, buffer⟩)
    (hsteady : server.decoder.isSteady (buffer ++ chunks.flatten) = true)
    (hwhole : (server.decoder.harvest (buffer ++ chunks.flatten)).refused = none) :
    let frames := (server.decoder.harvest (buffer ++ chunks.flatten)).frames
    let run := follow server ⟨buffer, outlet, true⟩ state (chunks.map .bytes ++ [.finished])
    run.1.flatten = (server.answerAll frames state).1.map .wrote ++ [.closed] ∧
      run.2.queue = (server.answerAll frames state).2.queue := by
  induction chunks generalizing buffer state with
  | nil =>
    rw [List.flatten_nil, List.append_nil, hrest]
    exact ⟨rfl, rfl⟩
  | cons chunk chunks ih =>
    rw [List.flatten_cons, ← List.append_assoc] at hsteady hwhole ⊢
    have hchunk := Decoder.refused_front hsteady hwhole
    rw [Decoder.harvest_append hchunk] at hwhole ⊢
    obtain ⟨hevents, hqueue⟩ := ih _ _ (Decoder.harvest_rest hchunk)
      (Decoder.isSteady_append_more hsteady hchunk) hwhole
    rw [List.map_cons, List.cons_append, follow_bytes, drain_harvest hmode hroom hchunk]
    dsimp only
    rw [List.flatten_cons, hevents, hqueue, Server.answerAll_append]
    simp

/-- **A persistent session writes what the reference writes.** The stream is laid out as complete
frames, well-formed or not, with blank lines between them, and an incomplete rest, none of them
beyond the limit on frames. However its bytes are divided into reads, each frame gets the answer
that it calls for, in order, on the queue left by those before it, and then the session closes. -/
theorem run_eq_reference (server : Server) (state : ServerState) (layout : Layout) (tail : Bytes)
    (chunks : List Bytes) (hmode : server.settings.sessionMode = .persistent)
    (hlayout : layout.IsProper)
    (hframes : ∀ f ∈ layout.frames, f.bytes.length ≤ server.settings.maxFrameBytes)
    (hblank : ∀ p ∈ layout, ∀ l ∈ p.1, l.length ≤ server.settings.maxFrameBytes)
    (htail : locate? (skipBlankLines tail) = none)
    (hsize : tail.length ≤ server.settings.maxFrameBytes)
    (hchunks : chunks.flatten = layout.bytes ++ tail) :
    let reference :=
      Reference.answers server.table (layout.frames.map Frame.bytes) state.queue state.supply
    let run := run server {} false (chunks.map .bytes ++ [.finished]) state
    reference.1.length = layout.length ∧
      run.1.flatten = reference.1.map .wrote ++ [.closed] ∧ run.2.queue = reference.2 := by
  have within : ∀ {size}, size ≤ server.settings.maxFrameBytes →
      server.decoder.exceeded? size = none := by
    intro size hle
    rw [Decoder.exceeded?_eq_none_iff]
    rintro limit ⟨⟩
    exact hle
  have hproper : ∀ f ∈ layout.frames, f.IsWhole := by
    intro f hf
    obtain ⟨p, hp, rfl⟩ := List.mem_map.mp hf
    exact (hlayout p hp).2
  have hfits : ∀ f ∈ layout.frames, server.decoder.exceeded? f.size = none :=
    fun f hf => within (hframes f hf)
  obtain ⟨hrest, hsteady⟩ := Decoder.harvest_incomplete htail (within hsize)
  have hharvest := Decoder.harvest_layout hlayout hfits tail
  have hsteady := Decoder.isSteady_layout hlayout hfits
    (fun p hp l hl => within (Nat.le_trans (Nat.sub_le _ _) (hblank p hp l hl))) hsteady
  rw [hrest, List.append_nil, ← hchunks] at hharvest
  rw [← hchunks] at hsteady
  -- the session answers the harvest of the stream, and the harvest is the frames of the layout
  have hfollow := follow_chunks hmode {} rfl { state with metrics := state.metrics.openSession } []
    chunks (Decoder.harvest_more (Decoder.cut_nil _)) hsteady (by rw [List.nil_append, hharvest])
  rw [List.nil_append, hharvest] at hfollow
  obtain ⟨hevents, hqueue⟩ := hfollow
  have hanswers := Server.answers_bytes hproper server
    { state with metrics := state.metrics.openSession }
  dsimp only at hanswers
  rw [hanswers, run_eq_follow]
  refine ⟨?_, ?_, ?_⟩
  · have := Reference.length_answers server.table (layout.frames.map Frame.bytes) state.queue
      state.supply
    rw [hanswers] at this
    simpa [Layout.frames] using this
  · simpa using hevents
  · simpa using hqueue

/-- A frame that is no request, a request, and the beginning of another, read in two parts. -/
theorem run_eq_reference_two_frames :
    let server : Server := ⟨{ sessionMode := .persistent }, .builtin⟩
    let state : ServerState := { supply := ⟨fun _ => "id", fun _ => "time", fun _ => 0, 0⟩ }
    let frames : List Frame := [⟨[88], [10], [10], [], [10]⟩,
      ⟨utf8 "PING CMIT/1.0", [10], [10], utf8 "\x7b\"topic\":\"t\"\x7d\n", [10]⟩]
    let stream := Layout.bytes [([[32, 10]], frames[0]), ([], frames[1])] ++ [80]
    let reference :=
      Reference.answers server.table (frames.map Frame.bytes) state.queue state.supply
    let run :=
      run server {} false ([stream.take 9, stream.drop 9].map .bytes ++ [.finished]) state
    reference.1.length = 2 ∧
      run.1.flatten = reference.1.map .wrote ++ [.closed] ∧ run.2.queue = reference.2 := by
  intro server state frames stream
  apply run_eq_reference server state [([[32, 10]], frames[0]), ([], frames[1])] [80]
  · rfl
  · intro p hp
    simp only [List.mem_cons, List.not_mem_nil, or_false] at hp
    rcases hp with rfl | rfl
    · refine ⟨?_, by decide +kernel, by decide +kernel⟩
      intro l hl
      obtain rfl := List.mem_singleton.mp hl
      exact ⟨[32], by decide⟩
    · exact ⟨by simp, by decide +kernel, by decide +kernel⟩
  · decide +kernel
  · decide +kernel
  · decide +kernel
  · decide +kernel
  · simp [stream]

end Session

end Courier
