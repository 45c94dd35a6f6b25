import Courier.Proofs.SessionAttempts
import Courier.Proofs.Streams

/-!
# One session for many frames, or one for each

Frames may be sent over one persistent session or divided among single-shot sessions, one for each
frame. They are answered alike: what an answer depends on is passed from frame to frame in the state
of the server, and a session keeps nothing for itself but the bytes that it has not taken. The two
ways may take different times, so that the states are not equal but alike (`ServerState.Alike`), and
answering keeps them so (`alike_answerAttempt`).

Main statement: `modes_agree`.
-/

namespace Courier

open Text Wire Frame Metrics

/-! ## States that differ in times taken -/

/-- The states differ in nothing but how long things take and took, and in the number of open
sessions. -/
structure ServerState.Alike (s t : ServerState) : Prop where
  queue : s.queue = t.queue
  supply : ∃ lapseAt, t.supply = { s.supply with lapseAt := lapseAt }
  requests : s.metrics.requests = t.metrics.requests
  decodeErrors : s.metrics.decodeErrors = t.metrics.decodeErrors
  counts : ∀ labels, (Family.get? labels s.metrics.durations).map (·.count) =
    (Family.get? labels t.metrics.durations).map (·.count)

theorem ServerState.Alike.withSessions {s t : ServerState} (h : s.Alike t) (m n : Family Int64) :
    ServerState.Alike { s with metrics := { s.metrics with sessions := m } }
      { t with metrics := { t.metrics with sessions := n } } :=
  ⟨h.queue, h.supply, h.requests, h.decodeErrors, h.counts⟩

theorem Request.stamp_lapseAt (r : Request) (supply : Supply) (lapseAt : Nat → Nat) :
    r.stamp { supply with lapseAt := lapseAt } =
      ((r.stamp supply).1, { (r.stamp supply).2 with lapseAt := lapseAt }) := by
  obtain ⟨verb, version, id, timestamp, topic, payload⟩ := r
  cases id <;> cases timestamp <;> rfl

theorem Metrics.count_observe (labels verb : Labels) (nanos : Nat) (f : Family Histogram) :
    (Family.get? labels (observe verb nanos f)).map (·.count) =
      if labels = verb then some (((Family.get? verb f).map (·.count)).getD 0 + 1)
      else (Family.get? labels f).map (·.count) := by
  unfold observe
  split
  · rename_i h
    rw [h, Family.get?_update_self, Option.map_some]
    cases Family.get? verb f <;> rfl
  · rename_i h
    rw [Family.get?_update_of_ne h]

namespace Server

variable {s t : ServerState}

theorem answer_eq (server : Server) (r : Request) (state : ServerState) :
    server.answer r state =
      let stamped := r.stamp state.supply
      let responded := server.respond stamped.1 state.queue
      (responded.1, ⟨responded.2,
        state.metrics.countRequest (server.verbLabel stamped.1.verb) responded.1.status.token
          (stamped.2.lapseAt stamped.2.drawn),
        stamped.2.next⟩) := rfl

theorem alike_answerAttempt (server : Server) (h : s.Alike t) (attempt : Except Failure Request) :
    (server.answerAttempt attempt s).1 = (server.answerAttempt attempt t).1 ∧
      (server.answerAttempt attempt s).2.Alike (server.answerAttempt attempt t).2 := by
  obtain ⟨hqueue, ⟨lapseAt, hsupply⟩, hrequests, hdecode, hcounts⟩ := h
  cases attempt with
  | error failure =>
    simp only [answerAttempt, refuse, hsupply]
    refine ⟨rfl, hqueue, ⟨lapseAt, rfl⟩, hrequests, ?_, hcounts⟩
    exact congrArg (addTo _ 1) hdecode
  | ok r =>
    simp only [answerAttempt, answer_eq, hsupply, Request.stamp_lapseAt, hqueue]
    refine ⟨trivial, rfl, ⟨lapseAt, rfl⟩, ?_, hdecode, ?_⟩
    · exact congrArg (addTo _ 1) hrequests
    · intro labels
      simp only [countRequest, count_observe, hcounts]

end Server

/-! ## Sessions -/

namespace Server

def inMode (server : Server) (mode : SessionMode) : Server :=
  { server with settings := { server.settings with sessionMode := mode } }

theorem answerAttempts_inMode (server : Server) (mode : SessionMode)
    (attempts : List (Except Failure Request)) (state : ServerState) :
    (server.inMode mode).answerAttempts attempts state = server.answerAttempts attempts state := by
  induction attempts generalizing state with
  | nil => rfl
  | cons attempt later ih =>
    have hanswer : (server.inMode mode).answerAttempt attempt state =
        server.answerAttempt attempt state := by
      cases attempt <;> rfl
    simp only [answerAttempts, hanswer, ih]

end Server

namespace Session

variable {server : Server} {frames : List Frame} {s t : ServerState}

/-- The pieces arrive one after another, and then the end of the stream. -/
def arriving (pieces : List Bytes) : List Arrival := pieces.map .bytes ++ [.finished]

/-- Sessions one after another, each with arrivals of its own: what happened in each. -/
def runAll (server : Server) : List (List Arrival) → ServerState → List (List Event) × ServerState
  | [], state => ([], state)
  | arrivals :: later, state =>
      let (events, state) := run server {} false arrivals state
      let (rest, state) := runAll server later state
      (events.flatten :: rest, state)

theorem chunks_arriving (pieces : List Bytes) : chunks (arriving pieces) = pieces := by
  have hend : Arrival.IsEnd .finished := trivial
  exact chunks_end hend pieces []

/-- The frames of a stream are what its reads give, wherever these divide it. -/
theorem given_arriving (hframes : ∀ f ∈ frames, f.IsWhole ∧ f.size ≤ server.settings.maxFrameBytes)
    {pieces : List Bytes} (hpieces : pieces.flatten = frames.flatMap Frame.bytes) :
    given server false (arriving pieces) = frames.map Frame.toRequest := by
  have hproper := Layout.isProper_ofFrames fun f hf => (hframes f hf).1
  have hsize : ∀ f ∈ (Layout.ofFrames frames).frames, server.decoder.exceeded? f.size = none := by
    intro f hf
    rw [Layout.frames_ofFrames] at hf
    exact Decoder.exceeded?_of_le (hframes f hf).2
  have hempty := Decoder.harvest_more (Decoder.cut_nil server.decoder)
  have hnone : locate? (skipBlankLines []) = none := by decide +kernel
  have hsteady := (Decoder.harvest_incomplete (d := server.decoder) hnone
    (Decoder.exceeded?_of_le (Nat.zero_le _))).2
  have hharvest := Decoder.harvest_layout hproper hsize []
  have hsteady := Decoder.isSteady_layout hproper hsize (by simp [Layout.ofFrames]) hsteady
  rw [List.append_nil, Layout.bytes_ofFrames, ← hpieces] at hharvest hsteady
  rw [given, if_neg (by simp), chunks_arriving,
    Decoder.takeChunks_of_isSteady Decoder.isRefusal_toRequest hempty hsteady,
    List.nil_append, hharvest, hempty, Layout.frames_ofFrames]
  simp [Decoder.Harvest.results]

/-! ## Both ways -/

theorem run_persistent (hframes : ∀ f ∈ frames, f.IsWhole ∧ f.size ≤ server.settings.maxFrameBytes)
    {pieces : List Bytes} (hpieces : pieces.flatten = frames.flatMap Frame.bytes)
    (state : ServerState) :
    let ran := run (server.inMode .persistent) {} false (arriving pieces) state
    let answered := server.answerAttempts (frames.map Frame.toRequest)
      { state with metrics := state.metrics.openSession }
    responses ran.1.flatten = answered.1 ∧ ran.2 = closedState answered.2 := by
  have hgiven : given (server.inMode .persistent) false (arriving pieces) =
      frames.map Frame.toRequest := given_arriving hframes hpieces
  have hrun := run_answers (server.inMode .persistent) {} false (arriving pieces) state
  rw [attempts, hgiven, Server.answerAttempts_inMode] at hrun
  exact hrun

theorem run_singleShot {f : Frame} (hf : f.IsWhole ∧ f.size ≤ server.settings.maxFrameBytes)
    {pieces : List Bytes} (hpieces : pieces.flatten = f.bytes) (state : ServerState) :
    let ran := run (server.inMode .singleShot) {} false (arriving pieces) state
    let answered := server.answerAttempt f.toRequest
      { state with metrics := state.metrics.openSession }
    responses ran.1.flatten = [answered.1] ∧ ran.2 = closedState answered.2 := by
  have hgiven : given (server.inMode .singleShot) false (arriving pieces) =
      [f].map Frame.toRequest := by
    apply given_arriving
    · intro g hg
      rw [List.mem_singleton.mp hg]
      exact hf
    · rw [hpieces, List.flatMap_singleton]
  have hrun := run_answers (server.inMode .singleShot) {} false (arriving pieces) state
  rw [attempts, hgiven, Server.answerAttempts_inMode] at hrun
  exact hrun

/-- **Single-shot sessions answer frames as they are answered one after another**, each session with
one response. -/
theorem runAll_singleShot (h : s.Alike t)
    (hframes : ∀ f ∈ frames, f.IsWhole ∧ f.size ≤ server.settings.maxFrameBytes)
    {divisions : List (List Bytes)}
    (hdivisions : divisions.map List.flatten = frames.map Frame.bytes) :
    let ran := runAll (server.inMode .singleShot) (divisions.map arriving) t
    let answered := server.answerAttempts (frames.map Frame.toRequest) s
    ran.1.map responses = answered.1.map ([·]) ∧ answered.2.Alike ran.2 := by
  induction frames generalizing divisions s t with
  | nil =>
    obtain rfl := List.map_eq_nil_iff.mp hdivisions
    exact ⟨rfl, h⟩
  | cons f frames ih =>
    obtain ⟨pieces, divisions, rfl, hpieces, hdivisions⟩ := List.map_eq_cons_iff.mp hdivisions
    obtain ⟨hf, hframes⟩ := List.forall_mem_cons.mp hframes
    obtain ⟨hwritten, hstate⟩ := run_singleShot hf hpieces t
    have hopened : s.Alike { t with metrics := t.metrics.openSession } := h.withSessions _ _
    obtain ⟨hresponse, hnext⟩ := server.alike_answerAttempt hopened f.toRequest
    have hclosed : (server.answerAttempt f.toRequest s).2.Alike
        (run (server.inMode .singleShot) {} false (arriving pieces) t).2 := by
      rw [hstate]
      exact hnext.withSessions _ _
    obtain ⟨hlater, hlast⟩ := ih hclosed hframes hdivisions
    refine ⟨?_, hlast⟩
    simp only [List.map_cons, runAll, Server.answerAttempts, hwritten, hlater, hresponse]

/-! ## At most one dispatch -/

end Session

/-- The requests that a server hands to its table: those of a version that is served. -/
def dispatched : List (Except Failure Request) → List Request
  | [] => []
  | .error _ :: later => dispatched later
  | .ok r :: later =>
      if (Version.check r.version).isOk then r :: dispatched later else dispatched later

theorem length_dispatched (asked : List (Except Failure Request)) :
    (dispatched asked).length ≤ asked.length := by
  induction asked with
  | nil => exact Nat.le_refl _
  | cons attempt later ih =>
    cases attempt with
    | error failure => exact Nat.le_succ_of_le ih
    | ok r =>
      rw [dispatched]
      split
      · exact Nat.succ_le_succ ih
      · exact Nat.le_succ_of_le ih

namespace Server

/-- The queue after some attempts is what the dispatches among them have made of it. -/
theorem queue_answerAttempts (server : Server) (attempts : List (Except Failure Request))
    (state : ServerState) :
    (server.answerAttempts attempts state).2.queue =
      (dispatched (stampAttempts attempts state.supply)).foldl
        (fun q r => (server.table.dispatch r q).2) state.queue := by
  induction attempts generalizing state with
  | nil => rfl
  | cons attempt later ih =>
    rw [stampAttempts_cons server]
    have hlater := ih (server.answerAttempt attempt state).2
    cases attempt with
    | error failure => exact hlater
    | ok asked =>
      refine hlater.trans ?_
      show _ = (dispatched (.ok (asked.stamp state.supply).1 :: _)).foldl _ state.queue
      rw [show (server.answerAttempt (.ok asked) state).2.queue = _ from
        respond_queue server (asked.stamp state.supply).1 state.queue, dispatched]
      split <;> rfl

end Server

namespace Session

theorem length_attempts_singleShot (server : Server) (outlet : Outlet) (stopping : Bool)
    (arrivals : List Arrival) :
    (attempts (server.inMode .singleShot) outlet stopping arrivals).length ≤ 1 :=
  List.length_take_le 1 _

/-- **The modes of sessions agree.** Let frames, well-formed or not, be sent to one persistent
session in any pieces, or each frame in any pieces to a single-shot session of its own, in the same
order and on states that are alike. The single-shot sessions write one response each, and these are
the responses of the persistent session in order; the states are alike again, with the same queue,
the same counts of requests and of refused frames, and as many dispatches counted under each verb.
Whatever is sent to a single-shot session, and however it ends, it writes at most one response and
hands at most one request to the table, which is all that happens to the queue. -/
theorem modes_agree :
    (∀ (server : Server) (state other : ServerState) (frames : List Frame) (pieces : List Bytes)
      (divisions : List (List Bytes)),
      state.Alike other →
      (∀ f ∈ frames, f.IsWhole ∧ f.size ≤ server.settings.maxFrameBytes) →
      pieces.flatten = frames.flatMap Frame.bytes →
      divisions.map List.flatten = frames.map Frame.bytes →
      let one := run (server.inMode .persistent) {} false (arriving pieces) state
      let each := runAll (server.inMode .singleShot) (divisions.map arriving) other
      each.1.map responses = (responses one.1.flatten).map ([·]) ∧ one.2.Alike each.2) ∧
    ∀ (server : Server) (outlet : Outlet) (stopping : Bool) (arrivals : List Arrival)
      (state : ServerState),
      let ran := run (server.inMode .singleShot) outlet stopping arrivals state
      let handed := dispatched (stampAttempts
        (attempts (server.inMode .singleShot) outlet stopping arrivals) state.supply)
      (responses ran.1.flatten).length ≤ 1 ∧ handed.length ≤ 1 ∧
        ran.2.queue = handed.foldl (fun q r => (server.table.dispatch r q).2) state.queue := by
  constructor
  · intro server state other frames pieces divisions halike hframes hpieces hdivisions
    obtain ⟨hwritten, hstate⟩ := run_persistent hframes hpieces state
    have hopened : ServerState.Alike { state with metrics := state.metrics.openSession } other :=
      halike.withSessions _ _
    obtain ⟨heach, hlast⟩ := runAll_singleShot hopened hframes hdivisions
    refine ⟨?_, ?_⟩
    · rw [hwritten]
      exact heach
    · rw [hstate]
      exact hlast.withSessions _ _
  · intro server outlet stopping arrivals state
    have hattempts := length_attempts_singleShot server outlet stopping arrivals
    obtain ⟨hwritten, hstate⟩ :=
      run_answers (server.inMode .singleShot) outlet stopping arrivals state
    refine ⟨?_, ?_, ?_⟩
    · rw [hwritten]
      refine Nat.le_trans (length_within outlet _) ?_
      rw [Server.length_answerAttempts]
      exact hattempts
    · refine Nat.le_trans (length_dispatched _) ?_
      rw [length_stampAttempts]
      exact hattempts
    · rw [hstate]
      exact Server.queue_answerAttempts _ _ _

/-- A frame that is no request and one that asks for work without an id, in pieces. -/
theorem modes_agree_two_frames :
    let server : Server := ⟨{}, .builtin⟩
    let state : ServerState := { supply := ⟨Decimal.numeral, Decimal.numeral, fun _ => 0, 0⟩ }
    let other := { state with supply := { state.supply with lapseAt := fun n => n * 1000000 } }
    let frames : List Frame := [⟨[88], [10], [10], [], [10]⟩,
      ⟨utf8 "EXECUTE CMIT/1.0", [10], [10], utf8 "\x7b\"topic\":\"t\"\x7d\n", [10]⟩]
    let stream := frames.flatMap Frame.bytes
    let one := run (server.inMode .persistent) {} false
      (arriving [stream.take 9, stream.drop 9]) state
    let divisions : List (List Bytes) := [[[88], [10, 10, 10]], [(frames.map Frame.bytes)[1]]]
    let each := runAll (server.inMode .singleShot) (divisions.map arriving) other
    (responses one.1.flatten).length = 2 ∧ one.2.queue.length = 1 ∧
      each.1.map responses = (responses one.1.flatten).map ([·]) ∧ one.2.Alike each.2 := by
  intro server state other frames stream one divisions each
  refine ⟨by decide +kernel, by decide +kernel, ?_⟩
  apply modes_agree.1 server state other frames
  · exact ⟨rfl, ⟨_, rfl⟩, rfl, rfl, fun _ => rfl⟩
  · intro f hf
    simp only [frames, List.mem_cons, List.not_mem_nil, or_false] at hf
    rcases hf with rfl | rfl
    · exact ⟨⟨by decide +kernel, by decide +kernel⟩, by decide +kernel⟩
    · exact ⟨⟨by decide +kernel, by decide +kernel⟩, by decide +kernel⟩
  · simp [stream]
  · rfl

end Session

end Courier
