import Courier.Proofs.Chunking
import Courier.Server.Session

/-!
# Steps of a session

What a session does with its buffer, case by case of what is cut from it and of whether its answer
is taken, and what it does with one arrival.
-/

namespace Courier

open Text Wire

/-- The arrival ends the waiting and brings no bytes. -/
def Arrival.IsEnd : Arrival → Prop
  | .bytes _ => False
  | .finished | .failed | .expired | .stopping | .abandoned => True

theorem Arrival.IsEnd.ne_bytes {arrival : Arrival} (h : arrival.IsEnd) (bs : Bytes) :
    arrival ≠ .bytes bs := by
  rintro rfl
  exact h

namespace Session

variable {server : Server} {session : Session} {state : ServerState} {rest : Bytes}

/-! ## One cut -/

theorem spend?_room {outlet : Outlet} (h : outlet.room = none) : outlet.spend? = some outlet := by
  simp [Outlet.spend?, h]

theorem finishWith_spent {outlet : Outlet} (hspend : session.outlet.spend? = some outlet)
    (response : Response) :
    finishWith response session state =
      ([.wrote response, .closed], { session with isOpen := false, outlet := outlet },
        { state with metrics := state.metrics.closeSession }) := by
  have hspend : (session.close state).2.1.outlet.spend? = some outlet := hspend
  unfold finishWith
  dsimp only
  split
  · rename_i hnone
    rw [hspend] at hnone
    cases hnone
  · rename_i outlet' hsome
    rw [hspend] at hsome
    obtain rfl := Option.some.inj hsome
    rfl

/-- A last answer that is not taken is tried as often as its fault allows. -/
theorem finishWith_unspent (hspend : session.outlet.spend? = none) (response : Response) :
    finishWith response session state =
      (List.replicate session.outlet.fault.attempts (.writeFailed session.outlet.fault) ++
          [.closed],
        { session with isOpen := false },
        { state with metrics := state.metrics.closeSession }) := by
  have hspend : (session.close state).2.1.outlet.spend? = none := hspend
  unfold finishWith
  dsimp only
  split
  · rfl
  · rename_i outlet' hsome
    rw [hspend] at hsome
    cases hsome

theorem drain_more (h : server.decoder.cut session.buffer = (.more, rest)) :
    session.drain server state = ([], { session with buffer := rest }, state) := by
  rw [drain]
  split <;> rename_i h' <;> cases h.symm.trans h'
  rfl

theorem drain_empty (outlet : Outlet) (state : ServerState) :
    drain server ⟨[], outlet, true⟩ state = ([], ⟨[], outlet, true⟩, state) :=
  drain_more (Decoder.cut_nil server.decoder)

/-- A persistent session goes on behind a frame whose answer is taken. -/
theorem drain_frame_spent {f : Frame} {outlet : Outlet}
    (hmode : server.settings.sessionMode = .persistent)
    (hspend : session.outlet.spend? = some outlet)
    (h : server.decoder.cut session.buffer = (.frame f, rest)) :
    session.drain server state =
      let answered := server.answerFrame f state
      let later := drain server { session with buffer := rest, outlet := outlet } answered.2
      (.wrote answered.1 :: later.1, later.2) := by
  rw [drain]
  split <;> rename_i h' <;> cases h.symm.trans h'
  simp only [hmode]
  split
  · rename_i hnone
    rw [hspend] at hnone
    cases hnone
  · rename_i outlet' hsome
    rw [hspend] at hsome
    obtain rfl := Option.some.inj hsome
    rfl

/-- A persistent session closes behind a frame whose answer is not taken. -/
theorem drain_frame_unspent {f : Frame} (hmode : server.settings.sessionMode = .persistent)
    (hspend : session.outlet.spend? = none)
    (h : server.decoder.cut session.buffer = (.frame f, rest)) :
    session.drain server state =
      finishWith (server.answerFrame f state).1 { session with buffer := rest }
        (server.answerFrame f state).2 := by
  rw [drain]
  split <;> rename_i h' <;> cases h.symm.trans h'
  simp only [hmode]
  split
  · rfl
  · rename_i outlet' hsome
    rw [hspend] at hsome
    cases hsome

theorem drain_frame {f : Frame} (hmode : server.settings.sessionMode = .persistent)
    (hroom : session.outlet.room = none)
    (h : server.decoder.cut session.buffer = (.frame f, rest)) :
    session.drain server state =
      (.wrote (server.answerFrame f state).1
          :: (drain server { session with buffer := rest } (server.answerFrame f state).2).1,
        (drain server { session with buffer := rest } (server.answerFrame f state).2).2) :=
  drain_frame_spent hmode (spend?_room hroom) h

/-- A single-shot session closes behind its one answer. -/
theorem drain_single {f : Frame} (hmode : server.settings.sessionMode = .singleShot)
    (h : server.decoder.cut session.buffer = (.frame f, rest)) :
    session.drain server state =
      finishWith (server.answerFrame f state).1 { session with buffer := rest }
        (server.answerFrame f state).2 := by
  rw [drain]
  split <;> rename_i h' <;> cases h.symm.trans h'
  simp only [hmode]

theorem drain_tooLarge {limit : Nat}
    (h : server.decoder.cut session.buffer = (.tooLarge limit, rest)) :
    session.drain server state =
      finishWith (Server.refuse (.payloadTooLarge limit) state).1 { session with buffer := rest }
        (Server.refuse (.payloadTooLarge limit) state).2 := by
  rw [drain]
  split <;> rename_i h' <;> cases h.symm.trans h'
  rfl

/-! ## One arrival -/

theorem follow_closed (h : session.isOpen = false) (arrivals : List Arrival) :
    follow server session state arrivals = ([], state) := by
  cases arrivals <;> simp [follow, h]

/-- What ends the waiting without bytes closes the session, whatever would come later. -/
theorem follow_ended {arrival : Arrival} (h : ∀ bs, arrival ≠ .bytes bs)
    (hopen : session.isOpen = true) (arrivals : List Arrival) :
    follow server session state (arrival :: arrivals) =
      ([[.closed]], { state with metrics := state.metrics.closeSession }) := by
  cases arrival with
  | bytes bs => exact absurd rfl (h bs)
  | _ => simp [follow, hopen, resume, close, follow_closed]

theorem follow_bytes {buffer : Bytes} {outlet : Outlet} (bs : Bytes) (arrivals : List Arrival) :
    follow server ⟨buffer, outlet, true⟩ state (.bytes bs :: arrivals) =
      let drained := drain server ⟨buffer ++ bs, outlet, true⟩ state
      (drained.1 :: (follow server drained.2.1 drained.2.2 arrivals).1,
        (follow server drained.2.1 drained.2.2 arrivals).2) := by
  rfl

/-- A session that nobody has asked to stop opens with an empty buffer and has written nothing. -/
theorem run_eq_follow (server : Server) (outlet : Outlet) (arrivals : List Arrival)
    (state : ServerState) :
    run server outlet false arrivals state =
      let opened := { state with metrics := state.metrics.openSession }
      ([] :: (follow server ⟨[], outlet, true⟩ opened arrivals).1,
        (follow server ⟨[], outlet, true⟩ opened arrivals).2) := by
  simp [run, start, drain_empty]

/-! ## What is written -/

def responses (events : List Event) : List Response := events.filterMap Event.response?

theorem responses_append (events more : List Event) :
    responses (events ++ more) = responses events ++ responses more :=
  List.filterMap_append

end Session

end Courier
