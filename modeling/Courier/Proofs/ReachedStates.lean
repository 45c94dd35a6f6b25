import Courier.Proofs.SessionAttempts

/-!
# States that sessions lead to

The sessions of a server may take turns at each of their steps, while others do to its queue and to
its supply what they like. The states that come of this are told with what has been counted on the
way (`Server.Reaches`), and whatever a session does on one of them, opening, hearing something or
running to its end, leads to another.
-/

namespace Courier

open Text Wire Metrics

/-! ## What an attempt comes to -/

/-- What an attempt at a request can come to. -/
inductive Decoder.IsResult : Except Failure Request → Prop
  | decoded (r : Request) : IsResult (.ok r)
  | malformed (cause : Malformed) : IsResult (.error (.badRequest cause))
  | refused (limit : Nat) : IsResult (.error (.payloadTooLarge limit))

theorem Decoder.isResult_toRequest (f : Frame) : IsResult f.toRequest := by
  cases hread : f.toRequest with
  | ok r => exact .decoded r
  | error failure =>
    obtain ⟨cause, rfl⟩ := Frame.toRequest_error hread
    exact .malformed cause

/-- What a server counts: a request by its verb and the status of its answer, or a frame that it
refuses by the code of the failure. -/
inductive Counted where
  | request (verb status : String)
  | refusal (code : String)

namespace Server

variable {server : Server} {history : List Counted} {state : ServerState}

def counted (server : Server) : Except Failure Request → Response → Counted
  | .ok r, response => .request (server.verbLabel r.verb) response.status.token
  | .error failure, _ => .refusal failure.code.name

/-! ## The states -/

/-- States of a server whose metrics are updated only by its sessions, with what they have counted.
Sessions open and close and answer attempts, in any order; others may do to the queue and to the
supply what they like. -/
inductive Reaches (server : Server) : List Counted → ServerState → Prop
  | fresh (queue : Queue) (supply : Supply) : Reaches server [] ⟨queue, {}, supply⟩
  | opened {history : List Counted} {state : ServerState} : Reaches server history state →
      Reaches server history { state with metrics := state.metrics.openSession }
  | closed {history : List Counted} {state : ServerState} : Reaches server history state →
      Reaches server history (Session.closedState state)
  | answered {history : List Counted} {state : ServerState} {attempt : Except Failure Request}
      (hattempt : Decoder.IsResult attempt) : Reaches server history state →
      Reaches server
        (history ++ [server.counted attempt (server.answerAttempt attempt state).1])
        (server.answerAttempt attempt state).2
  | elsewhere {history : List Counted} {state : ServerState} (queue : Queue) (supply : Supply) :
      Reaches server history state →
      Reaches server history { state with queue := queue, supply := supply }

namespace Reaches

theorem stay (h : server.Reaches history state) : ∃ own, server.Reaches (history ++ own) state :=
  ⟨[], (List.append_nil history).symm ▸ h⟩

theorem finishWith (h : server.Reaches history state) (response : Response) (session : Session) :
    server.Reaches history (Session.finishWith response session state).2.2 := by
  cases hspend : session.outlet.spend? with
  | none =>
    rw [Session.finishWith_unspent hspend]
    exact h.closed
  | some outlet =>
    rw [Session.finishWith_spent hspend]
    exact h.closed

/-- Whatever stands in its buffer, a session leads on. -/
theorem drain (h : server.Reaches history state) (session : Session) :
    ∃ own, server.Reaches (history ++ own) (session.drain server state).2.2 := by
  obtain ⟨buffer, outlet, isOpen⟩ := session
  -- the induction is on the frames that are cut from the buffer
  fun_induction Decoder.harvest server.decoder buffer generalizing history state outlet with
  | case1 buffer f rest hcut _ later =>
    rename_i ih
    have hnext := h.answered (Decoder.isResult_toRequest f)
    cases hmode : server.settings.sessionMode with
    | singleShot =>
      rw [Session.drain_single hmode hcut, answerFrame_eq_answerAttempt]
      exact ⟨_, hnext.finishWith _ _⟩
    | persistent =>
      cases hspend : outlet.spend? with
      | none =>
        rw [Session.drain_frame_unspent hmode hspend hcut, answerFrame_eq_answerAttempt]
        exact ⟨_, hnext.finishWith _ _⟩
      | some outlet' =>
        rw [Session.drain_frame_spent hmode hspend hcut, answerFrame_eq_answerAttempt]
        obtain ⟨own, hown⟩ := ih hnext outlet'
        exact ⟨_ :: own, List.append_cons history _ own ▸ hown⟩
  | case2 buffer limit rest hcut =>
    rw [Session.drain_tooLarge hcut]
    exact ⟨_, (h.answered (.refused limit)).finishWith _ _⟩
  | case3 buffer rest hcut =>
    rw [Session.drain_more hcut]
    exact h.stay

theorem start (h : server.Reaches history state) (outlet : Outlet) (stopping : Bool) :
    server.Reaches history (Session.start server outlet stopping state).2.2 := by
  cases stopping with
  | false =>
    simp only [Session.start, Session.drain_empty]
    exact h.opened
  | true =>
    simp only [Session.start, Session.drain_empty]
    exact h.opened.closed

theorem resume (h : server.Reaches history state) (arrival : Arrival) (session : Session) :
    ∃ own, server.Reaches (history ++ own) (Session.resume server arrival session state).2.2 := by
  cases arrival with
  | bytes bs => exact h.drain _
  | _ => exact h.closed.stay

theorem follow (h : server.Reaches history state) (session : Session) (arrivals : List Arrival) :
    ∃ own, server.Reaches (history ++ own) (session.follow server state arrivals).2 := by
  induction arrivals generalizing history state session with
  | nil =>
    unfold Session.follow
    split
    · exact h.resume .finished session
    · exact h.stay
  | cons arrival arrivals ih =>
    unfold Session.follow
    split
    · obtain ⟨own, hown⟩ := h.resume arrival session
      obtain ⟨more, hmore⟩ := ih hown _
      exact ⟨own ++ more, List.append_assoc history own more ▸ hmore⟩
    · exact h.stay

theorem run (h : server.Reaches history state) (outlet : Outlet) (stopping : Bool)
    (arrivals : List Arrival) :
    ∃ own, server.Reaches (history ++ own)
      (Session.run server outlet stopping arrivals state).2 :=
  (h.start outlet stopping).follow _ arrivals

end Reaches

end Server

end Courier
