import Courier.Proofs.SessionModes

/-!
# How sessions end

A session that waits for bytes holds less than a frame (`Waits`), whatever it has heard. What ends
the waiting without bytes may be the end of the stream or a failure, a time limit, or a server that
stops: the session closes, once, and does nothing else (`run_heard`). So all these ends have the
same outcome, and what would come behind them has none (`ends_agree`).
-/

namespace Courier

open Text Wire

namespace Session

variable {server : Server} {session : Session} {state : ServerState}

/-! ## What a session has heard -/

/-- What a session has done when pieces have come one after another, divided by them, and what has
become of it. A session that has closed hears no more. -/
def hear (server : Server) (session : Session) (state : ServerState) :
    List Bytes → List (List Event) × Session × ServerState
  | [] => ([], session, state)
  | piece :: pieces =>
      if session.isOpen then
        let (events, session, state) := resume server (.bytes piece) session state
        let (later, session, state) := hear server session state pieces
        (events :: later, session, state)
      else ([], session, state)

theorem hear_closed (h : session.isOpen = false) (pieces : List Bytes) :
    hear server session state pieces = ([], session, state) := by
  cases pieces <;> simp [hear, h]

theorem hear_bytes {buffer : Bytes} {outlet : Outlet} (piece : Bytes) (pieces : List Bytes) :
    hear server ⟨buffer, outlet, true⟩ state (piece :: pieces) =
      let drained := drain server ⟨buffer ++ piece, outlet, true⟩ state
      let heard := hear server drained.2.1 drained.2.2 pieces
      (drained.1 :: heard.1, heard.2) := by
  rfl

theorem follow_append (session : Session) (state : ServerState) (pieces : List Bytes)
    (arrivals : List Arrival) :
    follow server session state (pieces.map .bytes ++ arrivals) =
      let heard := hear server session state pieces
      let later := follow server heard.2.1 heard.2.2 arrivals
      (heard.1 ++ later.1, later.2) := by
  induction pieces generalizing session state with
  | nil => rfl
  | cons piece pieces ih =>
    cases hopen : session.isOpen with
    | false =>
      -- neither the pieces nor what comes behind them is waited for
      simp only [follow_closed hopen, hear_closed hopen, List.append_nil]
    | true =>
      obtain ⟨buffer, outlet, isOpen⟩ := session
      obtain rfl : isOpen = true := hopen
      rw [List.map_cons, List.cons_append, follow_bytes, hear_bytes]
      dsimp only
      rw [ih]
      rfl

/-! ## Waiting -/

/-- The session is open and cannot go on without more bytes: it holds no frame and no blank line in
front of one, and no more than a frame may have. -/
structure Waits (server : Server) (session : Session) : Prop where
  isOpen : session.isOpen = true
  incomplete : Frame.locate? session.buffer = none
  noBlankLine : Frame.skipBlankLines session.buffer = session.buffer
  fits : session.buffer.length ≤ server.settings.maxFrameBytes

theorem waits_of_cut {buffer : Bytes} (h : server.decoder.cut buffer = (.more, buffer))
    (outlet : Outlet) : Waits server ⟨buffer, outlet, true⟩ := by
  obtain ⟨hincomplete, hfits, hskip⟩ := Decoder.cut_eq_more_iff.mp h
  rw [← hskip] at hincomplete hfits
  exact ⟨rfl, hincomplete, hskip.symm, Decoder.exceeded?_eq_none_iff.mp hfits _ rfl⟩

theorem waits_drain {buffer : Bytes} {outlet : Outlet}
    (hopen : (drain server ⟨buffer, outlet, true⟩ state).2.1.isOpen = true) :
    Waits server (drain server ⟨buffer, outlet, true⟩ state).2.1 := by
  obtain ⟨-, -, hisOpen, hkept⟩ := agrees_drain server buffer outlet state
  rw [hisOpen] at hopen
  -- a session that is still open has refused nothing, so that it keeps what the harvest leaves
  obtain ⟨outlet', hsettled⟩ := Option.isSome_iff_exists.mp hopen
  obtain ⟨hrefused, hsession⟩ := hkept outlet' hsettled
  rw [hsession]
  exact waits_of_cut (Decoder.cut_rest hrefused) outlet'

/-- A session that is open behind some pieces waits, and has done something for each of them. -/
theorem waits_hear (h : session.isOpen = true → Waits server session) (pieces : List Bytes)
    (hopen : (hear server session state pieces).2.1.isOpen = true) :
    Waits server (hear server session state pieces).2.1 ∧
      (hear server session state pieces).1.length = pieces.length := by
  induction pieces generalizing session state with
  | nil => exact ⟨h hopen, rfl⟩
  | cons piece pieces ih =>
    cases hbefore : session.isOpen with
    | false =>
      rw [hear_closed hbefore, hbefore] at hopen
      cases hopen
    | true =>
      obtain ⟨buffer, outlet, isOpen⟩ := session
      obtain rfl : isOpen = true := hbefore
      rw [hear_bytes] at hopen ⊢
      obtain ⟨hwaits, hlength⟩ := ih waits_drain hopen
      exact ⟨hwaits, congrArg Nat.succ hlength⟩

/-! ## The end -/

/-- Whatever ends the waiting closes a session that is open, and nothing else happens. -/
theorem follow_end {arrival : Arrival} (h : arrival.IsEnd) (session : Session)
    (state : ServerState) (later : List Arrival) :
    follow server session state (arrival :: later) =
      if session.isOpen then ([[.closed]], closedState state) else ([], state) := by
  cases hopen : session.isOpen with
  | false => exact follow_closed hopen _
  | true => exact follow_ended h.ne_bytes hopen later

/-- **A session does what the pieces make it do, and closes if it still can.** -/
theorem run_heard (server : Server) (outlet : Outlet) (pieces : List Bytes) {arrival : Arrival}
    (h : arrival.IsEnd) (later : List Arrival) (state : ServerState) :
    run server outlet false (pieces.map .bytes ++ arrival :: later) state =
      let opened := { state with metrics := state.metrics.openSession }
      let heard := hear server ⟨[], outlet, true⟩ opened pieces
      if heard.2.1.isOpen then ([] :: heard.1 ++ [[.closed]], closedState heard.2.2)
      else ([] :: heard.1, heard.2.2) := by
  rw [run_eq_follow]
  dsimp only
  rw [follow_append]
  dsimp only
  rw [follow_end h]
  split <;> simp

/-! ## One close -/

/-- Closing is the last that happens, and happens once. -/
def ClosesOnce (events : List Event) : Prop :=
  ∃ before, events = before ++ [.closed] ∧ .closed ∉ before

theorem ClosesOnce.wrote {events : List Event} (h : ClosesOnce events) (response : Response) :
    ClosesOnce (.wrote response :: events) := by
  obtain ⟨before, rfl, hbefore⟩ := h
  refine ⟨.wrote response :: before, rfl, ?_⟩
  rw [List.mem_cons]
  rintro (heq | hmem)
  · cases heq
  · exact hbefore hmem

theorem closesOnce_hangUp (server : Server) (attempts : List (Except Failure Request))
    (outlet : Outlet) (state : ServerState) :
    ClosesOnce (hangUp (settle server attempts outlet state)).1 := by
  have hclosed : ClosesOnce [.closed] := ⟨[], rfl, List.not_mem_nil⟩
  induction attempts generalizing outlet state with
  | nil => exact hclosed
  | cons attempt later ih =>
    cases hspend : outlet.spend? with
    | none =>
      rw [settle_unspent hspend]
      refine ⟨_, rfl, ?_⟩
      intro hmem
      cases List.eq_of_mem_replicate hmem
    | some outlet' =>
      cases hlast : server.closesBehind attempt with
      | true =>
        rw [settle_last hspend hlast]
        exact hclosed.wrote _
      | false =>
        rw [settle_step hspend hlast, hangUp_cons]
        exact (ih outlet' _).wrote _

theorem closesOnce_run (server : Server) (outlet : Outlet) (stopping : Bool)
    (arrivals : List Arrival) (state : ServerState) :
    ClosesOnce (run server outlet stopping arrivals state).1.flatten := by
  have hevents := congrArg Prod.fst (run_eq_settle server outlet stopping arrivals state)
  dsimp only at hevents
  rw [hevents]
  exact closesOnce_hangUp _ _ _ _

/-! ## States that differ in times taken -/

theorem alike_settle (server : Server) {s t : ServerState} (h : s.Alike t)
    (attempts : List (Except Failure Request)) (outlet : Outlet) :
    (hangUp (settle server attempts outlet s)).1 = (hangUp (settle server attempts outlet t)).1 ∧
      (hangUp (settle server attempts outlet s)).2.Alike
        (hangUp (settle server attempts outlet t)).2 := by
  induction attempts generalizing outlet s t with
  | nil => exact ⟨rfl, h.withSessions _ _⟩
  | cons attempt later ih =>
    obtain ⟨hresponse, hnext⟩ := server.alike_answerAttempt h attempt
    cases hspend : outlet.spend? with
    | none =>
      rw [settle_unspent hspend, settle_unspent hspend]
      exact ⟨rfl, hnext.withSessions _ _⟩
    | some outlet' =>
      cases hlast : server.closesBehind attempt with
      | true =>
        rw [settle_last hspend hlast, settle_last hspend hlast, hresponse]
        exact ⟨rfl, hnext.withSessions _ _⟩
      | false =>
        obtain ⟨hevents, hstate⟩ := ih hnext outlet'
        rw [settle_step hspend hlast, settle_step hspend hlast, hangUp_cons, hangUp_cons, hresponse,
          hevents]
        exact ⟨rfl, hstate⟩

theorem alike_run (server : Server) (outlet : Outlet) (stopping : Bool) (arrivals : List Arrival)
    {s t : ServerState} (h : s.Alike t) :
    (run server outlet stopping arrivals s).1.flatten =
        (run server outlet stopping arrivals t).1.flatten ∧
      (run server outlet stopping arrivals s).2.Alike
        (run server outlet stopping arrivals t).2 := by
  have hs := run_eq_settle server outlet stopping arrivals s
  have ht := run_eq_settle server outlet stopping arrivals t
  rw [Prod.mk.injEq] at hs ht
  rw [hs.1, hs.2, ht.1, ht.2]
  exact alike_settle server (h.withSessions _ _) _ outlet

/-! ## Every end -/

/-- **Every way in which input ends has the same outcome.** Let the same pieces arrive at two
sessions, in any mode and with any fault, on states that are alike; then let any two ends come, and
anything behind them. The same happens in both sessions, and the states are alike again; on the same
state it is the same run. The session closes once and does nothing behind that. It writes the
answers to the attempts that the pieces give, and leaves the state that these lead to. If it has not
closed before the end comes, it waits with less than a frame, for which nothing happens but that it
closes. If it has been asked to stop before it opens, it closes, whatever arrives. -/
theorem ends_agree (server : Server) (outlet : Outlet) (pieces : List Bytes)
    {first second : Arrival} (hfirst : first.IsEnd) (hsecond : second.IsEnd)
    (later other : List Arrival) {s t : ServerState} (h : s.Alike t) :
    let opened := { s with metrics := s.metrics.openSession }
    let heard := hear server ⟨[], outlet, true⟩ opened pieces
    let given := server.decoder.takeChunks Frame.toRequest [] pieces
    let answered := server.answerAttempts (server.reached outlet given) opened
    let ran := run server outlet false (pieces.map .bytes ++ first :: later) s
    let again := run server outlet false (pieces.map .bytes ++ second :: other) t
    (ran.1.flatten = again.1.flatten ∧ ran.2.Alike again.2 ∧ (s = t → ran = again)) ∧
      ClosesOnce ran.1.flatten ∧
      (responses ran.1.flatten = outlet.within answered.1 ∧ ran.2 = closedState answered.2) ∧
      (heard.2.1.isOpen = true →
        Waits server heard.2.1 ∧ heard.1.length = pieces.length ∧
          ran = ([] :: heard.1 ++ [[.closed]], closedState heard.2.2)) ∧
      (heard.2.1.isOpen = false → ran = ([] :: heard.1, heard.2.2)) ∧
      ∀ arrivals, run server outlet true arrivals s = ([[.closed]], closedState opened) := by
  intro opened heard given answered ran again
  -- what has been heard knows nothing of the end, so that on one state both runs are one
  have hran := run_heard server outlet pieces hfirst later s
  have hsame : run server outlet false (pieces.map .bytes ++ second :: other) s = ran :=
    (run_heard server outlet pieces hsecond other s).trans hran.symm
  refine ⟨⟨?_, ?_, ?_⟩, closesOnce_run _ _ _ _ _, ?_, ?_, ?_, fun arrivals => ?_⟩
  · rw [← hsame]
    exact (alike_run server outlet false _ h).1
  · rw [← hsame]
    exact (alike_run server outlet false _ h).2
  · rintro rfl
    exact hsame.symm
  · have hwritten := run_answers server outlet false (pieces.map .bytes ++ first :: later) s
    rw [attempts, Session.given, if_neg (by simp), chunks_end hfirst] at hwritten
    exact hwritten
  · intro hopen
    have hstart : Waits server ⟨[], outlet, true⟩ :=
      waits_of_cut (Decoder.cut_nil server.decoder) outlet
    obtain ⟨hwaits, hlength⟩ := waits_hear (fun _ => hstart) pieces hopen
    exact ⟨hwaits, hlength, hran.trans (if_pos hopen)⟩
  · intro hclosed
    exact hran.trans (if_neg (by rw [hclosed]; simp))
  · exact run_stopping server outlet arrivals s

/-- The time limit passes in the middle of a frame that would be complete a moment later, or the
server stops there. -/
theorem ends_agree_half_frame :
    let server : Server := ⟨{ sessionMode := .persistent }, .builtin⟩
    let s : ServerState := { supply := ⟨fun _ => "id", fun _ => "time", fun _ => 0, 0⟩ }
    let t : ServerState := { supply := { s.supply with lapseAt := fun n => n * 1000000 } }
    let frame := utf8 "EXECUTE CMIT/1.0\n\n\x7b\"topic\":\"t\"\x7d\n\n"
    let pieces := [frame.take 9, frame.drop 9 ++ frame.take 30]
    let ran :=
      run server {} false (pieces.map .bytes ++ [.expired, .bytes (frame.drop 30)]) s
    let again := run server {} false (pieces.map .bytes ++ [.stopping]) t
    (responses ran.1.flatten).length = 1 ∧ ran.2.queue.length = 1 ∧
      ran.1.flatten = again.1.flatten ∧ ran.2.Alike again.2 ∧ ClosesOnce ran.1.flatten := by
  intro server s t frame pieces ran again
  have hexpired : Arrival.IsEnd .expired := trivial
  have hstopping : Arrival.IsEnd .stopping := trivial
  have halike : s.Alike t := ⟨rfl, ⟨_, rfl⟩, rfl, rfl, fun _ => rfl⟩
  obtain ⟨⟨hevents, hstate, -⟩, hclose, -⟩ :=
    ends_agree server {} pieces hexpired hstopping [.bytes (frame.drop 30)] [] halike
  exact ⟨by decide +kernel, by decide +kernel, hevents, hstate, hclose⟩

end Session

end Courier
