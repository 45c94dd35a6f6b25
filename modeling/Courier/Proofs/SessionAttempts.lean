import Courier.Proofs.SessionSteps

/-!
# A session is the attempts that it makes

Whatever a peer sends, a session makes one attempt at a request after another and answers each. Its
reads decide what the attempts give, its mode and what the peer takes decide how many there are
(`attempts`), and nothing else matters: the responses that a session writes and the state that it
leaves are those of the attempts (`run_answers`), in every mode and with any fault.

The way there is a session without a buffer, which is handed its attempts (`settle`). One buffer
gives the attempts of its harvest (`agrees_drain`), and one arrival after another gives those of
all chunks (`follow_eq_settle`).
-/

namespace Courier

open Text Wire

/-- Whether the answer to an attempt is the last of a session. -/
def Server.closesBehind (server : Server) (attempt : Except Failure Request) : Bool :=
  server.settings.sessionMode == .singleShot || Decoder.isRefusal attempt

/-- The attempts with their requests stamped, each with what the supply gives when its turn comes:
the answer to what is no request takes an id and a time from it, that to a request a lapse. -/
def stampAttempts : List (Except Failure Request) → Supply → List (Except Failure Request)
  | [], _ => []
  | .error failure :: later, supply => .error failure :: stampAttempts later supply.next.next
  | .ok r :: later, supply => .ok (r.stamp supply).1 :: stampAttempts later (r.stamp supply).2.next

theorem length_stampAttempts (attempts : List (Except Failure Request)) (supply : Supply) :
    (stampAttempts attempts supply).length = attempts.length := by
  induction attempts generalizing supply with
  | nil => rfl
  | cons attempt later ih => cases attempt <;> exact congrArg Nat.succ (ih _)

namespace Server

def answerAttempt (server : Server) : Except Failure Request → ServerState → Response × ServerState
  | .ok r, state => server.answer r state
  | .error f, state => refuse f state

def answerAttempts (server : Server) :
    List (Except Failure Request) → ServerState → List Response × ServerState
  | [], state => ([], state)
  | attempt :: later, state =>
      let (response, state) := server.answerAttempt attempt state
      let (responses, state) := server.answerAttempts later state
      (response :: responses, state)

theorem answerFrame_eq_answerAttempt (server : Server) (f : Frame) (state : ServerState) :
    server.answerFrame f state = server.answerAttempt f.toRequest state := by
  unfold answerFrame
  cases f.toRequest <;> rfl

theorem length_answerAttempts (server : Server) (attempts : List (Except Failure Request))
    (state : ServerState) : (server.answerAttempts attempts state).1.length = attempts.length := by
  induction attempts generalizing state with
  | nil => rfl
  | cons attempt later ih => exact congrArg Nat.succ (ih _)

theorem respond_queue (server : Server) (r : Request) (q : Queue) :
    (server.respond r q).2 =
      if (Version.check r.version).isOk then (server.table.dispatch r q).2 else q := by
  unfold respond
  split
  · rename_i h
    simp [h, Except.isOk, Except.toBool]
  · rename_i h
    simp [h, Except.isOk, Except.toBool]

theorem stampAttempts_cons (server : Server) (attempt : Except Failure Request)
    (later : List (Except Failure Request)) (state : ServerState) :
    stampAttempts (attempt :: later) state.supply =
      attempt.map (fun r => (r.stamp state.supply).1)
        :: stampAttempts later (server.answerAttempt attempt state).2.supply := by
  cases attempt <;> rfl

end Server

namespace Session

variable {server : Server} {state : ServerState} {outlet : Outlet}

/-! ## Without a buffer -/

def closedState (state : ServerState) : ServerState :=
  { state with metrics := state.metrics.closeSession }

/-- What a session does with attempts at requests: what happens, its outlet if it is still open
then, and the state. -/
def settle (server : Server) :
    List (Except Failure Request) → Outlet → ServerState → List Event × Option Outlet × ServerState
  | [], outlet, state => ([], some outlet, state)
  | attempt :: later, outlet, state =>
      let (response, state) := server.answerAttempt attempt state
      match outlet.spend? with
      | none =>
          (List.replicate outlet.fault.attempts (.writeFailed outlet.fault) ++ [.closed], none,
            closedState state)
      | some outlet =>
          if server.closesBehind attempt then ([.wrote response, .closed], none, closedState state)
          else
            let (events, outlet?, state) := settle server later outlet state
            (.wrote response :: events, outlet?, state)

theorem settle_unspent (hspend : outlet.spend? = none) (attempt : Except Failure Request)
    (later : List (Except Failure Request)) :
    settle server (attempt :: later) outlet state =
      (List.replicate outlet.fault.attempts (.writeFailed outlet.fault) ++ [.closed], none,
        closedState (server.answerAttempt attempt state).2) := by
  simp [settle, hspend]

theorem settle_last {outlet' : Outlet} (hspend : outlet.spend? = some outlet')
    {attempt : Except Failure Request} (hlast : server.closesBehind attempt = true)
    (later : List (Except Failure Request)) :
    settle server (attempt :: later) outlet state =
      ([.wrote (server.answerAttempt attempt state).1, .closed], none,
        closedState (server.answerAttempt attempt state).2) := by
  simp [settle, hspend, hlast]

theorem settle_step {outlet' : Outlet} (hspend : outlet.spend? = some outlet')
    {attempt : Except Failure Request} (hstep : server.closesBehind attempt = false)
    (later : List (Except Failure Request)) :
    settle server (attempt :: later) outlet state =
      (.wrote (server.answerAttempt attempt state).1
          :: (settle server later outlet' (server.answerAttempt attempt state).2).1,
        (settle server later outlet' (server.answerAttempt attempt state).2).2) := by
  simp [settle, hspend, hstep]

/-- A session that has closed makes no further attempt. -/
theorem settle_append_closed {attempts : List (Except Failure Request)}
    (h : (settle server attempts outlet state).2.1 = none) (later : List (Except Failure Request)) :
    settle server (attempts ++ later) outlet state = settle server attempts outlet state := by
  induction attempts generalizing outlet state with
  | nil => cases h
  | cons attempt attempts ih =>
    rw [List.cons_append]
    cases hspend : outlet.spend? with
    | none => rw [settle_unspent hspend, settle_unspent hspend]
    | some outlet' =>
      cases hlast : server.closesBehind attempt with
      | true => rw [settle_last hspend hlast, settle_last hspend hlast]
      | false =>
        rw [settle_step hspend hlast] at h
        rw [settle_step hspend hlast, settle_step hspend hlast, ih h]

/-- A session that is still open goes on with the outlet and the state that it has then. -/
theorem settle_append_open {attempts : List (Except Failure Request)} {outlet' : Outlet}
    (h : (settle server attempts outlet state).2.1 = some outlet')
    (later : List (Except Failure Request)) :
    settle server (attempts ++ later) outlet state =
      ((settle server attempts outlet state).1
          ++ (settle server later outlet' (settle server attempts outlet state).2.2).1,
        (settle server later outlet' (settle server attempts outlet state).2.2).2) := by
  induction attempts generalizing outlet state with
  | nil =>
    obtain rfl := Option.some.inj h
    rfl
  | cons attempt attempts ih =>
    rw [List.cons_append]
    cases hspend : outlet.spend? with
    | none =>
      rw [settle_unspent hspend] at h
      cases h
    | some spent =>
      cases hlast : server.closesBehind attempt with
      | true =>
        rw [settle_last hspend hlast] at h
        cases h
      | false =>
        rw [settle_step hspend hlast] at h
        rw [settle_step hspend hlast, settle_step hspend hlast, ih h]
        rfl

/-! ## One buffer -/

/-- What has been drained is what has been settled: the same has happened, and a session that is
still open has refused nothing and keeps the rest. -/
structure Agrees (harvest : Decoder.Harvest) (drained : List Event × Session × ServerState)
    (settled : List Event × Option Outlet × ServerState) : Prop where
  events : drained.1 = settled.1
  state : drained.2.2 = settled.2.2
  isOpen : drained.2.1.isOpen = settled.2.1.isSome
  kept : ∀ outlet, settled.2.1 = some outlet →
    harvest.refused = none ∧ drained.2.1 = ⟨harvest.rest, outlet, true⟩

theorem agrees_finishWith (harvest : Decoder.Harvest) (session : Session)
    {attempt : Except Failure Request}
    (hlast : session.outlet.spend? = none ∨ server.closesBehind attempt = true)
    (later : List (Except Failure Request)) (state : ServerState) :
    Agrees harvest
      (finishWith (server.answerAttempt attempt state).1 session
        (server.answerAttempt attempt state).2)
      (settle server (attempt :: later) session.outlet state) := by
  cases hspend : session.outlet.spend? with
  | none =>
    rw [finishWith_unspent hspend, settle_unspent hspend]
    exact ⟨rfl, rfl, rfl, by rintro _ ⟨⟩⟩
  | some outlet =>
    have hclose : server.closesBehind attempt = true := by simpa [hspend] using hlast
    rw [finishWith_spent hspend, settle_last hspend hclose]
    exact ⟨rfl, rfl, rfl, by rintro _ ⟨⟩⟩

/-- **A session does with its buffer what the attempts of the harvest make it do.** -/
theorem agrees_drain (server : Server) (buffer : Bytes) (outlet : Outlet) (state : ServerState) :
    let harvest := server.decoder.harvest buffer
    Agrees harvest (drain server ⟨buffer, outlet, true⟩ state)
      (settle server (harvest.results Frame.toRequest) outlet state) := by
  dsimp only
  fun_induction Decoder.harvest server.decoder buffer generalizing outlet state with
  | case1 buffer f rest hcut _ later ih =>
    show Agrees _ _ (settle server (f.toRequest :: later.results Frame.toRequest) outlet state)
    -- the session closes behind this answer, or goes on with what is left
    by_cases hlast : outlet.spend? = none ∨ server.closesBehind f.toRequest = true
    · have hdrain : drain server ⟨buffer, outlet, true⟩ state =
          finishWith (server.answerFrame f state).1 ⟨rest, outlet, true⟩
            (server.answerFrame f state).2 := by
        cases hmode : server.settings.sessionMode with
        | singleShot => exact drain_single hmode hcut
        | persistent =>
          have hspend : outlet.spend? = none := by
            simpa [Server.closesBehind, hmode, Decoder.isRefusal_toRequest] using hlast
          exact drain_frame_unspent hmode hspend hcut
      rw [hdrain, Server.answerFrame_eq_answerAttempt]
      exact agrees_finishWith _ ⟨rest, outlet, true⟩ hlast _ state
    · obtain ⟨hspend, hstep⟩ := not_or.mp hlast
      obtain ⟨outlet', hspend⟩ := Option.ne_none_iff_exists'.mp hspend
      have hstep : server.closesBehind f.toRequest = false := by simpa using hstep
      have hmode : server.settings.sessionMode = .persistent := by
        cases hmode : server.settings.sessionMode with
        | singleShot => simp [Server.closesBehind, hmode] at hstep
        | persistent => rfl
      rw [settle_step hspend hstep, drain_frame_spent hmode hspend hcut,
        Server.answerFrame_eq_answerAttempt]
      obtain ⟨hevents, hstate, hopen, hkept⟩ :=
        ih outlet' (server.answerAttempt f.toRequest state).2
      exact ⟨congrArg _ hevents, hstate, hopen, hkept⟩
  | case2 buffer limit rest hcut =>
    have hlast : server.closesBehind (.error (.payloadTooLarge limit)) = true := by
      simp [Server.closesBehind, Decoder.isRefusal, Failure.isTooLarge]
    rw [drain_tooLarge hcut]
    exact agrees_finishWith _ ⟨rest, outlet, true⟩ (.inr hlast) [] state
  | case3 buffer rest hcut =>
    rw [drain_more hcut]
    refine ⟨rfl, rfl, rfl, ?_⟩
    rintro outlet' ⟨⟩
    exact ⟨rfl, rfl⟩

/-! ## One arrival after another -/

/-- The chunks of bytes that come before anything else does. -/
def chunks : List Arrival → List Bytes
  | .bytes bs :: arrivals => bs :: chunks arrivals
  | _ => []

theorem chunks_end {arrival : Arrival} (h : arrival.IsEnd) (pieces : List Bytes)
    (later : List Arrival) : chunks (pieces.map .bytes ++ arrival :: later) = pieces := by
  induction pieces with
  | nil =>
    cases arrival with
    | bytes bs => cases h
    | _ => rfl
  | cons piece pieces ih => exact congrArg (List.cons piece) ih

/-- What has happened in the end, and the state then: a session that is still open closes. -/
def hangUp (settled : List Event × Option Outlet × ServerState) : List Event × ServerState :=
  match settled.2.1 with
  | none => (settled.1, settled.2.2)
  | some _ => (settled.1 ++ [.closed], closedState settled.2.2)

theorem hangUp_cons (event : Event) (settled : List Event × Option Outlet × ServerState) :
    hangUp (event :: settled.1, settled.2) = (event :: (hangUp settled).1, (hangUp settled).2) := by
  unfold hangUp
  dsimp only
  split <;> rfl

/-- **A session does with what arrives what the attempts of the chunks make it do**; `buffer` is
what earlier arrivals have left. -/
theorem follow_eq_settle (arrivals : List Arrival) (buffer : Bytes) (outlet : Outlet)
    (state : ServerState) :
    let followed := follow server ⟨buffer, outlet, true⟩ state arrivals
    (followed.1.flatten, followed.2) = hangUp (settle server
      (server.decoder.takeChunks Frame.toRequest buffer (chunks arrivals)) outlet state) := by
  dsimp only
  induction arrivals generalizing buffer outlet state with
  | nil => rfl
  | cons arrival arrivals ih =>
    by_cases harrival : ∃ bs, arrival = .bytes bs
    · obtain ⟨bs, rfl⟩ := harrival
      obtain ⟨hevents, hstate, hopen, hkept⟩ :=
        agrees_drain server (buffer ++ bs) outlet state
      rw [chunks, Decoder.takeChunks_step Decoder.isRefusal_toRequest, follow_bytes]
      dsimp only
      rw [hevents, hstate, List.flatten_cons]
      cases hsettled : (settle server
          ((server.decoder.harvest (buffer ++ bs)).results Frame.toRequest) outlet state).2.1 with
      | none =>
        -- closed by one of its answers: nothing that arrives later counts
        rw [hsettled] at hopen
        rw [follow_closed hopen, settle_append_closed hsettled]
        simp [hangUp, hsettled]
      | some outlet' =>
        obtain ⟨hrefused, hsession⟩ := hkept outlet' hsettled
        have ih := ih (server.decoder.harvest (buffer ++ bs)).rest outlet'
          (settle server ((server.decoder.harvest (buffer ++ bs)).results Frame.toRequest) outlet
            state).2.2
        rw [Prod.mk.injEq] at ih
        rw [hrefused, hsession, settle_append_open hsettled, if_neg (by simp), ih.1, ih.2]
        unfold hangUp
        dsimp only
        split
        · rfl
        · rw [List.append_assoc]
    · have harrival : ∀ bs, arrival ≠ .bytes bs := fun bs h => harrival ⟨bs, h⟩
      have hchunks : chunks (arrival :: arrivals) = [] := by
        cases arrival with
        | bytes bs => exact absurd rfl (harrival bs)
        | _ => rfl
      rw [follow_ended harrival rfl, hchunks]
      rfl

/-! ## Whole sessions -/

/-- Everything that the reads of a session give. One that has been asked to stop reads nothing. -/
def given (server : Server) (stopping : Bool) (arrivals : List Arrival) :
    List (Except Failure Request) :=
  if stopping then [] else server.decoder.takeChunks Frame.toRequest [] (chunks arrivals)

/-- Only the last of the reads may give a refusal. -/
theorem pairwise_given (server : Server) (stopping : Bool) (arrivals : List Arrival) :
    (given server stopping arrivals).Pairwise fun attempt _ =>
      Decoder.isRefusal attempt = false := by
  unfold given
  split
  · exact List.Pairwise.nil
  · exact Decoder.pairwise_takeChunks Decoder.isRefusal_toRequest _ _ _

theorem run_stopping (server : Server) (outlet : Outlet) (arrivals : List Arrival)
    (state : ServerState) :
    run server outlet true arrivals state =
      ([[.closed]], closedState { state with metrics := state.metrics.openSession }) := by
  simp [run, start, drain_empty, close, follow_closed, closedState]

theorem run_eq_settle (server : Server) (outlet : Outlet) (stopping : Bool)
    (arrivals : List Arrival) (state : ServerState) :
    ((run server outlet stopping arrivals state).1.flatten,
        (run server outlet stopping arrivals state).2) =
      hangUp (settle server (given server stopping arrivals) outlet
        { state with metrics := state.metrics.openSession }) := by
  cases stopping with
  | false =>
    rw [run_eq_follow]
    exact follow_eq_settle arrivals [] outlet _
  | true =>
    rw [run_stopping]
    rfl

end Session

/-! ## How many attempts there are -/

/-- The first of some things, as many as the peer takes responses. -/
def Outlet.within {α : Type} (outlet : Outlet) (l : List α) : List α :=
  match outlet.room with
  | none => l
  | some n => l.take n

/-- The first of some attempts, as many as a session makes: one if it is single-shot, and none
behind the first whose answer is not taken. -/
def Server.reached (server : Server) (outlet : Outlet) (attempts : List (Except Failure Request)) :
    List (Except Failure Request) :=
  match server.settings.sessionMode, outlet.room with
  | .singleShot, _ => attempts.take 1
  | .persistent, none => attempts
  | .persistent, some n => attempts.take (n + 1)

namespace Session

variable {server : Server} {state : ServerState} {outlet outlet' : Outlet}

theorem spend?_eq_none (h : outlet.spend? = none) : outlet.room = some 0 := by
  unfold Outlet.spend? at h
  split at h
  · cases h
  · assumption
  · cases h

theorem within_unspent {α : Type} (h : outlet.spend? = none) (l : List α) :
    outlet.within l = [] := by
  simp [Outlet.within, spend?_eq_none h]

theorem within_spent {α : Type} (h : outlet.spend? = some outlet') (a : α) (l : List α) :
    outlet.within (a :: l) = a :: outlet'.within l := by
  unfold Outlet.spend? at h
  split at h <;> cases h <;> simp_all [Outlet.within]

theorem within_nil {α : Type} : outlet.within ([] : List α) = [] := by
  unfold Outlet.within
  split <;> simp

theorem length_within {α : Type} (outlet : Outlet) (l : List α) :
    (outlet.within l).length ≤ l.length := by
  unfold Outlet.within
  split
  · exact Nat.le_refl _
  · exact List.length_take_le' _ _

theorem nil_of_isRefusal {attempt : Except Failure Request} {later : List (Except Failure Request)}
    (h : (attempt :: later).Pairwise fun attempt _ => Decoder.isRefusal attempt = false)
    (hrefusal : Decoder.isRefusal attempt = true) : later = [] := by
  cases later with
  | nil => rfl
  | cons next rest => cases (List.rel_of_pairwise_cons h List.mem_cons_self).symm.trans hrefusal

/-- The last attempt is the first, if a session closes behind it and there is none behind a
refusal. -/
theorem reached_last {attempt : Except Failure Request} {later : List (Except Failure Request)}
    (hlast : outlet.spend? = none ∨ server.closesBehind attempt = true)
    (hend : Decoder.isRefusal attempt = true → later = []) :
    server.reached outlet (attempt :: later) = [attempt] := by
  unfold Server.reached
  cases hmode : server.settings.sessionMode with
  | singleShot => rfl
  | persistent =>
    rcases hlast with hspend | hclose
    · simp [spend?_eq_none hspend]
    · obtain rfl := hend (by simpa [Server.closesBehind, hmode] using hclose)
      cases outlet.room <;> simp

theorem reached_step (hspend : outlet.spend? = some outlet') {attempt : Except Failure Request}
    (hstep : server.closesBehind attempt = false) (later : List (Except Failure Request)) :
    server.reached outlet (attempt :: later) = attempt :: server.reached outlet' later := by
  have hmode : server.settings.sessionMode = .persistent := by
    cases hmode : server.settings.sessionMode with
    | singleShot => simp [Server.closesBehind, hmode] at hstep
    | persistent => rfl
  unfold Outlet.spend? at hspend
  split at hspend <;> cases hspend <;> simp_all [Server.reached]

/-- **What a session writes and leaves is what its attempts call for.** -/
theorem hangUp_settle (server : Server) (given : List (Except Failure Request))
    (hgiven : given.Pairwise fun attempt _ => Decoder.isRefusal attempt = false)
    (outlet : Outlet) (state : ServerState) :
    responses (hangUp (settle server given outlet state)).1 =
        outlet.within (server.answerAttempts (server.reached outlet given) state).1 ∧
      (hangUp (settle server given outlet state)).2 =
        closedState (server.answerAttempts (server.reached outlet given) state).2 := by
  induction given generalizing outlet state with
  | nil =>
    have hreached : server.reached outlet [] = [] := by
      unfold Server.reached
      split <;> rfl
    rw [hreached, Server.answerAttempts, within_nil]
    exact ⟨rfl, rfl⟩
  | cons attempt later ih =>
    have hend := nil_of_isRefusal hgiven
    have hlater := hgiven.tail
    cases hspend : outlet.spend? with
    | none =>
      rw [settle_unspent hspend, reached_last (.inl hspend) hend, within_unspent hspend]
      refine ⟨?_, rfl⟩
      show responses (List.replicate _ (.writeFailed outlet.fault) ++ [.closed]) = []
      rw [responses_append]
      simp [responses, Event.response?]
    | some outlet' =>
      cases hclose : server.closesBehind attempt with
      | true =>
        rw [settle_last hspend hclose, reached_last (.inr hclose) hend]
        refine ⟨?_, rfl⟩
        show _ = outlet.within [(server.answerAttempt attempt state).1]
        rw [within_spent hspend, within_nil]
        rfl
      | false =>
        obtain ⟨hwritten, hstate⟩ := ih hlater outlet' (server.answerAttempt attempt state).2
        rw [settle_step hspend hclose, reached_step hspend hclose, hangUp_cons, hstate,
          Server.answerAttempts, within_spent hspend, ← hwritten]
        exact ⟨rfl, rfl⟩

/-- The attempts at requests that a session makes. -/
def attempts (server : Server) (outlet : Outlet) (stopping : Bool) (arrivals : List Arrival) :
    List (Except Failure Request) :=
  server.reached outlet (given server stopping arrivals)

/-- **A session writes the answers to its attempts**, as many as the peer takes, and leaves the
state that they lead to, in every mode, with any fault, and however its waiting ends. -/
theorem run_answers (server : Server) (outlet : Outlet) (stopping : Bool)
    (arrivals : List Arrival) (state : ServerState) :
    let answered := server.answerAttempts (attempts server outlet stopping arrivals)
      { state with metrics := state.metrics.openSession }
    responses (run server outlet stopping arrivals state).1.flatten = outlet.within answered.1 ∧
      (run server outlet stopping arrivals state).2 = closedState answered.2 := by
  have hrun := run_eq_settle server outlet stopping arrivals state
  obtain ⟨hwritten, hstate⟩ := hangUp_settle server _ (pairwise_given server stopping arrivals)
    outlet { state with metrics := state.metrics.openSession }
  rw [← hrun] at hwritten hstate
  exact ⟨hwritten, hstate⟩

end Session

end Courier
