import Courier.Proofs.SessionEnds

/-!
# What a write fault leaves

A peer that stops taking responses cuts a session short. The session has then made one attempt more
than it has written answers: the answer that is not taken has been counted, and what its request did
to the queue stays done. The frames behind it, which may be in the buffer already, are not looked
at.

Main statement: `run_faulted`.
-/

namespace Courier

open Text Wire

/-! ## Some of the attempts -/

namespace Server

theorem answerAttempts_cons (server : Server) (attempt : Except Failure Request)
    (later : List (Except Failure Request)) (state : ServerState) :
    server.answerAttempts (attempt :: later) state =
      ((server.answerAttempt attempt state).1
          :: (server.answerAttempts later (server.answerAttempt attempt state).2).1,
        (server.answerAttempts later (server.answerAttempt attempt state).2).2) := rfl

theorem answerAttempts_take (server : Server) (attempts : List (Except Failure Request))
    (n : Nat) (state : ServerState) :
    (server.answerAttempts (attempts.take n) state).1 =
      (server.answerAttempts attempts state).1.take n := by
  induction attempts generalizing n state with
  | nil => simp [answerAttempts]
  | cons attempt later ih =>
    cases n with
    | zero => rfl
    | succ n =>
      rw [List.take_succ_cons, answerAttempts_cons, answerAttempts_cons, ih, List.take_succ_cons]

theorem answerAttempts_append (server : Server) (attempts later : List (Except Failure Request))
    (state : ServerState) :
    (server.answerAttempts (attempts ++ later) state).2 =
      (server.answerAttempts later (server.answerAttempts attempts state).2).2 := by
  induction attempts generalizing state with
  | nil => rfl
  | cons attempt attempts ih => exact ih _

theorem reached_faulted (server : Server) (k : Nat) (fault : WriteFault)
    (given : List (Except Failure Request)) :
    server.reached ⟨some k, fault⟩ given = (server.reached {} given).take (k + 1) := by
  unfold reached
  cases server.settings.sessionMode with
  | singleShot =>
    rw [List.take_take, Nat.min_eq_right]
    exact Nat.succ_le_succ (Nat.zero_le k)
  | persistent => rfl

end Server

/-! ## What happens -/

namespace Session

variable {server : Server} {stopping : Bool} {arrivals : List Arrival}

/-- What a session has done that has written some responses and failed to write one more. -/
def brokenOff (written : List Response) (fault : WriteFault) : List Event :=
  written.map .wrote ++ List.replicate fault.attempts (.writeFailed fault) ++ [.closed]

theorem brokenOff_cons (response : Response) (written : List Response) (fault : WriteFault) :
    brokenOff (response :: written) fault = .wrote response :: brokenOff written fault := rfl

theorem responses_wrote (response : Response) (events : List Event) :
    responses (.wrote response :: events) = response :: responses events := rfl

/-- The fault comes to light only with an answer beyond those that the peer takes. -/
theorem hangUp_settle_faulted (server : Server) (given : List (Except Failure Request)) (k : Nat)
    (fault : WriteFault) (state : ServerState) :
    let free := (hangUp (settle server given {} state)).1
    (hangUp (settle server given ⟨some k, fault⟩ state)).1 =
      if (responses free).length ≤ k then free else brokenOff ((responses free).take k) fault := by
  dsimp only
  have hfree : Outlet.spend? {} = some {} := rfl
  induction given generalizing k state with
  | nil => exact (if_pos (Nat.zero_le k)).symm
  | cons attempt later ih =>
    cases k with
    | zero =>
      -- this answer is the one that is not taken
      have hnone : Outlet.spend? ⟨some 0, fault⟩ = none := rfl
      rw [settle_unspent hnone]
      cases hlast : server.closesBehind attempt with
      | true => rw [settle_last hfree hlast]; rfl
      | false =>
        rw [settle_step hfree hlast, hangUp_cons, responses_wrote, if_neg (by simp)]
        rfl
    | succ k =>
      have hspend : Outlet.spend? ⟨some (k + 1), fault⟩ = some ⟨some k, fault⟩ := rfl
      cases hlast : server.closesBehind attempt with
      | true =>
        rw [settle_last hspend hlast, settle_last hfree hlast]
        exact (if_pos (Nat.succ_le_succ (Nat.zero_le k))).symm
      | false =>
        rw [settle_step hspend hlast, settle_step hfree hlast, hangUp_cons, hangUp_cons]
        dsimp only
        rw [ih k, responses_wrote, List.length_cons, List.take_succ_cons]
        -- both sides count on from one response more
        by_cases hle : (responses (hangUp (settle server later {}
            (server.answerAttempt attempt state).2)).1).length ≤ k
        · rw [if_pos hle, if_pos (Nat.succ_le_succ hle)]
        · rw [if_neg hle, if_neg (fun h => hle (Nat.le_of_succ_le_succ h)), brokenOff_cons]

/-- What happens in a session with a fault, told by the session without one. -/
theorem events_faulted (server : Server) (k : Nat) (fault : WriteFault) (stopping : Bool)
    (arrivals : List Arrival) (state : ServerState) :
    let free := (run server {} stopping arrivals state).1.flatten
    (run server ⟨some k, fault⟩ stopping arrivals state).1.flatten =
      if (responses free).length ≤ k then free else brokenOff ((responses free).take k) fault := by
  have hfree := congrArg Prod.fst (run_eq_settle server {} stopping arrivals state)
  have hcut := congrArg Prod.fst (run_eq_settle server ⟨some k, fault⟩ stopping arrivals state)
  dsimp only at hfree hcut ⊢
  rw [hfree, hcut]
  exact hangUp_settle_faulted server _ k fault _

end Session

/-! ## Entries that stay -/

/-- The handler takes no entry out of the queue. -/
def Handler.KeepsEntries (handler : Handler) : Prop :=
  ∀ r q, ∀ id ∈ q.ids, id ∈ (handler r q).2.ids

namespace Table

variable {t : Table}

def KeepsEntries (t : Table) : Prop :=
  ∀ verb handler, t.get? verb = some handler → handler.KeepsEntries

theorem mem_ids_dispatch (ht : t.KeepsEntries) (r : Request) {q : Queue} {id : String}
    (hid : id ∈ q.ids) : id ∈ (t.dispatch r q).2.ids := by
  rcases t.dispatch_cases r q with
    ⟨-, heq⟩ | ⟨handler, f, q', hget, hrun, heq⟩ | ⟨handler, response, q', hget, hrun, heq⟩
  · rw [heq]
    exact hid
  · have hkept := ht r.verb handler hget r q id hid
    rw [hrun] at hkept
    rw [heq]
    exact hkept
  · have hkept := ht r.verb handler hget r q id hid
    rw [hrun] at hkept
    rw [heq]
    exact hkept

theorem keepsEntries_builtin : builtin.KeepsEntries := by
  have hexecute : Verb.handleExecute.KeepsEntries := by
    intro r q id hid
    show id ∈ (q.enqueue (.pending r)).2.ids
    rw [Queue.ids_enqueue]
    split
    · exact hid
    · exact List.mem_append_left _ hid
  apply forall_get?_registerAll
  · intro verb handler hget
    cases hget
  · simp only [List.forall_mem_cons]
    exact ⟨fun _ _ _ hid => hid, hexecute, fun _ _ _ hid => hid, List.forall_mem_nil _⟩

end Table

namespace Server

variable {server : Server}

theorem mem_ids_answerAttempt (ht : server.table.KeepsEntries) (attempt : Except Failure Request)
    {state : ServerState} {id : String} (hid : id ∈ state.queue.ids) :
    id ∈ (server.answerAttempt attempt state).2.queue.ids := by
  cases attempt with
  | error failure => exact hid
  | ok r =>
    show id ∈ (server.respond (r.stamp state.supply).1 state.queue).2.ids
    rw [respond_queue]
    split
    · exact Table.mem_ids_dispatch ht _ hid
    · exact hid

theorem mem_ids_answerAttempts (ht : server.table.KeepsEntries)
    (attempts : List (Except Failure Request)) {state : ServerState} {id : String}
    (hid : id ∈ state.queue.ids) : id ∈ (server.answerAttempts attempts state).2.queue.ids := by
  induction attempts generalizing state with
  | nil => exact hid
  | cons attempt later ih => exact ih (mem_ids_answerAttempt ht attempt hid)

/-- A request for work is in the queue once it is answered, under the id that it was given. -/
theorem mem_ids_of_execute {r : Request}
    (hbound : server.table.get? r.verb = some Verb.handleExecute)
    (hserved : (Version.check r.version).isOk = true) (state : ServerState) :
    (r.stamp state.supply).1.ident ∈ (server.answerAttempt (.ok r) state).2.queue.ids := by
  have hget : server.table.get? (r.stamp state.supply).1.verb = some Verb.handleExecute := hbound
  have hversion : (Version.check (r.stamp state.supply).1.version).isOk = true := hserved
  show _ ∈ (server.respond (r.stamp state.supply).1 state.queue).2.ids
  rw [respond_queue, if_pos hversion, Table.dispatch, Table.resolve, hget]
  show _ ∈ (state.queue.enqueue (.pending _)).2.ids
  rw [Queue.ids_enqueue]
  split
  · assumption
  · exact List.mem_append_right _ (List.mem_singleton_self _)

end Server

/-! ## Sessions -/

namespace Session

/-- The state behind the first `n` of some attempts, made by a session that opens on a state. -/
def stateAfter (server : Server) (attempts : List (Except Failure Request)) (n : Nat)
    (state : ServerState) : ServerState :=
  (server.answerAttempts (attempts.take n)
    { state with metrics := state.metrics.openSession }).2

variable {server : Server} {stopping : Bool} {arrivals : List Arrival}

theorem attempts_faulted (server : Server) (k : Nat) (fault : WriteFault) (stopping : Bool)
    (arrivals : List Arrival) :
    attempts server ⟨some k, fault⟩ stopping arrivals =
      (attempts server {} stopping arrivals).take (k + 1) :=
  server.reached_faulted k fault _

/-- Behind the last attempt stands the state that the session leaves, but for the close. -/
theorem state_run (server : Server) (stopping : Bool) (arrivals : List Arrival)
    (state : ServerState) :
    (run server {} stopping arrivals state).2 =
      closedState (stateAfter server (attempts server {} stopping arrivals)
        (responses (run server {} stopping arrivals state).1.flatten).length state) := by
  obtain ⟨hwritten, hstate⟩ := run_answers server {} stopping arrivals state
  rw [hstate, hwritten, Outlet.within, Server.length_answerAttempts, stateAfter, List.take_length]

theorem responses_free (server : Server) (stopping : Bool) (arrivals : List Arrival)
    (state : ServerState) :
    responses (run server {} stopping arrivals state).1.flatten =
      (server.answerAttempts (attempts server {} stopping arrivals)
        { state with metrics := state.metrics.openSession }).1 :=
  (run_answers server {} stopping arrivals state).1

theorem state_faulted (server : Server) (k : Nat) (fault : WriteFault) (stopping : Bool)
    (arrivals : List Arrival) (state : ServerState) :
    (run server ⟨some k, fault⟩ stopping arrivals state).2 =
      closedState (stateAfter server (attempts server {} stopping arrivals) (k + 1) state) := by
  rw [(run_answers server ⟨some k, fault⟩ stopping arrivals state).2, attempts_faulted, stateAfter]

theorem responses_faulted (server : Server) (k : Nat) (fault : WriteFault) (stopping : Bool)
    (arrivals : List Arrival) (state : ServerState) :
    responses (run server ⟨some k, fault⟩ stopping arrivals state).1.flatten =
      (responses (run server {} stopping arrivals state).1.flatten).take k := by
  rw [(run_answers server ⟨some k, fault⟩ stopping arrivals state).1, attempts_faulted,
    Server.answerAttempts_take, responses_free]
  show List.take k (List.take (k + 1) _) = _
  rw [List.take_take, Nat.min_eq_left (Nat.le_succ k)]

/-- What comes behind the frame whose answer is not taken has no effect. -/
theorem run_faulted_congr {k : Nat} {fault : WriteFault} {arrivals other : List Arrival}
    (hmore : k < (attempts server {} stopping arrivals).length)
    (hsame : (attempts server {} stopping other).take (k + 1) =
      (attempts server {} stopping arrivals).take (k + 1)) (state : ServerState) :
    (run server ⟨some k, fault⟩ stopping other state).1.flatten =
        (run server ⟨some k, fault⟩ stopping arrivals state).1.flatten ∧
      (run server ⟨some k, fault⟩ stopping other state).2 =
        (run server ⟨some k, fault⟩ stopping arrivals state).2 := by
  have hlength := congrArg List.length hsame
  rw [List.length_take, List.length_take] at hlength
  have hfirst := congrArg (List.take k) hsame
  rw [List.take_take, List.take_take, Nat.min_eq_left (Nat.le_succ k)] at hfirst
  constructor
  · have hbroken : ∀ script, k < (attempts server {} stopping script).length →
        (run server ⟨some k, fault⟩ stopping script state).1.flatten =
          brokenOff (server.answerAttempts ((attempts server {} stopping script).take k)
            { state with metrics := state.metrics.openSession }).1 fault := by
      intro script hscript
      have hevents := events_faulted server k fault stopping script state
      dsimp only at hevents
      rw [responses_free, Server.length_answerAttempts, if_neg (Nat.not_le.mpr hscript),
        ← Server.answerAttempts_take] at hevents
      exact hevents
    rw [hbroken other (by omega), hbroken arrivals hmore, hfirst]
  · rw [state_faulted, state_faulted, stateAfter, stateAfter, hsame]

/-- Of the first attempts that a session makes, a request for work is in the queue behind its own
turn, and stays there if no verb takes entries out. -/
theorem mem_ids_stateAfter {asked : List (Except Failure Request)} {i n : Nat} {r : Request}
    (hr : asked[i]? = some (.ok r)) (hi : i < n)
    (hbound : server.table.get? r.verb = some Verb.handleExecute)
    (hserved : (Version.check r.version).isOk = true) (state : ServerState) :
    let id := (r.stamp (stateAfter server asked i state).supply).1.ident
    id ∈ (stateAfter server asked (i + 1) state).queue.ids ∧
      (server.table.KeepsEntries → id ∈ (stateAfter server asked n state).queue.ids) := by
  have hturn : asked.take (i + 1) = asked.take i ++ [.ok r] := by
    rw [List.take_add_one, hr]
    rfl
  have hown : (r.stamp (stateAfter server asked i state).supply).1.ident ∈
      (stateAfter server asked (i + 1) state).queue.ids := by
    rw [stateAfter, stateAfter, hturn, Server.answerAttempts_append]
    exact Server.mem_ids_of_execute hbound hserved _
  refine ⟨hown, fun hkeeps => ?_⟩
  have hsplit : asked.take n = asked.take (i + 1) ++ (asked.take n).drop (i + 1) := by
    conv => lhs; rw [← List.take_append_drop (i + 1) (asked.take n)]
    rw [List.take_take, Nat.min_eq_left hi]
  show _ ∈ (server.answerAttempts (asked.take n) _).2.queue.ids
  rw [hsplit, Server.answerAttempts_append]
  exact Server.mem_ids_answerAttempts hkeeps _ hown

/-- **A write fault cuts a session short and spoils nothing.** Let the same script run without a
fault, and with a peer that takes `k` responses and then fails in any way, in any mode, on states
that are alike. Without the fault the session writes `answered` responses, one for each of its
attempts, and leaves the state behind all of them. With it, the session writes the first `k` of
these, makes one attempt more, and leaves the state behind that one: the same queue, and the same
counts of requests, of refused frames and of dispatches. It does what the other session does if
there are no more than `k` answers; otherwise it writes `k`, fails, and closes. It closes once. No
frame behind the one whose answer fails makes a difference. Every `EXECUTE` among the attempts is in
the queue as soon as it is answered, and thus before anything of the answer is written, and still is
when the session has closed if no verb takes entries out. -/
theorem run_faulted (server : Server) (k : Nat) (fault : WriteFault) (stopping : Bool)
    (arrivals : List Arrival) {s t : ServerState} (h : s.Alike t) :
    let free := run server {} stopping arrivals t
    let cut := run server ⟨some k, fault⟩ stopping arrivals s
    let asked := attempts server {} stopping arrivals
    let answered := (responses free.1.flatten).length
    (asked.length = answered ∧ free.2 = closedState (stateAfter server asked answered t)) ∧
      responses cut.1.flatten = (responses free.1.flatten).take (min k answered) ∧
      attempts server ⟨some k, fault⟩ stopping arrivals = asked.take (min (k + 1) answered) ∧
      cut.2.Alike (closedState (stateAfter server asked (min (k + 1) answered) t)) ∧
      cut.1.flatten = (if answered ≤ k then free.1.flatten
        else brokenOff ((responses free.1.flatten).take k) fault) ∧
      ClosesOnce cut.1.flatten ∧
      (k < answered →
        ∀ other, (attempts server {} stopping other).take (k + 1) = asked.take (k + 1) →
        (run server ⟨some k, fault⟩ stopping other s).1.flatten = cut.1.flatten ∧
          (run server ⟨some k, fault⟩ stopping other s).2 = cut.2) ∧
      ∀ i r, i < min (k + 1) answered → asked[i]? = some (.ok r) →
        server.table.get? r.verb = some Verb.handleExecute →
        (Version.check r.version).isOk = true →
        let id := (r.stamp (stateAfter server asked i t).supply).1.ident
        id ∈ (stateAfter server asked (i + 1) t).queue.ids ∧
          (server.table.KeepsEntries → id ∈ cut.2.queue.ids) := by
  intro free cut asked answered
  have hanswered : asked.length = answered := by
    rw [← server.length_answerAttempts asked { t with metrics := t.metrics.openSession },
      ← responses_free]
  obtain ⟨hevents, hstate⟩ := alike_run server ⟨some k, fault⟩ stopping arrivals h
  have hcut : cut.2.Alike (closedState (stateAfter server asked (min (k + 1) answered) t)) := by
    rw [stateAfter, ← hanswered, ← List.take_eq_take_min]
    rw [state_faulted server k fault stopping arrivals t] at hstate
    exact hstate
  refine ⟨⟨hanswered, state_run server stopping arrivals t⟩, ?_, ?_, hcut, ?_,
    closesOnce_run _ _ _ _ _, ?_, ?_⟩
  · rw [hevents, responses_faulted, ← List.take_eq_take_min]
  · rw [attempts_faulted, ← hanswered, ← List.take_eq_take_min]
  · rw [hevents]
    exact events_faulted server k fault stopping arrivals t
  · intro hmore other hsame
    exact run_faulted_congr (hanswered ▸ hmore) hsame s
  · intro i r hi hr hbound hserved
    obtain ⟨hown, hkept⟩ := mem_ids_stateAfter hr hi hbound hserved t
    refine ⟨hown, fun hkeeps => ?_⟩
    rw [hcut.queue]
    exact hkept hkeeps

/-- Of three requests for work in one buffer the second gets no answer, for the peer stalls, and is
in the queue all the same; the third is not looked at. -/
theorem run_faulted_third_execute :
    let server : Server := ⟨{ sessionMode := .persistent }, .builtin⟩
    let s : ServerState := { supply := ⟨Decimal.numeral, Decimal.numeral, fun _ => 0, 0⟩ }
    let t : ServerState := { supply := { s.supply with lapseAt := fun n => n * 1000000 } }
    let frame := utf8 "EXECUTE CMIT/1.0\n\n\x7b\"topic\":\"t\"\x7d\n\n"
    let arrivals := arriving [frame.take 9, frame.drop 9 ++ frame ++ frame]
    let free := run server {} false arrivals t
    let cut := run server ⟨some 1, .stalled⟩ false arrivals s
    let asked := attempts server {} false arrivals
    s.Alike t ∧ (responses free.1.flatten).length = 3 ∧ free.2.queue.length = 3 ∧
      responses cut.1.flatten = (responses free.1.flatten).take 1 ∧
      cut.2.Alike (closedState (stateAfter server asked 2 t)) ∧ cut.2.queue.length = 2 ∧
      ∃ r, asked[1]? = some (.ok r) ∧
        (r.stamp (stateAfter server asked 1 t).supply).1.ident ∈ cut.2.queue.ids := by
  intro server s t frame arrivals free cut asked
  have halike : s.Alike t := ⟨rfl, ⟨_, rfl⟩, rfl, rfl, fun _ => rfl⟩
  have hthree : (responses free.1.flatten).length = 3 := by decide +kernel
  obtain ⟨-, hwritten, -, hstate, -, -, -, hexecute⟩ :=
    run_faulted server 1 .stalled false arrivals halike
  dsimp only at hwritten hstate hexecute
  rw [hthree] at hwritten hstate hexecute
  have hsecond : (asked[1]?).any (fun attempt => attempt.toOption.any fun r =>
      r.verb = "EXECUTE" ∧ (Version.check r.version).isOk = true) = true := by
    decide +kernel
  obtain ⟨attempt, hattempt, hread⟩ := (Option.any_eq_true _ _).mp hsecond
  obtain ⟨r, rfl, hverb, hserved⟩ := exists_ok_of_any hread
  have hbound : server.table.get? r.verb = some Verb.handleExecute := by
    rw [hverb]
    rfl
  obtain ⟨-, hkept⟩ := hexecute 1 r (by decide) hattempt hbound hserved
  exact ⟨halike, hthree, by decide +kernel, hwritten, hstate, by decide +kernel, r, hattempt,
    hkept Table.keepsEntries_builtin⟩

end Session

end Courier
