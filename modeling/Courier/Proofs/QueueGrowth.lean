import Courier.Proofs.BuiltinVerbs
import Courier.Proofs.SessionAttempts

/-!
# The queue under clients

With the verbs of every server alone, clients can put work behind what the queue holds and can do
nothing else to it. What a session has added is told by its attempts, without the queue
(`newEntries`): one entry for each `EXECUTE` that is served and whose id is not held when its turn
comes. Main statement: `queue_run`.
-/

namespace Courier

/-- The entries that attempts come to, one after another, when entries of the given ids are held:
what each request that is served and asks for work carries, if its id is not held yet. -/
def newEntries (held : List String) : List (Except Failure Request) → List Entry
  | [] => []
  | .error _ :: later => newEntries held later
  | .ok r :: later =>
      if r.verb = Verb.execute ∧ (Version.check r.version).isOk = true ∧ r.ident ∉ held then
        ⟨r.ident, r.topic, .pending, r.payload, r.envelope.timestamp.getD ""⟩
          :: newEntries (held ++ [r.ident]) later
      else newEntries held later

namespace Server

theorem queue_respond (settings : Settings) (r : Request) (q : Queue) :
    ((⟨settings, .builtin⟩ : Server).respond r q).2 =
      if r.verb = Verb.execute ∧ (Version.check r.version).isOk = true
      then (q.enqueue (.pending r)).2 else q := by
  rw [respond_queue]
  split
  · rename_i h
    simp [Table.queue_dispatch_builtin, h]
  · rename_i h
    simp [h]

/-- What one stamped request adds, and what it leaves to those behind it. -/
theorem newEntries_ok (settings : Settings) (r : Request) (q : Queue)
    (later : List (Except Failure Request)) :
    q.entries ++ newEntries q.ids (.ok r :: later) =
      ((⟨settings, .builtin⟩ : Server).respond r q).2.entries
        ++ newEntries ((⟨settings, .builtin⟩ : Server).respond r q).2.ids later := by
  rw [queue_respond, newEntries]
  by_cases hserved : r.verb = Verb.execute ∧ (Version.check r.version).isOk = true
  · rw [if_pos hserved]
    by_cases hheld : r.ident ∈ q.ids
    · -- the id is held: no entry here, and the queue stays
      obtain ⟨held, hget⟩ := Queue.exists_get?_of_mem hheld
      have hget : q.get? (Entry.pending r).id = some held := hget
      rw [if_neg (fun h => h.2.2 hheld), Queue.enqueue_of_get? hget]
    · have hid : (Entry.pending r).id ∉ q.ids := hheld
      rw [if_pos ⟨hserved.1, hserved.2, hheld⟩, Queue.enqueue_of_notMem hid]
      simp [Queue.ids, Entry.pending]
  · rw [if_neg hserved, if_neg (fun h => hserved ⟨h.1, h.2.1⟩)]

/-- **Attempts add their new entries behind what the queue holds.** -/
theorem entries_answerAttempts (settings : Settings) (attempts : List (Except Failure Request))
    (state : ServerState) :
    ((⟨settings, .builtin⟩ : Server).answerAttempts attempts state).2.queue.entries =
      state.queue.entries ++ newEntries state.queue.ids (stampAttempts attempts state.supply) := by
  induction attempts generalizing state with
  | nil => simp [answerAttempts, stampAttempts, newEntries]
  | cons attempt later ih =>
    rw [stampAttempts_cons ⟨settings, .builtin⟩]
    have ih := ih ((⟨settings, .builtin⟩ : Server).answerAttempt attempt state).2
    cases attempt with
    | error failure => exact ih
    | ok asked =>
      exact ih.trans (newEntries_ok settings (asked.stamp state.supply).1 state.queue _).symm

theorem nodup_ids_answerAttempts (settings : Settings)
    (attempts : List (Except Failure Request)) {state : ServerState}
    (h : state.queue.ids.Nodup) :
    ((⟨settings, .builtin⟩ : Server).answerAttempts attempts state).2.queue.ids.Nodup := by
  induction attempts generalizing state with
  | nil => exact h
  | cons attempt later ih =>
    apply ih
    cases attempt with
    | error failure => exact h
    | ok asked =>
      show ((⟨settings, .builtin⟩ : Server).respond (asked.stamp state.supply).1
        state.queue).2.ids.Nodup
      rw [queue_respond]
      split
      · exact Queue.nodup_ids_enqueue h _
      · exact h

end Server

/-- **The queue is append-only under clients.** Whatever a client sends to a server with the verbs
of every server, and however its session ends: behind the session the queue holds what it held
before, entry for entry, and behind that one pending entry for each `EXECUTE` among the attempts of
the session that was served and whose id, drawn where the request had none, was not in the queue
when its turn came. The entries stand in the order of these requests and carry the id, the topic,
the payload and the time of theirs, so that no id comes twice if none did before. -/
theorem queue_run (settings : Settings) (outlet : Outlet) (stopping : Bool)
    (arrivals : List Arrival) (state : ServerState) :
    let server : Server := ⟨settings, .builtin⟩
    let asked := stampAttempts (Session.attempts server outlet stopping arrivals) state.supply
    let after := (Session.run server outlet stopping arrivals state).2.queue
    after.entries = state.queue.entries ++ newEntries state.queue.ids asked ∧
      (state.queue.ids.Nodup → after.ids.Nodup) := by
  intro server asked after
  have hafter : after = (server.answerAttempts (Session.attempts server outlet stopping arrivals)
      { state with metrics := state.metrics.openSession }).2.queue := by
    rw [show after = _ from congrArg ServerState.queue
      (Session.run_answers server outlet stopping arrivals state).2]
    rfl
  rw [hafter]
  constructor
  · exact Server.entries_answerAttempts settings _ _
  · intro h
    exact Server.nodup_ids_answerAttempts settings _ h

end Courier
