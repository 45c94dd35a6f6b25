import Courier.Proofs.Correlation
import Courier.Verb.Scripted

/-!
# The times of responses

The id and the topic of a response are restored if a handler has changed them. Its time is not: it
is the time of the request exactly if the handler has kept it (`timestamp_dispatch_iff`). Where all
handlers of a table keep it, every response of a session to a request has the time of that request
(`timestamps_run`).
-/

namespace Courier

/-! ## Handlers -/

/-- Every reply of the handler has the time of the request. -/
def Handler.KeepsTime (handler : Handler) : Prop :=
  ∀ r q response, (handler r q).1 = .ok response →
    response.envelope.timestamp = r.envelope.timestamp

theorem Handler.Mirrors.keepsTime {handler : Handler} (h : handler.Mirrors) :
    handler.KeepsTime := by
  intro r q response hreply
  exact (h r q response hreply).timestamp

/-- A handler loses the time only if it answers another request. -/
theorem HandlerScript.keepsTime (script : HandlerScript)
    (h : ∀ envelope payload, script ≠ .stray envelope payload) : script.handler.KeepsTime := by
  intro r q response hreply
  cases script with
  | status token reason payload =>
    simp only [handler] at hreply
    cases htoken : Status.ofToken token with
    | error f =>
      rw [htoken] at hreply
      cases hreply
    | ok status =>
      rw [htoken] at hreply
      cases hreply
      rfl
  | fail failure => cases hreply
  | stray envelope payload => exact absurd rfl (h envelope payload)
  | depth | accept payload =>
    cases hreply
    rfl
  | advance step | complete =>
    simp only [handler] at hreply
    split at hreply
    · cases hreply
      rfl
    · cases hreply
  | unknown => cases hreply

/-! ## Tables -/

namespace Table

def KeepsTimes (t : Table) : Prop :=
  ∀ verb handler, t.get? verb = some handler → handler.KeepsTime

theorem KeepsTimes.registerAll {t : Table} (h : t.KeepsTimes) {bindings : List (String × Handler)}
    (hbindings : ∀ b ∈ bindings, b.2.KeepsTime) : (t.registerAll bindings).KeepsTimes :=
  forall_get?_registerAll h hbindings

theorem keepsTimes_builtin : KeepsTimes .builtin := by
  apply KeepsTimes.registerAll
  · intro verb handler hget
    cases hget
  · simp only [List.forall_mem_cons]
    exact ⟨Verb.mirrors_handlePing.keepsTime, Verb.mirrors_handleExecute.keepsTime,
      Verb.mirrors_handlePoll.keepsTime, List.forall_mem_nil _⟩

theorem timestamp_dispatch {t : Table} {r : Request} {q : Queue}
    (h : ∀ handler response, t.get? r.verb = some handler → (handler r q).1 = .ok response →
      response.envelope.timestamp = r.envelope.timestamp) :
    (t.dispatch r q).1.envelope.timestamp = r.envelope.timestamp := by
  rcases t.dispatch_cases r q with
    ⟨-, heq⟩ | ⟨handler, f, q', -, -, heq⟩ | ⟨handler, response, q', hget, hrun, heq⟩
  · rw [heq]
    rfl
  · rw [heq]
    rfl
  · rw [heq]
    exact h handler response hget (congrArg Prod.fst hrun)

/-- **A response has the time of its request exactly if the handler has kept it.** Where there is no
handler, or where it fails, the response has it. -/
theorem timestamp_dispatch_iff (t : Table) (r : Request) (q : Queue) :
    (t.dispatch r q).1.envelope.timestamp = r.envelope.timestamp ↔
      ∀ handler response, t.get? r.verb = some handler → (handler r q).1 = .ok response →
        response.envelope.timestamp = r.envelope.timestamp := by
  constructor
  · intro h handler response hget hreply
    have hrun : handler r q = (.ok response, (handler r q).2) := Prod.ext hreply rfl
    -- correlating a reply leaves its time alone
    simp only [dispatch, resolve, hget] at h
    rw [hrun] at h
    exact h
  · exact timestamp_dispatch

/-- A handler that answers another request with the same id and topic. -/
theorem timestamp_dispatch_stray :
    let stray : HandlerScript := .stray (fun r => { id := r.envelope.id, topic := r.topic }) none
    let r : Request := ⟨"ROGUE", "CMIT/1.0", ⟨"a", "5", "t", none⟩⟩
    let response := (dispatch (Table.empty.register "ROGUE" stray.handler) r .empty).1
    response.Answers r ∧ response.status.token = "ok" ∧
      response.envelope.timestamp ≠ r.envelope.timestamp := by
  refine ⟨⟨rfl, rfl⟩, ?_, ?_⟩ <;> decide +kernel

end Table

/-! ## Sessions -/

theorem Server.keepsTimes_ofSettings {settings : Settings} {handlers : List (String × Handler)}
    {server : Server} (hserver : ofSettings settings handlers = .ok server)
    (h : ∀ b ∈ handlers, b.2.KeepsTime) : server.table.KeepsTimes := by
  unfold ofSettings at hserver
  split at hserver
  · obtain rfl := Except.ok.inj hserver
    exact Table.keepsTimes_builtin.registerAll h
  · cases hserver

/-- A version that is not served is no reason to lose the time. -/
theorem Server.timestamp_respond {server : Server} (h : server.table.KeepsTimes) (r : Request)
    (q : Queue) : (server.respond r q).1.envelope.timestamp = r.envelope.timestamp := by
  unfold respond
  split
  · apply Table.timestamp_dispatch
    intro handler response hget
    exact h r.verb handler hget r q response
  · rfl

/-- **Where the handlers keep the time, sessions do.** What a session writes for its attempts, one
response for each in order, has the time of the request, stamped, wherever the attempt gave one. -/
theorem Session.timestamps_run {server : Server} (h : server.table.KeepsTimes) (outlet : Outlet)
    (stopping : Bool) (arrivals : List Arrival) (state : ServerState) :
    List.Forall₂ (fun attempt response => ∀ r, attempt = .ok r →
        response.envelope.timestamp = r.envelope.timestamp)
      (outlet.within (stampAttempts (attempts server outlet stopping arrivals) state.supply))
      (responses (run server outlet stopping arrivals state).1.flatten) := by
  rw [(run_answers server outlet stopping arrivals state).1]
  exact outlet.forall₂_within (server.forall₂_answerAttempts (Server.timestamp_respond h) _
    { state with metrics := state.metrics.openSession })

end Courier
