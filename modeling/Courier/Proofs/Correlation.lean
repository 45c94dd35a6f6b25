import Courier.Proofs.SessionAttempts
import Courier.Verb.Builtin
import Mathlib.Data.List.Forall2

/-!
# Which request a response answers

A client knows by the id and the topic which of its requests a response answers. Every response to a
request has both, whatever the handler does (`answers_dispatch`); the responses that the server
makes itself, and those of the verbs of every server, have its time and its version too
(`mirrors_dispatch`). A session writes no other responses to requests that it has read.
-/

namespace Courier

namespace Response

structure Answers (response : Response) (r : Request) : Prop where
  id : response.envelope.id = r.envelope.id
  topic : response.envelope.topic = r.envelope.topic

/-- The response has the time and the version of the request as well. -/
structure Mirrors (response : Response) (r : Request) : Prop extends response.Answers r where
  timestamp : response.envelope.timestamp = r.envelope.timestamp
  version : response.version = r.version

theorem answers_failure (version : String) (r : Request) (f : Failure) :
    (failure version r.envelope f).Answers r := ⟨rfl, rfl⟩

theorem mirrors_failureFor (r : Request) (f : Failure) : (failureFor r f).Mirrors r :=
  ⟨answers_failure r.version r f, rfl, rfl⟩

theorem mirrors_reply (r : Request) (status : Status) (reason : String)
    (payload : Option Json.Value) : (reply r status reason payload).Mirrors r :=
  ⟨⟨rfl, rfl⟩, rfl, rfl⟩

/-- What a reply lacks of a mirror is the time and the version, not the id or the topic. -/
theorem Mirrors.correlate {response : Response} {r : Request} (h : response.Mirrors r) :
    (Table.correlate r response).Mirrors r :=
  ⟨⟨rfl, rfl⟩, h.timestamp, h.version⟩

end Response

/-! ## Dispatch -/

/-- Whatever a handler of this kind replies has everything of the request. -/
def Handler.Mirrors (handler : Handler) : Prop :=
  ∀ r q response, (handler r q).1 = .ok response → response.Mirrors r

namespace Verb

theorem mirrors_handlePing : Handler.Mirrors handlePing := by
  rintro r q response ⟨⟩
  exact Response.mirrors_reply r .ok "OK" r.payload

theorem mirrors_handleExecute : Handler.Mirrors handleExecute := by
  rintro r q response ⟨⟩
  exact Response.mirrors_reply r .ok "Accepted" _

theorem mirrors_handlePoll : Handler.Mirrors handlePoll := by
  rintro r q response ⟨⟩
  exact Response.mirrors_reply r .ok "OK" _

end Verb

namespace Table

theorem answers_dispatch (t : Table) (r : Request) (q : Queue) : (t.dispatch r q).1.Answers r :=
  ⟨id_dispatch t r q, topic_dispatch t r q⟩

theorem mirrors_dispatch {t : Table} {r : Request} {q : Queue}
    (h : ∀ handler response, t.get? r.verb = some handler → (handler r q).1 = .ok response →
      response.Mirrors r) : (t.dispatch r q).1.Mirrors r := by
  rcases t.dispatch_cases r q with
    ⟨-, heq⟩ | ⟨handler, f, q', -, -, heq⟩ | ⟨handler, response, q', hget, hrun, heq⟩
  · rw [heq]
    exact Response.mirrors_failureFor r _
  · rw [heq]
    exact Response.mirrors_failureFor r f
  · rw [heq]
    exact (h handler response hget (congrArg Prod.fst hrun)).correlate

end Table

/-! ## Sessions -/

namespace Server

theorem answers_respond (server : Server) (r : Request) (q : Queue) :
    (server.respond r q).1.Answers r := by
  unfold respond
  split
  · exact Table.answers_dispatch server.table r q
  · exact Response.answers_failure _ r _

/-- What holds between every stamped request and its answer holds between the requests of some
attempts and the answers to them, in order. -/
theorem forall₂_answerAttempts (server : Server) {R : Request → Response → Prop}
    (hR : ∀ r q, R r (server.respond r q).1) (attempts : List (Except Failure Request))
    (state : ServerState) :
    List.Forall₂ (fun attempt response => ∀ r, attempt = .ok r → R r response)
      (stampAttempts attempts state.supply) (server.answerAttempts attempts state).1 := by
  induction attempts generalizing state with
  | nil => exact .nil
  | cons attempt later ih =>
    rw [stampAttempts_cons server]
    refine .cons ?_ (ih _)
    intro r hr
    cases attempt with
    | error failure => cases hr
    | ok asked =>
      obtain rfl := Except.ok.inj hr
      exact hR _ _

theorem answers_answerAttempts (server : Server) (attempts : List (Except Failure Request))
    (state : ServerState) :
    List.Forall₂ (fun attempt response => ∀ r, attempt = .ok r → response.Answers r)
      (stampAttempts attempts state.supply) (server.answerAttempts attempts state).1 :=
  server.forall₂_answerAttempts server.answers_respond attempts state

end Server

theorem Outlet.forall₂_within {α β : Type} {R : α → β → Prop} {as : List α} {bs : List β}
    (outlet : Outlet) (h : List.Forall₂ R as bs) :
    List.Forall₂ R (outlet.within as) (outlet.within bs) := by
  unfold within
  split
  · exact h
  · exact List.forall₂_take _ h

/-- **A response answers its request.** The response to a request has its id and its topic, whatever
the handlers of the table do. If the verb is not bound, if the handler fails, or if it is one of
those of every server, the response has the time and the version of the request too. And what a
session writes for its attempts, one response for each in order, has the id and the topic of the
request, stamped, wherever the attempt gave one, be its version served or not. -/
theorem response_correlation :
    (∀ (t : Table) (r : Request) (q : Queue), (t.dispatch r q).1.Answers r) ∧
    (∀ (t : Table) (r : Request) (q : Queue),
      (t.get? r.verb = none ∨ ∃ handler, t.get? r.verb = some handler ∧
        ((∃ f, (handler r q).1 = .error f) ∨ handler = Verb.handlePing ∨
          handler = Verb.handleExecute ∨ handler = Verb.handlePoll)) →
      (t.dispatch r q).1.Mirrors r) ∧
    (∀ (server : Server) (outlet : Outlet) (stopping : Bool) (arrivals : List Arrival)
      (state : ServerState),
      List.Forall₂ (fun attempt response => ∀ r, attempt = .ok r → response.Answers r)
        (outlet.within
          (stampAttempts (Session.attempts server outlet stopping arrivals) state.supply))
        (Session.responses (Session.run server outlet stopping arrivals state).1.flatten)) := by
  refine ⟨Table.answers_dispatch, ?_, ?_⟩
  · intro t r q h
    apply Table.mirrors_dispatch
    intro handler response hget hreply
    -- a handler that fails never comes to this reply
    rcases h with hnone | ⟨handler', hget', hkind⟩
    · cases hnone.symm.trans hget
    obtain rfl := Option.some.inj (hget'.symm.trans hget)
    rcases hkind with ⟨f, hfail⟩ | rfl | rfl | rfl
    · cases hfail.symm.trans hreply
    · exact Verb.mirrors_handlePing r q response hreply
    · exact Verb.mirrors_handleExecute r q response hreply
    · exact Verb.mirrors_handlePoll r q response hreply
  · intro server outlet stopping arrivals state
    rw [(Session.run_answers server outlet stopping arrivals state).1]
    exact outlet.forall₂_within
      (server.answers_answerAttempts _ { state with metrics := state.metrics.openSession })

/-- A request in a version of its own to a verb of every server, and a session that is asked for a
version that is not served, by a request without a time. -/
theorem response_correlation_unserved :
    let r : Request := ⟨"EXECUTE", "CMIT/1.7", ⟨"x", "5", "t", none⟩⟩
    let server : Server := ⟨{ sessionMode := .persistent }, .builtin⟩
    let state : ServerState := { supply := ⟨fun _ => "id", fun _ => "time", fun _ => 0, 0⟩ }
    let arrivals := [.bytes (Text.utf8 "PING 2.0\n\n\x7b\"id\":\"y\",\"topic\":\"t\"\x7d\n\n")]
    let written := Session.responses (Session.run server {} false arrivals state).1.flatten
    (Table.builtin.dispatch r .empty).1.Mirrors r ∧ written.length = 1 ∧
      List.Forall₂ (fun attempt response => ∀ r, attempt = .ok r → response.Answers r)
        (Outlet.within {} (stampAttempts (Session.attempts server {} false arrivals) state.supply))
        written := by
  intro r server state arrivals written
  refine ⟨response_correlation.2.1 .builtin r .empty
    (.inr ⟨Verb.handleExecute, rfl, .inr (.inr (.inl rfl))⟩), ?_, ?_⟩
  · decide +kernel
  · exact response_correlation.2.2 server {} false arrivals state

end Courier
