import Courier.Proofs.BuiltinVerbs
import Courier.Proofs.KeyedOrder
import Courier.Proofs.ReachedStates

/-!
# Clients cannot make up series

The labels of a series come from the server and not from what it is sent: a verb that is not bound
is counted as unknown, a failure by its code, and a status is that of failures or one that a handler
gives (`Server.Knows`). This holds of all states that sessions lead to (`Reaches.knows`), so that
there are no more series than a server has verbs and statuses for.

Main statement: `Server.series_bounded`.
-/

namespace Courier

open Text Wire Metrics

namespace Server

variable {server : Server} {history : List Counted} {state : ServerState}

/-! ## The labels of a server -/

def verbLabelNames (server : Server) : List String := server.table.verbs ++ [unknownVerbLabel]

/-- The status is that of failures, or a handler that is bound to the verb gives it. -/
def MayAnswer (server : Server) (verb status : String) : Prop :=
  status = "error" ∨
    ∃ handler r q response q', server.table.get? verb = some handler ∧ r.verb = verb ∧
      handler r q = (.ok response, q') ∧ response.status.token = status

/-- The labels of an answered request: a verb that the server knows, or the label of all others, and
a status that it gives. -/
def KnowsRequest (server : Server) (labels : Labels) : Prop :=
  ∃ verb ∈ server.verbLabelNames, ∃ status,
    server.MayAnswer verb status ∧ labels = requestLabels verb status

/-- The labels of a refused frame: one of two codes. -/
def KnowsCode (labels : Labels) : Prop :=
  ∃ code ∈ ["BAD_REQUEST", "PAYLOAD_TOO_LARGE"], labels = codeLabels code

/-- The labels of a time of dispatch: a verb that the server knows, or the label of all others. -/
def KnowsVerb (server : Server) (labels : Labels) : Prop :=
  ∃ verb ∈ server.verbLabelNames, labels = verbLabels verb

/-- All series are under labels that the server gives, each of them once. -/
structure Knows (server : Server) (m : Metrics) : Prop where
  requests : Family.Among server.KnowsRequest m.requests
  decodeErrors : Family.Among KnowsCode m.decodeErrors
  sessions : Family.Among (· = sessionLabels) m.sessions
  durations : Family.Among server.KnowsVerb m.durations

theorem verbLabel_mem (server : Server) (verb : String) :
    server.verbLabel verb ∈ server.verbLabelNames := by
  unfold verbLabel
  split
  · rename_i h
    exact List.mem_append_left _ (Keyed.isSome_get?_iff.mp h)
  · exact List.mem_append_right _ List.mem_cons_self

/-- The status of an answer is that of failures, or the handler of the verb gives it. -/
theorem mayAnswer_respond (server : Server) (r : Request) (q : Queue) :
    server.MayAnswer (server.verbLabel r.verb) (server.respond r q).1.status.token := by
  unfold respond
  split
  · rcases server.table.dispatch_cases r q with
      ⟨-, heq⟩ | ⟨_, _, _, -, -, heq⟩ | ⟨handler, response, q', hget, hreply, heq⟩
    · rw [heq]
      exact .inl rfl
    · rw [heq]
      exact .inl rfl
    · have hverb : server.verbLabel r.verb = r.verb := by
        rw [verbLabel, Table.contains, hget]
        rfl
      rw [heq, hverb]
      exact .inr ⟨handler, r, q, response, q', hget, rfl, hreply, rfl⟩
  · exact .inl rfl

namespace Knows

variable {m : Metrics}

theorem openSession (h : server.Knows m) : server.Knows m.openSession :=
  { h with sessions := h.sessions.update rfl _ _ }

theorem closeSession (h : server.Knows m) : server.Knows m.closeSession :=
  { h with sessions := h.sessions.update rfl _ _ }

theorem countRequest (h : server.Knows m) {verb status : String}
    (hverb : verb ∈ server.verbLabelNames) (hstatus : server.MayAnswer verb status) (nanos : Nat) :
    server.Knows (m.countRequest verb status nanos) :=
  { h with
    requests := h.requests.update ⟨verb, hverb, status, hstatus, rfl⟩ _ _
    durations := h.durations.update ⟨verb, hverb, rfl⟩ _ _ }

theorem countDecodeError (h : server.Knows m) {code : String}
    (hcode : code ∈ ["BAD_REQUEST", "PAYLOAD_TOO_LARGE"]) :
    server.Knows (m.countDecodeError code) :=
  { h with decodeErrors := h.decodeErrors.update ⟨code, hcode, rfl⟩ _ _ }

/-- An attempt is counted as a request under labels of the server, or under one of the two codes. -/
theorem answerAttempt (h : server.Knows state.metrics) {attempt : Except Failure Request}
    (hattempt : Decoder.IsResult attempt) :
    server.Knows (server.answerAttempt attempt state).2.metrics := by
  cases hattempt with
  | decoded r => exact h.countRequest (server.verbLabel_mem _) (server.mayAnswer_respond _ _) _
  | malformed cause => exact h.countDecodeError List.mem_cons_self
  | refused limit => exact h.countDecodeError (List.mem_cons_of_mem _ List.mem_cons_self)

end Knows

/-- **All series are under labels that the server gives**, whatever its clients send. -/
theorem Reaches.knows (h : server.Reaches history state) : server.Knows state.metrics := by
  induction h with
  | fresh queue supply =>
    exact ⟨Family.among_nil _, Family.among_nil _, Family.among_nil _, Family.among_nil _⟩
  | opened _ ih => exact ih.openSession
  | closed _ ih => exact ih.closeSession
  | answered hattempt _ ih => exact ih.answerAttempt hattempt
  | elsewhere queue supply _ ih => exact ih

end Server

/-! ## How many series there are -/

def Metrics.seriesCount (m : Metrics) : Nat :=
  m.requests.length + m.decodeErrors.length + m.sessions.length + m.durations.length

namespace Table

/-- The handlers give no status but those of success and of failure. -/
def IsPlain (t : Table) : Prop :=
  ∀ verb handler, t.get? verb = some handler → ∀ r q response q',
    handler r q = (.ok response, q') → response.status.token ∈ ["ok", "error"]

theorem isPlain_builtin : builtin.IsPlain := by
  intro verb handler hget r q response q' hreply
  have hok : ∀ {reply : Except Failure Response × Queue}, reply = (.ok response, q') →
      reply.1.map (·.status) = .ok Status.ok → response.status.token ∈ ["ok", "error"] := by
    rintro _ rfl hstatus
    have hok : response.status = .ok := Except.ok.inj hstatus
    rw [hok]
    exact List.mem_cons_self
  rw [get?_builtin] at hget
  split at hget
  · cases hget
    exact hok hreply rfl
  split at hget
  · cases hget
    exact hok hreply rfl
  split at hget
  · cases hget
    exact hok hreply rfl
  · cases hget

end Table

namespace Server

variable {server : Server} {history : List Counted} {state : ServerState} {m : Metrics}

theorem length_verbLabelNames (server : Server) :
    server.verbLabelNames.length = server.table.verbs.length + 1 := List.length_append

theorem Knows.length_requests (h : server.Knows m) (hplain : server.table.IsPlain) :
    m.requests.length ≤ 2 * (server.table.verbs.length + 1) := by
  have hall := h.requests.length_le
    (server.verbLabelNames.flatMap fun verb => ["ok", "error"].map (requestLabels verb)) ?_
  · rw [List.length_flatMap] at hall
    simpa [length_verbLabelNames, Nat.mul_comm] using hall
  · rintro labels ⟨verb, hverb, status, hstatus, rfl⟩
    have hstatus : status ∈ ["ok", "error"] := by
      rcases hstatus with rfl | ⟨handler, r, q, response, q', hget, -, hreply, rfl⟩
      · exact List.mem_cons_of_mem _ List.mem_cons_self
      · exact hplain verb handler hget r q response q' hreply
    exact List.mem_flatMap.mpr ⟨verb, hverb, List.mem_map_of_mem hstatus⟩

theorem Knows.seriesCount_le (h : server.Knows m) (hplain : server.table.IsPlain) :
    m.seriesCount ≤
      2 * (server.table.verbs.length + 1) + 2 + 1 + (server.table.verbs.length + 1) := by
  have hrequests := h.length_requests hplain
  have hdecodeErrors : m.decodeErrors.length ≤ 2 := by
    apply h.decodeErrors.length_le (["BAD_REQUEST", "PAYLOAD_TOO_LARGE"].map codeLabels)
    rintro labels ⟨code, hcode, rfl⟩
    exact List.mem_map_of_mem hcode
  have hsessions : m.sessions.length ≤ 1 := by
    apply h.sessions.length_le [sessionLabels]
    rintro labels rfl
    exact List.mem_cons_self
  have hdurations : m.durations.length ≤ server.table.verbs.length + 1 := by
    have hall := h.durations.length_le (server.verbLabelNames.map verbLabels) ?_
    · rwa [List.length_map, length_verbLabelNames] at hall
    · rintro labels ⟨verb, hverb, rfl⟩
      exact List.mem_map_of_mem hverb
  unfold Metrics.seriesCount
  omega

/-- **Clients cannot grow the series of a server.** In any state that sessions lead to, whatever
they are sent, however they end and however they take turns: answered requests are counted under a
verb that is bound, or as unknown, and under the status of failures or one that the handler of this
verb gives; times of dispatch under such a verb; and refused frames under two codes; each series is
there once. So if no handler gives a status but those of success and of failure, there are at most
two series for each verb and for the unknown ones, two for refused frames, one for open sessions,
and one time of dispatch for each verb and for the unknown ones. The three built-in verbs are so. -/
theorem series_bounded (h : server.Reaches history state) :
    (∀ outlet stopping arrivals, ∃ own,
      server.Reaches (history ++ own) (Session.run server outlet stopping arrivals state).2) ∧
      (∀ outlet stopping,
        server.Reaches history (Session.start server outlet stopping state).2.2) ∧
      (∀ arrival session, ∃ own,
        server.Reaches (history ++ own) (Session.resume server arrival session state).2.2) ∧
      server.Knows state.metrics ∧
      (server.table.IsPlain → state.metrics.seriesCount ≤
        2 * (server.table.verbs.length + 1) + 2 + 1 + (server.table.verbs.length + 1)) ∧
      (server.table = .builtin →
        state.metrics.seriesCount ≤ 2 * (3 + 1) + 2 + 1 + (3 + 1)) := by
  refine ⟨h.run, h.start, h.resume, h.knows, h.knows.seriesCount_le, ?_⟩
  intro hbuiltin
  have hcount := h.knows.seriesCount_le (hbuiltin ▸ Table.isPlain_builtin)
  rwa [hbuiltin] at hcount

/-- Verbs, versions and frames that a client makes up. -/
theorem series_bounded_made_up :
    let server : Server := ⟨{ maxFrameBytes := 64, sessionMode := .persistent }, .builtin⟩
    let state : ServerState := { supply := ⟨Decimal.numeral, Decimal.numeral, fun _ => 0, 0⟩ }
    let frame := fun head : String => utf8 (head ++ "\n\n\x7b\"topic\":\"t\"\x7d\n\n")
    let script := ["A CMIT/1.0", "B CMIT/1.0", "PING CMIT/7.0", "C D/E", "X"].map
      fun head => Arrival.bytes (frame head)
    let first := Session.run server {} false script state
    let second := Session.run server ⟨some 1, .stalled⟩ false script first.2
    (∃ history, server.Reaches history second.2) ∧ second.2.metrics.seriesCount ≤ 15 := by
  intro server state frame script first second
  have hfresh : server.Reaches [] state := .fresh .empty state.supply
  obtain ⟨own, hfirst⟩ := hfresh.run {} false script
  obtain ⟨more, hsecond⟩ := (series_bounded hfirst).1 ⟨some 1, .stalled⟩ false script
  obtain ⟨-, -, -, -, -, hcount⟩ := series_bounded hsecond
  exact ⟨⟨_, hsecond⟩, hcount rfl⟩

end Server

end Courier
