import Courier.Proofs.ReachedStates
import Courier.Proofs.WriteFaults

/-!
# What the metrics tell

Every request that a session decodes is counted in two families, every frame that it refuses in a
third, and no way out of a session leaves a count out or makes one twice. The history of a server is
the list of what has been counted (`Counted`), and each family tells it: a series is the number of
its marks in the history modulo `2^64`, and as long as no series starts again from zero, any series
together are the number of marks that they stand for (`Family.Tallies`).

Main statement: `run_accounts`.
-/

namespace Courier

open Text Wire Metrics

namespace Metrics

/-! ## Families as tallies -/

namespace Family

variable {α : Type}

/-- What is read off all series with labels that are wanted, as one sum. -/
def sumOf (read : α → Nat) (wanted : Labels → Bool) : Family α → Nat
  | [] => 0
  | (l, a) :: rest => (if wanted l then read a else 0) + sumOf read wanted rest

/-- An update changes a sum by what it changes in one series. -/
theorem sumOf_update (read : α → Nat) {zero : α} (hzero : read zero = 0) (wanted : Labels → Bool)
    (labels : Labels) (change : α → α) (f : Family α) :
    sumOf read wanted (update labels zero change f) +
        (if wanted labels then read ((get? labels f).getD zero) else 0) =
      sumOf read wanted f +
        (if wanted labels then read (change ((get? labels f).getD zero)) else 0) := by
  fun_induction update labels zero change f with
  | case1 => simp [sumOf, get?, hzero]
  | case2 a rest =>
    simp only [sumOf, get?, if_true, Option.getD_some]
    omega
  | case3 l a rest hne ih =>
    simp only [sumOf, get?, if_neg hne]
    omega

/-- The family has one series for the marks with the same labels, and counts them in 64 bits. -/
structure Tallies (read : α → UInt64) (f : Family α) (marks : List Labels) : Prop where
  series : ∀ labels, ((get? labels f).map read).getD 0 = UInt64.ofNat (marks.count labels)
  sums : (∀ labels, marks.count labels < Decimal.twoTo 64) →
    ∀ wanted, sumOf (fun a => (read a).toNat) wanted f = marks.countP wanted

theorem tallies_nil (read : α → UInt64) : Tallies read [] [] := ⟨fun _ => rfl, fun _ _ => rfl⟩

theorem Tallies.update {read : α → UInt64} {zero : α} {change : α → α} {f : Family α}
    {marks : List Labels} (h : Tallies read f marks) (hzero : read zero = 0)
    (hchange : ∀ a, read (change a) = read a + 1) (labels : Labels) :
    Tallies read (Family.update labels zero change f) (marks ++ [labels]) := by
  have hread : read ((get? labels f).getD zero) = UInt64.ofNat (marks.count labels) := by
    rw [← h.series labels]
    cases get? labels f with
    | none => exact hzero
    | some a => rfl
  constructor
  · intro other
    rw [List.count_append]
    by_cases hother : other = labels
    · rw [hother, get?_update_self, Option.map_some, Option.getD_some, hchange, hread,
        List.count_singleton_self, UInt64.ofNat_add]
      rfl
    · rw [get?_update_of_ne hother, h.series other, List.count_singleton]
      simp [Ne.symm hother]
  · intro hfew wanted
    have hfewer : ∀ labels, marks.count labels < Decimal.twoTo 64 := by
      intro other
      have := hfew other
      rw [List.count_append] at this
      omega
    have hown := hfew labels
    rw [List.count_append, List.count_singleton_self] at hown
    -- below `2^64` the series holds the number of its marks itself, before and after
    have hbefore : (read ((get? labels f).getD zero)).toNat = marks.count labels := by
      rw [hread, UInt64.toNat_ofNat']
      exact Nat.mod_eq_of_lt (hfewer labels)
    have hafter : (read (change ((get? labels f).getD zero))).toNat = marks.count labels + 1 := by
      rw [hchange, UInt64.toNat_add, hbefore]
      exact Nat.mod_eq_of_lt hown
    have hnone : (read zero).toNat = 0 := congrArg UInt64.toNat hzero
    have hsum := sumOf_update (fun a => (read a).toNat) hnone wanted labels change f
    rw [h.sums hfewer wanted, hbefore, hafter] at hsum
    rw [List.countP_append, List.countP_singleton]
    cases hwanted : wanted labels with
    | true =>
      rw [hwanted, if_pos rfl, if_pos rfl] at hsum
      rw [if_pos rfl]
      omega
    | false =>
      rw [hwanted, if_neg Bool.false_ne_true, if_neg Bool.false_ne_true] at hsum
      rw [if_neg Bool.false_ne_true]
      omega

/-- A series that has not started again from zero is the number of its marks. -/
theorem Tallies.toNat_series {read : α → UInt64} {f : Family α} {marks : List Labels}
    (h : Tallies read f marks) {labels : Labels} (hfew : marks.count labels < Decimal.twoTo 64) :
    (((get? labels f).map read).getD 0).toNat = marks.count labels := by
  rw [h.series labels, UInt64.toNat_ofNat']
  exact Nat.mod_eq_of_lt hfew

end Family

/-! ## Labels -/

/-- Whether one of the labels has this name and this value. -/
def Labels.has (name value : String) (labels : Labels) : Bool :=
  decide ((name, value) ∈ labels.pairs)

theorem has_requestLabels (verb verb' status : String) :
    (requestLabels verb status).has "verb" verb' = decide (verb = verb') := by
  simp [Labels.has, requestLabels, Labels.ofList, List.mem_mergeSort, eq_comm]

theorem verbLabels_inj {verb verb' : String} :
    verbLabels verb = verbLabels verb' ↔ verb = verb' := by
  simp [verbLabels, Labels.ofList]

theorem codeLabels_inj {code code' : String} :
    codeLabels code = codeLabels code' ↔ code = code' := by
  simp [codeLabels, Labels.ofList]

end Metrics

/-! ## The history -/

namespace Counted

def requestMark? : Counted → Option Labels
  | .request verb status => some (requestLabels verb status)
  | .refusal _ => none

def verbMark? : Counted → Option Labels
  | .request verb _ => some (verbLabels verb)
  | .refusal _ => none

def codeMark? : Counted → Option Labels
  | .request _ _ => none
  | .refusal code => some (codeLabels code)

def isRequest : Counted → Bool
  | .request _ _ => true
  | .refusal _ => false

def hasVerb (verb : String) : Counted → Bool
  | .request verb' _ => verb' = verb
  | .refusal _ => false

def hasCode (code : String) : Counted → Bool
  | .request _ _ => false
  | .refusal code' => code' = code

/-- Of the marks in a history as many are wanted as there are things of the wanted kind. -/
theorem countP_marks {mark? : Counted → Option Labels} {wanted : Labels → Bool}
    {kind : Counted → Bool} (h : ∀ c, ((mark? c).map wanted).getD false = kind c)
    (history : List Counted) : (history.filterMap mark?).countP wanted = history.countP kind := by
  rw [List.countP_filterMap]
  exact List.countP_congr fun c _ => by rw [h c]

end Counted

/-- No series has as many marks in the history as make it start again from zero. -/
structure Countable (history : List Counted) : Prop where
  requests : ∀ labels, (history.filterMap Counted.requestMark?).count labels < Decimal.twoTo 64
  durations : ∀ labels, (history.filterMap Counted.verbMark?).count labels < Decimal.twoTo 64
  decodeErrors : ∀ labels, (history.filterMap Counted.codeMark?).count labels < Decimal.twoTo 64

theorem countable_of_length {history : List Counted} (h : history.length < Decimal.twoTo 64) :
    Countable history := by
  have hmarks : ∀ mark? : Counted → Option Labels, ∀ labels,
      (history.filterMap mark?).count labels < Decimal.twoTo 64 := fun mark? _ =>
    Nat.lt_of_le_of_lt List.count_le_length
      (Nat.lt_of_le_of_lt (List.length_filterMap_le mark? history) h)
  exact ⟨hmarks _, hmarks _, hmarks _⟩

theorem Countable.of_append {history later : List Counted} (h : Countable (history ++ later)) :
    Countable history := by
  have hfewer : ∀ (mark? : Counted → Option Labels) (labels : Labels),
      (history.filterMap mark?).count labels ≤
        ((history ++ later).filterMap mark?).count labels := by
    intro mark? labels
    rw [List.filterMap_append, List.count_append]
    exact Nat.le_add_right _ _
  exact ⟨fun l => Nat.lt_of_le_of_lt (hfewer _ l) (h.requests l),
    fun l => Nat.lt_of_le_of_lt (hfewer _ l) (h.durations l),
    fun l => Nat.lt_of_le_of_lt (hfewer _ l) (h.decodeErrors l)⟩

namespace Metrics

variable {history : List Counted} {m : Metrics}

/-- Counts one thing; a request has taken so many nanoseconds. -/
def record (m : Metrics) (nanos : Nat) : Counted → Metrics
  | .request verb status => m.countRequest verb status nanos
  | .refusal code => m.countDecodeError code

/-- The families tell the history. -/
structure Accounts (history : List Counted) (m : Metrics) : Prop where
  requests : Family.Tallies id m.requests (history.filterMap Counted.requestMark?)
  durations : Family.Tallies Histogram.count m.durations (history.filterMap Counted.verbMark?)
  decodeErrors : Family.Tallies id m.decodeErrors (history.filterMap Counted.codeMark?)

theorem accounts_nil : Accounts [] {} :=
  ⟨Family.tallies_nil _, Family.tallies_nil _, Family.tallies_nil _⟩

theorem Accounts.record (h : Accounts history m) (nanos : Nat) (c : Counted) :
    Accounts (history ++ [c]) (m.record nanos c) := by
  cases c with
  | request verb status =>
    refine ⟨?_, ?_, ?_⟩ <;> rw [List.filterMap_append]
    · exact h.requests.update rfl (fun _ => rfl) _
    · exact h.durations.update rfl (fun _ => rfl) _
    · exact (List.append_nil _).symm ▸ h.decodeErrors
  | refusal code =>
    refine ⟨?_, ?_, ?_⟩ <;> rw [List.filterMap_append]
    · exact (List.append_nil _).symm ▸ h.requests
    · exact (List.append_nil _).symm ▸ h.durations
    · exact h.decodeErrors.update rfl (fun _ => rfl) _

/-! ## What is read off -/

def requestTotal (m : Metrics) : Nat := Family.sumOf UInt64.toNat (fun _ => true) m.requests

/-- The answered requests of a verb, whatever their status. -/
def requestsOf (verb : String) (m : Metrics) : Nat :=
  Family.sumOf UInt64.toNat (Labels.has "verb" verb) m.requests

def dispatchTotal (m : Metrics) : Nat :=
  Family.sumOf (fun h => h.count.toNat) (fun _ => true) m.durations

def dispatchesOf (verb : String) (m : Metrics) : Nat :=
  (((Family.get? (verbLabels verb) m.durations).map Histogram.count).getD 0).toNat

def refusalTotal (m : Metrics) : Nat := Family.sumOf UInt64.toNat (fun _ => true) m.decodeErrors

def refusalsOf (code : String) (m : Metrics) : Nat :=
  ((Family.get? (codeLabels code) m.decodeErrors).getD 0).toNat

def openSessions (labels : Labels) (m : Metrics) : Int64 :=
  (Family.get? labels m.sessions).getD 0

/-- Each verb has as many times of dispatch as it has answered requests. -/
def Balanced (m : Metrics) : Prop := ∀ verb, m.dispatchesOf verb = m.requestsOf verb

/-- One session that has opened and closed does not show in the gauge. -/
theorem openSessions_closeSession {opened closing : Metrics}
    (h : closing.sessions = opened.openSession.sessions) (labels : Labels) :
    closing.closeSession.openSessions labels = opened.openSessions labels := by
  show (Family.get? labels (shift sessionLabels (-1) closing.sessions)).getD 0 =
    (Family.get? labels opened.sessions).getD 0
  rw [h]
  show (Family.get? labels
    (shift sessionLabels (-1) (shift sessionLabels 1 opened.sessions))).getD 0 = _
  unfold shift
  by_cases hlabels : labels = sessionLabels
  · rw [hlabels, Family.get?_update_self, Family.get?_update_self, Option.getD_some,
      Option.getD_some, Int64.add_assoc]
    exact Int64.add_zero _
  · rw [Family.get?_update_of_ne hlabels, Family.get?_update_of_ne hlabels]

namespace Accounts

variable (h : Accounts history m) (hcountable : Countable history)
include h hcountable

theorem requestTotal_eq : m.requestTotal = history.countP Counted.isRequest :=
  (h.requests.sums hcountable.requests _).trans
    (Counted.countP_marks (fun c => by cases c <;> rfl) history)

theorem dispatchTotal_eq : m.dispatchTotal = history.countP Counted.isRequest :=
  (h.durations.sums hcountable.durations _).trans
    (Counted.countP_marks (fun c => by cases c <;> rfl) history)

theorem refusalTotal_eq : m.refusalTotal = history.countP fun c => !c.isRequest :=
  (h.decodeErrors.sums hcountable.decodeErrors _).trans
    (Counted.countP_marks (fun c => by cases c <;> rfl) history)

theorem requestsOf_eq (verb : String) :
    m.requestsOf verb = history.countP (Counted.hasVerb verb) := by
  refine (h.requests.sums hcountable.requests _).trans (Counted.countP_marks ?_ history)
  intro c
  cases c with
  | request verb' status => exact has_requestLabels verb' verb status
  | refusal code => rfl

theorem dispatchesOf_eq (verb : String) :
    m.dispatchesOf verb = history.countP (Counted.hasVerb verb) := by
  refine (h.durations.toNat_series (hcountable.durations _)).trans
    (Counted.countP_marks ?_ history)
  intro c
  cases c with
  | request verb' status => exact decide_eq_decide.mpr verbLabels_inj
  | refusal code => rfl

theorem refusalsOf_eq (code : String) :
    m.refusalsOf code = history.countP (Counted.hasCode code) := by
  have hseries := h.decodeErrors.toNat_series (hcountable.decodeErrors (codeLabels code))
  rw [Option.map_id_apply] at hseries
  refine hseries.trans (Counted.countP_marks ?_ history)
  intro c
  cases c with
  | request verb status => rfl
  | refusal code' => exact decide_eq_decide.mpr codeLabels_inj

theorem balanced : m.Balanced := fun verb =>
  (h.dispatchesOf_eq hcountable verb).trans (h.requestsOf_eq hcountable verb).symm

end Accounts

end Metrics

/-! ## Attempts -/

def Decoder.isMalformed {α : Type} : Except Failure α → Bool
  | .error (.badRequest _) => true
  | _ => false

namespace Decoder

theorem isResult_of_mem_results {harvest : Harvest} {attempt : Except Failure Request}
    (h : attempt ∈ harvest.results Frame.toRequest) : IsResult attempt := by
  rcases List.mem_append.mp h with h | h
  · obtain ⟨f, -, rfl⟩ := List.mem_map.mp h
    exact isResult_toRequest f
  · obtain ⟨limit, -, rfl⟩ := List.mem_map.mp h
    exact .refused limit

theorem isResult_of_mem_takeChunks {d : Decoder} {buffer : Bytes} {chunks : List Bytes}
    {attempt : Except Failure Request} (h : attempt ∈ d.takeChunks Frame.toRequest buffer chunks) :
    IsResult attempt := by
  induction chunks generalizing buffer with
  | nil => cases h
  | cons chunk chunks ih =>
    rw [takeChunks_step isRefusal_toRequest] at h
    rcases List.mem_append.mp h with h | h
    · exact isResult_of_mem_results h
    · split at h
      · cases h
      · exact ih h

/-- Every attempt is of one kind. -/
theorem countP_results {attempts : List (Except Failure Request)}
    (h : ∀ attempt ∈ attempts, IsResult attempt) :
    attempts.countP Except.isOk + (attempts.countP isMalformed + attempts.countP isRefusal) =
      attempts.length := by
  induction attempts with
  | nil => rfl
  | cons attempt later ih =>
    obtain ⟨hattempt, hlater⟩ := List.forall_mem_cons.mp h
    have ih := ih hlater
    rw [List.countP_cons, List.countP_cons, List.countP_cons, List.length_cons]
    cases hattempt with
    | decoded r =>
      show _ + 1 + (_ + 0 + (_ + 0)) = _
      omega
    | malformed cause =>
      show _ + 0 + (_ + 1 + (_ + 0)) = _
      omega
    | refused limit =>
      show _ + 0 + (_ + 0 + (_ + 1)) = _
      omega

end Decoder

namespace Server

variable {server : Server} {history : List Counted} {state : ServerState}

theorem isRequest_counted (server : Server) (attempt : Except Failure Request)
    (response : Response) : (server.counted attempt response).isRequest = attempt.isOk := by
  cases attempt <;> rfl

theorem hasCode_badRequest (server : Server) (attempt : Except Failure Request)
    (response : Response) :
    (server.counted attempt response).hasCode "BAD_REQUEST" = Decoder.isMalformed attempt := by
  cases attempt with
  | ok r => rfl
  | error failure => cases failure <;> rfl

theorem hasCode_payloadTooLarge (server : Server) (attempt : Except Failure Request)
    (response : Response) :
    (server.counted attempt response).hasCode "PAYLOAD_TOO_LARGE" =
      Decoder.isRefusal attempt := by
  cases attempt with
  | ok r => rfl
  | error failure => cases failure <;> rfl

/-- What is counted of attempts that are answered one after another. -/
def countedAll (server : Server) (attempts : List (Except Failure Request)) (state : ServerState) :
    List Counted :=
  List.zipWith server.counted attempts (server.answerAttempts attempts state).1

theorem metrics_answerAttempt (server : Server) (attempt : Except Failure Request)
    (state : ServerState) :
    ∃ nanos, (server.answerAttempt attempt state).2.metrics =
      state.metrics.record nanos
        (server.counted attempt (server.answerAttempt attempt state).1) := by
  cases attempt with
  | ok r => exact ⟨_, rfl⟩
  | error failure => exact ⟨0, rfl⟩

theorem countedAll_take (attempts : List (Except Failure Request)) (n : Nat)
    (state : ServerState) :
    server.countedAll (attempts.take n) state = (server.countedAll attempts state).take n := by
  rw [countedAll, countedAll, answerAttempts_take, List.take_zipWith]

/-- The attempts of some kind are those of which something of that kind is counted. -/
theorem countP_countedAll {kind : Counted → Bool} {ofKind : Except Failure Request → Bool}
    (h : ∀ attempt response, kind (server.counted attempt response) = ofKind attempt)
    (attempts : List (Except Failure Request)) (state : ServerState) :
    (server.countedAll attempts state).countP kind = attempts.countP ofKind := by
  induction attempts generalizing state with
  | nil => rfl
  | cons attempt later ih =>
    show (server.counted attempt _ :: server.countedAll later _).countP kind = _
    rw [List.countP_cons, List.countP_cons, ih, h]

namespace Reaches

/-- **The metrics tell what the sessions have counted.** -/
theorem accounts (h : server.Reaches history state) : state.metrics.Accounts history := by
  induction h with
  | fresh queue supply => exact accounts_nil
  | opened _ ih => exact ⟨ih.requests, ih.durations, ih.decodeErrors⟩
  | closed _ ih => exact ⟨ih.requests, ih.durations, ih.decodeErrors⟩
  | @answered history state attempt _ _ ih =>
    obtain ⟨nanos, hmetrics⟩ := server.metrics_answerAttempt attempt state
    rw [hmetrics]
    exact ih.record nanos _
  | elsewhere queue supply _ ih => exact ih

theorem answeredAll (h : server.Reaches history state) {attempts : List (Except Failure Request)}
    (hattempts : ∀ attempt ∈ attempts, Decoder.IsResult attempt) :
    server.Reaches (history ++ server.countedAll attempts state)
      (server.answerAttempts attempts state).2 := by
  induction attempts generalizing history state with
  | nil => exact (List.append_nil history).symm ▸ h
  | cons attempt later ih =>
    obtain ⟨hattempt, hlater⟩ := List.forall_mem_cons.mp hattempts
    have hreaches := ih (h.answered hattempt) hlater
    rw [List.append_assoc] at hreaches
    exact hreaches

end Reaches

theorem sessions_answerAttempts (attempts : List (Except Failure Request)) (state : ServerState) :
    (server.answerAttempts attempts state).2.metrics.sessions = state.metrics.sessions := by
  induction attempts generalizing state with
  | nil => rfl
  | cons attempt later ih =>
    have hattempt : (server.answerAttempt attempt state).2.metrics.sessions =
        state.metrics.sessions := by
      cases attempt <;> rfl
    exact (ih _).trans hattempt

end Server

/-! ## One session -/

def Event.isFailure : Event → Bool
  | .writeFailed _ => true
  | _ => false

namespace Session

variable {server : Server} {stopping : Bool} {arrivals : List Arrival}

/-- The responses that a session has attempted to write: those written, and one more if it failed,
however often that one was tried. -/
def tried (events : List Event) : Nat :=
  (responses events).length + if events.any Event.isFailure then 1 else 0

theorem tried_wrote (response : Response) (events : List Event) :
    tried (.wrote response :: events) = tried events + 1 := by
  show (responses events).length + 1 + (if events.any Event.isFailure then 1 else 0) =
    (responses events).length + (if events.any Event.isFailure then 1 else 0) + 1
  omega

theorem tried_brokenOff (fault : WriteFault) : tried (brokenOff [] fault) = 1 := by
  cases fault <;> rfl

/-- A session tries one response for each of its attempts. -/
theorem tried_hangUp (server : Server) {given : List (Except Failure Request)}
    (hgiven : given.Pairwise fun attempt _ => Decoder.isRefusal attempt = false)
    (outlet : Outlet) (state : ServerState) :
    tried (hangUp (settle server given outlet state)).1 = (server.reached outlet given).length := by
  induction given generalizing outlet state with
  | nil =>
    unfold Server.reached
    split <;> rfl
  | cons attempt later ih =>
    have hend := nil_of_isRefusal hgiven
    have hlater := hgiven.tail
    cases hspend : outlet.spend? with
    | none =>
      rw [settle_unspent hspend, reached_last (.inl hspend) hend]
      exact tried_brokenOff outlet.fault
    | some outlet' =>
      cases hclose : server.closesBehind attempt with
      | true =>
        rw [settle_last hspend hclose, reached_last (.inr hclose) hend]
        rfl
      | false =>
        rw [settle_step hspend hclose, reached_step hspend hclose, hangUp_cons]
        dsimp only
        rw [tried_wrote, ih hlater, List.length_cons]

theorem tried_run (server : Server) (outlet : Outlet) (stopping : Bool) (arrivals : List Arrival)
    (state : ServerState) :
    tried (run server outlet stopping arrivals state).1.flatten =
      (attempts server outlet stopping arrivals).length := by
  have hevents := congrArg Prod.fst (run_eq_settle server outlet stopping arrivals state)
  dsimp only at hevents
  rw [hevents]
  exact tried_hangUp server (pairwise_given server stopping arrivals) outlet _

theorem isResult_of_mem_attempts {outlet : Outlet} {attempt : Except Failure Request}
    (h : attempt ∈ attempts server outlet stopping arrivals) : Decoder.IsResult attempt := by
  have hgiven : attempt ∈ given server stopping arrivals := by
    unfold attempts Server.reached at h
    split at h
    · exact List.mem_of_mem_take h
    · exact h
    · exact List.mem_of_mem_take h
  unfold given at hgiven
  split at hgiven
  · cases hgiven
  · exact Decoder.isResult_of_mem_takeChunks hgiven

/-- What a session counts that opens on a state. -/
def counts (server : Server) (outlet : Outlet) (stopping : Bool) (arrivals : List Arrival)
    (state : ServerState) : List Counted :=
  server.countedAll (attempts server outlet stopping arrivals)
    { state with metrics := state.metrics.openSession }

theorem openSessions_run (server : Server) (outlet : Outlet) (stopping : Bool)
    (arrivals : List Arrival) (state : ServerState) (labels : Labels) :
    (run server outlet stopping arrivals state).2.metrics.openSessions labels =
      state.metrics.openSessions labels := by
  rw [(run_answers server outlet stopping arrivals state).2]
  exact openSessions_closeSession (Server.sessions_answerAttempts _ _) labels

theorem reaches_run {history : List Counted} {state : ServerState}
    (h : server.Reaches history state) (outlet : Outlet) (stopping : Bool)
    (arrivals : List Arrival) :
    server.Reaches (history ++ counts server outlet stopping arrivals state)
      (run server outlet stopping arrivals state).2 := by
  rw [(run_answers server outlet stopping arrivals state).2]
  exact (h.opened.answeredAll fun _ => isResult_of_mem_attempts).closed

/-- What a session has counted behind the first of its attempts is the first of what it counts. -/
theorem reaches_stateAfter {history : List Counted} {state : ServerState}
    (h : server.Reaches history state) (outlet : Outlet) (stopping : Bool)
    (arrivals : List Arrival) (n : Nat) :
    server.Reaches (history ++ (counts server outlet stopping arrivals state).take n)
      (stateAfter server (attempts server outlet stopping arrivals) n state) := by
  have hfirst : ∀ attempt ∈ (attempts server outlet stopping arrivals).take n,
      Decoder.IsResult attempt :=
    fun _ hmem => isResult_of_mem_attempts (List.mem_of_mem_take hmem)
  have hreaches := h.opened.answeredAll hfirst
  rw [Server.countedAll_take] at hreaches
  exact hreaches

/-- **Metrics account for every frame.** Let earlier sessions of a server have led to some state,
however they have taken turns, and let one more session run on it, in any mode, with any script and
any fault; and let no series have as many marks by then as make it start again from zero. The
session then adds as many requests as it has decoded, over all series, and as many times of
dispatch; it adds to the refused frames, under either code, as many as it has reported malformed or
beyond the limit. Together these are the responses that it has tried to write. It leaves as many
sessions open as there were. Before it, behind each of its attempts and after it, each verb has as
many times of dispatch as answered requests. It ends in a state of the kind that it began with. -/
theorem run_accounts {history : List Counted} {state : ServerState}
    (h : server.Reaches history state) (outlet : Outlet) (stopping : Bool)
    (arrivals : List Arrival)
    (hcountable : Countable (history ++ counts server outlet stopping arrivals state)) :
    let ran := run server outlet stopping arrivals state
    let asked := attempts server outlet stopping arrivals
    let decoded := asked.countP Except.isOk
    let malformed := asked.countP Decoder.isMalformed
    let refused := asked.countP Decoder.isRefusal
    let before := state.metrics
    let after := ran.2.metrics
    server.Reaches (history ++ counts server outlet stopping arrivals state) ran.2 ∧
      (after.requestTotal = before.requestTotal + decoded ∧
        after.dispatchTotal = before.dispatchTotal + decoded) ∧
      (after.refusalTotal = before.refusalTotal + (malformed + refused) ∧
        after.refusalsOf "BAD_REQUEST" = before.refusalsOf "BAD_REQUEST" + malformed ∧
        after.refusalsOf "PAYLOAD_TOO_LARGE" =
          before.refusalsOf "PAYLOAD_TOO_LARGE" + refused) ∧
      decoded + (malformed + refused) = tried ran.1.flatten ∧
      (∀ labels, after.openSessions labels = before.openSessions labels) ∧
      before.Balanced ∧ (∀ n, (stateAfter server asked n state).metrics.Balanced) ∧
        after.Balanced := by
  intro ran asked decoded malformed refused before after
  have hran : server.Reaches (history ++ counts server outlet stopping arrivals state) ran.2 :=
    reaches_run h outlet stopping arrivals
  have hbefore := h.accounts
  have hafter := hran.accounts
  have hfront := hcountable.of_append
  have hkinds : decoded + (malformed + refused) = asked.length :=
    Decoder.countP_results fun _ => isResult_of_mem_attempts
  -- whatever kind of thing is counted, the session has added as many as it has made attempts of it
  have hadded : ∀ (kind : Counted → Bool) (ofKind : Except Failure Request → Bool),
      (∀ attempt response, kind (server.counted attempt response) = ofKind attempt) →
      (history ++ counts server outlet stopping arrivals state).countP kind =
        history.countP kind + asked.countP ofKind := by
    intro kind ofKind hkind
    rw [List.countP_append, counts, Server.countP_countedAll hkind]
  have hrequests := hadded Counted.isRequest Except.isOk server.isRequest_counted
  have hrefusals := hadded (fun c => !c.isRequest) (fun attempt => !attempt.isOk)
    fun attempt response => congrArg not (server.isRequest_counted attempt response)
  have hlength : asked.length = decoded + asked.countP fun attempt => !attempt.isOk := by
    simpa using List.length_eq_countP_add_countP (l := asked) Except.isOk
  refine ⟨hran, ⟨?_, ?_⟩, ⟨?_, ?_, ?_⟩, ?_, openSessions_run server outlet stopping arrivals state,
    hbefore.balanced hfront, ?_, hafter.balanced hcountable⟩
  · rw [hafter.requestTotal_eq hcountable, hbefore.requestTotal_eq hfront, hrequests]
  · rw [hafter.dispatchTotal_eq hcountable, hbefore.dispatchTotal_eq hfront, hrequests]
  · rw [hafter.refusalTotal_eq hcountable, hbefore.refusalTotal_eq hfront, hrefusals]
    omega
  · rw [hafter.refusalsOf_eq hcountable, hbefore.refusalsOf_eq hfront]
    exact hadded _ _ server.hasCode_badRequest
  · rw [hafter.refusalsOf_eq hcountable, hbefore.refusalsOf_eq hfront]
    exact hadded _ _ server.hasCode_payloadTooLarge
  · rw [hkinds]
    exact (tried_run server outlet stopping arrivals state).symm
  · intro n
    -- no more has been counted then than in the end
    have hsplit := List.take_append_drop n (counts server outlet stopping arrivals state)
    rw [← hsplit, ← List.append_assoc] at hcountable
    exact (reaches_stateAfter h outlet stopping arrivals n).accounts.balanced hcountable.of_append

/-- A first session decodes a request, finds a frame malformed and has more than the limit then; a
second one gets no answer through but one, and leaves the third request alone. -/
theorem run_accounts_two_sessions :
    let server : Server := ⟨{ maxFrameBytes := 64, sessionMode := .persistent }, .builtin⟩
    let state : ServerState := { supply := ⟨Decimal.numeral, Decimal.numeral, fun _ => 0, 0⟩ }
    let ping := utf8 "PING CMIT/1.0\n\n\x7b\"topic\":\"t\"\x7d\n\n"
    let script := arriving [ping ++ utf8 "X\n\n\n" ++ List.replicate 65 88]
    let first := run server {} false script state
    let second := run server ⟨some 1, .stalled⟩ false (arriving [ping ++ ping ++ ping]) first.2
    (tried first.1.flatten = 3 ∧ first.2.metrics.requestTotal = 1 ∧
        first.2.metrics.refusalsOf "BAD_REQUEST" = 1 ∧
        first.2.metrics.refusalsOf "PAYLOAD_TOO_LARGE" = 1) ∧
      (tried second.1.flatten = 2 ∧ second.2.metrics.requestTotal = 3 ∧
        second.2.metrics.dispatchTotal = 3 ∧ second.2.metrics.refusalTotal = 2) ∧
      second.2.metrics.Balanced := by
  intro server state ping script first second
  let asked := attempts server {} false script
  let more := attempts server ⟨some 1, .stalled⟩ false (arriving [ping ++ ping ++ ping])
  have hasked : asked.countP Except.isOk = 1 ∧ asked.countP Decoder.isMalformed = 1 ∧
      asked.countP Decoder.isRefusal = 1 := by decide +kernel
  have hmore : more.countP Except.isOk = 2 ∧ more.countP Decoder.isMalformed = 0 ∧
      more.countP Decoder.isRefusal = 0 := by decide +kernel
  have hcountable : Countable ([] ++ counts server {} false script state) :=
    countable_of_length (by decide +kernel)
  have hcountable' : Countable ([] ++ counts server {} false script state ++
      counts server ⟨some 1, .stalled⟩ false (arriving [ping ++ ping ++ ping]) first.2) :=
    countable_of_length (by decide +kernel)
  obtain ⟨hreaches, ⟨hrequests, hdispatches⟩, ⟨hrefusals, hmalformed, hrefused⟩, htried, -, -⟩ :=
    run_accounts (.fresh .empty state.supply) {} false script hcountable
  obtain ⟨-, ⟨hrequests', hdispatches'⟩, ⟨hrefusals', -, -⟩, htried', -, -, -, hbalanced⟩ :=
    run_accounts hreaches ⟨some 1, .stalled⟩ false (arriving [ping ++ ping ++ ping]) hcountable'
  rw [hasked.1] at hrequests hdispatches htried
  rw [hasked.2.1] at hmalformed hrefusals htried
  rw [hasked.2.2] at hrefused hrefusals htried
  rw [hmore.1] at hrequests' hdispatches' htried'
  rw [hmore.2.1, hmore.2.2] at hrefusals' htried'
  refine ⟨⟨htried.symm, hrequests, hmalformed, hrefused⟩,
    ⟨htried'.symm, hrequests'.trans ?_, hdispatches'.trans ?_, hrefusals'.trans ?_⟩, hbalanced⟩
  · exact congrArg (· + 2) hrequests
  · exact congrArg (· + 2) hdispatches
  · exact hrefusals

end Session

end Courier
