import Courier.Proofs.BuiltinVerbs
import Mathlib.Data.List.Dedup

/-!
# Work is neither lost nor doubled

Sessions dispatch requests and workers advance and take out entries, all on one queue, in whatever
order their steps come. Each step touches the queue once, so that every list of steps is a run of
some sessions and some workers, and every such run is a list of steps.

What has become of the work is read off the answers alone: an `EXECUTE` reply without `duplicate`
admits an id, a successful removal takes it out. The ledger of a run (`Queue.Ledger`) says that the
queue agrees with its answers, and every step keeps it (`Ledger.step`). Main statement:
`ledger_run`.
-/

namespace Courier

namespace Queue

/-! ## Steps -/

/-- One step on the queue: a request that some session dispatches, or a call of some worker. -/
inductive Step where
  | dispatch (r : Request)
  | setStatus (id : String) (status : EntryStatus)
  | remove (id : String)

inductive Outcome where
  | replied (response : Response)
  | advanced (result : Except Failure Unit)
  | removed (result : Except Failure Entry)

structure Moment where
  step : Step
  outcome : Outcome

/-- Makes a step. Requests go to the verbs of every server. -/
def Step.perform : Step → Queue → Outcome × Queue
  | .dispatch r, q =>
      let (response, q) := Table.builtin.dispatch r q
      (.replied response, q)
  | .setStatus id status, q =>
      match q.setStatus id status with
      | .ok q => (.advanced (.ok ()), q)
      | .error f => (.advanced (.error f), q)
  | .remove id, q =>
      match q.remove id with
      | .ok (e, q) => (.removed (.ok e), q)
      | .error f => (.removed (.error f), q)

def run : List Step → Queue → List Moment × Queue
  | [], q => ([], q)
  | step :: later, q =>
      let (outcome, q) := step.perform q
      let (moments, q) := run later q
      (⟨step, outcome⟩ :: moments, q)

theorem run_append (steps later : List Step) (q : Queue) :
    run (steps ++ later) q =
      ((run steps q).1 ++ (run later (run steps q).2).1, (run later (run steps q).2).2) := by
  induction steps generalizing q with
  | nil => rfl
  | cons step steps ih => simp only [List.cons_append, run, ih]

/-! ## What the answers tell -/

/-- What an answer tells about the work of an id. -/
inductive Effect where
  | admitted (id : String)
  | marked (id : String) (status : EntryStatus)
  | removed (id : String)
  | none

/-- An `EXECUTE` reply without `duplicate` admits work; what succeeds for a worker has been done. -/
def Moment.effect : Moment → Effect
  | ⟨.dispatch r, .replied response⟩ =>
      if r.verb = Verb.execute ∧ (response.field? "duplicate").isNone = true
      then .admitted response.ident else .none
  | ⟨.setStatus id status, .advanced (.ok ())⟩ => .marked id status
  | ⟨.remove id, .removed (.ok _)⟩ => .removed id
  | _ => .none

def Effect.admits? : Effect → Option String
  | .admitted id => some id
  | _ => Option.none

def Effect.removes? : Effect → Option String
  | .removed id => some id
  | _ => Option.none

/-- The ids of `EXECUTE` replies without `duplicate`, in order. -/
def admitted (history : List Moment) : List String := history.filterMap (·.effect.admits?)

def removed (history : List Moment) : List String := history.filterMap (·.effect.removes?)

/-- The status of the work of an id after one more answer: work is admitted as pending. -/
def Effect.statusAfter (id : String) (status : Option EntryStatus) : Effect → Option EntryStatus
  | .admitted id' => if id' = id then some .pending else status
  | .marked id' status' => if id' = id then some status' else status
  | .removed id' => if id' = id then .none else status
  | .none => status

/-- The status that the work of an id was given last, if it has been admitted and not taken out. -/
def lastStatus (id : String) (history : List Moment) : Option EntryStatus :=
  history.foldl (fun status m => m.effect.statusAfter id status) .none

variable (history : List Moment) (m : Moment)

theorem admitted_concat :
    admitted (history ++ [m]) = admitted history ++ m.effect.admits?.toList := by
  cases h : m.effect.admits? <;> simp [admitted, h]

theorem removed_concat :
    removed (history ++ [m]) = removed history ++ m.effect.removes?.toList := by
  cases h : m.effect.removes? <;> simp [removed, h]

theorem lastStatus_concat (id : String) :
    lastStatus id (history ++ [m]) = m.effect.statusAfter id (lastStatus id history) := by
  simp [lastStatus]

/-! ## What a step does -/

theorem dispatch_admitted {r : Request} {q : Queue} (hverb : r.verb = Verb.execute)
    (hfresh : r.ident ∉ q.ids) :
    let answer := Table.builtin.dispatch r q
    answer.1.ident = r.ident ∧ answer.1.field? "duplicate" = none ∧
      answer.1.field? "depth" = some (.ofNat answer.2.length) ∧
      answer.2.entries = q.entries ++ [.pending r] := by
  have hlength : (⟨q.entries ++ [.pending r]⟩ : Queue).length = q.length + 1 := by
    simp [Queue.length]
  rw [Table.dispatch_execute hverb, enqueue_of_notMem (e := .pending r) hfresh]
  refine ⟨rfl, (Json.Value.field?_ofFields _ _).trans rfl, ?_, rfl⟩
  dsimp only
  rw [hlength]
  exact (Json.Value.field?_ofFields _ _).trans rfl

theorem dispatch_duplicate {r : Request} {q : Queue} {held : Entry}
    (hverb : r.verb = Verb.execute) (hget : q.get? r.ident = some held) :
    let answer := Table.builtin.dispatch r q
    answer.1.ident = r.ident ∧ answer.1.field? "duplicate" = some (.bool true) ∧
      answer.1.field? "status" = some (.string held.status.name) ∧ answer.2 = q := by
  rw [Table.dispatch_execute hverb, enqueue_of_get? (e := .pending r) hget]
  exact ⟨rfl, (Json.Value.field?_ofFields _ _).trans rfl,
    (Json.Value.field?_ofFields _ _).trans rfl, rfl⟩

/-- What the effect that an answer tells has done to the queue. -/
inductive Effect.Acts : Effect → Queue → Queue → Prop
  | admitted {q : Queue} {e : Entry} (status : e.status = .pending) (fresh : e.id ∉ q.ids) :
      Acts (.admitted e.id) q (q.enqueue e).2
  | marked {q q' : Queue} {id : String} {status : EntryStatus}
      (done : q.setStatus id status = .ok q') : Acts (.marked id status) q q'
  | removed {q q' : Queue} {id : String} {e : Entry} (done : q.remove id = .ok (e, q')) :
      Acts (.removed id) q q'
  | none {q : Queue} : Acts .none q q

theorem acts_perform (step : Step) (q : Queue) :
    (Moment.effect ⟨step, (step.perform q).1⟩).Acts q (step.perform q).2 := by
  cases step with
  | dispatch r =>
    -- of the verbs of every server only one touches the queue
    by_cases hverb : r.verb = Verb.execute
    · by_cases hheld : r.ident ∈ q.ids
      · obtain ⟨held, hget⟩ := exists_get?_of_mem hheld
        obtain ⟨-, hduplicate, -, hqueue⟩ := dispatch_duplicate hverb hget
        have heffect : Moment.effect ⟨.dispatch r, (Step.perform (.dispatch r) q).1⟩ = .none := by
          simp [Step.perform, Moment.effect, hduplicate]
        rw [heffect, Step.perform, hqueue]
        exact .none
      · obtain ⟨hident, hduplicate, -, hqueue⟩ := dispatch_admitted hverb hheld
        have heffect : Moment.effect ⟨.dispatch r, (Step.perform (.dispatch r) q).1⟩
            = .admitted (Entry.pending r).id := by
          simp [Step.perform, Moment.effect, hverb, hduplicate, hident, Entry.pending]
        rw [heffect, Step.perform, Table.dispatch_execute hverb]
        exact .admitted rfl hheld
    · have hqueue : (Table.builtin.dispatch r q).2 = q := by
        rw [Table.queue_dispatch_builtin, if_neg hverb]
      have heffect : Moment.effect ⟨.dispatch r, (Step.perform (.dispatch r) q).1⟩ = .none := by
        simp [Step.perform, Moment.effect, hverb]
      rw [heffect, Step.perform, hqueue]
      exact .none
  | setStatus id status =>
    cases hset : q.setStatus id status with
    | ok q' =>
      simp only [Step.perform, hset]
      exact .marked hset
    | error f =>
      simp only [Step.perform, hset]
      exact .none
  | remove id =>
    cases hremove : q.remove id with
    | ok p =>
      simp only [Step.perform, hremove]
      exact .removed hremove
    | error f =>
      simp only [Step.perform, hremove]
      exact .none

/-! ## The ledger -/

/-- The queue holds what the answers tell: -/
structure Ledger (history : List Moment) (q : Queue) : Prop where
  /-- no id twice, -/
  nodup : q.ids.Nodup
  /-- each id as often as it has been admitted and not taken out, -/
  count : ∀ id, (Queue.admitted history).count id =
    (Queue.removed history).count id + if id ∈ q.ids then 1 else 0
  /-- with the status that it was given last, -/
  status : ∀ id, (q.get? id).map (·.status) = lastStatus id history
  /-- in the order of the replies that admitted it last. -/
  order : q.ids = (Queue.admitted history).dedup.filter (· ∈ q.ids)

/-- Of an id that is new at the end, the place is the last, and the others stay where they were. -/
theorem filter_dedup_concat (ids : List String) {held : List String} {id : String}
    (h : id ∉ held) :
    (ids ++ [id]).dedup.filter (· ∈ held ++ [id]) = ids.dedup.filter (· ∈ held) ++ [id] := by
  induction ids with
  | nil => simp
  | cons x ids ih =>
    rw [List.cons_append]
    by_cases hx : x ∈ ids
    · rw [List.dedup_cons_of_mem (List.mem_append_left _ hx), List.dedup_cons_of_mem hx, ih]
    · rw [List.dedup_cons_of_notMem hx]
      by_cases hid : x = id
      · rw [List.dedup_cons_of_mem (by simp [hid]), ih, hid]
        simp [h]
      · rw [List.dedup_cons_of_notMem (by simp [hx, hid]), List.filter_cons, ih]
        simp only [List.mem_append, List.mem_singleton, hid, or_false, List.filter_cons]
        split <;> simp

namespace Ledger

variable {history : List Moment} {q q' : Queue} {m : Moment}

theorem empty : Ledger [] Queue.empty := by
  refine ⟨List.nodup_nil, ?_, ?_, rfl⟩ <;> intro id <;> rfl

theorem step_admitted (h : Ledger history q) {e : Entry} (hstatus : e.status = .pending)
    (hfresh : e.id ∉ q.ids) (hm : m.effect = .admitted e.id) :
    Ledger (history ++ [m]) (q.enqueue e).2 := by
  have hids : (q.enqueue e).2.ids = q.ids ++ [e.id] := by rw [ids_enqueue, if_neg hfresh]
  refine ⟨nodup_ids_enqueue h.nodup e, ?_, ?_, ?_⟩
  · intro id
    rw [admitted_concat, removed_concat, hm, hids, List.count_append, List.count_append, h.count id]
    by_cases hid : id = e.id
    · simp [Effect.admits?, Effect.removes?, hid, hfresh]
    · simp [Effect.admits?, Effect.removes?, hid, Ne.symm hid]
  · intro id
    rw [lastStatus_concat, hm, Effect.statusAfter, get?_enqueue hfresh]
    by_cases hid : id = e.id
    · simp [hid, hstatus]
    · rw [if_neg hid, if_neg (Ne.symm hid)]
      exact h.status id
  · -- an id that came before and was taken out has its new place, the last
    have horder := filter_dedup_concat (Queue.admitted history) hfresh
    rw [← h.order, ← hids] at horder
    rw [admitted_concat, hm]
    exact horder.symm

theorem step_marked (h : Ledger history q) {id : String} {status : EntryStatus}
    (hset : q.setStatus id status = .ok q') (hm : m.effect = .marked id status) :
    Ledger (history ++ [m]) q' := by
  have hids := ids_setStatus hset
  refine ⟨hids ▸ h.nodup, ?_, ?_, ?_⟩
  · intro id'
    simpa [admitted_concat, removed_concat, hm, hids, Effect.admits?, Effect.removes?]
      using h.count id'
  · intro id'
    rw [lastStatus_concat, hm, Effect.statusAfter, get?_setStatus hset]
    by_cases hid : id' = id
    · obtain ⟨held, hget⟩ := exists_get?_of_mem (mem_ids_of_setStatus hset)
      simp [hid, hget]
    · simp only [if_neg hid, if_neg (Ne.symm hid), Option.map_id']
      exact h.status id'
  · simpa [admitted_concat, hm, hids, Effect.admits?] using h.order

theorem step_removed (h : Ledger history q) {id : String} {e : Entry}
    (hremove : q.remove id = .ok (e, q')) (hm : m.effect = .removed id) :
    Ledger (history ++ [m]) q' := by
  have hids := ids_remove h.nodup hremove
  have hheld : id ∈ q.ids := mem_ids_of_get? (get?_of_remove hremove)
  refine ⟨hids ▸ h.nodup.filter _, ?_, ?_, ?_⟩
  · intro id'
    rw [admitted_concat, removed_concat, hm, hids, List.count_append, List.count_append,
      h.count id']
    by_cases hid : id' = id
    · simp [Effect.admits?, Effect.removes?, hid, hheld]
    · simp [Effect.admits?, Effect.removes?, hid, Ne.symm hid]
  · intro id'
    rw [lastStatus_concat, hm, Effect.statusAfter, get?_remove h.nodup hremove]
    by_cases hid : id' = id
    · simp [hid]
    · rw [if_neg hid, if_neg (Ne.symm hid)]
      exact h.status id'
  · -- the others stay in the order that they had
    have horder := congrArg (List.filter (· ≠ id)) h.order
    rw [List.filter_filter] at horder
    rw [admitted_concat, hm, hids]
    dsimp only [Effect.admits?]
    rw [Option.toList_none, List.append_nil]
    refine horder.trans (List.filter_congr ?_)
    intro id' _
    simp [List.mem_filter, and_comm]

/-- **Every step keeps the ledger.** -/
theorem step (h : Ledger history q) (hacts : m.effect.Acts q q') : Ledger (history ++ [m]) q' := by
  generalize hm : m.effect = effect at hacts
  cases hacts with
  | admitted hstatus hfresh => exact h.step_admitted hstatus hfresh hm
  | marked hset => exact h.step_marked hset hm
  | removed hremove => exact h.step_removed hremove hm
  | none =>
    refine ⟨h.nodup, ?_, ?_, ?_⟩
    · intro id
      simpa [admitted_concat, removed_concat, hm, Effect.admits?, Effect.removes?] using h.count id
    · intro id
      rw [lastStatus_concat, hm]
      exact h.status id
    · simpa [admitted_concat, hm, Effect.admits?] using h.order

theorem run (h : Ledger history q) (steps : List Step) :
    Ledger (history ++ (Queue.run steps q).1) (Queue.run steps q).2 := by
  induction steps generalizing history q with
  | nil => simpa [Queue.run] using h
  | cons step steps ih =>
    have hstep := ih (h.step (acts_perform step q))
    rwa [List.append_assoc] at hstep

theorem run_empty (steps : List Step) :
    Ledger (Queue.run steps .empty).1 (Queue.run steps .empty).2 := by
  simpa using Ledger.empty.run steps

theorem lastStatus_of_get? (h : Ledger history q) {id : String} {held : Entry}
    (hget : q.get? id = some held) : lastStatus id history = some held.status := by
  rw [← h.status, hget]
  rfl

end Ledger

/-- **Work is neither lost nor doubled.** Let requests be dispatched and workers set statuses and
take out entries in any order, on a queue that is empty at first. An id has been admitted once more
than it has been taken out if it is held, and as often if it is not. The reply that admits a request
gives the length of the queue behind which it has just been put; a duplicate leaves the queue as it
is, and is told the status that the entry was given last. The entries stand in the order of the
replies that admitted them, for an id that came again the last of these. -/
theorem ledger_run (steps : List Step) :
    let history := (run steps .empty).1
    let q := (run steps .empty).2
    (∀ id, (admitted history).count id =
      (removed history).count id + if id ∈ q.ids then 1 else 0) ∧
    (∀ earlier r later, steps = earlier ++ .dispatch r :: later → r.verb = Verb.execute →
      let past := (run earlier .empty).1
      let before := (run earlier .empty).2
      let reply := (Table.builtin.dispatch r before).1
      let after := (Table.builtin.dispatch r before).2
      history = past ++ ⟨.dispatch r, .replied reply⟩ :: (run later after).1 ∧
      if (reply.field? "duplicate").isNone then
        reply.field? "depth" = some (.ofNat after.length) ∧
        after.entries = before.entries ++ [.pending r]
      else
        ∃ status, lastStatus r.ident past = some status ∧
          reply.field? "status" = some (.string status.name) ∧ after = before) ∧
    q.ids = (admitted history).dedup.filter (· ∈ q.ids) := by
  have hledger := Ledger.run_empty steps
  refine ⟨hledger.count, ?_, hledger.order⟩
  intro earlier r later hsteps hverb past before reply after
  have hpast := Ledger.run_empty earlier
  refine ⟨by rw [hsteps, run_append]; rfl, ?_⟩
  by_cases hheld : r.ident ∈ (run earlier .empty).2.ids
  · obtain ⟨held, hget⟩ := exists_get?_of_mem hheld
    obtain ⟨-, hduplicate, hstatus, hqueue⟩ := dispatch_duplicate hverb hget
    rw [if_neg (by simp [reply, before, hduplicate])]
    exact ⟨held.status, hpast.lastStatus_of_get? hget, hstatus, hqueue⟩
  · obtain ⟨-, hduplicate, hdepth, hentries⟩ := dispatch_admitted hverb hheld
    rw [if_pos (by simp [reply, before, hduplicate])]
    exact ⟨hdepth, hentries⟩

/-- Work that is taken out and comes again stands behind the others. -/
example :
    let execute (id : String) : Step := .dispatch ⟨Verb.execute, "CMIT/1.0", ⟨id, none, "t", none⟩⟩
    (run [execute "a", execute "b", .remove "a", execute "a"] .empty).2.ids = ["b", "a"] := by
  decide +kernel

end Queue

end Courier
