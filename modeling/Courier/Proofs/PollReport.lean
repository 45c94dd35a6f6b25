import Courier.Proofs.QueueCatalog
import Courier.Proofs.QueueLedger

/-!
# What `POLL` reports

A `POLL` counts the entries of the queue, counts those of its topic, and looks up one id if it is
asked for one. It agrees with what the queue answers itself, with what a reader of all entries
finds, and with what has happened: the work that an `EXECUTE` has put into the queue is reported
under its own topic and with the status that it was given last, until it is taken out.

What happens to a queue is told by deeds (`Queue.Deed`): requests that sessions dispatch, and calls
that anyone else makes, a worker or a handler. A deed keeps the entry of an id and can change its
status alone (`get?_perform`), unless it takes the entry out. Main statement: `poll_reports`.
-/

namespace Courier

/-- The payload of the request is an object with the id as a string in it. -/
def Request.AsksFor (r : Request) (id : String) : Prop :=
  ∃ fields, r.payload = some (.object fields) ∧ Keyed.get? "id" fields = some (.string id)

namespace Verb

variable {r : Request} {q : Queue}

theorem wantedId?_eq_some_iff {id : String} : wantedId? r = some id ↔ r.AsksFor id := by
  constructor
  · intro h
    obtain ⟨v, hpayload, h⟩ := Option.bind_eq_some_iff.mp h
    obtain ⟨found, hfield, hstring⟩ := Option.bind_eq_some_iff.mp h
    cases v with
    | object fields =>
      cases found with
      | string s =>
        obtain rfl := Option.some.inj hstring
        exact ⟨fields, hpayload, hfield⟩
      | _ => cases hstring
    | _ => cases hfield
  · rintro ⟨fields, hpayload, hid⟩
    rw [wantedId?, hpayload]
    show (Keyed.get? "id" fields).bind Json.Value.string? = some id
    rw [hid]
    rfl

/-! ## The fields of a report -/

theorem depth_queueReport (r : Request) (q : Queue) :
    (queueReport r q).field? "depth" = some (.ofNat q.length) := by
  rw [queueReport_eq, Json.Value.field?_ofFields]
  cases wantedId? r <;> rfl

theorem topicDepth_queueReport (r : Request) (q : Queue) :
    (queueReport r q).field? "topic_depth" = some (.ofNat (q.topicLength r.topic)) := by
  rw [queueReport_eq, Json.Value.field?_ofFields]
  cases wantedId? r <;> rfl

theorem entry_queueReport (r : Request) (q : Queue) :
    (queueReport r q).field? "entry" =
      (wantedId? r).map fun id => ((q.get? id).map Entry.summary).getD .null := by
  rw [queueReport_eq, Json.Value.field?_ofFields]
  cases wantedId? r <;> rfl

end Verb

/-- A table that has `POLL` under some verb answers with the report and leaves the queue alone. -/
theorem Table.dispatch_handlePoll {t : Table} {r : Request}
    (hpoll : t.get? r.verb = some Verb.handlePoll) (q : Queue) :
    t.dispatch r q = (.ok r (some (Verb.queueReport r q)), q) :=
  dispatch_bound rfl hpoll rfl rfl

namespace Entry

theorem id_summary (e : Entry) : e.summary.field? "id" = some (.string e.id) :=
  (Json.Value.field?_ofFields _ _).trans rfl

theorem topic_summary (e : Entry) : e.summary.field? "topic" = some (.string e.topic) :=
  (Json.Value.field?_ofFields _ _).trans rfl

theorem status_summary (e : Entry) :
    e.summary.field? "status" = some (.string e.status.name) :=
  (Json.Value.field?_ofFields _ _).trans rfl

end Entry

namespace Queue

/-! ## Deeds -/

/-- What happens to a queue: a request that some session dispatches, or a call. -/
inductive Deed where
  | dispatch (r : Request)
  | call (c : Call)

def Deed.perform : Deed → Queue → Queue
  | .dispatch r, q => (Table.builtin.dispatch r q).2
  | .call c, q => (c.perform q).2

def after (q : Queue) (deeds : List Deed) : Queue := deeds.foldl (fun q d => d.perform q) q

/-- The status of the entry of an id after a deed that does not take it out. -/
def Deed.statusAfter (id : String) (status : EntryStatus) : Deed → EntryStatus
  | .call (.setStatus id' status') => if id' = id then status' else status
  | _ => status

/-- The status that the entry of an id is given last, if it had some status before. -/
def lastSet (id : String) (status : EntryStatus) (deeds : List Deed) : EntryStatus :=
  deeds.foldl (Deed.statusAfter id) status

variable {q : Queue} {id : String} {e : Entry}

theorem after_append (q : Queue) (deeds later : List Deed) :
    q.after (deeds ++ later) = (q.after deeds).after later := List.foldl_append

theorem after_cons (q : Queue) (d : Deed) (later : List Deed) :
    q.after (d :: later) = (d.perform q).after later := rfl

theorem perform_dispatch (r : Request) (q : Queue) :
    Deed.perform (.dispatch r) q =
      if r.verb = Verb.execute then (q.enqueue (.pending r)).2 else q :=
  Table.queue_dispatch_builtin r q

theorem nodup_ids_deed (h : q.ids.Nodup) (d : Deed) : (d.perform q).ids.Nodup := by
  cases d with
  | dispatch r =>
    rw [perform_dispatch]
    split
    · exact nodup_ids_enqueue h _
    · exact h
  | call c => exact nodup_ids_perform h c

theorem nodup_ids_after (h : q.ids.Nodup) (deeds : List Deed) : (q.after deeds).ids.Nodup := by
  induction deeds generalizing q with
  | nil => exact h
  | cons d later ih => exact ih (nodup_ids_deed h d)

theorem get?_eq_some_iff (h : q.ids.Nodup) : q.get? id = some e ↔ e ∈ q.entries ∧ e.id = id := by
  constructor
  · intro hget
    exact ⟨List.mem_of_find?_eq_some hget, id_of_get? hget⟩
  · rintro ⟨hmem, rfl⟩
    exact get?_of_mem h hmem

/-! ## An entry that stays -/

/-- Whatever is offered to the queue, an entry that is held stays as it is. -/
theorem get?_enqueue_of_get? (hget : q.get? id = some e) (offered : Entry) :
    (q.enqueue offered).2.get? id = some e := by
  by_cases hheld : offered.id ∈ q.ids
  · obtain ⟨held, hfound⟩ := exists_get?_of_mem hheld
    rw [enqueue_of_get? hfound]
    exact hget
  · have hne : id ≠ offered.id := by
      rintro rfl
      exact hheld (mem_ids_of_get? hget)
    rw [get?_enqueue hheld, if_neg hne, hget]

/-- **A deed that does not take out the entry of an id keeps it**, and changes its status alone. -/
theorem get?_perform (hdistinct : q.ids.Nodup) (hget : q.get? id = some e) {d : Deed}
    (hkeep : d ≠ .call (.remove id)) :
    (d.perform q).get? id = some { e with status := d.statusAfter id e.status } := by
  cases d with
  | dispatch r =>
    rw [perform_dispatch]
    split
    · exact get?_enqueue_of_get? hget _
    · exact hget
  | call c =>
    cases c with
    | enqueue offered => exact get?_enqueue_of_get? hget offered
    | setStatus id' status =>
      cases hset : q.setStatus id' status with
      | error f =>
        -- an id that cannot be advanced is not this one
        have hne : id' ≠ id := by
          rintro rfl
          obtain ⟨q', hok⟩ := setStatus_of_get? hget status
          rw [hok] at hset
          cases hset
        simpa [Deed.perform, Call.perform, hset, Deed.statusAfter, hne] using hget
      | ok q' =>
        have hfound := get?_setStatus hset id
        rw [hget, Option.map_some] at hfound
        simp only [Deed.perform, Call.perform, hset, Deed.statusAfter, hfound, Option.some.injEq]
        by_cases hid : id' = id
        · rw [if_pos hid.symm, if_pos hid]
        · rw [if_neg (Ne.symm hid), if_neg hid]
    | remove id' =>
      have hne : id ≠ id' := by
        rintro rfl
        exact hkeep rfl
      cases hremove : q.remove id' with
      | error f => simpa [Deed.perform, Call.perform, hremove, Deed.statusAfter] using hget
      | ok p =>
        simp only [Deed.perform, Call.perform, hremove, get?_remove hdistinct hremove, if_neg hne]
        exact hget
    | _ => exact hget

/-- Deeds none of which takes out the entry of an id keep it, with the status that it is given
last. -/
theorem get?_after (hdistinct : q.ids.Nodup) (hget : q.get? id = some e) {deeds : List Deed}
    (hkeep : ∀ d ∈ deeds, d ≠ .call (.remove id)) :
    (q.after deeds).get? id = some { e with status := lastSet id e.status deeds } := by
  induction deeds generalizing q e with
  | nil => exact hget
  | cons d later ih =>
    obtain ⟨hd, hlater⟩ := List.forall_mem_cons.mp hkeep
    exact ih (nodup_ids_deed hdistinct d) (get?_perform hdistinct hget hd) hlater

/-- An `EXECUTE` that is not told of a duplicate has put its entry into the queue. -/
theorem get?_of_created {r : Request} (hverb : r.verb = Verb.execute)
    (hcreated : (Table.builtin.dispatch r q).1.field? "duplicate" = none) :
    (Deed.perform (.dispatch r) q).get? r.ident = some (.pending r) := by
  have hfresh : (Entry.pending r).id ∉ q.ids := by
    intro hheld
    obtain ⟨held, hget⟩ := exists_get?_of_mem hheld
    rw [(dispatch_duplicate hverb hget).2.1] at hcreated
    cases hcreated
  rw [perform_dispatch, if_pos hverb, get?_enqueue hfresh]
  exact if_pos rfl

/-! ## Reports -/

/-- **`POLL` tells the truth and changes nothing.** Let anything be done to a queue that is empty at
first, and a request then go to a table that has `POLL` under its verb. The queue stays as it is.
The reply gives the length of the queue and, no more than that, the number of entries with the topic
of the request, as the queue answers itself and as all entries show. It has an entry exactly if the
payload of the request is an object with a string as its id: the summary of what the queue finds
under that id, which is the one entry that has it, or null if there is none. If an `EXECUTE` has put
work into the queue that no later deed takes out, a `POLL` for its id tells of the topic of that
`EXECUTE`, whatever requests for the same id have come since, and of the status that was set last,
which is pending if none was. -/
theorem poll_reports {t : Table} {r : Request} (hpoll : t.get? r.verb = some Verb.handlePoll)
    (deeds : List Deed) :
    let q := Queue.empty.after deeds
    let reply := (t.dispatch r q).1
    (t.dispatch r q).2 = q ∧
      (reply.field? "depth" = some (.ofNat q.length) ∧
        reply.field? "topic_depth" = some (.ofNat (q.topicLength r.topic)) ∧
        q.topicLength r.topic = (q.entries.filter (·.topic = r.topic)).length ∧
        q.topicLength r.topic ≤ q.length) ∧
      ((reply.field? "entry").isSome = true ↔ ∃ id, r.AsksFor id) ∧
      (∀ id, r.AsksFor id →
        reply.field? "entry" = some (((q.get? id).map Entry.summary).getD .null) ∧
        ∀ e, q.get? id = some e ↔ e ∈ q.entries ∧ e.id = id) ∧
      ∀ earlier created later, deeds = earlier ++ .dispatch created :: later →
        created.verb = Verb.execute →
        (Table.builtin.dispatch created (Queue.empty.after earlier)).1.field? "duplicate" = none →
        (∀ d ∈ later, d ≠ .call (.remove created.ident)) → r.AsksFor created.ident →
        ∃ entry, reply.field? "entry" = some entry ∧
          entry.field? "id" = some (.string created.ident) ∧
          entry.field? "topic" = some (.string created.topic) ∧
          entry.field? "status" = some (.string (lastSet created.ident .pending later).name) := by
  intro q reply
  have hdistinct : q.ids.Nodup := nodup_ids_after (q := .empty) List.nodup_nil deeds
  have hdispatch := Table.dispatch_handlePoll hpoll q
  have hfield : ∀ key, reply.field? key = (Verb.queueReport r q).field? key := by
    intro key
    rw [show reply = _ from congrArg Prod.fst hdispatch]
    rfl
  have hentry : ∀ id, r.AsksFor id →
      reply.field? "entry" = some (((q.get? id).map Entry.summary).getD .null) := by
    intro id hid
    rw [hfield, Verb.entry_queueReport, Verb.wantedId?_eq_some_iff.mpr hid, Option.map_some]
  refine ⟨congrArg Prod.snd hdispatch, ⟨?_, ?_, ?_, List.countP_le_length⟩, ?_, ?_, ?_⟩
  · rw [hfield, Verb.depth_queueReport]
  · rw [hfield, Verb.topicDepth_queueReport]
  · rw [topicLength, List.countP_eq_length_filter]
    rfl
  · rw [hfield, Verb.entry_queueReport, Option.isSome_map, Option.isSome_iff_exists]
    exact exists_congr fun id => Verb.wantedId?_eq_some_iff
  · intro id hid
    exact ⟨hentry id hid, fun e => get?_eq_some_iff hdistinct⟩
  · intro earlier created later hdeeds hverb hcreated hkeep hid
    have hbefore : (Queue.empty.after earlier).ids.Nodup :=
      nodup_ids_after (q := .empty) List.nodup_nil earlier
    -- the entry of that `EXECUTE` is still there, with its own topic
    have hget : q.get? created.ident =
        some { Entry.pending created with status := lastSet created.ident .pending later } := by
      rw [show q = _ from congrArg Queue.empty.after hdeeds, after_append, after_cons]
      exact get?_after (nodup_ids_deed hbefore _) (get?_of_created hverb hcreated) hkeep
    refine ⟨_, hentry _ hid, ?_, ?_, ?_⟩
    · rw [hget]
      exact Entry.id_summary _
    · rw [hget]
      exact Entry.topic_summary _
    · rw [hget]
      exact Entry.status_summary _

/-- Work that is asked for twice, under another topic the second time, and set to running between:
a `POLL` under the second topic finds no entry of that topic, and the work under the first. -/
theorem poll_reports_first_topic :
    let execute (topic : String) : Deed :=
      .dispatch ⟨Verb.execute, "CMIT/1.0", ⟨some "a", some "5", topic, none⟩⟩
    let poll : Request :=
      ⟨Verb.poll, "CMIT/1.0", ⟨some "p", some "6", "u", some (.ofFields [("id", .string "a")])⟩⟩
    let q := Queue.empty.after
      [execute "t", .call (.setStatus "a" .running), execute "u", .call (.remove "b")]
    let reply := (Table.builtin.dispatch poll q).1
    reply.field? "depth" = some (.ofNat 1) ∧ reply.field? "topic_depth" = some (.ofNat 0) ∧
      ∃ entry, reply.field? "entry" = some entry ∧ entry.field? "topic" = some (.string "t") ∧
        entry.field? "status" = some (.string "running") := by
  intro execute poll q reply
  have hpoll : Table.builtin.get? poll.verb = some Verb.handlePoll := rfl
  obtain ⟨-, ⟨hdepth, htopic, -, -⟩, -, -, hhistory⟩ := poll_reports hpoll
    [execute "t", .call (.setStatus "a" .running), execute "u", .call (.remove "b")]
  have hlength : q.length = 1 ∧ q.topicLength "u" = 0 := by decide +kernel
  obtain ⟨entry, hentry, -, hname, hstatus⟩ :=
    hhistory [] ⟨Verb.execute, "CMIT/1.0", ⟨some "a", some "5", "t", none⟩⟩ _ rfl rfl rfl
      (by simp [execute, Request.ident, Envelope.ident]) ⟨_, rfl, rfl⟩
  refine ⟨?_, ?_, entry, hentry, hname, hstatus⟩
  · rw [← hlength.1]
    exact hdepth
  · rw [← hlength.2]
    exact htopic

end Queue

end Courier
