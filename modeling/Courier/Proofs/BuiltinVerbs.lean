import Courier.Verb.Builtin

/-!
# What the verbs of every server do

Each of the three verbs in one equation: its reply, and what it leaves of the queue. Of all requests
only an `EXECUTE` can change the queue, and only by one entry behind the others.
-/

namespace Courier

def Response.field? (response : Response) (key : String) : Option Json.Value :=
  response.payload.bind (Json.Value.field? key)

theorem Response.code_failureFor (r : Request) (f : Failure) :
    (failureFor r f).field? "code" = some (.string f.code.name) :=
  (Json.Value.field?_ofFields _ _).trans rfl

namespace Table

variable {r : Request}

theorem get?_builtin (verb : String) :
    builtin.get? verb =
      if verb = Verb.poll then some Verb.handlePoll
      else if verb = Verb.execute then some Verb.handleExecute
      else if verb = Verb.ping then some Verb.handlePing
      else none := by
  have hbuiltin : builtin = ((empty.register Verb.ping Verb.handlePing).register Verb.execute
      Verb.handleExecute).register Verb.poll Verb.handlePoll := rfl
  rw [hbuiltin]
  split
  · rename_i h
    rw [h, get?_register_self]
  · rename_i h
    rw [get?_register_of_ne h]
    split
    · rename_i h
      rw [h, get?_register_self]
    · rename_i h
      rw [get?_register_of_ne h]
      split
      · rename_i h
        rw [h, get?_register_self]
      · rename_i h
        rw [get?_register_of_ne h]
        rfl

/-- A reply that has the id and the topic of its request is the answer as it is. -/
theorem dispatch_bound {t : Table} {verb : String} {handler : Handler} {q : Queue}
    {answer : Response × Queue} (h : r.verb = verb) (hget : t.get? verb = some handler)
    (hreply : handler r q = (.ok answer.1, answer.2)) (hown : correlate r answer.1 = answer.1) :
    t.dispatch r q = answer := by
  simp only [dispatch, resolve, h, hget, hreply, hown]

theorem dispatch_ping (h : r.verb = Verb.ping) (q : Queue) :
    builtin.dispatch r q = (.ok r r.payload, q) :=
  dispatch_bound h rfl rfl rfl

theorem dispatch_execute (h : r.verb = Verb.execute) (q : Queue) :
    builtin.dispatch r q =
      (.reply r .ok "Accepted" (some (Verb.admissionPayload (q.enqueue (.pending r)).1)),
        (q.enqueue (.pending r)).2) :=
  dispatch_bound h rfl rfl rfl

theorem dispatch_poll (h : r.verb = Verb.poll) (q : Queue) :
    builtin.dispatch r q = (.ok r (some (Verb.queueReport r q)), q) :=
  dispatch_bound h rfl rfl rfl

theorem dispatch_unbound {t : Table} (h : t.get? r.verb = none) (q : Queue) :
    t.dispatch r q = (.failureFor r (.unknownVerb r.verb), q) := by
  simp only [dispatch, resolve, h]

/-- **Only an `EXECUTE` changes the queue.** -/
theorem queue_dispatch_builtin (r : Request) (q : Queue) :
    (builtin.dispatch r q).2 =
      if r.verb = Verb.execute then (q.enqueue (.pending r)).2 else q := by
  split
  · rename_i h
    rw [dispatch_execute h]
  · rename_i hexecute
    by_cases hping : r.verb = Verb.ping
    · rw [dispatch_ping hping]
    by_cases hpoll : r.verb = Verb.poll
    · rw [dispatch_poll hpoll]
    · rw [dispatch_unbound (by simp [get?_builtin, hexecute, hping, hpoll])]

end Table

end Courier
