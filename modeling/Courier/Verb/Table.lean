import Courier.Keyed
import Courier.Queue

/-!
# Verbs

A table binds verbs to handlers. Verbs match exactly, and binding one again replaces its handler.
`Table.dispatch` always gives a response, and one with the id and the topic of the request
(`id_dispatch`, `topic_dispatch`), whatever the handler does.
-/

namespace Courier

/-- What a verb does: an answer or a failure, and what becomes of the queue. -/
abbrev Handler := Request → Queue → Except Failure Response × Queue

structure Table where
  bindings : Keyed Handler := []

namespace Table

def empty : Table := {}

def register (t : Table) (verb : String) (handler : Handler) : Table :=
  ⟨Keyed.insert verb handler t.bindings⟩

def get? (t : Table) (verb : String) : Option Handler := Keyed.get? verb t.bindings

def contains (t : Table) (verb : String) : Bool := (t.get? verb).isSome

def verbs (t : Table) : List String := Keyed.keys t.bindings

/-- Binds a verb, and gives the handler that is replaced if there is one. -/
def bind (t : Table) (verb : String) (handler : Handler) : Option Handler × Table :=
  (t.get? verb, t.register verb handler)

def resolve (t : Table) (verb : String) : Except Failure Handler :=
  match t.get? verb with
  | some handler => .ok handler
  | none => .error (.unknownVerb verb)

def registerAll (t : Table) (bindings : List (String × Handler)) : Table :=
  bindings.foldl (fun t b => t.register b.1 b.2) t

/-- The response with the id and the topic of the request it answers. Its time stays its own. -/
def correlate (r : Request) (response : Response) : Response :=
  { response with
    envelope := { response.envelope with id := r.envelope.id, topic := r.envelope.topic } }

def dispatch (t : Table) (r : Request) (q : Queue) : Response × Queue :=
  match t.resolve r.verb with
  | .error f => (.failureFor r f, q)
  | .ok handler =>
      match handler r q with
      -- what the handler has done to the queue stays, also if it fails
      | (.ok response, q) => (correlate r response, q)
      | (.error f, q) => (.failureFor r f, q)

theorem get?_register_self (t : Table) (verb : String) (handler : Handler) :
    (t.register verb handler).get? verb = some handler :=
  Keyed.get?_insert_self verb handler t.bindings

theorem get?_register_of_ne {verb other : String} (h : other ≠ verb) (t : Table)
    (handler : Handler) : (t.register verb handler).get? other = t.get? other :=
  Keyed.get?_insert_of_ne h handler t.bindings

theorem forall_get?_register {p : Handler → Prop} {t : Table}
    (ht : ∀ verb handler, t.get? verb = some handler → p handler) (verb : String)
    {handler : Handler} (hhandler : p handler) :
    ∀ other bound, (t.register verb handler).get? other = some bound → p bound := by
  intro other bound hget
  by_cases heq : other = verb
  · rw [heq, get?_register_self] at hget
    obtain rfl := Option.some.inj hget
    exact hhandler
  · rw [get?_register_of_ne heq] at hget
    exact ht other bound hget

theorem forall_get?_registerAll {p : Handler → Prop} {t : Table}
    (ht : ∀ verb handler, t.get? verb = some handler → p handler)
    {bindings : List (String × Handler)} (h : ∀ b ∈ bindings, p b.2) :
    ∀ verb handler, (t.registerAll bindings).get? verb = some handler → p handler := by
  induction bindings generalizing t with
  | nil => exact ht
  | cons b bindings ih =>
    obtain ⟨hb, hbindings⟩ := List.forall_mem_cons.mp h
    exact ih (forall_get?_register ht b.1 hb) hbindings

/-- All that a dispatch can do: the verb is not bound, its handler fails, or its handler replies. -/
theorem dispatch_cases (t : Table) (r : Request) (q : Queue) :
    (t.get? r.verb = none ∧ t.dispatch r q = (.failureFor r (.unknownVerb r.verb), q)) ∨
      (∃ handler f q', t.get? r.verb = some handler ∧ handler r q = (.error f, q') ∧
        t.dispatch r q = (.failureFor r f, q')) ∨
      ∃ handler response q', t.get? r.verb = some handler ∧ handler r q = (.ok response, q') ∧
        t.dispatch r q = (correlate r response, q') := by
  cases hget : t.get? r.verb with
  | none => exact .inl ⟨rfl, by simp only [dispatch, resolve, hget]⟩
  | some handler =>
    rcases hrun : handler r q with ⟨f | response, q'⟩
    · exact .inr (.inl ⟨handler, f, q', rfl, hrun, by simp only [dispatch, resolve, hget, hrun]⟩)
    · exact .inr (.inr
        ⟨handler, response, q', rfl, hrun, by simp only [dispatch, resolve, hget, hrun]⟩)

theorem id_dispatch (t : Table) (r : Request) (q : Queue) :
    (t.dispatch r q).1.envelope.id = r.envelope.id := by
  rcases t.dispatch_cases r q with ⟨-, heq⟩ | ⟨_, _, _, -, -, heq⟩ | ⟨_, _, _, -, -, heq⟩
  all_goals
    rw [heq]
    rfl

theorem topic_dispatch (t : Table) (r : Request) (q : Queue) :
    (t.dispatch r q).1.envelope.topic = r.envelope.topic := by
  rcases t.dispatch_cases r q with ⟨-, heq⟩ | ⟨_, _, _, -, -, heq⟩ | ⟨_, _, _, -, -, heq⟩
  all_goals
    rw [heq]
    rfl

end Table

end Courier
