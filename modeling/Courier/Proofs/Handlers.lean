import Courier.Proofs.MessageReading
import Courier.Verb.Builtin

/-!
# Handlers whose replies can be written

What a handler replies with is tame if it can be written and read again: it is in the version of the
request or in the default one, and its payload may stand in a message. A table of such handlers
gives such responses only, to verbs that it knows and to those it does not (`portable_dispatch`).

A handler that reports how long the queue is depends on a bound on the queue, which each request may
bring closer. An allowance tells how many more requests a queue is good for.
-/

namespace Courier

open Text Wire Decimal

/-! ## Values of several fields -/

namespace Json.Value

theorem portable_null : null.Portable := ⟨trivial, trivial, show 0 < maxDepth by decide⟩

theorem portable_bool (b : Bool) : (bool b).Portable :=
  ⟨trivial, trivial, show 0 < maxDepth by decide⟩

theorem portable_ofNat {n : Nat} (h : n < twoTo 64) : (ofNat n).Portable := by
  refine ⟨⟨?_, ?_⟩, trivial, show 0 < maxDepth by decide⟩
  · omega
  · exact Int.ofNat_lt.mpr h

/-- An object of values that may stand in a message may do so, if they are no deeper than the
object may be. -/
theorem portable_ofFields {fields : List (String × Value)}
    (h : ∀ f ∈ fields, f.2.Portable ∧ f.2.depth + 1 < maxDepth) : (ofFields fields).Portable := by
  refine ⟨?_, ?_, ?_⟩
  · rw [ofFields, wellFormed_object]
    constructor
    · exact Keyed.ascending_ofList fields
    · intro f hf
      exact (h f (Keyed.mem_ofList hf)).1.wellFormed
  · rw [ofFields, integral_object]
    intro f hf
    exact (h f (Keyed.mem_ofList hf)).1.integral
  · have hdepth : depthOfFields (Keyed.ofList fields) ≤ maxDepth - 2 := by
      rw [depthOfFields_le_iff]
      intro f hf
      have := (h f (Keyed.mem_ofList hf)).2
      omega
    rw [ofFields, depth]
    have : maxDepth = 127 := rfl
    omega

theorem portable_texts {fields : List (String × Value)} (h : ∀ f ∈ fields, ∃ s, f.2 = string s) :
    (ofFields fields).Portable ∧ (ofFields fields).depth ≤ 1 := by
  constructor
  · apply portable_ofFields
    intro f hf
    obtain ⟨s, hs⟩ := h f hf
    rw [hs]
    exact ⟨portable_string s, show 1 < maxDepth by decide⟩
  · rw [ofFields, depth, Nat.add_le_add_iff_right, depthOfFields_le_iff]
    intro f hf
    obtain ⟨s, hs⟩ := h f (Keyed.mem_ofList hf)
    rw [hs]
    exact Nat.le_refl 0

end Json.Value

/-! ## Responses of the server itself -/

theorem Failure.portable_payload (f : Failure) : f.payload.Portable := by
  refine (Json.Value.portable_texts ?_).1
  simp only [List.forall_mem_cons]
  exact ⟨⟨_, rfl⟩, ⟨_, rfl⟩, List.forall_mem_nil _⟩

theorem Version.isWord_default : IsWord Version.default.toList := isWord_of_isToken (by decide)

namespace Response

theorem portable_failure {version : String} {e : Envelope} (hversion : IsWord version.toList)
    (hid : e.id.isSome = true) (f : Failure) : (failure version e f).Portable := by
  refine ⟨hversion, hid, ?_⟩
  rintro v ⟨⟩
  exact f.portable_payload

end Response

namespace Request

theorem portable_stamp {r : Request} (hr : r.Portable) (supply : Supply) :
    (r.stamp supply).1.Portable ∧ (r.stamp supply).1.envelope.id.isSome = true :=
  ⟨⟨hr.verb, hr.version, hr.envelope⟩, rfl⟩

end Request

/-! ## Handlers -/

/-- How many more requests a queue is good for: for fewer, if it is for more. -/
structure Allowance where
  covers : Nat → Queue → Prop
  fewer : ∀ {n q}, covers (n + 1) q → covers n q

namespace Allowance

/-- The entries can be counted in 64 bits, also after one more for each request. -/
def counted : Allowance := ⟨fun n q => q.length + n < twoTo 64, fun h => Nat.lt_of_succ_lt h⟩

end Allowance

/-- On a queue with something left of the allowance, a handler fails or replies in the version of
the request or the default one with a payload that may stand in a message. It uses up the allowance
for one request. -/
structure Handler.IsTame (a : Allowance) (handler : Handler) : Prop where
  reply : ∀ {n r q response}, r.Portable → a.covers (n + 1) q →
    (handler r q).1 = .ok response →
      (response.version = r.version ∨ response.version = Version.default) ∧
        response.envelope.Portable
  queue : ∀ {n r q}, r.Portable → a.covers (n + 1) q → a.covers n (handler r q).2

namespace Table

variable {t : Table} {a : Allowance}

/-- Every verb is bound to a tame handler. -/
def IsTame (a : Allowance) (t : Table) : Prop :=
  ∀ verb handler, t.get? verb = some handler → handler.IsTame a

/-- **The answers of a tame table can be written**: the replies of its handlers, the reports of
their failures and the reports of unknown verbs. -/
theorem portable_dispatch (ht : t.IsTame a) {r : Request} (hr : r.Portable)
    (hid : r.envelope.id.isSome = true) {n : Nat} {q : Queue} (hq : a.covers (n + 1) q) :
    (t.dispatch r q).1.Portable ∧ a.covers n (t.dispatch r q).2 := by
  have hfailure : ∀ f, (Response.failureFor r f).Portable :=
    Response.portable_failure hr.version hid
  rcases t.dispatch_cases r q with
    ⟨-, heq⟩ | ⟨handler, f, q', hget, hrun, heq⟩ | ⟨handler, response, q', hget, hrun, heq⟩
  · rw [heq]
    exact ⟨hfailure _, a.fewer hq⟩
  · have hqueue := (ht r.verb handler hget).queue hr hq
    rw [hrun] at hqueue
    rw [heq]
    exact ⟨hfailure f, hqueue⟩
  · have hqueue := (ht r.verb handler hget).queue hr hq
    obtain ⟨hversion, hpayload⟩ :=
      (ht r.verb handler hget).reply hr hq (congrArg Prod.fst hrun)
    rw [hrun] at hqueue
    rw [heq]
    -- the id is that of the request, whatever the reply has
    refine ⟨⟨?_, hid, hpayload⟩, hqueue⟩
    rcases hversion with hsame | hdefault
    · exact hsame ▸ hr.version
    · exact hdefault ▸ Version.isWord_default

theorem isTame_registerAll {bindings : List (String × Handler)} (ht : t.IsTame a)
    (h : ∀ b ∈ bindings, b.2.IsTame a) : (t.registerAll bindings).IsTame a :=
  forall_get?_registerAll ht h

end Table

/-! ## The verbs of every server -/

namespace Verb

variable {a : Allowance}

theorem isTame_handlePing : Handler.IsTame a handlePing where
  reply := by
    rintro n r q response hr - ⟨⟩
    exact ⟨.inl rfl, hr.envelope⟩
  queue := fun _ hq => a.fewer hq

theorem length_enqueue (q : Queue) (e : Entry) : (q.enqueue e).2.length ≤ q.length + 1 := by
  unfold Queue.enqueue
  split
  · exact Nat.le_succ _
  · simp [Queue.length]

theorem portable_admissionPayload {q : Queue} (h : q.length + 1 < twoTo 64) (e : Entry) :
    (admissionPayload (q.enqueue e).1).Portable := by
  have hdepth : 1 < Json.maxDepth := by decide
  unfold Queue.enqueue
  split
  · apply Json.Value.portable_ofFields
    simp only [List.forall_mem_cons]
    exact ⟨⟨Json.Value.portable_string _, hdepth⟩,
      ⟨Json.Value.portable_ofNat (Nat.lt_of_succ_lt h), hdepth⟩,
      ⟨Json.Value.portable_bool true, hdepth⟩, List.forall_mem_nil _⟩
  · apply Json.Value.portable_ofFields
    simp only [List.forall_mem_cons]
    exact ⟨⟨Json.Value.portable_string _, hdepth⟩, ⟨Json.Value.portable_ofNat h, hdepth⟩,
      List.forall_mem_nil _⟩

theorem isTame_handleExecute : Handler.IsTame .counted handleExecute where
  reply := by
    rintro n r q response hr hq ⟨⟩
    refine ⟨.inl rfl, ?_⟩
    rintro v ⟨⟩
    have hq : q.length + (n + 1) < twoTo 64 := hq
    exact portable_admissionPayload (by omega) _
  queue := by
    intro n r q hr hq
    have hq : q.length + (n + 1) < twoTo 64 := hq
    have hlen := length_enqueue q (.pending r)
    show (q.enqueue (.pending r)).2.length + n < twoTo 64
    omega

theorem portable_summary (e : Entry) : e.summary.Portable ∧ e.summary.depth ≤ 1 := by
  apply Json.Value.portable_texts
  simp only [List.forall_mem_cons]
  exact ⟨⟨_, rfl⟩, ⟨_, rfl⟩, ⟨_, rfl⟩, List.forall_mem_nil _⟩

theorem isTame_handlePoll : Handler.IsTame .counted handlePoll where
  reply := by
    rintro n r q response hr hq ⟨⟩
    refine ⟨.inl rfl, ?_⟩
    rintro v ⟨⟩
    have hq : q.length + (n + 1) < twoTo 64 := hq
    have htopic : q.topicLength r.topic ≤ q.length := List.countP_le_length
    rw [queueReport_eq]
    apply Json.Value.portable_ofFields
    intro f hf
    have hone : 1 < Json.maxDepth := by decide
    simp only [List.mem_append, List.mem_cons, List.not_mem_nil, or_false, List.mem_map] at hf
    rcases hf with (rfl | rfl) | ⟨id, -, rfl⟩
    · exact ⟨Json.Value.portable_ofNat (by omega), hone⟩
    · exact ⟨Json.Value.portable_ofNat (by omega), hone⟩
    · dsimp only
      cases q.get? id with
      | none => exact ⟨Json.Value.portable_null, hone⟩
      | some e =>
        obtain ⟨hportable, hdepth⟩ := portable_summary e
        exact ⟨hportable, Nat.lt_of_le_of_lt (Nat.succ_le_succ hdepth) (by decide)⟩
  queue := fun _ hq => Allowance.counted.fewer hq

end Verb

/-- The verbs of every server are tame as long as the entries can be counted. -/
theorem Table.isTame_builtin : Table.builtin.IsTame .counted := by
  apply isTame_registerAll
  · intro verb handler hget
    cases hget
  · simp only [List.forall_mem_cons]
    exact ⟨Verb.isTame_handlePing, Verb.isTame_handleExecute, Verb.isTame_handlePoll,
      List.forall_mem_nil _⟩

end Courier
