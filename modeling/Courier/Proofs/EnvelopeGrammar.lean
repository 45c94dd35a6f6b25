import Courier.Message.Fields
import Mathlib.Tactic.MkIffOfInductiveProp

/-!
# What the fields of an object must be for an envelope

Each field of an envelope has its names, two for the id and one for every other. The fields of an
object spell an envelope if they have no other names, no field is there twice, and each value is of
the kind that its field asks for (`Envelope.IsSpelledBy`). A draft is four slots that do not depend
on each other, so that one lemma about a slot (`slot_cons`) carries the induction over the fields.

Main statement: `ofFields_eq_ok_iff`.
-/

namespace Courier

open Json

variable {fields : List (String × Value)} {name : String} {v : Value}

namespace EnvelopeField

def names : EnvelopeField → List String
  | .id => ["id", "_id"]
  | .timestamp => ["timestamp"]
  | .topic => ["topic"]
  | .payload => ["payload"]

theorem ofName?_eq_some_iff {field : EnvelopeField} :
    ofName? name = some field ↔ name ∈ field.names := by
  have hdistinct : "timestamp" ≠ "id" ∧ "timestamp" ≠ "_id" ∧ "topic" ≠ "id" ∧ "topic" ≠ "_id" ∧
      "topic" ≠ "timestamp" ∧ "payload" ≠ "id" ∧ "payload" ≠ "_id" ∧ "payload" ≠ "timestamp" ∧
      "payload" ≠ "topic" := by decide
  unfold ofName?
  cases field <;> simp only [names, List.mem_cons, List.not_mem_nil, or_false] <;> grind

theorem exists_iff {p : EnvelopeField → Prop} :
    (∃ field, p field) ↔ p .id ∨ p .timestamp ∨ p .topic ∨ p .payload := by
  constructor
  · rintro ⟨field, h⟩
    cases field <;> simp [h]
  · rintro (h | h | h | h)
    all_goals exact ⟨_, h⟩

def values (field : EnvelopeField) (fields : List (String × Value)) : List Value :=
  (fields.filter fun f => f.1 ∈ field.names).map (·.2)

theorem values_cons_self {field : EnvelopeField} (h : ofName? name = some field)
    (fields : List (String × Value)) :
    field.values ((name, v) :: fields) = v :: field.values fields := by
  simp [values, ofName?_eq_some_iff.mp h]

theorem values_cons_of_ne {field other : EnvelopeField} (h : ofName? name = some field)
    (hne : field ≠ other) : other.values ((name, v) :: fields) = other.values fields := by
  have hname : name ∉ other.names := by
    rw [← ofName?_eq_some_iff, h]
    exact fun heq => hne (Option.some.inj heq)
  simp [values, hname]

end EnvelopeField

/-! ## Drafts -/

namespace EnvelopeDraft

open EnvelopeField

/-- What becomes of one slot of a draft: it stays, or it is empty and a single value goes in. -/
inductive Slot {α : Type} (read : Value → Except EnvelopeFlaw α) :
    Option α → List Value → Option α → Prop where
  | stays (before : Option α) : Slot read before [] before
  | filled {v : Value} {a : α} (h : read v = .ok a) : Slot read none [v] (some a)

theorem slot_cons {α : Type} {read : Value → Except EnvelopeFlaw α} {before after : Option α}
    {values : List Value} : Slot read before (v :: values) after ↔
      before = none ∧ ∃ a, read v = .ok a ∧ Slot read (some a) values after := by
  constructor
  · intro h
    cases h with
    | filled h => exact ⟨rfl, _, h, .stays _⟩
  · rintro ⟨rfl, a, ha, h⟩
    cases h
    exact .filled ha

/-- The fields take one draft to another. -/
@[mk_iff]
structure Adds (d : EnvelopeDraft) (fields : List (String × Value)) (d' : EnvelopeDraft) :
    Prop where
  known : ∀ f ∈ fields, ∃ field, EnvelopeField.ofName? f.1 = some field
  id : Slot textOrNull d.id (EnvelopeField.id.values fields) d'.id
  timestamp : Slot timeOfValue d.timestamp (EnvelopeField.timestamp.values fields) d'.timestamp
  topic : Slot textOfValue d.topic (EnvelopeField.topic.values fields) d'.topic
  payload : Slot .ok d.payload (EnvelopeField.payload.values fields) d'.payload

variable {d d' : EnvelopeDraft}

theorem addAll_cons_eq_ok_iff : d.addAll ((name, v) :: fields) = .ok d' ↔
    ∃ field, ofName? name = some field ∧ d.has field = false ∧
      ∃ next, d.set field v = .ok next ∧ next.addAll fields = .ok d' := by
  rw [addAll, claim]
  cases ofName? name with
  | none => simp
  | some field =>
    cases hhas : d.has field with
    | true => simp [hhas]
    | false =>
      cases hset : d.set field v with
      | error flaw => simp [hset, hhas]
      | ok next => simp [hset, hhas]

theorem exists_map_eq_ok {ε α β : Type} {x : Except ε α} {put : α → β} {b : β} :
    x.map put = .ok b ↔ ∃ a, x = .ok a ∧ put a = b := by
  cases x <;> simp [Except.map]

theorem adds_cons_of_name {field : EnvelopeField} (hname : ofName? name = some field) :
    Adds d ((name, v) :: fields) d' ↔
      d.has field = false ∧ ∃ next, d.set field v = .ok next ∧ Adds next fields d' := by
  have hother : ∀ {other : EnvelopeField}, field ≠ other →
      other.values ((name, v) :: fields) = other.values fields :=
    fun hne => values_cons_of_ne hname hne
  rw [adds_iff, List.forall_mem_cons]
  -- the value goes into the slot of its own field, and the other three stay
  cases field with
  | id =>
    rw [values_cons_self hname, slot_cons, hother (by decide), hother (by decide),
      hother (by decide)]
    constructor
    · rintro ⟨⟨-, hknown⟩, ⟨hempty, id, hread, hid⟩, htime, htopic, hpayload⟩
      exact ⟨by simp [has, hempty], { d with id := some id }, by rw [set, hread]; rfl,
        hknown, hid, htime, htopic, hpayload⟩
    · rintro ⟨hhas, next, hset, hknown, hid, htime, htopic, hpayload⟩
      obtain ⟨id, hread, rfl⟩ := exists_map_eq_ok.mp hset
      exact ⟨⟨⟨_, hname⟩, hknown⟩, ⟨by simpa [has] using hhas, id, hread, hid⟩, htime, htopic,
        hpayload⟩
  | timestamp =>
    rw [values_cons_self hname, slot_cons, hother (by decide), hother (by decide),
      hother (by decide)]
    constructor
    · rintro ⟨⟨-, hknown⟩, hid, ⟨hempty, time, hread, htime⟩, htopic, hpayload⟩
      exact ⟨by simp [has, hempty], { d with timestamp := some time }, by rw [set, hread]; rfl,
        hknown, hid, htime, htopic, hpayload⟩
    · rintro ⟨hhas, next, hset, hknown, hid, htime, htopic, hpayload⟩
      obtain ⟨time, hread, rfl⟩ := exists_map_eq_ok.mp hset
      exact ⟨⟨⟨_, hname⟩, hknown⟩, hid, ⟨by simpa [has] using hhas, time, hread, htime⟩, htopic,
        hpayload⟩
  | topic =>
    rw [values_cons_self hname, slot_cons, hother (by decide), hother (by decide),
      hother (by decide)]
    constructor
    · rintro ⟨⟨-, hknown⟩, hid, htime, ⟨hempty, topic, hread, htopic⟩, hpayload⟩
      exact ⟨by simp [has, hempty], { d with topic := some topic }, by rw [set, hread]; rfl,
        hknown, hid, htime, htopic, hpayload⟩
    · rintro ⟨hhas, next, hset, hknown, hid, htime, htopic, hpayload⟩
      obtain ⟨topic, hread, rfl⟩ := exists_map_eq_ok.mp hset
      exact ⟨⟨⟨_, hname⟩, hknown⟩, hid, htime, ⟨by simpa [has] using hhas, topic, hread, htopic⟩,
        hpayload⟩
  | payload =>
    rw [values_cons_self hname, slot_cons, hother (by decide), hother (by decide),
      hother (by decide)]
    constructor
    · rintro ⟨⟨-, hknown⟩, hid, htime, htopic, hempty, w, hread, hpayload⟩
      obtain rfl := Except.ok.inj hread
      exact ⟨by simp [has, hempty], { d with payload := some v }, rfl, hknown, hid, htime, htopic,
        hpayload⟩
    · rintro ⟨hhas, next, hset, hknown, hid, htime, htopic, hpayload⟩
      obtain rfl := Except.ok.inj hset
      exact ⟨⟨⟨_, hname⟩, hknown⟩, hid, htime, htopic, by simpa [has] using hhas, v, rfl, hpayload⟩

theorem adds_cons_iff : Adds d ((name, v) :: fields) d' ↔
    ∃ field, ofName? name = some field ∧ d.has field = false ∧
      ∃ next, d.set field v = .ok next ∧ Adds next fields d' := by
  constructor
  · intro h
    obtain ⟨field, hname⟩ := h.known (name, v) List.mem_cons_self
    exact ⟨field, hname, (adds_cons_of_name hname).mp h⟩
  · rintro ⟨field, hname, h⟩
    exact (adds_cons_of_name hname).mpr h

/-- **The fields of an object are taken into a draft exactly if each is known and fills an empty
slot.** -/
theorem addAll_eq_ok_iff : d.addAll fields = .ok d' ↔ Adds d fields d' := by
  induction fields generalizing d with
  | nil =>
    obtain ⟨id, timestamp, topic, payload⟩ := d
    obtain ⟨id', timestamp', topic', payload'⟩ := d'
    constructor
    · rintro ⟨⟩
      exact ⟨by simp, .stays _, .stays _, .stays _, .stays _⟩
    · rintro ⟨-, ⟨⟩, ⟨⟩, ⟨⟩, ⟨⟩⟩
      rfl
  | cons f fields ih =>
    rw [addAll_cons_eq_ok_iff, adds_cons_iff]
    simp only [ih]

end EnvelopeDraft

/-! ## Envelopes -/

namespace Envelope

/-- What a text that may be missing is given by: null is like no value. -/
inductive OptionalText : List Value → Option String → Prop where
  | missing : OptionalText [] none
  | null : OptionalText [.null] none
  | text (s : String) : OptionalText [.string s] (some s)

/-- What a time that may be missing is given by: a number stands for its text. -/
inductive OptionalTime : List Value → Option String → Prop where
  | missing : OptionalTime [] none
  | null : OptionalTime [.null] none
  | text (s : String) : OptionalTime [.string s] (some s)
  | number (n : Number) : OptionalTime [.number n] (some (String.ofList n.render))

/-- The fields are those of the envelope, each under one of its names. A payload that is null is
there. -/
structure IsSpelledBy (e : Envelope) (fields : List (String × Value)) : Prop where
  known : ∀ f ∈ fields, f.1 ∈ ["id", "_id", "timestamp", "topic", "payload"]
  id : OptionalText (EnvelopeField.id.values fields) e.id
  timestamp : OptionalTime (EnvelopeField.timestamp.values fields) e.timestamp
  topic : EnvelopeField.topic.values fields = [.string e.topic]
  payload : EnvelopeField.payload.values fields = e.payload.toList

open EnvelopeDraft

theorem optionalText_iff {values : List Value} {text : Option String} :
    OptionalText values text ↔ ∃ slot, Slot textOrNull none values slot ∧ slot.join = text := by
  constructor
  · rintro (⟨⟩ | ⟨⟩ | s)
    · exact ⟨none, .stays none, rfl⟩
    · exact ⟨some none, .filled rfl, rfl⟩
    · exact ⟨some (some s), .filled rfl, rfl⟩
  · rintro ⟨slot, ⟨⟩ | @⟨v, a, h⟩, rfl⟩
    · exact .missing
    · cases v with
      | null =>
        obtain rfl := Except.ok.inj h
        exact .null
      | string s =>
        obtain rfl := Except.ok.inj h
        exact .text s
      | _ => cases h

theorem optionalTime_iff {values : List Value} {time : Option String} :
    OptionalTime values time ↔ ∃ slot, Slot timeOfValue none values slot ∧ slot.join = time := by
  constructor
  · rintro (⟨⟩ | ⟨⟩ | s | n)
    · exact ⟨none, .stays none, rfl⟩
    · exact ⟨some none, .filled rfl, rfl⟩
    · exact ⟨some (some s), .filled rfl, rfl⟩
    · exact ⟨some (some (String.ofList n.render)), .filled rfl, rfl⟩
  · rintro ⟨slot, ⟨⟩ | @⟨v, a, h⟩, rfl⟩
    · exact .missing
    · cases v with
      | null =>
        obtain rfl := Except.ok.inj h
        exact .null
      | string s =>
        obtain rfl := Except.ok.inj h
        exact .text s
      | number n =>
        obtain rfl := Except.ok.inj h
        exact .number n
      | _ => cases h

theorem slot_textOfValue_iff {values : List Value} {s : String} :
    Slot textOfValue none values (some s) ↔ values = [.string s] := by
  constructor
  · rintro (⟨⟩ | @⟨v, a, h⟩)
    cases v with
    | string s =>
      obtain rfl := Except.ok.inj h
      rfl
    | _ => cases h
  · rintro rfl
    exact .filled rfl

theorem slot_ok_iff {values : List Value} {payload : Option Value} :
    Slot .ok none values payload ↔ values = payload.toList := by
  constructor
  · rintro (⟨⟩ | @⟨v, a, h⟩)
    · rfl
    · obtain rfl := Except.ok.inj h
      rfl
  · rintro rfl
    cases payload with
    | none => exact .stays none
    | some v => exact .filled rfl

/-- **An object gives an envelope exactly if its fields spell it.** -/
theorem ofFields_eq_ok_iff {fields : List (String × Value)} {e : Envelope} :
    ofFields fields = .ok e ↔ e.IsSpelledBy fields := by
  have hknown : ∀ name, (∃ field, EnvelopeField.ofName? name = some field) ↔
      name ∈ ["id", "_id", "timestamp", "topic", "payload"] := by
    intro name
    simp only [EnvelopeField.ofName?_eq_some_iff, EnvelopeField.exists_iff, EnvelopeField.names,
      List.mem_cons, List.not_mem_nil, or_false, or_assoc]
  constructor
  · intro h
    unfold ofFields at h
    split at h
    · cases h
    rename_i d hd
    obtain ⟨hnames, hid, htime, htopic, hpayload⟩ := addAll_eq_ok_iff.mp hd
    unfold finish at h
    split at h
    · rename_i topic hsome
      obtain rfl := Except.ok.inj h
      rw [hsome] at htopic
      refine ⟨fun f hf => (hknown f.1).mp (hnames f hf), ?_, ?_, ?_, ?_⟩
      · exact optionalText_iff.mpr ⟨d.id, hid, rfl⟩
      · exact optionalTime_iff.mpr ⟨d.timestamp, htime, rfl⟩
      · exact slot_textOfValue_iff.mp htopic
      · exact slot_ok_iff.mp hpayload
    · cases h
  · rintro ⟨hnames, hid, htime, htopic, hpayload⟩
    obtain ⟨id, hid, hjoin⟩ := optionalText_iff.mp hid
    obtain ⟨time, htime, hjoin'⟩ := optionalTime_iff.mp htime
    have hadds : Adds {} fields ⟨id, time, some e.topic, e.payload⟩ :=
      ⟨fun f hf => (hknown f.1).mpr (hnames f hf), hid, htime, slot_textOfValue_iff.mpr htopic,
        slot_ok_iff.mpr hpayload⟩
    rw [ofFields, addAll_eq_ok_iff.mpr hadds]
    simp only [finish, hjoin, hjoin']

theorem IsSpelledBy.mem_of_payload {fields : List (String × Value)} {e : Envelope}
    (h : e.IsSpelledBy fields) {v : Value} (hv : e.payload = some v) : ∃ f ∈ fields, f.2 = v := by
  have hmem : v ∈ EnvelopeField.payload.values fields := by
    rw [h.payload, hv]
    simp
  obtain ⟨f, hf, rfl⟩ := List.mem_map.mp hmem
  exact ⟨f, (List.mem_filter.mp hf).1, rfl⟩

end Envelope

end Courier
