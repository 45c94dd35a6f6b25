import Courier.Message.Direct
import Courier.Proofs.JsonObjects
import Courier.Proofs.MessageReading

/-!
# Two readers of envelopes

The body of a frame becomes a value first, with its keys in order, and then an envelope. The direct
reader takes the fields as they come in the text, each exactly if its value is one that the draft
can take (`readField_eq_ok_iff`). So both come to what `Envelope.ofFields` makes of the fields that
the text spells, in two orders, and the order makes no difference (`ofFields_of_perm`).

Main statement: `read_agrees_readBody`.
-/

namespace Courier

open Json Text

variable {bs rest tail : Bytes} {fields fields' : List (String × Value)} {e : Envelope}

namespace Envelope

namespace Direct

/-! ## Fields -/

theorem textOfValue_eq_ok_iff {v : Value} {s : String} : textOfValue v = .ok s ↔ v = .string s := by
  cases v <;> simp [textOfValue]

theorem readText_eq_ok_iff {s : String} : readText bs = .ok (s, rest) ↔
    ∃ v, readValue innerDepth [] bs = .ok (v, rest) ∧ textOfValue v = .ok s := by
  simp only [textOfValue_eq_ok_iff, exists_eq_right, readValue_string_iff]
  unfold readText
  cases skipBlanks bs with
  | nil =>
    constructor
    · intro h
      cases h
    · rintro ⟨tail, ⟨⟩, -⟩
  | cons b tail =>
    dsimp only
    split
    · rename_i hb
      constructor
      · intro h
        refine ⟨tail, by rw [hb], ?_⟩
        cases hs : readString tail with
        | error f =>
          rw [hs] at h
          cases h
        | ok r =>
          rw [hs] at h
          exact congrArg _ (Except.ok.inj h)
      · rintro ⟨_, ⟨⟩, h⟩
        rw [h]
        rfl
    · rename_i hb
      constructor
      · intro h
        exact absurd h wrongKind_ne_ok
      · rintro ⟨_, ⟨⟩, -⟩
        exact absurd rfl hb

theorem textOrNull_eq_ok_iff {v : Value} {id : Option String} : textOrNull v = .ok id ↔
    (v = .null ∧ id = none) ∨ ∃ s, textOfValue v = .ok s ∧ id = some s := by
  cases v <;> simp [textOrNull, textOfValue, Except.map, eq_comm]

/-- Only null begins with the first byte of null. -/
theorem readTextOrNull_eq_ok_iff {id : Option String} : readTextOrNull bs = .ok (id, rest) ↔
    ∃ v, readValue innerDepth [] bs = .ok (v, rest) ∧ textOrNull v = .ok id := by
  simp only [textOrNull_eq_ok_iff]
  unfold readTextOrNull beginsNull
  -- the reader looks at the first byte, and no string begins with that of null
  by_cases hnull : (skipBlanks bs).head? = some 110
  · obtain ⟨tail, hb⟩ := List.head?_eq_some_iff.mp hnull
    rw [if_pos (by rw [hnull]; rfl), hb]
    constructor
    · intro h
      cases hword : readWord [117, 108, 108] tail with
      | error f => simp [readWord, ofOutcome, hword] at h
      | ok r =>
        simp only [readWord, ofOutcome, hword, if_true, Except.ok.injEq, Prod.mk.injEq] at h
        obtain ⟨rfl, rfl⟩ := h
        exact ⟨.null, readValue_null_iff.mpr ⟨tail, hb, hword⟩, .inl ⟨rfl, rfl⟩⟩
    · rintro ⟨v, hread, ⟨rfl, rfl⟩ | ⟨s, hs, rfl⟩⟩
      · obtain ⟨_, hb', hword⟩ := readValue_null_iff.mp hread
        cases hb.symm.trans hb'
        simp [readWord, ofOutcome, hword]
      · obtain rfl := textOfValue_eq_ok_iff.mp hs
        obtain ⟨_, hb', -⟩ := readValue_string_iff.mp hread
        cases hb.symm.trans hb'
  · rw [if_neg (by simpa using hnull)]
    constructor
    · intro h
      split at h
      · cases h
      rename_i s after hs
      cases h
      obtain ⟨v, hread, hv⟩ := readText_eq_ok_iff.mp hs
      exact ⟨v, hread, .inr ⟨s, hv, rfl⟩⟩
    · rintro ⟨v, hread, ⟨rfl, rfl⟩ | ⟨s, hs, rfl⟩⟩
      · obtain ⟨tail, hb, -⟩ := readValue_null_iff.mp hread
        exact absurd (by rw [hb]; rfl) hnull
      · rw [readText_eq_ok_iff.mpr ⟨v, hread, hs⟩]

theorem readTime_eq_ok_iff {time : Option String} : readTime bs = .ok (time, rest) ↔
    ∃ v, readValue innerDepth [] bs = .ok (v, rest) ∧ timeOfValue v = .ok time := by
  unfold readTime
  cases readValue innerDepth [] bs with
  | error f => simp
  | ok r =>
    obtain ⟨v, after⟩ := r
    cases htime : timeOfValue v with
    | error flaw => simp [htime]
    | ok t => simp [htime, and_comm]

/-- A slot of a draft is read as the value is, if what goes into it is. -/
theorem readSlot_eq_ok_iff {α : Type} {x : Step α} {ofValue : Value → Except EnvelopeFlaw α}
    (put : α → EnvelopeDraft) {d : EnvelopeDraft}
    (hx : ∀ a, x = .ok (a, rest) ↔
      ∃ v, readValue innerDepth [] bs = .ok (v, rest) ∧ ofValue v = .ok a) :
    (x.map fun r => (put r.1, r.2)) = .ok (d, rest) ↔
      ∃ v, readValue innerDepth [] bs = .ok (v, rest) ∧ (ofValue v).map put = .ok d := by
  simp only [EnvelopeDraft.exists_map_eq_ok]
  constructor
  · rintro ⟨⟨a, after⟩, ha, ⟨⟩⟩
    obtain ⟨v, hread, hv⟩ := (hx a).mp ha
    exact ⟨v, hread, a, hv, rfl⟩
  · rintro ⟨v, hread, a, hv, rfl⟩
    exact ⟨(a, rest), (hx a).mpr ⟨v, hread, hv⟩, rfl⟩

/-- **A field is read exactly if there is a value that the draft takes for it.** -/
theorem readField_eq_ok_iff {d d' : EnvelopeDraft} {field : EnvelopeField} :
    readField d field bs = .ok (d', rest) ↔
      ∃ v, readValue innerDepth [] bs = .ok (v, rest) ∧ d.set field v = .ok d' := by
  cases field with
  | id =>
    have hmap : readField d .id bs =
        (readTextOrNull bs).map fun r => ({ d with id := some r.1 }, r.2) := by
      unfold readField
      cases readTextOrNull bs <;> rfl
    rw [hmap]
    exact readSlot_eq_ok_iff (fun id => { d with id := some id })
      fun _ => readTextOrNull_eq_ok_iff
  | timestamp =>
    have hmap : readField d .timestamp bs =
        (readTime bs).map fun r => ({ d with timestamp := some r.1 }, r.2) := by
      unfold readField
      cases readTime bs <;> rfl
    rw [hmap]
    exact readSlot_eq_ok_iff (fun time => { d with timestamp := some time })
      fun _ => readTime_eq_ok_iff
  | topic =>
    have hmap : readField d .topic bs =
        (readText bs).map fun r => ({ d with topic := some r.1 }, r.2) := by
      unfold readField
      cases readText bs <;> rfl
    rw [hmap]
    exact readSlot_eq_ok_iff (fun topic => { d with topic := some topic })
      fun _ => readText_eq_ok_iff
  | payload =>
    unfold readField EnvelopeDraft.set
    cases readValue innerDepth [] bs with
    | error f => simp
    | ok r =>
      obtain ⟨v, after⟩ := r
      simp [and_comm]

/-! ## Entries -/

theorem readKey_eq_ok_iff {key : String} : readKey bs = .ok (key, rest) ↔
    ∃ mid, readString bs = .ok (key, mid) ∧ readColon mid = .ok ((), rest) := by
  unfold readKey readColon
  cases readString bs with
  | error f => simp
  | ok r =>
    obtain ⟨s, mid⟩ := r
    cases hb : skipBlanks mid with
    | nil => simp [failAt, hb]
    | cons b tail => by_cases h : b = 58 <;> simp [failOn, h, hb]

variable {d d' : EnvelopeDraft}

theorem claim_eq_ok_iff {name : String} {field : EnvelopeField} : d.claim name = .ok field ↔
    EnvelopeField.ofName? name = some field ∧ d.has field = false := by
  unfold EnvelopeDraft.claim
  cases EnvelopeField.ofName? name with
  | none => simp
  | some other => cases hhas : d.has other <;> simp +contextual [hhas] <;> grind

theorem readEntry_eq_ok_iff (hquote : skipBlanks bs = 34 :: tail) :
    readEntry d tail = .ok (d', rest) ↔
      ∃ f, FieldAt bs f rest ∧ ∃ field, d.claim f.1 = .ok field ∧ d.set field f.2 = .ok d' := by
  constructor
  · intro h
    unfold readEntry at h
    split at h
    · cases h
    rename_i name mid hname
    split at h
    · cases h
    rename_i field hclaim
    split at h
    · cases h
    rename_i after hcolon
    obtain ⟨v, hread, hset⟩ := readField_eq_ok_iff.mp h
    exact ⟨(name, v), .mk hquote (readKey_eq_ok_iff.mpr ⟨mid, hname, hcolon⟩) hread, field, hclaim,
      hset⟩
  · rintro ⟨_, ⟨hquote', hkey, hread⟩, field, hclaim, hset⟩
    cases hquote.symm.trans hquote'
    obtain ⟨mid, hname, hcolon⟩ := readKey_eq_ok_iff.mp hkey
    unfold readEntry
    simp only [hname, hclaim, hcolon]
    exact readField_eq_ok_iff.mpr ⟨_, hread, hset⟩

theorem nextKey_close_iff {first : Bool} : nextKey first bs = .ok (false, rest) ↔
    ∃ tail, skipBlanks bs = 125 :: tail ∧ rest = 125 :: tail := by
  unfold nextKey
  cases skipBlanks bs with
  | nil => simp [failAt]
  | cons b tail => grind [failAt, failOn]

theorem nextKey_first_iff : nextKey true bs = .ok (true, rest) ↔ skipBlanks bs = 34 :: rest := by
  unfold nextKey
  cases skipBlanks bs with
  | nil => simp [failAt]
  | cons b tail => grind [failOn]

theorem nextKey_next_iff : nextKey false bs = .ok (true, rest) ↔
    ∃ mid, skipBlanks bs = 44 :: mid ∧ skipBlanks mid = 34 :: rest := by
  unfold nextKey
  cases skipBlanks bs with
  | nil => simp [failAt]
  | cons b mid => cases hmid : skipBlanks mid <;> grind [failAt, failOn]

/-- Either the object closes or one more field is read. -/
theorem readEntries_step {first : Bool} : readEntries first d bs = .ok (d', rest) ↔
    (nextKey first bs = .ok (false, rest) ∧ d' = d) ∨
      ∃ tail next after, nextKey first bs = .ok (true, tail) ∧
        readEntry d tail = .ok (next, after) ∧
        readEntries false next after = .ok (d', rest) := by
  rw [readEntries]
  constructor
  · intro h
    split at h
    · cases h
    · rename_i hnext
      cases h
      exact .inl ⟨hnext, rfl⟩
    · rename_i tail hnext
      split at h
      · cases h
      · rename_i next after hentry
        exact .inr ⟨tail, next, after, hnext, hentry, h⟩
  · rintro (⟨hnext, rfl⟩ | ⟨tail, next, after, hnext, hentry, h⟩)
    · split <;> rename_i h <;> cases hnext.symm.trans h
      rfl
    · split <;> rename_i h' <;> cases hnext.symm.trans h'
      split <;> rename_i h' <;> cases hentry.symm.trans h'
      exact h

theorem addAll_cons_iff {f : String × Value} : d.addAll (f :: fields) = .ok d' ↔
    ∃ field next, d.claim f.1 = .ok field ∧ d.set field f.2 = .ok next ∧
      next.addAll fields = .ok d' := by
  obtain ⟨name, v⟩ := f
  simp only [EnvelopeDraft.addAll_cons_eq_ok_iff, claim_eq_ok_iff]
  constructor
  · rintro ⟨field, hname, hhas, next, hset, h⟩
    exact ⟨field, next, ⟨hname, hhas⟩, hset, h⟩
  · rintro ⟨field, next, ⟨hname, hhas⟩, hset, h⟩
    exact ⟨field, hname, hhas, next, hset, h⟩

theorem readEntries_eq_ok_iff : readEntries false d bs = .ok (d', rest) ↔
    ∃ fields tail, MoreFields bs fields tail ∧ d.addAll fields = .ok d' ∧ rest = 125 :: tail := by
  constructor
  · intro h
    -- each field leaves fewer bytes
    induction hn : bs.length using Nat.strongRecOn generalizing bs d with
    | ind n ih =>
      rcases readEntries_step.mp h with ⟨hclose, rfl⟩ | ⟨tail, next, after, hnext, hentry, h⟩
      · obtain ⟨tail, hb, rfl⟩ := nextKey_close_iff.mp hclose
        exact ⟨[], tail, .close hb, rfl, rfl⟩
      · obtain ⟨mid, hcomma, hquote⟩ := nextKey_next_iff.mp hnext
        obtain ⟨f, hfield, field, hclaim, hset⟩ := (readEntry_eq_ok_iff hquote).mp hentry
        have hlength := Nat.lt_trans hfield.length (length_of_skipBlanks hcomma)
        obtain ⟨fields, last, hmore, hadd, rfl⟩ := ih after.length (hn ▸ hlength) h rfl
        exact ⟨f :: fields, last, .next hcomma hfield hmore,
          addAll_cons_iff.mpr ⟨field, next, hclaim, hset, hadd⟩, rfl⟩
  · rintro ⟨fields, tail, hmore, hadd, rfl⟩
    induction hmore generalizing d with
    | close hclose =>
      cases hadd
      exact readEntries_step.mpr (.inl ⟨nextKey_close_iff.mpr ⟨_, hclose, rfl⟩, rfl⟩)
    | next hcomma hfield _ ih =>
      obtain ⟨field, next, hclaim, hset, hadd⟩ := addAll_cons_iff.mp hadd
      obtain ⟨after, hquote⟩ := hfield.quote
      exact readEntries_step.mpr (.inr ⟨after, next, _,
        nextKey_next_iff.mpr ⟨_, hcomma, hquote⟩,
        (readEntry_eq_ok_iff hquote).mpr ⟨_, hfield, field, hclaim, hset⟩, ih hadd⟩)

theorem readEntries_first_iff : readEntries true d bs = .ok (d', rest) ↔
    ∃ fields tail, Fields bs fields tail ∧ d.addAll fields = .ok d' ∧ rest = 125 :: tail := by
  rw [readEntries_step]
  constructor
  · rintro (⟨hclose, rfl⟩ | ⟨tail, next, after, hnext, hentry, h⟩)
    · obtain ⟨tail, hb, rfl⟩ := nextKey_close_iff.mp hclose
      exact ⟨[], tail, .empty hb, rfl, rfl⟩
    · have hquote := nextKey_first_iff.mp hnext
      obtain ⟨f, hfield, field, hclaim, hset⟩ := (readEntry_eq_ok_iff hquote).mp hentry
      obtain ⟨fields, last, hmore, hadd, rfl⟩ := readEntries_eq_ok_iff.mp h
      exact ⟨f :: fields, last, .first hfield hmore,
        addAll_cons_iff.mpr ⟨field, next, hclaim, hset, hadd⟩, rfl⟩
  · rintro ⟨fields, tail, ⟨hclose⟩ | ⟨hfield, hmore⟩, hadd, rfl⟩
    · cases hadd
      exact .inl ⟨nextKey_close_iff.mpr ⟨_, hclose, rfl⟩, rfl⟩
    · obtain ⟨field, next, hclaim, hset, hadd⟩ := addAll_cons_iff.mp hadd
      obtain ⟨after, hquote⟩ := hfield.quote
      exact .inr ⟨after, next, _, nextKey_first_iff.mpr hquote,
        (readEntry_eq_ok_iff hquote).mpr ⟨_, hfield, field, hclaim, hset⟩,
        readEntries_eq_ok_iff.mpr ⟨_, _, hmore, hadd, rfl⟩⟩

theorem closeObject_brace : closeObject (125 :: rest) = .ok ((), rest) := by
  rw [closeObject, skipBlanks_cons (by decide)]
  rfl

theorem readObject_eq_ok_iff : readObject bs = .ok (e, rest) ↔
    ∃ fields tail, Fields bs fields tail ∧ ofFields fields = .ok e ∧ rest = 125 :: tail := by
  unfold readObject ofFields
  constructor
  · intro h
    split at h
    · cases h
    rename_i d after hentries
    obtain ⟨fields, tail, hfields, hadd, rfl⟩ := readEntries_first_iff.mp hentries
    split at h
    · cases h
    rename_i hfinish
    cases h
    exact ⟨fields, tail, hfields, by rw [hadd]; exact hfinish, rfl⟩
  · rintro ⟨fields, tail, hfields, he, rfl⟩
    split at he
    · cases he
    rename_i d hadd
    rw [readEntries_first_iff.mpr ⟨fields, tail, hfields, hadd, rfl⟩]
    dsimp only
    rw [he]

theorem enclose_readObject_iff :
    enclose (readObject bs) closeObject pastObject = .ok (e, rest) ↔
      ∃ fields, Fields bs fields rest ∧ ofFields fields = .ok e := by
  constructor
  · intro h
    unfold enclose at h
    split at h
    · cases h
    · cases h
    · rename_i e' after hobject
      obtain ⟨fields, tail, hfields, he, rfl⟩ := readObject_eq_ok_iff.mp hobject
      rw [closeObject_brace] at h
      cases h
      exact ⟨fields, hfields, he⟩
  · rintro ⟨fields, hfields, he⟩
    rw [readObject_eq_ok_iff.mpr ⟨fields, rest, hfields, he, rfl⟩]
    unfold enclose
    dsimp only
    rw [closeObject_brace]

end Direct

/-! ## The order of fields -/

theorem OptionalText.length_le {values : List Value} {text : Option String}
    (h : OptionalText values text) : values.length ≤ 1 := by
  cases h <;> simp

theorem OptionalTime.length_le {values : List Value} {time : Option String}
    (h : OptionalTime values time) : values.length ≤ 1 := by
  cases h <;> simp

theorem IsSpelledBy.length_values_le (h : e.IsSpelledBy fields) (field : EnvelopeField) :
    (field.values fields).length ≤ 1 := by
  cases field with
  | id => exact h.id.length_le
  | timestamp => exact h.timestamp.length_le
  | topic => simp [h.topic]
  | payload =>
    rw [h.payload]
    cases e.payload <;> simp

theorem IsSpelledBy.of_perm (hperm : fields.Perm fields') (h : e.IsSpelledBy fields) :
    e.IsSpelledBy fields' := by
  have hvalues : ∀ field : EnvelopeField, field.values fields' = field.values fields := by
    intro field
    have hfield : (field.values fields').Perm (field.values fields) :=
      (hperm.symm.filter _).map _
    have hone := h.length_values_le field
    generalize field.values fields = values at hfield hone
    match values with
    | [] => exact hfield.eq_nil
    | [v] => exact List.perm_singleton.mp hfield
  obtain ⟨hknown, hid, htime, htopic, hpayload⟩ := h
  rw [← hvalues] at hid htime htopic hpayload
  exact ⟨fun f hf => hknown f (hperm.mem_iff.mpr hf), hid, htime, htopic, hpayload⟩

/-- What an object becomes as an envelope does not depend on the order of its fields. -/
theorem ofFields_of_perm (hperm : fields.Perm fields') :
    ofFields fields = .ok e ↔ ofFields fields' = .ok e := by
  rw [ofFields_eq_ok_iff, ofFields_eq_ok_iff]
  exact ⟨.of_perm hperm, .of_perm hperm.symm⟩

/-! ## Whole texts -/

variable {text : Bytes}

/-- **An envelope is read directly from a text exactly if the fields that the text spells are its
fields.** -/
theorem read_eq_ok_iff_spells (hopen : skipBlanks text = 123 :: bs) :
    Envelope.read text = .ok e ↔ ∃ fields, Spells text fields ∧ ofFields fields = .ok e := by
  have hread : Direct.readEnvelope text =
      Direct.enclose (Direct.readObject bs) Direct.closeObject Direct.pastObject := by
    unfold Direct.readEnvelope
    rw [hopen]
    rfl
  unfold Envelope.read
  rw [hread]
  constructor
  · intro h
    split at h
    · cases h
    rename_i e' rest he
    split at h
    · rename_i hrest
      cases h
      obtain ⟨fields, hfields, he⟩ := Direct.enclose_readObject_iff.mp he
      exact ⟨fields, ⟨bs, rest, hopen, hfields, hrest⟩, he⟩
    · cases h
  · rintro ⟨fields, ⟨bs', rest, hopen', hfields, hrest⟩, he⟩
    cases hopen.symm.trans hopen'
    rw [Direct.enclose_readObject_iff.mpr ⟨fields, hfields, he⟩]
    dsimp only
    rw [hrest]

theorem all_isBlankByte_of_object (hopen : skipBlanks text = 123 :: bs) :
    text.all isBlankByte = false := by
  have hsuffix : 123 :: bs <:+ text := hopen ▸ List.dropWhile_suffix _
  exact List.all_eq_false.mpr ⟨123, hsuffix.subset (List.mem_cons_self ..), by decide⟩

theorem readBody_eq_ok_iff_spells (hopen : skipBlanks text = 123 :: bs) :
    Wire.readBody text = .ok e ↔
      ∃ fields, Spells text fields ∧ ofFields (Keyed.ofList fields) = .ok e := by
  rw [Wire.readBody_eq_ok_iff]
  simp only [Json.read_eq_ok_iff_spells hopen, ofFields_eq_ok_iff]
  constructor
  · rintro ⟨-, _, ⟨fields, hspells, ⟨⟩⟩, he⟩
    exact ⟨fields, hspells, he⟩
  · rintro ⟨fields, hspells, he⟩
    exact ⟨all_isBlankByte_of_object hopen, _, ⟨fields, hspells, rfl⟩, he⟩

theorem toOption_eq_of_forall_ok {ε δ α : Type} {x : Except ε α} {y : Except δ α}
    (h : ∀ a, x = .ok a ↔ y = .ok a) : x.toOption = y.toOption := by
  cases x with
  | ok a =>
    rw [(h a).mp rfl]
    rfl
  | error f =>
    cases y with
    | ok a => cases (h a).mpr rfl
    | error f' => rfl

/-- **Both readers come to the same envelope, or both to none**, on every text that begins like an
object and spells no key twice: to the one envelope that the fields of the text spell. A text that
spells no object is one of these texts, and both refuse it. -/
theorem read_agrees_readBody (hobject : BeginsObject text) (hkeys : DistinctKeys text) :
    (Envelope.read text).toOption = (Wire.readBody text).toOption ∧
      ∀ e, Envelope.read text = .ok e ↔ ∃ fields, Spells text fields ∧ e.IsSpelledBy fields := by
  obtain ⟨bs, hopen⟩ := List.head?_eq_some_iff.mp hobject
  constructor
  · apply toOption_eq_of_forall_ok
    intro e
    rw [read_eq_ok_iff_spells hopen, readBody_eq_ok_iff_spells hopen]
    constructor
    · rintro ⟨fields, hspells, he⟩
      have hperm := Keyed.perm_ofList (hkeys fields hspells)
      exact ⟨fields, hspells, (ofFields_of_perm hperm).mpr he⟩
    · rintro ⟨fields, hspells, he⟩
      have hperm := Keyed.perm_ofList (hkeys fields hspells)
      exact ⟨fields, hspells, (ofFields_of_perm hperm).mp he⟩
  · intro e
    simp only [read_eq_ok_iff_spells hopen, ofFields_eq_ok_iff]

/-- Behind a line feed, and not in the order of the keys: the older name of the id, a number as the
time, and null as the payload. -/
theorem read_agrees_readBody_aliased :
    let fields : List (String × Value) := [("topic", .string "t"), ("payload", .null),
      ("_id", .string "7"), ("timestamp", .number (.whole 12))]
    let text : Bytes := 10 :: Utf8.encode (renderObject fields)
    (BeginsObject text ∧ DistinctKeys text) ∧
      ((Envelope.read text).toOption = (Wire.readBody text).toOption ∧
        ∀ e, Envelope.read text = .ok e ↔ ∃ fields, Spells text fields ∧ e.IsSpelledBy fields) ∧
      Wire.readBody text = .ok ⟨some "7", some "12", "t", some .null⟩ := by
  intro fields text
  have hspells : Spells text fields :=
    spells_renderObject (by decide) (by decide) (by decide)
  have hobject : BeginsObject text := rfl
  have hkeys : DistinctKeys text := by
    intro other h
    rw [spells_unique h hspells]
    decide
  have hbody : Wire.readBody text = .ok ⟨some "7", some "12", "t", some .null⟩ :=
    (readBody_eq_ok_iff_spells rfl).mpr ⟨fields, hspells, by with_unfolding_all rfl⟩
  exact ⟨⟨hobject, hkeys⟩, read_agrees_readBody hobject hkeys, hbody⟩

/-- Of a key that stands twice a body has the last value, and the direct reader refuses the text. -/
example : let text := Utf8.encode (renderObject [("topic", .string "a"), ("topic", .string "b")])
    (Envelope.read text).toOption.isSome = false ∧
      (Wire.readBody text).toOption.isSome = true := by
  decide +kernel

end Envelope

end Courier
