import Courier.Proofs.RequestGrammar

/-!
# The texts of responses

A response has the lines of any frame. Its head line begins with two words, of which the second is
free of control characters; what stands behind them is the reason, so that one word is too few and
no number of words too many. Its body names an id (`Response.Spells`).

Main statement: `parse_iff_spells`.
-/

namespace Courier

open Text Wire

/-! ## Status lines with a carriage return -/

namespace Text

theorem trim_concat {c : Char} (hc : isSpace c = true) (cs : List Char) :
    trim (cs ++ [c]) = trim cs := by
  obtain ⟨⟨before, after, hbefore, hafter, heq⟩, hfirst, hlast⟩ := isTrimOf_trim cs
  refine (isTrimOf_iff.mp ⟨⟨before, after ++ [c], hbefore, ?_, ?_⟩, hfirst, hlast⟩).symm
  · intro d hd
    rcases List.mem_append.mp hd with hd | hd
    · exact hafter d hd
    · rw [List.mem_singleton.mp hd]
      exact hc
  · rw [← List.append_assoc, ← heq]

end Text

namespace Wire

variable {line version status reason : List Char} {c : Char}

theorem hasStatus_concat_iff (hc : isSpace c = true) :
    HasStatus (line ++ [c]) version status reason ↔ HasStatus line version status reason := by
  constructor
  · rintro ⟨⟨before, between, after, hbefore, hbetween, hne, hafter, hreason, hline⟩, hv, hs⟩
    rcases List.eq_nil_or_concat after with rfl | ⟨after, d, rfl⟩
    · rw [List.append_nil] at hline
      exact absurd hline (concat_ne_append_word hc hs)
    · rw [List.concat_eq_append] at hline hafter hreason
      rw [← List.append_assoc] at hline
      obtain ⟨hfront, hlast⟩ := List.append_inj' hline rfl
      obtain rfl := List.singleton_inj.mp hlast
      rw [isTrimOf_iff, trim_concat hc, ← isTrimOf_iff] at hreason
      refine ⟨⟨before, between, after, hbefore, hbetween, hne, ?_, hreason, hfront⟩, hv, hs⟩
      intro e he
      apply hafter
      rw [List.head?_append, Option.mem_def.mp he]
      rfl
  · rintro ⟨⟨before, between, after, hbefore, hbetween, hne, hafter, hreason, rfl⟩, hv, hs⟩
    rw [isTrimOf_iff, ← trim_concat hc, ← isTrimOf_iff] at hreason
    refine ⟨⟨before, between, after ++ [c], hbefore, hbetween, hne, ?_, hreason, ?_⟩, hv, hs⟩
    · intro e he
      cases after with
      | nil =>
        obtain rfl : c = e := by simpa using he
        exact hc
      | cons d after => exact hafter e he
    · simp

theorem statusWords?_ofText_iff {text : Bytes} {version status reason : String} :
    (∃ head, Utf8.decode? (Line.ofText text).text = some head ∧
        statusWords? head = some (version, status, reason)) ↔
      ∃ head, text = Utf8.encode head ∧
        HasStatus head version.toList status.toList reason.toList := by
  simp only [statusWords?_eq_some_iff]
  exact exists_text_ofText_iff fun _ => hasStatus_concat_iff rfl

/-- A word may be a status unless it has a control character. -/
theorem isToken_of_isWord {cs : List Char} (hword : IsWord cs)
    (hcontrol : ∀ c ∈ cs, isControl c = false) : isToken cs = true := by
  rw [isToken, Bool.and_eq_true, List.all_eq_true]
  constructor
  · simpa using hword.1
  · intro c hc
    simp [hword.2 c hc, hcontrol c hc]

theorem isControl_of_isToken {cs : List Char} (h : isToken cs = true) {c : Char} (hc : c ∈ cs) :
    isControl c = false := by
  rw [isToken, Bool.and_eq_true, List.all_eq_true] at h
  have hboth := h.2 c hc
  rw [Bool.and_eq_true] at hboth
  simpa using hboth.2

end Wire

/-! ## Responses -/

namespace Response

/-- The bytes spell a response of these parts, perhaps with blanks behind it: the lines of a frame,
a version, a status and a reason in the head line, and in the body an object with the fields of the
envelope, among them an id that is not null. -/
def Spells (bs : Bytes) (version status reason : String) (e : Envelope) : Prop :=
  ∃ (t : FrameText) (after : Bytes) (head : List Char) (fields : List (String × Json.Value)),
    t.IsProper ∧ after.all isBlankByte = true ∧ bs = t.bytes ++ after ∧
    t.head = Utf8.encode head ∧ HasStatus head version.toList status.toList reason.toList ∧
    (∀ c ∈ status.toList, isControl c = false) ∧
    Json.Value.read t.body.flatten = .ok (.object fields) ∧ e.IsSpelledBy fields ∧
    e.id.isSome = true

variable {bs : Bytes}

theorem parse_eq_ok_iff {r : Response} :
    parse bs = .ok r ↔ Spells bs r.version r.status.token r.reason r.envelope := by
  have hread : ∀ {f : Frame} {r : Response}, f.toResponse = .ok r →
      f.isSeparated = true ∧ f.body ≠ [] := by
    intro f r h
    obtain ⟨-, hsep, hbody, -⟩ := Frame.toResponse_eq_ok_iff.mp h
    exact ⟨hsep, body_ne_of_readBody hbody⟩
  rw [parse, Decoder.takeOnly_eq_ok_iff hread]
  constructor
  · rintro ⟨t, after, ht, hafter, rfl, h⟩
    obtain ⟨hhead, -, hbody, hid⟩ := Frame.toResponse_eq_ok_iff.mp h
    obtain ⟨head, hhead, hstatus⟩ := statusWords?_ofText_iff.mp hhead
    obtain ⟨-, fields, hfields, he⟩ := readBody_eq_ok_iff.mp hbody
    refine ⟨t, after, head, fields, ht, hafter, rfl, hhead, hstatus, ?_, hfields, he, hid⟩
    intro c hc
    exact isControl_of_isToken r.status.valid hc
  · rintro ⟨t, after, head, fields, ht, hafter, rfl, hhead, hstatus, -, hfields, he, hid⟩
    refine ⟨t, after, ht, hafter, rfl, Frame.toResponse_eq_ok_iff.mpr ⟨?_, ht.isSeparated, ?_, hid⟩⟩
    · exact statusWords?_ofText_iff.mpr ⟨head, hhead, hstatus⟩
    · exact readBody_eq_ok_iff.mpr ⟨ht.visible, fields, hfields, he⟩

theorem exists_of_spells {version status reason : String} {e : Envelope}
    (h : Spells bs version status reason e) :
    ∃ hstatus : isToken status.toList = true,
      parse bs = .ok ⟨version, ⟨status, hstatus⟩, reason, e⟩ := by
  have hspells := h
  obtain ⟨t, after, head, fields, -, -, -, -, ⟨-, -, hword⟩, hcontrol, -⟩ := h
  exact ⟨isToken_of_isWord hword hcontrol, parse_eq_ok_iff.mpr hspells⟩

/-- **The bytes of responses are accepted, and no others.** Bytes parse to a response exactly if
they spell its parts; they parse to some response exactly if they spell any parts at all, and are a
bad request in every other case. -/
theorem parse_iff_spells (bs : Bytes) :
    (∀ r, parse bs = .ok r ↔ Spells bs r.version r.status.token r.reason r.envelope) ∧
      ((∃ r, parse bs = .ok r) ↔ ∃ version status reason e, Spells bs version status reason e) ∧
      ((∃ cause, parse bs = .error (.badRequest cause)) ↔
        ¬ ∃ version status reason e, Spells bs version status reason e) := by
  have haccepted : (∃ r, parse bs = .ok r) ↔
      ∃ version status reason e, Spells bs version status reason e := by
    constructor
    · rintro ⟨r, hr⟩
      exact ⟨_, _, _, _, parse_eq_ok_iff.mp hr⟩
    · rintro ⟨version, status, reason, e, h⟩
      obtain ⟨_, hparse⟩ := exists_of_spells h
      exact ⟨_, hparse⟩
  refine ⟨fun r => parse_eq_ok_iff, haccepted, ?_⟩
  rw [← haccepted]
  constructor
  · rintro ⟨cause, herror⟩ ⟨r, hr⟩
    rw [hr] at herror
    cases herror
  · intro hnone
    cases h : parse bs with
    | ok r => exact absurd ⟨r, h⟩ hnone
    | error failure =>
      obtain ⟨cause, rfl⟩ := Decoder.takeOnly_error Frame.toResponse_error h
      exact ⟨cause, rfl⟩

end Response

end Courier
