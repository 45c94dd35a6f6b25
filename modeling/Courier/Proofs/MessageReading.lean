import Courier.Proofs.EnvelopeGrammar
import Courier.Proofs.HeadLines
import Courier.Proofs.JsonReading

/-!
# What is read as a message

A request that has been read off a frame has words for its verb and its version, and its payload is
a value that the JSON reader gave. If the numbers in the payload are whole, the request can
therefore be written and read again (`portable_of_toRequest`).
-/

namespace Courier

open Text Wire

namespace Wire

/-! ## Bodies -/

/-- A body that is read is an object with the fields of an envelope. -/
theorem readBody_eq_ok_iff {body : Bytes} {e : Envelope} : readBody body = .ok e ↔
    body.all isBlankByte = false ∧
      ∃ fields, Json.Value.read body = .ok (.object fields) ∧ e.IsSpelledBy fields := by
  simp only [← Envelope.ofFields_eq_ok_iff]
  constructor
  · intro h
    unfold readBody at h
    split at h
    · cases h
    rename_i hvisible
    refine ⟨Bool.eq_false_iff.mpr hvisible, ?_⟩
    split at h
    · cases h
    · rename_i fields hread
      refine ⟨fields, hread, ?_⟩
      split at h
      · cases h
      · rename_i he
        rw [he, Except.ok.inj h]
    · cases h
  · rintro ⟨hvisible, fields, hread, he⟩
    simp [readBody, hvisible, hread, he]

theorem body_ne_of_readBody {body : Bytes} {e : Envelope} (h : readBody body = .ok e) :
    body ≠ [] := by
  rintro rfl
  cases (readBody_eq_ok_iff.mp h).1

/-- The payload of a body that is read is well-formed, and no deeper than it may be in a message. -/
theorem payload_of_readBody {body : Bytes} {e : Envelope} (h : readBody body = .ok e)
    {v : Json.Value} (hv : e.payload = some v) : v.WellFormed ∧ v.depth < Json.maxDepth := by
  obtain ⟨-, fields, hread, he⟩ := readBody_eq_ok_iff.mp h
  obtain ⟨f, hf, rfl⟩ := he.mem_of_payload hv
  obtain ⟨hwell, hdepth⟩ := Json.wellFormed_read hread
  have hfield := Json.depthOfFields_le_iff.mp (Nat.le_refl _) f hf
  refine ⟨(Json.Value.wellFormed_object.mp hwell).2 f hf, ?_⟩
  rw [Json.Value.depth] at hdepth
  omega

theorem portable_of_readBody {body : Bytes} {e : Envelope} (h : readBody body = .ok e)
    (hwhole : ∀ v, e.payload = some v → v.Integral) : e.Portable := by
  intro v hv
  obtain ⟨hwell, hdepth⟩ := payload_of_readBody h hv
  exact ⟨hwell, hwhole v hv, hdepth⟩

/-! ## Status lines -/

theorem statusWords?_of_readStatusLine {head : List Char} {version reason : String}
    {status : Status} (h : readStatusLine head = .ok (version, status, reason)) :
    statusWords? head = some (version, status.token, reason) := by
  unfold readStatusLine at h
  split at h
  · cases h
  rename_i token reason' hwords
  unfold Status.ofToken at h
  by_cases htoken : isToken token.toList = true
  · simp only [htoken, dite_true, Except.ok.injEq, Prod.mk.injEq] at h
    obtain ⟨rfl, rfl, rfl⟩ := h
    exact hwords
  · simp [htoken] at h

/-! ## The frame of a request -/

theorem bind_eq_ok {ε α β : Type} {x : Except ε α} {step : α → Except ε β} {b : β}
    (h : x >>= step = .ok b) : ∃ a, x = .ok a ∧ step a = .ok b := by
  cases x with
  | error e => cases h
  | ok a => exact ⟨a, rfl, h⟩

namespace Frame

theorem headText_eq_ok_iff {f : Frame} {head : List Char} :
    f.headText = .ok head ↔ Utf8.decode? f.head = some head := by
  unfold headText
  cases Utf8.decode? f.head <;> simp

theorem envelope_eq_ok_iff {f : Frame} {e : Envelope} :
    f.envelope = .ok e ↔ f.isSeparated = true ∧ readBody f.body = .ok e := by
  unfold envelope
  cases f.isSeparated <;> simp

theorem toRequest_eq_ok_iff {f : Frame} {r : Request} : f.toRequest = .ok r ↔
    (∃ head, Utf8.decode? f.head = some head ∧ requestWords? head = some (r.verb, r.version)) ∧
      f.isSeparated = true ∧ readBody f.body = .ok r.envelope := by
  constructor
  · intro h
    obtain ⟨head, hhead, h⟩ := bind_eq_ok h
    obtain ⟨⟨verb, version⟩, hwords, h⟩ := bind_eq_ok h
    obtain ⟨e, he, h⟩ := bind_eq_ok h
    obtain rfl := Except.ok.inj h
    refine ⟨⟨head, headText_eq_ok_iff.mp hhead, ?_⟩, envelope_eq_ok_iff.mp he⟩
    unfold readRequestLine at hwords
    split at hwords
    · rename_i hsome
      rw [hsome, Except.ok.inj hwords]
    · cases hwords
  · rintro ⟨⟨head, hhead, hwords⟩, hsep, hbody⟩
    simp [toRequest, headText, hhead, readRequestLine, hwords, envelope, hsep, hbody, bind,
      Except.bind, pure, Except.pure]

/-- **A request that has been read can be written**, if the numbers of its payload are whole. -/
theorem portable_of_toRequest {f : Frame} {r : Request} (h : f.toRequest = .ok r)
    (hwhole : ∀ v, r.envelope.payload = some v → v.Integral) : r.Portable := by
  obtain ⟨⟨head, -, hwords⟩, -, hbody⟩ := toRequest_eq_ok_iff.mp h
  obtain ⟨-, hverb, hversion⟩ := requestWords?_eq_some_iff.mp hwords
  exact ⟨hverb, hversion, portable_of_readBody hbody hwhole⟩

/-! ## The frame of a response -/

theorem toResponse_eq_ok_iff {f : Frame} {r : Response} : f.toResponse = .ok r ↔
    (∃ head, Utf8.decode? f.head = some head ∧
        statusWords? head = some (r.version, r.status.token, r.reason)) ∧
      f.isSeparated = true ∧ readBody f.body = .ok r.envelope ∧ r.envelope.id.isSome = true := by
  constructor
  · intro h
    obtain ⟨head, hhead, h⟩ := bind_eq_ok h
    obtain ⟨⟨version, status, reason⟩, hwords, h⟩ := bind_eq_ok h
    obtain ⟨e, he, h⟩ := bind_eq_ok h
    dsimp only at h
    split at h
    · cases h
    rename_i hid
    obtain rfl := Except.ok.inj h
    obtain ⟨hsep, hbody⟩ := envelope_eq_ok_iff.mp he
    refine ⟨⟨head, headText_eq_ok_iff.mp hhead, ?_⟩, hsep, hbody, ?_⟩
    · exact statusWords?_of_readStatusLine hwords
    · simpa [Option.isSome_iff_ne_none] using hid
  · rintro ⟨⟨head, hhead, hwords⟩, hsep, hbody, hid⟩
    have hstatus : Status.ofToken r.status.token = .ok r.status := by
      simp [Status.ofToken, r.status.valid]
    simp [toResponse, headText, hhead, readStatusLine, hwords, hstatus, envelope, hsep, hbody, bind,
      Except.bind, pure, Except.pure, Option.isNone_iff_eq_none, Option.isSome_iff_ne_none.mp hid]

/-- A response that has been read can be written as well. -/
theorem portable_of_toResponse {f : Frame} {r : Response} (h : f.toResponse = .ok r)
    (hwhole : ∀ v, r.envelope.payload = some v → v.Integral) : r.Portable := by
  obtain ⟨⟨head, -, hwords⟩, -, hbody, hid⟩ := toResponse_eq_ok_iff.mp h
  obtain ⟨-, hversion, -⟩ := statusWords?_eq_some_iff.mp hwords
  exact ⟨hversion, hid, portable_of_readBody hbody hwhole⟩

end Frame

end Wire

end Courier
