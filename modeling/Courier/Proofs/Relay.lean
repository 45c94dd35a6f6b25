import Courier.Proofs.FrameGrammar
import Courier.Proofs.MessageReading
import Courier.Proofs.Utf8Inverse

/-!
# Messages that are passed on

A message that came in one of the many ways in which it may be written goes out in the one way in
which it is written. A request stays the same request (`parse_encode_of_parse`). A response stays
the same but for its reason: the reader leaves a carriage return inside the reason where it is, the
writer puts a space in its place. Behind the first relay there is none left, and the response goes
through all later ones unchanged (`parse_relayed`).
-/

namespace Courier

open Text Wire

/-- What is read from all of the bytes is read from a frame whose head has no line feed. -/
theorem Decoder.exists_frame_of_takeOnly {α : Type} {read : Frame → Except Failure α} {bs : Bytes}
    {m : α} (h : takeOnly read bs = .ok m) : ∃ f, read f = .ok m ∧ 10 ∉ f.head := by
  obtain ⟨f, rest, hlocate, hm, -⟩ := takeOnly_eq_ok_iff_locate?.mp h
  obtain ⟨head, second, tail, tail', body, close, hhead, -, -, rfl⟩ :=
    Frame.locate?_eq_some hlocate
  exact ⟨_, hm, Line.feed_notMem_text hhead⟩

/-! ## Requests -/

namespace Request

theorem parse_encode_of_portable {r : Request} (hr : r.Portable) : parse r.encode = .ok r := by
  rw [← bytes_frame, parse_bytes (isWhole_frame hr), toRequest_frame hr]

/-- **A request that is passed on stays the same.** Whatever bytes a request is read from, the bytes
that are written for it are read as that request, if the numbers in its payload are whole. -/
theorem parse_encode_of_parse {bs : Bytes} {r : Request} (h : parse bs = .ok r)
    (hwhole : ∀ v, r.envelope.payload = some v → v.Integral) : parse r.encode = .ok r := by
  obtain ⟨f, hread, -⟩ := Decoder.exists_frame_of_takeOnly h
  exact parse_encode_of_portable (Frame.portable_of_toRequest hread hwhole)

/-- A request behind a blank line, with a control character in its verb, two topics, and a time that
is a number. -/
theorem parse_encode_of_parse_lenient :
    let bs := utf8 ("\r\n \tPI\u0001NG \u00a0 CMIT/1.0\r\n\r\n\x7b\"_id\":\"x\",\r\n " ++
      "\"timestamp\":-0.50e1,\"topic\":\"a\",\"topic\":\"t\"," ++
      "\"payload\":\x7b\"n\":[1,-0]\x7d\x7d\r\n \r\n")
    ∃ r, parse bs = .ok r ∧ r.verb = "PI\u0001NG" ∧ r.envelope.timestamp = some "-5.0" ∧
      r.envelope.topic = "t" ∧ parse r.encode = .ok r := by
  intro bs
  have hread : (parse bs).toOption.any (fun r => r.verb = "PI\u0001NG" ∧
      r.envelope.timestamp = some "-5.0" ∧ r.envelope.topic = "t" ∧
      ∀ v ∈ r.envelope.payload, v.Integral) = true := by
    decide +kernel
  obtain ⟨r, hr, hverb, htime, htopic, hwhole⟩ := exists_ok_of_any hread
  exact ⟨r, hr, hverb, htime, htopic, parse_encode_of_parse hr hwhole⟩

end Request

/-! ## Responses -/

namespace Text

/-- What no space begins or ends with stays so, whatever becomes of the spaces inside. -/
theorem trim_map {cs short : List Char} {f : Char → Char} (h : IsTrimOf short cs)
    (hf : ∀ c, isSpace c = false → f c = c) : trim (short.map f) = short.map f := by
  symm
  apply isTrimOf_iff.mp
  refine ⟨⟨[], [], List.forall_mem_nil _, List.forall_mem_nil _, by simp⟩, ?_, ?_⟩
  · intro c hc
    rw [List.head?_map] at hc
    obtain ⟨d, hd, rfl⟩ := Option.map_eq_some_iff.mp hc
    rw [hf d (h.first d hd)]
    exact h.first d hd
  · intro c hc
    rw [List.getLast?_map] at hc
    obtain ⟨d, hd, rfl⟩ := Option.map_eq_some_iff.mp hc
    rw [hf d (h.last d hd)]
    exact h.last d hd

end Text

namespace Response

def spaced (reason : String) : String :=
  String.ofList (reason.toList.map fun c => if c = '\r' then ' ' else c)

theorem return_notMem_spaced (reason : String) : '\r' ∉ (spaced reason).toList := by
  intro hmem
  rw [spaced, String.toList_ofList] at hmem
  obtain ⟨c, -, hc⟩ := List.mem_map.mp hmem
  split at hc
  · cases hc
  · contradiction

theorem spaced_eq_self_iff {reason : String} : spaced reason = reason ↔ '\r' ∉ reason.toList := by
  constructor
  · intro h
    rw [← h]
    exact return_notMem_spaced reason
  · intro h
    rw [spaced, ← String.toList_inj, String.toList_ofList]
    conv => rhs; rw [← List.map_id reason.toList]
    apply List.map_congr_left
    intro c hc
    rw [if_neg]
    · rfl
    · rintro rfl
      exact h hc

/-- The reason of a response that is read is trimmed and on one line, unless it holds a carriage
return. -/
theorem reason_of_parse {bs : Bytes} {r : Response} (h : parse bs = .ok r) :
    '\n' ∉ r.reason.toList ∧ ∃ cs, IsTrimOf r.reason.toList cs := by
  obtain ⟨f, hread, hfeed⟩ := Decoder.exists_frame_of_takeOnly h
  obtain ⟨⟨head, hhead, hwords⟩, -⟩ := Frame.toResponse_eq_ok_iff.mp hread
  obtain ⟨⟨before, between, after, -, -, -, -, hreason, hline⟩, -, -⟩ :=
    statusWords?_eq_some_iff.mp hwords
  refine ⟨?_, after, hreason⟩
  intro hmem
  apply hfeed
  rw [Utf8.decode?_eq_some_iff.mp hhead]
  apply (Utf8.mem_encode_ascii (c := '\n') (by decide)).mpr
  obtain ⟨front, back, -, -, rfl⟩ := hreason.around
  rw [hline]
  simp [hmem]

theorem flattened_of_parse {bs : Bytes} {r : Response} (h : parse bs = .ok r) :
    r.flattened = { r with reason := spaced r.reason } := by
  obtain ⟨hfeed, cs, htrim⟩ := reason_of_parse h
  -- a reason that is read holds no line feed, the other character for which a space is written
  have hflat : flattenReason r.reason =
      r.reason.toList.map fun c => if c = '\r' then ' ' else c := by
    apply List.map_congr_left
    intro c hc
    have hne : c ≠ '\n' := by
      rintro rfl
      exact hfeed hc
    simp [hne]
  rw [flattened, hflat, trim_map htrim]
  · rfl
  · intro c hspace
    rw [if_neg]
    rintro rfl
    cases hspace

theorem parse_encode_eq_spaced {bs : Bytes} {r : Response} (h : parse bs = .ok r)
    (hwhole : ∀ v, r.envelope.payload = some v → v.Integral) :
    parse r.encode = .ok { r with reason := spaced r.reason } := by
  obtain ⟨f, hread, -⟩ := Decoder.exists_frame_of_takeOnly h
  have hr := Frame.portable_of_toResponse hread hwhole
  rw [← flattened_of_parse h, ← bytes_frame, parse, Decoder.takeOnly_bytes _ (isWhole_frame hr),
    toResponse_frame hr]

/-- **A response that is passed on stays the same but for the carriage returns in its reason**, in
whose places spaces come, if the numbers in its payload are whole. So it stays the same exactly if
there are none, and what has been passed on once goes through every later relay unchanged. -/
theorem parse_relayed {bs : Bytes} {r : Response} (h : parse bs = .ok r)
    (hwhole : ∀ v, r.envelope.payload = some v → v.Integral) :
    parse r.encode = .ok { r with reason := spaced r.reason } ∧
      (parse r.encode = .ok r ↔ '\r' ∉ r.reason.toList) ∧
      ∀ r', parse r.encode = .ok r' → parse r'.encode = .ok r' := by
  have hrelay := parse_encode_eq_spaced h hwhole
  refine ⟨hrelay, ?_, ?_⟩
  · rw [hrelay, ← spaced_eq_self_iff]
    constructor
    · intro heq
      exact congrArg reason (Except.ok.inj heq)
    · intro heq
      rw [heq]
  · -- what the first relay has given was read too, and has no carriage return left
    intro r' hr'
    rw [hrelay] at hr'
    obtain rfl := Except.ok.inj hr'
    rw [parse_encode_eq_spaced hrelay hwhole]
    show Except.ok { r with reason := spaced (spaced r.reason) } = _
    rw [spaced_eq_self_iff.mpr (return_notMem_spaced r.reason)]

/-- A response with a carriage return inside its reason. -/
theorem parse_relayed_returns :
    let bs := utf8 ("CMIT/1.0 ok  a\r\rb \r\n\n" ++
      "\x7b\"id\":\"x\",\"topic\":\"t\",\"payload\":[2]\x7d\n\n")
    ∃ r, parse bs = .ok r ∧ r.reason = "a\r\rb" ∧
      parse r.encode = .ok { r with reason := spaced r.reason } ∧ parse r.encode ≠ .ok r := by
  intro bs
  have hread : (parse bs).toOption.any (fun r => r.reason = "a\r\rb" ∧
      ∀ v ∈ r.envelope.payload, v.Integral) = true := by
    decide +kernel
  obtain ⟨r, hr, hreason, hwhole⟩ := exists_ok_of_any hread
  obtain ⟨hrelay, hsame, -⟩ := parse_relayed hr hwhole
  refine ⟨r, hr, hreason, hrelay, ?_⟩
  rw [Ne, hsame, hreason]
  decide

/-- A carriage return inside a reason is read, but no carriage return is written. -/
theorem reason_changed_by_relay :
    let bs := utf8 "CMIT/1.0 ok a\rb\n\n\x7b\"id\":\"x\",\"topic\":\"t\"\x7d\n\n"
    ∃ r, parse bs = .ok r ∧ r.reason = "a\rb" ∧ r.envelope.payload = none ∧
      parse r.encode ≠ .ok r := by
  intro bs
  have hread : (parse bs).toOption.any (fun r => r.reason = "a\rb" ∧ r.envelope.payload = none ∧
      (parse r.encode).toOption.all fun again => again.reason ≠ r.reason) = true := by
    decide +kernel
  obtain ⟨r, hr, hreason, hpayload, hagain⟩ := exists_ok_of_any hread
  refine ⟨r, hr, hreason, hpayload, ?_⟩
  intro hsame
  rw [hsame] at hagain
  simp [Except.toOption] at hagain

end Response

end Courier
