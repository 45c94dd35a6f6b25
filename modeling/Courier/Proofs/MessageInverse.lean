import Courier.Proofs.JsonInverse
import Courier.Proofs.Streams

/-!
# What is written as a message reads back

A written message is a whole frame whatever it holds: its head has no line break, its body is one
line of JSON, and the two empty lines are where the frame is divided. The frame gives the message
back as long as the words of the head are words and the payload is one that the JSON reader takes.

Main statement: `takeAll_requests`.
-/

namespace Courier

open Text Wire

/-! ## Words -/

namespace Text

/-- One or more characters, none of them a space. -/
def IsWord (cs : List Char) : Prop := cs ≠ [] ∧ ∀ c ∈ cs, isSpace c = false

theorem nextWord?_space {cs : List Char} {c : Char} (h : isSpace c = true) :
    nextWord? (c :: cs) = nextWord? cs := by
  simp [nextWord?, trimStart, h]

theorem nextWord?_append {word rest : List Char} (hword : IsWord word)
    (hrest : ∀ c ∈ rest.head?, isSpace c = true) :
    nextWord? (word ++ rest) = some (word, rest) := by
  obtain ⟨hne, hspace⟩ := hword
  have hpos : ∀ c ∈ word, (!isSpace c) = true := by
    intro c hc
    simp [hspace c hc]
  have htrim : trimStart (word ++ rest) = word ++ rest := by
    cases word with
    | nil => exact absurd rfl hne
    | cons c cs => simp [trimStart, hspace c (by simp)]
  obtain ⟨htake, hdrop⟩ : (word ++ rest).takeWhile (!isSpace ·) = word ∧
      (word ++ rest).dropWhile (!isSpace ·) = rest := by
    apply span_run hpos
    intro c hc
    simp [hrest c hc]
  unfold nextWord?
  rw [htrim]
  split
  · rename_i h
    exact absurd (List.append_eq_nil_iff.mp h).1 hne
  · rename_i h
    rw [← h, htake, hdrop]

theorem isWord_of_isToken {cs : List Char} (h : isToken cs = true) : IsWord cs := by
  simp only [isToken, Bool.and_eq_true, List.all_eq_true, Bool.not_eq_true'] at h
  exact ⟨by simpa using h.1, fun c hc => (h.2 c hc).1⟩

theorem isSpace_of_isBlankByte {c : Char} (hc : c.toNat < 0x80)
    (h : isBlankByte (UInt8.ofNat c.toNat) = true) : isSpace c = true := by
  have : ∀ n < 0x80, isBlankByte (UInt8.ofNat n) = true → isSpace (Char.ofNat n) = true := by
    decide
  rw [← Char.ofNat_toNat c]
  exact this c.toNat hc h

theorem all_isBlankByte_encode {cs : List Char} {c : Char} (hc : c ∈ cs)
    (hspace : isSpace c = false) : (Utf8.encode cs).all isBlankByte = false := by
  rw [List.all_eq_false]
  obtain ⟨b, tail, hb, -⟩ := Utf8.front_encodeChar c []
  have hmem : b ∈ Utf8.encodeChar c := by simp [hb]
  refine ⟨b, List.mem_flatMap.mpr ⟨c, hc, hmem⟩, ?_⟩
  intro hblank
  by_cases hascii : c.toNat < 0x80
  · rw [Utf8.encodeChar_ascii hascii, List.mem_singleton] at hmem
    rw [hmem] at hblank
    rw [isSpace_of_isBlankByte hascii hblank] at hspace
    cases hspace
  · have hle := Utf8.le_of_mem_encodeChar (by omega) hmem
    simp only [isBlankByte, Bool.or_eq_true, beq_iff_eq] at hblank
    rcases hblank with (((rfl | rfl) | rfl) | rfl) | rfl <;> exact absurd hle (by decide)

end Text

/-! ## Head lines -/

namespace Wire

theorem requestWords?_requestLine {verb version : String} (hverb : IsWord verb.toList)
    (hversion : IsWord version.toList) :
    requestWords? (requestLine verb version) = some (verb, version) := by
  have h1 : nextWord? (verb.toList ++ ' ' :: version.toList)
      = some (verb.toList, ' ' :: version.toList) := nextWord?_append hverb (by rintro c ⟨⟩; rfl)
  have h2 : nextWord? (' ' :: version.toList) = some (version.toList, []) := by
    rw [nextWord?_space rfl]
    have hend : nextWord? (version.toList ++ []) = some (version.toList, []) :=
      nextWord?_append hversion (by rintro c ⟨⟩)
    simpa using hend
  have h3 : nextWord? [] = none := rfl
  simp [requestWords?, requestLine, h1, h2, h3]

theorem trim_space (cs : List Char) : trim (' ' :: cs) = trim cs := rfl

theorem statusWords?_statusLine {version : String} (hversion : IsWord version.toList)
    (status : Status) (reason : String) :
    statusWords? (statusLine version status reason)
      = some (version, status.token, String.ofList (trim (flattenReason reason))) := by
  have hstatus := isWord_of_isToken status.valid
  -- a reason stands behind one more space, and without one the line ends
  obtain ⟨rest, hline, hhead, htrim⟩ : ∃ rest,
      statusLine version status reason = version.toList ++ ' ' :: (status.token.toList ++ rest) ∧
      (∀ c ∈ rest.head?, isSpace c = true) ∧ trim rest = trim (flattenReason reason) := by
    unfold statusLine
    dsimp only
    cases h : flattenReason reason with
    | nil => exact ⟨[], by simp, by rintro c ⟨⟩, rfl⟩
    | cons c cs => exact ⟨' ' :: c :: cs, by simp, by rintro c ⟨⟩; rfl, trim_space _⟩
  have h1 : nextWord? (version.toList ++ ' ' :: (status.token.toList ++ rest))
      = some (version.toList, ' ' :: (status.token.toList ++ rest)) :=
    nextWord?_append hversion (by rintro c ⟨⟩; rfl)
  have h2 : nextWord? (' ' :: (status.token.toList ++ rest))
      = some (status.token.toList, rest) := by
    rw [nextWord?_space rfl]
    exact nextWord?_append hstatus hhead
  simp [statusWords?, hline, h1, h2, htrim]

theorem readStatusLine_statusLine {version : String} (hversion : IsWord version.toList)
    (status : Status) (reason : String) :
    readStatusLine (statusLine version status reason)
      = .ok (version, status, String.ofList (trim (flattenReason reason))) := by
  have hstatus : Status.ofToken status.token = .ok status := by
    simp [Status.ofToken, status.valid]
  simp [readStatusLine, statusWords?_statusLine hversion, hstatus]

/-! ## Frames of messages -/

/-- A text on one line: without line feeds, and without carriage returns either. -/
def OneLine (cs : List Char) : Prop := ∀ c ∈ cs, c ≠ '\n' ∧ c ≠ '\r'

theorem oneLine_append {cs ds : List Char} (hcs : OneLine cs) (hds : OneLine ds) :
    OneLine (cs ++ ds) := by
  intro c hc
  rcases List.mem_append.mp hc with hc | hc
  · exact hcs c hc
  · exact hds c hc

theorem oneLine_of_isWord {cs : List Char} (h : IsWord cs) : OneLine cs := by
  intro c hc
  constructor
  · rintro rfl
    exact absurd (h.2 _ hc) (by decide)
  · rintro rfl
    exact absurd (h.2 _ hc) (by decide)

theorem oneLine_render (e : Envelope) : OneLine e.render := by
  intro c hc
  have hspace := Json.space_le_renderObject e.fields hc
  constructor
  · rintro rfl
    exact absurd hspace (by decide)
  · rintro rfl
    exact absurd hspace (by decide)

theorem next?_encode {cs : List Char} (h : OneLine cs) (more : Bytes) :
    Line.next? (Utf8.encode cs ++ 10 :: more) = some (⟨Utf8.encode cs, [10]⟩, more) := by
  have hfeed : 10 ∉ Utf8.encode cs := by
    intro hmem
    exact (h '\n' ((Utf8.mem_encode_ascii (c := '\n') (by decide)).mp hmem)).1 rfl
  have hreturn : 13 ∉ Utf8.encode cs := by
    intro hmem
    exact (h '\r' ((Utf8.mem_encode_ascii (c := '\r') (by decide)).mp hmem)).2 rfl
  have htext : Line.ofText (Utf8.encode cs) = ⟨Utf8.encode cs, [10]⟩ := by
    unfold Line.ofText
    split
    · rename_i hlast
      exact absurd (List.mem_of_getLast? hlast) hreturn
    · rfl
  rw [Line.next?_text hfeed, htext]

/-- The frame of a message as it is located. -/
def frameOf (head : List Char) (e : Envelope) : Frame :=
  ⟨Utf8.encode head, [10], [10], Utf8.encode e.render ++ [10], [10]⟩

theorem bytes_frameOf (head : List Char) (e : Envelope) :
    (frameOf head e).bytes = frameBytes head e := by
  simp [frameOf, Frame.bytes, frameBytes]

theorem render_eq_cons (e : Envelope) : ∃ cs, e.render = '\x7b' :: cs := by
  unfold Envelope.render
  cases e.fields with
  | nil => exact ⟨_, rfl⟩
  | cons f fs => exact ⟨_, rfl⟩

/-- **The frame of a message is whole**, whatever envelope it carries. -/
theorem isWhole_frameOf {head : List Char} (hhead : OneLine head)
    (hvisible : ∃ c ∈ head, isSpace c = false) (e : Envelope) : (frameOf head e).IsWhole := by
  obtain ⟨c, hc, hspace⟩ := hvisible
  refine ⟨?_, all_isBlankByte_encode hc hspace⟩
  have hblank : Line.isBlank ⟨[], [10]⟩ = true := rfl
  have hempty : ∀ more, Line.next? (10 :: more) = some (⟨[], [10]⟩, more) := fun more =>
    Line.next?_text (List.not_mem_nil (a := 10)) more
  have hbody : Line.isBlank ⟨Utf8.encode e.render, [10]⟩ = false := by
    obtain ⟨cs, hcs⟩ := render_eq_cons e
    exact all_isBlankByte_encode (c := '\x7b') (by simp [hcs]) (by decide)
  -- four lines: the head, an empty one, the body, an empty one
  have hbytes : (frameOf head e).bytes
      = Utf8.encode head ++ 10 :: 10 :: (Utf8.encode e.render ++ 10 :: 10 :: []) := by
    simp [bytes_frameOf, frameBytes]
  rw [hbytes, Frame.locate?_lines (next?_encode hhead _) (hempty _)]
  simp only [hblank, if_true]
  rw [Frame.takeBody?_line (next?_encode (oneLine_render e) _) hbody,
    Frame.takeBody?_blank (hempty _) hblank]
  simp [frameOf, Line.bytes]

end Wire

/-! ## Envelopes -/

/-- A value that may stand in a message: its numbers are whole, and with the object around it it is
no deeper than the reader goes. -/
structure Json.Value.Portable (v : Json.Value) : Prop where
  wellFormed : v.WellFormed
  integral : v.Integral
  depth : v.depth < Json.maxDepth

theorem Json.Value.portable_string (s : String) : (string s).Portable :=
  ⟨trivial, trivial, show 0 < maxDepth by decide⟩

namespace Envelope

def Portable (e : Envelope) : Prop := ∀ v, e.payload = some v → v.Portable

theorem mem_fields {e : Envelope} {f : String × Json.Value} (h : f ∈ e.fields) :
    (∃ s, f.2 = .string s) ∨ e.payload = some f.2 := by
  obtain ⟨id, timestamp, topic, payload⟩ := e
  simp only [fields, List.mem_append, List.mem_cons, List.mem_map, Option.mem_toList] at h
  rcases h with (⟨s, -, rfl⟩ | ⟨s, -, rfl⟩) | rfl | ⟨v, hv, rfl⟩
  · exact .inl ⟨s, rfl⟩
  · exact .inl ⟨s, rfl⟩
  · exact .inl ⟨topic, rfl⟩
  · exact .inr hv

theorem portable_fields {e : Envelope} (he : e.Portable) {f : String × Json.Value}
    (h : f ∈ e.fields) : f.2.Portable := by
  rcases mem_fields h with ⟨s, hs⟩ | hv
  · rw [hs]
    exact Json.Value.portable_string s
  · exact he f.2 hv

/-- The fields that an envelope is written with are those of the envelope, in whatever order. -/
theorem ofFields_fields (e : Envelope) : Envelope.ofFields (Keyed.ofList e.fields) = .ok e := by
  obtain ⟨id, timestamp, topic, payload⟩ := e
  have h1 : ¬ "timestamp" < "id" := by decide
  have h2 : ¬ "topic" < "id" ∧ ¬ "topic" < "timestamp" := by decide
  have h3 : ¬ "payload" < "id" ∧ "payload" < "timestamp" ∧ "payload" < "topic" := by decide
  cases id <;> cases timestamp <;> cases payload <;>
    simp [fields, Keyed.ofList, Keyed.insert, h1, h2, h3, ofFields, EnvelopeDraft.addAll,
      EnvelopeDraft.claim, EnvelopeField.ofName?, EnvelopeDraft.has, EnvelopeDraft.set, textOrNull,
      textOfValue, timeOfValue, Except.map, EnvelopeDraft.finish]

/-- The body that is written for an envelope is read as that envelope. -/
theorem readBody_render {e : Envelope} (he : e.Portable) :
    readBody (Utf8.encode e.render ++ [10]) = .ok e := by
  have hdepth : Json.depthOfFields e.fields + 1 + ([] : List Json.Pending).length
      ≤ Json.maxDepth := by
    have := Json.depthOfFields_le_iff (n := 126).mpr fun f hf =>
      Nat.le_of_lt_succ (portable_fields he hf).depth
    show Json.depthOfFields e.fields + 1 + 0 ≤ 127
    omega
  have hread : Json.Value.read (Utf8.encode e.render ++ [10])
      = .ok (.object (Keyed.ofList e.fields)) := by
    rw [Json.Value.read, Json.readAll, Envelope.render,
      Json.readValue_renderObject e.fields (fun f hf => (portable_fields he hf).wellFormed)
        (fun f hf => (portable_fields he hf).integral) hdepth, Json.readAfter]
    rfl
  have hvisible : (Utf8.encode e.render ++ [10]).all isBlankByte = false := by
    obtain ⟨cs, hcs⟩ := render_eq_cons e
    rw [List.all_append, all_isBlankByte_encode (c := '\x7b') (by simp [hcs]) (by decide)]
    rfl
  simp [readBody, hvisible, hread, ofFields_fields]

end Envelope

/-! ## Messages -/

/-- A request whose text is read as the same request: its verb and its version are words. -/
structure Request.Portable (r : Request) : Prop where
  verb : IsWord r.verb.toList
  version : IsWord r.version.toList
  envelope : r.envelope.Portable

/-- A response whose text is read as the same response, but for its reason. -/
structure Response.Portable (r : Response) : Prop where
  version : IsWord r.version.toList
  id : r.envelope.id.isSome
  envelope : r.envelope.Portable

namespace Wire

theorem exists_visible {word rest : List Char} (h : IsWord word) :
    ∃ c ∈ word ++ rest, isSpace c = false := by
  obtain ⟨c, hc⟩ := List.exists_mem_of_ne_nil word h.1
  exact ⟨c, by simp [hc], h.2 c hc⟩

theorem oneLine_flattenReason (reason : String) : OneLine (flattenReason reason) := by
  intro c hc
  obtain ⟨d, -, rfl⟩ := List.mem_map.mp hc
  split
  · decide
  · rename_i h
    exact ⟨fun hd => h (.inr hd), fun hd => h (.inl hd)⟩

theorem oneLine_statusLine {version : String} (hversion : IsWord version.toList)
    (status : Status) (reason : String) : OneLine (statusLine version status reason) := by
  have hspace : OneLine [' '] := by
    intro c hc
    rw [List.mem_singleton.mp hc]
    decide
  have hstart : OneLine (version.toList ++ ([' '] ++ status.token.toList)) :=
    oneLine_append (oneLine_of_isWord hversion)
      (oneLine_append hspace (oneLine_of_isWord (isWord_of_isToken status.valid)))
  have hreason := oneLine_flattenReason reason
  unfold statusLine
  dsimp only
  split
  · exact hstart
  · rename_i c cs h
    rw [h] at hreason
    exact oneLine_append hstart (oneLine_append hspace hreason)

theorem headText_frameOf (head : List Char) (e : Envelope) :
    (frameOf head e).headText = .ok head := by
  simp [Frame.headText, frameOf, Utf8.decode?_encode]

theorem envelope_frameOf (head : List Char) {e : Envelope} (he : e.Portable) :
    (frameOf head e).envelope = .ok e := by
  simp [Frame.envelope, Frame.isSeparated, frameOf, e.readBody_render he]

end Wire

namespace Request

def frame (r : Request) : Frame := frameOf (requestLine r.verb r.version) r.envelope

theorem bytes_frame (r : Request) : r.frame.bytes = r.encode := bytes_frameOf _ _

/-- The words of the head alone make the frame whole. -/
theorem isWhole_frame_of_isWord {r : Request} (hverb : IsWord r.verb.toList)
    (hversion : IsWord r.version.toList) : r.frame.IsWhole := by
  apply isWhole_frameOf _ (exists_visible hverb)
  apply oneLine_append (oneLine_of_isWord hverb)
  intro c hc
  rcases List.mem_cons.mp hc with rfl | hc
  · decide
  · exact oneLine_of_isWord hversion c hc

theorem isWhole_frame {r : Request} (hr : r.Portable) : r.frame.IsWhole :=
  isWhole_frame_of_isWord hr.verb hr.version

theorem toRequest_frame {r : Request} (hr : r.Portable) : r.frame.toRequest = .ok r := by
  have hline : readRequestLine (requestLine r.verb r.version) = .ok (r.verb, r.version) := by
    rw [readRequestLine, requestWords?_requestLine hr.verb hr.version]
  simp [Frame.toRequest, frame, headText_frameOf, envelope_frameOf _ hr.envelope, bind, Except.bind,
    hline, pure, Except.pure]

end Request

namespace Response

/-- The response with its reason as a reader of its text sees it. -/
def flattened (r : Response) : Response :=
  { r with reason := String.ofList (trim (flattenReason r.reason)) }

def frame (r : Response) : Frame := frameOf (statusLine r.version r.status r.reason) r.envelope

theorem bytes_frame (r : Response) : r.frame.bytes = r.encode := bytes_frameOf _ _

/-- The version alone makes the frame whole. -/
theorem isWhole_frame_of_isWord {r : Response} (hversion : IsWord r.version.toList) :
    r.frame.IsWhole := by
  apply isWhole_frameOf (oneLine_statusLine hversion r.status r.reason)
  unfold statusLine
  dsimp only
  split
  · exact exists_visible hversion
  · rw [List.append_assoc]
    exact exists_visible hversion

theorem isWhole_frame {r : Response} (hr : r.Portable) : r.frame.IsWhole :=
  isWhole_frame_of_isWord hr.version

theorem toResponse_frame {r : Response} (hr : r.Portable) :
    r.frame.toResponse = .ok r.flattened := by
  have hline := readStatusLine_statusLine hr.version r.status r.reason
  have hid : r.envelope.id.isNone = false := by
    simpa using hr.id
  simp [Frame.toResponse, frame, headText_frameOf, envelope_frameOf _ hr.envelope, bind,
    Except.bind, hline, hid, pure, Except.pure, flattened]

end Response

/-! ## Streams of messages -/

namespace Decoder

/-- **A stream of written requests is read as these requests**, in order and with nothing left over,
whatever blank lines stand before, between and behind them, under any limit that each of them is
within; and what is written for one request parses to it. -/
theorem takeAll_requests :
    (∀ (d : Decoder) (pieces : List (List Bytes × Request)) (last : List Bytes),
      (∀ p ∈ pieces, p.2.Portable ∧ ∀ l ∈ p.1, Frame.IsBlankLine l) →
      (∀ l ∈ last, Frame.IsBlankLine l) →
      (∀ p ∈ pieces, ∀ limit, d.limit = some limit → p.2.encode.length ≤ limit) →
      d.takeAll Frame.toRequest
          ((pieces.flatMap fun p => p.1.flatten ++ p.2.encode) ++ last.flatten)
        = (pieces.map fun p => .ok p.2, [])) ∧
    ∀ r : Request, r.Portable → Request.parse r.encode = .ok r := by
  constructor
  · intro d pieces last hpieces hlast hlimit
    have hframe : ∀ p ∈ pieces, p.2.frame.IsWhole ∧ p.2.frame.toRequest = .ok p.2 := by
      intro p hp
      have hportable := (hpieces p hp).1
      exact ⟨Request.isWhole_frame hportable, Request.toRequest_frame hportable⟩
    have hsize : ∀ p ∈ pieces, d.exceeded? p.2.frame.size = none := by
      intro p hp
      rw [exceeded?_eq_none_iff, Frame.size, Request.bytes_frame]
      exact hlimit p hp
    simpa only [Request.bytes_frame, id_eq] using takeAll_written isRefusal_toRequest Request.frame
      id hframe hsize (fun p hp => (hpieces p hp).2) hlast
  · intro r hr
    rw [← Request.bytes_frame, Request.parse_bytes (Request.isWhole_frame hr),
      Request.toRequest_frame hr]

/-- A request with a payload, among blank lines of several kinds. -/
theorem takeAll_requests_blank_lines :
    (⟨some 64⟩ : Decoder).takeAll Frame.toRequest
        (([([[10], [32, 9, 13, 10]],
            (⟨"\u00e9", "1.0", ⟨"x", none, "\n", some (.array [.number (.whole (-1)), .null])⟩⟩ :
              Request))].flatMap fun p => p.1.flatten ++ p.2.encode) ++ [[12, 10]].flatten)
      = ([.ok ⟨"\u00e9", "1.0",
          ⟨"x", none, "\n", some (.array [.number (.whole (-1)), .null])⟩⟩], []) := by
  apply takeAll_requests.1
  · intro p hp
    obtain rfl := List.mem_singleton.mp hp
    have hverb : IsWord "\u00e9".toList := isWord_of_isToken (by decide)
    have hversion : IsWord "1.0".toList := isWord_of_isToken (by decide)
    refine ⟨⟨hverb, hversion, ?_⟩, ?_⟩
    · rintro v ⟨⟩
      have hrange : (Json.Number.whole (-1)).InRange := by
        show -(Decimal.twoTo 63 : Int) ≤ -1 ∧ (-1 : Int) < Decimal.twoTo 64
        decide
      exact ⟨⟨trivial, hrange, trivial, trivial⟩, ⟨trivial, trivial, trivial, trivial⟩,
        show 1 < Json.maxDepth by decide⟩
    · simp only [List.forall_mem_cons]
      exact ⟨⟨[], by decide⟩, ⟨[32, 9, 13], by decide⟩, by simp⟩
  · simp only [List.forall_mem_cons]
    exact ⟨⟨[12], by decide⟩, by simp⟩
  · intro p hp limit hlimit
    obtain rfl := List.mem_singleton.mp hp
    obtain rfl := Option.some.inj hlimit
    decide +kernel

end Decoder

end Courier
