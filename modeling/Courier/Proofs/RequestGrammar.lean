import Courier.Proofs.FrameGrammar
import Courier.Proofs.MessageReading
import Courier.Proofs.Utf8Inverse

/-!
# The texts of requests

`Request.IsSpelledBy` says which bytes are a request, line by line: the lines of a frame, a head
line of two words, and a body that is an object with the fields of an envelope. The reader accepts
these bytes and no others.

Main statement: `parse_iff_isSpelledBy`.
-/

namespace Courier

open Text Wire

/-! ## Head lines with a carriage return -/

namespace Wire

variable {line : List Char} {c : Char}

theorem concat_ne_append_word {front word : List Char} (hc : isSpace c = true)
    (hword : IsWord word) : line ++ [c] ≠ front ++ word := by
  intro hline
  obtain ⟨start, d, hconcat⟩ := (List.eq_nil_or_concat word).resolve_left hword.1
  rw [hconcat, List.concat_eq_append] at hline hword
  have hlast : c = d := by
    have hlasts := congrArg List.getLast? hline
    simpa using hlasts
  have hspace := hword.2 d (by simp)
  rw [← hlast, hc] at hspace
  cases hspace

/-- A space at the end of a line makes no difference to its words. -/
theorem hasWords_concat_iff {first second : List Char} (hc : isSpace c = true) :
    HasWords (line ++ [c]) first second ↔ HasWords line first second := by
  constructor
  · rintro ⟨⟨before, between, after, hbefore, hbetween, hafter, hne, hline⟩, hfirst, hsecond⟩
    rcases List.eq_nil_or_concat after with rfl | ⟨after, d, rfl⟩
    · rw [List.append_nil] at hline
      exact absurd hline (concat_ne_append_word hc hsecond)
    · rw [List.concat_eq_append] at hline hafter
      rw [← List.append_assoc] at hline
      refine ⟨⟨before, between, after, hbefore, hbetween, ?_, hne, ?_⟩, hfirst, hsecond⟩
      · intro d hd
        exact hafter d (List.mem_append_left _ hd)
      · exact (List.append_inj' hline rfl).1
  · rintro ⟨⟨before, between, after, hbefore, hbetween, hafter, hne, rfl⟩, hfirst, hsecond⟩
    refine ⟨⟨before, between, after ++ [c], hbefore, hbetween, ?_, hne, ?_⟩, hfirst, hsecond⟩
    · intro d hd
      rcases List.mem_append.mp hd with hd | hd
      · exact hafter d hd
      · rw [List.mem_singleton.mp hd]
        exact hc
    · simp

end Wire

theorem Text.Utf8.encode_eq_concat_return {cs : List Char} {bs : Bytes}
    (h : Utf8.encode cs = bs ++ [13]) : ∃ ds, cs = ds ++ ['\r'] ∧ bs = Utf8.encode ds := by
  rcases List.eq_nil_or_concat cs with rfl | ⟨ds, c, rfl⟩
  · simp at h
  rw [List.concat_eq_append, Utf8.encode_append] at h
  have hne : Utf8.encode [c] ≠ [] := Utf8.encode_ne_nil (by simp)
  obtain ⟨front, b, hchar⟩ := (List.eq_nil_or_concat (Utf8.encode [c])).resolve_left hne
  rw [List.concat_eq_append] at hchar
  have hreturn : 13 ∈ Utf8.encode [c] := by
    rw [hchar, ← List.append_assoc] at h
    rw [hchar, List.singleton_inj.mp (List.append_inj' h rfl).2]
    simp
  have hc : '\r' = c := by
    simpa using (Utf8.mem_encode_ascii (c := '\r') (by decide)).mp hreturn
  rw [← hc] at h ⊢
  exact ⟨ds, List.concat_eq_append, (List.append_inj' h rfl).1.symm⟩

namespace Wire

/-- What does not depend on a carriage return at the end of a head line may be said of the line with
it or without it. -/
theorem exists_text_ofText_iff {p : List Char → Prop} (hp : ∀ cs, p (cs ++ ['\r']) ↔ p cs)
    {text : Bytes} : (∃ head, Utf8.decode? (Line.ofText text).text = some head ∧ p head) ↔
      ∃ head, text = Utf8.encode head ∧ p head := by
  simp only [Utf8.decode?_eq_some_iff]
  unfold Line.ofText
  split
  · rename_i hlast
    obtain ⟨front, rfl⟩ := List.getLast?_eq_some_iff.mp hlast
    rw [List.dropLast_concat]
    constructor
    · rintro ⟨head, rfl, hhead⟩
      exact ⟨head ++ ['\r'], by simp, (hp head).mpr hhead⟩
    · rintro ⟨head, henc, hhead⟩
      obtain ⟨front, rfl, rfl⟩ := Utf8.encode_eq_concat_return henc.symm
      exact ⟨front, rfl, (hp front).mp hhead⟩
  · rfl

theorem requestWords?_ofText_iff {text : Bytes} {verb version : String} :
    (∃ head, Utf8.decode? (Line.ofText text).text = some head ∧
        requestWords? head = some (verb, version)) ↔
      ∃ head, text = Utf8.encode head ∧ HasWords head verb.toList version.toList := by
  simp only [requestWords?_eq_some_iff]
  exact exists_text_ofText_iff fun _ => hasWords_concat_iff rfl

end Wire

/-! ## Requests -/

namespace Request

/-- The bytes are a request, perhaps with blanks behind it: the lines of a frame, the verb and the
version in the head line, and in the body an object with the fields of the envelope. -/
def IsSpelledBy (r : Request) (bs : Bytes) : Prop :=
  ∃ (t : FrameText) (after : Bytes) (head : List Char) (fields : List (String × Json.Value)),
    t.IsProper ∧ after.all isBlankByte = true ∧ bs = t.bytes ++ after ∧
    t.head = Utf8.encode head ∧ HasWords head r.verb.toList r.version.toList ∧
    Json.Value.read t.body.flatten = .ok (.object fields) ∧ r.envelope.IsSpelledBy fields

theorem parse_eq_ok_iff {bs : Bytes} {r : Request} :
    parse bs = .ok r ↔ r.IsSpelledBy bs := by
  have hread : ∀ {f : Frame} {r : Request}, f.toRequest = .ok r →
      f.isSeparated = true ∧ f.body ≠ [] := by
    intro f r h
    obtain ⟨-, hsep, hbody⟩ := Frame.toRequest_eq_ok_iff.mp h
    exact ⟨hsep, body_ne_of_readBody hbody⟩
  rw [parse, Decoder.takeOnly_eq_ok_iff hread]
  constructor
  · rintro ⟨t, after, ht, hafter, rfl, h⟩
    obtain ⟨hhead, -, hbody⟩ := Frame.toRequest_eq_ok_iff.mp h
    obtain ⟨head, hhead, hwords⟩ := requestWords?_ofText_iff.mp hhead
    obtain ⟨-, fields, hread, he⟩ := readBody_eq_ok_iff.mp hbody
    exact ⟨t, after, head, fields, ht, hafter, rfl, hhead, hwords, hread, he⟩
  · rintro ⟨t, after, head, fields, ht, hafter, rfl, hhead, hwords, hread, he⟩
    refine ⟨t, after, ht, hafter, rfl, Frame.toRequest_eq_ok_iff.mpr ⟨?_, ht.isSeparated, ?_⟩⟩
    · exact requestWords?_ofText_iff.mpr ⟨head, hhead, hwords⟩
    · exact readBody_eq_ok_iff.mpr ⟨ht.visible, fields, hread, he⟩

/-- **The bytes of requests are accepted, and no others.** Bytes parse to a request exactly if they
spell it, and bytes that spell none are a bad request. -/
theorem parse_iff_isSpelledBy (bs : Bytes) :
    (∀ r, parse bs = .ok r ↔ r.IsSpelledBy bs) ∧
      ((∃ cause, parse bs = .error (.badRequest cause)) ↔ ¬ ∃ r : Request, r.IsSpelledBy bs) := by
  refine ⟨fun r => parse_eq_ok_iff, ?_, ?_⟩
  · rintro ⟨cause, herror⟩ ⟨r, hr⟩
    rw [parse_eq_ok_iff.mpr hr] at herror
    cases herror
  · intro hnone
    cases h : parse bs with
    | ok r => exact absurd ⟨r, parse_eq_ok_iff.mp h⟩ hnone
    | error failure =>
      obtain ⟨cause, rfl⟩ := Decoder.takeOnly_error Frame.toRequest_error h
      exact ⟨cause, rfl⟩

end Request

end Courier
