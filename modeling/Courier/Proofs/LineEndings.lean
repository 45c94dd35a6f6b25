import Courier.Proofs.JsonLineEndings
import Courier.Proofs.ResponseGrammar
import Mathlib.Data.List.Forall2

/-!
# Line endings are interchangeable

A stream means the same with a carriage return before some of its line feeds. Lines and frames end
where they did: a line has the same text but for a carriage return at its end, which is blank, and
the bodies of frames differ as the streams do. A head line is cut into words, to which a carriage
return at its end makes no difference, and a body is read as JSON, which was dealt with before.

Main statement: `messages_putReturns`.
-/

namespace Courier

open Text Wire

/-! ## Lines -/

/-- The first line feed, with the carriage return that may have been put before it. -/
theorem Text.WithReturns.feed {bs bs' : Bytes} (h : WithReturns bs bs') :
    (10 ∉ bs ∧ bs' = bs) ∨ ∃ text rest rest', 10 ∉ text ∧ bs = text ++ 10 :: rest ∧
      (bs' = text ++ 10 :: rest' ∨ bs' = text ++ 13 :: 10 :: rest') ∧ WithReturns rest rest' := by
  induction h with
  | nil => exact .inl ⟨List.not_mem_nil, rfl⟩
  | put h => exact .inr ⟨[], _, _, List.not_mem_nil, rfl, .inr rfl, h⟩
  | same b h ih =>
    by_cases hb : b = 10
    · subst hb
      exact .inr ⟨[], _, _, List.not_mem_nil, rfl, .inl rfl, h⟩
    rcases ih with ⟨hfeed, rfl⟩ | ⟨text, rest, rest', hfeed, rfl, hother, hrest⟩
    · left
      refine ⟨?_, rfl⟩
      rw [List.mem_cons]
      rintro (rfl | hmem)
      · exact hb rfl
      · exact hfeed hmem
    · right
      refine ⟨b :: text, rest, rest', ?_, rfl, ?_, hrest⟩
      · rw [List.mem_cons]
        rintro (rfl | hmem)
        · exact hb rfl
        · exact hfeed hmem
      · rcases hother with rfl | rfl
        · exact .inl rfl
        · exact .inr rfl

namespace Wire

/-- The lines of one text, without and with a carriage return more at the end. -/
def Line.Alike (l l' : Line) : Prop :=
  ∃ text, l = .ofText text ∧ (l' = .ofText text ∨ l' = .ofText (text ++ [13]))

namespace Line.Alike

variable {l l' : Line}

theorem isBlank (h : l.Alike l') : l'.isBlank = l.isBlank := by
  obtain ⟨text, rfl, rfl | rfl⟩ := h
  · rfl
  · rw [isBlank_ofText, isBlank_ofText, List.all_append]
    exact Bool.and_true _

theorem withReturns (h : l.Alike l') : WithReturns l.bytes l'.bytes := by
  obtain ⟨text, rfl, rfl | rfl⟩ := h
  · exact .refl _
  · rw [bytes_ofText, bytes_ofText, List.append_assoc]
    exact (WithReturns.refl text).append (.put .nil)

theorem exists_text_iff (h : l.Alike l') {p : List Char → Prop}
    (hp : ∀ cs, p (cs ++ ['\r']) ↔ p cs) :
    (∃ head, Utf8.decode? l'.text = some head ∧ p head) ↔
      ∃ head, Utf8.decode? l.text = some head ∧ p head := by
  obtain ⟨text, rfl, rfl | rfl⟩ := h
  · rfl
  rw [exists_text_ofText_iff hp, exists_text_ofText_iff hp]
  constructor
  · rintro ⟨head, henc, hhead⟩
    obtain ⟨front, rfl, rfl⟩ := Utf8.encode_eq_concat_return henc.symm
    exact ⟨front, rfl, (hp front).mp hhead⟩
  · rintro ⟨head, rfl, hhead⟩
    exact ⟨head ++ ['\r'], by simp, (hp head).mpr hhead⟩

end Line.Alike

variable {bs bs' : Bytes}

theorem Line.next?_withReturns (h : WithReturns bs bs') :
    (next? bs = none ∧ next? bs' = none) ∨ ∃ l l' rest rest',
      next? bs = some (l, rest) ∧ next? bs' = some (l', rest') ∧ l.Alike l' ∧
        WithReturns rest rest' := by
  rcases h.feed with ⟨hfeed, rfl⟩ | ⟨text, rest, rest', hfeed, rfl, rfl | rfl, hrest⟩
  · exact .inl ⟨next?_eq_none_iff.mpr hfeed, next?_eq_none_iff.mpr hfeed⟩
  · right
    exact ⟨_, _, rest, rest', next?_text hfeed rest, next?_text hfeed rest',
      ⟨text, rfl, .inl rfl⟩, hrest⟩
  · right
    have hreturn : 10 ∉ text ++ [13] := by simpa using hfeed
    have hnext := next?_text hreturn rest'
    rw [List.append_assoc, List.singleton_append] at hnext
    exact ⟨_, _, rest, rest', next?_text hfeed rest, hnext, ⟨text, rfl, .inr rfl⟩, hrest⟩

/-! ## Frames -/

namespace Frame

theorem skipBlankLines_withReturns (h : WithReturns bs bs') :
    WithReturns (skipBlankLines bs) (skipBlankLines bs') := by
  fun_induction skipBlankLines bs generalizing bs' with
  | case1 bs hnone =>
    rcases Line.next?_withReturns h with ⟨-, hnone'⟩ | ⟨l, l', rest, rest', hsome, -⟩
    · rw [(skipBlankLines_none hnone').1]
      exact h
    · rw [hnone] at hsome
      cases hsome
  | case2 bs l rest hl _ hb ih =>
    rcases Line.next?_withReturns h with ⟨hnone, -⟩ | ⟨m, l', tail, rest', hm, hl', hline, hrest⟩
    · rw [hnone] at hl
      cases hl
    · cases hl.symm.trans hm
      rw [(skipBlankLines_of_blank hl' (hline.isBlank.trans hb)).1]
      exact ih hrest
  | case3 bs l rest hl _ hb =>
    rcases Line.next?_withReturns h with ⟨hnone, -⟩ | ⟨m, l', tail, rest', hm, hl', hline, hrest⟩
    · rw [hnone] at hl
      cases hl
    · cases hl.symm.trans hm
      rw [(skipBlankLines_of_line hl' (hline.isBlank.trans (Bool.eq_false_iff.mpr hb))).1]
      exact h

theorem takeBody?_withReturns (done done' : List Line) (h : WithReturns bs bs')
    (hdone : WithReturns (done.reverse.flatMap Line.bytes) (done'.reverse.flatMap Line.bytes)) :
    (takeBody? done bs = none ∧ takeBody? done' bs' = none) ∨
      ∃ body body' close close' rest rest', takeBody? done bs = some (body, close, rest) ∧
        takeBody? done' bs' = some (body', close', rest') ∧
        WithReturns (body.flatMap Line.bytes) (body'.flatMap Line.bytes) ∧
        WithReturns rest rest' := by
  induction hn : bs.length using Nat.strongRecOn generalizing bs bs' done done' with
  | ind n ih =>
    rcases Line.next?_withReturns h with
      ⟨hnone, hnone'⟩ | ⟨l, l', rest, rest', hl, hl', hline, hrest⟩
    · exact .inl ⟨takeBody?_none hnone, takeBody?_none hnone'⟩
    cases hb : l.isBlank with
    | true =>
      have hb' := hline.isBlank.trans hb
      exact .inr ⟨_, _, _, _, _, _, takeBody?_blank hl hb, takeBody?_blank hl' hb', hdone, hrest⟩
    | false =>
      rw [takeBody?_line hl hb, takeBody?_line hl' (hline.isBlank.trans hb)]
      apply ih rest.length (hn ▸ Line.length_next? hl) (l :: done) (l' :: done') hrest ?_ rfl
      rw [List.reverse_cons, List.reverse_cons, List.flatMap_append, List.flatMap_append]
      apply hdone.append
      simpa using hline.withReturns

/-- Frames that differ by the carriage returns before line feeds. -/
structure Alike (f f' : Frame) : Prop where
  head : ∃ l l' : Line, l.Alike l' ∧ l.text = f.head ∧ l'.text = f'.head
  separated : f'.isSeparated = f.isSeparated
  body : WithReturns f.body f'.body

theorem locate?_withReturns (h : WithReturns bs bs') :
    (locate? bs = none ∧ locate? bs' = none) ∨ ∃ f f' rest rest',
      locate? bs = some (f, rest) ∧ locate? bs' = some (f', rest') ∧ f.Alike f' ∧
        WithReturns rest rest' := by
  rcases Line.next?_withReturns h with
    ⟨hnone, hnone'⟩ | ⟨head, head', tail, tail', hhead, hhead', halike, htail⟩
  · left
    simp [locate?, hnone, hnone']
  rcases Line.next?_withReturns htail with
    ⟨hnone, hnone'⟩ | ⟨second, second', after, after', hsecond, hsecond', hline, hafter⟩
  · left
    simp [locate?, hhead, hhead', hnone, hnone']
  rw [locate?_lines hhead hsecond, locate?_lines hhead' hsecond', hline.isBlank]
  -- the body begins behind the same line in both
  have hstart : WithReturns (if second.isBlank then after else tail)
      (if second.isBlank then after' else tail') := by
    split
    · exact hafter
    · exact htail
  rcases takeBody?_withReturns [] [] hstart .nil with
    ⟨hnone, hnone'⟩ | ⟨body, body', close, close', rest, rest', hbody, hbody', hlines, hrest⟩
  · left
    rw [hnone, hnone']
    exact ⟨rfl, rfl⟩
  · right
    rw [hbody, hbody']
    refine ⟨_, _, rest, rest', rfl, rfl, ⟨⟨head, head', halike, rfl, rfl⟩, ?_, hlines⟩, hrest⟩
    -- a blank line is no shorter for the carriage return, so that both are separated or neither
    obtain ⟨text, rfl, rfl | rfl⟩ := hline
    · rfl
    · simp only [isSeparated, Line.bytes_ofText]
      split
      · cases text <;> rfl
      · rfl

/-! ## Messages -/

theorem readBody_withReturns (h : WithReturns bs bs') (e : Envelope) :
    readBody bs' = .ok e ↔ readBody bs = .ok e := by
  rw [readBody_eq_ok_iff, readBody_eq_ok_iff, h.all_eq rfl rfl]
  simp only [Json.read_withReturns h]

variable {f f' : Frame}

theorem toRequest_alike (h : f.Alike f') (r : Request) :
    f'.toRequest = .ok r ↔ f.toRequest = .ok r := by
  obtain ⟨⟨l, l', hline, hhead, hhead'⟩, hseparated, hbody⟩ := h
  have hwords : ∀ cs, requestWords? (cs ++ ['\r']) = some (r.verb, r.version) ↔
      requestWords? cs = some (r.verb, r.version) := by
    intro cs
    rw [requestWords?_eq_some_iff, requestWords?_eq_some_iff]
    exact hasWords_concat_iff rfl
  rw [toRequest_eq_ok_iff, toRequest_eq_ok_iff, ← hhead, ← hhead', hline.exists_text_iff hwords,
    hseparated, readBody_withReturns hbody]

theorem toResponse_alike (h : f.Alike f') (r : Response) :
    f'.toResponse = .ok r ↔ f.toResponse = .ok r := by
  obtain ⟨⟨l, l', hline, hhead, hhead'⟩, hseparated, hbody⟩ := h
  have hwords : ∀ cs, statusWords? (cs ++ ['\r']) = some (r.version, r.status.token, r.reason) ↔
      statusWords? cs = some (r.version, r.status.token, r.reason) := by
    intro cs
    rw [statusWords?_eq_some_iff, statusWords?_eq_some_iff]
    exact hasStatus_concat_iff rfl
  rw [toResponse_eq_ok_iff, toResponse_eq_ok_iff, ← hhead, ← hhead', hline.exists_text_iff hwords,
    hseparated, readBody_withReturns hbody]

end Frame

end Wire

/-! ## Streams -/

/-- The same message, or a bad request both times. -/
inductive SameOutcome {α : Type} : Except Failure α → Except Failure α → Prop
  | ok {m : α} : SameOutcome (.ok m) (.ok m)
  | bad {cause cause' : Malformed} :
      SameOutcome (.error (.badRequest cause)) (.error (.badRequest cause'))

theorem sameOutcome_of_iff {α : Type} {x y : Except Failure α}
    (hx : ∀ {failure}, x = .error failure → ∃ cause, failure = .badRequest cause)
    (hy : ∀ {failure}, y = .error failure → ∃ cause, failure = .badRequest cause)
    (h : ∀ m, y = .ok m ↔ x = .ok m) : SameOutcome x y := by
  cases x with
  | ok m =>
    rw [(h m).mpr rfl]
    exact .ok
  | error failure =>
    obtain ⟨cause, rfl⟩ := hx rfl
    cases y with
    | ok m => cases (h m).mp rfl
    | error failure' =>
      obtain ⟨cause', rfl⟩ := hy rfl
      exact .bad

namespace Decoder

open Frame

variable {α : Type} {read : Frame → Except Failure α} {bs bs' : Bytes}

theorem takeOnly_withReturns
    (hread : ∀ {f failure}, read f = .error failure → ∃ cause, failure = .badRequest cause)
    (halike : ∀ {f f' : Frame}, f.Alike f' → ∀ m, read f' = .ok m ↔ read f = .ok m)
    (h : WithReturns bs bs') : SameOutcome (takeOnly read bs) (takeOnly read bs') := by
  apply sameOutcome_of_iff (takeOnly_error hread) (takeOnly_error hread)
  intro m
  rw [takeOnly_eq_ok_iff_locate?, takeOnly_eq_ok_iff_locate?]
  rcases locate?_withReturns (skipBlankLines_withReturns h) with
    ⟨hnone, hnone'⟩ | ⟨f, f', rest, rest', hf, hf', hframe, hrest⟩
  · simp [hnone, hnone']
  · rw [hf, hf']
    have hblank : rest'.all isBlankByte = rest.all isBlankByte := hrest.all_eq rfl rfl
    constructor
    · rintro ⟨_, _, ⟨⟩, hm, hafter⟩
      exact ⟨f, rest, rfl, (halike hframe m).mp hm, hblank ▸ hafter⟩
    · rintro ⟨_, _, ⟨⟩, hm, hafter⟩
      exact ⟨f', rest', rfl, (halike hframe m).mpr hm, hblank.trans hafter⟩

/-- The same frames are cut, one by one, and what is left is the same again. -/
theorem harvest_withReturns (h : WithReturns bs bs') :
    List.Forall₂ Alike (unlimited.harvest bs).frames (unlimited.harvest bs').frames ∧
      (unlimited.harvest bs).refused = none ∧ (unlimited.harvest bs').refused = none ∧
      WithReturns (unlimited.harvest bs).rest (unlimited.harvest bs').rest := by
  induction hn : bs.length using Nat.strongRecOn generalizing bs bs' with
  | ind n ih =>
    have hskip := skipBlankLines_withReturns h
    rcases locate?_withReturns hskip with
      ⟨hnone, hnone'⟩ | ⟨f, f', rest, rest', hf, hf', hframe, hrest⟩
    · have hcut : unlimited.cut bs = (.more, skipBlankLines bs) := cut_unlocated hnone
      have hcut' : unlimited.cut bs' = (.more, skipBlankLines bs') := cut_unlocated hnone'
      rw [harvest_more hcut, harvest_more hcut']
      exact ⟨.nil, rfl, rfl, hskip⟩
    · have hcut : unlimited.cut bs = (.frame f, rest) := cut_located hf
      have hcut' : unlimited.cut bs' = (.frame f', rest') := cut_located hf'
      rw [harvest_frame hcut, harvest_frame hcut']
      obtain ⟨hframes, hrefused⟩ := ih rest.length (hn ▸ length_cut_frame hcut) hrest rfl
      exact ⟨.cons hframe hframes, hrefused⟩

theorem takeAll_withReturns
    (hread : ∀ {f failure}, read f = .error failure → ∃ cause, failure = .badRequest cause)
    (hrefusal : ∀ f, isRefusal (read f) = false)
    (halike : ∀ {f f' : Frame}, f.Alike f' → ∀ m, read f' = .ok m ↔ read f = .ok m)
    (h : WithReturns bs bs') :
    List.Forall₂ SameOutcome (unlimited.takeAll read bs).1 (unlimited.takeAll read bs').1 ∧
      WithReturns (unlimited.takeAll read bs).2 (unlimited.takeAll read bs').2 := by
  obtain ⟨hframes, hrefused, hrefused', hrest⟩ := harvest_withReturns h
  rw [takeAll_eq_harvest hrefusal, takeAll_eq_harvest hrefusal, Harvest.results, Harvest.results,
    hrefused, hrefused']
  refine ⟨?_, hrest⟩
  simp only [Option.toList_none, List.map_nil, List.append_nil]
  rw [List.forall₂_map_left_iff, List.forall₂_map_right_iff]
  apply hframes.imp
  intro f f' hframe
  exact sameOutcome_of_iff hread hread (halike hframe)

end Decoder

/-- **Line endings are interchangeable.** Let a carriage return be put before some of the line feeds
of any bytes, whichever these are. Read as one request, or as one response, the bytes give the same
message as before, or they are a bad request as before. A decoder without a limit takes as many
results from them as before, one by one the same message or a bad request again, and leaves the same
bytes but for carriage returns before line feeds. -/
theorem messages_putReturns (chosen : Nat → Bool) (bs : Bytes) :
    let bs' := putReturns chosen bs
    let requests := Decoder.unlimited.takeAll Frame.toRequest
    let responses := Decoder.unlimited.takeAll Frame.toResponse
    SameOutcome (Request.parse bs) (Request.parse bs') ∧
      SameOutcome (Response.parse bs) (Response.parse bs') ∧
      (List.Forall₂ SameOutcome (requests bs).1 (requests bs').1 ∧
        WithReturns (requests bs).2 (requests bs').2) ∧
      List.Forall₂ SameOutcome (responses bs).1 (responses bs').1 ∧
        WithReturns (responses bs).2 (responses bs').2 := by
  intro bs' requests responses
  have h : WithReturns bs bs' := .putReturns chosen bs
  refine ⟨?_, ?_, ?_, ?_⟩
  · exact Decoder.takeOnly_withReturns Frame.toRequest_error Frame.toRequest_alike h
  · exact Decoder.takeOnly_withReturns Frame.toResponse_error Frame.toResponse_alike h
  · exact Decoder.takeAll_withReturns Frame.toRequest_error Decoder.isRefusal_toRequest
      Frame.toRequest_alike h
  · exact Decoder.takeAll_withReturns Frame.toResponse_error Decoder.isRefusal_toResponse
      Frame.toResponse_alike h

end Courier
