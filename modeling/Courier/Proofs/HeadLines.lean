import Courier.Proofs.MessageInverse
import Mathlib.Data.List.TakeWhile

/-!
# What a head line says

Spaces cut a head line into words, whichever of the Unicode spaces they are and however many stand
together. The first line of a request has exactly two words (`requestWords?_eq_some_iff`). In the
first line of a response everything behind the second word is the reason, and it comes back without
the spaces at its ends.

Main statement: `parse_encode`.
-/

namespace Courier

open Text Wire

namespace Text

/-! ## Words -/

/-- Spaces only, perhaps none. -/
def IsSpaces (cs : List Char) : Prop := ∀ c ∈ cs, isSpace c = true

variable {cs word rest spaces : List Char}

theorem trimStart_spaces (h : IsSpaces spaces) (rest : List Char) :
    trimStart (spaces ++ rest) = trimStart rest :=
  List.dropWhile_append_of_pos h

theorem nextWord?_spaces (h : IsSpaces spaces) (rest : List Char) :
    nextWord? (spaces ++ rest) = nextWord? rest := by
  rw [nextWord?, nextWord?, trimStart_spaces h]

theorem nextWord?_eq_none_iff : nextWord? cs = none ↔ IsSpaces cs := by
  have hspaces : trimStart cs = [] ↔ IsSpaces cs := List.dropWhile_eq_nil_iff
  rw [← hspaces]
  unfold nextWord?
  split
  · rename_i h
    simp [h]
  · rename_i h
    simp [h]

theorem nextWord?_eq_some_iff : nextWord? cs = some (word, rest) ↔
    IsWord word ∧ (∀ c ∈ rest.head?, isSpace c = true) ∧
      ∃ before, IsSpaces before ∧ cs = before ++ (word ++ rest) := by
  constructor
  · intro h
    obtain ⟨hsplit, hword⟩ := nextWord?_eq_some h
    have hbefore : IsSpaces (cs.takeWhile isSpace) := fun c hc =>
      List.all_eq_true.mp List.all_takeWhile c hc
    refine ⟨hword, ?_, cs.takeWhile isSpace, hbefore, ?_⟩
    · unfold nextWord? at h
      split at h
      · cases h
      · simp only [Option.some.injEq, Prod.mk.injEq] at h
        rw [← h.2]
        intro c hc
        rename_i first tail _
        have hstop := List.head?_dropWhile_not (fun c => !isSpace c) (first :: tail)
        rw [Option.mem_def.mp hc] at hstop
        simpa using hstop
    · rw [← hsplit, trimStart, List.takeWhile_append_dropWhile]
  · rintro ⟨hword, hrest, before, hbefore, rfl⟩
    rw [nextWord?_spaces hbefore, nextWord?_append hword hrest]

/-! ## Texts without the spaces at their ends -/

/-- `short` is `whole` without the spaces at both ends. -/
structure IsTrimOf (short whole : List Char) : Prop where
  around : ∃ before after, IsSpaces before ∧ IsSpaces after ∧ whole = before ++ short ++ after
  first : ∀ c ∈ short.head?, isSpace c = false
  last : ∀ c ∈ short.getLast?, isSpace c = false

theorem isTrimOf_trim (cs : List Char) : IsTrimOf (trim cs) cs := by
  have hstop : ∀ {ds : List Char} {c : Char}, c ∈ (ds.dropWhile isSpace).head? →
      isSpace c = false := by
    intro ds c hc
    have hnot := List.head?_dropWhile_not isSpace ds
    rw [Option.mem_def.mp hc] at hnot
    simpa using hnot
  have hspaces : ∀ ds : List Char, IsSpaces (ds.takeWhile isSpace) := fun ds c hc =>
    List.all_eq_true.mp List.all_takeWhile c hc
  have hstart : cs = cs.takeWhile isSpace ++ trimStart cs :=
    List.takeWhile_append_dropWhile.symm
  have hend : trimStart cs = trim cs ++ ((trimStart cs).reverse.takeWhile isSpace).reverse := by
    have hback := List.takeWhile_append_dropWhile (p := isSpace) (l := (trimStart cs).reverse)
    rw [trim, trimEnd, ← List.reverse_append, hback, List.reverse_reverse]
  refine ⟨⟨cs.takeWhile isSpace, ((trimStart cs).reverse.takeWhile isSpace).reverse,
    hspaces cs, ?_, ?_⟩, ?_, ?_⟩
  · intro c hc
    exact hspaces _ c (List.mem_reverse.mp hc)
  · rw [List.append_assoc, ← hend]
    exact hstart
  · intro c hc
    have hfirst : c ∈ (trimStart cs).head? := by
      rw [hend, List.head?_append, Option.mem_def.mp hc]
      rfl
    exact hstop hfirst
  · intro c hc
    rw [trim, trimEnd, List.getLast?_reverse] at hc
    exact hstop hc

/-- Nothing else is such a text. -/
theorem isTrimOf_iff {short whole : List Char} : IsTrimOf short whole ↔ short = trim whole := by
  constructor
  · rintro ⟨⟨before, after, hbefore, hafter, rfl⟩, hfirst, hlast⟩
    rw [trim, List.append_assoc, trimStart_spaces hbefore]
    cases short with
    | nil =>
      have hnil : trimStart after = [] := List.dropWhile_eq_nil_iff.mpr hafter
      rw [List.nil_append, hnil]
      rfl
    | cons c short =>
      have hstart : trimStart (c :: short ++ after) = c :: short ++ after := by
        simp [trimStart, hfirst c rfl]
      have hback : IsSpaces after.reverse := fun d hd => hafter d (List.mem_reverse.mp hd)
      have hfront : ∀ d ∈ (c :: short).reverse.head?, isSpace d = false := by
        rw [List.head?_reverse]
        exact hlast
      rw [hstart, trimEnd, List.reverse_append, (span_run hback hfront).2, List.reverse_reverse]
  · rintro rfl
    exact isTrimOf_trim whole

end Text

/-! ## Request lines -/

namespace Wire

/-- A line of two words, with any spaces around them and some between. -/
structure HasWords (line first second : List Char) : Prop where
  layout : ∃ before between after, IsSpaces before ∧ IsSpaces between ∧ IsSpaces after ∧
    between ≠ [] ∧ line = before ++ first ++ between ++ second ++ after
  isWord_first : IsWord first
  isWord_second : IsWord second

theorem isSpace_head?_append {between : List Char} (hbetween : IsSpaces between)
    (hne : between ≠ []) (rest : List Char) :
    ∀ c ∈ (between ++ rest).head?, isSpace c = true := by
  intro c hc
  obtain ⟨d, cs, rfl⟩ := List.exists_cons_of_ne_nil hne
  obtain rfl : d = c := by simpa using hc
  exact hbetween d (by simp)

/-- Without a space between them two words would be one. -/
theorem ne_nil_of_head?_isSpace {second between after : List Char} (hsecond : IsWord second)
    (hstop : ∀ c ∈ (between ++ (second ++ after)).head?, isSpace c = true) : between ≠ [] := by
  rintro rfl
  obtain ⟨c, cs, rfl⟩ := List.exists_cons_of_ne_nil hsecond.1
  have hspace := hstop c (by simp)
  rw [hsecond.2 c (by simp)] at hspace
  cases hspace

/-- **A request line is a line of two words, whatever the words are.** -/
theorem requestWords?_eq_some_iff {line : List Char} {verb version : String} :
    requestWords? line = some (verb, version) ↔ HasWords line verb.toList version.toList := by
  constructor
  · intro h
    unfold requestWords? at h
    split at h
    · cases h
    rename_i verb' rest hverb
    split at h
    · cases h
    rename_i version' rest' hversion
    split at h
    · rename_i hafter
      simp only [Option.some.injEq, Prod.mk.injEq] at h
      obtain ⟨rfl, rfl⟩ := h
      obtain ⟨hfirst, hstop, before, hbefore, rfl⟩ := nextWord?_eq_some_iff.mp hverb
      obtain ⟨hsecond, -, between, hbetween, rfl⟩ := nextWord?_eq_some_iff.mp hversion
      rw [nextWord?_eq_none_iff] at hafter
      have hne : between ≠ [] := ne_nil_of_head?_isSpace hsecond hstop
      refine ⟨⟨before, between, rest', hbefore, hbetween, hafter, hne, by simp⟩, ?_, ?_⟩
      · simpa using hfirst
      · simpa using hsecond
    · cases h
  · rintro ⟨⟨before, between, after, hbefore, hbetween, hafter, hne, rfl⟩, hfirst, hsecond⟩
    have hverb : nextWord? (before ++ verb.toList ++ between ++ version.toList ++ after) =
        some (verb.toList, between ++ version.toList ++ after) := by
      refine nextWord?_eq_some_iff.mpr ⟨hfirst, ?_, before, hbefore, by simp⟩
      rw [List.append_assoc]
      exact isSpace_head?_append hbetween hne _
    have hversion : nextWord? (between ++ version.toList ++ after) =
        some (version.toList, after) := by
      refine nextWord?_eq_some_iff.mpr ⟨hsecond, ?_, between, hbetween, by simp⟩
      intro c hc
      exact hafter c (List.mem_of_mem_head? hc)
    simp only [requestWords?, hverb, hversion, nextWord?_eq_none_iff.mpr hafter,
      String.ofList_toList]

/-! ## Status lines -/

/-- A line that begins with two words, with spaces before and between them. What follows the second
word is the reason, without the spaces around it. -/
structure HasStatus (line version status reason : List Char) : Prop where
  layout : ∃ before between after, IsSpaces before ∧ IsSpaces between ∧ between ≠ [] ∧
    (∀ c ∈ after.head?, isSpace c = true) ∧ IsTrimOf reason after ∧
    line = before ++ version ++ between ++ status ++ after
  isWord_version : IsWord version
  isWord_status : IsWord status

theorem statusWords?_eq_some_iff {line : List Char} {version status reason : String} :
    statusWords? line = some (version, status, reason) ↔
      HasStatus line version.toList status.toList reason.toList := by
  constructor
  · intro h
    unfold statusWords? at h
    split at h
    · cases h
    rename_i version' rest hversion
    split at h
    · cases h
    rename_i status' after hstatus
    simp only [Option.some.injEq, Prod.mk.injEq] at h
    obtain ⟨rfl, rfl, rfl⟩ := h
    obtain ⟨hfirst, hstop, before, hbefore, rfl⟩ := nextWord?_eq_some_iff.mp hversion
    obtain ⟨hsecond, hafter, between, hbetween, rfl⟩ := nextWord?_eq_some_iff.mp hstatus
    have hne : between ≠ [] := ne_nil_of_head?_isSpace hsecond hstop
    refine ⟨⟨before, between, after, hbefore, hbetween, hne, hafter, ?_, by simp⟩, ?_, ?_⟩
    · simpa using isTrimOf_trim after
    · simpa using hfirst
    · simpa using hsecond
  · rintro ⟨⟨before, between, after, hbefore, hbetween, hne, hafter, hreason, rfl⟩, hfirst, hsecond⟩
    have hversion : nextWord? (before ++ version.toList ++ between ++ status.toList ++ after) =
        some (version.toList, between ++ status.toList ++ after) := by
      refine nextWord?_eq_some_iff.mpr ⟨hfirst, ?_, before, hbefore, by simp⟩
      rw [List.append_assoc]
      exact isSpace_head?_append hbetween hne _
    have hstatus : nextWord? (between ++ status.toList ++ after) = some (status.toList, after) :=
      nextWord?_eq_some_iff.mpr ⟨hsecond, hafter, between, hbetween, by simp⟩
    simp only [statusWords?, hversion, hstatus, ← isTrimOf_iff.mp hreason, String.ofList_toList]

end Wire

/-! ## Responses -/

/-- **What is written for a response parses to it**, whatever its reason holds: each line break in
the reason has become a space, and then the spaces at both ends are gone. -/
theorem Response.parse_encode {r : Response} (hr : r.Portable) :
    let line := r.reason.toList.map fun c => if c = '\r' ∨ c = '\n' then ' ' else c
    Response.parse r.encode = .ok { r with reason := String.ofList (trim line) } ∧
      IsTrimOf (trim line) line := by
  constructor
  · rw [← Response.bytes_frame, Response.parse,
      Decoder.takeOnly_bytes _ (Response.isWhole_frame hr), Response.toResponse_frame hr]
    rfl
  · exact isTrimOf_trim _

/-- A response with a status of its own, a payload, and a reason over several lines that begins and
ends with Unicode spaces. -/
theorem Response.parse_encode_line_breaks :
    Response.parse (Response.encode ⟨"2", ⟨"d\u00e9j\u00e0", by decide⟩,
        "\r\n\u2003no\u00a0room\r\ntoday\u3000\t\u0085", ⟨some "", none, "\r\n",
          some (.object [("", .array [.number (.whole (-1)), .null]), ("\n", .bool true)])⟩⟩)
      = .ok ⟨"2", ⟨"d\u00e9j\u00e0", by decide⟩, "no\u00a0room  today", ⟨some "", none, "\r\n",
          some (.object [("", .array [.number (.whole (-1)), .null]), ("\n", .bool true)])⟩⟩ := by
  refine (Response.parse_encode ⟨?_, rfl, ?_⟩).1.trans ?_
  · exact isWord_of_isToken (by decide)
  · rintro v ⟨⟩
    have hrange : (Json.Number.whole (-1)).InRange := by
      show -(Decimal.twoTo 63 : Int) ≤ -1 ∧ (-1 : Int) < Decimal.twoTo 64
      decide
    have hkeys : Keyed.Ascending [("", Json.Value.array [.number (.whole (-1)), .null]),
        ("\n", .bool true)] := by
      apply List.pairwise_pair.mpr
      decide
    refine ⟨?_, ?_, show 2 < Json.maxDepth by decide⟩
    · exact ⟨hkeys, ⟨trivial, hrange, trivial, trivial⟩, trivial, trivial⟩
    · exact ⟨trivial, ⟨trivial, trivial, trivial, trivial⟩, trivial, trivial⟩
  · simp only [Except.ok.injEq, Response.mk.injEq, and_true, true_and]
    decide +kernel

end Courier
