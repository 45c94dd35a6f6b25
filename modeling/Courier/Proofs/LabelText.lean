import Courier.Metrics.Report
import Courier.Proofs.JsonText

/-!
# Samples as text

A line of a report is a sample: a name, the labels of its series with their values between quotes,
and a number. Values are escaped, so that whatever stands in them the quotes, the line and the
sample end where they should (`Labels.readQuoted_escape`, `Labels.readPairs_render`). Only the names
of labels must be plain.

Main statements: `Sample.read_line`, a line reads back, and `Sample.series_inj`, two series never
look the same.
-/

namespace Courier.Metrics

/-! ## Values between quotes -/

namespace Labels

/-- Puts a text in the place of a character, wherever that character stands. -/
def replaceAll (c : Char) (text : List Char) (cs : List Char) : List Char :=
  cs.flatMap fun d => if d = c then text else [d]

/-- Backslashes are doubled first, and then the others put behind one: a value is escaped by three
replacements in this order. -/
theorem escape_eq_replaceAll (v : List Char) :
    escape v =
      replaceAll '\n' ['\\', 'n']
        (replaceAll '"' ['\\', '"'] (replaceAll '\\' ['\\', '\\'] v)) := by
  induction v with
  | nil => rfl
  | cons c cs ih =>
    unfold replaceAll at ih ⊢
    rw [List.flatMap_cons, List.flatMap_append, List.flatMap_append, ← ih, escape]
    by_cases hslash : c = '\\'
    · rw [if_pos hslash, if_pos hslash]
      rfl
    by_cases hquote : c = '"'
    · rw [if_neg hslash, if_pos hquote, if_neg hslash, List.flatMap_singleton, if_pos hquote]
      rfl
    by_cases hfeed : c = '\n'
    · rw [if_neg hslash, if_neg hquote, if_pos hfeed, if_neg hslash, List.flatMap_singleton,
        if_neg hquote, List.flatMap_singleton, if_pos hfeed]
      rfl
    · rw [if_neg hslash, if_neg hquote, if_neg hfeed, if_neg hslash, List.flatMap_singleton,
        if_neg hquote, List.flatMap_singleton, if_neg hfeed]
      rfl

theorem escape_of_forall {v : List Char} (h : ∀ c ∈ v, c ≠ '\\' ∧ c ≠ '"' ∧ c ≠ '\n') :
    escape v = v := by
  induction v with
  | nil => rfl
  | cons c cs ih =>
    obtain ⟨⟨hslash, hquote, hfeed⟩, hcs⟩ := List.forall_mem_cons.mp h
    rw [escape, if_neg hslash, if_neg hquote, if_neg hfeed, ih hcs]

theorem feed_notMem_escape (v : List Char) : '\n' ∉ escape v := by
  fun_induction escape v with
  | case1 => exact List.not_mem_nil
  | case2 cs ih => simpa using ih
  | case3 cs _ ih => simpa using ih
  | case4 cs _ _ ih => simpa using ih
  | case5 c cs _ _ hfeed ih => simpa [Ne.symm hfeed] using ih

/-- The value before the closing quote, and what stands behind that quote. -/
def readQuoted : List Char → Option (List Char × List Char)
  | [] => none
  | '"' :: rest => some ([], rest)
  | ['\\'] => none
  | '\\' :: c :: rest =>
      (readQuoted rest).map fun (v, rest) => ((if c = 'n' then '\n' else c) :: v, rest)
  | c :: rest => (readQuoted rest).map fun (v, rest) => (c :: v, rest)

theorem readQuoted_plain {c : Char} (hslash : c ≠ '\\') (hquote : c ≠ '"') (rest : List Char) :
    readQuoted (c :: rest) = (readQuoted rest).map fun (v, rest) => (c :: v, rest) := by
  rw [readQuoted]
  · exact hquote
  · exact fun h => absurd h hslash
  · exact fun _ _ h => absurd h hslash

/-- **What stands between the quotes reads back.** -/
theorem readQuoted_escape (v rest : List Char) :
    readQuoted (escape v ++ '"' :: rest) = some (v, rest) := by
  fun_induction escape v with
  | case1 => rfl
  | case2 cs ih => simp [readQuoted, ih]
  | case3 cs _ ih => simp [readQuoted, ih]
  | case4 cs _ _ ih => simp [readQuoted, ih]
  | case5 c cs hslash hquote _ ih =>
    rw [List.cons_append, readQuoted_plain hslash hquote, ih]
    rfl

theorem escape_inj {v w : List Char} : escape v = escape w ↔ v = w := by
  constructor
  · intro h
    have hread := readQuoted_escape v []
    rw [h, readQuoted_escape w []] at hread
    exact (congrArg Prod.fst (Option.some.inj hread)).symm
  · rintro rfl
    rfl

/-! ## Labels -/

def isNameChar (c : Char) : Bool := c.isAlphanum || c == '_'

def isPlainName (name : String) : Bool := name.toList.all isNameChar

/-- All names are plain ones. The values may be anything. -/
def IsPlain (labels : Labels) : Prop := ∀ p ∈ labels.pairs, isPlainName p.1 = true

theorem isPlain_ofList {pairs : List (String × String)}
    (h : ∀ p ∈ pairs, isPlainName p.1 = true) : IsPlain (.ofList pairs) :=
  fun p hp => h p (List.mem_mergeSort.mp hp)

def readPair (text : List Char) : Option ((String × String) × List Char) :=
  match text.dropWhile isNameChar with
  | '=' :: '"' :: rest =>
      (readQuoted rest).map fun (v, rest) =>
        ((String.ofList (text.takeWhile isNameChar), String.ofList v), rest)
  | _ => none

theorem readPair_renderPair {p : String × String} (h : isPlainName p.1 = true) (rest : List Char) :
    readPair (renderPair p ++ rest) = some (p, rest) := by
  have hequals : ∀ c ∈ ('=' :: '"' :: (escape p.2.toList ++ '"' :: rest)).head?,
      isNameChar c = false := by
    rintro c ⟨⟩
    rfl
  have hspan := Text.span_run (List.all_eq_true.mp h) hequals
  have htext : renderPair p ++ rest =
      p.1.toList ++ '=' :: '"' :: (escape p.2.toList ++ '"' :: rest) := by
    simp [renderPair]
  rw [htext, readPair, hspan.1, hspan.2]
  show Option.map _ (readQuoted (escape p.2.toList ++ '"' :: rest)) = _
  rw [readQuoted_escape, Option.map_some, String.ofList_toList]
  dsimp only
  rw [String.ofList_toList]

theorem length_readQuoted {text v rest : List Char} (h : readQuoted text = some (v, rest)) :
    rest.length < text.length := by
  fun_induction readQuoted text generalizing v with
  | case1 => cases h
  | case2 tail =>
    cases h
    exact Nat.lt_succ_self _
  | case3 => cases h
  | case4 c tail ih =>
    obtain ⟨⟨w, tail'⟩, hread, heq⟩ := Option.map_eq_some_iff.mp h
    cases heq
    exact Nat.lt_succ_of_lt (Nat.lt_succ_of_lt (ih hread))
  | case5 c tail _ _ _ ih =>
    obtain ⟨⟨w, tail'⟩, hread, heq⟩ := Option.map_eq_some_iff.mp h
    cases heq
    exact Nat.lt_succ_of_lt (ih hread)

theorem length_readPair {text rest : List Char} {p : String × String}
    (h : readPair text = some (p, rest)) : rest.length < text.length := by
  unfold readPair at h
  split at h
  · rename_i tail hdrop
    obtain ⟨⟨v, tail'⟩, hread, heq⟩ := Option.map_eq_some_iff.mp h
    cases heq
    have hshorter := length_readQuoted hread
    have hsuffix := (List.dropWhile_suffix isNameChar (l := text)).length_le
    rw [hdrop, List.length_cons, List.length_cons] at hsuffix
    omega
  · cases h

/-- One or more labels with commas between them, and what stands behind them. -/
def readPairs (text : List Char) : Option (List (String × String) × List Char) :=
  match h : readPair text with
  | none => none
  | some (p, ',' :: rest) =>
      have := length_readPair h
      (readPairs rest).map fun (ps, rest) => (p :: ps, rest)
  | some (p, rest) => some ([p], rest)
termination_by text.length
decreasing_by
  rw [List.length_cons] at this
  omega

theorem readPairs_last {text rest : List Char} {p : String × String}
    (h : readPair text = some (p, rest)) (hrest : rest.head? ≠ some ',') :
    readPairs text = some ([p], rest) := by
  rw [readPairs]
  split
  · simp_all
  · rename_i heq
    rw [h] at heq
    cases heq
    exact absurd rfl hrest
  · simp_all

theorem readPairs_comma {text rest : List Char} {p : String × String}
    (h : readPair text = some (p, ',' :: rest)) :
    readPairs text = (readPairs rest).map fun (ps, rest) => (p :: ps, rest) := by
  rw [readPairs]
  split <;> simp_all

theorem render_singleton (p : String × String) : render ⟨[p]⟩ = renderPair p := List.append_nil _

theorem render_cons (p q : String × String) (ps : List (String × String)) :
    render ⟨p :: q :: ps⟩ = renderPair p ++ ',' :: render ⟨q :: ps⟩ := rfl

/-- **Labels read back** that stand before a closing brace. -/
theorem readPairs_render {p : String × String} {ps : List (String × String)}
    (h : ∀ q ∈ p :: ps, isPlainName q.1 = true) (rest : List Char) :
    readPairs (render ⟨p :: ps⟩ ++ '\x7d' :: rest) = some (p :: ps, '\x7d' :: rest) := by
  induction ps generalizing p with
  | nil =>
    rw [render_singleton]
    exact readPairs_last (readPair_renderPair (h p List.mem_cons_self) _) (by simp)
  | cons q ps ih =>
    obtain ⟨hp, hps⟩ := List.forall_mem_cons.mp h
    rw [render_cons, List.append_assoc, List.cons_append,
      readPairs_comma (readPair_renderPair hp _), ih hps]
    rfl

theorem render_ne_nil (p : String × String) (ps : List (String × String)) :
    render ⟨p :: ps⟩ ≠ [] := by
  cases ps with
  | nil => simp [render_singleton, renderPair]
  | cons q ps => simp [render_cons]

theorem render_concat (ps : List (String × String)) (p : String × String) :
    render ⟨ps ++ [p]⟩ =
      (if (render ⟨ps⟩).isEmpty then [] else render ⟨ps⟩ ++ [',']) ++ renderPair p := by
  have hfull : ∀ q qs, ¬ (render ⟨q :: qs⟩).isEmpty = true := by
    intro q qs hempty
    exact render_ne_nil q qs (List.isEmpty_iff.mp hempty)
  induction ps with
  | nil => exact render_singleton p
  | cons q ps ih =>
    rw [if_neg (hfull q ps)]
    cases ps with
    | nil => simp [render_cons, render_singleton]
    | cons r ps =>
      rw [if_neg (hfull r ps), List.cons_append] at ih
      rw [List.cons_append, List.cons_append, render_cons, render_cons, ih]
      simp

theorem feed_notMem_render {ps : List (String × String)}
    (h : ∀ p ∈ ps, isPlainName p.1 = true) : '\n' ∉ render ⟨ps⟩ := by
  have hpair : ∀ p : String × String, isPlainName p.1 = true → '\n' ∉ renderPair p := by
    intro p hp hmem
    have hname : '\n' ∉ p.1.toList := by
      intro hfeed
      exact absurd (List.all_eq_true.mp hp _ hfeed) (by decide)
    simp [renderPair, hname, feed_notMem_escape] at hmem
  induction ps with
  | nil => exact List.not_mem_nil
  | cons p ps ih =>
    obtain ⟨hp, hps⟩ := List.forall_mem_cons.mp h
    cases ps with
    | nil => exact (render_singleton p).symm ▸ hpair p hp
    | cons q ps =>
      rw [render_cons, List.mem_append, List.mem_cons]
      rintro (hmem | hcomma | hmem)
      · exact hpair p hp hmem
      · exact absurd hcomma (by decide)
      · exact ih hps hmem

end Labels

/-! ## Samples -/

/-- A line of a report that tells a number: its name, the labels of its series in order, and the
number as written. -/
structure Sample where
  name : String
  labels : List (String × String)
  number : List Char

namespace Sample

def series (s : Sample) : List Char := seriesName s.name.toList (Labels.render ⟨s.labels⟩)

def line (s : Sample) : List Char := valueLine s.name.toList (Labels.render ⟨s.labels⟩) s.number

/-- All names are plain, and the number is one line. The values of the labels may be anything. -/
structure IsPlain (s : Sample) : Prop where
  name : Labels.isPlainName s.name = true
  labels : ∀ p ∈ s.labels, Labels.isPlainName p.1 = true
  number : '\n' ∉ s.number

def read (text : List Char) : Option Sample :=
  let name := String.ofList (text.takeWhile Labels.isNameChar)
  match text.dropWhile Labels.isNameChar with
  | ' ' :: number => some ⟨name, [], number⟩
  | '\x7b' :: rest =>
      match Labels.readPairs rest with
      | some (ps, '\x7d' :: ' ' :: number) => some ⟨name, ps, number⟩
      | _ => none
  | _ => none

variable {s t : Sample}

/-- **A line reads back.** -/
theorem read_line (h : s.IsPlain) : read s.line = some s := by
  obtain ⟨name, labels, number⟩ := s
  obtain ⟨hname, hlabels, -⟩ := h
  have hname := List.all_eq_true.mp hname
  cases labels with
  | nil =>
    have hblank : ∀ c ∈ (' ' :: number).head?, Labels.isNameChar c = false := by
      rintro c ⟨⟩
      rfl
    have hspan := Text.span_run hname hblank
    have hline : line ⟨name, [], number⟩ = name.toList ++ ' ' :: number := rfl
    simp only [hline, read, hspan.1, hspan.2, String.ofList_toList]
  | cons p ps =>
    have hbrace : ∀ c ∈ ('\x7b' :: (Labels.render ⟨p :: ps⟩ ++ '\x7d' :: ' ' :: number)).head?,
        Labels.isNameChar c = false := by
      rintro c ⟨⟩
      rfl
    have hspan := Text.span_run hname hbrace
    have hline : line ⟨name, p :: ps, number⟩ =
        name.toList ++ '\x7b' :: (Labels.render ⟨p :: ps⟩ ++ '\x7d' :: ' ' :: number) := by
      simp [line, valueLine, seriesName, Labels.render_ne_nil]
    simp only [hline, read, hspan.1, hspan.2, Labels.readPairs_render hlabels, String.ofList_toList]

/-- **Two series never look the same.** -/
theorem series_inj (hs : s.IsPlain) (ht : t.IsPlain) (h : s.series = t.series) :
    s.name = t.name ∧ s.labels = t.labels := by
  have hread : ∀ {u : Sample}, u.IsPlain →
      read (u.series ++ [' ']) = some ⟨u.name, u.labels, []⟩ := by
    intro u hu
    exact read_line (s := ⟨u.name, u.labels, []⟩) ⟨hu.name, hu.labels, List.not_mem_nil⟩
  have hboth := hread hs
  rw [h, hread ht] at hboth
  obtain ⟨hname, hlabels, -⟩ := Sample.mk.inj (Option.some.inj hboth)
  exact ⟨hname.symm, hlabels.symm⟩

theorem feed_notMem_line (h : s.IsPlain) : '\n' ∉ s.line := by
  have hname : '\n' ∉ s.name.toList := by
    intro hfeed
    exact absurd (List.all_eq_true.mp h.name _ hfeed) (by decide)
  have hlabels := Labels.feed_notMem_render h.labels
  unfold line valueLine seriesName
  split <;> simp [hname, hlabels, h.number]

end Sample

end Courier.Metrics
