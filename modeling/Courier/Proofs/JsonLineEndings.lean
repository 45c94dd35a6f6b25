import Courier.Json.Step

/-!
# Line endings in JSON

A JSON text means the same with a carriage return before some of its line feeds. Between tokens both
bytes are blanks, and inside a token either is a fault. So two readers that walk two such texts stay
in step (`Agree`), until both have the same value or both fail.

Main statement: `read_withReturns`.
-/

namespace Courier

namespace Text

/-- The bytes with a carriage return immediately before each line feed whose number is chosen. -/
def putReturns (chosen : Nat → Bool) : Bytes → Bytes
  | [] => []
  | b :: bs =>
      if b = 10 then
        (if chosen 0 then [13, 10] else [10]) ++ putReturns (fun n => chosen (n + 1)) bs
      else b :: putReturns chosen bs

/-- The second bytes are the first with a carriage return put before some of the line feeds. -/
inductive WithReturns : Bytes → Bytes → Prop
  | nil : WithReturns [] []
  | same {bs bs' : Bytes} (b : UInt8) : WithReturns bs bs' → WithReturns (b :: bs) (b :: bs')
  | put {bs bs' : Bytes} : WithReturns bs bs' → WithReturns (10 :: bs) (13 :: 10 :: bs')

namespace WithReturns

variable {bs bs' cs cs' : Bytes} {p : UInt8 → Bool}

theorem refl : ∀ bs, WithReturns bs bs
  | [] => .nil
  | b :: bs => .same b (refl bs)

theorem putReturns (chosen : Nat → Bool) (bs : Bytes) :
    WithReturns bs (putReturns chosen bs) := by
  induction bs generalizing chosen with
  | nil => exact .nil
  | cons b bs ih =>
    rw [Text.putReturns]
    split
    · rename_i hb
      subst hb
      split
      · exact .put (ih _)
      · exact .same 10 (ih _)
    · exact .same b (ih chosen)

theorem append (h : WithReturns bs bs') (hcs : WithReturns cs cs') :
    WithReturns (bs ++ cs) (bs' ++ cs') := by
  induction h with
  | nil => exact hcs
  | same b _ ih => exact .same b ih
  | put _ ih => exact .put ih

theorem all_eq (hfeed : p 10 = true) (hreturn : p 13 = true) (h : WithReturns bs bs') :
    bs'.all p = bs.all p := by
  induction h with
  | nil => rfl
  | same b _ ih => rw [List.all_cons, List.all_cons, ih]
  | put _ ih => rw [List.all_cons, List.all_cons, List.all_cons, ih, hfeed, hreturn, Bool.true_and]

/-- What stops at line feeds and carriage returns alike takes the same. -/
theorem span (hfeed : p 10 = false) (hreturn : p 13 = false) (h : WithReturns bs bs') :
    bs'.takeWhile p = bs.takeWhile p ∧ WithReturns (bs.dropWhile p) (bs'.dropWhile p) := by
  induction h with
  | nil => exact ⟨rfl, .nil⟩
  | same b h ih =>
    obtain ⟨htake, hdrop⟩ := ih
    cases hb : p b with
    | true =>
      simp only [List.takeWhile_cons, List.dropWhile_cons, hb, if_true, htake, hdrop, and_self]
    | false =>
      simp only [List.takeWhile_cons, List.dropWhile_cons, hb, Bool.false_eq_true, if_false]
      exact ⟨trivial, .same b h⟩
  | put h ih =>
    simp only [List.takeWhile_cons, List.dropWhile_cons, hfeed, hreturn, Bool.false_eq_true,
      if_false]
    exact ⟨trivial, .put h⟩

theorem dropWhile (hfeed : p 10 = true) (hreturn : p 13 = true) (h : WithReturns bs bs') :
    WithReturns (bs.dropWhile p) (bs'.dropWhile p) := by
  induction h with
  | nil => exact .nil
  | same b h ih =>
    rw [List.dropWhile_cons, List.dropWhile_cons]
    split
    · exact ih
    · exact .same b h
  | put _ ih =>
    rw [List.dropWhile_cons, List.dropWhile_cons, List.dropWhile_cons, if_pos hfeed,
      if_pos hreturn, if_pos hfeed]
    exact ih

end WithReturns

end Text

namespace Json

open Text

variable {α β : Type} {bs bs' : Bytes}

/-! ## Readers in step -/

/-- Both have read the same and have left the same up to carriage returns, or both have failed. -/
inductive Agree : Outcome α → Outcome α → Prop
  | ok {a : α} {rest rest' : Bytes} :
      WithReturns rest rest' → Agree (.ok (a, rest)) (.ok (a, rest'))
  | fault {f f' : Fault} : Agree (.error f) (.error f')

theorem agree_of_faults {x y : Outcome α} (hx : ∃ f, x = .error f) (hy : ∃ f, y = .error f) :
    Agree x y := by
  obtain ⟨f, rfl⟩ := hx
  obtain ⟨f', rfl⟩ := hy
  exact .fault

theorem Agree.cases {x y : Outcome α} (h : Agree x y) :
    (∃ f f', x = .error f ∧ y = .error f') ∨
      ∃ a rest rest', x = .ok (a, rest) ∧ y = .ok (a, rest') ∧ WithReturns rest rest' := by
  cases h with
  | fault => exact .inl ⟨_, _, rfl, rfl⟩
  | ok h => exact .inr ⟨_, _, _, rfl, rfl, h⟩

theorem agree_readWord {word : Bytes} (hfeed : 10 ∉ word) (hreturn : 13 ∉ word)
    (h : WithReturns bs bs') : Agree (readWord word bs) (readWord word bs') := by
  induction word generalizing bs bs' with
  | nil => exact .ok h
  | cons w ws ih =>
    rw [List.mem_cons, not_or] at hfeed hreturn
    cases h with
    | nil => exact .fault
    | same b h =>
      rw [readWord, readWord]
      split
      · exact ih hfeed.2 hreturn.2 h
      · exact .fault
    | put h =>
      rw [readWord, readWord, if_neg hfeed.1, if_neg hreturn.1]
      exact .fault

/-! ## Strings -/

theorem readHex4_fault {b : UInt8} (hmem : b ∈ bs.take 4) (hb : hexValue? b = none) :
    ∃ f, readHex4 bs = .error f := by
  unfold readHex4
  split
  · rename_i a b' c d rest
    split
    · rename_i ha hb' hc hd
      simp only [List.take_succ_cons, List.take_zero, List.mem_cons, List.not_mem_nil,
        or_false] at hmem
      rcases hmem with rfl | rfl | rfl | rfl <;> simp_all
    · exact ⟨_, rfl⟩
  · exact ⟨_, rfl⟩

theorem agree_readHex4 (h : WithReturns bs bs') : Agree (readHex4 bs) (readHex4 bs') := by
  -- a line feed among the four is no digit, and neither is the carriage return in its place
  have hfeed : hexValue? 10 = none := by decide
  have hreturn : hexValue? 13 = none := by decide
  cases h with
  | nil => exact .fault
  | put h =>
    exact agree_of_faults (readHex4_fault (by simp) hfeed) (readHex4_fault (by simp) hreturn)
  | same a h =>
  cases h with
  | nil => exact .fault
  | put h =>
    exact agree_of_faults (readHex4_fault (by simp) hfeed) (readHex4_fault (by simp) hreturn)
  | same b h =>
  cases h with
  | nil => exact .fault
  | put h =>
    exact agree_of_faults (readHex4_fault (by simp) hfeed) (readHex4_fault (by simp) hreturn)
  | same c h =>
  cases h with
  | nil => exact .fault
  | put h =>
    exact agree_of_faults (readHex4_fault (by simp) hfeed) (readHex4_fault (by simp) hreturn)
  | same d h =>
    simp only [readHex4]
    split
    · exact .ok h
    · exact .fault

theorem readTrailing_fault {lead : Nat} {b : UInt8} (hb : b ≠ 92) (bs : Bytes) :
    ∃ f, readTrailing lead (b :: bs) = .error f := by
  cases bs with
  | nil => exact ⟨_, if_neg hb⟩
  | cons c rest => exact ⟨_, if_pos hb⟩

theorem agree_readTrailing (lead : Nat) (h : WithReturns bs bs') :
    Agree (readTrailing lead bs) (readTrailing lead bs') := by
  cases h with
  | nil => exact .fault
  | put h =>
    exact agree_of_faults (readTrailing_fault (by decide) _) (readTrailing_fault (by decide) _)
  | same b h =>
    by_cases hb : b = 92
    · subst hb
      cases h with
      | nil => exact .fault
      | put h => exact .fault
      | same c h =>
        simp only [readTrailing]
        split
        · exact .fault
        split
        · exact .fault
        refine (agree_readHex4 h).casesOn (fun {trail rest rest'} h => ?_) .fault
        dsimp only
        split
        · exact .ok h
        · exact .fault
    · exact agree_of_faults (readTrailing_fault hb _) (readTrailing_fault hb _)

theorem agree_readCodePoint (h : WithReturns bs bs') :
    Agree (readCodePoint bs) (readCodePoint bs') := by
  unfold readCodePoint
  refine (agree_readHex4 h).casesOn (fun {n rest rest'} h => ?_) .fault
  dsimp only
  split
  · exact .fault
  split
  · exact agree_readTrailing _ h
  · exact .ok h

theorem agree_readEscape (h : WithReturns bs bs') : Agree (readEscape bs) (readEscape bs') := by
  cases h with
  | nil => exact .fault
  | put h => exact .fault
  | same b h =>
    simp only [readEscape]
    cases shortEscape? b with
    | some c => exact .ok h
    | none =>
      dsimp only
      split
      · exact (agree_readCodePoint h).casesOn .ok .fault
      · exact .fault

theorem readOctetsOnto_cons (done : Bytes) (b : UInt8) (rest : Bytes) :
    readOctetsOnto done (b :: rest) =
      if b = 34 then .ok (done.reverse, rest)
      else if b = 92 then
        match readEscape rest with
        | .error f => .error f
        | .ok (c, rest') => readOctetsOnto ((Utf8.encodeChar c).reverse ++ done) rest'
      else if b < 32 then failAt .controlInString rest
      else readOctetsOnto (b :: done) rest := by
  rw [readOctetsOnto]
  split
  · rfl
  split
  · split <;> rename_i hescape <;> simp only [hescape]
  · rfl

theorem agree_readOctetsOnto (done : Bytes) (h : WithReturns bs bs') :
    Agree (readOctetsOnto done bs) (readOctetsOnto done bs') := by
  induction hn : bs.length using Nat.strongRecOn generalizing done bs bs' with
  | ind n ih =>
    cases h with
    | nil =>
      rw [readOctetsOnto]
      exact .fault
    | put h =>
      rw [readOctetsOnto_cons, readOctetsOnto_cons]
      exact .fault
    | @same rest rest' b h =>
      rw [readOctetsOnto_cons, readOctetsOnto_cons]
      rw [List.length_cons] at hn
      split
      · exact .ok h
      split
      · rcases (agree_readEscape h).cases with
          ⟨f, f', hescape, hy⟩ | ⟨c, tail, tail', hescape, hy, h⟩
        · simp only [hescape, hy]
          exact .fault
        simp only [hescape, hy]
        have := length_readEscape hescape
        exact ih tail.length (by omega) _ h rfl
      split
      · exact .fault
      · exact ih rest.length (by omega) _ h rfl

theorem agree_readString (h : WithReturns bs bs') : Agree (readString bs) (readString bs') := by
  unfold readString
  refine (agree_readOctetsOnto [] h).casesOn (fun {octets rest rest'} h => ?_) .fault
  dsimp only
  cases Utf8.decode? octets with
  | some cs => exact .ok h
  | none => exact .fault

/-! ## Numbers -/

section Numbers

variable {positive : Bool} {significand : Nat}

theorem digits_withReturns (h : WithReturns bs bs') :
    bs'.takeWhile isDigit = bs.takeWhile isDigit ∧
      WithReturns (bs.dropWhile isDigit) (bs'.dropWhile isDigit) := by
  have hfeed : isDigit 10 = false := by decide
  have hreturn : isDigit 13 = false := by decide
  exact h.span hfeed hreturn

theorem agree_finishReal (exponent : Int) (h : WithReturns bs bs') :
    Agree (finishReal positive significand exponent bs)
      (finishReal positive significand exponent bs') := by
  unfold finishReal
  cases scale? significand exponent with
  | some x => exact .ok h
  | none => exact .fault

theorem agree_finishWhole (h : WithReturns bs bs') :
    Agree (finishWhole positive significand bs) (finishWhole positive significand bs') := by
  unfold finishWhole
  split
  · exact .ok h
  split
  · exact .ok h
  · exact agree_finishReal 0 h

theorem exponentSign_withReturns (h : WithReturns bs bs') :
    (exponentSign bs').1 = (exponentSign bs).1 ∧
      WithReturns (exponentSign bs).2 (exponentSign bs').2 := by
  cases h with
  | nil => exact ⟨rfl, .nil⟩
  | put h => exact ⟨rfl, .put h⟩
  | same b h =>
    by_cases hplus : b = 43
    · subst hplus
      exact ⟨rfl, h⟩
    by_cases hminus : b = 45
    · subst hminus
      exact ⟨rfl, h⟩
    have hnone : ∀ tail, exponentSign (b :: tail) = (true, b :: tail) := by
      intro tail
      unfold exponentSign
      split <;> simp_all
    rw [hnone, hnone]
    exact ⟨rfl, .same b h⟩

theorem agree_readExponentDigits (start : Int) (up : Bool) (h : WithReturns bs bs') :
    Agree (readExponentDigits positive significand start up bs)
      (readExponentDigits positive significand start up bs') := by
  obtain ⟨htake, hdrop⟩ := digits_withReturns h
  cases h with
  | nil => exact .fault
  | put h => exact .fault
  | same b h =>
    unfold readExponentDigits
    dsimp only
    split
    · rw [htake]
      split
      · exact agree_finishReal _ hdrop
      split
      · exact .fault
      · exact .ok hdrop
    · exact .fault

theorem agree_readExponent (start : Int) (h : WithReturns bs bs') :
    Agree (readExponent positive significand start bs)
      (readExponent positive significand start bs') := by
  obtain ⟨hsign, hrest⟩ := exponentSign_withReturns h
  unfold readExponent
  rw [show exponentSign bs' = ((exponentSign bs).1, (exponentSign bs').2) from
    Prod.ext hsign rfl]
  exact agree_readExponentDigits start _ hrest

theorem agree_readPlaces (start : Int) (h : WithReturns bs bs') :
    Agree (readPlaces positive significand start bs)
      (readPlaces positive significand start bs') := by
  obtain ⟨htake, hdrop⟩ := digits_withReturns h
  unfold readPlaces
  rw [htake]
  dsimp only
  generalize bs.dropWhile isDigit = rest at hdrop ⊢
  generalize bs'.dropWhile isDigit = rest' at hdrop ⊢
  cases bs.takeWhile isDigit with
  | nil => cases hdrop <;> exact .fault
  | cons d ds =>
    cases hdrop with
    | nil => exact agree_finishReal _ .nil
    | put h => exact agree_finishReal _ (.put h)
    | same b h =>
      dsimp only
      split
      · exact agree_readExponent _ h
      · exact agree_finishReal _ (.same b h)

theorem agree_readTail (surplus : Nat) (h : WithReturns bs bs') :
    Agree (readTail positive significand surplus bs)
      (readTail positive significand surplus bs') := by
  have hfinish : ∀ {cs cs'}, WithReturns cs cs' →
      Agree (if surplus = 0 then finishWhole positive significand cs
          else finishReal positive significand surplus cs)
        (if surplus = 0 then finishWhole positive significand cs'
          else finishReal positive significand surplus cs') := by
    intro cs cs' h
    split
    · exact agree_finishWhole h
    · exact agree_finishReal _ h
  cases h with
  | nil => exact hfinish .nil
  | put h => exact hfinish (.put h)
  | same b h =>
    by_cases hpoint : b = 46
    · subst hpoint
      exact agree_readPlaces _ h
    by_cases hsmall : b = 101
    · subst hsmall
      exact agree_readExponent _ h
    by_cases hlarge : b = 69
    · subst hlarge
      exact agree_readExponent _ h
    -- the byte is the same in both texts, so that both take the same of the four ways
    have hother : ∀ tail, readTail positive significand surplus (b :: tail) =
        if surplus = 0 then finishWhole positive significand (b :: tail)
        else finishReal positive significand surplus (b :: tail) := by
      intro tail
      unfold readTail
      split <;> simp_all
    rw [hother, hother]
    exact hfinish (.same b h)

theorem agree_readNumber (positive : Bool) (h : WithReturns bs bs') :
    Agree (readNumber positive bs) (readNumber positive bs') := by
  obtain ⟨htake, hdrop⟩ := digits_withReturns h
  cases h with
  | nil => exact .fault
  | put h => exact .fault
  | same b h =>
    unfold readNumber
    dsimp only
    split
    · cases h with
      | nil => exact agree_readTail 0 .nil
      | put h => exact agree_readTail 0 (.put h)
      | same c h =>
        dsimp only
        split
        · exact .fault
        · exact agree_readTail 0 (.same c h)
    split
    · rw [htake]
      exact agree_readTail _ hdrop
    · exact .fault

end Numbers

/-! ## Values -/

/-- Behind blanks stands the same byte in both texts, or both have ended. -/
theorem skipBlanks_withReturns (h : WithReturns bs bs') :
    (skipBlanks bs = [] ∧ skipBlanks bs' = []) ∨ ∃ b rest rest',
      skipBlanks bs = b :: rest ∧ skipBlanks bs' = b :: rest' ∧ WithReturns rest rest' := by
  have hfeed : isBlank 10 = true := by decide
  have hreturn : isBlank 13 = true := by decide
  have hskip := h.dropWhile hfeed hreturn
  have hhead := List.head?_dropWhile_not isBlank bs
  unfold skipBlanks
  generalize bs.dropWhile isBlank = cs at hskip hhead ⊢
  generalize bs'.dropWhile isBlank = cs' at hskip ⊢
  cases hskip with
  | nil => exact .inl ⟨rfl, rfl⟩
  | same b h => exact .inr ⟨b, _, _, rfl, rfl, h⟩
  | put h =>
    rw [List.head?_cons] at hhead
    simp [hfeed] at hhead

/-- A reader that goes on behind blanks. The first byte there is the same in both texts. -/
theorem agree_skipBlanks {flaw : Flaw} {next next' : UInt8 → Bytes → Outcome α}
    (h : WithReturns bs bs')
    (hnext : ∀ b rest rest', WithReturns rest rest' → Agree (next b rest) (next' b rest')) :
    Agree (match skipBlanks bs with | [] => failAt flaw [] | b :: rest => next b rest)
      (match skipBlanks bs' with | [] => failAt flaw [] | b :: rest => next' b rest) := by
  rcases skipBlanks_withReturns h with ⟨hx, hy⟩ | ⟨b, rest, rest', hx, hy, hrest⟩
  · rw [hx, hy]
    exact .fault
  · rw [hx, hy]
    exact hnext b rest rest' hrest

theorem agree_readKey (h : WithReturns bs bs') : Agree (readKey bs) (readKey bs') := by
  unfold readKey
  refine (agree_readString h).casesOn (fun {key rest rest'} h => ?_) .fault
  apply agree_skipBlanks h
  intro b tail tail' h
  split
  · exact .ok h
  · exact .fault

theorem agree_readScalar (b : UInt8) (h : WithReturns bs bs') :
    Agree (readScalar b bs) (readScalar b bs') := by
  have hnull : Agree (readWord [117, 108, 108] bs) (readWord [117, 108, 108] bs') :=
    agree_readWord (by decide) (by decide) h
  have htrue : Agree (readWord [114, 117, 101] bs) (readWord [114, 117, 101] bs') :=
    agree_readWord (by decide) (by decide) h
  have hfalse : Agree (readWord [97, 108, 115, 101] bs) (readWord [97, 108, 115, 101] bs') :=
    agree_readWord (by decide) (by decide) h
  have hminus := agree_readNumber false h
  have hdigit := agree_readNumber true (.same b h)
  have hstring := agree_readString h
  unfold readScalar
  split
  · exact hnull.casesOn .ok .fault
  split
  · exact htrue.casesOn .ok .fault
  split
  · exact hfalse.casesOn .ok .fault
  split
  · exact hminus.casesOn .ok .fault
  split
  · exact hdigit.casesOn .ok .fault
  split
  · exact hstring.casesOn .ok .fault
  · exact .fault

/-! ## Steps and whole values -/

section Steps

variable {limit : Nat} {stack : List Pending}

theorem agree_openList (h : WithReturns bs bs') :
    Agree (openList limit stack bs) (openList limit stack bs') := by
  unfold openList
  split
  · exact .fault
  apply agree_skipBlanks h
  intro c rest rest' h
  split
  · exact .ok h
  · exact .ok (.same c h)

theorem agree_openField (fields : Keyed Value) (h : WithReturns bs bs') :
    Agree (openField stack fields bs) (openField stack fields bs') := by
  unfold openField
  exact (agree_readKey h).casesOn .ok .fault

theorem agree_openObject (h : WithReturns bs bs') :
    Agree (openObject limit stack bs) (openObject limit stack bs') := by
  unfold openObject
  split
  · exact .fault
  apply agree_skipBlanks h
  intro c rest rest' h
  split
  · exact .ok h
  split
  · exact agree_openField [] h
  · exact .fault

theorem agree_stepValue (h : WithReturns bs bs') :
    Agree (stepValue limit stack bs) (stepValue limit stack bs') := by
  apply agree_skipBlanks h
  intro b rest rest' h
  split
  · exact agree_openList h
  split
  · exact agree_openObject h
  · exact (agree_readScalar b h).casesOn .ok .fault

theorem agree_stepItem (items : List Value) (h : WithReturns bs bs') :
    Agree (stepItem stack items bs) (stepItem stack items bs') := by
  apply agree_skipBlanks h
  intro b rest rest' h
  split
  · exact .ok h
  split
  · apply agree_skipBlanks h
    intro c tail tail' h
    split
    · exact .fault
    · exact .ok (.same c h)
  · exact .fault

theorem agree_stepField (fields : Keyed Value) (h : WithReturns bs bs') :
    Agree (stepField stack fields bs) (stepField stack fields bs') := by
  apply agree_skipBlanks h
  intro b rest rest' h
  split
  · exact .ok h
  split
  · apply agree_skipBlanks h
    intro c tail tail' h
    split
    · exact agree_openField fields h
    split
    · exact .fault
    · exact .fault
  · exact .fault

theorem Agree.goOn {x y : Outcome Stance} (h : Agree x y)
    (hread : ∀ s rest, x = .ok (s, rest) → ∀ rest', WithReturns rest rest' →
      Agree (s.read limit rest) (s.read limit rest')) :
    Agree (Stance.goOn limit x) (Stance.goOn limit y) := by
  cases h with
  | fault => exact .fault
  | ok hrest => exact hread _ _ rfl _ hrest

/-- The readers stay in step through all the containers. -/
theorem agree_read (s : Stance) (bs : Bytes) :
    ∀ bs', WithReturns bs bs' → Agree (s.read limit bs) (s.read limit bs') := by
  induction s, bs using read_induction limit with
  | done v bs =>
    intro bs' h
    rw [Stance.read_done, Stance.read_done]
    exact .ok h
  | value stack bs ih =>
    intro bs' h
    show Agree (readValue limit stack bs) (readValue limit stack bs')
    rw [readValue_eq, readValue_eq]
    exact (agree_stepValue h).goOn ih
  | item items stack v bs ih =>
    intro bs' h
    show Agree (readAfter limit (.list items :: stack) v bs) (readAfter limit _ v bs')
    rw [readAfter_item, readAfter_item]
    exact (agree_stepItem _ h).goOn ih
  | field fields key stack v bs ih =>
    intro bs' h
    show Agree (readAfter limit (.object fields key :: stack) v bs) (readAfter limit _ v bs')
    rw [readAfter_field, readAfter_field]
    exact (agree_stepField _ h).goOn ih

end Steps

/-- **A text of JSON spells the same value with carriage returns before some of its line feeds**, or
none again. -/
theorem read_withReturns (h : WithReturns bs bs') (v : Value) :
    Value.read bs' = .ok v ↔ Value.read bs = .ok v := by
  rw [read_eq_ok_iff, read_eq_ok_iff]
  have hagree : Agree (readValue maxDepth [] bs) (readValue maxDepth [] bs') :=
    agree_read ⟨[], none⟩ bs bs' h
  rcases hagree.cases with ⟨f, f', hx, hy⟩ | ⟨u, rest, rest', hx, hy, hrest⟩
  · rw [hx, hy]
    constructor
    · rintro ⟨_, ⟨⟩, -⟩
    · rintro ⟨_, ⟨⟩, -⟩
  · have hblank : skipBlanks rest = [] ↔ skipBlanks rest' = [] := by
      rcases skipBlanks_withReturns hrest with ⟨hx, hy⟩ | ⟨b, tail, tail', hx, hy, -⟩
      · simp only [hx, hy]
      · simp only [hx, hy, reduceCtorEq]
    rw [hx, hy]
    constructor
    · rintro ⟨_, ⟨⟩, hend⟩
      exact ⟨rest, rfl, hblank.mpr hend⟩
    · rintro ⟨_, ⟨⟩, hend⟩
      exact ⟨rest', rfl, hblank.mp hend⟩

end Json

end Courier
