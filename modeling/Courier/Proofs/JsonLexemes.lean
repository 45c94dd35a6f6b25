import Courier.Json.Reader
import Courier.Proofs.JsonText

/-!
# Lexemes read back

What is written as a string or as a whole number is taken for it, whatever follows a string and
whatever ends a number. A string is followed character by character: plain bytes are read as they
stand, and each escape gives the bytes of the character it was written for.

Main statements: `readString_written` and `readNumber_digits`.
-/

namespace Courier.Json

open Text Decimal

/-! ## Words and strings -/

theorem readWord_append (word rest : Bytes) : readWord word (word ++ rest) = .ok ((), rest) := by
  induction word with
  | nil => rfl
  | cons w ws ih => simp [readWord, ih]

def isPlain (b : UInt8) : Bool := 32 ≤ b && b != 34 && b != 92

theorem readOctetsOnto_plain {bs : Bytes} (h : ∀ b ∈ bs, isPlain b = true) (done rest : Bytes) :
    readOctetsOnto done (bs ++ rest) = readOctetsOnto (bs.reverse ++ done) rest := by
  induction bs generalizing done with
  | nil => rfl
  | cons b bs ih =>
    have hb := h b (by simp)
    simp only [isPlain, Bool.and_eq_true, bne_iff_ne, decide_eq_true_eq] at hb
    obtain ⟨⟨h32, h34⟩, h92⟩ := hb
    rw [List.cons_append, readOctetsOnto, if_neg h34, if_neg h92, if_neg (UInt8.not_lt.mpr h32),
      ih fun c hc => h c (by simp [hc])]
    simp

theorem readOctetsOnto_escape {bs rest done : Bytes} {c : Char}
    (h : readEscape (bs ++ rest) = .ok (c, rest)) :
    readOctetsOnto done (92 :: bs ++ rest)
      = readOctetsOnto ((Utf8.encodeChar c).reverse ++ done) rest := by
  rw [List.cons_append, readOctetsOnto, if_neg (by decide), if_pos rfl]
  split
  · rename_i c' rest' h'
    rw [h] at h'
    simp only [Except.ok.injEq, Prod.mk.injEq] at h'
    obtain ⟨rfl, rfl⟩ := h'
    rfl
  · rename_i h'
    rw [h] at h'
    exact absurd h' (by simp)

theorem hexValue?_digit {d : Nat} (h : d < 16) :
    hexValue? (UInt8.ofNat (digitChar d).toNat) = some d := by
  have hn : (digitChar d).toNat < 256 := by
    have : ∀ d, d < 16 → (digitChar d).toNat < 256 := by decide
    exact this d h
  rw [hexValue?, Utf8.toNat_ofNat_lt hn, Char.ofNat_toNat]
  exact hexValue?_digitChar h

theorem readEscape_hex {c : Char} (h : c.toNat < 0x20) (rest : Bytes) :
    readEscape (117 :: 48 :: 48 :: UInt8.ofNat (digitChar (c.toNat / 16)).toNat
      :: UInt8.ofNat (digitChar (c.toNat % 16)).toNat :: rest) = .ok (c, rest) := by
  have h0 : hexValue? 48 = some 0 := by decide
  have hc : ((0 * 16 + 0) * 16 + c.toNat / 16) * 16 + c.toNat % 16 = c.toNat := by omega
  simp only [readEscape, shortEscape?, readCodePoint, readHex4, h0,
    hexValue?_digit (show c.toNat / 16 < 16 by omega),
    hexValue?_digit (show c.toNat % 16 < 16 by omega), hc]
  have hlow : ¬ (0xDC00 ≤ c.toNat ∧ c.toNat ≤ 0xDFFF) := by omega
  have hhigh : ¬ (0xD800 ≤ c.toNat ∧ c.toNat ≤ 0xDBFF) := by omega
  simp [hlow, hhigh]

/-- Only control characters, quotes and backslashes have to be escaped. -/
theorem isPlain_encodeChar {c : Char} (h : 0x20 ≤ c.toNat) (hquote : c ≠ '"') (hslash : c ≠ '\\') :
    ∀ b ∈ Utf8.encodeChar c, isPlain b = true := by
  intro b hmem
  have hne : ∀ d : Char, c ≠ d → c.toNat ≠ d.toNat := by
    intro d hcd heq
    exact hcd (by rw [← Char.ofNat_toNat c, heq, Char.ofNat_toNat])
  simp only [isPlain, Bool.and_eq_true, bne_iff_ne, decide_eq_true_eq]
  by_cases hc : c.toNat < 0x80
  · rw [Utf8.encodeChar_ascii hc, List.mem_singleton] at hmem
    have hn : b.toNat = c.toNat := by rw [hmem, Utf8.toNat_ofNat_lt (by omega)]
    refine ⟨⟨?_, ?_⟩, ?_⟩
    · rw [UInt8.le_iff_toNat_le, hn]
      exact h
    · rintro rfl
      exact hne '"' hquote hn.symm
    · rintro rfl
      exact hne '\\' hslash hn.symm
  -- no byte of a longer character is that of a quote or a backslash
  · have := Utf8.le_of_mem_encodeChar (by omega) hmem
    refine ⟨⟨?_, ?_⟩, ?_⟩
    · rw [UInt8.le_iff_toNat_le]
      exact Nat.le_trans (by decide) this
    · rintro rfl
      exact absurd this (by decide)
    · rintro rfl
      exact absurd this (by decide)

theorem readOctetsOnto_escapeChar (c : Char) (done rest : Bytes) :
    readOctetsOnto done (Utf8.encode (escapeChar c) ++ rest)
      = readOctetsOnto ((Utf8.encodeChar c).reverse ++ done) rest := by
  have short : ∀ b : UInt8, shortEscape? b = some c →
      readOctetsOnto done ([92, b] ++ rest)
        = readOctetsOnto ((Utf8.encodeChar c).reverse ++ done) rest := by
    intro b hb
    have hread : readEscape ([b] ++ rest) = .ok (c, rest) := by simp [readEscape, hb]
    exact readOctetsOnto_escape hread
  -- the cases of `escapeChar`: seven letters, the control characters without one, the others
  unfold escapeChar
  split
  · rename_i h; subst h; exact short 34 rfl
  split
  · rename_i h; subst h; exact short 92 rfl
  split
  · rename_i h; subst h; exact short 98 rfl
  split
  · rename_i h; subst h; exact short 102 rfl
  split
  · rename_i h; subst h; exact short 110 rfl
  split
  · rename_i h; subst h; exact short 114 rfl
  split
  · rename_i h; subst h; exact short 116 rfl
  split
  · rename_i h
    have hd : ∀ d, d < 16 → (digitChar d).toNat < 0x80 := by decide
    simp only [Utf8.encode_cons, Utf8.encode_nil,
      Utf8.encodeChar_ascii (hd (c.toNat / 16) (by omega)),
      Utf8.encodeChar_ascii (hd (c.toNat % 16) (by omega))]
    exact readOctetsOnto_escape (readEscape_hex h rest)
  · rename_i hquote hslash _ _ _ _ _ h
    rw [Utf8.encode_cons, Utf8.encode_nil, List.append_nil]
    exact readOctetsOnto_plain (isPlain_encodeChar (Nat.le_of_not_lt h) hquote hslash) done rest

theorem readOctetsOnto_escaped (cs : List Char) (done rest : Bytes) :
    readOctetsOnto done (Utf8.encode (cs.flatMap escapeChar) ++ 34 :: rest)
      = .ok (done.reverse ++ Utf8.encode cs, rest) := by
  induction cs generalizing done with
  | nil => simp [readOctetsOnto]
  | cons c cs ih =>
    rw [List.flatMap_cons, Utf8.encode_append, List.append_assoc, readOctetsOnto_escapeChar, ih]
    simp

theorem readString_written (s : String) (rest : Bytes) :
    readString (Utf8.encode (s.toList.flatMap escapeChar) ++ 34 :: rest) = .ok (s, rest) := by
  simp [readString, readOctetsOnto_escaped, Utf8.decode?_encode]

theorem encode_renderString (s : String) :
    Utf8.encode (renderString s) = 34 :: Utf8.encode (s.toList.flatMap escapeChar) ++ [34] := by
  simp [renderString]

/-! ## Numbers -/

/-- Nothing that would belong to a number before it comes next. -/
def EndsNumber (rest : Bytes) : Prop :=
  ∀ b ∈ rest.head?, isDigit b = false ∧ b ≠ 46 ∧ b ≠ 101 ∧ b ≠ 69

theorem EndsNumber.span {rest ds : Bytes} (h : EndsNumber rest)
    (hds : ∀ b ∈ ds, isDigit b = true) :
    (ds ++ rest).takeWhile isDigit = ds ∧ (ds ++ rest).dropWhile isDigit = rest :=
  span_run hds fun b hb => (h b hb).1

theorem encodeChar_digitChar {d : Nat} (h : d < 10) :
    Utf8.encodeChar (digitChar d) = [UInt8.ofNat (48 + d)] := by
  rw [Utf8.encodeChar_ascii (by rw [toNat_digitChar h]; omega), toNat_digitChar h]

theorem isDigit_ofNat : ∀ d < 10, isDigit (UInt8.ofNat (48 + d)) = true := by decide

theorem digitOf_ofNat : ∀ d < 10, digitOf (UInt8.ofNat (48 + d)) = d := by decide

theorem encode_digits_of_lt {n : Nat} (h : n < 10) :
    Utf8.encode (digits n) = [UInt8.ofNat (48 + n)] := by
  simp [digits_of_lt h, encodeChar_digitChar h]

theorem encode_digits_of_le {n : Nat} (h : 10 ≤ n) :
    Utf8.encode (digits n)
      = Utf8.encode (digits (n / 10)) ++ [UInt8.ofNat (48 + n % 10)] := by
  simp [digits_of_le h, encodeChar_digitChar (show n % 10 < 10 by omega)]

theorem isDigit_encode_digits (n : Nat) : ∀ b ∈ Utf8.encode (digits n), isDigit b = true := by
  induction n using Nat.strongRecOn with
  | _ n ih =>
    intro b hb
    by_cases h : n < 10
    · rw [encode_digits_of_lt h, List.mem_singleton] at hb
      exact hb ▸ isDigit_ofNat n h
    · rw [encode_digits_of_le (by omega), List.mem_append, List.mem_singleton] at hb
      rcases hb with hb | rfl
      · exact ih (n / 10) (by omega) b hb
      · exact isDigit_ofNat _ (by omega)

/-- Only the number zero is written with a zero in front. -/
theorem head?_encode_digits {n : Nat} (h : n ≠ 0) :
    (Utf8.encode (digits n)).head? ≠ some 48 := by
  induction n using Nat.strongRecOn with
  | _ n ih =>
    by_cases hn : n < 10
    · have : ∀ n < 10, n ≠ 0 → UInt8.ofNat (48 + n) ≠ 48 := by decide
      rw [encode_digits_of_lt hn]
      simpa using this n hn h
    · have ih := ih (n / 10) (by omega) (by omega)
      rw [encode_digits_of_le (by omega)]
      cases hcase : Utf8.encode (digits (n / 10)) with
      | nil => exact absurd hcase (Utf8.encode_ne_nil (digits_ne_nil _))
      | cons b tail =>
        rw [hcase] at ih
        exact ih

theorem absorb_concat {limit n m : Nat} {ds : Bytes} {d : UInt8}
    (h : absorb limit n ds = (m, 0)) (hm : m * 10 + digitOf d ≤ limit) :
    absorb limit n (ds ++ [d]) = (m * 10 + digitOf d, 0) := by
  induction ds generalizing n with
  | nil =>
    simp only [absorb, Prod.mk.injEq, and_true] at h
    subst h
    simp [absorb, hm]
  | cons c ds ih =>
    rw [absorb] at h
    split at h
    · rename_i hc
      rw [List.cons_append, absorb, if_pos hc]
      exact ih h
    · simp at h

/-- The digits of a number that fits the significand are that significand. -/
theorem absorb_encode_digits {limit n : Nat} (h : n ≤ limit) :
    absorb limit 0 (Utf8.encode (digits n)) = (n, 0) := by
  induction n using Nat.strongRecOn with
  | _ n ih =>
    by_cases hn : n < 10
    · rw [encode_digits_of_lt hn, absorb, Nat.zero_mul, Nat.zero_add, digitOf_ofNat n hn, if_pos h,
        absorb]
    · rw [encode_digits_of_le (by omega)]
      have hd := digitOf_ofNat (n % 10) (by omega)
      have hsum : n / 10 * 10 + digitOf (UInt8.ofNat (48 + n % 10)) = n := by
        rw [hd]
        omega
      have := absorb_concat (ih (n / 10) (by omega) (by omega)) (by rw [hsum]; exact h)
      rw [hsum] at this
      exact this

theorem readTail_of_endsNumber {rest : Bytes} (h : EndsNumber rest) (positive : Bool) (n : Nat) :
    readTail positive n 0 rest = finishWhole positive n rest := by
  unfold readTail
  split
  · exact absurd rfl (h 46 rfl).2.1
  · exact absurd rfl (h 101 rfl).2.2.1
  · exact absurd rfl (h 69 rfl).2.2.2
  · rfl

theorem readNumber_digits {n : Nat} (h : n ≤ maxSignificand) {rest : Bytes}
    (hrest : EndsNumber rest) (positive : Bool) :
    readNumber positive (Utf8.encode (digits n) ++ rest) = finishWhole positive n rest := by
  by_cases hzero : n = 0
  · subst hzero
    rw [encode_digits_of_lt (by omega), List.singleton_append]
    unfold readNumber
    dsimp only
    rw [if_pos (by decide)]
    -- behind a zero in front there may be no digit
    split
    · rename_i c tail
      rw [if_neg (by simp [(hrest c rfl).1])]
      exact readTail_of_endsNumber hrest positive 0
    · exact readTail_of_endsNumber hrest positive 0
  · have hdigits := isDigit_encode_digits n
    obtain ⟨htake, hdrop⟩ := hrest.span hdigits
    have habsorb := absorb_encode_digits h
    have hhead := head?_encode_digits hzero
    cases hcase : Utf8.encode (digits n) with
    | nil => exact absurd hcase (Utf8.encode_ne_nil (digits_ne_nil n))
    | cons b tail =>
      rw [hcase] at htake hdrop habsorb hhead
      have hb : isDigit b = true := hdigits b (by simp [hcase])
      have h48 : b ≠ 48 := by simpa using hhead
      rw [List.cons_append] at htake hdrop ⊢
      unfold readNumber
      dsimp only
      rw [if_neg h48, if_pos hb, htake, hdrop, habsorb]
      exact readTail_of_endsNumber hrest positive n

/-- The zero below zero is written with a point, and read through it. -/
theorem readNumber_zero {rest : Bytes} (hrest : EndsNumber rest) :
    readNumber false (48 :: 46 :: 48 :: rest) = .ok (.real Binary.zero.neg, rest) := by
  have hscale : scale? 0 (-1) = some Binary.zero := by decide +kernel
  obtain ⟨htake, hdrop⟩ := hrest.span (List.forall_mem_nil _)
  rw [List.nil_append] at htake hdrop
  have h48 : isDigit 48 = true := by decide
  have h46 : isDigit 46 = false := by decide
  have habsorb : absorb maxSignificand 0 [48] = (0, 0) := by decide
  rw [readNumber, if_pos rfl]
  simp only [h46, readTail, readPlaces, List.takeWhile_cons, List.dropWhile_cons, h48, if_true,
    htake, hdrop, habsorb]
  cases rest with
  | nil => simp [finishReal, hscale, signed]
  | cons b tail =>
    have := hrest b rfl
    simp [this.2.2.1, this.2.2.2, finishReal, hscale, signed]

end Courier.Json
