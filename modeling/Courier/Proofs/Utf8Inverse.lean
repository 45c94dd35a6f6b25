import Courier.Text.Utf8

/-!
# What decodes has been encoded

No character has two spellings: the bytes of a character that is found at the front of a text are
the ones that it is encoded as. For each length one lemma puts the bits of the bytes together and
takes them apart again. The texts in UTF-8 are therefore exactly the encoded ones.

Main statement: `decode?_eq_some_iff`.
-/

namespace Courier.Text.Utf8

variable {b c d e : UInt8} {bs rest : Bytes}

/-! ## One character -/

theorem toNat_ofNat_of_valid {n : Nat} (h : n.isValidChar) : (Char.ofNat n).toNat = n := by
  unfold Char.ofNat
  rw [dif_pos h]
  rfl

theorem ofNat_eq_of_toNat {n : Nat} (h : n = b.toNat) : UInt8.ofNat n = b := by
  rw [h, UInt8.ofNat_toNat]

theorem encodeChar_one (hb : b.toNat < 0x80) : encodeChar (Char.ofNat b.toNat) = [b] := by
  rw [encodeChar, toNat_ofNat_of_valid (.inl (by omega)), encodePoint, if_pos hb,
    UInt8.ofNat_toNat]

theorem encodeChar_two (hb : 0xC2 ≤ b.toNat ∧ b.toNat ≤ 0xDF) (hc : isContinuation c = true) :
    encodeChar (Char.ofNat ((b.toNat - 0xC0) * 0x40 + payload c)) = [b, c] := by
  have hc := isContinuation_iff.mp hc
  obtain ⟨n, hn⟩ : ∃ n, n = (b.toNat - 0xC0) * 0x40 + payload c := ⟨_, rfl⟩
  rw [← hn]
  unfold payload at hn
  rw [encodeChar, toNat_ofNat_of_valid (.inl (by omega)), encodePoint, if_neg (by omega),
    if_pos (by omega), ofNat_eq_of_toNat (b := b) (by omega), ofNat_eq_of_toNat (b := c) (by omega)]

theorem between_iff {low high : UInt8} : (decide (low ≤ b) && decide (b ≤ high)) = true ↔
    low.toNat ≤ b.toNat ∧ b.toNat ≤ high.toNat := by
  simp [UInt8.le_iff_toNat_le]

/-- The second byte of three keeps the value above what two bytes hold, and off the surrogates. -/
theorem secondOfThree_eq_true (h : secondOfThree b c = true) :
    (0x80 ≤ c.toNat ∧ c.toNat ≤ 0xBF) ∧ (b.toNat = 0xE0 → 0xA0 ≤ c.toNat) ∧
      (b.toNat = 0xED → c.toNat ≤ 0x9F) := by
  unfold secondOfThree at h
  split at h
  · have hc : 0xA0 ≤ c.toNat ∧ c.toNat ≤ 0xBF := between_iff.mp h
    rename_i hb
    have hb : b.toNat = 0xE0 := congrArg UInt8.toNat (beq_iff_eq.mp hb)
    omega
  rename_i hb
  have hlow : b.toNat ≠ 0xE0 := fun h => hb (beq_iff_eq.mpr (UInt8.toNat_inj.mp h))
  split at h
  · have hc : 0x80 ≤ c.toNat ∧ c.toNat ≤ 0x9F := between_iff.mp h
    omega
  · rename_i hb
    have hhigh : b.toNat ≠ 0xED := fun h => hb (beq_iff_eq.mpr (UInt8.toNat_inj.mp h))
    have hc := isContinuation_iff.mp h
    omega

/-- The second byte of four keeps the value above what three bytes hold, and below the end. -/
theorem secondOfFour_eq_true (h : secondOfFour b c = true) :
    (0x80 ≤ c.toNat ∧ c.toNat ≤ 0xBF) ∧ (b.toNat = 0xF0 → 0x90 ≤ c.toNat) ∧
      (b.toNat = 0xF4 → c.toNat ≤ 0x8F) := by
  unfold secondOfFour at h
  split at h
  · have hc : 0x90 ≤ c.toNat ∧ c.toNat ≤ 0xBF := between_iff.mp h
    rename_i hb
    have hb : b.toNat = 0xF0 := congrArg UInt8.toNat (beq_iff_eq.mp hb)
    omega
  rename_i hb
  have hlow : b.toNat ≠ 0xF0 := fun h => hb (beq_iff_eq.mpr (UInt8.toNat_inj.mp h))
  split at h
  · have hc : 0x80 ≤ c.toNat ∧ c.toNat ≤ 0x8F := between_iff.mp h
    omega
  · rename_i hb
    have hhigh : b.toNat ≠ 0xF4 := fun h => hb (beq_iff_eq.mpr (UInt8.toNat_inj.mp h))
    have hc := isContinuation_iff.mp h
    omega

theorem encodeChar_three (hb : 0xE0 ≤ b.toNat ∧ b.toNat ≤ 0xEF) (hc : secondOfThree b c = true)
    (hd : isContinuation d = true) :
    encodeChar (Char.ofNat ((b.toNat - 0xE0) * 0x1000 + payload c * 0x40 + payload d))
      = [b, c, d] := by
  obtain ⟨hc, hlow, hhigh⟩ := secondOfThree_eq_true hc
  have hd := isContinuation_iff.mp hd
  obtain ⟨n, hn⟩ : ∃ n, n = (b.toNat - 0xE0) * 0x1000 + payload c * 0x40 + payload d := ⟨_, rfl⟩
  rw [← hn]
  unfold payload at hn
  have hvalid : n.isValidChar := by
    unfold Nat.isValidChar
    omega
  rw [encodeChar, toNat_ofNat_of_valid hvalid, encodePoint, if_neg (by omega),
    if_neg (by omega), if_pos (by omega), ofNat_eq_of_toNat (b := b) (by omega),
    ofNat_eq_of_toNat (b := c) (by omega), ofNat_eq_of_toNat (b := d) (by omega)]

theorem encodeChar_four (hb : 0xF0 ≤ b.toNat ∧ b.toNat ≤ 0xF4) (hc : secondOfFour b c = true)
    (hd : isContinuation d = true) (he : isContinuation e = true) :
    encodeChar (Char.ofNat ((b.toNat - 0xF0) * 0x40000 + payload c * 0x1000 + payload d * 0x40
      + payload e)) = [b, c, d, e] := by
  obtain ⟨hc, hlow, hhigh⟩ := secondOfFour_eq_true hc
  have hd := isContinuation_iff.mp hd
  have he := isContinuation_iff.mp he
  obtain ⟨n, hn⟩ : ∃ n, n = (b.toNat - 0xF0) * 0x40000 + payload c * 0x1000 + payload d * 0x40
    + payload e := ⟨_, rfl⟩
  rw [← hn]
  unfold payload at hn
  have hvalid : n.isValidChar := by
    unfold Nat.isValidChar
    omega
  rw [encodeChar, toNat_ofNat_of_valid hvalid, encodePoint, if_neg (by omega),
    if_neg (by omega), if_neg (by omega), ofNat_eq_of_toNat (b := b) (by omega),
    ofNat_eq_of_toNat (b := c) (by omega), ofNat_eq_of_toNat (b := d) (by omega),
    ofNat_eq_of_toNat (b := e) (by omega)]

/-! ## Texts -/

theorem frontTwo_eq_some {ch : Char} (h : frontTwo b bs = (some ch, rest)) :
    ∃ c, bs = c :: rest ∧ isContinuation c = true ∧
      ch = Char.ofNat ((b.toNat - 0xC0) * 0x40 + payload c) := by
  unfold frontTwo at h
  split at h
  · rename_i c _
    split at h
    · rename_i hc
      simp only [Prod.mk.injEq, Option.some.injEq] at h
      obtain ⟨rfl, rfl⟩ := h
      exact ⟨c, rfl, hc, rfl⟩
    · cases h
  · cases h

theorem frontThree_eq_some {ch : Char} (h : frontThree b bs = (some ch, rest)) :
    ∃ c d, bs = c :: d :: rest ∧ secondOfThree b c = true ∧ isContinuation d = true ∧
      ch = Char.ofNat ((b.toNat - 0xE0) * 0x1000 + payload c * 0x40 + payload d) := by
  rcases bs with _ | ⟨c, _ | ⟨d, more⟩⟩ <;> simp only [frontThree] at h
  · cases h
  · split at h <;> cases h
  split at h
  · rename_i hc
    split at h
    · rename_i hd
      simp only [Prod.mk.injEq, Option.some.injEq] at h
      obtain ⟨rfl, rfl⟩ := h
      exact ⟨c, d, rfl, hc, hd, rfl⟩
    · cases h
  · cases h

theorem frontFour_eq_some {ch : Char} (h : frontFour b bs = (some ch, rest)) :
    ∃ c d e, bs = c :: d :: e :: rest ∧ secondOfFour b c = true ∧ isContinuation d = true ∧
      isContinuation e = true ∧ ch = Char.ofNat ((b.toNat - 0xF0) * 0x40000 + payload c * 0x1000
        + payload d * 0x40 + payload e) := by
  rcases bs with _ | ⟨c, _ | ⟨d, _ | ⟨e, more⟩⟩⟩ <;> simp only [frontFour] at h
  · cases h
  · split at h <;> cases h
  · split at h
    · split at h <;> cases h
    · cases h
  split at h
  · rename_i hc
    split at h
    · rename_i hd
      split at h
      · rename_i he
        simp only [Prod.mk.injEq, Option.some.injEq] at h
        obtain ⟨rfl, rfl⟩ := h
        exact ⟨c, d, e, rfl, hc, hd, he, rfl⟩
      · cases h
    · cases h
  · cases h

/-- What is found at the front of a text is the character that its bytes encode. -/
theorem front_eq_some {ch : Char} (h : front b bs = (some ch, rest)) :
    b :: bs = encodeChar ch ++ rest := by
  unfold front at h
  split at h
  · rename_i hb
    obtain ⟨rfl, rfl⟩ : Char.ofNat b.toNat = ch ∧ bs = rest := by simpa using h
    rw [encodeChar_one (UInt8.lt_iff_toNat_lt.mp hb)]
    rfl
  split at h
  · rename_i hb
    obtain ⟨c, rfl, hc, rfl⟩ := frontTwo_eq_some h
    rw [encodeChar_two (between_iff.mp hb) hc]
    rfl
  split at h
  · rename_i hb
    obtain ⟨c, d, rfl, hc, hd, rfl⟩ := frontThree_eq_some h
    rw [encodeChar_three (between_iff.mp hb) hc hd]
    rfl
  split at h
  · rename_i hb
    obtain ⟨c, d, e, rfl, hc, hd, he, rfl⟩ := frontFour_eq_some h
    rw [encodeChar_four (between_iff.mp hb) hc hd he]
    rfl
  · cases h

theorem decodeOnto_eq_some {done cs : List Char} (h : decodeOnto done bs = some cs) :
    ∃ ds, cs = done.reverse ++ ds ∧ bs = encode ds := by
  fun_induction decodeOnto done bs with
  | case1 done =>
    obtain rfl := Option.some.inj h
    exact ⟨[], by simp, rfl⟩
  | case2 done b bs c rest hfront _ ih =>
    obtain ⟨ds, rfl, rfl⟩ := ih h
    refine ⟨c :: ds, by simp, ?_⟩
    rw [front_eq_some hfront]
    rfl
  | case3 => cases h

/-- **Bytes decode to a text exactly if they are what it is encoded as.** -/
theorem decode?_eq_some_iff {cs : List Char} : decode? bs = some cs ↔ bs = encode cs := by
  constructor
  · intro h
    obtain ⟨ds, rfl, rfl⟩ := decodeOnto_eq_some h
    rfl
  · rintro rfl
    exact decode?_encode cs

theorem decodeLossyOnto_of_decodeOnto {done cs : List Char} {bs : Bytes}
    (h : decodeOnto done bs = some cs) : decodeLossyOnto done bs = cs := by
  fun_induction decodeOnto done bs with
  | case1 done =>
    rw [decodeLossyOnto]
    exact Option.some.inj h
  | case2 done b bs c rest hfront _ ih =>
    rw [decodeLossyOnto]
    split
    rename_i c' rest' hfront'
    rw [hfront] at hfront'
    cases hfront'
    exact ih h
  | case3 => cases h

/-- What is not ill-formed is shown as it is. -/
theorem encode_decodeLossy {cs : List Char} {bs : Bytes} (h : decode? bs = some cs) :
    encode (decodeLossy bs) = bs := by
  rw [decodeLossy, decodeLossyOnto_of_decodeOnto h, ← decode?_eq_some_iff.mp h]

end Courier.Text.Utf8
