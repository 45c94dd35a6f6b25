/-!
# UTF-8

Octets as lists, and the characters they spell. A front of a byte list is either one well-formed
character or an ill-formed start; which of the two, and how many bytes it takes, is settled by
`front`. Strict decoding refuses the second kind, lenient decoding shows each of its occurrences
as U+FFFD.

Main statement: `decode?_encode`, what is encoded reads back.
-/

namespace Courier.Text

abbrev Bytes := List UInt8

namespace Utf8

def isContinuation (b : UInt8) : Bool := 0x80 ≤ b && b ≤ 0xBF

def encodePoint (n : Nat) : Bytes :=
  if n < 0x80 then
    [UInt8.ofNat n]
  else if n < 0x800 then
    [UInt8.ofNat (0xC0 + n / 0x40), UInt8.ofNat (0x80 + n % 0x40)]
  else if n < 0x10000 then
    [UInt8.ofNat (0xE0 + n / 0x1000), UInt8.ofNat (0x80 + n / 0x40 % 0x40),
      UInt8.ofNat (0x80 + n % 0x40)]
  else
    [UInt8.ofNat (0xF0 + n / 0x40000), UInt8.ofNat (0x80 + n / 0x1000 % 0x40),
      UInt8.ofNat (0x80 + n / 0x40 % 0x40), UInt8.ofNat (0x80 + n % 0x40)]

def encodeChar (c : Char) : Bytes := encodePoint c.toNat

def encode (cs : List Char) : Bytes := cs.flatMap encodeChar

def payload (b : UInt8) : Nat := b.toNat % 0x40

/-- The second byte that may follow a lead byte of a three-byte character: no character has two
spellings, and surrogates have none. -/
def secondOfThree (lead second : UInt8) : Bool :=
  if lead == 0xE0 then 0xA0 ≤ second && second ≤ 0xBF
  else if lead == 0xED then 0x80 ≤ second && second ≤ 0x9F
  else isContinuation second

/-- The second byte that may follow a lead byte of a four-byte character: the value lies between
U+10000 and U+10FFFF. -/
def secondOfFour (lead second : UInt8) : Bool :=
  if lead == 0xF0 then 0x90 ≤ second && second ≤ 0xBF
  else if lead == 0xF4 then 0x80 ≤ second && second ≤ 0x8F
  else isContinuation second

def frontTwo (b : UInt8) : Bytes → Option Char × Bytes
  | c :: rest =>
      if isContinuation c then
        (some (Char.ofNat ((b.toNat - 0xC0) * 0x40 + payload c)), rest)
      else (none, c :: rest)
  | [] => (none, [])

def frontThree (b : UInt8) : Bytes → Option Char × Bytes
  | c :: rest =>
      if secondOfThree b c then
        match rest with
        | d :: rest' =>
            if isContinuation d then
              (some (Char.ofNat ((b.toNat - 0xE0) * 0x1000 + payload c * 0x40 + payload d)), rest')
            else (none, rest)
        | [] => (none, [])
      else (none, c :: rest)
  | [] => (none, [])

def frontFour (b : UInt8) : Bytes → Option Char × Bytes
  | c :: rest =>
      if secondOfFour b c then
        match rest with
        | d :: rest' =>
            if isContinuation d then
              match rest' with
              | e :: rest'' =>
                  if isContinuation e then
                    (some (Char.ofNat ((b.toNat - 0xF0) * 0x40000 + payload c * 0x1000
                      + payload d * 0x40 + payload e)), rest'')
                  else (none, rest')
              | [] => (none, [])
            else (none, rest)
        | [] => (none, [])
      else (none, c :: rest)
  | [] => (none, [])

/-- The character at the front of `b :: rest`, or `none` for an ill-formed start, and what follows
it. An ill-formed start takes all bytes that could still have begun a character. -/
def front (b : UInt8) (rest : Bytes) : Option Char × Bytes :=
  if b < 0x80 then (some (Char.ofNat b.toNat), rest)
  else if 0xC2 ≤ b && b ≤ 0xDF then frontTwo b rest
  else if 0xE0 ≤ b && b ≤ 0xEF then frontThree b rest
  else if 0xF0 ≤ b && b ≤ 0xF4 then frontFour b rest
  else (none, rest)

theorem length_front (b : UInt8) (rest : Bytes) : (front b rest).2.length ≤ rest.length := by
  unfold front
  split
  · exact Nat.le_refl _
  split
  · unfold frontTwo
    split
    · split <;> simp
    · simp
  split
  · unfold frontThree
    repeat' split
    all_goals simp only [List.length_cons, List.length_nil]
    all_goals omega
  split
  · unfold frontFour
    repeat' split
    all_goals simp only [List.length_cons, List.length_nil]
    all_goals omega
  · exact Nat.le_refl _

def decodeOnto (done : List Char) : Bytes → Option (List Char)
  | [] => some done.reverse
  | b :: rest =>
      match h : front b rest with
      | (some c, rest') =>
          have : rest'.length ≤ rest.length := by
            have := length_front b rest; rw [h] at this; exact this
          decodeOnto (c :: done) rest'
      | (none, _) => none
termination_by bs => bs.length

def decode? (bs : Bytes) : Option (List Char) := decodeOnto [] bs

def dropWellFormed : Bytes → Bytes
  | [] => []
  | b :: rest =>
      match h : front b rest with
      | (some _, rest') =>
          have : rest'.length ≤ rest.length := by
            have := length_front b rest; rw [h] at this; exact this
          dropWellFormed rest'
      | (none, _) => b :: rest
termination_by bs => bs.length

def decodeLossyOnto (done : List Char) : Bytes → List Char
  | [] => done.reverse
  | b :: rest =>
      match h : front b rest with
      | (c, rest') =>
          have : rest'.length ≤ rest.length := by
            have := length_front b rest; rw [h] at this; exact this
          decodeLossyOnto (c.getD '\uFFFD' :: done) rest'
termination_by bs => bs.length

/-- The characters that the bytes spell, with U+FFFD for each ill-formed start. -/
def decodeLossy (bs : Bytes) : List Char := decodeLossyOnto [] bs

/-! ## What is encoded reads back -/

theorem toNat_ofNat_lt {n : Nat} (h : n < 256) : (UInt8.ofNat n).toNat = n := by
  simp [Nat.mod_eq_of_lt h]

theorem isContinuation_iff {b : UInt8} :
    isContinuation b = true ↔ 0x80 ≤ b.toNat ∧ b.toNat ≤ 0xBF := by
  simp [isContinuation, UInt8.le_iff_toNat_le]

theorem front_one {b : UInt8} (rest : Bytes) (hb : b.toNat < 0x80) :
    front b rest = (some (Char.ofNat b.toNat), rest) := by
  have h : b < 0x80 := UInt8.lt_iff_toNat_lt.2 hb
  simp [front, h]

theorem front_two {b c : UInt8} (rest : Bytes) (hb : 0xC2 ≤ b.toNat ∧ b.toNat ≤ 0xDF)
    (hc : isContinuation c = true) :
    front b (c :: rest) = (some (Char.ofNat ((b.toNat - 0xC0) * 0x40 + payload c)), rest) := by
  have h1 : ¬ b < 0x80 := fun h => by have : b.toNat < 0x80 := UInt8.lt_iff_toNat_lt.1 h; omega
  have h2 : (0xC2 ≤ b && b ≤ 0xDF) = true := by
    simpa [UInt8.le_iff_toNat_le] using hb
  unfold front
  rw [if_neg h1, if_pos h2, frontTwo, if_pos hc]

theorem front_three {b c d : UInt8} (rest : Bytes) (hb : 0xE0 ≤ b.toNat ∧ b.toNat ≤ 0xEF)
    (hc : secondOfThree b c = true) (hd : isContinuation d = true) :
    front b (c :: d :: rest)
      = (some (Char.ofNat ((b.toNat - 0xE0) * 0x1000 + payload c * 0x40 + payload d)), rest) := by
  have h1 : ¬ b < 0x80 := fun h => by have : b.toNat < 0x80 := UInt8.lt_iff_toNat_lt.1 h; omega
  have h2 : ¬ (0xC2 ≤ b && b ≤ 0xDF) = true := by
    simp only [UInt8.le_iff_toNat_le, Bool.and_eq_true, decide_eq_true_eq, not_and]
    intro _ h
    have : b.toNat ≤ 0xDF := h
    omega
  have h3 : (0xE0 ≤ b && b ≤ 0xEF) = true := by
    simpa [UInt8.le_iff_toNat_le] using hb
  unfold front
  rw [if_neg h1, if_neg h2, if_pos h3, frontThree, if_pos hc]
  simp only [hd, if_true]

theorem front_four {b c d e : UInt8} (rest : Bytes) (hb : 0xF0 ≤ b.toNat ∧ b.toNat ≤ 0xF4)
    (hc : secondOfFour b c = true) (hd : isContinuation d = true)
    (he : isContinuation e = true) :
    front b (c :: d :: e :: rest)
      = (some (Char.ofNat
            ((b.toNat - 0xF0) * 0x40000 + payload c * 0x1000 + payload d * 0x40 + payload e)),
          rest) := by
  have h1 : ¬ b < 0x80 := fun h => by have : b.toNat < 0x80 := UInt8.lt_iff_toNat_lt.1 h; omega
  have h2 : ¬ (0xC2 ≤ b && b ≤ 0xDF) = true := by
    simp only [UInt8.le_iff_toNat_le, Bool.and_eq_true, decide_eq_true_eq, not_and]
    intro _ h
    have : b.toNat ≤ 0xDF := h
    omega
  have h3 : ¬ (0xE0 ≤ b && b ≤ 0xEF) = true := by
    simp only [UInt8.le_iff_toNat_le, Bool.and_eq_true, decide_eq_true_eq, not_and]
    intro _ h
    have : b.toNat ≤ 0xEF := h
    omega
  have h4 : (0xF0 ≤ b && b ≤ 0xF4) = true := by
    simpa [UInt8.le_iff_toNat_le] using hb
  unfold front
  rw [if_neg h1, if_neg h2, if_neg h3, if_pos h4, frontFour, if_pos hc]
  simp only [hd, he, if_true]

theorem secondOfThree_of {b c : UInt8} (hc : isContinuation c = true)
    (h0 : b.toNat = 0xE0 → 0xA0 ≤ c.toNat) (hD : b.toNat = 0xED → c.toNat ≤ 0x9F) :
    secondOfThree b c = true := by
  have h := isContinuation_iff.1 hc
  unfold secondOfThree
  split
  · rename_i hb
    have hb' : b.toNat = 0xE0 := by simpa [← UInt8.toNat_inj] using hb
    simpa [UInt8.le_iff_toNat_le] using ⟨h0 hb', h.2⟩
  split
  · rename_i hb
    have hb' : b.toNat = 0xED := by simpa [← UInt8.toNat_inj] using hb
    simpa [UInt8.le_iff_toNat_le] using ⟨h.1, hD hb'⟩
  · exact hc

theorem secondOfFour_of {b c : UInt8} (hc : isContinuation c = true)
    (h0 : b.toNat = 0xF0 → 0x90 ≤ c.toNat) (h4 : b.toNat = 0xF4 → c.toNat ≤ 0x8F) :
    secondOfFour b c = true := by
  have h := isContinuation_iff.1 hc
  unfold secondOfFour
  split
  · rename_i hb
    have hb' : b.toNat = 0xF0 := by simpa [← UInt8.toNat_inj] using hb
    simpa [UInt8.le_iff_toNat_le] using ⟨h0 hb', h.2⟩
  split
  · rename_i hb
    have hb' : b.toNat = 0xF4 := by simpa [← UInt8.toNat_inj] using hb
    simpa [UInt8.le_iff_toNat_le] using ⟨h.1, h4 hb'⟩
  · exact hc

theorem front_encodePoint_one {n : Nat} (h : n < 0x80) :
    ∃ b tail, encodePoint n = b :: tail ∧
      ∀ rest, front b (tail ++ rest) = (some (Char.ofNat n), rest) := by
  have h0 := toNat_ofNat_lt (n := n) (by omega)
  refine ⟨UInt8.ofNat n, [], by rw [encodePoint, if_pos h], fun rest => ?_⟩
  generalize UInt8.ofNat n = b at h0 ⊢
  rw [← h0]
  exact front_one rest (by omega)

theorem front_encodePoint_two {n : Nat} (h : 0x80 ≤ n ∧ n < 0x800) :
    ∃ b tail, encodePoint n = b :: tail ∧
      ∀ rest, front b (tail ++ rest) = (some (Char.ofNat n), rest) := by
  have h0 := toNat_ofNat_lt (n := 0xC0 + n / 0x40) (by omega)
  have h1 := toNat_ofNat_lt (n := 0x80 + n % 0x40) (by omega)
  refine ⟨_, [_], by rw [encodePoint, if_neg (by omega), if_pos h.2], fun rest => ?_⟩
  generalize UInt8.ofNat (0xC0 + n / 0x40) = b at h0 ⊢
  generalize UInt8.ofNat (0x80 + n % 0x40) = d at h1 ⊢
  have hd : isContinuation d = true := isContinuation_iff.2 (by omega)
  have hvalue : n = (b.toNat - 0xC0) * 0x40 + d.toNat % 0x40 := by omega
  rw [hvalue]
  exact front_two rest (by omega) hd

/-- The surrogates between the two parts of this range have no bytes that read back. -/
theorem front_encodePoint_three {n : Nat} (h : 0x800 ≤ n ∧ n < 0x10000)
    (hvalid : n < 0xD800 ∨ 0xDFFF < n) :
    ∃ b tail, encodePoint n = b :: tail ∧
      ∀ rest, front b (tail ++ rest) = (some (Char.ofNat n), rest) := by
  have h0 := toNat_ofNat_lt (n := 0xE0 + n / 0x1000) (by omega)
  have h1 := toNat_ofNat_lt (n := 0x80 + n / 0x40 % 0x40) (by omega)
  have h2 := toNat_ofNat_lt (n := 0x80 + n % 0x40) (by omega)
  refine ⟨_, [_, _], by rw [encodePoint, if_neg (by omega), if_neg (by omega), if_pos h.2],
    fun rest => ?_⟩
  generalize UInt8.ofNat (0xE0 + n / 0x1000) = b at h0 ⊢
  generalize UInt8.ofNat (0x80 + n / 0x40 % 0x40) = d at h1 ⊢
  generalize UInt8.ofNat (0x80 + n % 0x40) = e at h2 ⊢
  have hd : isContinuation d = true := isContinuation_iff.2 (by omega)
  have he : isContinuation e = true := isContinuation_iff.2 (by omega)
  have hs : secondOfThree b d = true := secondOfThree_of hd (by omega) (by omega)
  have hvalue : n = (b.toNat - 0xE0) * 0x1000 + d.toNat % 0x40 * 0x40 + e.toNat % 0x40 := by omega
  rw [hvalue]
  exact front_three rest (by omega) hs he

theorem front_encodePoint_four {n : Nat} (h : 0x10000 ≤ n ∧ n < 0x110000) :
    ∃ b tail, encodePoint n = b :: tail ∧
      ∀ rest, front b (tail ++ rest) = (some (Char.ofNat n), rest) := by
  have h0 := toNat_ofNat_lt (n := 0xF0 + n / 0x40000) (by omega)
  have h1 := toNat_ofNat_lt (n := 0x80 + n / 0x1000 % 0x40) (by omega)
  have h2 := toNat_ofNat_lt (n := 0x80 + n / 0x40 % 0x40) (by omega)
  have h3 := toNat_ofNat_lt (n := 0x80 + n % 0x40) (by omega)
  refine ⟨_, [_, _, _],
    by rw [encodePoint, if_neg (by omega), if_neg (by omega), if_neg (by omega)], fun rest => ?_⟩
  generalize UInt8.ofNat (0xF0 + n / 0x40000) = b at h0 ⊢
  generalize UInt8.ofNat (0x80 + n / 0x1000 % 0x40) = d at h1 ⊢
  generalize UInt8.ofNat (0x80 + n / 0x40 % 0x40) = e at h2 ⊢
  generalize UInt8.ofNat (0x80 + n % 0x40) = f at h3 ⊢
  have hd : isContinuation d = true := isContinuation_iff.2 (by omega)
  have he : isContinuation e = true := isContinuation_iff.2 (by omega)
  have hf : isContinuation f = true := isContinuation_iff.2 (by omega)
  have hs : secondOfFour b d = true := secondOfFour_of hd (by omega) (by omega)
  have hvalue : n = (b.toNat - 0xF0) * 0x40000 + d.toNat % 0x40 * 0x1000 + e.toNat % 0x40 * 0x40
      + f.toNat % 0x40 := by omega
  rw [hvalue]
  exact front_four rest (by omega) hs he hf

theorem front_encodeChar (c : Char) (rest : Bytes) :
    ∃ b tail, encodeChar c = b :: tail ∧ front b (tail ++ rest) = (some c, rest) := by
  have hvalid : c.toNat < 0xD800 ∨ 0xDFFF < c.toNat ∧ c.toNat < 0x110000 := by
    have := c.valid
    simp only [UInt32.isValidChar, Nat.isValidChar] at this
    simp only [Char.toNat]
    omega
  have hpoint : ∃ b tail, encodePoint c.toNat = b :: tail ∧
      ∀ rest, front b (tail ++ rest) = (some (Char.ofNat c.toNat), rest) := by
    by_cases h1 : c.toNat < 0x80
    · exact front_encodePoint_one h1
    by_cases h2 : c.toNat < 0x800
    · exact front_encodePoint_two ⟨by omega, h2⟩
    by_cases h3 : c.toNat < 0x10000
    · exact front_encodePoint_three ⟨by omega, h3⟩ (by omega)
    · exact front_encodePoint_four ⟨by omega, by omega⟩
  obtain ⟨b, tail, hbytes, hfront⟩ := hpoint
  rw [Char.ofNat_toNat] at hfront
  exact ⟨b, tail, hbytes, hfront rest⟩

theorem decodeOnto_encode (done cs : List Char) :
    decodeOnto done (encode cs) = some (done.reverse ++ cs) := by
  induction cs generalizing done with
  | nil => simp [encode, decodeOnto]
  | cons c cs ih =>
      obtain ⟨b, tail, henc, hfront⟩ := front_encodeChar c (encode cs)
      have : encode (c :: cs) = b :: (tail ++ encode cs) := by
        simp [encode, henc]
      rw [this, decodeOnto]
      split
      · rename_i c' rest' h
        rw [hfront] at h
        simp only [Prod.mk.injEq, Option.some.injEq] at h
        obtain ⟨rfl, rfl⟩ := h
        simp [ih]
      · rename_i h
        rw [hfront] at h
        simp at h

theorem decode?_encode (cs : List Char) : decode? (encode cs) = some cs := by
  simp [decode?, decodeOnto_encode]

end Utf8

def utf8 (s : String) : Bytes := Utf8.encode s.toList

end Courier.Text
