import Courier.Proofs.MessageInverse
import Mathlib.Data.Nat.Digits.Lemmas

/-!
# The tokens of versions

A version is two numbers of one to three digits with a point between them, behind `CMIT/` or behind
nothing (`Version.Spells`). The reader drops what it may begin with, divides the rest at its first
point and reads both parts. A digit is neither a point nor the first letter of `CMIT/`, so there is
one way to divide a token and one version that it spells.

Main statement: `Version.check_grammar`.
-/

namespace Courier

open Text Wire Decimal

/-! ## Numbers from digits -/

namespace Decimal

theorem digitValue?_eq_some_iff {c : Char} {d : Nat} :
    digitValue? c = some d ↔ c.isDigit = true ∧ d = c.toNat - 48 := by
  have hrange : ('0' ≤ c ∧ c ≤ '9') ↔ c.isDigit = true := by
    rw [Char.isDigit, Bool.and_eq_true, decide_eq_true_eq, decide_eq_true_eq]
    rfl
  unfold digitValue?
  rw [← hrange]
  split
  · rename_i h
    simp [h, eq_comm]
  · rename_i h
    simp [h]

/-- Digits in front stand for a multiple of the power of ten that the digits behind them make. -/
theorem ofDigitsAfter?_eq_some_iff {n m : Nat} {cs : List Char} : ofDigitsAfter? n cs = some m ↔
    (∀ c ∈ cs, c.isDigit = true) ∧
      m = n * 10 ^ cs.length + Nat.ofDigits 10 (cs.reverse.map fun c => c.toNat - 48) := by
  induction cs generalizing n with
  | nil =>
    rw [ofDigitsAfter?, List.length_nil, Nat.pow_zero, Nat.mul_one, List.reverse_nil, List.map_nil,
      Nat.ofDigits_nil, Nat.add_zero, Option.some.injEq]
    constructor
    · rintro rfl
      exact ⟨List.forall_mem_nil _, rfl⟩
    · rintro ⟨-, rfl⟩
      rfl
  | cons c cs ih =>
    -- the reader multiplies as it goes; the digits in reverse give the same sum of powers
    have hvalue : n * 10 ^ (c :: cs).length +
        Nat.ofDigits 10 ((c :: cs).reverse.map fun c => c.toNat - 48) =
        (n * 10 + (c.toNat - 48)) * 10 ^ cs.length +
          Nat.ofDigits 10 (cs.reverse.map fun c => c.toNat - 48) := by
      rw [List.reverse_cons, List.map_append, Nat.ofDigits_append, List.length_map,
        List.length_reverse, List.map_singleton, Nat.ofDigits_singleton, List.length_cons]
      ring
    rw [ofDigitsAfter?, Option.bind_eq_some_iff, List.forall_mem_cons, hvalue]
    constructor
    · rintro ⟨d, hd, hrest⟩
      obtain ⟨hdigit, rfl⟩ := digitValue?_eq_some_iff.mp hd
      obtain ⟨hdigits, hm⟩ := ih.mp hrest
      exact ⟨⟨hdigit, hdigits⟩, hm⟩
    · rintro ⟨⟨hdigit, hdigits⟩, hm⟩
      exact ⟨c.toNat - 48, digitValue?_eq_some_iff.mpr ⟨hdigit, rfl⟩, ih.mpr ⟨hdigits, hm⟩⟩

end Decimal

namespace Version

/-! ## The grammar -/

/-- One to three decimal digits, and the number that they denote. -/
structure IsPart (digits : List Char) (n : Nat) : Prop where
  nonempty : digits ≠ []
  short : digits.length ≤ 3
  decimal : ∀ c ∈ digits, c.isDigit = true
  value : n = Nat.ofDigits 10 (digits.reverse.map fun c => c.toNat - 48)

/-- The token is a version: `CMIT/` or nothing, and two numbers with a point between them. -/
def Spells (token : String) (v : Version) : Prop :=
  ∃ front major minor, (front = [] ∨ front = ['C', 'M', 'I', 'T', '/']) ∧ IsPart major v.major ∧
    IsPart minor v.minor ∧ token.toList = front ++ (major ++ '.' :: minor)

variable {digits cs : List Char} {n : Nat} {v : Version} {token : String}

theorem part?_eq_some_iff : part? digits = some n ↔ IsPart digits n := by
  unfold part? ofDigits?
  constructor
  · intro h
    split at h
    · rename_i hshort
      split at h
      · cases h
      · rename_i hempty
        obtain ⟨hdecimal, hvalue⟩ := ofDigitsAfter?_eq_some_iff.mp h
        rw [Nat.zero_mul, Nat.zero_add] at hvalue
        exact ⟨fun hnil => hempty (hnil ▸ rfl), hshort, hdecimal, hvalue⟩
    · cases h
  · rintro ⟨hne, hshort, hdecimal, hvalue⟩
    have hempty : digits.isEmpty = false := List.isEmpty_eq_false_iff.mpr hne
    rw [if_pos hshort, hempty, if_neg Bool.false_ne_true]
    exact ofDigitsAfter?_eq_some_iff.mpr ⟨hdecimal, by rw [hvalue, Nat.zero_mul, Nat.zero_add]⟩

theorem IsPart.notMem {c : Char} (h : IsPart digits n) (hc : c.isDigit = false) : c ∉ digits := by
  intro hmem
  rw [h.decimal c hmem] at hc
  cases hc

theorem IsPart.lt (h : IsPart digits n) : n < 1000 := by
  have hdigits : ∀ d ∈ digits.reverse.map fun c => c.toNat - 48, d < 10 := by
    intro d hd
    obtain ⟨c, hc, rfl⟩ := List.mem_map.mp hd
    have hdigit := h.decimal c (List.mem_reverse.mp hc)
    rw [Char.isDigit_iff_toNat] at hdigit
    have : '9'.toNat = 57 := rfl
    omega
  have hlt := Nat.ofDigits_lt_base_pow_length (b := 10) (by omega) hdigits
  rw [List.length_map, List.length_reverse, ← h.value] at hlt
  exact Nat.lt_of_lt_of_le hlt (Nat.pow_le_pow_right (by omega) h.short)

/-! ## The reader -/

theorem dropScheme_scheme (cs : List Char) :
    dropScheme (['C', 'M', 'I', 'T', '/'] ++ cs) = cs := rfl

theorem dropScheme_digit {c : Char} (hc : c.isDigit = true) (cs : List Char) :
    dropScheme (c :: cs) = c :: cs := by
  have hne : ('C' == c) = false := by
    rw [beq_eq_false_iff_ne]
    rintro rfl
    cases hc
  simp [dropScheme, scheme, List.isPrefixOf, hne]

theorem dropScheme_cases (cs : List Char) :
    ∃ front, (front = [] ∨ front = ['C', 'M', 'I', 'T', '/']) ∧ cs = front ++ dropScheme cs := by
  unfold dropScheme
  split
  · rename_i h
    obtain ⟨rest, rfl⟩ := List.isPrefixOf_iff_prefix.mp h
    exact ⟨_, .inr rfl, rfl⟩
  · exact ⟨[], .inl rfl, rfl⟩

/-- **The reader takes the tokens of the grammar and no others.** -/
theorem ofToken?_eq_some_iff : ofToken? token = some v ↔ Spells token v := by
  constructor
  · intro h
    unfold ofToken? at h
    -- the scheme goes once, and the first point divides what is left
    obtain ⟨front, hfront, htoken⟩ := dropScheme_cases token.toList
    generalize dropScheme token.toList = cs at h htoken
    dsimp only at h
    split at h
    · cases h
    rename_i point minor hpoint
    split at h
    · rename_i major' minor' hmajor hminor
      obtain rfl := Option.some.inj h
      obtain rfl : point = '.' := by
        have hstop := List.head?_dropWhile_not (· != '.') cs
        rw [hpoint] at hstop
        simpa using hstop
      refine ⟨front, cs.takeWhile (· != '.'), minor, hfront, part?_eq_some_iff.mp hmajor,
        part?_eq_some_iff.mp hminor, ?_⟩
      rw [htoken, ← hpoint, List.takeWhile_append_dropWhile]
    · cases h
  · rintro ⟨front, major, minor, hfront, hmajor, hminor, htoken⟩
    have hdrop : dropScheme token.toList = major ++ '.' :: minor := by
      rw [htoken]
      rcases hfront with rfl | rfl
      · obtain ⟨c, rest, rfl⟩ := List.exists_cons_of_ne_nil hmajor.nonempty
        exact dropScheme_digit (hmajor.decimal c (by simp)) _
      · exact dropScheme_scheme _
    -- no digit is a point, so that the point of the grammar is the first one
    have hrun : ∀ c ∈ major, (c != '.') = true := by
      intro c hc
      rw [bne_iff_ne]
      rintro rfl
      exact hmajor.notMem rfl hc
    obtain ⟨htake, hrest⟩ : (major ++ '.' :: minor).takeWhile (· != '.') = major ∧
        (major ++ '.' :: minor).dropWhile (· != '.') = '.' :: minor :=
      span_run hrun (by rintro c ⟨⟩; rfl)
    simp only [ofToken?, hdrop, htake, hrest, part?_eq_some_iff.mpr hmajor,
      part?_eq_some_iff.mpr hminor]

theorem parse_eq_ok_iff : parse token = .ok v ↔ Spells token v := by
  rw [← ofToken?_eq_some_iff, parse]
  cases ofToken? token <;> simp

theorem check_eq_ok_iff : check token = .ok v ↔ Spells token v ∧ v.major = 1 := by
  rw [← ofToken?_eq_some_iff, check]
  cases ofToken? token with
  | none => simp
  | some w =>
    by_cases hserved : w.major = 1
    · have hif : w.isServed = true := by rw [isServed, hserved]; rfl
      simp only [hif, if_true, Except.ok.injEq, Option.some.injEq]
      constructor
      · rintro rfl
        exact ⟨rfl, hserved⟩
      · exact And.left
    · have hif : w.isServed = false := by simpa [isServed, servedMajor] using hserved
      simp only [hif, Option.some.injEq]
      constructor
      · intro h
        cases h
      · rintro ⟨rfl, h⟩
        exact absurd h hserved

/-! ## Versions as tokens -/

theorem Spells.isToken (h : Spells token v) : isToken token.toList = true := by
  obtain ⟨front, major, minor, hfront, hmajor, hminor, htoken⟩ := h
  have hplain : ∀ c : Char, (c.isDigit = true ∨ c ∈ ['C', 'M', 'I', 'T', '/', '.']) →
      (!isSpace c && !isControl c) = true := by
    rintro c (hc | hc)
    · rw [Char.isDigit_iff_toNat] at hc
      have hnine : '9'.toNat = 57 := rfl
      have hzero : '0'.toNat = 48 := rfl
      simp only [isSpace, isControl, Bool.and_eq_true, Bool.not_eq_true', Bool.or_eq_false_iff,
        Bool.and_eq_false_iff, beq_eq_false_iff_ne, decide_eq_false_iff_not]
      omega
    · simp only [List.mem_cons, List.not_mem_nil, or_false] at hc
      rcases hc with rfl | rfl | rfl | rfl | rfl | rfl <;> decide
  rw [Courier.isToken, htoken, Bool.and_eq_true, List.all_eq_true]
  constructor
  · simp
  · intro c hc
    apply hplain
    rcases List.mem_append.mp hc with hc | hc
    · rcases hfront with rfl | rfl
      · cases hc
      · exact .inr (List.mem_append_left ['.'] hc)
    rcases List.mem_append.mp hc with hc | hc
    · exact .inl (hmajor.decimal c hc)
    rcases List.mem_cons.mp hc with rfl | hc
    · exact .inr (by simp)
    · exact .inl (hminor.decimal c hc)

/-- A head line that begins with a version has it as its first word, in whatever response. -/
theorem Spells.readStatusLine (h : Spells token v) {r : Response} (hr : r.version = token) :
    ∃ f, Frame.locate? r.encode = some (f, []) ∧ (f.headText >>= readStatusLine) =
      .ok (token, r.status, String.ofList (trim (flattenReason r.reason))) := by
  subst hr
  have hword : IsWord r.version.toList := isWord_of_isToken h.isToken
  refine ⟨r.frame, ?_, ?_⟩
  · rw [← r.bytes_frame]
    exact (Response.isWhole_frame_of_isWord hword).located
  · rw [Response.frame, headText_frameOf]
    exact readStatusLine_statusLine hword r.status r.reason

/-- **Version tokens.** A token is read as a version exactly if it is `CMIT/` or nothing, one to
three digits, a point, and one to three digits, and the version has the numbers that the digits
denote, each below a thousand. It is served exactly if moreover the first number is 1. Any other
token is an unsupported version. A served one is a token of the protocol, and whatever response
carries it, the head line of what is written for the response is read with the same version, the
same status, and the reason on one line. -/
theorem check_grammar (token : String) :
    (∀ v, parse token = .ok v ↔ Spells token v) ∧
      (∀ v, check token = .ok v ↔ Spells token v ∧ v.major = 1) ∧
      (∀ v, Spells token v → v.major < 1000 ∧ v.minor < 1000) ∧
      (∀ f, parse token = .error f ∨ check token = .error f → f.code = .unsupportedVersion) ∧
      ∀ v, check token = .ok v → (∀ kind, checkToken kind token = .ok ()) ∧
        ∀ r : Response, r.version = token →
          ∃ f, Frame.locate? r.encode = some (f, []) ∧ (f.headText >>= Wire.readStatusLine) =
            .ok (token, r.status, String.ofList (trim (flattenReason r.reason))) := by
  refine ⟨fun v => parse_eq_ok_iff, fun v => check_eq_ok_iff, ?_, ?_, ?_⟩
  · rintro v ⟨front, major, minor, -, hmajor, hminor, -⟩
    exact ⟨hmajor.lt, hminor.lt⟩
  · rintro f (h | h)
    · obtain ⟨cause, rfl⟩ := parse_error h
      rfl
    · obtain ⟨cause, rfl⟩ := check_error h
      rfl
  · intro v h
    have hspells := (check_eq_ok_iff.mp h).1
    constructor
    · intro kind
      rw [checkToken, if_pos hspells.isToken]
    · intro r hr
      exact hspells.readStatusLine hr

/-- What is close to a version and is none: a second `CMIT/`, a second point, a sign, a digit of
another script, four digits, and no digits at all. -/
example : ["CMIT/CMIT/1.0", "1.0.0", "+1.0", "\u0661.0", "1.0000", "1."].map ofToken? =
    List.replicate 6 none := by
  decide

end Version

end Courier
