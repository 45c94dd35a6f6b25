import Courier.Json.Error
import Courier.Json.Value

/-!
# Literals, strings and numbers of JSON

Each reader takes the bytes from the lexeme on, after its first byte where that byte told which
reader to call, and gives what it read and the bytes after it. A fault carries the bytes after the
place it is reported at: the byte that was taken last, or the one that was looked at.

Reals are read in three roundings: the digits that fit 64 bits, a power of ten, and their product or
quotient.
-/

namespace Courier.Json

open Text Decimal

abbrev Outcome (α : Type) := Except Fault (α × Bytes)

/-- A fault at the last byte taken. -/
def failAt {α : Type} (flaw : Flaw) (rest : Bytes) : Outcome α := .error ⟨flaw, rest⟩

/-- A fault at the byte looked at, which is the first of `rest`. -/
def failOn {α : Type} (flaw : Flaw) (rest : Bytes) : Outcome α := .error ⟨flaw, rest.tail⟩

def isBlank (b : UInt8) : Bool := b == 9 || b == 10 || b == 13 || b == 32

def skipBlanks (bs : Bytes) : Bytes := bs.dropWhile isBlank

theorem length_skipBlanks (bs : Bytes) : (skipBlanks bs).length ≤ bs.length :=
  (List.dropWhile_suffix _).length_le

theorem length_of_skipBlanks {b : UInt8} {bs rest : Bytes} (h : skipBlanks bs = b :: rest) :
    rest.length < bs.length := by
  have hskip := length_skipBlanks bs
  rw [h] at hskip
  exact hskip

def readWord : (word : Bytes) → Bytes → Outcome Unit
  | [], rest => .ok ((), rest)
  | _ :: _, [] => failAt .endInValue []
  | w :: ws, b :: rest =>
      if b = w then readWord ws rest else failAt .expectedLiteral rest

theorem length_readWord {word bs rest : Bytes} (h : readWord word bs = .ok ((), rest)) :
    rest.length ≤ bs.length := by
  induction word generalizing bs with
  | nil => simp [readWord] at h; simp [h]
  | cons w ws ih =>
      cases bs with
      | nil => simp [readWord, failAt] at h
      | cons b bs =>
          simp only [readWord] at h
          split at h
          · have := ih h; simp only [List.length_cons]; omega
          · simp [failAt] at h

/-! ## Strings -/

def hexValue? (b : UInt8) : Option Nat := Decimal.hexValue? (Char.ofNat b.toNat)

def readHex4 : Bytes → Outcome Nat
  | a :: b :: c :: d :: rest =>
      match hexValue? a, hexValue? b, hexValue? c, hexValue? d with
      | some a, some b, some c, some d => .ok (((a * 16 + b) * 16 + c) * 16 + d, rest)
      | _, _, _, _ => failAt .invalidEscape rest
  | _ => failAt .endInString []

/-- Reads the second half of a surrogate pair, from its backslash on, to the code point of the
pair. -/
def readTrailing (lead : Nat) : Bytes → Outcome Nat
  | [] => failAt .endInString []
  | [b] => if b = 92 then failAt .endInString [] else failAt .endOfSurrogate []
  | b :: c :: rest =>
      if b ≠ 92 then failAt .endOfSurrogate (c :: rest)
      else if c ≠ 117 then failAt .endOfSurrogate rest
      else match readHex4 rest with
        | .error f => .error f
        | .ok (trail, rest) =>
            if 0xDC00 ≤ trail ∧ trail ≤ 0xDFFF then
              .ok (0x10000 + (lead - 0xD800) * 0x400 + (trail - 0xDC00), rest)
            else failAt .loneSurrogate rest

def readCodePoint (bs : Bytes) : Outcome Nat :=
  match readHex4 bs with
  | .error f => .error f
  | .ok (n, rest) =>
      if 0xDC00 ≤ n ∧ n ≤ 0xDFFF then failAt .loneSurrogate rest
      else if 0xD800 ≤ n ∧ n ≤ 0xDBFF then readTrailing n rest
      else .ok (n, rest)

def shortEscape? (b : UInt8) : Option Char :=
  if b = 34 then some '"'
  else if b = 92 then some '\\'
  else if b = 47 then some '/'
  else if b = 98 then some '\x08'
  else if b = 102 then some '\x0c'
  else if b = 110 then some '\n'
  else if b = 114 then some '\r'
  else if b = 116 then some '\t'
  else none

def readEscape : Bytes → Outcome Char
  | [] => failAt .endInString []
  | b :: rest =>
      match shortEscape? b with
      | some c => .ok (c, rest)
      | none =>
          if b = 117 then
            match readCodePoint rest with
            | .error f => .error f
            | .ok (n, rest) => .ok (Char.ofNat n, rest)
          else failAt .invalidEscape rest

theorem length_readHex4 {bs rest : Bytes} {n : Nat} (h : readHex4 bs = .ok (n, rest)) :
    rest.length ≤ bs.length := by
  unfold readHex4 at h
  split at h
  · split at h
    · simp only [Except.ok.injEq, Prod.mk.injEq] at h
      simp only [← h.2, List.length_cons]; omega
    · simp [failAt] at h
  · simp [failAt] at h

theorem length_readTrailing {bs rest : Bytes} {lead n : Nat}
    (h : readTrailing lead bs = .ok (n, rest)) : rest.length ≤ bs.length := by
  unfold readTrailing at h
  split at h
  · simp [failAt] at h
  · split at h <;> simp [failAt] at h
  · split at h
    · simp [failAt] at h
    split at h
    · simp [failAt] at h
    split at h
    · simp at h
    · rename_i hv
      have hl := length_readHex4 hv
      split at h
      · simp only [Except.ok.injEq, Prod.mk.injEq] at h
        simp only [← h.2, List.length_cons]; omega
      · simp [failAt] at h

theorem length_readCodePoint {bs rest : Bytes} {n : Nat}
    (h : readCodePoint bs = .ok (n, rest)) : rest.length ≤ bs.length := by
  unfold readCodePoint at h
  split at h
  · simp at h
  · rename_i hv
    have hl := length_readHex4 hv
    split at h
    · simp [failAt] at h
    split at h
    · have := length_readTrailing h; omega
    · simp only [Except.ok.injEq, Prod.mk.injEq] at h
      simpa only [← h.2] using hl

theorem length_readEscape {bs rest : Bytes} {c : Char} (h : readEscape bs = .ok (c, rest)) :
    rest.length < bs.length := by
  unfold readEscape at h
  split at h
  · simp [failAt] at h
  split at h
  · simp only [Except.ok.injEq, Prod.mk.injEq] at h
    simp [← h.2]
  split at h
  · split at h
    · simp at h
    · rename_i hv
      have hl := length_readCodePoint hv
      simp only [Except.ok.injEq, Prod.mk.injEq] at h
      simp only [← h.2, List.length_cons]; omega
  · simp [failAt] at h

/-- Reads the octets of a string onto those already read (latest first), through its closing quote.
Escapes become the octets of their characters. -/
def readOctetsOnto (done : Bytes) : Bytes → Outcome Bytes
  | [] => failAt .endInString []
  | b :: rest =>
      if b = 34 then .ok (done.reverse, rest)
      else if b = 92 then
        match h : readEscape rest with
        | .ok (c, rest') =>
            have := length_readEscape h
            readOctetsOnto ((Utf8.encodeChar c).reverse ++ done) rest'
        | .error f => .error f
      else if b < 32 then failAt .controlInString rest
      else readOctetsOnto (b :: done) rest
termination_by bs => bs.length

/-- Reads a string, after its opening quote. What its octets spell is looked at once its closing
quote is found. An ill-formed start is then placed as many bytes before what follows the quote as
there are octets from it on. -/
def readString (bs : Bytes) : Outcome String :=
  match readOctetsOnto [] bs with
  | .error f => .error f
  | .ok (octets, rest) =>
      match Utf8.decode? octets with
      | some cs => .ok (String.ofList cs, rest)
      | none =>
          let left := rest.length + (Utf8.dropWellFormed octets).length
          failAt .invalidText (bs.drop (bs.length - left))

theorem length_readOctetsOnto {done bs rest octets : Bytes}
    (h : readOctetsOnto done bs = .ok (octets, rest)) : rest.length < bs.length := by
  fun_induction readOctetsOnto done bs with
  | case1 => simp [failAt] at h
  | case2 done bs =>
      simp only [Except.ok.injEq, Prod.mk.injEq] at h
      simp [← h.2]
  | case3 done bs _ c rest' he hl ih =>
      have := ih h
      simp only [List.length_cons]; omega
  | case4 => simp at h
  | case5 => simp [failAt] at h
  | case6 done b bs _ _ _ ih =>
      have := ih h
      simp only [List.length_cons]; omega

theorem length_readString {bs rest : Bytes} {s : String} (h : readString bs = .ok (s, rest)) :
    rest.length < bs.length := by
  unfold readString at h
  split at h
  · simp at h
  · rename_i hr
    split at h
    · simp only [Except.ok.injEq, Prod.mk.injEq] at h
      exact h.2 ▸ length_readOctetsOnto hr
    · simp [failAt] at h

/-! ## Numbers -/

def isDigit (b : UInt8) : Bool := 48 ≤ b && b ≤ 57

def digitOf (b : UInt8) : Nat := b.toNat % 48

/-- The number that `n` becomes when the digits follow it, as long as it stays at most `limit`, and
how many digits are left over. -/
def absorb (limit : Nat) : Nat → Bytes → Nat × Nat
  | n, [] => (n, 0)
  | n, d :: ds =>
      if n * 10 + digitOf d ≤ limit then absorb limit (n * 10 + digitOf d) ds
      else (n, ds.length + 1)

def maxSignificand : Nat := twoTo 64 - 1

def maxPower : Nat := twoTo 31 - 1

/-- `x / 10^k`, by steps of at most `10^308`. -/
def divideByPower (x : Binary) (k : Nat) : Binary :=
  if k ≤ 308 then
    (((Binary.tenTo? k).bind x.div?).getD Binary.zero)
  else if x.isZero then x
  else divideByPower (((Binary.tenTo? 308).bind x.div?).getD Binary.zero) (k - 308)
termination_by k

def scale? (significand : Nat) (exponent : Int) : Option Binary := do
  let x ← Binary.ofNat? significand
  if 0 ≤ exponent then
    if exponent ≤ 308 then (Binary.tenTo? exponent.toNat).bind x.mul?
    else if x.isZero then some x
    else none
  else some (divideByPower x exponent.natAbs)

def signed (positive : Bool) (x : Binary) : Number := .real (if positive then x else x.neg)

def finishReal (positive : Bool) (significand : Nat) (exponent : Int) (rest : Bytes) :
    Outcome Number :=
  match scale? significand exponent with
  | some x => .ok (signed positive x, rest)
  | none => failAt .numberOutOfRange rest

/-- The whole number read up to `rest`. Below zero it has 63 bits, and a larger one is a real; so is
the zero with a minus sign. -/
def finishWhole (positive : Bool) (significand : Nat) (rest : Bytes) : Outcome Number :=
  if positive then .ok (.whole significand, rest)
  else if significand ≠ 0 ∧ significand ≤ twoTo 63 then .ok (.whole (-significand), rest)
  else finishReal positive significand 0 rest

def exponentSign : Bytes → Bool × Bytes
  | 43 :: rest => (true, rest)
  | 45 :: rest => (false, rest)
  | rest => (true, rest)

/-- Reads the digits of an exponent. One too large for 31 bits makes the number zero or too
large. -/
def readExponentDigits (positive : Bool) (significand : Nat) (start : Int) (up : Bool)
    (bs : Bytes) : Outcome Number :=
  match bs with
  | [] => failAt .endInValue []
  | b :: rest =>
      if isDigit b then
        let ds := bs.takeWhile isDigit
        let rest := bs.dropWhile isDigit
        match absorb maxPower 0 ds with
        | (power, 0) =>
            finishReal positive significand (if up then start + power else start - power) rest
        | (_, surplus + 1) =>
            if significand ≠ 0 ∧ up then failAt .numberOutOfRange (bs.drop (ds.length - surplus))
            else .ok (signed positive Binary.zero, rest)
      else failAt .invalidNumber rest

def readExponent (positive : Bool) (significand : Nat) (start : Int) (bs : Bytes) :
    Outcome Number :=
  let (up, rest) := exponentSign bs
  readExponentDigits positive significand start up rest

/-- Reads the places after the point. Those that the significand has no room for do not count. -/
def readPlaces (positive : Bool) (significand : Nat) (start : Int) (bs : Bytes) :
    Outcome Number :=
  let ds := bs.takeWhile isDigit
  let rest := bs.dropWhile isDigit
  let (significand, surplus) := absorb maxSignificand significand ds
  let exponent := start - (ds.length - surplus : Nat)
  match ds, rest with
  | [], [] => failAt .endInValue []
  | [], _ :: _ => failOn .invalidNumber rest
  | _ :: _, b :: tail =>
      if b = 101 ∨ b = 69 then readExponent positive significand exponent tail
      else finishReal positive significand exponent rest
  | _ :: _, [] => finishReal positive significand exponent rest

/-- Reads what may follow the digits before the point. Of these, `surplus` did not fit the
significand. -/
def readTail (positive : Bool) (significand surplus : Nat) (bs : Bytes) : Outcome Number :=
  match bs with
  | 46 :: rest => readPlaces positive significand surplus rest
  | 101 :: rest => readExponent positive significand surplus rest
  | 69 :: rest => readExponent positive significand surplus rest
  | _ =>
      if surplus = 0 then finishWhole positive significand bs
      else finishReal positive significand surplus bs

/-- Reads a number, after its minus sign if it has one. A zero stands alone before the point. -/
def readNumber (positive : Bool) (bs : Bytes) : Outcome Number :=
  match bs with
  | [] => failAt .endInValue []
  | b :: rest =>
      if b = 48 then
        match rest with
        | c :: tail => if isDigit c then failAt .invalidNumber tail else readTail positive 0 0 rest
        | [] => readTail positive 0 0 rest
      else if isDigit b then
        let (significand, surplus) := absorb maxSignificand 0 (bs.takeWhile isDigit)
        readTail positive significand surplus (bs.dropWhile isDigit)
      else failAt .invalidNumber rest

theorem length_dropWhile_isDigit (bs : Bytes) : (bs.dropWhile isDigit).length ≤ bs.length :=
  (List.dropWhile_suffix _).length_le

theorem length_exponentSign (bs : Bytes) : (exponentSign bs).2.length ≤ bs.length := by
  unfold exponentSign
  split <;> simp

theorem rest_finishReal {positive : Bool} {significand : Nat} {exponent : Int}
    {bs rest : Bytes} {n : Number}
    (h : finishReal positive significand exponent bs = .ok (n, rest)) :
    rest = bs := by
  unfold finishReal at h
  split at h
  · simp only [Except.ok.injEq, Prod.mk.injEq] at h; exact h.2.symm
  · simp [failAt] at h

theorem rest_finishWhole {positive : Bool} {significand : Nat} {bs rest : Bytes} {n : Number}
    (h : finishWhole positive significand bs = .ok (n, rest)) : rest = bs := by
  unfold finishWhole at h
  repeat' split at h
  · simp only [Except.ok.injEq, Prod.mk.injEq] at h; exact h.2.symm
  · simp only [Except.ok.injEq, Prod.mk.injEq] at h; exact h.2.symm
  · exact rest_finishReal h

theorem length_readExponentDigits {positive up : Bool} {significand : Nat} {start : Int}
    {bs rest : Bytes} {n : Number}
    (h : readExponentDigits positive significand start up bs = .ok (n, rest)) :
    rest.length ≤ bs.length := by
  unfold readExponentDigits at h
  split at h
  · simp [failAt] at h
  split at h
  · dsimp only at h
    split at h
    · have := rest_finishReal h
      subst this
      exact length_dropWhile_isDigit _
    · split at h
      · simp [failAt] at h
      · simp only [Except.ok.injEq, Prod.mk.injEq] at h
        rw [← h.2]
        exact length_dropWhile_isDigit _
  · simp [failAt] at h

theorem length_readExponent {positive : Bool} {significand : Nat} {start : Int}
    {bs rest : Bytes} {n : Number}
    (h : readExponent positive significand start bs = .ok (n, rest)) :
    rest.length ≤ bs.length :=
  Nat.le_trans (length_readExponentDigits h) (length_exponentSign bs)

theorem length_readPlaces {positive : Bool} {significand : Nat} {start : Int}
    {bs rest : Bytes} {n : Number} (h : readPlaces positive significand start bs = .ok (n, rest)) :
    rest.length ≤ bs.length := by
  have hl := length_dropWhile_isDigit bs
  unfold readPlaces at h
  dsimp only at h
  repeat' split at h
  · simp [failAt] at h
  · simp [failOn] at h
  · rename_i hr _
    have := length_readExponent h
    rw [hr, List.length_cons] at hl
    omega
  · rename_i hr _
    rw [hr] at hl
    rw [rest_finishReal h, hr]
    exact hl
  · rename_i hr
    rw [rest_finishReal h, hr]
    simp

theorem length_readTail {positive : Bool} {significand surplus : Nat} {bs rest : Bytes} {n : Number}
    (h : readTail positive significand surplus bs = .ok (n, rest)) : rest.length ≤ bs.length := by
  unfold readTail at h
  split at h
  · have := length_readPlaces h; simp only [List.length_cons]; omega
  · have := length_readExponent h; simp only [List.length_cons]; omega
  · have := length_readExponent h; simp only [List.length_cons]; omega
  · split at h
    · exact Nat.le_of_eq (congrArg List.length (rest_finishWhole h))
    · exact Nat.le_of_eq (congrArg List.length (rest_finishReal h))

theorem length_readNumber {positive : Bool} {bs rest : Bytes} {n : Number}
    (h : readNumber positive bs = .ok (n, rest)) : rest.length < bs.length := by
  unfold readNumber at h
  split at h
  · simp [failAt] at h
  split at h
  · split at h
    · split at h
      · simp [failAt] at h
      · have := length_readTail h; simp only [List.length_cons] at this ⊢; omega
    · have := length_readTail h; simp only [List.length_nil, List.length_cons] at this ⊢; omega
  split at h
  · rename_i b tail _ hd
    have ht := length_readTail h
    have hl := length_dropWhile_isDigit tail
    rw [List.dropWhile_cons, if_pos hd] at ht
    simp only [List.length_cons]
    omega
  · simp [failAt] at h

end Courier.Json
