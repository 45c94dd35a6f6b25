import Courier.Json.Writer
import Courier.Text.Utf8

/-!
# The text of a JSON value

A written value is one line: every character of it is at least a space, whatever strings, keys and
numbers the value holds. UTF-8 keeps this true of the bytes, as no byte of a longer character is
below `0x80`.

Main statement: `Value.space_le_render`.
-/

namespace Courier

/-! ## Bytes of characters -/

/-- A run ends before the first thing that does not belong to it. -/
theorem Text.span_run {α : Type} {p : α → Bool} {run rest : List α} (hrun : ∀ a ∈ run, p a = true)
    (hrest : ∀ a ∈ rest.head?, p a = false) :
    (run ++ rest).takeWhile p = run ∧ (run ++ rest).dropWhile p = rest := by
  rw [List.takeWhile_append_of_pos hrun, List.dropWhile_append_of_pos hrun]
  cases rest with
  | nil => simp
  | cons a rest => simp [hrest a rfl]

namespace Text.Utf8

@[simp] theorem encode_nil : encode [] = [] := rfl

@[simp] theorem encode_cons (c : Char) (cs : List Char) :
    encode (c :: cs) = encodeChar c ++ encode cs := rfl

@[simp] theorem encode_append (cs ds : List Char) : encode (cs ++ ds) = encode cs ++ encode ds :=
  List.flatMap_append

@[simp] theorem encodeChar_ascii {c : Char} (h : c.toNat < 0x80) :
    encodeChar c = [UInt8.ofNat c.toNat] := by
  simp [encodeChar, encodePoint, h]

/-- No byte of a longer character is ASCII. -/
theorem le_of_mem_encodeChar {c : Char} {b : UInt8} (h : 0x80 ≤ c.toNat)
    (hb : b ∈ encodeChar c) : 0x80 ≤ b.toNat := by
  have hv : c.toNat < 0x110000 := by
    have := c.valid
    simp only [UInt32.isValidChar, Nat.isValidChar] at this
    simp only [Char.toNat]
    omega
  have hlead : ∀ n, 0x80 ≤ n → n < 256 → 0x80 ≤ (UInt8.ofNat n).toNat := by
    intro n hn hn'
    rw [toNat_ofNat_lt hn']
    exact hn
  unfold encodeChar encodePoint at hb
  rw [if_neg (by omega)] at hb
  split at hb
  · simp only [List.mem_cons, List.not_mem_nil, or_false] at hb
    rcases hb with rfl | rfl <;> exact hlead _ (by omega) (by omega)
  split at hb
  · simp only [List.mem_cons, List.not_mem_nil, or_false] at hb
    rcases hb with rfl | rfl | rfl <;> exact hlead _ (by omega) (by omega)
  · simp only [List.mem_cons, List.not_mem_nil, or_false] at hb
    rcases hb with rfl | rfl | rfl | rfl <;> exact hlead _ (by omega) (by omega)

/-- The ASCII bytes of a text are its ASCII characters. -/
theorem mem_encode_ascii {c : Char} (h : c.toNat < 0x80) {cs : List Char} :
    UInt8.ofNat c.toNat ∈ encode cs ↔ c ∈ cs := by
  constructor
  · intro hb
    obtain ⟨d, hd, hb⟩ := List.mem_flatMap.mp hb
    have hn : (UInt8.ofNat c.toNat).toNat = c.toNat := toNat_ofNat_lt (by omega)
    by_cases hd' : d.toNat < 0x80
    · rw [encodeChar_ascii hd', List.mem_singleton] at hb
      have hcd : c.toNat = d.toNat := by
        rw [← hn, hb, toNat_ofNat_lt (by omega)]
      have : c = d := by rw [← Char.ofNat_toNat c, hcd, Char.ofNat_toNat]
      exact this ▸ hd
    · have := le_of_mem_encodeChar (by omega) hb
      omega
  · intro hc
    apply List.mem_flatMap.mpr
    exact ⟨c, hc, by simp [encodeChar_ascii h]⟩

theorem encode_ne_nil {cs : List Char} (h : cs ≠ []) : encode cs ≠ [] := by
  cases cs with
  | nil => exact absurd rfl h
  | cons c cs =>
    obtain ⟨b, tail, hb, -⟩ := front_encodeChar c []
    simp [hb]

end Text.Utf8

/-! ## Digits -/

namespace Decimal

theorem digits_of_lt {n : Nat} (h : n < 10) : digits n = [digitChar n] := by
  rw [digits, digitsOnto, dif_pos h]

theorem digits_of_le {n : Nat} (h : 10 ≤ n) :
    digits n = digits (n / 10) ++ [digitChar (n % 10)] := by
  rw [digits, digitsOnto, dif_neg (by omega), digitsOnto_append]
  rfl

theorem digits_ne_nil (n : Nat) : digits n ≠ [] := digitsOnto_ne_nil n []

theorem of_mem_digits {p : Char → Prop} (h : ∀ d < 10, p (digitChar d)) {n : Nat} {c : Char}
    (hc : c ∈ digits n) : p c := by
  induction n using Nat.strongRecOn with
  | _ n ih =>
    by_cases hn : n < 10
    · rw [digits_of_lt hn, List.mem_singleton] at hc
      exact hc ▸ h n hn
    · rw [digits_of_le (by omega), List.mem_append, List.mem_singleton] at hc
      rcases hc with hc | rfl
      · exact ih (n / 10) (by omega) hc
      · exact h _ (by omega)

theorem toNat_digitChar {d : Nat} (h : d < 10) : (digitChar d).toNat = 48 + d := by
  match d, h with
  | 0, _ | 1, _ | 2, _ | 3, _ | 4, _ | 5, _ | 6, _ | 7, _ | 8, _ | 9, _ => rfl
  | _ + 10, h => exact absurd h (by omega)

theorem hexValue?_digitChar {d : Nat} (h : d < 16) : hexValue? (digitChar d) = some d := by
  match d, h with
  | 0, _ | 1, _ | 2, _ | 3, _ | 4, _ | 5, _ | 6, _ | 7, _ => decide
  | 8, _ | 9, _ | 10, _ | 11, _ | 12, _ | 13, _ | 14, _ | 15, _ => decide
  | _ + 16, h => exact absurd h (by omega)

theorem space_le_digits {n : Nat} {c : Char} (hc : c ∈ digits n) : 32 ≤ c.toNat := by
  apply of_mem_digits (p := fun c => 32 ≤ c.toNat) _ hc
  decide

theorem space_le_integer {i : Int} {c : Char} (hc : c ∈ integer i) : 32 ≤ c.toNat := by
  unfold integer at hc
  split at hc
  · rcases List.mem_cons.mp hc with rfl | hc
    · decide
    · exact space_le_digits hc
  · exact space_le_digits hc

namespace Notation

variable {f : Notation} {ds : List Char} {c : Char}

theorem space_le_positional (hds : ∀ c ∈ ds, 32 ≤ c.toNat) {place : Int}
    (hc : c ∈ positional ds place) : 32 ≤ c.toNat := by
  have hz : ∀ {n}, c ∈ zeros n → 32 ≤ c.toNat := by
    intro n h
    rw [List.eq_of_mem_replicate h]
    decide
  unfold positional at hc
  split at hc
  · simp only [List.cons_append, List.mem_cons, List.mem_append] at hc
    rcases hc with rfl | rfl | hc | hc
    · decide
    · decide
    · exact hz hc
    · exact hds c hc
  split at hc
  · simp only [List.mem_append, List.mem_cons, List.not_mem_nil, or_false] at hc
    rcases hc with (hc | hc) | rfl | rfl
    · exact hds c hc
    · exact hz hc
    · decide
    · decide
  · simp only [List.mem_append, List.mem_cons] at hc
    rcases hc with hc | rfl | hc
    · exact hds c (List.mem_of_mem_take hc)
    · decide
    · exact hds c (List.mem_of_mem_drop hc)

theorem space_le_scientific (hplus : ∀ c ∈ f.plus, 32 ≤ c.toNat) (hds : ∀ c ∈ ds, 32 ≤ c.toNat)
    {place : Int} (hc : c ∈ f.scientific ds place) : 32 ≤ c.toNat := by
  unfold scientific at hc
  rcases List.mem_append.mp hc with hc | hc
  · split at hc
    · exact hds c hc
    · simp only [List.mem_cons] at hc
      rcases hc with rfl | rfl | hc
      · exact hds c (by simp)
      · decide
      · exact hds c (by simp [hc])
    · simp at hc
  · rcases List.mem_cons.mp hc with rfl | hc
    · decide
    split at hc
    · exact space_le_integer hc
    · rcases List.mem_append.mp hc with hc | hc
      · exact hplus c hc
      · exact space_le_integer hc

theorem space_le_render (hplus : ∀ c ∈ f.plus, 32 ≤ c.toNat) {x : Binary} (hc : c ∈ f.render x) :
    32 ≤ c.toNat := by
  have hsign : ∀ {tail : List Char}, c ∈ (if x.negative then ['-'] else []) ++ tail →
      c = '-' ∨ c ∈ tail := by
    intro tail h
    rcases List.mem_append.mp h with h | h
    · split at h
      · exact .inl (List.mem_singleton.mp h)
      · simp at h
    · exact .inr h
  have hds : ∀ c ∈ digits x.shortest.significand, 32 ≤ c.toNat := fun _ => space_le_digits
  unfold render at hc
  dsimp only at hc
  split at hc
  · rcases hsign hc with rfl | hc
    · decide
    · simp only [List.mem_cons, List.not_mem_nil, or_false] at hc
      rcases hc with rfl | rfl | rfl <;> decide
  split at hc
  · rcases hsign hc with rfl | hc
    · decide
    · exact space_le_positional hds hc
  · rcases hsign hc with rfl | hc
    · decide
    · exact space_le_scientific hplus hds hc

end Notation

end Decimal

/-! ## One line -/

namespace Json

open Decimal

theorem Number.space_le_render {n : Number} {c : Char} (hc : c ∈ n.render) : 32 ≤ c.toNat := by
  cases n with
  | whole n => exact space_le_integer hc
  | real x =>
    apply Notation.space_le_render (f := realNotation) _ hc
    intro d hd
    rw [List.mem_singleton.mp hd]
    decide

theorem space_le_escapeChar {c d : Char} (hd : d ∈ escapeChar c) : 32 ≤ d.toNat := by
  have hhex : ∀ n, n < 16 → 32 ≤ (digitChar n).toNat := by decide
  unfold escapeChar at hd
  iterate 7
    split at hd
    · simp only [List.mem_cons, List.not_mem_nil, or_false] at hd
      rcases hd with rfl | rfl <;> decide
  split at hd
  · rename_i hc
    simp only [List.mem_cons, List.not_mem_nil, or_false] at hd
    rcases hd with rfl | rfl | rfl | rfl | rfl | rfl
    · decide
    · decide
    · decide
    · decide
    · exact hhex _ (by omega)
    · exact hhex _ (by omega)
  · rename_i hc
    rw [List.mem_singleton] at hd
    subst hd
    exact Nat.le_of_not_lt hc

theorem space_le_renderString {s : String} {c : Char} (hc : c ∈ renderString s) : 32 ≤ c.toNat := by
  simp only [renderString, List.cons_append, List.mem_cons, List.mem_append, List.mem_flatMap,
    List.not_mem_nil, or_false] at hc
  rcases hc with rfl | ⟨d, -, hc⟩ | rfl
  · decide
  · exact space_le_escapeChar hc
  · decide

mutual

/-- **No character of a written value is a control character**, so the value stays on one line. -/
theorem Value.space_le_render : ∀ (v : Value) {c : Char}, c ∈ v.render → 32 ≤ c.toNat
  | .null, c, hc => by
      simp only [Value.render, List.mem_cons, List.not_mem_nil, or_false] at hc
      rcases hc with rfl | rfl | rfl | rfl <;> decide
  | .bool true, c, hc => by
      simp only [Value.render, List.mem_cons, List.not_mem_nil, or_false] at hc
      rcases hc with rfl | rfl | rfl | rfl <;> decide
  | .bool false, c, hc => by
      simp only [Value.render, List.mem_cons, List.not_mem_nil, or_false] at hc
      rcases hc with rfl | rfl | rfl | rfl | rfl <;> decide
  | .number n, c, hc => Number.space_le_render (by simpa [Value.render] using hc)
  | .string s, c, hc => space_le_renderString (by simpa [Value.render] using hc)
  | .array [], c, hc => by
      simp only [Value.render, List.mem_cons, List.not_mem_nil, or_false] at hc
      rcases hc with rfl | rfl <;> decide
  | .array (v :: vs), c, hc => by
      simp only [Value.render, List.cons_append, List.mem_cons, List.mem_append,
        List.not_mem_nil, or_false] at hc
      rcases hc with rfl | (hc | hc) | rfl
      · decide
      · exact Value.space_le_render v hc
      · exact space_le_renderItems vs hc
      · decide
  | .object fs, c, hc => space_le_renderObject fs (by simpa [Value.render] using hc)

theorem space_le_renderObject :
    ∀ (fs : List (String × Value)) {c : Char}, c ∈ renderObject fs → 32 ≤ c.toNat
  | [], c, hc => by
      simp only [renderObject, List.mem_cons, List.not_mem_nil, or_false] at hc
      rcases hc with rfl | rfl <;> decide
  | (k, v) :: fs, c, hc => by
      simp only [renderObject, List.cons_append, List.append_assoc, List.mem_cons,
        List.mem_append, List.not_mem_nil, or_false] at hc
      rcases hc with rfl | hc | rfl | hc | hc | rfl
      · decide
      · exact space_le_renderString hc
      · decide
      · exact Value.space_le_render v hc
      · exact space_le_renderFields fs hc
      · decide

theorem space_le_renderItems : ∀ (vs : List Value) {c : Char}, c ∈ renderItems vs → 32 ≤ c.toNat
  | [], c, hc => by simp [renderItems] at hc
  | v :: vs, c, hc => by
      simp only [renderItems, List.cons_append, List.mem_cons, List.mem_append] at hc
      rcases hc with rfl | hc | hc
      · decide
      · exact Value.space_le_render v hc
      · exact space_le_renderItems vs hc

theorem space_le_renderFields :
    ∀ (fs : List (String × Value)) {c : Char}, c ∈ renderFields fs → 32 ≤ c.toNat
  | [], c, hc => by simp [renderFields] at hc
  | (k, v) :: fs, c, hc => by
      simp only [renderFields, List.cons_append, List.append_assoc, List.mem_cons,
        List.mem_append] at hc
      rcases hc with rfl | hc | rfl | hc | hc
      · decide
      · exact space_le_renderString hc
      · decide
      · exact Value.space_le_render v hc
      · exact space_le_renderFields fs hc

end

end Json

end Courier
