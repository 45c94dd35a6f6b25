import Courier.Json.Step
import Courier.Proofs.JsonLexemes
import Courier.Proofs.JsonValues

/-!
# What is written as JSON reads back

The reader takes the text of a value for that value, whatever follows it and whatever containers
are open around it, as long as there is room for the containers inside it.

Main statement: `readValue_render`.
-/

namespace Courier.Json

open Text Decimal

/-! ## Steps of the reader over text without blanks -/

section Steps

variable {limit : Nat} {stack : List Pending} {b : UInt8} {rest tail : Bytes}

theorem readValue_scalar {v : Value} (hb : isBlank b = false) (hlist : b ≠ 91) (hobject : b ≠ 123)
    (hv : readScalar b rest = .ok (v, tail)) :
    readValue limit stack (b :: rest) = readAfter limit stack v tail := by
  rw [readValue_eq, stepValue_cons (skipBlanks_cons hb), if_neg hlist, if_neg hobject, hv]
  rfl

theorem readValue_openList (hroom : stack.length < limit) (hb : isBlank b = false) :
    readValue limit stack (91 :: b :: rest)
      = if b = 93 then readAfter limit stack (.array []) rest
        else readValue limit (.list [] :: stack) (b :: rest) := by
  rw [readValue_eq, stepValue_cons (skipBlanks_cons (by decide)), if_pos rfl, openList,
    if_neg (by omega), skipBlanks_cons hb]
  dsimp only
  split <;> rfl

theorem readValue_emptyObject (hroom : stack.length < limit) :
    readValue limit stack (123 :: 125 :: rest) = readAfter limit stack (.object []) rest := by
  rw [readValue_eq, stepValue_cons (skipBlanks_cons (by decide)), if_neg (by decide), if_pos rfl,
    openObject, if_neg (by omega), skipBlanks_cons (by decide)]
  rfl

theorem readKey_written (key : String) (rest : Bytes) :
    readKey (Utf8.encode (key.toList.flatMap escapeChar) ++ 34 :: 58 :: rest)
      = .ok (key, rest) := by
  simp [readKey, readString_written, skipBlanks_cons (show isBlank 58 = false by decide)]

theorem openField_written (fields : Keyed Value) (key : String) (rest : Bytes) :
    openField stack fields (Utf8.encode (key.toList.flatMap escapeChar) ++ 34 :: 58 :: rest)
      = .ok (⟨.object fields key :: stack, none⟩, rest) := by
  rw [openField, readKey_written]

theorem readValue_openObject (hroom : stack.length < limit) (key : String) :
    readValue limit stack
        (123 :: 34 :: (Utf8.encode (key.toList.flatMap escapeChar) ++ 34 :: 58 :: rest))
      = readValue limit (.object [] key :: stack) rest := by
  rw [readValue_eq, stepValue_cons (skipBlanks_cons (by decide)), if_neg (by decide), if_pos rfl,
    openObject, if_neg (by omega), skipBlanks_cons (by decide)]
  dsimp only
  rw [if_neg (by decide), if_pos rfl, openField_written]
  rfl

theorem readAfter_closeList {items : List Value} {v : Value} :
    readAfter limit (.list items :: stack) v (93 :: rest)
      = readAfter limit stack (.array (v :: items).reverse) rest := by
  rw [readAfter_item, stepItem_cons (skipBlanks_cons (by decide)), if_pos rfl]
  rfl

theorem readAfter_nextItem {items : List Value} {v : Value} (hb : isBlank b = false)
    (hclose : b ≠ 93) :
    readAfter limit (.list items :: stack) v (44 :: b :: rest)
      = readValue limit (.list (v :: items) :: stack) (b :: rest) := by
  rw [readAfter_item, stepItem_cons (skipBlanks_cons (by decide)), if_neg (by decide), if_pos rfl,
    nextItem, skipBlanks_cons hb]
  dsimp only
  rw [if_neg hclose]
  rfl

theorem readAfter_closeObject {fields : Keyed Value} {key : String} {v : Value} :
    readAfter limit (.object fields key :: stack) v (125 :: rest)
      = readAfter limit stack (.object (fields.insert key v)) rest := by
  rw [readAfter_field, stepField_cons (skipBlanks_cons (by decide)), if_pos rfl]
  rfl

theorem readAfter_nextField {fields : Keyed Value} {key next : String} {v : Value} :
    readAfter limit (.object fields key :: stack) v
        (44 :: 34 :: (Utf8.encode (next.toList.flatMap escapeChar) ++ 34 :: 58 :: rest))
      = readValue limit (.object (fields.insert key v) next :: stack) rest := by
  rw [readAfter_field, stepField_cons (skipBlanks_cons (by decide)), if_neg (by decide),
    if_pos rfl, nextField, skipBlanks_cons (by decide)]
  dsimp only
  rw [if_pos rfl, openField_written]
  rfl

end Steps

/-! ## Numbers as values -/

def startsNumber (b : UInt8) : Bool := b == 45 || isDigit b

theorem isBlank_of_startsNumber {b : UInt8} (h : startsNumber b = true) : isBlank b = false := by
  rw [← Bool.not_eq_true]
  intro hb
  simp only [isBlank, Bool.or_eq_true, beq_iff_eq] at hb
  rcases hb with ((rfl | rfl) | rfl) | rfl <;> exact absurd h (by decide)

theorem readScalar_digits {n : Nat} (hn : n ≤ maxSignificand) {rest : Bytes}
    (hrest : EndsNumber rest) :
    ∃ b tail, Utf8.encode (digits n) = b :: tail ∧ startsNumber b = true ∧
      readScalar b (tail ++ rest) = .ok (.number (.whole n), rest) := by
  have hread := readNumber_digits hn hrest true
  cases hcase : Utf8.encode (digits n) with
  | nil => exact absurd hcase (Utf8.encode_ne_nil (digits_ne_nil n))
  | cons b tail =>
    have hb : isDigit b = true := isDigit_encode_digits n b (by simp [hcase])
    have hne : ∀ c : UInt8, isDigit c = false → b ≠ c := by
      intro c hc hbc
      rw [hbc, hc] at hb
      cases hb
    rw [hcase, List.cons_append] at hread
    refine ⟨b, tail, rfl, by simp [startsNumber, hb], ?_⟩
    rw [readScalar, if_neg (hne 110 (by decide)), if_neg (hne 116 (by decide)),
      if_neg (hne 102 (by decide)), if_neg (hne 45 (by decide)), if_pos hb, hread]
    rfl

theorem readScalar_minus {bs rest : Bytes} {n : Number}
    (h : readNumber false bs = .ok (n, rest)) : readScalar 45 bs = .ok (.number n, rest) := by
  rw [readScalar, if_neg (by decide), if_neg (by decide), if_neg (by decide), if_pos rfl, h]

theorem readScalar_number {n : Number} (hrange : n.InRange) (hwhole : n.IsIntegral) {rest : Bytes}
    (hrest : EndsNumber rest) :
    ∃ b tail, Utf8.encode n.render = b :: tail ∧ startsNumber b = true ∧
      readScalar b (tail ++ rest) = .ok (.number n, rest) := by
  have hmax : maxSignificand = twoTo 64 - 1 := rfl
  have hhalf : twoTo 63 ≤ maxSignificand := by decide
  cases n with
  | whole i =>
    obtain ⟨hlow, hhigh⟩ : -(twoTo 63 : Int) ≤ i ∧ i < twoTo 64 := hrange
    by_cases hneg : i < 0
    · have hread := readNumber_digits (n := i.natAbs) (by omega) hrest false
      have hfinish : finishWhole false i.natAbs rest = .ok (.whole i, rest) := by
        have hfits : i.natAbs ≠ 0 ∧ i.natAbs ≤ twoTo 63 := by omega
        have hi : -(i.natAbs : Int) = i := by omega
        rw [finishWhole, if_neg (by decide), if_pos hfits, hi]
      refine ⟨45, Utf8.encode (digits i.natAbs), ?_, by decide, ?_⟩
      · simp [Number.render, integer, hneg]
      · exact readScalar_minus (hread.trans hfinish)
    · have hi : (i.natAbs : Int) = i := by omega
      obtain ⟨b, tail, hcons, hb, hread⟩ := readScalar_digits (n := i.natAbs) (by omega) hrest
      refine ⟨b, tail, ?_, hb, ?_⟩
      · simpa [Number.render, integer, hneg] using hcons
      · rw [hread, hi]
  | real x =>
    obtain rfl : x = Binary.zero.neg := hwhole
    refine ⟨45, [48, 46, 48], by decide +kernel, by decide, ?_⟩
    exact readScalar_minus (readNumber_zero hrest)

/-! ## The whole tree -/

theorem endsNumber_cons {b : UInt8} (h : b = 44 ∨ b = 93 ∨ b = 125) (rest : Bytes) :
    EndsNumber (b :: rest) := by
  rintro c ⟨⟩
  rcases h with rfl | rfl | rfl <;> decide

theorem endsNumber_renderItems (vs : List Value) (rest : Bytes) :
    EndsNumber (Utf8.encode (renderItems vs) ++ 93 :: rest) := by
  cases vs with
  | nil => exact endsNumber_cons (by decide) rest
  | cons v vs =>
    simp only [renderItems, List.cons_append, Utf8.encode_cons]
    exact endsNumber_cons (.inl rfl) _

theorem endsNumber_renderFields (fs : List (String × Value)) (rest : Bytes) :
    EndsNumber (Utf8.encode (renderFields fs) ++ 125 :: rest) := by
  cases fs with
  | nil => exact endsNumber_cons (by decide) rest
  | cons f fs =>
    simp only [renderFields, List.cons_append, Utf8.encode_cons]
    exact endsNumber_cons (.inl rfl) _

/-- No value begins like the blanks or the end of a list. -/
theorem encode_render_cons {v : Value} (hrange : v.WellFormed) (hwhole : v.Integral) :
    ∃ b tail, Utf8.encode v.render = b :: tail ∧ isBlank b = false ∧ b ≠ 93 := by
  cases v with
  | null => exact ⟨110, _, rfl, by decide, by decide⟩
  | bool b => cases b <;> exact ⟨_, _, rfl, by decide, by decide⟩
  | number n =>
    obtain ⟨b, tail, hcons, hb, -⟩ :=
      readScalar_number hrange hwhole (show EndsNumber [] by rintro c ⟨⟩)
    refine ⟨b, tail, hcons, isBlank_of_startsNumber hb, ?_⟩
    rintro rfl
    exact absurd hb (by decide)
  | string s => exact ⟨34, _, rfl, by decide, by decide⟩
  | array vs => cases vs <;> exact ⟨91, _, rfl, by decide, by decide⟩
  | object fs => cases fs <;> exact ⟨123, _, rfl, by decide, by decide⟩

theorem encode_renderFields_cons (key : String) (v : Value) (fs : List (String × Value))
    (rest : Bytes) : Utf8.encode (renderFields ((key, v) :: fs)) ++ rest =
      44 :: 34 :: (Utf8.encode (key.toList.flatMap escapeChar) ++ 34 :: 58 ::
        (Utf8.encode v.render ++ (Utf8.encode (renderFields fs) ++ rest))) := by
  simp [renderFields, encode_renderString]

theorem encode_renderObject_cons (key : String) (v : Value) (fs : List (String × Value))
    (rest : Bytes) : Utf8.encode (renderObject ((key, v) :: fs)) ++ rest =
      123 :: 34 :: (Utf8.encode (key.toList.flatMap escapeChar) ++ 34 :: 58 ::
        (Utf8.encode v.render ++ (Utf8.encode (renderFields fs) ++ 125 :: rest))) := by
  simp [renderObject, encode_renderString]

mutual

/-- **The text of a value is read as that value**, whatever follows it, inside whatever containers
are open, as long as there is room for its own. -/
theorem readValue_render : ∀ (v : Value) {limit : Nat} {stack : List Pending} {rest : Bytes},
    v.WellFormed → v.Integral → v.depth + stack.length ≤ limit → EndsNumber rest →
    readValue limit stack (Utf8.encode v.render ++ rest) = readAfter limit stack v rest
  | .null, limit, stack, rest, _, _, _, _ => by
      show readValue limit stack (110 :: ([117, 108, 108] ++ rest)) = _
      apply readValue_scalar (by decide) (by decide) (by decide)
      rw [readScalar, if_pos rfl, readWord_append]
  | .bool true, limit, stack, rest, _, _, _, _ => by
      show readValue limit stack (116 :: ([114, 117, 101] ++ rest)) = _
      apply readValue_scalar (by decide) (by decide) (by decide)
      rw [readScalar, if_neg (by decide), if_pos rfl, readWord_append]
  | .bool false, limit, stack, rest, _, _, _, _ => by
      show readValue limit stack (102 :: ([97, 108, 115, 101] ++ rest)) = _
      apply readValue_scalar (by decide) (by decide) (by decide)
      rw [readScalar, if_neg (by decide), if_neg (by decide), if_pos rfl, readWord_append]
  | .number n, limit, stack, rest, hrange, hwhole, _, hrest => by
      obtain ⟨b, tail, hcons, hb, hread⟩ := readScalar_number hrange hwhole hrest
      have hne : ∀ c : UInt8, startsNumber c = false → b ≠ c := by
        intro c hc hbc
        rw [hbc, hc] at hb
        cases hb
      rw [Value.render, hcons]
      exact readValue_scalar (isBlank_of_startsNumber hb) (hne 91 (by decide))
        (hne 123 (by decide)) hread
  | .string s, limit, stack, rest, _, _, _, _ => by
      have hread := readString_written s rest
      rw [Value.render, encode_renderString, List.append_assoc, List.cons_append]
      apply readValue_scalar (by decide) (by decide) (by decide)
      rw [readScalar, if_neg (by decide), if_neg (by decide), if_neg (by decide),
        if_neg (by decide), if_neg (by decide), if_pos rfl, List.singleton_append, hread]
  | .array [], limit, stack, rest, _, _, hdepth, _ => by
      have hroom : stack.length < limit := by simp only [Value.depth] at hdepth; omega
      show readValue limit stack (91 :: 93 :: rest) = _
      rw [readValue_openList hroom (by decide), if_pos rfl]
  | .array (v :: vs), limit, stack, rest, hrange, hwhole, hdepth, _ => by
      simp only [Value.wellFormed_array, List.forall_mem_cons] at hrange
      simp only [Value.integral_array, List.forall_mem_cons] at hwhole
      simp only [Value.depth, depthOfItems] at hdepth
      -- the byte behind the bracket tells a list with items from an empty one
      obtain ⟨b, tail, hcons, hb, hclose⟩ := encode_render_cons hrange.1 hwhole.1
      have htext : Utf8.encode (Value.array (v :: vs)).render ++ rest
          = 91 :: b :: (tail ++ (Utf8.encode (renderItems vs) ++ 93 :: rest)) := by
        simp [Value.render, hcons]
      rw [htext, readValue_openList (by omega) hb, if_neg hclose, ← List.cons_append, ← hcons,
        readValue_render v hrange.1 hwhole.1 (by rw [List.length_cons]; omega)
          (endsNumber_renderItems vs rest),
        readAfter_renderItems vs hrange.2 hwhole.2 (by omega)]
      rfl
  | .object fs, limit, stack, rest, hrange, hwhole, hdepth, _ => by
      simp only [Value.wellFormed_object] at hrange
      simp only [Value.integral_object] at hwhole
      simp only [Value.depth] at hdepth
      -- the fields are put into an object one by one, and those in order stay as they are
      rw [Value.render, readValue_renderObject fs hrange.2 hwhole (by omega),
        Keyed.ofList_of_ascending hrange.1]

/-- Fields that need not be in order are read as the object that has them. -/
theorem readValue_renderObject :
    ∀ (fs : List (String × Value)) {limit : Nat} {stack : List Pending} {rest : Bytes},
    (∀ f ∈ fs, f.2.WellFormed) → (∀ f ∈ fs, f.2.Integral) →
    depthOfFields fs + 1 + stack.length ≤ limit →
    readValue limit stack (Utf8.encode (renderObject fs) ++ rest)
      = readAfter limit stack (.object (Keyed.ofList fs)) rest
  | [], limit, stack, rest, _, _, hdepth => by
      exact readValue_emptyObject (by omega)
  | (key, v) :: fs, limit, stack, rest, hrange, hwhole, hdepth => by
      simp only [List.forall_mem_cons] at hrange hwhole
      simp only [depthOfFields] at hdepth
      rw [encode_renderObject_cons, readValue_openObject (by omega),
        readValue_render v hrange.1 hwhole.1 (by rw [List.length_cons]; omega)
          (endsNumber_renderFields fs rest),
        readAfter_renderFields fs hrange.2 hwhole.2 (by omega)]
      rfl

theorem readAfter_renderItems :
    ∀ (vs : List Value) {limit : Nat} {stack : List Pending} {done : List Value} {v : Value}
      {rest : Bytes},
    (∀ v ∈ vs, v.WellFormed) → (∀ v ∈ vs, v.Integral) →
    depthOfItems vs + 1 + stack.length ≤ limit →
    readAfter limit (.list done :: stack) v (Utf8.encode (renderItems vs) ++ 93 :: rest)
      = readAfter limit stack (.array (done.reverse ++ v :: vs)) rest
  | [], limit, stack, done, v, rest, _, _, _ => by
      show readAfter limit (.list done :: stack) v (93 :: rest) = _
      rw [readAfter_closeList, List.reverse_cons]
  | w :: vs, limit, stack, done, v, rest, hrange, hwhole, hdepth => by
      simp only [List.forall_mem_cons] at hrange hwhole
      simp only [depthOfItems] at hdepth
      obtain ⟨b, tail, hcons, hb, hclose⟩ := encode_render_cons hrange.1 hwhole.1
      have htext : Utf8.encode (renderItems (w :: vs)) ++ 93 :: rest
          = 44 :: b :: (tail ++ (Utf8.encode (renderItems vs) ++ 93 :: rest)) := by
        simp [renderItems, hcons]
      rw [htext, readAfter_nextItem hb hclose, ← List.cons_append, ← hcons,
        readValue_render w hrange.1 hwhole.1 (by rw [List.length_cons]; omega)
          (endsNumber_renderItems vs rest),
        readAfter_renderItems vs hrange.2 hwhole.2 (by omega)]
      simp

theorem readAfter_renderFields :
    ∀ (fs : List (String × Value)) {limit : Nat} {stack : List Pending} {done : Keyed Value}
      {key : String} {v : Value} {rest : Bytes},
    (∀ f ∈ fs, f.2.WellFormed) → (∀ f ∈ fs, f.2.Integral) →
    depthOfFields fs + 1 + stack.length ≤ limit →
    readAfter limit (.object done key :: stack) v (Utf8.encode (renderFields fs) ++ 125 :: rest)
      = readAfter limit stack
          (.object (fs.foldl (fun kvs f => Keyed.insert f.1 f.2 kvs) (done.insert key v))) rest
  | [], limit, stack, done, key, v, rest, _, _, _ => by
      show readAfter limit (.object done key :: stack) v (125 :: rest) = _
      rw [readAfter_closeObject]
      rfl
  | (next, w) :: fs, limit, stack, done, key, v, rest, hrange, hwhole, hdepth => by
      simp only [List.forall_mem_cons] at hrange hwhole
      simp only [depthOfFields] at hdepth
      rw [encode_renderFields_cons, readAfter_nextField,
        readValue_render w hrange.1 hwhole.1 (by rw [List.length_cons]; omega)
          (endsNumber_renderFields fs rest),
        readAfter_renderFields fs hrange.2 hwhole.2 (by omega)]
      rfl

end

end Courier.Json
