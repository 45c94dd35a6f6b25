import Courier.Json.Step
import Courier.Proofs.JsonValues

/-!
# What the JSON reader gives

Whatever the bytes, a value that is read from them is held in the one way values are held: its whole
numbers are in range, the fields of its objects stand in order, each key once, and it is no deeper
than the limit. The reader moves between values and containers in nine ways (`Move`), and each keeps
the invariant that what the open containers hold already is well-formed and not too deep for the
place where it stands (`Pending.Sound`). What every move keeps holds of the value that is given
(`invariant_read`). A value that begins with a bracket or a brace is a container, and any other is
told by its first byte (`readValue_scalar_iff`).

Main statement: `wellFormed_read`.
-/

namespace Courier

namespace Json

open Text Decimal

/-! ## Numbers -/

theorem absorb_le {limit n : Nat} (h : n ≤ limit) (ds : Bytes) : (absorb limit n ds).1 ≤ limit := by
  induction ds generalizing n with
  | nil => exact h
  | cons d ds ih =>
    rw [absorb]
    split
    · rename_i hd
      exact ih hd
    · exact h

theorem inRange_finishReal {positive : Bool} {significand : Nat} {exponent : Int}
    {bs rest : Bytes} {n : Number}
    (h : finishReal positive significand exponent bs = .ok (n, rest)) : n.InRange := by
  unfold finishReal at h
  split at h
  · simp only [Except.ok.injEq, Prod.mk.injEq] at h
    rw [← h.1]
    trivial
  · simp [failAt] at h

theorem inRange_finishWhole {positive : Bool} {significand : Nat}
    (hs : significand ≤ maxSignificand) {bs rest : Bytes} {n : Number}
    (h : finishWhole positive significand bs = .ok (n, rest)) : n.InRange := by
  have hmax : maxSignificand = twoTo 64 - 1 := rfl
  have hpos : 0 < twoTo 64 := by decide
  unfold finishWhole at h
  split at h
  · simp only [Except.ok.injEq, Prod.mk.injEq] at h
    rw [← h.1]
    show -(twoTo 63 : Int) ≤ significand ∧ (significand : Int) < twoTo 64
    omega
  split at h
  · rename_i hneg
    simp only [Except.ok.injEq, Prod.mk.injEq] at h
    rw [← h.1]
    show -(twoTo 63 : Int) ≤ -(significand : Int) ∧ -(significand : Int) < twoTo 64
    omega
  · exact inRange_finishReal h

theorem inRange_readExponent {positive : Bool} {significand : Nat} {start : Int}
    {bs rest : Bytes} {n : Number}
    (h : readExponent positive significand start bs = .ok (n, rest)) : n.InRange := by
  unfold readExponent readExponentDigits at h
  dsimp only at h
  repeat' split at h
  · simp [failAt] at h
  · exact inRange_finishReal h
  · exact inRange_finishReal h
  · simp [failAt] at h
  · simp only [Except.ok.injEq, Prod.mk.injEq] at h
    rw [← h.1]
    trivial
  · simp [failAt] at h

theorem inRange_readPlaces {positive : Bool} {significand : Nat} {start : Int}
    {bs rest : Bytes} {n : Number}
    (h : readPlaces positive significand start bs = .ok (n, rest)) : n.InRange := by
  unfold readPlaces at h
  dsimp only at h
  repeat' split at h
  · simp [failAt] at h
  · simp [failOn] at h
  · exact inRange_readExponent h
  · exact inRange_finishReal h
  · exact inRange_finishReal h

theorem inRange_readTail {positive : Bool} {significand surplus : Nat}
    (hs : significand ≤ maxSignificand) {bs rest : Bytes} {n : Number}
    (h : readTail positive significand surplus bs = .ok (n, rest)) : n.InRange := by
  unfold readTail at h
  repeat' split at h
  · exact inRange_readPlaces h
  · exact inRange_readExponent h
  · exact inRange_readExponent h
  · exact inRange_finishWhole hs h
  · exact inRange_finishReal h

theorem inRange_readNumber {positive : Bool} {bs rest : Bytes} {n : Number}
    (h : readNumber positive bs = .ok (n, rest)) : n.InRange := by
  unfold readNumber at h
  repeat' split at h
  · simp [failAt] at h
  · simp [failAt] at h
  · exact inRange_readTail (Nat.zero_le _) h
  · exact inRange_readTail (Nat.zero_le _) h
  · rename_i habsorb
    have hs := congrArg Prod.fst habsorb
    exact inRange_readTail (Nat.le_trans (Nat.le_of_eq hs.symm) (absorb_le (Nat.zero_le _) _)) h
  · simp [failAt] at h

theorem sound_readScalar {b : UInt8} {bs rest : Bytes} {v : Value}
    (h : readScalar b bs = .ok (v, rest)) : v.WellFormed ∧ v.depth = 0 := by
  rcases readScalar_cases h with
    ⟨-, rfl, -⟩ | ⟨t, word, rfl, -⟩ | ⟨n, rfl, hnumber | hnumber⟩ | ⟨-, s, rfl, -⟩
  · exact ⟨trivial, rfl⟩
  · exact ⟨trivial, rfl⟩
  · exact ⟨inRange_readNumber hnumber, rfl⟩
  · exact ⟨inRange_readNumber hnumber, rfl⟩
  · exact ⟨trivial, rfl⟩

/-! ## Open containers -/

/-- A value that may stand inside `height` open containers. -/
def Value.Fits (limit height : Nat) (v : Value) : Prop := v.WellFormed ∧ v.depth + height ≤ limit

/-- What the open containers hold may stand where it does. -/
def Pending.Sound (limit : Nat) : List Pending → Prop
  | [] => True
  | .list items :: stack =>
      (∀ v ∈ items, v.Fits limit (stack.length + 1)) ∧ stack.length < limit ∧ Sound limit stack
  | .object fields _ :: stack =>
      (Keyed.Ascending fields ∧ ∀ f ∈ fields, f.2.Fits limit (stack.length + 1)) ∧
        stack.length < limit ∧ Sound limit stack

theorem Pending.length_le_of_sound {limit : Nat} {stack : List Pending}
    (h : Pending.Sound limit stack) : stack.length ≤ limit := by
  cases stack with
  | nil => exact Nat.zero_le limit
  | cons p stack => cases p <;> exact h.2.1

theorem fits_array {limit height : Nat} {items : List Value} (hroom : height < limit)
    (h : ∀ v ∈ items, v.Fits limit (height + 1)) : (Value.array items).Fits limit height := by
  constructor
  · exact Value.wellFormed_array.mpr fun v hv => (h v hv).1
  · have : depthOfItems items ≤ limit - (height + 1) := by
      apply depthOfItems_le_iff.mpr
      intro v hv
      have := (h v hv).2
      omega
    rw [Value.depth]
    omega

theorem fits_object {limit height : Nat} {fields : Keyed Value} (hroom : height < limit)
    (hkeys : Keyed.Ascending fields) (h : ∀ f ∈ fields, f.2.Fits limit (height + 1)) :
    (Value.object fields).Fits limit height := by
  constructor
  · exact Value.wellFormed_object.mpr ⟨hkeys, fun f hf => (h f hf).1⟩
  · have : depthOfFields fields ≤ limit - (height + 1) := by
      apply depthOfFields_le_iff.mpr
      intro f hf
      have := (h f hf).2
      omega
    rw [Value.depth]
    omega

theorem forall_mem_insert {limit height : Nat} {fields : Keyed Value} {v : Value}
    (h : ∀ f ∈ fields, f.2.Fits limit height) (hv : v.Fits limit height) (key : String) :
    ∀ f ∈ fields.insert key v, f.2.Fits limit height := by
  intro f hf
  rcases Keyed.mem_insert hf with rfl | hf
  · exact hv
  · exact h f hf

/-! ## Steps of the reader -/

def Stance.Sound (limit : Nat) (s : Stance) : Prop :=
  Pending.Sound limit s.stack ∧ ∀ u, s.done = some u → u.Fits limit s.stack.length

/-- What one step of the reader can do. -/
inductive Move (limit : Nat) : Stance → Stance → Prop where
  | scalar {stack u} (hwell : u.WellFormed) (hdepth : u.depth = 0) :
      Move limit ⟨stack, none⟩ ⟨stack, some u⟩
  | emptyList {stack} (hroom : stack.length < limit) :
      Move limit ⟨stack, none⟩ ⟨stack, some (.array [])⟩
  | openList {stack} (hroom : stack.length < limit) :
      Move limit ⟨stack, none⟩ ⟨.list [] :: stack, none⟩
  | emptyObject {stack} (hroom : stack.length < limit) :
      Move limit ⟨stack, none⟩ ⟨stack, some (.object [])⟩
  | openObject {stack key} (hroom : stack.length < limit) :
      Move limit ⟨stack, none⟩ ⟨.object [] key :: stack, none⟩
  | closeList {stack items u} :
      Move limit ⟨.list items :: stack, some u⟩ ⟨stack, some (.array (u :: items).reverse)⟩
  | nextItem {stack items u} :
      Move limit ⟨.list items :: stack, some u⟩ ⟨.list (u :: items) :: stack, none⟩
  | closeObject {stack fields key u} :
      Move limit ⟨.object fields key :: stack, some u⟩
        ⟨stack, some (.object (Keyed.insert key u fields))⟩
  | nextField {stack fields key u next} :
      Move limit ⟨.object fields key :: stack, some u⟩
        ⟨.object (Keyed.insert key u fields) next :: stack, none⟩

section Moves

variable {limit : Nat} {stack : List Pending} {items : List Value} {fields : Keyed Value}
  {bs rest : Bytes} {s : Stance} {v : Value}

theorem openField_cases (h : openField stack fields bs = .ok (s, rest)) :
    ∃ key, s = ⟨.object fields key :: stack, none⟩ := by
  unfold openField at h
  split at h
  · cases h
  · rename_i key _ _
    cases h
    exact ⟨key, rfl⟩

theorem openList_move (h : openList limit stack bs = .ok (s, rest)) :
    Move limit ⟨stack, none⟩ s := by
  unfold openList at h
  split at h
  · cases h
  rename_i hroom
  split at h
  · cases h
  split at h
  · cases h
    exact .emptyList (by omega)
  · cases h
    exact .openList (by omega)

theorem openObject_move (h : openObject limit stack bs = .ok (s, rest)) :
    Move limit ⟨stack, none⟩ s := by
  unfold openObject at h
  split at h
  · cases h
  rename_i hroom
  split at h
  · cases h
  split at h
  · cases h
    exact .emptyObject (by omega)
  split at h
  · obtain ⟨key, rfl⟩ := openField_cases h
    exact .openObject (by omega)
  · cases h

theorem stepValue_move (h : stepValue limit stack bs = .ok (s, rest)) :
    Move limit ⟨stack, none⟩ s := by
  unfold stepValue at h
  split at h
  · cases h
  split at h
  · exact openList_move h
  split at h
  · exact openObject_move h
  split at h
  · cases h
  · rename_i hscalar
    cases h
    obtain ⟨hwell, hdepth⟩ := sound_readScalar hscalar
    exact .scalar hwell hdepth

theorem stepItem_move (h : stepItem stack (v :: items) bs = .ok (s, rest)) :
    Move limit ⟨.list items :: stack, some v⟩ s := by
  unfold stepItem at h
  split at h
  · cases h
  split at h
  · cases h
    exact .closeList
  split at h
  · unfold nextItem at h
    split at h
    · cases h
    split at h
    · cases h
    · cases h
      exact .nextItem
  · cases h

theorem stepField_move {key : String}
    (h : stepField stack (fields.insert key v) bs = .ok (s, rest)) :
    Move limit ⟨.object fields key :: stack, some v⟩ s := by
  unfold stepField at h
  split at h
  · cases h
  split at h
  · cases h
    exact .closeObject
  split at h
  · unfold nextField at h
    split at h
    · cases h
    split at h
    · obtain ⟨next, rfl⟩ := openField_cases h
      exact .nextField
    split at h
    · cases h
    · cases h
  · cases h

end Moves

/-- **A move keeps what is held sound.** -/
theorem sound_move {limit : Nat} {s s' : Stance} (h : Move limit s s') (hs : s.Sound limit) :
    s'.Sound limit := by
  obtain ⟨hstack, hdone⟩ := hs
  cases h with
  | scalar hwell hdepth =>
    refine ⟨hstack, ?_⟩
    rintro v ⟨⟩
    have := Pending.length_le_of_sound hstack
    exact ⟨hwell, by dsimp only at this ⊢; omega⟩
  | emptyList hroom =>
    refine ⟨hstack, ?_⟩
    rintro v ⟨⟩
    exact fits_array hroom (List.forall_mem_nil _)
  | openList hroom => exact ⟨⟨List.forall_mem_nil _, hroom, hstack⟩, by rintro v ⟨⟩⟩
  | emptyObject hroom =>
    refine ⟨hstack, ?_⟩
    rintro v ⟨⟩
    exact fits_object hroom .nil (List.forall_mem_nil _)
  | openObject hroom =>
    exact ⟨⟨⟨.nil, List.forall_mem_nil _⟩, hroom, hstack⟩, by rintro v ⟨⟩⟩
  | closeList =>
    obtain ⟨hitems, hroom, hstack⟩ := hstack
    have hitems := List.forall_mem_cons.mpr ⟨hdone _ rfl, hitems⟩
    refine ⟨hstack, ?_⟩
    rintro v ⟨⟩
    exact fits_array hroom fun w hw => hitems w (List.mem_reverse.mp hw)
  | nextItem =>
    obtain ⟨hitems, hroom, hstack⟩ := hstack
    have hitems := List.forall_mem_cons.mpr ⟨hdone _ rfl, hitems⟩
    exact ⟨⟨hitems, hroom, hstack⟩, by rintro v ⟨⟩⟩
  | closeObject =>
    obtain ⟨⟨hkeys, hfields⟩, hroom, hstack⟩ := hstack
    have hfields := forall_mem_insert hfields (hdone _ rfl)
    refine ⟨hstack, ?_⟩
    rintro v ⟨⟩
    exact fits_object hroom (Keyed.ascending_insert hkeys _ _) (hfields _)
  | nextField =>
    obtain ⟨⟨hkeys, hfields⟩, hroom, hstack⟩ := hstack
    have hfields := forall_mem_insert hfields (hdone _ rfl)
    exact ⟨⟨⟨Keyed.ascending_insert hkeys _ _, hfields _⟩, hroom, hstack⟩, by rintro v ⟨⟩⟩

/-! ## Whole values -/

/-- What every move keeps holds where the reader stops, behind the value that it gives. -/
theorem invariant_read {limit : Nat} {p : Stance → Prop} {s : Stance} {bs rest : Bytes} {v : Value}
    (hmove : ∀ {s s'}, Move limit s s' → p s → p s') (hs : p s)
    (h : s.read limit bs = .ok (v, rest)) : p ⟨[], some v⟩ := by
  induction s, bs using read_induction limit with
  | done u bs =>
    rw [Stance.read_done] at h
    cases h
    exact hs
  | value stack bs ih =>
    obtain ⟨s, mid, hstep, hread⟩ := Stance.of_goOn (readValue_eq.symm.trans h)
    exact ih s mid hstep (hmove (stepValue_move hstep) hs) hread
  | item items stack u bs ih =>
    obtain ⟨s, mid, hstep, hread⟩ := Stance.of_goOn (readAfter_item.symm.trans h)
    exact ih s mid hstep (hmove (stepItem_move hstep) hs) hread
  | field fields key stack u bs ih =>
    obtain ⟨s, mid, hstep, hread⟩ := Stance.of_goOn (readAfter_field.symm.trans h)
    exact ih s mid hstep (hmove (stepField_move hstep) hs) hread

theorem fits_read {limit : Nat} {s : Stance} {bs rest : Bytes} {v : Value} (hs : s.Sound limit)
    (h : s.read limit bs = .ok (v, rest)) : v.Fits limit 0 := by
  obtain ⟨-, hdone⟩ := invariant_read sound_move hs h
  exact hdone v rfl

inductive Value.IsContainer : Value → Prop where
  | array (items : List Value) : IsContainer (.array items)
  | object (fields : List (String × Value)) : IsContainer (.object fields)

/-- The reader stands inside a container or behind one. -/
def Stance.HasContainer (s : Stance) : Prop :=
  s.stack ≠ [] ∨ ∃ u, s.done = some u ∧ u.IsContainer

theorem hasContainer_move {limit : Nat} {s s' : Stance} (h : Move limit s s')
    (hs : s.HasContainer) : s'.HasContainer := by
  cases h with
  | scalar =>
    rcases hs with hstack | ⟨u, hu, -⟩
    · exact .inl hstack
    · cases hu
  | emptyList => exact .inr ⟨_, rfl, .array []⟩
  | openList => exact .inl (List.cons_ne_nil _ _)
  | emptyObject => exact .inr ⟨_, rfl, .object []⟩
  | openObject => exact .inl (List.cons_ne_nil _ _)
  | closeList => exact .inr ⟨_, rfl, .array _⟩
  | nextItem => exact .inl (List.cons_ne_nil _ _)
  | closeObject => exact .inr ⟨_, rfl, .object _⟩
  | nextField => exact .inl (List.cons_ne_nil _ _)

/-- What has begun inside a container ends as one. -/
theorem isContainer_read {limit : Nat} {s : Stance} {bs rest : Bytes} {v : Value}
    (hs : s.HasContainer) (h : s.read limit bs = .ok (v, rest)) : v.IsContainer := by
  rcases invariant_read hasContainer_move hs h with hstack | ⟨u, hu, hcontainer⟩
  · exact absurd rfl hstack
  · obtain rfl := Option.some.inj hu
    exact hcontainer

/-- **A value that is read is well-formed and within the depth that the reader goes to.** -/
theorem wellFormed_read {text : Bytes} {v : Value} (h : Value.read text = .ok v) :
    v.WellFormed ∧ v.depth ≤ maxDepth := by
  obtain ⟨rest, hread, -⟩ := read_eq_ok_iff.mp h
  have hstart : Stance.Sound maxDepth ⟨[], none⟩ := ⟨trivial, by rintro v ⟨⟩⟩
  exact fits_read hstart hread

/-! ## Values by their first byte -/

section FirstByte

variable {limit : Nat} {b : UInt8} {bs rest tail : Bytes} {v : Value}

theorem hasContainer_openList {s : Stance} (h : openList limit [] bs = .ok (s, rest)) :
    s.HasContainer := by
  unfold openList at h
  split at h
  · cases h
  split at h
  · cases h
  split at h
  · cases h
    exact .inr ⟨_, rfl, .array []⟩
  · cases h
    exact .inl (List.cons_ne_nil _ _)

theorem hasContainer_openObject {s : Stance} (h : openObject limit [] bs = .ok (s, rest)) :
    s.HasContainer := by
  unfold openObject at h
  split at h
  · cases h
  split at h
  · cases h
  split at h
  · cases h
    exact .inr ⟨_, rfl, .object []⟩
  split at h
  · obtain ⟨key, rfl⟩ := openField_cases h
    exact .inl (List.cons_ne_nil _ _)
  · cases h

/-- A value that begins with a bracket or a brace is a container. -/
theorem isContainer_of_readValue (hb : skipBlanks bs = b :: tail) (hcontainer : b = 91 ∨ b = 123)
    (h : readValue limit [] bs = .ok (v, rest)) : v.IsContainer := by
  obtain ⟨s, mid, hstep, hread⟩ := Stance.of_goOn (readValue_eq.symm.trans h)
  rw [stepValue_cons hb] at hstep
  rcases hcontainer with rfl | rfl
  · rw [if_pos rfl] at hstep
    exact isContainer_read (hasContainer_openList hstep) hread
  · rw [if_neg (by decide), if_pos rfl] at hstep
    exact isContainer_read (hasContainer_openObject hstep) hread

theorem readValue_eq_readScalar (hb : skipBlanks bs = b :: tail) (hlist : b ≠ 91)
    (hobject : b ≠ 123) : readValue limit [] bs = readScalar b tail := by
  rw [readValue_eq, stepValue_cons hb, if_neg hlist, if_neg hobject]
  cases readScalar b tail with
  | error f => rfl
  | ok r => exact Stance.read_done

theorem readScalar_string_iff {s : String} : readScalar b bs = .ok (.string s, rest) ↔
    b = 34 ∧ readString bs = .ok (s, rest) := by
  constructor
  · intro h
    rcases readScalar_cases h with ⟨-, ⟨⟩, -⟩ | ⟨_, _, ⟨⟩, -⟩ | ⟨_, ⟨⟩, -⟩ | ⟨hb, _, ⟨⟩, hread⟩
    exact ⟨hb, hread⟩
  · rintro ⟨rfl, h⟩
    rw [readScalar, if_neg (by decide), if_neg (by decide), if_neg (by decide),
      if_neg (by decide), if_neg (by decide), if_pos rfl, h]

theorem readScalar_null_iff : readScalar b bs = .ok (.null, rest) ↔
    b = 110 ∧ readWord [117, 108, 108] bs = .ok ((), rest) := by
  constructor
  · intro h
    rcases readScalar_cases h with ⟨hb, -, hread⟩ | ⟨_, _, ⟨⟩, -⟩ | ⟨_, ⟨⟩, -⟩ | ⟨-, _, ⟨⟩, -⟩
    exact ⟨hb, hread⟩
  · rintro ⟨rfl, h⟩
    rw [readScalar, if_pos rfl, h]

theorem readValue_scalar_iff (hv : ¬ v.IsContainer) : readValue limit [] bs = .ok (v, rest) ↔
    ∃ b tail, skipBlanks bs = b :: tail ∧ b ≠ 91 ∧ b ≠ 123 ∧ readScalar b tail = .ok (v, rest) := by
  constructor
  · intro h
    cases hb : skipBlanks bs with
    | nil =>
      rw [readValue_eq, stepValue, hb] at h
      cases h
    | cons b tail =>
      have hcontainer : ¬ (b = 91 ∨ b = 123) := fun hc => hv (isContainer_of_readValue hb hc h)
      rw [not_or] at hcontainer
      obtain ⟨hlist, hobject⟩ := hcontainer
      rw [readValue_eq_readScalar hb hlist hobject] at h
      exact ⟨b, tail, rfl, hlist, hobject, h⟩
  · rintro ⟨b, tail, hb, hlist, hobject, h⟩
    rw [readValue_eq_readScalar hb hlist hobject, h]

theorem readValue_string_iff {s : String} : readValue limit [] bs = .ok (.string s, rest) ↔
    ∃ tail, skipBlanks bs = 34 :: tail ∧ readString tail = .ok (s, rest) := by
  rw [readValue_scalar_iff (by rintro ⟨⟩)]
  simp only [readScalar_string_iff]
  constructor
  · rintro ⟨b, tail, hb, -, -, rfl, h⟩
    exact ⟨tail, hb, h⟩
  · rintro ⟨tail, hb, h⟩
    exact ⟨34, tail, hb, by decide, by decide, rfl, h⟩

theorem readValue_null_iff : readValue limit [] bs = .ok (.null, rest) ↔
    ∃ tail, skipBlanks bs = 110 :: tail ∧ readWord [117, 108, 108] tail = .ok ((), rest) := by
  rw [readValue_scalar_iff (by rintro ⟨⟩)]
  simp only [readScalar_null_iff]
  constructor
  · rintro ⟨b, tail, hb, -, -, rfl, h⟩
    exact ⟨tail, hb, h⟩
  · rintro ⟨tail, hb, h⟩
    exact ⟨110, tail, hb, by decide, by decide, rfl, h⟩

end FirstByte

end Json

end Courier
