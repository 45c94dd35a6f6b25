import Courier.Json.Reader
import Courier.Proofs.KeyedOrder

/-!
# JSON values as the reader holds them

Three properties of a value decide whether its text reads back: the fields of its objects stand in
order and its whole numbers are in range (`Value.WellFormed`), its numbers are whole ones
(`Value.Integral`), and it is not too deep (`Value.depth`).
-/

namespace Courier

namespace Json

open Decimal

/-! ## Properties of every part of a value -/

mutual

/-- The value and every value inside it satisfy `p`. -/
def Value.Everywhere (p : Value → Prop) : Value → Prop
  | .array vs => p (.array vs) ∧ ItemsEverywhere p vs
  | .object fs => p (.object fs) ∧ FieldsEverywhere p fs
  | v => p v

def ItemsEverywhere (p : Value → Prop) : List Value → Prop
  | [] => True
  | v :: vs => v.Everywhere p ∧ ItemsEverywhere p vs

def FieldsEverywhere (p : Value → Prop) : List (String × Value) → Prop
  | [] => True
  | (_, v) :: fs => v.Everywhere p ∧ FieldsEverywhere p fs

end

section Decidable

variable {p : Value → Prop} [DecidablePred p]

mutual

instance Value.decidableEverywhere : (v : Value) → Decidable (v.Everywhere p)
  | .null => inferInstanceAs (Decidable (p .null))
  | .bool b => inferInstanceAs (Decidable (p (.bool b)))
  | .number n => inferInstanceAs (Decidable (p (.number n)))
  | .string s => inferInstanceAs (Decidable (p (.string s)))
  | .array vs =>
      have := decidableItemsEverywhere vs
      inferInstanceAs (Decidable (p (.array vs) ∧ ItemsEverywhere p vs))
  | .object fs =>
      have := decidableFieldsEverywhere fs
      inferInstanceAs (Decidable (p (.object fs) ∧ FieldsEverywhere p fs))

instance decidableItemsEverywhere : (vs : List Value) → Decidable (ItemsEverywhere p vs)
  | [] => inferInstanceAs (Decidable True)
  | v :: vs =>
      have := v.decidableEverywhere
      have := decidableItemsEverywhere vs
      inferInstanceAs (Decidable (v.Everywhere p ∧ ItemsEverywhere p vs))

instance decidableFieldsEverywhere : (fs : List (String × Value)) →
    Decidable (FieldsEverywhere p fs)
  | [] => inferInstanceAs (Decidable True)
  | (_, v) :: fs =>
      have := v.decidableEverywhere
      have := decidableFieldsEverywhere fs
      inferInstanceAs (Decidable (v.Everywhere p ∧ FieldsEverywhere p fs))

end

end Decidable

mutual

/-- The number of containers around the innermost part of a value. -/
def Value.depth : Value → Nat
  | .array vs => depthOfItems vs + 1
  | .object fs => depthOfFields fs + 1
  | _ => 0

def depthOfItems : List Value → Nat
  | [] => 0
  | v :: vs => max v.depth (depthOfItems vs)

def depthOfFields : List (String × Value) → Nat
  | [] => 0
  | (_, v) :: fs => max v.depth (depthOfFields fs)

end

/-- Whole numbers fit 64 bits, with a sign or without one. -/
def Number.InRange : Number → Prop
  | .whole n => -(twoTo 63 : Int) ≤ n ∧ n < twoTo 64
  | .real _ => True

/-- The number is a whole one. The text `-0` is one too, and is held as the real zero below
zero. -/
def Number.IsIntegral : Number → Prop
  | .whole _ => True
  | .real x => x = Binary.zero.neg

/-- What the reader guarantees of a value, apart from what is inside it. -/
def Value.IsHeld : Value → Prop
  | .number n => n.InRange
  | .object fs => Keyed.Ascending fs
  | _ => True

def Value.IsIntegral : Value → Prop
  | .number n => n.IsIntegral
  | _ => True

/-- Everywhere the fields of objects are in order and whole numbers in range. -/
def Value.WellFormed (v : Value) : Prop := v.Everywhere Value.IsHeld

def Value.Integral (v : Value) : Prop := v.Everywhere Value.IsIntegral

instance : DecidablePred Number.InRange
  | .whole n => inferInstanceAs (Decidable (-(twoTo 63 : Int) ≤ n ∧ n < twoTo 64))
  | .real _ => .isTrue trivial

instance : DecidablePred Value.IsHeld
  | .number n => inferInstanceAs (Decidable n.InRange)
  | .object fs => inferInstanceAs (Decidable (fs.Pairwise fun p q => p.1 < q.1))
  | .null | .bool _ | .string _ | .array _ => .isTrue trivial

instance : DecidablePred Value.WellFormed := fun v => v.decidableEverywhere

instance : DecidablePred Number.IsIntegral
  | .whole _ => .isTrue trivial
  | .real x => inferInstanceAs (Decidable (x = Binary.zero.neg))

instance : DecidablePred Value.IsIntegral
  | .number n => inferInstanceAs (Decidable n.IsIntegral)
  | .null | .bool _ | .string _ | .array _ | .object _ => .isTrue trivial

instance : DecidablePred Value.Integral := fun v => v.decidableEverywhere

theorem itemsEverywhere_iff {p : Value → Prop} {vs : List Value} :
    ItemsEverywhere p vs ↔ ∀ v ∈ vs, v.Everywhere p := by
  induction vs with
  | nil => simp [ItemsEverywhere]
  | cons v vs ih => simp [ItemsEverywhere, ih]

theorem fieldsEverywhere_iff {p : Value → Prop} {fs : List (String × Value)} :
    FieldsEverywhere p fs ↔ ∀ f ∈ fs, f.2.Everywhere p := by
  induction fs with
  | nil => simp [FieldsEverywhere]
  | cons f fs ih => simp [FieldsEverywhere, ih]

theorem depthOfItems_le_iff {n : Nat} {vs : List Value} :
    depthOfItems vs ≤ n ↔ ∀ v ∈ vs, v.depth ≤ n := by
  induction vs with
  | nil => simp [depthOfItems]
  | cons v vs ih => rw [depthOfItems, Nat.max_le, ih, List.forall_mem_cons]

theorem depthOfFields_le_iff {n : Nat} {fs : List (String × Value)} :
    depthOfFields fs ≤ n ↔ ∀ f ∈ fs, f.2.depth ≤ n := by
  induction fs with
  | nil => simp [depthOfFields]
  | cons f fs ih => rw [depthOfFields, Nat.max_le, ih, List.forall_mem_cons]

namespace Value

@[simp] theorem wellFormed_number {n : Number} : (number n).WellFormed ↔ n.InRange := Iff.rfl

@[simp] theorem wellFormed_array {vs : List Value} :
    (array vs).WellFormed ↔ ∀ v ∈ vs, v.WellFormed := by
  simp [WellFormed, Everywhere, IsHeld, itemsEverywhere_iff]

@[simp] theorem wellFormed_object {fs : List (String × Value)} :
    (object fs).WellFormed ↔ Keyed.Ascending fs ∧ ∀ f ∈ fs, f.2.WellFormed := by
  simp [WellFormed, Everywhere, IsHeld, fieldsEverywhere_iff]

@[simp] theorem integral_number {n : Number} : (number n).Integral ↔ n.IsIntegral := Iff.rfl

@[simp] theorem integral_array {vs : List Value} :
    (array vs).Integral ↔ ∀ v ∈ vs, v.Integral := by
  simp [Integral, Everywhere, IsIntegral, itemsEverywhere_iff]

@[simp] theorem integral_object {fs : List (String × Value)} :
    (object fs).Integral ↔ ∀ f ∈ fs, f.2.Integral := by
  simp [Integral, Everywhere, IsIntegral, fieldsEverywhere_iff]

end Value

end Json

end Courier
