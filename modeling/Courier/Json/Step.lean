import Courier.Json.Reader

/-!
# The JSON reader in steps

Wherever the reader stands (`Stance`), it either has the whole value or takes one more step: before
a value (`stepValue`), behind an item of a list (`stepItem`) or behind a field of an object
(`stepField`). The reader is these steps one after another (`readValue_eq`, `readAfter_item`,
`readAfter_field`), and each takes at least one byte, so that what a step keeps holds along the
whole way (`read_induction`).
-/

namespace Courier.Json

open Text

/-- Where the reader stands: the open containers, and the value that it stands behind, if it does
not stand before one. -/
structure Stance where
  stack : List Pending
  done : Option Value

namespace Stance

def read (limit : Nat) (s : Stance) (bs : Bytes) : Outcome Value :=
  match s.done with
  | none => readValue limit s.stack bs
  | some u => readAfter limit s.stack u bs

def goOn (limit : Nat) : Outcome Stance → Outcome Value
  | .error f => .error f
  | .ok (s, rest) => s.read limit rest

end Stance

/-! ## Steps -/

section Steps

variable (limit : Nat) (stack : List Pending)

def openList (bs : Bytes) : Outcome Stance :=
  if stack.length ≥ limit then failAt .tooDeep bs
  else match skipBlanks bs with
    | [] => failAt .endInList []
    | c :: rest =>
        if c = 93 then .ok (⟨stack, some (.array [])⟩, rest)
        else .ok (⟨.list [] :: stack, none⟩, c :: rest)

/-- Behind the opening quote of a key, with the fields before it. -/
def openField (fields : Keyed Value) (bs : Bytes) : Outcome Stance :=
  match readKey bs with
  | .error f => .error f
  | .ok (key, rest) => .ok (⟨.object fields key :: stack, none⟩, rest)

def openObject (bs : Bytes) : Outcome Stance :=
  if stack.length ≥ limit then failAt .tooDeep bs
  else match skipBlanks bs with
    | [] => failAt .endInObject []
    | c :: rest =>
        if c = 125 then .ok (⟨stack, some (.object [])⟩, rest)
        else if c = 34 then openField stack [] rest
        else failOn .keyNotString (c :: rest)

def stepValue (bs : Bytes) : Outcome Stance :=
  match skipBlanks bs with
  | [] => failAt .endInValue []
  | b :: rest =>
      if b = 91 then openList limit stack rest
      else if b = 123 then openObject limit stack rest
      else match readScalar b rest with
        | .error f => .error f
        | .ok (v, rest) => .ok (⟨stack, some v⟩, rest)

def nextItem (items : List Value) (bs : Bytes) : Outcome Stance :=
  match skipBlanks bs with
  | [] => failAt .endInValue []
  | c :: rest =>
      if c = 93 then failOn .trailingComma (c :: rest)
      else .ok (⟨.list items :: stack, none⟩, c :: rest)

/-- The step behind an item; it is the first of `items`, which are the latest first. -/
def stepItem (items : List Value) (bs : Bytes) : Outcome Stance :=
  match skipBlanks bs with
  | [] => failAt .endInList []
  | b :: rest =>
      if b = 93 then .ok (⟨stack, some (.array items.reverse)⟩, rest)
      else if b = 44 then nextItem stack items rest
      else failOn .expectedListCommaOrEnd (b :: rest)

def nextField (fields : Keyed Value) (bs : Bytes) : Outcome Stance :=
  match skipBlanks bs with
  | [] => failAt .endInValue []
  | c :: rest =>
      if c = 34 then openField stack fields rest
      else if c = 125 then failOn .trailingComma (c :: rest)
      else failOn .keyNotString (c :: rest)

/-- The step behind a field, which is among `fields`. -/
def stepField (fields : Keyed Value) (bs : Bytes) : Outcome Stance :=
  match skipBlanks bs with
  | [] => failAt .endInObject []
  | b :: rest =>
      if b = 125 then .ok (⟨stack, some (.object fields)⟩, rest)
      else if b = 44 then nextField stack fields rest
      else failOn .expectedObjectCommaOrEnd (b :: rest)

end Steps

variable {limit : Nat} {stack : List Pending} {items : List Value} {fields : Keyed Value}
  {key : String} {b : UInt8} {bs rest : Bytes} {s : Stance} {v : Value}

theorem skipBlanks_cons (h : isBlank b = false) : skipBlanks (b :: rest) = b :: rest := by
  simp [skipBlanks, h]

theorem stepValue_cons (h : skipBlanks bs = b :: rest) :
    stepValue limit stack bs =
      if b = 91 then openList limit stack rest
      else if b = 123 then openObject limit stack rest
      else match readScalar b rest with
        | .error f => .error f
        | .ok (v, rest) => .ok (⟨stack, some v⟩, rest) := by
  rw [stepValue, h]

theorem stepItem_cons (h : skipBlanks bs = b :: rest) :
    stepItem stack items bs =
      if b = 93 then .ok (⟨stack, some (.array items.reverse)⟩, rest)
      else if b = 44 then nextItem stack items rest
      else failOn .expectedListCommaOrEnd (b :: rest) := by
  rw [stepItem, h]

theorem stepField_cons (h : skipBlanks bs = b :: rest) :
    stepField stack fields bs =
      if b = 125 then .ok (⟨stack, some (.object fields)⟩, rest)
      else if b = 44 then nextField stack fields rest
      else failOn .expectedObjectCommaOrEnd (b :: rest) := by
  rw [stepField, h]

/-! ## The reader takes these steps -/

theorem readValue_eq : readValue limit stack bs = Stance.goOn limit (stepValue limit stack bs) := by
  rw [readValue]
  split <;> rename_i hb
  · rw [stepValue, hb]
    rfl
  rw [stepValue_cons hb]
  split
  · rw [openList]
    split
    · rfl
    split <;> rename_i hc <;> simp only [hc]
    · rfl
    · split <;> rfl
  split
  · rw [openObject]
    split
    · rfl
    split <;> rename_i hc <;> simp only [hc]
    · rfl
    split
    · rfl
    split
    · rw [openField]
      split <;> rename_i hkey <;> simp only [hkey] <;> rfl
    · rfl
  · split <;> rename_i hscalar <;> simp only [hscalar] <;> rfl

theorem readAfter_item : readAfter limit (.list items :: stack) v bs =
    Stance.goOn limit (stepItem stack (v :: items) bs) := by
  rw [readAfter]
  split <;> rename_i hb
  · rw [stepItem, hb]
    rfl
  rw [stepItem_cons hb]
  split
  · rfl
  split
  · rw [nextItem]
    split <;> rename_i hc <;> simp only [hc]
    · rfl
    · split <;> rfl
  · rfl

theorem readAfter_field : readAfter limit (.object fields key :: stack) v bs =
    Stance.goOn limit (stepField stack (fields.insert key v) bs) := by
  rw [readAfter]
  split <;> rename_i hb
  · rw [stepField, hb]
    rfl
  rw [stepField_cons hb]
  split
  · rfl
  split
  · rw [nextField]
    split <;> rename_i hc <;> simp only [hc]
    · rfl
    split
    · rw [openField]
      split <;> rename_i hkey <;> simp only [hkey] <;> rfl
    · split <;> rfl
  · rfl

theorem Stance.read_done : Stance.read limit ⟨[], some v⟩ bs = .ok (v, bs) := by
  show readAfter limit [] v bs = _
  rw [readAfter]

theorem Stance.of_goOn {x : Outcome Stance} (h : Stance.goOn limit x = .ok (v, rest)) :
    ∃ s mid, x = .ok (s, mid) ∧ s.read limit mid = .ok (v, rest) := by
  match x with
  | .ok (s, mid) => exact ⟨s, mid, rfl, h⟩

/-! ## Each step takes bytes -/

theorem length_openList (h : openList limit stack bs = .ok (s, rest)) :
    rest.length ≤ bs.length := by
  unfold openList at h
  split at h
  · cases h
  split at h <;> rename_i hc
  · cases h
  have hlength := length_of_skipBlanks hc
  split at h
  · cases h
    exact Nat.le_of_lt hlength
  · cases h
    exact hlength

theorem length_openField (h : openField stack fields bs = .ok (s, rest)) :
    rest.length < bs.length := by
  unfold openField at h
  split at h
  · cases h
  · rename_i hkey
    cases h
    exact length_readKey hkey

theorem length_openObject (h : openObject limit stack bs = .ok (s, rest)) :
    rest.length ≤ bs.length := by
  unfold openObject at h
  split at h
  · cases h
  split at h <;> rename_i hc
  · cases h
  have hlength := Nat.le_of_lt (length_of_skipBlanks hc)
  split at h
  · cases h
    exact hlength
  split at h
  · exact Nat.le_trans (Nat.le_of_lt (length_openField h)) hlength
  · cases h

theorem length_stepValue (h : stepValue limit stack bs = .ok (s, rest)) :
    rest.length < bs.length := by
  cases hb : skipBlanks bs with
  | nil =>
    rw [stepValue, hb] at h
    cases h
  | cons b tail =>
    rw [stepValue_cons hb] at h
    have hlength := length_of_skipBlanks hb
    split at h
    · exact Nat.lt_of_le_of_lt (length_openList h) hlength
    split at h
    · exact Nat.lt_of_le_of_lt (length_openObject h) hlength
    split at h
    · cases h
    · rename_i hscalar
      cases h
      exact Nat.lt_of_le_of_lt (length_readScalar hscalar) hlength

theorem length_nextItem (h : nextItem stack items bs = .ok (s, rest)) :
    rest.length ≤ bs.length := by
  unfold nextItem at h
  split at h <;> rename_i hc
  · cases h
  split at h
  · cases h
  · cases h
    exact length_of_skipBlanks hc

theorem length_stepItem (h : stepItem stack items bs = .ok (s, rest)) :
    rest.length < bs.length := by
  cases hb : skipBlanks bs with
  | nil =>
    rw [stepItem, hb] at h
    cases h
  | cons b tail =>
    rw [stepItem_cons hb] at h
    have hlength := length_of_skipBlanks hb
    split at h
    · cases h
      exact hlength
    split at h
    · exact Nat.lt_of_le_of_lt (length_nextItem h) hlength
    · cases h

theorem length_nextField (h : nextField stack fields bs = .ok (s, rest)) :
    rest.length ≤ bs.length := by
  unfold nextField at h
  split at h <;> rename_i hc
  · cases h
  split at h
  · exact Nat.le_of_lt (Nat.lt_trans (length_openField h) (length_of_skipBlanks hc))
  split at h
  · cases h
  · cases h

theorem length_stepField (h : stepField stack fields bs = .ok (s, rest)) :
    rest.length < bs.length := by
  cases hb : skipBlanks bs with
  | nil =>
    rw [stepField, hb] at h
    cases h
  | cons b tail =>
    rw [stepField_cons hb] at h
    have hlength := length_of_skipBlanks hb
    split at h
    · cases h
      exact hlength
    split at h
    · exact Nat.lt_of_le_of_lt (length_nextField h) hlength
    · cases h

/-! ## The whole way -/

/-- What holds where the reader stops, and before each step if it holds behind it, holds wherever
the reader stands. -/
theorem read_induction (limit : Nat) {motive : Stance → Bytes → Prop}
    (done : ∀ v bs, motive ⟨[], some v⟩ bs)
    (value : ∀ stack bs,
      (∀ s rest, stepValue limit stack bs = .ok (s, rest) → motive s rest) →
        motive ⟨stack, none⟩ bs)
    (item : ∀ items stack v bs,
      (∀ s rest, stepItem stack (v :: items) bs = .ok (s, rest) → motive s rest) →
        motive ⟨.list items :: stack, some v⟩ bs)
    (field : ∀ fields key stack v bs,
      (∀ s rest, stepField stack (fields.insert key v) bs = .ok (s, rest) → motive s rest) →
        motive ⟨.object fields key :: stack, some v⟩ bs)
    (s : Stance) (bs : Bytes) : motive s bs := by
  induction hn : bs.length using Nat.strongRecOn generalizing s bs with
  | ind n ih =>
    match s with
    | ⟨stack, none⟩ =>
      exact value stack bs fun s rest h => ih _ (hn ▸ length_stepValue h) s rest rfl
    | ⟨[], some v⟩ => exact done v bs
    | ⟨.list items :: stack, some v⟩ =>
      exact item items stack v bs fun s rest h => ih _ (hn ▸ length_stepItem h) s rest rfl
    | ⟨.object fields key :: stack, some v⟩ =>
      exact field fields key stack v bs fun s rest h => ih _ (hn ▸ length_stepField h) s rest rfl

theorem length_read (h : s.read limit bs = .ok (v, rest)) : rest.length ≤ bs.length := by
  induction s, bs using read_induction limit with
  | done u bs =>
    rw [Stance.read_done] at h
    cases h
    exact Nat.le_refl _
  | value stack bs ih =>
    obtain ⟨s, mid, hstep, hread⟩ := Stance.of_goOn (readValue_eq.symm.trans h)
    exact Nat.le_trans (ih s mid hstep hread) (Nat.le_of_lt (length_stepValue hstep))
  | item items stack u bs ih =>
    obtain ⟨s, mid, hstep, hread⟩ := Stance.of_goOn (readAfter_item.symm.trans h)
    exact Nat.le_trans (ih s mid hstep hread) (Nat.le_of_lt (length_stepItem hstep))
  | field fields key stack u bs ih =>
    obtain ⟨s, mid, hstep, hread⟩ := Stance.of_goOn (readAfter_field.symm.trans h)
    exact Nat.le_trans (ih s mid hstep hread) (Nat.le_of_lt (length_stepField hstep))

theorem length_readValue (h : readValue limit stack bs = .ok (v, rest)) :
    rest.length < bs.length := by
  obtain ⟨s, mid, hstep, hread⟩ := Stance.of_goOn (readValue_eq.symm.trans h)
  exact Nat.lt_of_le_of_lt (length_read hread) (length_stepValue hstep)

theorem read_eq_ok_iff : Value.read bs = .ok v ↔
    ∃ rest, readValue maxDepth [] bs = .ok (v, rest) ∧ skipBlanks rest = [] := by
  unfold Value.read readAll
  cases readValue maxDepth [] bs with
  | error f =>
    constructor
    · intro h
      cases h
    · rintro ⟨_, ⟨⟩, -⟩
  | ok r =>
    obtain ⟨u, rest⟩ := r
    constructor
    · intro h
      dsimp only at h
      split at h
      · rename_i hrest
        obtain rfl := Except.ok.inj h
        exact ⟨rest, rfl, hrest⟩
      · cases h
    · rintro ⟨_, ⟨⟩, hrest⟩
      dsimp only
      rw [hrest]
      rfl

end Courier.Json
