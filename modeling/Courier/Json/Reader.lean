import Courier.Json.Lexeme

/-!
# Reading JSON

The reader walks the text once, with the containers that are still open on a stack. `readValue`
stands before a value, `readAfter` behind one: it either closes a container, which is then itself a
finished value, or goes on to the next value. Each step takes at least one byte.

At most 127 containers may be open at once. Of several fields with one key the last counts.
-/

namespace Courier.Json

open Text

inductive Pending where
  /-- The items of a list, latest first. -/
  | list (items : List Value)
  /-- The fields of an object, and the key of the one whose value is awaited. -/
  | object (fields : Keyed Value) (key : String)

def maxDepth : Nat := 127

def readKey (bs : Bytes) : Outcome String :=
  match readString bs with
  | .error f => .error f
  | .ok (key, rest) =>
      match skipBlanks rest with
      | [] => failAt .endInObject []
      | b :: rest => if b = 58 then .ok (key, rest) else failOn .expectedColon (b :: rest)

theorem length_readKey {bs rest : Bytes} {key : String} (h : readKey bs = .ok (key, rest)) :
    rest.length < bs.length := by
  unfold readKey at h
  split at h
  · simp at h
  rename_i s rest' hs
  split at h
  · simp [failAt] at h
  rename_i b rest'' hb
  split at h
  · simp only [Except.ok.injEq, Prod.mk.injEq] at h
    rw [← h.2]
    exact Nat.lt_trans (length_of_skipBlanks hb) (length_readString hs)
  · simp [failOn] at h

def readScalar (b : UInt8) (rest : Bytes) : Outcome Value :=
  if b = 110 then
    match readWord [117, 108, 108] rest with
    | .error f => .error f
    | .ok ((), rest) => .ok (.null, rest)
  else if b = 116 then
    match readWord [114, 117, 101] rest with
    | .error f => .error f
    | .ok ((), rest) => .ok (.bool true, rest)
  else if b = 102 then
    match readWord [97, 108, 115, 101] rest with
    | .error f => .error f
    | .ok ((), rest) => .ok (.bool false, rest)
  else if b = 45 then
    match readNumber false rest with
    | .error f => .error f
    | .ok (n, rest) => .ok (.number n, rest)
  else if isDigit b then
    match readNumber true (b :: rest) with
    | .error f => .error f
    | .ok (n, rest) => .ok (.number n, rest)
  else if b = 34 then
    match readString rest with
    | .error f => .error f
    | .ok (s, rest) => .ok (.string s, rest)
  else failOn .expectedValue (b :: rest)

/-- All that a scalar can be, by its first byte. -/
theorem readScalar_cases {b : UInt8} {bs rest : Bytes} {v : Value}
    (h : readScalar b bs = .ok (v, rest)) :
    (b = 110 ∧ v = .null ∧ readWord [117, 108, 108] bs = .ok ((), rest)) ∨
      (∃ t word, v = .bool t ∧ readWord word bs = .ok ((), rest)) ∨
      (∃ n, v = .number n ∧
        (readNumber false bs = .ok (n, rest) ∨ readNumber true (b :: bs) = .ok (n, rest))) ∨
      (b = 34 ∧ ∃ s, v = .string s ∧ readString bs = .ok (s, rest)) := by
  unfold readScalar at h
  split at h
  · rename_i hb
    split at h <;> rename_i hread <;> cases h
    exact .inl ⟨hb, rfl, hread⟩
  split at h
  · split at h <;> rename_i hread <;> cases h
    exact .inr (.inl ⟨true, _, rfl, hread⟩)
  split at h
  · split at h <;> rename_i hread <;> cases h
    exact .inr (.inl ⟨false, _, rfl, hread⟩)
  split at h
  · split at h <;> rename_i hread <;> cases h
    exact .inr (.inr (.inl ⟨_, rfl, .inl hread⟩))
  split at h
  · split at h <;> rename_i hread <;> cases h
    exact .inr (.inr (.inl ⟨_, rfl, .inr hread⟩))
  split at h
  · rename_i hb
    split at h <;> rename_i hread <;> cases h
    exact .inr (.inr (.inr ⟨hb, _, rfl, hread⟩))
  · cases h

theorem length_readScalar {b : UInt8} {bs rest : Bytes} {v : Value}
    (h : readScalar b bs = .ok (v, rest)) : rest.length ≤ bs.length := by
  rcases readScalar_cases h with
    ⟨-, -, hword⟩ | ⟨t, word, -, hword⟩ | ⟨n, -, hnumber | hnumber⟩ | ⟨-, s, -, hstring⟩
  · exact length_readWord hword
  · exact length_readWord hword
  · exact Nat.le_of_lt (length_readNumber hnumber)
  · exact Nat.le_of_lt_succ (length_readNumber hnumber)
  · exact Nat.le_of_lt (length_readString hstring)

mutual

/-- Reads a value, and on until every open container is closed. -/
def readValue (limit : Nat) (stack : List Pending) (bs : Bytes) : Outcome Value :=
  match h : skipBlanks bs with
  | [] => failAt .endInValue []
  | b :: rest =>
      have hb : rest.length < bs.length := by
        have := length_skipBlanks bs; rw [h, List.length_cons] at this; omega
      if b = 91 then
        if stack.length ≥ limit then failAt .tooDeep rest
        else match h' : skipBlanks rest with
          | [] => failAt .endInList []
          | c :: rest' =>
              have hc : rest'.length < rest.length := by
                have := length_skipBlanks rest; rw [h', List.length_cons] at this; omega
              if c = 93 then readAfter limit stack (.array []) rest'
              else readValue limit (.list [] :: stack) (c :: rest')
      else if b = 123 then
        if stack.length ≥ limit then failAt .tooDeep rest
        else match h' : skipBlanks rest with
          | [] => failAt .endInObject []
          | c :: rest' =>
              have hc : rest'.length < rest.length := by
                have := length_skipBlanks rest; rw [h', List.length_cons] at this; omega
              if c = 125 then readAfter limit stack (.object []) rest'
              else if c = 34 then
                match hk : readKey rest' with
                | .error f => .error f
                | .ok (key, rest'') =>
                    have := length_readKey hk
                    readValue limit (.object [] key :: stack) rest''
              else failOn .keyNotString (c :: rest')
      else
        match hs : readScalar b rest with
        | .error f => .error f
        | .ok (v, rest') =>
            have := length_readScalar hs
            readAfter limit stack v rest'
termination_by bs.length

/-- Goes on behind a value, until every open container is closed. -/
def readAfter (limit : Nat) (stack : List Pending) (v : Value) (bs : Bytes) : Outcome Value :=
  match stack with
  | [] => .ok (v, bs)
  | .list items :: stack =>
      match h : skipBlanks bs with
      | [] => failAt .endInList []
      | b :: rest =>
          have hb : rest.length < bs.length := by
            have := length_skipBlanks bs; rw [h, List.length_cons] at this; omega
          if b = 93 then readAfter limit stack (.array (v :: items).reverse) rest
          else if b = 44 then
            match h' : skipBlanks rest with
            | [] => failAt .endInValue []
            | c :: rest' =>
                have hc : rest'.length < rest.length := by
                  have := length_skipBlanks rest; rw [h', List.length_cons] at this; omega
                if c = 93 then failOn .trailingComma (c :: rest')
                else readValue limit (.list (v :: items) :: stack) (c :: rest')
          else failOn .expectedListCommaOrEnd (b :: rest)
  | .object fields key :: stack =>
      match h : skipBlanks bs with
      | [] => failAt .endInObject []
      | b :: rest =>
          have hb : rest.length < bs.length := by
            have := length_skipBlanks bs; rw [h, List.length_cons] at this; omega
          if b = 125 then readAfter limit stack (.object (fields.insert key v)) rest
          else if b = 44 then
            match h' : skipBlanks rest with
            | [] => failAt .endInValue []
            | c :: rest' =>
                have hc : rest'.length < rest.length := by
                  have := length_skipBlanks rest; rw [h', List.length_cons] at this; omega
                if c = 34 then
                  match hk : readKey rest' with
                  | .error f => .error f
                  | .ok (key', rest'') =>
                      have := length_readKey hk
                      readValue limit (.object (fields.insert key v) key' :: stack) rest''
                else if c = 125 then failOn .trailingComma (c :: rest')
                else failOn .keyNotString (c :: rest')
          else failOn .expectedObjectCommaOrEnd (b :: rest)
termination_by bs.length

end

def readAll (bs : Bytes) : Except Fault Value :=
  match readValue maxDepth [] bs with
  | .error f => .error f
  | .ok (v, rest) =>
      match skipBlanks rest with
      | [] => .ok v
      | b :: rest => .error ⟨.trailingText, (b :: rest).tail⟩

def Value.read (text : Bytes) : Except Error Value := (readAll text).mapError (·.within text)

end Courier.Json
