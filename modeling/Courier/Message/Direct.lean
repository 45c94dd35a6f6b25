import Courier.Json.Step
import Courier.Message.Fields

/-!
# Envelopes straight from JSON text

The same fields as from a value, taken in the order of the text and with the place of each fault. An
envelope may also be a list of its fields in their order. A flaw of the fields, where it has no
place of its own, is reported after the rest of the envelope as far as it closes there.
-/

namespace Courier

open Json Text

inductive Snag where
  | fault (f : Fault)
  /-- A flaw with its place: the bytes after it. -/
  | placed (flaw : EnvelopeFlaw) (rest : Bytes)
  /-- A flaw that is reported where the envelope closes; the bytes not read when it was found. -/
  | unplaced (flaw : EnvelopeFlaw) (rest : Bytes)

namespace Envelope.Direct

abbrev Step (α : Type) := Except Snag (α × Bytes)

def ofOutcome {α : Type} : Outcome α → Step α
  | .ok r => .ok r
  | .error f => .error (.fault f)

/-- The flaw of a value that is not of the expected kind; `b` is its first byte. -/
def wrongKind {α : Type} (expected : String) (b : UInt8) (rest : Bytes) : Step α :=
  if b = 91 then .error (.placed (.wrongKind (.array []) expected) (b :: rest))
  else if b = 123 then .error (.placed (.wrongKind (.object []) expected) (b :: rest))
  else match readScalar b rest with
    | .error f => .error (.fault f)
    | .ok (v, rest) => .error (.placed (.wrongKind v expected) rest)

def readText (bs : Bytes) : Step String :=
  match skipBlanks bs with
  | [] => ofOutcome (failAt .endInValue [])
  | b :: rest => if b = 34 then ofOutcome (readString rest) else wrongKind "a string" b rest

def beginsNull (bs : Bytes) : Bool := (skipBlanks bs).head? == some 110

def readTextOrNull (bs : Bytes) : Step (Option String) :=
  if beginsNull bs then
    match ofOutcome (readWord [110, 117, 108, 108] (skipBlanks bs)) with
    | .error s => .error s
    | .ok ((), rest) => .ok (none, rest)
  else match readText bs with
    | .error s => .error s
    | .ok (text, rest) => .ok (some text, rest)

def innerDepth : Nat := maxDepth - 1

def readTime (bs : Bytes) : Step (Option String) :=
  match readValue innerDepth [] bs with
  | .error f => .error (.fault f)
  | .ok (v, rest) =>
      match timeOfValue v with
      | .error flaw => .error (.unplaced flaw rest)
      | .ok time => .ok (time, rest)

def readField (d : EnvelopeDraft) (field : EnvelopeField) (bs : Bytes) : Step EnvelopeDraft :=
  match field with
  | .id =>
      match readTextOrNull bs with
      | .error s => .error s
      | .ok (id, rest) => .ok ({ d with id := some id }, rest)
  | .timestamp =>
      match readTime bs with
      | .error s => .error s
      | .ok (time, rest) => .ok ({ d with timestamp := some time }, rest)
  | .topic =>
      match readText bs with
      | .error s => .error s
      | .ok (topic, rest) => .ok ({ d with topic := some topic }, rest)
  | .payload =>
      match readValue innerDepth [] bs with
      | .error f => .error (.fault f)
      | .ok (v, rest) => .ok ({ d with payload := some v }, rest)

def readColon (bs : Bytes) : Outcome Unit :=
  match skipBlanks bs with
  | [] => failAt .endInObject []
  | b :: rest => if b = 58 then .ok ((), rest) else failOn .expectedColon (b :: rest)

def readEntry (d : EnvelopeDraft) (bs : Bytes) : Step EnvelopeDraft :=
  match readString bs with
  | .error f => .error (.fault f)
  | .ok (name, rest) =>
      match d.claim name with
      | .error flaw => .error (.unplaced flaw rest)
      | .ok field =>
          match readColon rest with
          | .error f => .error (.fault f)
          | .ok ((), rest) => readField d field rest

theorem wrongKind_ne_ok {α : Type} {expected : String} {b : UInt8} {bs rest : Bytes} {x : α} :
    wrongKind expected b bs ≠ .ok (x, rest) := by
  unfold wrongKind
  repeat' split
  all_goals simp

theorem length_readText {bs rest : Bytes} {s : String} (h : readText bs = .ok (s, rest)) :
    rest.length ≤ bs.length := by
  unfold readText at h
  split at h
  · simp [ofOutcome, failAt] at h
  rename_i b tail hb
  split at h
  · unfold ofOutcome at h
    split at h
    · rename_i r hr
      simp only [Except.ok.injEq] at h
      subst h
      exact Nat.le_of_lt (Nat.lt_trans (length_readString hr) (length_of_skipBlanks hb))
    · simp at h
  · exact absurd h wrongKind_ne_ok

theorem length_readTextOrNull {bs rest : Bytes} {s : Option String}
    (h : readTextOrNull bs = .ok (s, rest)) : rest.length ≤ bs.length := by
  unfold readTextOrNull at h
  split at h
  · split at h
    · simp at h
    · rename_i rest' hw
      simp only [Except.ok.injEq, Prod.mk.injEq] at h
      obtain ⟨-, rfl⟩ := h
      unfold ofOutcome at hw
      split at hw
      · rename_i r hr
        simp only [Except.ok.injEq] at hw
        subst hw
        exact Nat.le_trans (length_readWord hr) (length_skipBlanks bs)
      · simp at hw
  · split at h
    · simp at h
    · rename_i hr
      simp only [Except.ok.injEq, Prod.mk.injEq] at h
      obtain ⟨-, rfl⟩ := h
      exact length_readText hr

theorem length_readTime {bs rest : Bytes} {s : Option String} (h : readTime bs = .ok (s, rest)) :
    rest.length ≤ bs.length := by
  unfold readTime at h
  split at h
  · simp at h
  rename_i hr
  split at h
  · simp at h
  · simp only [Except.ok.injEq, Prod.mk.injEq] at h
    obtain ⟨-, rfl⟩ := h
    exact Nat.le_of_lt (length_readValue hr)

theorem length_readField {d d' : EnvelopeDraft} {field : EnvelopeField} {bs rest : Bytes}
    (h : readField d field bs = .ok (d', rest)) : rest.length ≤ bs.length := by
  unfold readField at h
  repeat' split at h
  all_goals try simp only [reduceCtorEq] at h
  all_goals
    simp only [Except.ok.injEq, Prod.mk.injEq] at h
    obtain ⟨-, rfl⟩ := h
  · rename_i hr; exact length_readTextOrNull hr
  · rename_i hr; exact length_readTime hr
  · rename_i hr; exact length_readText hr
  · rename_i hr; exact Nat.le_of_lt (length_readValue hr)

theorem length_readColon {bs rest : Bytes} (h : readColon bs = .ok ((), rest)) :
    rest.length ≤ bs.length := by
  unfold readColon at h
  split at h
  · simp [failAt] at h
  rename_i b tail hb
  split at h
  · simp only [Except.ok.injEq, Prod.mk.injEq] at h
    rw [← h.2]
    exact Nat.le_of_lt (length_of_skipBlanks hb)
  · simp [failOn] at h

theorem length_readEntry {d d' : EnvelopeDraft} {bs rest : Bytes}
    (h : readEntry d bs = .ok (d', rest)) : rest.length < bs.length := by
  unfold readEntry at h
  split at h
  · simp at h
  rename_i hs
  have := length_readString hs
  split at h
  · simp at h
  split at h
  · simp at h
  rename_i hc
  have := length_readColon hc
  have := length_readField h
  omega

/-- Goes from the end of a field to the opening quote of the next key, and past it; `none` at the
closing brace, which stays. -/
def nextKey (first : Bool) (bs : Bytes) : Outcome Bool :=
  match skipBlanks bs with
  | [] => failAt .endInObject []
  | b :: rest =>
      if b = 125 then .ok (false, b :: rest)
      else if first then
        if b = 34 then .ok (true, rest) else failOn .keyNotString (b :: rest)
      else if b = 44 then
        match skipBlanks rest with
        | [] => failAt .endInValue []
        | c :: rest =>
            if c = 34 then .ok (true, rest)
            else if c = 125 then failOn .trailingComma (c :: rest)
            else failOn .keyNotString (c :: rest)
      else failOn .expectedObjectCommaOrEnd (b :: rest)

theorem length_nextKey {first more : Bool} {bs rest : Bytes}
    (h : nextKey first bs = .ok (more, rest)) : rest.length ≤ bs.length := by
  unfold nextKey at h
  split at h
  · cases h
  rename_i b tail hb
  have hlength := length_of_skipBlanks hb
  split at h
  · cases h
    exact hlength
  split at h
  · split at h
    · cases h
      exact Nat.le_of_lt hlength
    · cases h
  split at h
  · split at h
    · cases h
    rename_i c after hc
    split at h
    · cases h
      exact Nat.le_of_lt (Nat.lt_trans (length_of_skipBlanks hc) hlength)
    · split at h <;> cases h
  · cases h

/-- Reads fields up to the closing brace, which stays. -/
def readEntries (first : Bool) (d : EnvelopeDraft) (bs : Bytes) : Step EnvelopeDraft :=
  match h : nextKey first bs with
  | .error f => .error (.fault f)
  | .ok (false, rest) => .ok (d, rest)
  | .ok (true, rest) =>
      match h' : readEntry d rest with
      | .error s => .error s
      | .ok (d, rest') =>
          have := length_nextKey h
          have := length_readEntry h'
          readEntries false d rest'
termination_by bs.length

def readObject (bs : Bytes) : Step Envelope :=
  match readEntries true {} bs with
  | .error s => .error s
  | .ok (d, rest) =>
      match d.finish with
      | .error flaw => .error (.unplaced flaw rest)
      | .ok e => .ok (e, rest)

/-- Goes from the end of an item to the beginning of the next; `false` at the closing bracket, which
stays. -/
def nextItem (first : Bool) (bs : Bytes) : Outcome Bool :=
  match skipBlanks bs with
  | [] => failAt .endInList []
  | b :: rest =>
      if b = 93 then .ok (false, b :: rest)
      else if first then .ok (true, b :: rest)
      else if b = 44 then
        match skipBlanks rest with
        | [] => failAt .endInValue []
        | c :: rest =>
            if c = 93 then failOn .trailingComma (c :: rest) else .ok (true, c :: rest)
      else failOn .expectedListCommaOrEnd (b :: rest)

def readItem (first : Bool) (d : EnvelopeDraft) (field : EnvelopeField) (bs : Bytes) :
    Step EnvelopeDraft :=
  match nextItem first bs with
  | .error f => .error (.fault f)
  | .ok (false, rest) => .ok (d, rest)
  | .ok (true, rest) => readField d field rest

/-- Reads the items of a list, up to its closing bracket or behind the fourth. -/
def readList (bs : Bytes) : Step Envelope :=
  match readItem true {} .id bs with
  | .error s => .error s
  | .ok (d, rest) =>
      match readItem (!d.has .id) d .timestamp rest with
      | .error s => .error s
      | .ok (d, rest) =>
          match readItem (!d.has .id) d .topic rest with
          | .error s => .error s
          | .ok (d, rest) =>
              if d.topic.isNone then .error (.unplaced (.tooShort 2) rest)
              else match readItem false d .payload rest with
                | .error s => .error s
                | .ok (d, rest) =>
                    match d.finish with
                    | .error flaw => .error (.unplaced flaw rest)
                    | .ok e => .ok (e, rest)

def closeObject (bs : Bytes) : Outcome Unit :=
  match skipBlanks bs with
  | [] => failAt .endInObject []
  | b :: rest =>
      if b = 125 then .ok ((), rest)
      else if b = 44 then failOn .trailingComma (b :: rest)
      else failOn .trailingText (b :: rest)

def closeList (bs : Bytes) : Outcome Unit :=
  match skipBlanks bs with
  | [] => failAt .endInList []
  | b :: rest =>
      if b = 93 then .ok ((), rest)
      else if b = 44 then
        match skipBlanks rest with
        | [] => failAt .trailingText []
        | c :: rest =>
            if c = 93 then failOn .trailingComma (c :: rest) else failOn .trailingText (c :: rest)
      else failOn .trailingText (b :: rest)

def pastObject (bs : Bytes) : Bytes :=
  match skipBlanks bs with
  | 125 :: rest => rest
  | rest => rest

def pastList (bs : Bytes) : Bytes :=
  match skipBlanks bs with
  | 93 :: rest => rest
  | 44 :: rest => skipBlanks rest
  | rest => rest

/-- A container with what closes it; `past` places a flaw that has no place. -/
def enclose (inner : Step Envelope) (close : Bytes → Outcome Unit) (past : Bytes → Bytes) :
    Step Envelope :=
  match inner with
  | .error (.unplaced flaw rest) => .error (.placed flaw (past rest))
  | .error s => .error s
  | .ok (e, rest) =>
      match close rest with
      | .error f => .error (.fault f)
      | .ok ((), rest) => .ok (e, rest)

def readEnvelope (bs : Bytes) : Step Envelope :=
  match skipBlanks bs with
  | [] => .error (.fault ⟨.endInValue, []⟩)
  | b :: rest =>
      if b = 123 then enclose (readObject rest) closeObject pastObject
      else if b = 91 then enclose (readList rest) closeList pastList
      else wrongKind "struct Envelope" b rest

end Envelope.Direct

inductive EnvelopeError where
  | json (error : Json.Error)
  | fields (flaw : EnvelopeFlaw) (place : Place)

namespace EnvelopeError

def message : EnvelopeError → String
  | .json error => error.message
  | .fields flaw place => flaw.message ++ " at " ++ place.message

def ofSnag (text : Bytes) : Snag → EnvelopeError
  | .fault f => .json (f.within text)
  | .placed flaw rest => .fields flaw (Place.before text rest)
  | .unplaced flaw rest => .fields flaw (Place.before text rest)

end EnvelopeError

def Envelope.read (text : Bytes) : Except EnvelopeError Envelope :=
  match Direct.readEnvelope text with
  | .error s => .error (.ofSnag text s)
  | .ok (e, rest) =>
      match skipBlanks rest with
      | [] => .ok e
      | b :: rest => .error (.json (Fault.within ⟨.trailingText, (b :: rest).tail⟩ text))

end Courier
