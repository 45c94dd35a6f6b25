import Courier.Proofs.JsonInverse

/-!
# The fields of an object in a text

A text spells the fields of an object one after another, each a key with a value (`Spells`). What
the reader finds inside open containers it finds on its own as well, with less room
(`readValue_nested`). So the object that is read from a text has the fields that the text spells, of
which the last with each key counts, and no text spells two lists of fields (`spells_unique`).

Main statement: `read_eq_ok_iff_spells`.
-/

namespace Courier.Json

open Text

/-! ## Spelled fields -/

/-- A key in quotes, a colon and a value: one field. -/
inductive FieldAt : Bytes → String × Value → Bytes → Prop where
  | mk {bs tail mid rest : Bytes} {key : String} {v : Value} (hquote : skipBlanks bs = 34 :: tail)
      (hkey : readKey tail = .ok (key, mid))
      (hvalue : readValue (maxDepth - 1) [] mid = .ok (v, rest)) : FieldAt bs (key, v) rest

/-- The fields that follow a field, each after a comma, through the closing brace. -/
inductive MoreFields : Bytes → List (String × Value) → Bytes → Prop where
  | close {bs rest : Bytes} (hclose : skipBlanks bs = 125 :: rest) : MoreFields bs [] rest
  | next {bs mid tail rest : Bytes} {f : String × Value} {fields : List (String × Value)}
      (hcomma : skipBlanks bs = 44 :: mid) (hfield : FieldAt mid f tail)
      (hmore : MoreFields tail fields rest) : MoreFields bs (f :: fields) rest

/-- The fields of an object behind its opening brace, through the closing one. -/
inductive Fields : Bytes → List (String × Value) → Bytes → Prop where
  | empty {bs rest : Bytes} (hclose : skipBlanks bs = 125 :: rest) : Fields bs [] rest
  | first {bs tail rest : Bytes} {f : String × Value} {fields : List (String × Value)}
      (hfield : FieldAt bs f tail) (hmore : MoreFields tail fields rest) :
      Fields bs (f :: fields) rest

/-- The text is an object with these fields in their order, with blanks around it. -/
def Spells (text : Bytes) (fields : List (String × Value)) : Prop :=
  ∃ bs rest, skipBlanks text = 123 :: bs ∧ Fields bs fields rest ∧ skipBlanks rest = []

/-- The text begins like an object, behind blanks. -/
def BeginsObject (text : Bytes) : Prop := (skipBlanks text).head? = some 123

/-- No key stands twice among the fields that the text spells. -/
def DistinctKeys (text : Bytes) : Prop := ∀ fields, Spells text fields → (fields.map (·.1)).Nodup

variable {bs rest rest' text : Bytes} {fields fields' : List (String × Value)}

theorem FieldAt.quote {f : String × Value} (h : FieldAt bs f rest) :
    ∃ tail, skipBlanks bs = 34 :: tail := by
  obtain ⟨hquote, -, -⟩ := h
  exact ⟨_, hquote⟩

theorem FieldAt.length {f : String × Value} (h : FieldAt bs f rest) : rest.length < bs.length := by
  obtain ⟨hquote, hkey, hvalue⟩ := h
  calc
    _ < _ := length_readValue hvalue
    _ < _ := length_readKey hkey
    _ < _ := length_of_skipBlanks hquote

theorem fieldAt_unique {f f' : String × Value} (h : FieldAt bs f rest)
    (h' : FieldAt bs f' rest') : f = f' ∧ rest = rest' := by
  obtain ⟨hquote, hkey, hvalue⟩ := h
  obtain ⟨hquote', hkey', hvalue'⟩ := h'
  cases hquote.symm.trans hquote'
  cases hkey.symm.trans hkey'
  cases hvalue.symm.trans hvalue'
  exact ⟨rfl, rfl⟩

theorem moreFields_unique (h : MoreFields bs fields rest) (h' : MoreFields bs fields' rest') :
    fields = fields' ∧ rest = rest' := by
  induction h generalizing fields' rest' with
  | close hclose =>
    cases h' with
    | close hclose' =>
      cases hclose.symm.trans hclose'
      exact ⟨rfl, rfl⟩
    | next hcomma => cases hclose.symm.trans hcomma
  | next hcomma hfield _ ih =>
    cases h' with
    | close hclose => cases hcomma.symm.trans hclose
    | next hcomma' hfield' hmore' =>
      cases hcomma.symm.trans hcomma'
      obtain ⟨rfl, rfl⟩ := fieldAt_unique hfield hfield'
      obtain ⟨rfl, rfl⟩ := ih hmore'
      exact ⟨rfl, rfl⟩

theorem fields_unique (h : Fields bs fields rest) (h' : Fields bs fields' rest') :
    fields = fields' ∧ rest = rest' := by
  cases h with
  | empty hclose =>
    cases h' with
    | empty hclose' =>
      cases hclose.symm.trans hclose'
      exact ⟨rfl, rfl⟩
    | first hfield =>
      obtain ⟨hquote, -, -⟩ := hfield
      cases hclose.symm.trans hquote
  | first hfield hmore =>
    cases h' with
    | empty hclose =>
      obtain ⟨hquote, -, -⟩ := hfield
      cases hclose.symm.trans hquote
    | first hfield' hmore' =>
      obtain ⟨rfl, rfl⟩ := fieldAt_unique hfield hfield'
      obtain ⟨rfl, rfl⟩ := moreFields_unique hmore hmore'
      exact ⟨rfl, rfl⟩

theorem spells_unique (h : Spells text fields) (h' : Spells text fields') : fields = fields' := by
  obtain ⟨bs, rest, hopen, hfields, -⟩ := h
  obtain ⟨bs', rest', hopen', hfields', -⟩ := h'
  cases hopen.symm.trans hopen'
  exact (fields_unique hfields hfields').1

/-! ## Reading inside containers -/

/-- What is done with the containers further out once a value is read. -/
def resume (limit : Nat) (outer : List Pending) : Outcome Value → Outcome Value
  | .error f => .error f
  | .ok (v, rest) => readAfter limit outer v rest

def Stance.inside (outer : List Pending) (s : Stance) : Stance := ⟨s.stack ++ outer, s.done⟩

def inside (outer : List Pending) : Outcome Stance → Outcome Stance
  | .error f => .error f
  | .ok (s, rest) => .ok (s.inside outer, rest)

section Nested

variable {limit : Nat} {inner outer : List Pending} {bs : Bytes}

theorem room_nested :
    (inner ++ outer).length ≥ limit + outer.length ↔ inner.length ≥ limit := by
  rw [List.length_append]
  omega

theorem openList_nested : openList (limit + outer.length) (inner ++ outer) bs =
    inside outer (openList limit inner bs) := by
  unfold openList
  simp only [room_nested]
  split
  · rfl
  cases skipBlanks bs with
  | nil => rfl
  | cons c rest =>
    dsimp only
    split <;> rfl

theorem openField_nested (fields : Keyed Value) (bs : Bytes) :
    openField (inner ++ outer) fields bs = inside outer (openField inner fields bs) := by
  unfold openField
  cases readKey bs <;> rfl

theorem openObject_nested : openObject (limit + outer.length) (inner ++ outer) bs =
    inside outer (openObject limit inner bs) := by
  unfold openObject
  simp only [room_nested]
  split
  · rfl
  cases skipBlanks bs with
  | nil => rfl
  | cons c rest =>
    dsimp only
    split
    · rfl
    split
    · exact openField_nested [] rest
    · rfl

theorem stepValue_nested : stepValue (limit + outer.length) (inner ++ outer) bs =
    inside outer (stepValue limit inner bs) := by
  unfold stepValue
  cases skipBlanks bs with
  | nil => rfl
  | cons b rest =>
    dsimp only
    split
    · exact openList_nested
    split
    · exact openObject_nested
    · cases readScalar b rest <;> rfl

theorem stepItem_nested (items : List Value) :
    stepItem (inner ++ outer) items bs = inside outer (stepItem inner items bs) := by
  unfold stepItem
  cases skipBlanks bs with
  | nil => rfl
  | cons b rest =>
    dsimp only
    split
    · rfl
    split
    · unfold nextItem
      cases skipBlanks rest with
      | nil => rfl
      | cons c tail =>
        dsimp only
        split <;> rfl
    · rfl

theorem stepField_nested (fields : Keyed Value) :
    stepField (inner ++ outer) fields bs = inside outer (stepField inner fields bs) := by
  unfold stepField
  cases skipBlanks bs with
  | nil => rfl
  | cons b rest =>
    dsimp only
    split
    · rfl
    split
    · unfold nextField
      cases skipBlanks rest with
      | nil => rfl
      | cons c tail =>
        dsimp only
        split
        · exact openField_nested fields tail
        · split <;> rfl
    · rfl

theorem goOn_inside {full : Nat} {x : Outcome Stance}
    (h : ∀ s rest, x = .ok (s, rest) →
      (s.inside outer).read full rest = resume full outer (s.read limit rest)) :
    Stance.goOn full (inside outer x) = resume full outer (Stance.goOn limit x) := by
  match x with
  | .error f => rfl
  | .ok (s, rest) => exact h s rest rfl

/-- The containers at the bottom of the stack wait until those above them are closed. -/
theorem read_nested (limit : Nat) (outer : List Pending) (s : Stance) (bs : Bytes) :
    (s.inside outer).read (limit + outer.length) bs =
      resume (limit + outer.length) outer (s.read limit bs) := by
  induction s, bs using read_induction limit with
  | done v bs =>
    rw [Stance.read_done]
    rfl
  | value stack bs ih =>
    show readValue _ (stack ++ outer) bs = resume _ outer (readValue limit stack bs)
    rw [readValue_eq, readValue_eq, stepValue_nested]
    exact goOn_inside ih
  | item items stack v bs ih =>
    show readAfter _ (.list items :: (stack ++ outer)) v bs =
      resume _ outer (readAfter limit (.list items :: stack) v bs)
    rw [readAfter_item, readAfter_item, stepItem_nested]
    exact goOn_inside ih
  | field fields key stack v bs ih =>
    show readAfter _ (.object fields key :: (stack ++ outer)) v bs =
      resume _ outer (readAfter limit (.object fields key :: stack) v bs)
    rw [readAfter_field, readAfter_field, stepField_nested]
    exact goOn_inside ih

end Nested

/-- A value is read inside containers as it is read on its own, with less room by their number. -/
theorem readValue_nested (limit : Nat) (outer : List Pending) (bs : Bytes) :
    readValue (limit + outer.length) outer bs =
      resume (limit + outer.length) outer (readValue limit [] bs) :=
  read_nested limit outer ⟨[], none⟩ bs

/-! ## Whole objects -/

theorem readValue_object (done : Keyed Value) (key : String) (bs : Bytes) :
    readValue maxDepth [.object done key] bs =
      resume maxDepth [.object done key] (readValue (maxDepth - 1) [] bs) :=
  readValue_nested (maxDepth - 1) [.object done key] bs

section Objects

variable {done : Keyed Value} {key : String} {w v : Value}

theorem goOn_openField_iff {tail : Bytes} (hquote : skipBlanks bs = 34 :: tail) :
    Stance.goOn maxDepth (openField [] done tail) = .ok (w, rest) ↔
      ∃ f after, FieldAt bs f after ∧
        readAfter maxDepth [.object done f.1] f.2 after = .ok (w, rest) := by
  unfold openField
  constructor
  · intro h
    split at h
    · cases h
    rename_i key mid hkey
    change readValue maxDepth [.object done key] mid = _ at h
    rw [readValue_object] at h
    cases hvalue : readValue (maxDepth - 1) [] mid with
    | error f =>
      rw [hvalue] at h
      cases h
    | ok r =>
      rw [hvalue] at h
      exact ⟨_, _, .mk hquote hkey hvalue, h⟩
  · rintro ⟨f, after, ⟨hquote', hkey, hvalue⟩, h⟩
    cases hquote.symm.trans hquote'
    rw [hkey]
    show readValue maxDepth [.object done _] _ = _
    rw [readValue_object, hvalue]
    exact h

/-- Behind a field either the object closes or one more field is taken. -/
theorem readAfter_object_step : readAfter maxDepth [.object done key] v bs = .ok (w, rest) ↔
    (skipBlanks bs = 125 :: rest ∧ w = .object (done.insert key v)) ∨
      ∃ mid f after, skipBlanks bs = 44 :: mid ∧ FieldAt mid f after ∧
        readAfter maxDepth [.object (done.insert key v) f.1] f.2 after = .ok (w, rest) := by
  rw [readAfter_field]
  constructor
  · intro h
    cases hb : skipBlanks bs with
    | nil =>
      rw [stepField, hb] at h
      cases h
    | cons b mid =>
      rw [stepField_cons hb] at h
      split at h
      · rename_i hclose
        cases Stance.read_done.symm.trans h
        exact .inl ⟨by rw [hclose], rfl⟩
      split at h
      -- behind a comma only the quote of a key leads on
      · rename_i hcomma
        unfold nextField at h
        split at h
        · cases h
        rename_i c tail hc
        split at h
        · rename_i hquote
          obtain ⟨f, after, hfield, h⟩ := (goOn_openField_iff (hquote ▸ hc)).mp h
          exact .inr ⟨mid, f, after, by rw [hcomma], hfield, h⟩
        · split at h
          · cases h
          · cases h
      · cases h
  · rintro (⟨hclose, rfl⟩ | ⟨mid, f, after, hcomma, hfield, h⟩)
    · rw [stepField_cons hclose, if_pos rfl]
      exact Stance.read_done
    · obtain ⟨tail, hquote⟩ := hfield.quote
      rw [stepField_cons hcomma, if_neg (by decide), if_pos rfl, nextField, hquote]
      dsimp only
      rw [if_pos rfl]
      exact (goOn_openField_iff hquote).mpr ⟨f, after, hfield, h⟩

def putAll (done : Keyed Value) (fields : List (String × Value)) : Keyed Value :=
  fields.foldl (fun kvs f => kvs.insert f.1 f.2) done

/-- Behind a field the reader takes the fields that follow it. -/
theorem readAfter_object_eq_ok_iff : readAfter maxDepth [.object done key] v bs = .ok (w, rest) ↔
    ∃ fields, MoreFields bs fields rest ∧ w = .object (putAll (done.insert key v) fields) := by
  constructor
  · intro h
    -- each field leaves fewer bytes
    induction hn : bs.length using Nat.strongRecOn generalizing bs done key v with
    | ind n ih =>
      rcases readAfter_object_step.mp h with ⟨hclose, rfl⟩ | ⟨mid, f, after, hcomma, hfield, h⟩
      · exact ⟨[], .close hclose, rfl⟩
      · have hlength := Nat.lt_trans hfield.length (length_of_skipBlanks hcomma)
        obtain ⟨fields, hmore, rfl⟩ := ih after.length (hn ▸ hlength) h rfl
        exact ⟨f :: fields, .next hcomma hfield hmore, rfl⟩
  · rintro ⟨fields, hmore, rfl⟩
    induction hmore generalizing done key v with
    | close hclose => exact readAfter_object_step.mpr (.inl ⟨hclose, rfl⟩)
    | next hcomma hfield _ ih =>
      exact readAfter_object_step.mpr (.inr ⟨_, _, _, hcomma, hfield, ih⟩)

theorem readValue_object_eq_ok_iff (hopen : skipBlanks text = 123 :: bs) :
    readValue maxDepth [] text = .ok (w, rest) ↔
      ∃ fields, Fields bs fields rest ∧ w = .ofFields fields := by
  rw [readValue_eq, stepValue_cons hopen, if_neg (by decide), if_pos rfl, openObject,
    if_neg (by decide)]
  constructor
  · intro h
    split at h
    · cases h
    rename_i c tail hc
    split at h
    · rename_i hclose
      cases Stance.read_done.symm.trans h
      exact ⟨[], .empty (hclose ▸ hc), rfl⟩
    split at h
    · rename_i hquote
      obtain ⟨f, after, hfield, h⟩ := (goOn_openField_iff (hquote ▸ hc)).mp h
      obtain ⟨fields, hmore, rfl⟩ := readAfter_object_eq_ok_iff.mp h
      exact ⟨f :: fields, .first hfield hmore, rfl⟩
    · cases h
  · rintro ⟨fields, ⟨hclose⟩ | ⟨hfield, hmore⟩, rfl⟩
    · rw [hclose]
      exact Stance.read_done
    · obtain ⟨tail, hquote⟩ := hfield.quote
      rw [hquote]
      dsimp only
      rw [if_neg (by decide), if_pos rfl]
      exact (goOn_openField_iff hquote).mpr
        ⟨_, _, hfield, readAfter_object_eq_ok_iff.mpr ⟨_, hmore, rfl⟩⟩

/-- **What is read from a text that begins an object is the object with the fields that the text
spells**, of which the last with each key counts. -/
theorem read_eq_ok_iff_spells (hopen : skipBlanks text = 123 :: bs) :
    Value.read text = .ok w ↔ ∃ fields, Spells text fields ∧ w = .ofFields fields := by
  rw [read_eq_ok_iff]
  constructor
  · rintro ⟨rest, h, hrest⟩
    obtain ⟨fields, hfields, rfl⟩ := (readValue_object_eq_ok_iff hopen).mp h
    exact ⟨fields, ⟨bs, rest, hopen, hfields, hrest⟩, rfl⟩
  · rintro ⟨fields, ⟨bs', rest, hopen', hfields, hrest⟩, rfl⟩
    cases hopen.symm.trans hopen'
    exact ⟨rest, (readValue_object_eq_ok_iff hopen).mpr ⟨fields, hfields, rfl⟩, hrest⟩

end Objects

/-! ## Written objects -/

section Written

variable {f : String × Value}

theorem fieldAt_written (hwell : f.2.WellFormed) (hwhole : f.2.Integral)
    (hdepth : f.2.depth < maxDepth) (hrest : EndsNumber rest) :
    FieldAt (34 :: (Utf8.encode (f.1.toList.flatMap escapeChar) ++ 34 :: 58 ::
      (Utf8.encode f.2.render ++ rest))) f rest := by
  refine .mk (skipBlanks_cons (by decide)) (readKey_written f.1 _) ?_
  rw [readValue_render f.2 hwell hwhole (by rw [List.length_nil]; omega) hrest, readAfter]

theorem moreFields_written (hwell : ∀ f ∈ fields, f.2.WellFormed)
    (hwhole : ∀ f ∈ fields, f.2.Integral) (hdepth : ∀ f ∈ fields, f.2.depth < maxDepth) :
    MoreFields (Utf8.encode (renderFields fields) ++ 125 :: rest) fields rest := by
  induction fields with
  | nil => exact .close (skipBlanks_cons (by decide))
  | cons f fields ih =>
    simp only [List.forall_mem_cons] at hwell hwhole hdepth
    rw [encode_renderFields_cons]
    exact .next (skipBlanks_cons (by decide))
      (fieldAt_written hwell.1 hwhole.1 hdepth.1 (endsNumber_renderFields fields rest))
      (ih hwell.2 hwhole.2 hdepth.2)

/-- The text that is written for an object spells its fields, in whatever order they are. -/
theorem spells_renderObject (hwell : ∀ f ∈ fields, f.2.WellFormed)
    (hwhole : ∀ f ∈ fields, f.2.Integral) (hdepth : ∀ f ∈ fields, f.2.depth < maxDepth) :
    Spells (Utf8.encode (renderObject fields)) fields := by
  rw [← List.append_nil (Utf8.encode _)]
  cases fields with
  | nil => exact ⟨[125], [], rfl, .empty rfl, rfl⟩
  | cons f fields =>
    simp only [List.forall_mem_cons] at hwell hwhole hdepth
    rw [encode_renderObject_cons]
    exact ⟨_, [], skipBlanks_cons (by decide),
      .first (fieldAt_written hwell.1 hwhole.1 hdepth.1 (endsNumber_renderFields fields []))
        (moreFields_written hwell.2 hwhole.2 hdepth.2), rfl⟩

end Written

end Courier.Json
