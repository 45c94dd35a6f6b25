import Courier.Message.Request

/-!
# The work queue

Accepted work in the order in which it came. Each entry is known by its id: a second entry with an
id that is held already changes nothing, so the ids stay distinct (`nodup_ids_enqueue`). Entries
are advanced and taken out by their ids.
-/

namespace Courier

inductive EntryStatus where
  | pending
  | running
  | done
deriving DecidableEq, Repr

namespace EntryStatus

def name : EntryStatus → String
  | .pending => "pending"
  | .running => "running"
  | .done => "done"

end EntryStatus

structure Entry where
  id : String
  topic : String
  status : EntryStatus
  payload : Option Json.Value
  enqueuedAt : String

namespace Entry

/-- The entry that a request asks for; a missing id or time is the empty text. -/
def pending (r : Request) : Entry :=
  ⟨r.ident, r.topic, .pending, r.payload, r.envelope.timestamp.getD ""⟩

def summary (e : Entry) : Json.Value :=
  .ofFields [("id", .string e.id), ("topic", .string e.topic), ("status", .string e.status.name)]

end Entry

inductive Admission where
  /-- It is the last entry now; the number of entries. -/
  | added (depth : Nat)
  /-- There is one with its id; the status of that one and the number of entries. -/
  | existing (status : EntryStatus) (depth : Nat)
deriving DecidableEq, Repr

structure Queue where
  entries : List Entry := []

namespace Queue

def empty : Queue := {}

def ids (q : Queue) : List String := q.entries.map (·.id)

def length (q : Queue) : Nat := q.entries.length

def isEmpty (q : Queue) : Bool := q.entries.isEmpty

def topicLength (q : Queue) (topic : String) : Nat := q.entries.countP (·.topic == topic)

def get? (q : Queue) (id : String) : Option Entry := q.entries.find? (·.id == id)

/-- Puts an entry behind the others unless its id is there already. -/
def enqueue (q : Queue) (e : Entry) : Admission × Queue :=
  match q.get? e.id with
  | some held => (.existing held.status q.length, q)
  | none => (.added (q.length + 1), ⟨q.entries ++ [e]⟩)

def position? (q : Queue) (id : String) : Option Nat := q.entries.findIdx? (·.id == id)

def setStatus (q : Queue) (id : String) (status : EntryStatus) : Except Failure Queue :=
  match q.position? id with
  | none => .error (.notFound (.queueEntry id))
  | some i => .ok ⟨q.entries.modify i fun e => { e with status := status }⟩

def remove (q : Queue) (id : String) : Except Failure (Entry × Queue) :=
  match q.position? id with
  | none => .error (.notFound (.queueEntry id))
  | some i =>
      match q.entries[i]? with
      | some e => .ok (e, ⟨q.entries.eraseIdx i⟩)
      | none => .error (.internal ("queue entry " ++ id ++ " vanished"))

theorem get?_eq_none_iff {q : Queue} {id : String} : q.get? id = none ↔ id ∉ q.ids := by
  simp [get?, ids, List.find?_eq_none]

theorem exists_get?_of_mem {q : Queue} {id : String} (h : id ∈ q.ids) :
    ∃ held, q.get? id = some held := by
  cases hget : q.get? id with
  | none => exact absurd h (get?_eq_none_iff.1 hget)
  | some held => exact ⟨held, rfl⟩

theorem mem_ids_of_get? {q : Queue} {id : String} {e : Entry} (h : q.get? id = some e) :
    id ∈ q.ids := by
  apply Classical.byContradiction
  intro hnot
  rw [get?_eq_none_iff.2 hnot] at h
  cases h

theorem id_of_get? {q : Queue} {id : String} {e : Entry} (h : q.get? id = some e) : e.id = id := by
  have := List.find?_some h
  simpa using this

theorem enqueue_of_get? {q : Queue} {e held : Entry} (h : q.get? e.id = some held) :
    q.enqueue e = (.existing held.status q.length, q) := by
  simp [enqueue, h]

theorem enqueue_of_notMem {q : Queue} {e : Entry} (h : e.id ∉ q.ids) :
    q.enqueue e = (.added (q.length + 1), ⟨q.entries ++ [e]⟩) := by
  simp [enqueue, get?_eq_none_iff.mpr h]

theorem ids_enqueue (q : Queue) (e : Entry) :
    (q.enqueue e).2.ids = if e.id ∈ q.ids then q.ids else q.ids ++ [e.id] := by
  split
  · rename_i h
    obtain ⟨held, hget⟩ := exists_get?_of_mem h
    rw [enqueue_of_get? hget]
  · rename_i h
    rw [enqueue_of_notMem h]
    simp [ids]

theorem nodup_ids_enqueue {q : Queue} (h : q.ids.Nodup) (e : Entry) :
    (q.enqueue e).2.ids.Nodup := by
  rw [ids_enqueue]
  split
  · exact h
  · rename_i hn
    rw [List.nodup_append]
    refine ⟨h, by simp, ?_⟩
    intro a ha b hb
    rw [List.mem_singleton] at hb
    subst hb
    intro hab
    exact hn (hab ▸ ha)

/-! ## The first entry with an id -/

/-- An entry that is found stands behind entries with other ids. -/
theorem split_of_get? {q : Queue} {id : String} {e : Entry} (h : q.get? id = some e) :
    ∃ earlier later, q.entries = earlier ++ e :: later ∧ e.id = id ∧
      ∀ x ∈ earlier, x.id ≠ id := by
  obtain ⟨hid, earlier, later, hentries, hearlier⟩ := List.find?_eq_some_iff_append.mp h
  exact ⟨earlier, later, hentries, by simpa using hid, by simpa using hearlier⟩

section Split

variable {q : Queue} {earlier later : List Entry} {e : Entry}

theorem get?_split (hq : q.entries = earlier ++ e :: later) (h : ∀ x ∈ earlier, x.id ≠ e.id) :
    q.get? e.id = some e :=
  List.find?_eq_some_iff_append.mpr ⟨by simp, earlier, later, hq, by simpa using h⟩

theorem position?_split (hq : q.entries = earlier ++ e :: later)
    (h : ∀ x ∈ earlier, x.id ≠ e.id) : q.position? e.id = some earlier.length := by
  have hnone : earlier.findIdx? (·.id == e.id) = none := by
    rw [List.findIdx?_eq_none_iff]
    simpa using h
  simp [position?, hq, List.findIdx?_append, hnone, List.findIdx?_cons]

/-- Of the entries only the first with the id gets the status. -/
theorem setStatus_split (hq : q.entries = earlier ++ e :: later)
    (h : ∀ x ∈ earlier, x.id ≠ e.id) (status : EntryStatus) :
    q.setStatus e.id status = .ok ⟨earlier ++ { e with status := status } :: later⟩ := by
  have hmodify : (earlier ++ e :: later).modify earlier.length
      (fun e => { e with status := status }) = earlier ++ { e with status := status } :: later := by
    simpa [List.modify] using
      List.modifyTailIdx_add (List.modifyHead fun e => { e with status := status }) 0 earlier
        (e :: later)
  rw [setStatus, position?_split hq h]
  simp only [hq, hmodify]

theorem remove_split (hq : q.entries = earlier ++ e :: later) (h : ∀ x ∈ earlier, x.id ≠ e.id) :
    q.remove e.id = .ok (e, ⟨earlier ++ later⟩) := by
  have herase : (earlier ++ e :: later).eraseIdx earlier.length = earlier ++ later := by
    rw [List.eraseIdx_append_of_length_le (Nat.le_refl _)]
    simp
  rw [remove, position?_split hq h]
  simp [hq, herase]

end Split

theorem position?_of_notMem {q : Queue} {id : String} (h : id ∉ q.ids) : q.position? id = none := by
  rw [position?, List.findIdx?_eq_none_iff]
  intro e he
  simp only [beq_eq_false_iff_ne]
  rintro rfl
  exact h (List.mem_map_of_mem he)

theorem setStatus_of_notMem {q : Queue} {id : String} (h : id ∉ q.ids) (status : EntryStatus) :
    q.setStatus id status = .error (.notFound (.queueEntry id)) := by
  rw [setStatus, position?_of_notMem h]

theorem remove_of_notMem {q : Queue} {id : String} (h : id ∉ q.ids) :
    q.remove id = .error (.notFound (.queueEntry id)) := by
  rw [remove, position?_of_notMem h]

theorem split_of_setStatus {q q' : Queue} {id : String} {status : EntryStatus}
    (h : q.setStatus id status = .ok q') :
    ∃ earlier e later, q.entries = earlier ++ e :: later ∧ e.id = id ∧
      (∀ x ∈ earlier, x.id ≠ id) ∧ q' = ⟨earlier ++ { e with status := status } :: later⟩ := by
  cases hget : q.get? id with
  | none =>
    rw [setStatus_of_notMem (get?_eq_none_iff.mp hget)] at h
    cases h
  | some e =>
    obtain ⟨earlier, later, hq, rfl, hearlier⟩ := split_of_get? hget
    rw [setStatus_split hq hearlier] at h
    exact ⟨earlier, e, later, hq, rfl, hearlier, (Except.ok.inj h).symm⟩

theorem split_of_remove {q q' : Queue} {id : String} {e : Entry}
    (h : q.remove id = .ok (e, q')) :
    ∃ earlier later, q.entries = earlier ++ e :: later ∧ e.id = id ∧
      (∀ x ∈ earlier, x.id ≠ id) ∧ q' = ⟨earlier ++ later⟩ := by
  cases hget : q.get? id with
  | none =>
    rw [remove_of_notMem (get?_eq_none_iff.mp hget)] at h
    cases h
  | some held =>
    obtain ⟨earlier, later, hq, rfl, hearlier⟩ := split_of_get? hget
    rw [remove_split hq hearlier] at h
    obtain ⟨rfl, rfl⟩ := Prod.mk.inj (Except.ok.inj h)
    exact ⟨earlier, later, hq, rfl, hearlier, rfl⟩

/-! ## What calls leave -/

theorem ids_setStatus {q q' : Queue} {id : String} {status : EntryStatus}
    (h : q.setStatus id status = .ok q') : q'.ids = q.ids := by
  obtain ⟨earlier, e, later, hq, -, -, rfl⟩ := split_of_setStatus h
  simp [ids, hq]

theorem mem_ids_of_setStatus {q q' : Queue} {id : String} {status : EntryStatus}
    (h : q.setStatus id status = .ok q') : id ∈ q.ids := by
  obtain ⟨earlier, e, later, hq, rfl, -, -⟩ := split_of_setStatus h
  simp [ids, hq]

/-- With distinct ids, no entry with the id is left. -/
theorem ids_remove {q q' : Queue} {id : String} {e : Entry} (hdistinct : q.ids.Nodup)
    (h : q.remove id = .ok (e, q')) : q'.ids = q.ids.filter (· ≠ id) := by
  obtain ⟨earlier, later, hq, rfl, hearlier, rfl⟩ := split_of_remove h
  simp only [ids, hq, List.map_append, List.map_cons, List.nodup_append, List.nodup_cons]
    at hdistinct ⊢
  have hkeep : ∀ l : List Entry, (∀ x ∈ l, x.id ≠ e.id) →
      (l.map (·.id)).filter (· ≠ e.id) = l.map (·.id) := by
    intro l hl
    rw [List.filter_eq_self]
    intro id hid
    obtain ⟨x, hx, rfl⟩ := List.mem_map.mp hid
    simpa using hl x hx
  have hlater : ∀ x ∈ later, x.id ≠ e.id := fun x hx heq =>
    hdistinct.2.1.1 (heq ▸ List.mem_map_of_mem hx)
  rw [List.filter_append, List.filter_cons, hkeep earlier hearlier, hkeep later hlater]
  simp

/-- An entry that is added is the one found under its id, and the others are found as before. -/
theorem get?_enqueue {q : Queue} {e : Entry} (h : e.id ∉ q.ids) (id : String) :
    (q.enqueue e).2.get? id = if id = e.id then some e else q.get? id := by
  rw [enqueue_of_notMem h, get?, List.find?_append]
  split
  · rename_i hid
    rw [show q.entries.find? (·.id == id) = none from get?_eq_none_iff.2 (hid ▸ h)]
    simp [hid]
  · rename_i hid
    simp [get?, Ne.symm hid]

theorem get?_of_remove {q q' : Queue} {id : String} {e : Entry} (h : q.remove id = .ok (e, q')) :
    q.get? id = some e := by
  obtain ⟨earlier, later, hq, rfl, hearlier, -⟩ := split_of_remove h
  exact get?_split hq hearlier

/-- Setting a status changes that of one entry. -/
theorem get?_setStatus {q q' : Queue} {id : String} {status : EntryStatus}
    (h : q.setStatus id status = .ok q') (other : String) :
    q'.get? other =
      (q.get? other).map fun e => if other = id then { e with status := status } else e := by
  obtain ⟨earlier, e, later, hq, rfl, hearlier, rfl⟩ := split_of_setStatus h
  by_cases hother : other = e.id
  · subst hother
    rw [get?_split hq hearlier, get?_split (e := { e with status := status }) rfl hearlier]
    simp
  · simp [get?, hq, List.find?_append, Ne.symm hother, hother]

theorem get?_remove {q q' : Queue} {id : String} {e : Entry} (hdistinct : q.ids.Nodup)
    (h : q.remove id = .ok (e, q')) (other : String) :
    q'.get? other = if other = id then none else q.get? other := by
  split
  · rename_i hother
    rw [get?_eq_none_iff, ids_remove hdistinct h, hother]
    simp
  · rename_i hother
    obtain ⟨earlier, later, hq, rfl, -, rfl⟩ := split_of_remove h
    simp [get?, hq, List.find?_append, Ne.symm hother]

end Queue

end Courier
