import Courier.Queue
import Mathlib.Algebra.BigOperators.Group.List.Lemmas
import Mathlib.Algebra.GroupWithZero.Nat

/-!
# The queue is an ordered map

The independent state is a catalog: a function from ids to entries and the order in which the ids
came. It knows no list of entries and searches for nothing. The queue searches its entries from the
front and works on the first one it finds, which is the same thing as long as no id is held twice.
Every call keeps the ids apart and so the queue and the catalog in step (`perform_catalog`).

Main statement: `performAll_catalog`.
-/

namespace Courier.Queue

/-! ## Calls -/

inductive Call where
  | enqueue (e : Entry)
  | setStatus (id : String) (status : EntryStatus)
  | remove (id : String)
  | get (id : String)
  | length
  | isEmpty
  | topicLength (topic : String)
  | snapshot

inductive Answer where
  | admission (admission : Admission)
  | advanced (result : Except Failure Unit)
  | removed (result : Except Failure Entry)
  | found (entry : Option Entry)
  | number (n : Nat)
  | truth (b : Bool)
  | entries (entries : List Entry)

/-- Makes a call. One that fails leaves the queue as it is. -/
def Call.perform : Call → Queue → Answer × Queue
  | .enqueue e, q =>
      let (admission, q) := q.enqueue e
      (.admission admission, q)
  | .setStatus id status, q =>
      match q.setStatus id status with
      | .ok q => (.advanced (.ok ()), q)
      | .error f => (.advanced (.error f), q)
  | .remove id, q =>
      match q.remove id with
      | .ok (e, q) => (.removed (.ok e), q)
      | .error f => (.removed (.error f), q)
  | .get id, q => (.found (q.get? id), q)
  | .length, q => (.number q.length, q)
  | .isEmpty, q => (.truth q.isEmpty, q)
  | .topicLength topic, q => (.number (q.topicLength topic), q)
  | .snapshot, q => (.entries q.entries, q)

def performAll : List Call → Queue → List Answer × Queue
  | [], q => ([], q)
  | call :: later, q =>
      let (answer, q) := call.perform q
      let (answers, q) := performAll later q
      (answer :: answers, q)

/-! ## The catalog -/

/-- A finite map from ids to entries that knows the order in which its ids came. -/
structure Catalog where
  order : List String
  find? : String → Option Entry

namespace Catalog

def empty : Catalog := ⟨[], fun _ => none⟩

/-- The catalog with something else, or nothing, under an id. -/
def put (c : Catalog) (id : String) (found : Option Entry) : Catalog :=
  { c with find? := fun other => if other = id then found else c.find? other }

/-- What a call does to the map: only `enqueue` of an id that is missing, and `setStatus` and
`remove` of one that is there, change anything, and nothing under any other id. -/
def perform : Call → Catalog → Answer × Catalog
  | .enqueue e, c =>
      match c.find? e.id with
      | some held => (.admission (.existing held.status c.order.length), c)
      | none =>
          (.admission (.added (c.order.length + 1)),
            { c.put e.id (some e) with order := c.order ++ [e.id] })
  | .setStatus id status, c =>
      match c.find? id with
      | some held => (.advanced (.ok ()), c.put id (some { held with status := status }))
      | none => (.advanced (.error (.notFound (.queueEntry id))), c)
  | .remove id, c =>
      match c.find? id with
      | some held => (.removed (.ok held), { c.put id none with order := c.order.erase id })
      | none => (.removed (.error (.notFound (.queueEntry id))), c)
  | .get id, c => (.found (c.find? id), c)
  | .length, c => (.number c.order.length, c)
  | .isEmpty, c => (.truth (c.order.length == 0), c)
  | .topicLength topic, c =>
      (.number (c.order.countP fun id => (c.find? id).any (·.topic == topic)), c)
  | .snapshot, c => (.entries (c.order.filterMap c.find?), c)

def performAll : List Call → Catalog → List Answer × Catalog
  | [], c => ([], c)
  | call :: later, c =>
      let (answer, c) := perform call c
      let (answers, c) := performAll later c
      (answer :: answers, c)

end Catalog

/-- The queue as a map: what a search for each id finds. -/
def catalog (q : Queue) : Catalog := ⟨q.ids, q.get?⟩

/-! ## Distinct ids -/

variable {q q' : Queue} {id : String} {e : Entry} {earlier later : List Entry}

theorem get?_of_mem (hdistinct : q.ids.Nodup) (he : e ∈ q.entries) : q.get? e.id = some e := by
  obtain ⟨earlier, later, hq⟩ := List.append_of_mem he
  refine get?_split hq ?_
  intro x hx heq
  rw [ids, hq, List.map_append, List.nodup_append] at hdistinct
  exact hdistinct.2.2 x.id (List.mem_map_of_mem hx) e.id (by simp) heq

theorem filterMap_get? (hdistinct : q.ids.Nodup) : q.ids.filterMap q.get? = q.entries := by
  rw [ids, List.filterMap_map]
  have hfound : ∀ e ∈ q.entries, (q.get? ∘ (·.id)) e = some e := fun e he =>
    get?_of_mem hdistinct he
  rw [List.filterMap_congr hfound, List.filterMap_some]

theorem countP_get? (hdistinct : q.ids.Nodup) (p : Entry → Bool) :
    (q.ids.countP fun id => (q.get? id).any p) = q.entries.countP p := by
  rw [ids, List.countP_map]
  apply List.countP_congr
  intro e he
  simp [get?_of_mem hdistinct he]

/-- The topics of the entries, each counted once, add up to all entries. -/
theorem sum_topicLength (q : Queue) :
    ((q.entries.map (·.topic)).dedup.map q.topicLength).sum = q.length := by
  have hcount : q.topicLength = fun topic => (q.entries.map (·.topic)).count topic := by
    funext topic
    rw [topicLength, List.count, List.countP_map]
    rfl
  rw [hcount, List.sum_map_count_dedup_eq_length, List.length_map, length]

/-! ## Each call -/

theorem catalog_enqueue (h : e.id ∉ q.ids) :
    (q.enqueue e).2.catalog = { q.catalog.put e.id (some e) with order := q.ids ++ [e.id] } := by
  have hids : (q.enqueue e).2.ids = q.ids ++ [e.id] := by rw [ids_enqueue, if_neg h]
  have hget : (q.enqueue e).2.get? = fun id => if id = e.id then some e else q.get? id :=
    funext (get?_enqueue h)
  rw [catalog, hids, hget]
  rfl

theorem catalog_setStatus {status : EntryStatus} (hset : q.setStatus id status = .ok q')
    (hget : q.get? id = some e) :
    q'.catalog = q.catalog.put id (some { e with status := status }) := by
  have hfind : q'.get? =
      fun other => if other = id then some { e with status := status } else q.get? other := by
    funext other
    rw [get?_setStatus hset]
    split
    · rename_i hother
      simp [hother, hget]
    · simp
  rw [catalog, ids_setStatus hset, hfind]
  rfl

theorem catalog_remove (hdistinct : q.ids.Nodup) (hremove : q.remove id = .ok (e, q')) :
    q'.catalog = { q.catalog.put id none with order := q.ids.erase id } := by
  have hids : q'.ids = q.ids.erase id := by
    rw [ids_remove hdistinct hremove, hdistinct.erase_eq_filter]
    apply List.filter_congr
    intro other _
    simp [bne, Bool.beq_eq_decide_eq]
  have hfind : q'.get? = fun other => if other = id then none else q.get? other :=
    funext (get?_remove hdistinct hremove)
  rw [catalog, hids, hfind]
  rfl

theorem setStatus_of_get? (hget : q.get? id = some e) (status : EntryStatus) :
    ∃ q', q.setStatus id status = .ok q' := by
  obtain ⟨earlier, later, hq, rfl, hearlier⟩ := split_of_get? hget
  exact ⟨_, setStatus_split hq hearlier status⟩

theorem remove_of_get? (hget : q.get? id = some e) : ∃ q', q.remove id = .ok (e, q') := by
  obtain ⟨earlier, later, hq, rfl, hearlier⟩ := split_of_get? hget
  exact ⟨_, remove_split hq hearlier⟩

/-- **On a queue of distinct ids a call answers and does what it does on the map.** -/
theorem perform_catalog (hdistinct : q.ids.Nodup) (call : Call) :
    Catalog.perform call q.catalog = ((call.perform q).1, (call.perform q).2.catalog) := by
  have horder : q.catalog.order = q.ids := rfl
  have hfind : ∀ id, q.catalog.find? id = q.get? id := fun _ => rfl
  have hlength : q.ids.length = q.length := List.length_map _
  cases call with
  | enqueue e =>
    cases hget : q.get? e.id with
    | none =>
      have hfresh := get?_eq_none_iff.mp hget
      have hadded : (q.enqueue e).1 = .added (q.length + 1) := by rw [enqueue_of_notMem hfresh]
      simp only [Catalog.perform, Call.perform, hfind, hget, horder, hlength, hadded,
        catalog_enqueue hfresh]
    | some held =>
      simp only [Catalog.perform, Call.perform, hfind, hget, horder, hlength,
        enqueue_of_get? hget]
  | setStatus id status =>
    cases hget : q.get? id with
    | none =>
      simp only [Catalog.perform, Call.perform, hfind, hget,
        setStatus_of_notMem (get?_eq_none_iff.mp hget)]
    | some held =>
      obtain ⟨q', hset⟩ := setStatus_of_get? hget status
      simp only [Catalog.perform, Call.perform, hfind, hget, hset, catalog_setStatus hset hget]
  | remove id =>
    cases hget : q.get? id with
    | none =>
      simp only [Catalog.perform, Call.perform, hfind, hget,
        remove_of_notMem (get?_eq_none_iff.mp hget)]
    | some held =>
      obtain ⟨q', hremove⟩ := remove_of_get? hget
      simp only [Catalog.perform, Call.perform, hfind, hget, horder, hremove,
        catalog_remove hdistinct hremove]
  | get id => rfl
  | length => simp only [Catalog.perform, Call.perform, horder, hlength]
  | isEmpty =>
    have hempty : (q.length == 0) = q.isEmpty := by
      rw [isEmpty, length]
      cases q.entries <;> rfl
    simp only [Catalog.perform, Call.perform, horder, hlength, hempty]
  | topicLength topic =>
    simp only [Catalog.perform, Call.perform, horder, hfind, countP_get? hdistinct, topicLength]
  | snapshot =>
    simp only [Catalog.perform, Call.perform, ← filterMap_get? hdistinct]
    rfl

theorem nodup_ids_perform (hdistinct : q.ids.Nodup) (call : Call) :
    (call.perform q).2.ids.Nodup := by
  cases call with
  | enqueue e => exact nodup_ids_enqueue hdistinct e
  | setStatus id status =>
    cases hset : q.setStatus id status with
    | error f => simpa [Call.perform, hset] using hdistinct
    | ok q' => simpa [Call.perform, hset, ids_setStatus hset] using hdistinct
  | remove id =>
    cases hremove : q.remove id with
    | error f => simpa [Call.perform, hremove] using hdistinct
    | ok p => simpa [Call.perform, hremove, ids_remove hdistinct hremove] using hdistinct.filter _
  | _ => exact hdistinct

/-! ## Where the entries stand -/

structure Holds (q : Queue) (earlier : List Entry) (e : Entry) (later : List Entry) : Prop where
  entries : q.entries = earlier ++ e :: later
  found : q.get? e.id = some e
  offered : ∀ other : Entry,
    q.enqueue { other with id := e.id } = (.existing e.status q.length, q)
  advanced : ∀ status,
    q.setStatus e.id status = .ok ⟨earlier ++ { e with status := status } :: later⟩
  removed : q.remove e.id = .ok (e, ⟨earlier ++ later⟩)

structure Lacks (q : Queue) (id : String) : Prop where
  found : q.get? id = none
  offered : ∀ other : Entry, q.enqueue { other with id := id } =
    (.added (q.length + 1), ⟨q.entries ++ [{ other with id := id }]⟩)
  advanced : ∀ status, q.setStatus id status = .error (.notFound (.queueEntry id))
  removed : q.remove id = .error (.notFound (.queueEntry id))

theorem lacks_or_holds (q : Queue) (id : String) :
    q.Lacks id ∨ ∃ earlier e later, e.id = id ∧ q.Holds earlier e later := by
  cases hget : q.get? id with
  | none =>
    have hmissing := get?_eq_none_iff.mp hget
    exact .inl ⟨hget, fun _ => enqueue_of_notMem hmissing, setStatus_of_notMem hmissing,
      remove_of_notMem hmissing⟩
  | some e =>
    obtain ⟨earlier, later, hq, rfl, hearlier⟩ := split_of_get? hget
    exact .inr ⟨earlier, e, later, rfl, hq, hget, fun _ => enqueue_of_get? hget,
      setStatus_split hq hearlier, remove_split hq hearlier⟩

/-! ## Runs of calls -/

theorem performAll_of_nodup (hdistinct : q.ids.Nodup) (calls : List Call) :
    (performAll calls q).2.ids.Nodup ∧
      Catalog.performAll calls q.catalog =
        ((performAll calls q).1, (performAll calls q).2.catalog) := by
  induction calls generalizing q with
  | nil => exact ⟨hdistinct, rfl⟩
  | cons call calls ih =>
    obtain ⟨hnodup, hlater⟩ := ih (nodup_ids_perform hdistinct call)
    refine ⟨hnodup, ?_⟩
    simp only [Catalog.performAll, performAll, perform_catalog hdistinct, hlater]

/-- **The queue is an ordered map.** Let any calls be made on a queue that is empty at first. Then
no id is held twice. The answers are those of the catalog, where an id is found with what was put
under it last, and the queue that they leave is the catalog that they leave. An id that is not held
is admitted behind the others and otherwise told to be missing; of one that is held the entry can be
changed or taken out, and all others stay as they are and where they are. The entries of all topics
together are all entries. -/
theorem performAll_catalog (calls : List Call) :
    let q := (performAll calls .empty).2
    q.ids.Nodup ∧
    Catalog.performAll calls .empty = ((performAll calls .empty).1, q.catalog) ∧
    (∀ id, q.Lacks id ∨ ∃ earlier e later, e.id = id ∧ q.Holds earlier e later) ∧
    ((q.entries.map (·.topic)).dedup.map q.topicLength).sum = q.length := by
  obtain ⟨hdistinct, hcatalog⟩ := performAll_of_nodup (q := .empty) List.nodup_nil calls
  exact ⟨hdistinct, hcatalog, lacks_or_holds _, sum_topicLength _⟩

end Courier.Queue
