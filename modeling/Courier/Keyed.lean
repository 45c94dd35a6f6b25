/-!
# Sorted fields

A list of pairs in ascending order of their keys, each key once. `insert` is a single pass, so that
its look-up laws `get?_insert_self` and `get?_insert_of_ne` hold of any list.
-/

namespace Courier

/-- Values by key, in ascending order of the keys. -/
abbrev Keyed (α : Type) := List (String × α)

namespace Keyed

variable {α : Type}

/-- The pairs with one more, in the place of a pair with the same key if there is one. -/
def insert (key : String) (value : α) : Keyed α → Keyed α
  | [] => [(key, value)]
  | (k, v) :: rest =>
      if key < k then (key, value) :: (k, v) :: rest
      else if key = k then (key, value) :: rest
      else (k, v) :: insert key value rest

def get? (key : String) : Keyed α → Option α
  | [] => none
  | (k, v) :: rest => if k = key then some v else get? key rest

def contains (key : String) (kvs : Keyed α) : Bool := (get? key kvs).isSome

def keys (kvs : Keyed α) : List String := kvs.map (·.1)

/-- The given pairs, of which the last with each key counts. -/
def ofList (pairs : List (String × α)) : Keyed α :=
  pairs.foldl (fun kvs p => insert p.1 p.2 kvs) []

theorem get?_insert_self (key : String) (value : α) (kvs : Keyed α) :
    get? key (insert key value kvs) = some value := by
  fun_induction insert key value kvs with
  | case1 => simp [get?]
  | case2 => simp [get?]
  | case3 => simp [get?]
  | case4 k v rest _ hne ih => simp [get?, Ne.symm hne, ih]

theorem get?_insert_of_ne {key other : String} (h : other ≠ key) (value : α) (kvs : Keyed α) :
    get? other (insert key value kvs) = get? other kvs := by
  fun_induction insert key value kvs with
  | case1 => simp [get?, Ne.symm h]
  | case2 => simp [get?, Ne.symm h]
  | case3 => simp [get?, Ne.symm h]
  | case4 k v rest _ _ ih => simp [get?, ih]

theorem get?_foldl_insert (key : String) (pairs : List (String × α)) (kvs : Keyed α) :
    get? key (pairs.foldl (fun kvs p => insert p.1 p.2 kvs) kvs) =
      ((pairs.reverse.find? (·.1 == key)).map (·.2)).or (get? key kvs) := by
  induction pairs generalizing kvs with
  | nil => simp
  | cons p pairs ih =>
    rw [List.foldl_cons, ih, List.reverse_cons, List.find?_append]
    cases pairs.reverse.find? (·.1 == key) with
    | some q => simp
    | none =>
      by_cases h : p.1 = key
      · simp [← h, get?_insert_self]
      · simp [h, get?_insert_of_ne (Ne.symm h)]

theorem get?_ofList (key : String) (pairs : List (String × α)) :
    get? key (ofList pairs) = (pairs.reverse.find? (·.1 == key)).map (·.2) := by
  rw [ofList, get?_foldl_insert]
  simp [get?]

theorem mem_insert {key : String} {value : α} {kvs : Keyed α} {p : String × α}
    (h : p ∈ insert key value kvs) : p = (key, value) ∨ p ∈ kvs := by
  fun_induction insert key value kvs with
  | case1 => simpa using h
  | case2 => simpa using h
  | case3 => grind
  | case4 => grind

end Keyed

end Courier
