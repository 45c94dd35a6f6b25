import Courier.Keyed
import Mathlib.Data.List.Nodup

/-!
# The order of sorted fields

Pairs that are put in one by one stand in ascending order of their keys, each key once
(`ascending_ofList`). Pairs with distinct keys all stay: sorted, they are the same pairs in another
order (`perm_ofList`).
-/

namespace Courier.Keyed

variable {α : Type}

/-- The keys are in ascending order, each key once. -/
def Ascending (kvs : Keyed α) : Prop := kvs.Pairwise fun p q => p.1 < q.1

theorem insert_of_forall_lt {key : String} {kvs : Keyed α} (h : ∀ p ∈ kvs, p.1 < key)
    (value : α) : insert key value kvs = kvs ++ [(key, value)] := by
  induction kvs with
  | nil => rfl
  | cons p kvs ih =>
    have hp := h p (by simp)
    rw [insert, if_neg (String.lt_asymm hp), if_neg fun heq => String.lt_irrefl _ (heq ▸ hp),
      ih fun q hq => h q (by simp [hq])]
    rfl

theorem ascending_insert {kvs : Keyed α} (h : Ascending kvs) (key : String) (value : α) :
    Ascending (insert key value kvs) := by
  fun_induction insert key value kvs with
  | case1 => simp [Ascending]
  | case2 k v rest hlt =>
    obtain ⟨hk, hrest⟩ := List.pairwise_cons.mp h
    apply List.pairwise_cons.mpr
    constructor
    · intro p hp
      rcases List.mem_cons.mp hp with rfl | hp
      · exact hlt
      · exact String.lt_trans hlt (hk p hp)
    · exact h
  | case3 v rest =>
    obtain ⟨hk, hrest⟩ := List.pairwise_cons.mp h
    exact List.pairwise_cons.mpr ⟨hk, hrest⟩
  | case4 k v rest hlt hne ih =>
    obtain ⟨hk, hrest⟩ := List.pairwise_cons.mp h
    apply List.pairwise_cons.mpr
    constructor
    · intro p hp
      rcases mem_insert hp with rfl | hp
      · exact Std.lt_of_le_of_ne hlt (Ne.symm hne)
      · exact hk p hp
    · exact ih hrest

theorem ascending_ofList (pairs : List (String × α)) : Ascending (ofList pairs) := by
  suffices h : ∀ done : Keyed α, Ascending done →
      Ascending (pairs.foldl (fun kvs p => insert p.1 p.2 kvs) done) from h [] .nil
  induction pairs with
  | nil => exact fun _ h => h
  | cons p pairs ih => exact fun done h => ih _ (ascending_insert h p.1 p.2)

theorem mem_ofList {pairs : List (String × α)} {p : String × α}
    (h : p ∈ ofList pairs) : p ∈ pairs := by
  suffices hdone : ∀ done : Keyed α,
      p ∈ pairs.foldl (fun kvs q => insert q.1 q.2 kvs) done → p ∈ done ∨ p ∈ pairs by
    simpa using hdone [] h
  clear h
  induction pairs with
  | nil => exact fun _ h => .inl h
  | cons q pairs ih =>
    intro done h
    rcases ih _ h with h | h
    · rcases mem_insert h with rfl | h
      · exact .inr (by simp)
      · exact .inl h
    · exact .inr (by simp [h])

/-- Fields that are in order stay as they are. -/
theorem ofList_of_ascending {kvs : Keyed α} (h : Ascending kvs) : ofList kvs = kvs := by
  suffices hdone : ∀ done : Keyed α, Ascending (done ++ kvs) →
      kvs.foldl (fun kvs p => insert p.1 p.2 kvs) done = done ++ kvs from hdone [] h
  clear h
  induction kvs with
  | nil => simp
  | cons p kvs ih =>
    intro done h
    -- the next key stands behind all those that are in already
    have hlt : ∀ q ∈ done, q.1 < p.1 := by
      intro q hq
      exact (List.pairwise_append.mp h).2.2 q hq p (by simp)
    rw [List.foldl_cons, insert_of_forall_lt hlt, ih]
    · simp
    · simpa using h

theorem isSome_get?_iff {key : String} {kvs : Keyed α} :
    (get? key kvs).isSome = true ↔ key ∈ keys kvs := by
  induction kvs with
  | nil => simp [get?, keys]
  | cons p kvs ih =>
    obtain ⟨k, v⟩ := p
    by_cases hkey : k = key
    · simp [get?, keys, hkey]
    · simpa [get?, keys, hkey, Ne.symm hkey] using ih

theorem perm_insert {key : String} {kvs : Keyed α} (h : key ∉ keys kvs) (value : α) :
    (insert key value kvs).Perm ((key, value) :: kvs) := by
  fun_induction insert key value kvs with
  | case1 => rfl
  | case2 => rfl
  | case3 => simp [keys] at h
  | case4 k v rest _ _ ih =>
    have hrest : key ∉ keys rest := fun hmem => h (List.mem_cons_of_mem k hmem)
    exact ((ih hrest).cons (k, v)).trans (.swap _ _ rest)

theorem perm_ofList {pairs : List (String × α)} (h : (pairs.map (·.1)).Nodup) :
    (ofList pairs).Perm pairs := by
  suffices hdone : ∀ done : Keyed α, (keys done ++ pairs.map (·.1)).Nodup →
      (pairs.foldl (fun kvs p => insert p.1 p.2 kvs) done).Perm (done ++ pairs) from hdone [] h
  clear h
  induction pairs with
  | nil => simp
  | cons p pairs ih =>
    intro done h
    have hnew : p.1 ∉ keys done := by
      intro hmem
      exact (List.nodup_append.mp h).2.2 p.1 hmem p.1 (by simp) rfl
    have hinsert := perm_insert hnew p.2
    have hkeys : (keys (insert p.1 p.2 done) ++ pairs.map (·.1)).Perm
        (keys done ++ (p :: pairs).map (·.1)) :=
      ((hinsert.map (·.1)).append_right _).trans List.perm_middle.symm
    exact (ih _ (hkeys.nodup_iff.mpr h)).trans
      ((hinsert.append_right pairs).trans List.perm_middle.symm)

end Courier.Keyed
