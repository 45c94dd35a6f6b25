import Courier.Keyed

/-!
# Families of series

A family holds one value for each set of labels. Labels are kept in ascending order, so that the
same labels in another order name the same series. `Family.update` changes one series
(`get?_update_self`) and no other (`get?_update_of_ne`).
-/

namespace Courier.Metrics

/-- Names with values, in ascending order. -/
structure Labels where
  pairs : List (String × String)
deriving DecidableEq, Repr

namespace Labels

def le (a b : String × String) : Bool := decide (a.1 < b.1 ∨ (a.1 = b.1 ∧ a.2 ≤ b.2))

def ofList (pairs : List (String × String)) : Labels := ⟨pairs.mergeSort le⟩

def escape : List Char → List Char
  | [] => []
  | c :: cs =>
      if c = '\\' then '\\' :: '\\' :: escape cs
      else if c = '"' then '\\' :: '"' :: escape cs
      else if c = '\n' then '\\' :: 'n' :: escape cs
      else c :: escape cs

def renderPair (p : String × String) : List Char :=
  p.1.toList ++ '=' :: '"' :: escape p.2.toList ++ ['"']

def render (l : Labels) : List Char := [','].intercalate (l.pairs.map renderPair)

end Labels

/-- A value for each series that has been touched. -/
abbrev Family (α : Type) := List (Labels × α)

namespace Family

variable {α : Type}

def get? (labels : Labels) : Family α → Option α
  | [] => none
  | (l, a) :: rest => if l = labels then some a else get? labels rest

def valueOf (zero : α) (labels : Labels) (f : Family α) : α := (get? labels f).getD zero

/-- Changes the value of a series, which starts from `zero`. -/
def update (labels : Labels) (zero : α) (change : α → α) : Family α → Family α
  | [] => [(labels, change zero)]
  | (l, a) :: rest =>
      if l = labels then (l, change a) :: rest else (l, a) :: update labels zero change rest

theorem get?_update_self (labels : Labels) (zero : α) (change : α → α) (f : Family α) :
    get? labels (update labels zero change f) = some (change ((get? labels f).getD zero)) := by
  fun_induction update labels zero change f with
  | case1 => simp [get?]
  | case2 => simp_all [get?]
  | case3 l a rest h ih => simp [get?, h, ih]

theorem get?_update_of_ne {labels other : Labels} (h : other ≠ labels) (zero : α)
    (change : α → α) (f : Family α) :
    get? other (update labels zero change f) = get? other f := by
  fun_induction update labels zero change f with
  | case1 => simp [get?, Ne.symm h]
  | case2 => simp [get?, Ne.symm h]
  | case3 l a rest hl ih => simp [get?, ih]

theorem valueOf_update_self (labels : Labels) (zero : α) (change : α → α) (f : Family α) :
    valueOf zero labels (update labels zero change f) = change (valueOf zero labels f) := by
  rw [valueOf, get?_update_self]
  rfl

theorem valueOf_update_of_ne {labels other : Labels} (h : other ≠ labels) (zero : α)
    (change : α → α) (f : Family α) :
    valueOf zero other (update labels zero change f) = valueOf zero other f := by
  rw [valueOf, get?_update_of_ne h]
  rfl

/-- The value of a series is made by the updates of its own labels, in their order. -/
theorem valueOf_foldl_update {β : Type} (labelsOf : β → Labels) (zero : α) (change : β → α → α)
    (labels : Labels) (calls : List β) (f : Family α) :
    valueOf zero labels (calls.foldl (fun f c => update (labelsOf c) zero (change c) f) f) =
      (calls.filter fun c => labelsOf c = labels).foldl (fun a c => change c a)
        (valueOf zero labels f) := by
  induction calls generalizing f with
  | nil => rfl
  | cons c calls ih =>
    rw [List.foldl_cons, ih, List.filter_cons]
    by_cases h : labelsOf c = labels
    · rw [h, valueOf_update_self, if_pos (decide_eq_true rfl), List.foldl_cons]
    · rw [valueOf_update_of_ne (Ne.symm h), if_neg fun hc => h (of_decide_eq_true hc)]

/-! ## The series of a family -/

def touched (f : Family α) : List Labels := f.map (·.1)

theorem mem_touched_update {labels other : Labels} {zero : α} {change : α → α} {f : Family α} :
    other ∈ touched (update labels zero change f) ↔ other = labels ∨ other ∈ touched f := by
  fun_induction update labels zero change f with
  | case1 => simp [touched]
  | case2 a rest => simp [touched]
  | case3 l a rest h ih =>
    have hrest : other ∈ touched ((l, a) :: update labels zero change rest) ↔
        other = l ∨ other ∈ touched (update labels zero change rest) := List.mem_cons
    rw [hrest, ih]
    exact or_left_comm.trans (or_congr_right List.mem_cons.symm)

theorem nodup_touched_update (labels : Labels) (zero : α) (change : α → α) {f : Family α}
    (h : (touched f).Nodup) : (touched (update labels zero change f)).Nodup := by
  fun_induction update labels zero change f with
  | case1 => exact List.nodup_cons.mpr ⟨List.not_mem_nil, List.nodup_nil⟩
  | case2 => exact h
  | case3 l a rest hne ih =>
    obtain ⟨hl, hrest⟩ := List.nodup_cons.mp h
    apply List.nodup_cons.mpr
    constructor
    · intro hmem
      rcases mem_touched_update.mp hmem with heq | hmem
      · exact hne heq
      · exact hl hmem
    · exact ih hrest

/-- The family has each series once, and only series of some kind. -/
structure Among (p : Labels → Prop) (f : Family α) : Prop where
  once : (touched f).Nodup
  kind : ∀ labels ∈ touched f, p labels

theorem among_nil (p : Labels → Prop) : Among p ([] : Family α) :=
  ⟨List.nodup_nil, fun _ h => nomatch h⟩

theorem Among.update {p : Labels → Prop} {f : Family α} (h : Among p f) {labels : Labels}
    (hlabels : p labels) (zero : α) (change : α → α) :
    Among p (Family.update labels zero change f) := by
  constructor
  · exact nodup_touched_update _ _ _ h.once
  · intro other hother
    rcases mem_touched_update.mp hother with rfl | hother
    · exact hlabels
    · exact h.kind other hother

/-- There are no more series than there are labels of their kind. -/
theorem Among.length_le {p : Labels → Prop} {f : Family α} (h : Among p f) (all : List Labels)
    (hall : ∀ labels, p labels → labels ∈ all) : f.length ≤ all.length := by
  rw [← List.length_map (·.1)]
  apply List.Nodup.length_le_of_subset h.once
  intro labels hlabels
  exact hall labels (h.kind labels hlabels)

theorem get?_of_mem {labels : Labels} {a : α} {f : Family α} (h : (touched f).Nodup)
    (hmem : (labels, a) ∈ f) : get? labels f = some a := by
  induction f with
  | nil => cases hmem
  | cons s rest ih =>
    obtain ⟨l, b⟩ := s
    obtain ⟨hl, hrest⟩ := List.nodup_cons.mp h
    rcases List.mem_cons.mp hmem with heq | hmem
    · cases heq
      exact if_pos rfl
    · have hne : l ≠ labels := by
        intro heq
        exact hl (List.mem_map.mpr ⟨_, hmem, heq.symm⟩)
      rw [get?, if_neg hne, ih hrest hmem]

theorem forall_mem_update {p : α → Prop} {zero : α} {change : α → α} (hzero : p zero)
    (hchange : ∀ a, p a → p (change a)) (labels : Labels) {f : Family α} (h : ∀ s ∈ f, p s.2) :
    ∀ s ∈ update labels zero change f, p s.2 := by
  fun_induction update labels zero change f with
  | case1 => exact List.forall_mem_singleton.mpr (hchange _ hzero)
  | case2 a rest =>
    obtain ⟨ha, hrest⟩ := List.forall_mem_cons.mp h
    exact List.forall_mem_cons.mpr ⟨hchange a ha, hrest⟩
  | case3 l a rest _ ih =>
    obtain ⟨ha, hrest⟩ := List.forall_mem_cons.mp h
    exact List.forall_mem_cons.mpr ⟨ha, ih hrest⟩

end Family

end Courier.Metrics
