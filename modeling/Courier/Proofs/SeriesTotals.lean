import Courier.Metrics.Basic
import Mathlib.Algebra.BigOperators.Group.List.Basic
import Mathlib.Algebra.GroupWithZero.Nat
import Mathlib.Algebra.Ring.Int.Defs
import Mathlib.Data.List.Induction

/-!
# What counters and gauges add up to

A call on a counter or a gauge names its labels in any order and adds an amount. Labels given in two
orders are the same labels (`Labels.ofList_eq_iff`), so that a series is told by its labels up to
their order, and its value is the sum of the amounts of the calls that name it. What is added up in
64 bits is the sum in whole numbers put into 64 bits at the end: both kinds of family come from one
lemma about a way to put numbers into values that respects sums (`Call.valueOf_foldl`).

Main statement: `Call.value_eq_sum`.
-/

namespace Courier.Metrics

/-! ## Labels in any order -/

namespace Labels

theorem le_iff {a b : String × String} : le a b = true ↔ a.1 < b.1 ∨ (a.1 = b.1 ∧ a.2 ≤ b.2) :=
  decide_eq_true_iff

theorem le_trans {a b c : String × String} (hab : le a b = true) (hbc : le b c = true) :
    le a c = true := by
  rw [le_iff] at hab hbc ⊢
  rcases hab with hab | ⟨hab, hvalue⟩
  · rcases hbc with hbc | ⟨hbc, -⟩
    · exact .inl (String.lt_trans hab hbc)
    · exact .inl (hbc ▸ hab)
  · rcases hbc with hbc | ⟨hbc, hvalue'⟩
    · exact .inl (hab ▸ hbc)
    · exact .inr ⟨hab.trans hbc, String.le_trans hvalue hvalue'⟩

theorem le_total (a b : String × String) : (le a b || le b a) = true := by
  rw [Bool.or_eq_true, le_iff, le_iff]
  by_cases hname : a.1 = b.1
  · rcases String.le_total a.2 b.2 with h | h
    · exact .inl (.inr ⟨hname, h⟩)
    · exact .inr (.inr ⟨hname.symm, h⟩)
  · rcases String.le_total a.1 b.1 with h | h
    · exact .inl (.inl (Std.lt_of_le_of_ne h hname))
    · exact .inr (.inl (Std.lt_of_le_of_ne h (Ne.symm hname)))

theorem le_antisymm {a b : String × String} (hab : le a b = true) (hba : le b a = true) :
    a = b := by
  rw [le_iff] at hab hba
  rcases hab with hab | ⟨hname, hvalue⟩
  · rcases hba with hba | ⟨hba, -⟩
    · exact absurd hba (String.lt_asymm hab)
    · exact absurd (hba ▸ hab) (String.lt_irrefl _)
  · rcases hba with hba | ⟨-, hvalue'⟩
    · exact absurd (hname ▸ hba) (String.lt_irrefl _)
    · exact Prod.ext hname (String.le_antisymm hvalue hvalue')

/-- **Labels are the same in whatever order they are given**, and only labels that are the same but
for their order. -/
theorem ofList_eq_iff {pairs other : List (String × String)} :
    ofList pairs = ofList other ↔ pairs.Perm other := by
  have hsorted : ∀ l : List (String × String), (l.mergeSort le).Pairwise (le · · = true) :=
    List.pairwise_mergeSort (fun _ _ _ => le_trans) le_total
  constructor
  · intro h
    have hpairs : pairs.mergeSort le = other.mergeSort le := congrArg Labels.pairs h
    exact (List.mergeSort_perm pairs le).symm.trans (hpairs ▸ List.mergeSort_perm other le)
  · intro h
    have hperm : (pairs.mergeSort le).Perm (other.mergeSort le) :=
      (List.mergeSort_perm pairs le).trans (h.trans (List.mergeSort_perm other le).symm)
    have hpairs : pairs.mergeSort le = other.mergeSort le :=
      hperm.eq_of_pairwise (fun _ _ _ _ => le_antisymm) (hsorted pairs) (hsorted other)
    rw [ofList, hpairs]
    rfl

end Labels

/-! ## Calls -/

/-- A call on a counter or a gauge: the labels in the order in which they are given, and what is
added to their series. -/
structure Call (α : Type) where
  labels : List (String × String)
  amount : α

namespace Call

def inc {α : Type} [OfNat α 1] (labels : List (String × String)) : Call α := ⟨labels, 1⟩

def dec (labels : List (String × String)) : Call Int64 := ⟨labels, -1⟩

/-- Whether the call names these labels, in whatever order. -/
def names {α : Type} (labels : List (String × String)) (c : Call α) : Bool := c.labels.Perm labels

/-- What a counter shows after some calls. -/
def counted (calls : List (Call UInt64)) (labels : List (String × String)) : UInt64 :=
  Family.valueOf 0 (.ofList labels)
    (calls.foldl (fun f c => addTo (.ofList c.labels) c.amount f) [])

/-- What a gauge shows after some calls. -/
def gauged (calls : List (Call Int64)) (labels : List (String × String)) : Int64 :=
  Family.valueOf 0 (.ofList labels)
    (calls.foldl (fun f c => shift (.ofList c.labels) c.amount f) [])

section Sums

variable {α M : Type} [AddCommMonoid M] {put : M → α} {read : α → M}

/-- The amounts of the calls that name the labels, together. -/
def sumOf (read : α → M) (calls : List (Call α)) (labels : List (String × String)) : M :=
  ((calls.filter (names labels)).map fun c => read c.amount).sum

theorem sumOf_append (calls later : List (Call α)) (labels : List (String × String)) :
    sumOf read (calls ++ later) labels = sumOf read calls labels + sumOf read later labels := by
  rw [sumOf, List.filter_append, List.map_append, List.sum_append]
  rfl

theorem sumOf_singleton (c : Call α) (labels : List (String × String)) :
    sumOf read [c] labels = if names labels c then read c.amount else 0 := by
  cases hnamed : names labels c <;> simp [sumOf, hnamed]

theorem sumOf_congr_perm {calls other : List (Call α)} (h : calls.Perm other)
    (labels : List (String × String)) : sumOf read calls labels = sumOf read other labels :=
  ((h.filter _).map _).sum_eq

/-- **The value of a series is the sum of the amounts that are added to it**, in a type of values
into which numbers are put so that sums become sums. -/
theorem valueOf_foldl [Add α] (hput : ∀ m n, put (m + n) = put m + put n)
    (hread : ∀ a, put (read a) = a) (calls : List (Call α)) (labels : List (String × String)) :
    Family.valueOf (put 0) (.ofList labels)
        (calls.foldl (fun f c => Family.update (.ofList c.labels) (put 0) (· + c.amount) f) []) =
      put (sumOf read calls labels) := by
  induction calls using List.reverseRecOn with
  | nil => rfl
  | append_singleton calls c ih =>
    rw [List.foldl_append, List.foldl_cons, List.foldl_nil, sumOf_append, sumOf_singleton]
    -- the last call adds to the series that it names, and no other call names its labels
    by_cases hnamed : c.labels.Perm labels
    · have hif : names labels c = true := decide_eq_true hnamed
      rw [Labels.ofList_eq_iff.mpr hnamed, Family.valueOf_update_self, ih, if_pos hif, hput, hread]
    · have hif : ¬ names labels c = true := fun h => hnamed (of_decide_eq_true h)
      have hne : Labels.ofList labels ≠ Labels.ofList c.labels := by
        intro heq
        exact hnamed (Labels.ofList_eq_iff.mp heq.symm)
      rw [Family.valueOf_update_of_ne hne, ih, if_neg hif, add_zero]

end Sums

theorem counted_eq (calls : List (Call UInt64)) (labels : List (String × String)) :
    counted calls labels = UInt64.ofNat (sumOf UInt64.toNat calls labels) :=
  valueOf_foldl UInt64.ofNat_add (fun _ => UInt64.ofNat_toNat) calls labels

theorem gauged_eq (calls : List (Call Int64)) (labels : List (String × String)) :
    gauged calls labels = Int64.ofInt (sumOf Int64.toInt calls labels) :=
  valueOf_foldl Int64.ofInt_add Int64.ofInt_toInt calls labels

/-- **Counters and gauges add up for each set of labels.** After any calls the value of a series is
the sum of the amounts of those calls that name its labels, in whatever order they name them: for a
counter modulo `2^64`, for a gauge as a number of 64 bits with a sign. So the order of the labels
does not split a series, the order of the calls does not matter, and a call under other labels
changes nothing. -/
theorem value_eq_sum (counts : List (Call UInt64)) (moves : List (Call Int64))
    (labels : List (String × String)) :
    (counted counts labels).toNat =
        ((counts.filter fun c => c.labels.Perm labels).map fun c => c.amount.toNat).sum
          % Decimal.twoTo 64 ∧
      (gauged moves labels).toInt =
        Int.bmod ((moves.filter fun c => c.labels.Perm labels).map fun c => c.amount.toInt).sum
          (Decimal.twoTo 64) ∧
      (∀ other, other.Perm labels →
        counted counts other = counted counts labels ∧ gauged moves other = gauged moves labels) ∧
      (∀ counts' moves', counts'.Perm counts → moves'.Perm moves →
        counted counts' labels = counted counts labels ∧
          gauged moves' labels = gauged moves labels) ∧
      (∀ c, ¬ c.labels.Perm labels → counted (counts ++ [c]) labels = counted counts labels) ∧
      ∀ c, ¬ c.labels.Perm labels → gauged (moves ++ [c]) labels = gauged moves labels := by
  refine ⟨?_, ?_, ?_, ?_, ?_, ?_⟩
  · rw [counted_eq, UInt64.toNat_ofNat']
    rfl
  · rw [gauged_eq, Int64.toInt_ofInt]
    rfl
  · intro other hother
    unfold counted gauged
    rw [Labels.ofList_eq_iff.mpr hother]
    exact ⟨rfl, rfl⟩
  · intro counts' moves' hcounts hmoves
    rw [counted_eq, counted_eq, gauged_eq, gauged_eq, sumOf_congr_perm hcounts,
      sumOf_congr_perm hmoves]
    exact ⟨rfl, rfl⟩
  · intro c hc
    rw [counted_eq, counted_eq, sumOf_append, sumOf_singleton]
    simp [names, hc]
  · intro c hc
    rw [gauged_eq, gauged_eq, sumOf_append, sumOf_singleton]
    simp [names, hc]

/-- The same labels in two orders, with a name that comes twice, and a sum that starts again from
zero. -/
example :
    counted [⟨[("verb", "PING"), ("verb", "POLL")], 18446744073709551615⟩,
        inc [("verb", "POLL"), ("verb", "PING")], inc [("verb", "PING")]]
      [("verb", "PING"), ("verb", "POLL")] = 0 ∧
    gauged [dec [], inc [("a", "")], dec []] [] = -2 := by
  constructor <;> cbv

end Call

end Courier.Metrics
