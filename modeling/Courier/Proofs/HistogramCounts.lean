import Courier.Proofs.ReportText

/-!
# What histograms show

An observation counts once in its series, in the sum of its series, and in every bucket of its
series whose bound it does not exceed. So a histogram tells the times that have been observed
(`Histogram.Counts`), each step of it with one time more (`Counts.observe`), and a series those of
the observations that name its labels in whatever order. Up to `2^64` observations nothing starts
again from zero, and what stands in a report is these numbers.

Main statement: `observations_counted`.
-/

namespace Courier.Metrics

open Decimal

/-! ## One histogram -/

namespace Histogram

/-- The histogram tells these times, in nanoseconds: how many there are, what they come to, and how
many do not exceed each bound. -/
structure Counts (times : List Nat) (h : Histogram) : Prop where
  count : h.count = UInt64.ofNat times.length
  sum : h.sum = UInt64.ofNat (times.map micros).sum
  buckets : h.buckets =
    bounds.map fun bound => UInt64.ofNat (times.countP fun nanos => nanos / 1000 ≤ bound)

theorem counts_nil : Counts [] {} := ⟨rfl, rfl, rfl⟩

/-- No bound is so large that times beyond 64 bits would be taken for shorter ones. -/
theorem micros_le_iff {bound : Nat} (h : bound ∈ bounds) (nanos : Nat) :
    micros nanos ≤ bound ↔ nanos / 1000 ≤ bound := by
  have hbound : ∀ b ∈ bounds, b < twoTo 64 - 1 := by decide
  have := hbound bound h
  unfold micros
  omega

/-- One more time counts in each of its buckets. -/
theorem Counts.observe {times : List Nat} {h : Histogram} (hcounts : Counts times h) (nanos : Nat) :
    Counts (times ++ [nanos]) (h.observe nanos) := by
  refine ⟨?_, ?_, ?_⟩
  · rw [List.length_append, UInt64.ofNat_add, ← hcounts.count]
    rfl
  · rw [List.map_append, List.sum_append, UInt64.ofNat_add, ← hcounts.sum, List.map_singleton,
      List.sum_singleton]
    rfl
  · rw [Histogram.observe, hcounts.buckets, List.zipWith_map_left, List.zipWith_self]
    apply List.map_congr_left
    intro bound hbound
    rw [List.countP_append, List.countP_singleton]
    by_cases hle : nanos / 1000 ≤ bound
    · rw [if_pos ((micros_le_iff hbound nanos).mpr hle), if_pos (decide_eq_true hle),
        UInt64.ofNat_add]
      rfl
    · rw [if_neg fun h => hle ((micros_le_iff hbound nanos).mp h),
        if_neg fun h => hle (of_decide_eq_true h), Nat.add_zero]

/-- **A histogram tells the times that it has observed.** -/
theorem counts_foldl (times : List Nat) : Counts times (times.foldl Histogram.observe {}) := by
  induction times using List.reverseRecOn with
  | nil => exact counts_nil
  | append_singleton times nanos ih =>
    rw [List.foldl_append]
    exact ih.observe nanos

end Histogram

/-! ## Series of histograms -/

/-- An observation: the labels in the order in which they are given, and a time in nanoseconds. -/
structure Observation where
  labels : List (String × String)
  nanos : Nat

namespace Observation

def micros (o : Observation) : Nat := o.nanos / 1000

def observeAll (obs : List Observation) : Family Histogram :=
  obs.foldl (fun f o => observe (.ofList o.labels) o.nanos f) []

def shown (obs : List Observation) (labels : List (String × String)) : Histogram :=
  Family.valueOf {} (.ofList labels) (observeAll obs)

/-- The samples of a series of which these are the observations: each bound with those up to it, all
of them, what they come to, and all of them again. -/
def samplesOf (own : List Observation) (labels : Labels) : List Sample :=
  bounds.map (fun bound =>
      ⟨durationsName ++ "_bucket", labels.pairs ++ [("le", numeral bound)],
        digits (own.countP fun o => o.micros ≤ bound)⟩)
    ++ [⟨durationsName ++ "_bucket", labels.pairs ++ [("le", "+Inf")], digits own.length⟩,
      ⟨durationsName ++ "_sum", labels.pairs,
        digits ((own.map fun o => min o.micros (twoTo 64 - 1)).sum % twoTo 64)⟩,
      ⟨durationsName ++ "_count", labels.pairs, digits own.length⟩]

theorem mem_touched_observeAll {obs : List Observation} {labels : Labels} :
    labels ∈ Family.touched (observeAll obs) ↔ ∃ o ∈ obs, Labels.ofList o.labels = labels := by
  induction obs using List.reverseRecOn with
  | nil => simp [observeAll, Family.touched]
  | append_singleton obs o ih =>
    have hstep : observeAll (obs ++ [o]) = observe (.ofList o.labels) o.nanos (observeAll obs) := by
      rw [observeAll, List.foldl_append]
      rfl
    rw [hstep, observe, Family.mem_touched_update, ih]
    constructor
    · rintro (rfl | ⟨o', ho', rfl⟩)
      · exact ⟨o, by simp, rfl⟩
      · exact ⟨o', List.mem_append_left _ ho', rfl⟩
    · rintro ⟨o', ho', rfl⟩
      rcases List.mem_append.mp ho' with ho' | ho'
      · exact .inr ⟨o', ho', rfl⟩
      · exact .inl (congrArg (fun o : Observation => Labels.ofList o.labels)
          (List.mem_singleton.mp ho'))

theorem nodup_touched_observeAll (obs : List Observation) :
    (Family.touched (observeAll obs)).Nodup := by
  suffices h : ∀ f : Family Histogram, (Family.touched f).Nodup →
      (Family.touched
        (obs.foldl (fun f o => observe (.ofList o.labels) o.nanos f) f)).Nodup from
    h [] List.nodup_nil
  induction obs with
  | nil => exact fun _ h => h
  | cons o obs ih => exact fun f h => ih _ (Family.nodup_touched_update _ _ _ h)

theorem counts_valueOf (obs : List Observation) (labels : Labels) :
    Histogram.Counts ((obs.filter fun o => Labels.ofList o.labels = labels).map (·.nanos))
      (Family.valueOf {} labels (observeAll obs)) := by
  have hvalue : Family.valueOf {} labels (observeAll obs) =
      ((obs.filter fun o => Labels.ofList o.labels = labels).map (·.nanos)).foldl
        Histogram.observe {} := by
    rw [List.foldl_map]
    exact Family.valueOf_foldl_update (fun o : Observation => Labels.ofList o.labels) {}
      (fun o h => Histogram.observe h o.nanos) labels obs []
  exact hvalue ▸ Histogram.counts_foldl _

theorem filter_ofList (obs : List Observation) (labels : List (String × String)) :
    (obs.filter fun o => Labels.ofList o.labels = Labels.ofList labels) =
      obs.filter fun o => o.labels.Perm labels := by
  apply List.filter_congr
  intro o _
  exact decide_eq_decide.mpr Labels.ofList_eq_iff

theorem toNat_ofNat_of_few {n : Nat} (h : n < twoTo 64) : (UInt64.ofNat n).toNat = n :=
  UInt64.toNat_ofNat_of_lt' h

theorem pairwise_bounds : bounds.Pairwise (· < ·) := by decide

section Told

variable {own : List Observation} {h : Histogram}
  (hcounts : Histogram.Counts (own.map (·.nanos)) h) (hfew : own.length < twoTo 64)
include hcounts

theorem sum_of_counts : h.sum.toNat =
    (own.map fun o => min o.micros (twoTo 64 - 1)).sum % twoTo 64 := by
  rw [hcounts.sum, UInt64.toNat_ofNat', List.map_map]
  rfl

include hfew

theorem count_of_counts : h.count.toNat = own.length := by
  rw [hcounts.count, List.length_map, toNat_ofNat_of_few hfew]

theorem buckets_of_counts : h.buckets.map UInt64.toNat =
    bounds.map fun bound => own.countP fun o => o.micros ≤ bound := by
  rw [hcounts.buckets, List.map_map]
  apply List.map_congr_left
  intro bound _
  have hle : (own.map (·.nanos)).countP (fun nanos => nanos / 1000 ≤ bound) =
      own.countP fun o => o.micros ≤ bound := List.countP_map
  rw [Function.comp_apply, hle, toNat_ofNat_of_few]
  exact Nat.lt_of_le_of_lt List.countP_le_length hfew

/-- A bucket holds what the buckets before it hold. -/
theorem pairwise_buckets_of_counts : (h.buckets.map UInt64.toNat).Pairwise (· ≤ ·) := by
  rw [buckets_of_counts hcounts hfew, List.pairwise_map]
  apply pairwise_bounds.imp
  intro bound bound' hlt
  apply List.countP_mono_left
  intro o _ ho
  exact decide_eq_true (Nat.le_trans (of_decide_eq_true ho) (Nat.le_of_lt hlt))

theorem le_count_of_mem_buckets {n : UInt64} (hn : n ∈ h.buckets) : n.toNat ≤ h.count.toNat := by
  have hmem : n.toNat ∈ h.buckets.map UInt64.toNat := List.mem_map_of_mem hn
  rw [buckets_of_counts hcounts hfew] at hmem
  obtain ⟨bound, -, hbound⟩ := List.mem_map.mp hmem
  rw [count_of_counts hcounts hfew, ← hbound]
  exact List.countP_le_length

theorem histogramSamples_of_counts (labels : Labels) :
    histogramSamples durationsName (labels, h) = samplesOf own labels := by
  have hbuckets : List.zipWith
      (fun count bound => bucketSample durationsName labels (numeral bound) count)
        h.buckets bounds =
      bounds.map fun bound =>
        ⟨durationsName ++ "_bucket", labels.pairs ++ [("le", numeral bound)],
          digits (own.countP fun o => o.micros ≤ bound)⟩ := by
    have hnumbers := buckets_of_counts hcounts hfew
    rw [hcounts.buckets, List.map_map] at hnumbers
    rw [hcounts.buckets, List.zipWith_map_left, List.zipWith_self]
    apply List.map_congr_left
    intro bound hbound
    have hnumber := List.map_inj_left.mp hnumbers bound hbound
    rw [bucketSample]
    exact congrArg (fun n => Sample.mk _ _ (digits n)) hnumber
  rw [histogramSamples, hbuckets, bucketSample, count_of_counts hcounts hfew,
    sum_of_counts hcounts]
  rfl

end Told

theorem histogramLines_of_mem {obs : List Observation} (hfew : obs.length < twoTo 64)
    {s : Labels × Histogram} (hs : s ∈ observeAll obs) :
    histogramLines durationsName.toList s =
      (samplesOf (obs.filter fun o => Labels.ofList o.labels = s.1) s.1).map Sample.line := by
  have hvalue : Family.valueOf {} s.1 (observeAll obs) = s.2 := by
    rw [Family.valueOf, Family.get?_of_mem (nodup_touched_observeAll obs) hs]
    rfl
  have hcounts := counts_valueOf obs s.1
  rw [hvalue] at hcounts
  have hown : (obs.filter fun o => Labels.ofList o.labels = s.1).length < twoTo 64 :=
    Nat.lt_of_le_of_lt (List.length_filter_le _ obs) hfew
  rw [histogramLines_eq, histogramSamples_of_counts hcounts hown]

/-- **Histograms are cumulative and exact.** After fewer than `2^64` observations, of any times and
under any labels, a series shows its own observations, which are those that name its labels in
whatever order: a bucket shows how many of them do not exceed its bound, so that no bucket shows
more than one with a greater bound or than the count; the count shows all of them; and the sum
shows, up to a multiple of `2^64`, the microseconds of all of them, each taken for `2^64 - 1` if it
is more. A report has for each series that an observation names the lines with these numbers, one
block of lines for each, and besides them the lines that it has without histograms. -/
theorem observations_counted (obs : List Observation) (hfew : obs.length < twoTo 64) :
    (∀ labels,
      let own := obs.filter fun o => o.labels.Perm labels
      let h := shown obs labels
      (h.buckets.map UInt64.toNat = bounds.map fun bound => own.countP fun o => o.micros ≤ bound) ∧
        bounds.Pairwise (· < ·) ∧ (h.buckets.map UInt64.toNat).Pairwise (· ≤ ·) ∧
        (∀ n ∈ h.buckets, n.toNat ≤ h.count.toNat) ∧
        h.count.toNat = own.length ∧
        h.sum.toNat = (own.map fun o => min o.micros (twoTo 64 - 1)).sum % twoTo 64) ∧
    ∀ m : Metrics, m.durations = observeAll obs →
      ∃ series : List Labels, series.Nodup ∧
        (∀ labels, labels ∈ series ↔ ∃ o ∈ obs, Labels.ofList o.labels = labels) ∧
        ∃ blocks : List (List (List Char)),
          m.lines = { m with durations := [] }.lines ++ blocks.flatten ∧
          blocks.Perm (series.map fun labels =>
            (samplesOf (obs.filter fun o => Labels.ofList o.labels = labels) labels).map
              Sample.line) := by
  constructor
  · intro labels own h
    have hcounts : Histogram.Counts (own.map (·.nanos)) h := by
      have hcounts := counts_valueOf obs (.ofList labels)
      rw [filter_ofList] at hcounts
      exact hcounts
    have hown : own.length < twoTo 64 := Nat.lt_of_le_of_lt (List.length_filter_le _ obs) hfew
    exact ⟨buckets_of_counts hcounts hown, pairwise_bounds, pairwise_buckets_of_counts hcounts hown,
      fun _ => le_count_of_mem_buckets hcounts hown, count_of_counts hcounts hown,
      sum_of_counts hcounts⟩
  · intro m hm
    refine ⟨Family.touched m.durations, hm ▸ nodup_touched_observeAll obs, ?_,
      (m.durations.map (histogramLines durationsName.toList)).mergeSort blockLe, ?_, ?_⟩
    · intro labels
      rw [hm]
      exact mem_touched_observeAll
    · simp [lines, familyLines]
    · -- the blocks are sorted as they are written, which only moves them
      refine (List.mergeSort_perm _ _).trans (.of_eq ?_)
      rw [Family.touched, List.map_map]
      apply List.map_congr_left
      intro s hs
      exact histogramLines_of_mem hfew (hm ▸ hs)

/-- Times at a bound, at the end of its microsecond, behind it and beyond 64 bits, under one pair of
labels in both orders, and a time of another series. -/
theorem observations_counted_at_bounds :
    let obs : List Observation :=
      [⟨[("verb", "A"), ("node", "b")], 100000⟩, ⟨[("node", "b"), ("verb", "A")], 100999⟩,
        ⟨[("verb", "POLL")], 700000⟩, ⟨[("verb", "A"), ("node", "b")], 101000⟩,
        ⟨[("node", "b"), ("verb", "A")], tenTo 30⟩]
    let h := shown obs [("node", "b"), ("verb", "A")]
    obs.length < twoTo 64 ∧ h.buckets.map UInt64.toNat = [2, 3, 3, 3, 3, 3, 3, 3, 3] ∧
      h.count.toNat = 4 ∧ h.sum.toNat = 300 ∧
      (shown obs [("verb", "POLL")]).buckets.map UInt64.toNat = [0, 0, 1, 1, 1, 1, 1, 1, 1] := by
  intro obs h
  have hfew : obs.length < twoTo 64 := by decide
  obtain ⟨hseries, -⟩ := observations_counted obs hfew
  obtain ⟨hbuckets, -, -, -, hcount, hsum⟩ := hseries [("node", "b"), ("verb", "A")]
  obtain ⟨hother, -⟩ := hseries [("verb", "POLL")]
  refine ⟨hfew, hbuckets.trans ?_, hcount.trans ?_, hsum.trans ?_, hother.trans ?_⟩
  · decide +kernel
  · decide +kernel
  · decide +kernel
  · decide +kernel

end Observation

end Courier.Metrics
