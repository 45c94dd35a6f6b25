import Courier.Decimal.Natural

/-!
# Histograms

How often something took at most so long. The buckets are cumulative: an observation counts in every
bucket whose bound it does not exceed. Times are whole microseconds in 64 bits, and longer ones
count as the longest.
-/

namespace Courier.Metrics

/-- The upper bounds of the buckets, in microseconds. -/
def bounds : List Nat := [100, 500, 1000, 5000, 10000, 50000, 100000, 500000, 1000000]

structure Histogram where
  count : UInt64 := 0
  /-- The microseconds of all observations together, modulo `2^64`. -/
  sum : UInt64 := 0
  /-- For each bound the number of observations that do not exceed it. -/
  buckets : List UInt64 := bounds.map fun _ => 0
deriving DecidableEq, Repr

namespace Histogram

def micros (nanos : Nat) : Nat := min (nanos / 1000) (Decimal.twoTo 64 - 1)

def observe (h : Histogram) (nanos : Nat) : Histogram where
  count := h.count + 1
  sum := h.sum + UInt64.ofNat (micros nanos)
  buckets :=
    List.zipWith (fun n bound => if micros nanos ≤ bound then n + 1 else n) h.buckets bounds

end Histogram

end Courier.Metrics
