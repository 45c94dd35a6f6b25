import Courier.Metrics.Basic

/-!
# Metrics as text

Each family is written as one line with its name and kind, and then its series: a line for each
counter or gauge, a block of lines for each histogram. The series of a family are in ascending order
of their text.
-/

namespace Courier.Metrics

open Decimal

/-- A series by its name and its labels as written; without labels it is the name. -/
def seriesName (name labels : List Char) : List Char :=
  if labels.isEmpty then name else name ++ '\x7b' :: labels ++ ['\x7d']

def valueLine (name labels value : List Char) : List Char := seriesName name labels ++ ' ' :: value

def counterLines (name : List Char) (s : Labels × UInt64) : List (List Char) :=
  [valueLine name s.1.render (digits s.2.toNat)]

def gaugeLines (name : List Char) (s : Labels × Int64) : List (List Char) :=
  [valueLine name s.1.render (integer s.2.toInt)]

def bucketLine (name labels bound : List Char) (count : UInt64) : List Char :=
  let front := if labels.isEmpty then [] else labels ++ [',']
  valueLine (name ++ "_bucket".toList) (front ++ "le=\"".toList ++ bound ++ ['"'])
    (digits count.toNat)

def histogramLines (name : List Char) (s : Labels × Histogram) : List (List Char) :=
  let labels := s.1.render
  List.zipWith (fun count bound => bucketLine name labels (digits bound) count) s.2.buckets bounds
    ++ [bucketLine name labels "+Inf".toList s.2.count,
      valueLine (name ++ "_sum".toList) labels (digits s.2.sum.toNat),
      valueLine (name ++ "_count".toList) labels (digits s.2.count.toNat)]

def lexLe {α : Type} (lt : α → α → Bool) : List α → List α → Bool
  | [], _ => true
  | _ :: _, [] => false
  | a :: as, b :: bs => lt a b || (!lt b a && lexLe lt as bs)

/-- The order of blocks of lines: by the first line in which they differ. -/
def blockLe : List (List Char) → List (List Char) → Bool :=
  lexLe fun a b => !lexLe (fun c d => decide (c.toNat < d.toNat)) b a

def familyLines {α : Type} (kind : String) (seriesLines : List Char → Labels × α → List (List Char))
    (name : String) (f : Family α) : List (List Char) :=
  ("# TYPE " ++ name ++ " " ++ kind).toList
    :: ((f.map (seriesLines name.toList)).mergeSort blockLe).flatten

def requestsName : String := "cmit_requests_total"

def decodeErrorsName : String := "cmit_decode_errors_total"

def sessionsName : String := "cmit_sessions_active"

def durationsName : String := "cmit_dispatch_duration_micros"

def lines (m : Metrics) : List (List Char) :=
  familyLines "counter" counterLines requestsName m.requests
    ++ familyLines "counter" counterLines decodeErrorsName m.decodeErrors
    ++ familyLines "gauge" gaugeLines sessionsName m.sessions
    ++ familyLines "histogram" histogramLines durationsName m.durations

def render (m : Metrics) : List Char := m.lines.flatMap (· ++ ['\n'])

end Courier.Metrics
