import Courier.Metrics.Family
import Courier.Metrics.Histogram

/-!
# What a server counts

Requests by verb and status, malformed frames by their code, open sessions, and how long the verbs
took. Counters count modulo `2^64`.
-/

namespace Courier

open Metrics

structure Metrics where
  requests : Family UInt64 := []
  decodeErrors : Family UInt64 := []
  sessions : Family Int64 := []
  durations : Family Histogram := []

namespace Metrics

def requestLabels (verb status : String) : Labels := .ofList [("verb", verb), ("status", status)]

def codeLabels (code : String) : Labels := .ofList [("code", code)]

def verbLabels (verb : String) : Labels := .ofList [("verb", verb)]

def sessionLabels : Labels := .ofList []

def addTo (labels : Labels) (n : UInt64) (f : Family UInt64) : Family UInt64 :=
  Family.update labels 0 (· + n) f

def shift (labels : Labels) (n : Int64) (f : Family Int64) : Family Int64 :=
  Family.update labels 0 (· + n) f

def observe (labels : Labels) (nanos : Nat) (f : Family Histogram) : Family Histogram :=
  Family.update labels {} (·.observe nanos) f

/-- Counts an answered request and the nanoseconds that it took. -/
def countRequest (m : Metrics) (verb status : String) (nanos : Nat) : Metrics :=
  { m with
    durations := observe (verbLabels verb) nanos m.durations
    requests := addTo (requestLabels verb status) 1 m.requests }

def countDecodeError (m : Metrics) (code : String) : Metrics :=
  { m with decodeErrors := addTo (codeLabels code) 1 m.decodeErrors }

def openSession (m : Metrics) : Metrics := { m with sessions := shift sessionLabels 1 m.sessions }

def closeSession (m : Metrics) : Metrics :=
  { m with sessions := shift sessionLabels (-1) m.sessions }

end Metrics

end Courier
