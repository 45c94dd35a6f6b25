/-!
# Fresh ids and the clock

What a run takes from outside: ids, times of day, and how long things take. The `n`-th draw is a
function of `n`, and the supply counts the draws, so that a run is a function of its inputs.
-/

namespace Courier

/-- A supply of ids, of times of day in POSIX seconds with six places, and of durations in
nanoseconds. -/
structure Supply where
  idAt : Nat → String
  timeAt : Nat → String
  lapseAt : Nat → Nat
  drawn : Nat

namespace Supply

def next (s : Supply) : Supply := { s with drawn := s.drawn + 1 }

def drawId (s : Supply) : String × Supply := (s.idAt s.drawn, s.next)

def drawTime (s : Supply) : String × Supply := (s.timeAt s.drawn, s.next)

def drawLapse (s : Supply) : Nat × Supply := (s.lapseAt s.drawn, s.next)

end Supply

end Courier
