import Courier.Verb.Builtin

/-!
# Handlers given as data

The handlers that a server can be given besides the verbs of every server: fixed answers, fixed
failures, and the steps by which work in the queue is advanced and taken out.
-/

namespace Courier

inductive HandlerScript where
  | status (token reason : String) (payload : Option Json.Value)
  | fail (failure : Failure)
  /-- Answers another request than the one it was given. -/
  | stray (envelope : Request → Envelope) (payload : Option Json.Value)
  | depth
  | advance (step : EntryStatus)
  | complete
  | accept (payload : Option Json.Value)
  | unknown

namespace HandlerScript

def requiredId (r : Request) : Except Failure String :=
  match Verb.wantedId? r with
  | some id => .ok id
  | none => .error (.badRequest (.other "payload id required"))

def handler : HandlerScript → Handler
  | .status token reason payload => fun r q =>
      ((Status.ofToken token).map fun s => Response.reply r s reason payload, q)
  | .fail failure => fun _ q => (.error failure, q)
  | .stray envelope payload => fun r q =>
      (.ok (.ok { verb := "ROGUE", envelope := envelope r } payload), q)
  | .depth => fun r q => (.ok (.ok r (some (.ofFields [("depth", .ofNat q.length)]))), q)
  | .advance step => fun r q =>
      match (requiredId r).bind fun id => q.setStatus id step with
      | .ok q => (.ok (.ok r none), q)
      | .error f => (.error f, q)
  | .complete => fun r q =>
      match (requiredId r).bind q.remove with
      | .ok (e, q) => (.ok (.ok r (some e.summary)), q)
      | .error f => (.error f, q)
  | .accept payload => fun r q => (.ok (.ok r payload), q)
  | .unknown => fun _ q => (.error (.internal "no such handler kind"), q)

end HandlerScript

end Courier
