import Courier.Metrics.Basic
import Courier.Settings.Basic
import Courier.Verb.Builtin

/-!
# Answering frames

A server has settings and a table of verbs, which stay as they are, and a state, which all its
sessions share. Each frame gets one answer: `Server.answerFrame` reads the request, draws its
missing id and time, refuses a version that is not served, and otherwise asks the table. Every
answer is counted once.
-/

namespace Courier

open Wire

structure Server where
  settings : Settings
  table : Table

structure ServerState where
  queue : Queue := .empty
  metrics : Metrics := {}
  supply : Supply

namespace Server

/-- A server with the verbs of every server and some more; its settings must be without flaw. -/
def ofSettings (settings : Settings) (handlers : List (String × Handler)) :
    Except SettingsFlaw Server :=
  match settings.check with
  | .ok settings => .ok ⟨settings, Table.builtin.registerAll handlers⟩
  | .error flaw => .error flaw

def decoder (s : Server) : Decoder := ⟨some s.settings.maxFrameBytes⟩

/-- The label of verbs that are not bound, so that clients cannot make up series. -/
def unknownVerbLabel : String := "_unknown"

def verbLabel (s : Server) (verb : String) : String :=
  if s.table.contains verb then verb else unknownVerbLabel

def respond (s : Server) (r : Request) (q : Queue) : Response × Queue :=
  match Version.check r.version with
  | .ok _ => s.table.dispatch r q
  -- the version is not one that may be repeated, and the table is not asked
  | .error f => (.failure Version.default r.envelope f, q)

def answer (s : Server) (r : Request) (state : ServerState) : Response × ServerState :=
  -- the id and the time are drawn before the handler runs, and what it has taken behind it
  let (r, supply) := r.stamp state.supply
  let (response, queue) := s.respond r state.queue
  let (lapse, supply) := supply.drawLapse
  let metrics := state.metrics.countRequest (s.verbLabel r.verb) response.status.token lapse
  (response, ⟨queue, metrics, supply⟩)

def refuse (f : Failure) (state : ServerState) : Response × ServerState :=
  let metrics := state.metrics.countDecodeError f.code.name
  let (response, supply) := Response.unbound f state.supply
  (response, { state with metrics := metrics, supply := supply })

def answerFrame (s : Server) (f : Frame) (state : ServerState) : Response × ServerState :=
  match f.toRequest with
  | .ok r => s.answer r state
  | .error failure => refuse failure state

end Server

end Courier
