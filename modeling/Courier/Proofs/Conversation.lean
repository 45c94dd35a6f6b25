import Courier.Client.Connection
import Courier.Proofs.BuiltinVerbs
import Courier.Proofs.Correlation
import Courier.Proofs.Handlers
import Courier.Proofs.SessionReference
import Mathlib.Data.List.Infix

/-!
# A client talks to a server

A client makes one call after another on one connection. Both sides read in parts, divided anywhere
and each time anew, and still every call gets the answer to its own request: at the end of a call
the connection is as it was before (`ask_token`), so that nothing of one call is left for the next.

The request arrives whole because what a session does with a steady stream does not depend on its
reads (`hear_harvest`), the response because a client reads on until there is one (`listen_eq`).
-/

namespace Courier

open Text Wire Decimal

namespace Connection

variable {server : Server} {state : ServerState}

/-! ## Reading in parts -/

/-- A client finds the response that it would find if it read everything at once. -/
theorem listen_eq (buffer : Bytes) (parts : List Bytes) :
    listen buffer parts = Decoder.unlimited.takeResponse (buffer ++ parts.flatten) := by
  induction parts generalizing buffer with
  | nil => simp [listen]
  | cons part parts ih =>
    rw [listen, List.flatten_cons]
    unfold Decoder.takeResponse at ih ⊢
    rcases hcut : Decoder.unlimited.cut buffer with ⟨f | limit | _, rest⟩
    · -- a frame that is there is the same with more bytes behind it
      rw [Decoder.take_frame hcut, Decoder.take_frame (Decoder.cut_append_frame hcut _).1]
      cases f.toResponse <;> simp [Except.map]
    · -- without a limit nothing is beyond it
      cases Decoder.limit_of_cut hcut
    · have hmore := Decoder.cut_append_more hcut (part ++ parts.flatten)
      rw [Decoder.take_more hcut]
      simp only [ih, Decoder.take, hmore, List.append_assoc]

theorem flatMap_wire (responses : List Response) :
    (responses.map Event.wrote).flatMap Event.wire = responses.flatMap Response.encode := by
  rw [List.flatMap_map]
  rfl

theorem advance_bytes (hmode : server.settings.sessionMode = .persistent) {buffer part : Bytes}
    (inbox : Bytes) (state : ServerState)
    (h : (server.decoder.harvest (buffer ++ part)).refused = none) :
    let harvest := server.decoder.harvest (buffer ++ part)
    let answered := server.answerAll harvest.frames state
    advance server (.bytes part) { session := { buffer := buffer }, inbox := inbox } state =
      ({ session := { buffer := harvest.rest },
         inbox := inbox ++ answered.1.flatMap Response.encode }, answered.2) := by
  simp only [advance, if_true, Session.resume]
  rw [Session.drain_harvest hmode rfl h, flatMap_wire]

/-- A session writes the answers to the harvest of a steady stream, wherever its reads divide it;
`buffer` is what earlier reads have left. -/
theorem hear_harvest (hmode : server.settings.sessionMode = .persistent) (parts : List Bytes)
    (buffer inbox : Bytes) (state : ServerState)
    (hrest : server.decoder.harvest buffer = ⟨[], none, buffer⟩)
    (hsteady : server.decoder.isSteady (buffer ++ parts.flatten) = true)
    (hwhole : (server.decoder.harvest (buffer ++ parts.flatten)).refused = none) :
    let harvest := server.decoder.harvest (buffer ++ parts.flatten)
    let answered := server.answerAll harvest.frames state
    hear server parts { session := { buffer := buffer }, inbox := inbox } state =
      ({ session := { buffer := harvest.rest },
         inbox := inbox ++ answered.1.flatMap Response.encode }, answered.2) := by
  induction parts generalizing buffer inbox state with
  | nil =>
    rw [List.flatten_nil, List.append_nil, hrest]
    simp [hear, Server.answerAll]
  | cons part parts ih =>
    rw [List.flatten_cons, ← List.append_assoc] at hsteady hwhole ⊢
    -- what this part gives comes first, and the others go on with what it leaves
    have hpart := Decoder.refused_front hsteady hwhole
    rw [Decoder.harvest_append hpart] at hwhole ⊢
    rw [hear, advance_bytes hmode inbox state hpart]
    dsimp only
    rw [ih _ _ _ (Decoder.harvest_rest hpart) (Decoder.isSteady_append_more hsteady hpart) hwhole,
      Server.answerAll_append, List.flatMap_append, List.append_assoc]

def idle : Connection := { session := {} }

theorem open_eq (server : Server) (state : ServerState) :
    Connection.open server state =
      (idle, { state with metrics := state.metrics.openSession }) := by
  simp [Connection.open, Session.start, Session.drain_empty, idle]

/-- A whole frame within the limit is answered at once behind its last byte. -/
theorem hear_frame (hmode : server.settings.sessionMode = .persistent) {f : Frame} (hf : f.IsWhole)
    (hsize : f.bytes.length ≤ server.settings.maxFrameBytes) {parts : List Bytes}
    (hparts : parts.flatten = f.bytes) (state : ServerState) :
    hear server parts idle state =
      ({ session := {}, inbox := (server.answerFrame f state).1.encode },
        (server.answerFrame f state).2) := by
  have hfits : server.decoder.exceeded? f.size = none := Decoder.exceeded?_of_le hsize
  obtain ⟨hharvest, hsteady⟩ := Decoder.harvest_bytes hf hfits
  have hheard := hear_harvest hmode parts [] [] state
    (Decoder.harvest_more (Decoder.cut_nil server.decoder))
    (by rw [List.nil_append, hparts, hsteady]) (by rw [List.nil_append, hparts, hharvest])
  rw [List.nil_append, hparts, hharvest] at hheard
  simpa [Server.answerAll, idle] using hheard

theorem listen_encode {response : Response} (h : response.Portable) {parts : List Bytes}
    (hparts : parts.flatten = response.encode) :
    listen [] parts = (.ok (some response.flattened), []) := by
  have hcut := Decoder.cut_bytes (d := .unlimited) (Response.isWhole_frame h) rfl
  rw [listen_eq, List.nil_append, hparts, ← Response.bytes_frame, Decoder.takeResponse,
    Decoder.take_frame hcut, Response.toResponse_frame h]
  rfl

/-- **A request is answered**, and the connection is as it was before: the session has read all of
the request, and the client all of the response. -/
theorem sendOver_idle (hmode : server.settings.sessionMode = .persistent) {r : Request}
    (htokens : isToken r.verb.toList = true ∧ isToken r.version.toList = true) (hr : r.Portable)
    (hsize : r.encode.length ≤ server.settings.maxFrameBytes)
    (hresponse : (server.answer r state).1.Portable) (up down : Passage) :
    idle.sendOver up down server r state =
      (.ok (server.answer r state).1.flattened, idle, (server.answer r state).2) := by
  have hcheck : (checkToken "verb" r.verb).bind (fun _ => checkToken "version" r.version)
      = .ok () := by
    rw [checkToken, if_pos htokens.1, checkToken, if_pos htokens.2]
    rfl
  have hheard := hear_frame hmode (Request.isWhole_frame hr) (Request.bytes_frame r ▸ hsize)
    ((up.flatten_parts r.encode).trans (Request.bytes_frame r).symm) state
  rw [Server.answerFrame, Request.toRequest_frame hr] at hheard
  have hsome : ¬r.encode.isEmpty = true := by simp [Request.encode, frameBytes]
  have hopen : (idle.session.isOpen && !idle.isFinished) = true := rfl
  have hsent : idle.sendBytesOver up server r.encode state =
      (.ok (), { session := {}, inbox := (server.answer r state).1.encode },
        (server.answer r state).2) := by
    rw [sendBytesOver, if_neg hsome, if_pos hopen]
    simp only [hheard]
  rw [sendOver, hcheck]
  simp only [hsent]
  rw [receiveOver, listen_encode hresponse (down.flatten_parts _)]
  rfl

end Connection

/-! ## One call -/

structure Call where
  verb : String
  topic : String
  payload : Option Json.Value
  up : Passage
  down : Passage

namespace Call

variable {call : Call} {server : Server} {state : ServerState} {c : Connection}

def stamp (call : Call) (supply : Supply) : Request × Supply :=
  Request.stamp { verb := call.verb, envelope := { topic := call.topic, payload := call.payload } }
    supply

def ask (call : Call) (server : Server) (c : Connection) (state : ServerState) :
    Except Failure Response × Connection × ServerState :=
  c.requestOver call.up call.down server call.verb call.topic call.payload state

theorem ask_eq (call : Call) (server : Server) (c : Connection) (state : ServerState) :
    call.ask server c state =
      c.sendOver call.up call.down server (call.stamp state.supply).1
        { state with supply := (call.stamp state.supply).2 } := rfl

/-- A call without a verb that is a token changes nothing but that an id and a time are drawn. -/
theorem ask_refused (h : isToken call.verb.toList = false) (server : Server) (c : Connection)
    (state : ServerState) :
    call.ask server c state =
      (.error (.badRequest (tokenFlaw "verb" call.verb)), c,
        { state with supply := (call.stamp state.supply).2 }) := by
  have hcheck : checkToken "verb" (call.stamp state.supply).1.verb =
      .error (.badRequest (tokenFlaw "verb" call.verb)) := by
    simp [checkToken, stamp, Request.stamp, h]
  rw [ask_eq, Connection.sendOver, hcheck]
  rfl

theorem portable_stamp (h : isToken call.verb.toList = true)
    (hpayload : ∀ v, call.payload = some v → v.Portable) (supply : Supply) :
    (call.stamp supply).1.Portable :=
  ⟨isWord_of_isToken h, Version.isWord_default, hpayload⟩

theorem version_stamp (call : Call) (supply : Supply) :
    (call.stamp supply).1.version = Version.default := rfl

theorem respond_stamp (call : Call) (supply : Supply) (server : Server) (q : Queue) :
    server.respond (call.stamp supply).1 q = server.table.dispatch (call.stamp supply).1 q := by
  have hversion : Version.check Version.default = .ok ⟨1, 0⟩ := rfl
  rw [Server.respond, version_stamp, hversion]

theorem answer_stamp (call : Call) (supply : Supply) (server : Server) (state : ServerState) :
    let r := (call.stamp supply).1
    let answered := server.answer r state
    answered.1 = (server.table.dispatch r state.queue).1 ∧
      answered.2.queue = (server.table.dispatch r state.queue).2 ∧
      answered.2.supply = state.supply.next := by
  intro r answered
  -- it has its id and time already, so that the server draws none
  have hstamp : r.stamp state.supply = (r, state.supply) := rfl
  simp [answered, Server.answer, hstamp, r, respond_stamp, Supply.drawLapse]

theorem ask_token (hmode : server.settings.sessionMode = .persistent) {a : Allowance}
    (ht : server.table.IsTame a) (htoken : isToken call.verb.toList = true)
    (hpayload : ∀ v, call.payload = some v → v.Portable)
    (hsize : (call.stamp state.supply).1.encode.length ≤ server.settings.maxFrameBytes)
    (hq : a.covers 1 state.queue) :
    let answered := server.answer (call.stamp state.supply).1
      { state with supply := (call.stamp state.supply).2 }
    call.ask server .idle state = (.ok answered.1.flattened, .idle, answered.2) := by
  intro answered
  have hportable := portable_stamp htoken hpayload state.supply
  have hresponse : answered.1.Portable := by
    rw [(answer_stamp call state.supply server _).1]
    exact (Table.portable_dispatch ht hportable rfl hq).1
  have htokens : isToken (call.stamp state.supply).1.verb.toList = true ∧
      isToken (call.stamp state.supply).1.version.toList = true := by
    rw [version_stamp]
    exact ⟨htoken, by decide⟩
  rw [ask_eq]
  exact Connection.sendOver_idle hmode htokens hportable hsize hresponse call.up call.down

end Call

/-! ## The verbs of every server -/

/-- What the response to a request has to say, beside whose it is. -/
structure Response.Serves (response : Response) (r : Request) : Prop
    extends response.Mirrors r where
  unbound : Table.builtin.contains r.verb = false →
    response.status = .error ∧ response.field? "code" = some (.string "NOT_IMPLEMENTED")
  echo : r.verb = Verb.ping → response.status = .ok ∧ response.payload = r.payload

theorem Response.Mirrors.flattened {response : Response} {r : Request} (h : response.Mirrors r) :
    response.flattened.Mirrors r :=
  ⟨⟨h.id, h.topic⟩, h.timestamp, h.version⟩

theorem Response.field?_flattened (response : Response) (key : String) :
    response.flattened.field? key = response.field? key := rfl

namespace Table

theorem mirrors_dispatch_builtin (r : Request) (q : Queue) :
    (builtin.dispatch r q).1.Mirrors r := by
  apply mirrors_dispatch
  intro handler response hget
  rw [get?_builtin] at hget
  split at hget
  · exact Option.some.inj hget ▸ Verb.mirrors_handlePoll r q response
  split at hget
  · exact Option.some.inj hget ▸ Verb.mirrors_handleExecute r q response
  split at hget
  · exact Option.some.inj hget ▸ Verb.mirrors_handlePing r q response
  · cases hget

theorem serves_dispatch (r : Request) (q : Queue) :
    (builtin.dispatch r q).1.flattened.Serves r := by
  refine ⟨(mirrors_dispatch_builtin r q).flattened, ?_, ?_⟩
  · intro hunbound
    have hnone : builtin.get? r.verb = none := by
      simpa [contains] using hunbound
    rw [dispatch_unbound hnone]
    exact ⟨rfl, (Response.field?_flattened _ _).trans (Response.code_failureFor r _)⟩
  · intro hping
    rw [dispatch_ping hping]
    exact ⟨rfl, rfl⟩

end Table

/-! ## One call after another -/

def Connection.converse (server : Server) :
    List Call → Connection → ServerState →
      List (Except Failure Response) × Connection × ServerState
  | [], c, state => ([], c, state)
  | call :: later, c, state =>
      let (result, c, state) := call.ask server c state
      let (results, c, state) := converse server later c state
      (result :: results, c, state)

namespace Call

/-- The requests that calls send. A call that is refused takes an id and a time, any other also the
lapse of its answer. -/
def sent : List Call → Supply → List Request
  | [], _ => []
  | call :: later, supply =>
      let (r, supply) := call.stamp supply
      if isToken call.verb.toList then r :: sent later supply.next else sent later supply

/-- What is to come of a call: it leaves nothing behind on the connection, and it is refused before
anything is sent, or answered for what it is and with what the verbs do to the queue. -/
def IsSettled (call : Call) (c : Connection) (state : ServerState)
    (asked : Except Failure Response × Connection × ServerState) : Prop :=
  asked.2.1 = c ∧
  if isToken call.verb.toList then
    let r := (call.stamp state.supply).1
    let answer := Table.builtin.dispatch r state.queue
    asked.1 = .ok answer.1.flattened ∧ answer.1.flattened.Serves r ∧ asked.2.2.queue = answer.2
  else
    asked.1 = .error (.badRequest (tokenFlaw "verb" call.verb)) ∧
      asked.2.2 = { state with supply := (call.stamp state.supply).2 }

end Call

namespace Connection

/-- Calls that can be made: their payloads may stand in messages, their requests are within the
limit, and at no time are there so many entries that one more could not be counted in 64 bits. -/
structure Takes (server : Server) (calls : List Call) (c : Connection) (state : ServerState) :
    Prop where
  payload : ∀ call ∈ calls, ∀ v, call.payload = some v → v.Portable
  size : ∀ r ∈ Call.sent calls state.supply, r.encode.length ≤ server.settings.maxFrameBytes
  count : ∀ earlier, earlier <+: calls →
    (converse server earlier c state).2.2.queue.length + 1 < twoTo 64

variable {server : Server} {state : ServerState} {c : Connection} {call : Call}
  {earlier later : List Call}

theorem converse_append (earlier later : List Call) (c : Connection) (state : ServerState) :
    let past := converse server earlier c state
    let rest := converse server later past.2.1 past.2.2
    converse server (earlier ++ later) c state = (past.1 ++ rest.1, rest.2) := by
  induction earlier generalizing c state with
  | nil => rfl
  | cons call earlier ih =>
    simp only [List.cons_append, converse, ih]

theorem Takes.tail (h : Takes server (call :: later) c state)
    (hsent : Call.sent later (call.ask server c state).2.2.supply ⊆
      Call.sent (call :: later) state.supply) :
    Takes server later (call.ask server c state).2.1 (call.ask server c state).2.2 := by
  refine ⟨?_, ?_, ?_⟩
  · intro other hother
    exact h.payload other (List.mem_cons_of_mem call hother)
  · intro r hr
    exact h.size r (hsent hr)
  · intro earlier hearlier
    exact h.count (call :: earlier) ((List.prefix_cons_inj call).mpr hearlier)

/-- **The first call is settled**, and behind it the connection takes the others. -/
theorem Takes.step (hmode : server.settings.sessionMode = .persistent)
    (htable : server.table = .builtin) (h : Takes server (call :: later) idle state) :
    let asked := call.ask server idle state
    call.IsSettled idle state asked ∧ Takes server later idle asked.2.2 := by
  intro asked
  -- the others are asked on an idle connection again, with the requests that `sent` tells
  suffices hfirst : call.IsSettled idle state asked ∧
      Call.sent later asked.2.2.supply ⊆ Call.sent (call :: later) state.supply by
    obtain ⟨hsettled, hsent⟩ := hfirst
    exact ⟨hsettled, hsettled.1 ▸ h.tail hsent⟩
  cases htoken : isToken call.verb.toList with
  | false =>
    have hasked : asked = _ := Call.ask_refused htoken server idle state
    rw [hasked, Call.sent, htoken]
    exact ⟨⟨rfl, by simp [htoken]⟩, by simp⟩
  | true =>
    have hsize := h.size (call.stamp state.supply).1 (by simp [Call.sent, htoken])
    have hcount : Allowance.counted.covers 1 state.queue := h.count [] List.nil_prefix
    have hasked : asked = _ := Call.ask_token hmode (htable ▸ Table.isTame_builtin) htoken
      (h.payload call List.mem_cons_self) hsize hcount
    obtain ⟨hresponse, hqueue, hsupply⟩ := Call.answer_stamp call state.supply server
      { state with supply := (call.stamp state.supply).2 }
    rw [htable] at hresponse hqueue
    rw [hasked, Call.sent, htoken]
    refine ⟨⟨rfl, ?_⟩, ?_⟩
    · rw [if_pos htoken]
      exact ⟨congrArg Except.ok (congrArg Response.flattened hresponse),
        Table.serves_dispatch _ state.queue, hqueue⟩
    · rw [hsupply]
      simp

theorem Takes.run (hmode : server.settings.sessionMode = .persistent)
    (htable : server.table = .builtin) (h : Takes server (earlier ++ later) idle state) :
    (converse server earlier idle state).2.1 = idle ∧
      Takes server later idle (converse server earlier idle state).2.2 := by
  induction earlier generalizing state with
  | nil => exact ⟨rfl, h⟩
  | cons call earlier ih =>
    obtain ⟨hsettled, hlater⟩ := Takes.step hmode htable h
    have hidle : (call.ask server idle state).2.1 = idle := hsettled.1
    simpa only [converse, hidle] using ih hlater

/-- **A client and a server understand each other.** A client makes calls one after another on one
connection to a persistent server with the verbs of every server, and both sides divide what they
read as they like. Each call whose verb is no token is refused before anything is sent; connection,
queue and metrics are as they were, and the calls behind it go on from there. Every other call gets
the response of the verbs to its own request, with its id, time and topic: it reports
`NOT_IMPLEMENTED` if the verb is not bound, and gives a `PING` exactly the payload that it came
with. -/
theorem converse_settled (server : Server) (hmode : server.settings.sessionMode = .persistent)
    (htable : server.table = .builtin) (calls : List Call) (state : ServerState)
    (h : Takes server calls (Connection.open server state).1 (Connection.open server state).2) :
    let opened := Connection.open server state
    ∀ earlier call later, calls = earlier ++ call :: later →
      let past := converse server earlier opened.1 opened.2
      let asked := call.ask server past.2.1 past.2.2
      let rest := converse server later asked.2.1 asked.2.2
      converse server calls opened.1 opened.2 = (past.1 ++ asked.1 :: rest.1, rest.2) ∧
        call.IsSettled past.2.1 past.2.2 asked := by
  rintro opened earlier call later rfl past asked rest
  refine ⟨by rw [converse_append]; rfl, ?_⟩
  have hopened : opened.1 = idle := congrArg Prod.fst (open_eq server state)
  have hpast : past = converse server earlier idle opened.2 := by rw [← hopened]
  obtain ⟨hidle, hlater⟩ := Takes.run hmode htable (hopened ▸ h)
  rw [← hpast] at hidle hlater
  have hsettled := (Takes.step hmode htable hlater).1
  rwa [← hidle] at hsettled

/-- A verb of two words, a `PING` of the null and a verb that is not bound, with the bytes of the
`PING` and of its response read in two parts each. -/
theorem converse_settled_divided :
    let server : Server := ⟨{ sessionMode := .persistent }, .builtin⟩
    let state : ServerState := { supply := ⟨fun _ => "id", fun _ => "time", fun _ => 0, 0⟩ }
    let divided : Passage := ⟨fun bs => [bs.take 9, bs.drop 9], fun bs => by simp⟩
    let calls : List Call := [⟨"PING PING", "t", none, .whole, .whole⟩,
      ⟨"PING", "t", some .null, divided, divided⟩, ⟨"PONG", "t", none, .whole, .whole⟩]
    let opened := Connection.open server state
    let talk := converse server calls opened.1 opened.2
    talk.1.map (fun result => result.toOption.isSome) = [false, true, true] ∧
      ∀ earlier call later, calls = earlier ++ call :: later →
        let past := converse server earlier opened.1 opened.2
        let asked := call.ask server past.2.1 past.2.2
        let rest := converse server later asked.2.1 asked.2.2
        talk = (past.1 ++ asked.1 :: rest.1, rest.2) ∧
          call.IsSettled past.2.1 past.2.2 asked := by
  intro server state divided calls opened talk
  refine ⟨by decide +kernel, ?_⟩
  apply converse_settled server rfl rfl calls state
  refine ⟨?_, by decide +kernel, ?_⟩
  · intro call hcall v hv
    simp only [calls, List.mem_cons, List.not_mem_nil, or_false] at hcall
    rcases hcall with rfl | rfl | rfl <;> cases hv
    exact Json.Value.portable_null
  · have hcount : ∀ earlier ∈ calls.inits,
        (converse server earlier opened.1 opened.2).2.2.queue.length + 1 < twoTo 64 := by
      decide +kernel
    intro earlier hearlier
    exact hcount earlier ((List.mem_inits earlier calls).mpr hearlier)

end Connection

end Courier
