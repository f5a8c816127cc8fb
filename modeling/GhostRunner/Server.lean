import Mathlib.Logic.Function.Basic
import GhostRunner.Machine
import GhostRunner.ReplayLog

/-! Sessions, connections and the fan-out (`server/session.py`, `server/ws_server.py`)
with the resync of token streams (`orchestrator.py`). One label is one stretch of code
between two awaits. `ws.send` writes its frame when it is called; the caller then stays
suspended until a label says that the send has returned, or has raised
`ConnectionClosed`. Session objects outlive their removal from the manager, because a
suspended loop may still hold them. -/
namespace GhostRunner.Server

def resumeKeyTtlMs : Int := 24 * 3600 * 1000

/-- `ws` is the number of the connection that the session is bound to. -/
structure ClientSession where
  resumeKey : Nat
  ws : Option Nat
  createdAtMs : Int
  deriving DecidableEq, Repr

/-- A frame on the wire. A reply is an `ack`, `error` or `pong`. -/
inductive Frame where
  | text (env : Envelope)
  | reply (body : String)
  | binary (payload : List UInt8)
  deriving DecidableEq, Repr

/-- `ClientSession.send` writes its own id into the envelope. -/
def Frame.stamp (S : Nat) : Frame → Frame
  | .text env => .text { env with session := some S }
  | frame => frame

inductive StreamPhase where
  | unopened
  | running
  | finished
  deriving DecidableEq, Repr

/-- The record `state` of a turn's stream. `inFlight` is the delta whose broadcast
`on_delta` still awaits; `parts` and `seq` change only after that broadcast. -/
structure StreamRecord where
  parts : List String := []
  seq : Nat := 0
  phase : StreamPhase := .unopened
  inFlight : Option String := none
  deriving DecidableEq, Repr

/-- Where the handler of a connection stands. `via` is the connection on which its last
frame was written. While it replays, resends or resyncs, the handler's own variable
`session` is still unset. -/
inductive Handler where
  | absent
  | replaying (session via : Nat) (rest : List Entry)
  | resending (session via : Nat)
  | resyncing (session via : Nat)
  | serving (session : Nat)
  | replying (session via : Nat)
  | syncing (session via : Nat)
  | ended
  deriving DecidableEq

/-- A suspended fan-out: the send it waits for, and the sessions it has not visited.
`delta` is the turn whose `on_delta` awaits it. -/
structure Flight where
  frame : Frame
  session : Nat
  via : Nat
  rest : List Nat
  delta : Option Nat
  deriving DecidableEq

/-- The last five fields are kept by an observer and read by no code: the connections that
have attached, what was written to each, those a send to which has failed, the connection
last attached to each session, and every durable envelope broadcast so far. -/
structure State where
  log : SessionLog
  sessions : List Nat
  byResumeKey : Nat → Option Nat
  session : Nat → ClientSession
  tokens : Nat
  handlers : Nat → Handler
  flights : Nat → Option Flight
  nextFlight : Nat
  streams : Nat → StreamRecord
  active : Option Nat
  connections : List Nat
  wire : Nat → List Frame
  failed : Nat → Bool
  attached : Nat → Option Nat
  published : List Entry

def init : State where
  log := {}
  sessions := []
  byResumeKey := fun _ => none
  session := fun _ => ⟨0,none,0⟩
  tokens := 0
  handlers := fun _ => .absent
  flights := fun _ => none
  nextFlight := 0
  streams := fun _ => {}
  active := none
  connections := []
  wire := fun _ => []
  failed := fun _ => false
  attached := fun _ => none
  published := []

namespace State

def wsOf (s : State) (S : Nat) : Option Nat := (s.session S).ws

def setWs (s : State) (S : Nat) (ws : Option Nat) : State :=
  { s with session := Function.update s.session S { s.session S with ws := ws } }

def setHandler (s : State) (c : Nat) (h : Handler) : State :=
  { s with handlers := Function.update s.handlers c h }

def setFlight (s : State) (b : Nat) (f : Option Flight) : State :=
  { s with flights := Function.update s.flights b f }

def setStream (s : State) (t : Nat) (r : StreamRecord) : State :=
  { s with streams := Function.update s.streams t r }

def write (s : State) (w : Nat) (frame : Frame) : State :=
  { s with wire := Function.update s.wire w (s.wire w ++ [frame]) }

def markFailed (s : State) (w : Nat) : State :=
  { s with failed := Function.update s.failed w true }

end State

/-! ## Session lifecycle -/

def bind (s : State) (S c : Nat) : State :=
  { s.setWs S (some c) with attached := Function.update s.attached S (some c) }

def createSession (s : State) (c : Nat) (nowMs : Int) : State × Nat :=
  let S := s.tokens
  let key := s.tokens + 1
  ({ s with
      sessions := s.sessions ++ [S]
      byResumeKey := Function.update s.byResumeKey key (some S)
      session := Function.update s.session S ⟨key,some c,nowMs⟩
      attached := Function.update s.attached S (some c)
      tokens := s.tokens + 2 },
    S)

def detach (s : State) (S : Nat) : State :=
  if S ∈ s.sessions then s.setWs S none else s

def dropSession (s : State) (S : Nat) : State :=
  if S ∈ s.sessions then
    { s with
      sessions := s.sessions.erase S
      byResumeKey := Function.update s.byResumeKey (s.session S).resumeKey none }
  else s

def resumeSession (s : State) (key c : Nat) (nowMs : Int) : State × Option Nat :=
  match s.byResumeKey key with
  | none => (s, none)
  | some S =>
    if resumeKeyTtlMs < nowMs - (s.session S).createdAtMs then (dropSession s S, none)
    else (bind s S c, some S)

/-! ## Fan-out -/

/-- The next connected session of the loop, its connection, and what is left. -/
def nextTarget (s : State) : List Nat → Option (Nat × Nat × List Nat)
  | [] => none
  | S :: rest =>
    match s.wsOf S with
    | some w => some (S, w, rest)
    | none => nextTarget s rest

/-- `on_delta` after its broadcast. -/
def land (s : State) : Option Nat → State
  | none => s
  | some t =>
    match (s.streams t).inFlight with
    | some delta => s.setStream t { s.streams t with
        parts := (s.streams t).parts ++ [delta]
        seq := (s.streams t).seq + 1
        inFlight := none }
    | none => s

/-- The loop of `broadcast` and `broadcast_binary` up to its next await or its end. -/
def fly (s : State) (b : Nat) (frame : Frame) (delta : Option Nat) (todo : List Nat) : State :=
  match nextTarget s todo with
  | some (S, w, rest) =>
    (s.write w (frame.stamp S)).setFlight b (some ⟨frame,S,w,rest,delta⟩)
  | none => land (s.setFlight b none) delta

def launch (s : State) (frame : Frame) (delta : Option Nat) : State :=
  fly { s with nextFlight := s.nextFlight + 1 } s.nextFlight frame delta s.sessions

def broadcast (s : State) (env : Envelope) (stampMs pruneMs : Int) : State :=
  let published := s.log.publish env stampMs pruneMs
  launch { s with
    log := published.1
    published := if env.type.durable then s.published ++ [s.log.stamp env stampMs]
      else s.published } (.text published.2) none

/-- A delta that passes the `is_obsolete` check of `on_delta`. -/
def onDelta (s : State) (t : Nat) (delta : String) : State :=
  launch (s.setStream t { s.streams t with inFlight := some delta })
    (.text (deltaToken t (s.streams t).seq delta)) (some t)

/-- The awaited send of a fan-out returns, or fails and detaches by session id. -/
def flightResumes (s : State) (b : Nat) (f : Flight) (ok : Bool) : State :=
  let s := if ok then s else detach (s.markFailed f.via) f.session
  fly s b f.frame f.delta f.rest

/-- The awaiting task is cancelled: the loop ends, and with it a stream's `run`. -/
def flightCancelled (s : State) (b : Nat) (f : Flight) : State :=
  let s := s.setFlight b none
  match f.delta with
  | some t => s.setStream t { s.streams t with phase := .finished }
  | none => s

/-! ## The handler of a connection -/

/-- The handler ends with its `session` unset: nothing is detached. -/
def crash (s : State) (c : Nat) : State := s.setHandler c .ended

/-- The handler ends with its `session` set: the `finally` detaches by id. -/
def leave (s : State) (c S : Nat) : State := (detach s S).setHandler c .ended

/-- `session.send` inside `_attach`: a `ConnectionError` ends the handler. -/
def attachSend (s : State) (c S : Nat) (env : Envelope) (next : Nat → Handler) : State :=
  match s.wsOf S with
  | some w => (s.write w (Frame.stamp S (.text env))).setHandler c (next w)
  | none => crash s c

def snapshotToken (s : State) (t : Nat) : Envelope where
  payload := .token (streamId t) (s.streams t).seq "" false none
    (some ⟨(s.streams t).seq,String.join (s.streams t).parts⟩)
  turn := some t

/-- `resync_streams` at the end of `_attach`, through `send_to`. -/
def resync (s : State) (c S : Nat) : State :=
  match s.active with
  | none => s.setHandler c (.serving S)
  | some t =>
    if S ∈ s.sessions then attachSend s c S (snapshotToken s t) (.resyncing S) else crash s c

/-- The current lifecycle state is sent again under a fresh number. -/
def resend (s : State) (c S : Nat) : State :=
  match s.log.stateSnapshot with
  | none => resync s c S
  | some snapshot =>
    let numbered := s.log.nextSeqForResend
    attachSend { s with log := numbered.1 } c S
      { payload := snapshot.payload, turn := snapshot.turn, seq := some numbered.2 } (.resending S)

def replay (s : State) (c S : Nat) : List Entry → State
  | e :: rest => attachSend s c S e.env (fun w => .replaying S w rest)
  | [] => resend s c S

/-- `_attach` up to the send of `hello_ack`: the session, and the tail to replay. -/
def bindSession (s : State) (c : Nat) (resume : Option (Nat × Int)) (nowMs pruneMs : Int) :
    State × Nat × Option (List Entry) :=
  let fresh (s : State) :=
    let created := createSession s c nowMs
    (created.1, created.2, none)
  match resume with
  | none => fresh s
  | some (key, lastSeen) =>
    match resumeSession s key c nowMs with
    | (s, none) => fresh s
    | (s, some S) =>
      let answer := s.log.replay.tail lastSeen pruneMs
      let s := { s with log := { s.log with replay := answer.1 } }
      match answer.2 with
      | some entries => (s, S, some entries)
      | none => fresh (dropSession s S)

def attach (s : State) (c : Nat) (helloId : Option String) (resume : Option (Nat × Int))
    (nowMs pruneMs : Int) : State :=
  let bound := bindSession s c resume nowMs pruneMs
  let S := bound.2.1
  let ack : Envelope :=
    { payload := .helloAck S (bound.1.session S).resumeKey bound.2.2.isSome
      id := helloId, session := some S }
  let acked := (bound.1.write c (.text ack)).setHandler c (.replaying S c (bound.2.2.getD []))
  { acked with connections := acked.connections ++ [c] }

/-- `session.send` of a reply while serving. -/
def sendReply (s : State) (c S : Nat) (body : String) : State :=
  match s.wsOf S with
  | some w => (s.write w (.reply body)).setHandler c (.replying S w)
  | none => leave s c S

/-- `stream.sync`. A failed `send_to` is answered with an error like any exception. -/
def streamSync (s : State) (c S : Nat) (stream : String) : State :=
  match s.active with
  | some t =>
    if streamId t = stream then
      match (if S ∈ s.sessions then s.wsOf S else none) with
      | some w =>
        (s.write w (Frame.stamp S (.text (snapshotToken s t)))).setHandler c (.syncing S w)
      | none => sendReply s c S "error"
    else sendReply s c S "inactive"
  | none => sendReply s c S "inactive"

def handlerResumes (s : State) (c : Nat) (ok : Bool) : Option State :=
  match s.handlers c with
  | .replaying S via rest =>
    some (if ok then replay s c S rest else crash (s.markFailed via) c)
  | .resending S via => some (if ok then resync s c S else crash (s.markFailed via) c)
  | .resyncing S via =>
    some (if ok then s.setHandler c (.serving S) else crash (s.markFailed via) c)
  | .replying S via =>
    some (if ok then s.setHandler c (.serving S) else leave (s.markFailed via) c S)
  | .syncing S via =>
    some (if ok then sendReply s c S "active" else sendReply (s.markFailed via) c S "error")
  | _ => none

/-- The connection closes, or the handler's task is cancelled. -/
def handlerEnds (s : State) (c : Nat) : Option State :=
  match s.handlers c with
  | .ended => none
  | .serving S | .replying S _ | .syncing S _ => some (leave s c S)
  | _ => some (crash s c)

/-- Tokens that are not the last of their stream come from `on_delta` and from
`_send_stream_snapshot` alone. No caller of `broadcast` numbers its envelope. -/
def Envelope.midStream (env : Envelope) : Bool :=
  match env.payload with
  | .token _ _ _ done _ _ => !done
  | _ => false

inductive Op where
  | attach (c : Nat) (helloId : Option String) (resume : Option (Nat × Int))
      (nowMs pruneMs : Int)
  | handlerResumes (c : Nat) (ok : Bool)
  | handlerEnds (c : Nat)
  | reply (c : Nat) (body : String)
  | streamSync (c : Nat) (stream : String)
  | broadcast (env : Envelope) (stampMs pruneMs : Int)
  | broadcastBinary (payload : List UInt8)
  | delta (t : Nat) (delta : String)
  | flightResumes (b : Nat) (ok : Bool)
  | flightCancelled (b : Nat)
  | streamOpens (t : Nat)
  | streamStops (t : Nat)
  | streamCleared

def step (s : State) : Op → Option State
  | .attach c helloId resume nowMs pruneMs =>
    if s.handlers c = .absent then some (attach s c helloId resume nowMs pruneMs) else none
  | .handlerResumes c ok => handlerResumes s c ok
  | .handlerEnds c => handlerEnds s c
  | .reply c body =>
    match s.handlers c with
    | .serving S => some (sendReply s c S body)
    | _ => none
  | .streamSync c stream =>
    match s.handlers c with
    | .serving S => some (streamSync s c S stream)
    | _ => none
  | .broadcast env stampMs pruneMs =>
    if Envelope.midStream env = false ∧ env.seq = none
    then some (broadcast s env stampMs pruneMs) else none
  | .broadcastBinary payload => some (launch s (.binary payload) none)
  | .delta t delta =>
    if (s.streams t).phase = .running ∧ (s.streams t).inFlight = none
    then some (onDelta s t delta) else none
  | .flightResumes b ok =>
    match s.flights b with
    | some f => some (flightResumes s b f ok)
    | none => none
  | .flightCancelled b =>
    match s.flights b with
    | some f => some (flightCancelled s b f)
    | none => none
  | .streamOpens t =>
    if (s.streams t).phase = .unopened
    then some { s.setStream t { phase := .running } with active := some t } else none
  | .streamStops t =>
    if (s.streams t).phase = .running ∧ (s.streams t).inFlight = none
    then some (s.setStream t { s.streams t with phase := .finished }) else none
  | .streamCleared => some { s with active := none }

end GhostRunner.Server
