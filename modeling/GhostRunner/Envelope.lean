import Mathlib.Data.List.Basic

/-! Protocol v1 envelopes (`envelope.py`) as values. A payload fixes the type of its
envelope, as every constructor call of the source does. A written frame is the envelope
itself; `Envelope.wire` gives its text. Session ids and resume keys are tokens that
`secrets` never issues twice, and appear as numbers. -/
namespace GhostRunner

inductive MsgType where
  | hello | helloAck
  | state | turn | token | asrPartial | audioMeta
  | command | ack | error
  | ping | pong
  | perceptionStatus | suggestion | elicitation
  deriving DecidableEq, Repr

/-- `DURABLE_TYPES`: these get a sequence number and an entry in the replay log. -/
def MsgType.durable : MsgType → Bool
  | .state | .turn | .perceptionStatus | .suggestion | .elicitation => true
  | _ => false

/-- The values of `state` in a `state` payload. -/
inductive Mascot where
  | idle
  | thinking
  | responding
  | success
  | error
  deriving DecidableEq, Repr

/-- SUCCESS and ERROR are shown for a moment and never kept for a resume. -/
def Mascot.transient : Mascot → Bool
  | .success | .error => true
  | _ => false

inductive TurnEvent where
  | started
  | cancelled
  | done
  deriving DecidableEq, Repr

inductive Origin where
  | balloon
  | voice
  | proactive
  | tool
  deriving DecidableEq, Repr

/-- The full text of a stream up to its token `seqBase`. -/
structure Snapshot where
  seqBase : Nat
  text : String
  deriving DecidableEq, Repr

/-- Constant fields are left out: the confidence and the empty target of a state, the
codec and channels of an audio stream, the capabilities of a `hello_ack`. A message that
no modelled function looks into is `other`. -/
inductive Payload where
  | state (state : Mascot) (message : String) (attention : Int)
  | turn (event : TurnEvent) (origin : Origin) (ownerSession : Nat) (reason : Option String)
  | token (stream : String) (seq : Nat) (delta : String) (done : Bool) (finish : Option String)
      (snapshot : Option Snapshot)
  | audioMeta (stream : Nat) (sampleRate : Nat) (last : Bool)
  | helloAck (session resumeKey : Nat) (replay : Bool)
  | other (type : MsgType) (body : String)
  deriving DecidableEq, Repr

def Payload.type : Payload → MsgType
  | .state .. => .state
  | .turn .. => .turn
  | .token .. => .token
  | .audioMeta .. => .audioMeta
  | .helloAck .. => .helloAck
  | .other type _ => type

structure Envelope where
  payload : Payload
  id : Option String := none
  seq : Option Nat := none
  turn : Option Nat := none
  session : Option Nat := none
  ts : Option Int := none
  deriving DecidableEq, Repr

def Envelope.type (env : Envelope) : MsgType := env.payload.type

/-- `env.type == "state" and env.payload.get("state") not in ("SUCCESS", "ERROR")`. -/
def Envelope.lastingState (env : Envelope) : Bool :=
  match env.payload with
  | .state state _ _ => !state.transient
  | .other .state _ => true
  | _ => false

/-- The id of a turn's token stream. -/
def streamId (turn : Nat) : String := "t" ++ toString turn

/-- The token envelope that `on_delta` broadcasts. -/
def deltaToken (t seq : Nat) (delta : String) : Envelope where
  payload := .token (streamId t) seq delta false none none
  turn := some t

/-! ## The tokens of a stream -/

theorem streamId_inj {a b : Nat} : streamId a = streamId b ↔ a = b := by
  refine ⟨fun same => ?_,fun same => same ▸ rfl⟩
  have digits : Nat.toDigits 10 a = Nat.toDigits 10 b := by
    simpa [streamId] using congrArg String.toList same
  rw [← @Nat.ofDigitChars_ten_toDigits a,digits,Nat.ofDigitChars_ten_toDigits]

/-- The number of a token, its text, and whether it is the last of its stream. -/
structure Token where
  seq : Nat
  delta : String
  done : Bool
  deriving DecidableEq, Repr

/-- The token in an envelope of turn `t`'s stream. Snapshots are not broadcast. -/
def Envelope.token (t : Nat) (env : Envelope) : Option Token :=
  match env.payload with
  | .token stream seq delta done _ none =>
    if stream = streamId t then some ⟨seq,delta,done⟩ else none
  | _ => none

/-- The deltas of a stream, numbered from 0. -/
def numbered (deltas : List String) : List Token :=
  deltas.mapIdx fun i delta => ⟨i,delta,false⟩

@[simp] theorem numbered_concat (deltas : List String) (delta : String) :
    numbered (deltas ++ [delta]) = numbered deltas ++ [⟨deltas.length,delta,false⟩] := by
  simp [numbered]

@[simp] theorem deltaToken_token (t v seq : Nat) (delta : String) :
    (deltaToken t seq delta).token v = if t = v then some ⟨seq,delta,false⟩ else none := by
  simp [deltaToken,Envelope.token,streamId_inj]

end GhostRunner
