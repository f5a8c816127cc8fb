import GhostRunner.Wire
import Mathlib.Data.List.Forall2

/-! The receive loop of one session (`ws_server.py`), on a socket that stays open and bound. A
reply that cannot be dumped or encoded is raised out of the loop, as is what `decode` raises besides
a `ProtocolError`. -/
namespace GhostRunner.Wire

def maxViolations : Nat := 3
def closeProtocolViolation : Nat := 4400

/-- What the command handler comes to. `exception` is any but a `ProtocolError`. -/
inductive Handled where
  | result (result : Dict)
  | protocolError (error : ProtocolError)
  | exception

/-- One frame, with what the handler makes of a command and the time of the reply. -/
structure Incoming where
  raw : Raw
  handle : String → PyStr → Dict → Handled
  now : Millis

inductive Raised where
  | valueError (message : String)
  | recursionError (message : String)
  | unicodeEncodeError
  deriving DecidableEq, Repr

def Raised.ofDumps : Json.DumpsError → Raised
  | .valueError message => .valueError message
  | .recursionError message => .recursionError message

inductive Loop where
  | serving
  | closed (code : Nat) (reason : String)
  | raised (error : Raised)
  deriving DecidableEq, Repr

structure State where
  violations : Nat
  sent : List Envelope
  loop : Loop

def start : State := ⟨0,[],.serving⟩

section
variable (python : Python) (sessionId : String)

def addressed (env : Envelope) : Envelope := { env with session := some (.ofString sessionId) }

/-- `ClientSession.send` -/
def send (now : Millis) (s : State) (env : Envelope) : Except Raised State :=
  match (addressed sessionId env).encode python.writer now.value with
  | .error error => throw (.ofDumps error)
  | .ok text =>
    if text.encodes then return { s with sent := s.sent ++ [addressed sessionId env] }
    else throw .unicodeEncodeError

def violate (now : Millis) (s : State) (error : Envelope) : Except Raised State := do
  let s ← send python sessionId now { s with violations := s.violations + 1 } error
  if maxViolations ≤ s.violations then
    return { s with loop := .closed closeProtocolViolation "too many protocol violations" }
  return s

/-- The name and the arguments of a command. -/
def commandCall (payload : Dict) : Option (PyStr × Dict) :=
  match payload.get "name",defaultDict (payload.get "args") with
  | some (.str name),some args => some (name,args)
  | _,_ => none

def dispatchCommand (frame : Incoming) (s : State) (env : Envelope) : Except Raised State :=
  match env.id with
  | none =>
    send python sessionId frame.now s
      (errorEnvelope (.ofString eBadEnvelope) (.ofString "command requires an id") none)
  | some id =>
    match commandCall env.payload with
    | none =>
      send python sessionId frame.now s (errorEnvelope (.ofString eBadEnvelope)
        (.ofString "command payload needs string name + object args") (some id))
    | some (name,args) =>
      match frame.handle sessionId name args with
      | .protocolError error =>
        send python sessionId frame.now s (errorEnvelope error.code error.message (some id))
      | .exception =>
        send python sessionId frame.now s (errorEnvelope (.ofString eInternal)
          (.ofString "command " ++ name ++ .ofString " failed; see core log") (some id))
      | .result result =>
        send python sessionId frame.now s
          { type := .ofString "ack", id := some id,
            payload := [(.ofString "ok",.bool true),(.ofString "result",.obj result)] }

/-- The body of the loop. -/
def serveFrame (s : State) (frame : Incoming) : Except Raised State :=
  match decode python frame.raw with
  | .error (.protocolError error) =>
    violate python sessionId frame.now s (errorEnvelope error.code error.message none)
  | .error (.valueError message) => throw (.valueError message)
  | .error (.recursionError message) => throw (.recursionError message)
  | .ok env =>
    if env.type = .ofString "ping" then
      send python sessionId frame.now s { type := .ofString "pong", id := env.id }
    else if env.type = .ofString "pong" then return s
    else if env.type = .ofString "command" then dispatchCommand python sessionId frame s env
    else
      violate python sessionId frame.now s (errorEnvelope (.ofString eBadEnvelope)
        (.ofString "unexpected client message type " ++ env.type.repr python.unicode) env.id)

/-- A frame that comes after the end of the loop is not read. -/
def receive (s : State) (frame : Incoming) : State :=
  match s.loop with
  | .serving =>
    match serveFrame python sessionId s frame with
    | .ok t => t
    | .error error => { s with loop := .raised error }
  | _ => s

/-- `_serve_session` -/
def serveSession (frames : List Incoming) : State :=
  frames.foldl (receive python sessionId) start

/-! ## What a session is for -/

/-- `decode` does not accept the frame, or it is of a type that no client may send. -/
def isViolation (frame : Incoming) : Bool :=
  match decode python frame.raw with
  | .error _ => true
  | .ok env =>
    env.type ≠ .ofString "ping" ∧ env.type ≠ .ofString "pong" ∧ env.type ≠ .ofString "command"

/-- The list up to and including its `n`-th element with a property. -/
def upTo {α : Type} (p : α → Bool) : Nat → List α → List α
  | 0, _ => []
  | _ + 1, [] => []
  | n + 1, a :: rest => a :: upTo p (if p a then n else n + 1) rest

def IsError (replies : List Envelope) : Prop :=
  ∃ reply, replies = [reply] ∧ reply.type = .ofString "error"

/-- What is sent for one frame. -/
def Answered (frame : Incoming) (replies : List Envelope) : Prop :=
  match decode python frame.raw with
  | .error _ => IsError replies
  | .ok env =>
    if env.type = .ofString "ping" then
      ∃ reply, replies = [reply] ∧ reply.type = .ofString "pong" ∧ reply.id = env.id
    else if env.type = .ofString "pong" then replies = []
    else if env.type = .ofString "command" ∧ env.id.isSome then
      ∃ reply, replies = [reply] ∧ reply.id = env.id ∧
        (reply.type = .ofString "ack" ∨ reply.type = .ofString "error")
    else IsError replies

/-- No exception ends the loop, the third violation closes the socket and nothing else does, and
up to then every frame is answered in turn. -/
structure Serves (frames : List Incoming) : Prop where
  unbroken : ∀ error, (serveSession python sessionId frames).loop ≠ .raised error
  closes : (∃ reason, (serveSession python sessionId frames).loop =
      .closed closeProtocolViolation reason) ↔
    maxViolations ≤ frames.countP (isViolation python)
  answers : ∃ replies, List.Forall₂ (Answered python)
      (upTo (isViolation python) maxViolations frames) replies ∧
    (serveSession python sessionId frames).sent = replies.flatten

/-! ## When it is that -/

/-- A result is nested in the ack two levels deep. -/
def HandledPlainly (name : PyStr) : Handled → Prop
  | .result result => (Json.obj result).encodes = true ∧
      Json.fault python.writer (python.writer.maxDepth - 2) (.obj result) = none
  | .protocolError error => error.code.encodes = true ∧ error.message.encodes = true
  | .exception => name.encodes = true

def CommandPlain (frame : Incoming) (env : Envelope) : Prop :=
  match env.id with
  | none => True
  | some id => id.encodes = true ∧
    match commandCall env.payload with
    | none => True
    | some (name,args) => HandledPlainly python name (frame.handle sessionId name args)

/-- The parser takes the frame or rejects it by a `JSONDecodeError`, and what the reply repeats
of it, or of what the handler gives, has no lone surrogate and can be dumped. -/
def Plain (frame : Incoming) : Prop :=
  match decode python frame.raw with
  | .error (.protocolError _) => True
  | .error _ => False
  | .ok env =>
    if env.type = .ofString "pong" then True
    else if env.type = .ofString "command" then CommandPlain python sessionId frame env
    else env.id.all PyStr.encodes = true

/-! ## One frame -/

def sendable (env : Envelope) : Bool :=
  env.type.encodes && env.id.all PyStr.encodes && (Json.obj env.payload).encodes

/-- The state after a frame that has been answered. -/
def after (s : State) (violation : Bool) (replies : List Envelope) : State where
  violations := s.violations + violation.toNat
  sent := s.sent ++ replies
  loop :=
    if violation ∧ maxViolations ≤ s.violations + 1 then
      .closed closeProtocolViolation "too many protocol violations"
    else s.loop

variable {python sessionId}

theorem addressed_encodes (env : Envelope) (now : Int) :
    ((addressed sessionId env).text now).encodes = sendable env := by
  simp [text_encodes,addressed,sendable]

/-- Why a reply cannot be sent, if it cannot. -/
def unsent (python : Python) (reply : Envelope) : Option Raised :=
  match Json.fault python.writer (python.writer.maxDepth - 1) (.obj reply.payload) with
  | some error => some (.ofDumps error)
  | none => if sendable reply then none else some .unicodeEncodeError

/-- What comes of a reply. -/
def answer (python : Python) (sessionId : String) (s : State) (violation : Bool)
    (reply : Envelope) : Except Raised State :=
  match unsent python reply with
  | some error => .error error
  | none => .ok (after s violation [addressed sessionId reply])

/-- A reply has no number of its own, and no time until it is written. -/
structure Bare (env : Envelope) : Prop where
  seq : env.seq = none
  turn : env.turn = none
  ts : env.ts = none

theorem errorEnvelope_bare (code message : PyStr) (replyTo : Option PyStr) :
    Bare (errorEnvelope code message replyTo) := ⟨rfl,rfl,rfl⟩

theorem send_eq (now : Millis) (s : State) {env : Envelope} (bare : Bare env) :
    send python sessionId now s env = answer python sessionId s false env := by
  have encoded : (addressed sessionId env).encode python.writer now.value =
      match Json.fault python.writer (python.writer.maxDepth - 1) (.obj env.payload) with
      | some error => .error error
      | none => .ok ((addressed sessionId env).text now.value) :=
    @encode_eq python.writer (addressed sessionId env) bare.seq bare.turn bare.ts now
  simp only [send,answer,unsent,encoded]
  cases Json.fault python.writer (python.writer.maxDepth - 1) (.obj env.payload) with
  | some error => rfl
  | none =>
    simp only [addressed_encodes]
    split_ifs with ready
    · rfl
    · rfl

theorem violate_eq (now : Millis) (s : State) {error : Envelope} (bare : Bare error) :
    violate python sessionId now s error = answer python sessionId s true error := by
  simp only [violate,send_eq now _ bare,answer]
  cases unsent python error with
  | some raised => rfl
  | none =>
    by_cases full : maxViolations ≤ s.violations + 1 <;>
      simp [after,full,bind,Except.bind,pure,Except.pure]

theorem unsent_none_iff {reply : Envelope} : unsent python reply = none ↔
    Json.fault python.writer (python.writer.maxDepth - 1) (.obj reply.payload) = none ∧
      sendable reply = true := by
  simp only [unsent]
  cases Json.fault python.writer (python.writer.maxDepth - 1) (.obj reply.payload) <;> simp

/-- There is room for the payload of an envelope. -/
theorem payload_depth (writer : Json.Writer) : ∃ depth, writer.maxDepth - 1 = depth + 1 :=
  ⟨writer.maxDepth - 2,by have deep := writer.deep; omega⟩

theorem errorEnvelope_fault (writer : Json.Writer) (code message : PyStr) (replyTo : Option PyStr) :
    Json.fault writer (writer.maxDepth - 1) (.obj (errorEnvelope code message replyTo).payload) =
      none := by
  obtain ⟨depth,bound⟩ := payload_depth writer
  rw [bound]
  simp [errorEnvelope,Json.fault]

theorem errorEnvelope_sendable {code message : PyStr} {replyTo : Option PyStr} :
    sendable (errorEnvelope code message replyTo) =
      (replyTo.all PyStr.encodes && (code.encodes && message.encodes)) := by
  simp [sendable,errorEnvelope,Json.encodes,Json.all,Json.allMembers]

/-- The reply to a command. -/
def commandReply (sessionId : String) (frame : Incoming) (env : Envelope) : Envelope :=
  match env.id with
  | none => errorEnvelope (.ofString eBadEnvelope) (.ofString "command requires an id") none
  | some id =>
    match commandCall env.payload with
    | none =>
      errorEnvelope (.ofString eBadEnvelope)
        (.ofString "command payload needs string name + object args") (some id)
    | some (name,args) =>
      match frame.handle sessionId name args with
      | .protocolError error => errorEnvelope error.code error.message (some id)
      | .exception =>
        errorEnvelope (.ofString eInternal)
          (.ofString "command " ++ name ++ .ofString " failed; see core log") (some id)
      | .result result =>
        { type := .ofString "ack", id := some id,
          payload := [(.ofString "ok",.bool true),(.ofString "result",.obj result)] }

theorem dispatchCommand_eq (frame : Incoming) (s : State) (env : Envelope) :
    dispatchCommand python sessionId frame s env =
      send python sessionId frame.now s (commandReply sessionId frame env) := by
  simp only [dispatchCommand,commandReply]
  split
  · rfl
  · split
    · rfl
    · split <;> rfl

theorem commandReply_bare (frame : Incoming) (env : Envelope) :
    Bare (commandReply sessionId frame env) := by
  simp only [commandReply]
  split
  · exact errorEnvelope_bare _ _ _
  · split
    · exact errorEnvelope_bare _ _ _
    · split
      · exact errorEnvelope_bare _ _ _
      · exact errorEnvelope_bare _ _ _
      · exact ⟨rfl,rfl,rfl⟩

theorem commandReply_id (frame : Incoming) (env : Envelope) :
    (commandReply sessionId frame env).id = env.id := by
  simp only [commandReply]
  split
  · next missing => rw [missing]; rfl
  · next id present =>
    rw [present]
    split
    · rfl
    · split <;> rfl

theorem commandReply_type (frame : Incoming) (env : Envelope) :
    (commandReply sessionId frame env).type = .ofString "error" ∨
      env.id.isSome ∧ (commandReply sessionId frame env).type = .ofString "ack" := by
  simp only [commandReply]
  split
  · exact .inl rfl
  · next id present =>
    split
    · exact .inl rfl
    · split
      · exact .inl rfl
      · exact .inl rfl
      · exact .inr ⟨by simp [present],rfl⟩

theorem errorEnvelope_unsent {code message : PyStr} {replyTo : Option PyStr} :
    unsent python (errorEnvelope code message replyTo) = none ↔
      replyTo.all PyStr.encodes = true ∧ code.encodes = true ∧ message.encodes = true := by
  simp [unsent_none_iff,errorEnvelope_fault,errorEnvelope_sendable]

theorem ack_unsent {id : PyStr} {result : Dict} :
    unsent python
        { type := .ofString "ack", id := some id,
          payload := [(.ofString "ok",.bool true),(.ofString "result",.obj result)] } = none ↔
      id.encodes = true ∧ (Json.obj result).encodes = true ∧
        Json.fault python.writer (python.writer.maxDepth - 2) (.obj result) = none := by
  obtain ⟨depth,bound⟩ := payload_depth python.writer
  have below : python.writer.maxDepth - 2 = depth := by omega
  rw [unsent_none_iff,bound,below]
  simp [Json.fault,sendable,Json.encodes,Json.all,Json.allMembers]
  tauto

theorem commandReply_unsent (frame : Incoming) (env : Envelope) :
    unsent python (commandReply sessionId frame env) = none ↔
      CommandPlain python sessionId frame env := by
  simp only [commandReply,CommandPlain]
  split
  · simp [errorEnvelope_unsent]
  · split
    · simp [errorEnvelope_unsent]
    · next name args _ =>
      cases frame.handle sessionId name args with
      | result result => simp [HandledPlainly,ack_unsent]
      | protocolError error => simp [HandledPlainly,errorEnvelope_unsent]
      | exception => simp [HandledPlainly,errorEnvelope_unsent]

/-- The reply to a frame, if there is one. -/
def replyTo (python : Python) (sessionId : String) (frame : Incoming) :
    Except Raised (Option Envelope) :=
  match decode python frame.raw with
  | .error (.protocolError error) => .ok (some (errorEnvelope error.code error.message none))
  | .error (.valueError message) => .error (.valueError message)
  | .error (.recursionError message) => .error (.recursionError message)
  | .ok env =>
    if env.type = .ofString "ping" then .ok (some { type := .ofString "pong", id := env.id })
    else if env.type = .ofString "pong" then .ok none
    else if env.type = .ofString "command" then .ok (some (commandReply sessionId frame env))
    else .ok (some (errorEnvelope (.ofString eBadEnvelope)
      (.ofString "unexpected client message type " ++ env.type.repr python.unicode) env.id))

theorem replyTo_bare {frame : Incoming} {reply : Envelope}
    (found : replyTo python sessionId frame = .ok (some reply)) : Bare reply := by
  simp only [replyTo] at found
  split at found
  · cases found
    exact errorEnvelope_bare _ _ _
  · cases found
  · cases found
  · split_ifs at found
    · cases found
      exact ⟨rfl,rfl,rfl⟩
    · cases found
    · cases found
      exact commandReply_bare frame _
    · cases found
      exact errorEnvelope_bare _ _ _

theorem serveFrame_eq (s : State) (frame : Incoming) :
    serveFrame python sessionId s frame =
      match replyTo python sessionId frame with
      | .error error => .error error
      | .ok none => .ok s
      | .ok (some reply) => answer python sessionId s (isViolation python frame) reply := by
  simp only [serveFrame,replyTo,isViolation,dispatchCommand_eq]
  cases decode python frame.raw with
  | error error =>
    cases error with
    | protocolError error => exact violate_eq frame.now s (errorEnvelope_bare _ _ _)
    | valueError message => rfl
    | recursionError message => rfl
  | ok env =>
    by_cases ping : env.type = .ofString "ping"
    · have bare : Bare { type := .ofString "pong", id := env.id } := ⟨rfl,rfl,rfl⟩
      simp [ping,send_eq frame.now s bare]
    by_cases pong : env.type = .ofString "pong"
    · simp [pong,pure,Except.pure]
    by_cases command : env.type = .ofString "command"
    · simp [command,send_eq frame.now s (commandReply_bare frame env)]
    · simp [ping,pong,command,violate_eq frame.now s (errorEnvelope_bare _ _ _)]

/-- What breaks the session at a frame, if anything does. -/
def frameFault (python : Python) (sessionId : String) (frame : Incoming) : Option Raised :=
  match replyTo python sessionId frame with
  | .error error => some error
  | .ok none => none
  | .ok (some reply) => unsent python reply

theorem replyTo_none {frame : Incoming} (silent : replyTo python sessionId frame = .ok none) :
    Answered python frame [] ∧ isViolation python frame = false := by
  simp only [replyTo] at silent
  simp only [Answered,isViolation]
  cases decoded : decode python frame.raw with
  | error error => cases error <;> simp [decoded] at silent
  | ok env =>
    by_cases ping : env.type = .ofString "ping"
    · simp [decoded,ping] at silent
    by_cases pong : env.type = .ofString "pong"
    · simp [pong]
    by_cases command : env.type = .ofString "command"
    · simp [decoded,command] at silent
    · simp [decoded,ping,pong,command] at silent

theorem replyTo_answers {frame : Incoming} {reply : Envelope}
    (found : replyTo python sessionId frame = .ok (some reply)) :
    Answered python frame [addressed sessionId reply] := by
  simp only [replyTo] at found
  simp only [Answered]
  cases decoded : decode python frame.raw with
  | error error =>
    cases error with
    | protocolError error =>
      simp only [decoded] at found
      cases found
      exact ⟨_,rfl,rfl⟩
    | valueError message => simp [decoded] at found
    | recursionError message => simp [decoded] at found
  | ok env =>
    by_cases ping : env.type = .ofString "ping"
    · simp only [decoded,if_pos ping] at found ⊢
      cases found
      exact ⟨_,rfl,rfl,rfl⟩
    by_cases pong : env.type = .ofString "pong"
    · simp [decoded,pong] at found
    simp only [decoded,if_neg ping,if_neg pong] at found ⊢
    by_cases command : env.type = .ofString "command"
    · rw [if_pos command] at found
      cases found
      have kind := @commandReply_type sessionId frame env
      by_cases identified : env.id.isSome
      · rw [if_pos ⟨command,identified⟩]
        exact ⟨_,rfl,commandReply_id frame env,kind.symm.imp And.right id⟩
      · rw [if_neg (fun both => identified both.2)]
        exact ⟨_,rfl,kind.resolve_right (fun both => identified both.1)⟩
    · rw [if_neg command] at found
      cases found
      rw [if_neg (fun both => command both.1)]
      exact ⟨_,rfl,rfl⟩

theorem plain_iff (frame : Incoming) :
    Plain python sessionId frame ↔ frameFault python sessionId frame = none := by
  simp only [Plain,frameFault,replyTo]
  cases decoded : decode python frame.raw with
  | error error =>
    cases error with
    | protocolError error =>
      have speaks := decode_speaks python decoded
      simp [errorEnvelope_unsent,speaks.1,speaks.2]
    | valueError message => simp
    | recursionError message => simp
  | ok env =>
    by_cases ping : env.type = .ofString "ping"
    · obtain ⟨depth,bound⟩ := payload_depth python.writer
      simp [ping,unsent_none_iff,bound,sendable,Json.fault,Json.encodes,Json.all,Json.allMembers]
    by_cases pong : env.type = .ofString "pong"
    · simp [pong]
    by_cases command : env.type = .ofString "command"
    · simp [command,commandReply_unsent]
    · simp [ping,pong,command,errorEnvelope_unsent]

/-- A frame that breaks nothing is answered, and counted if it is a violation. -/
theorem serveFrame_plain (s : State) {frame : Incoming}
    (plain : frameFault python sessionId frame = none) :
    ∃ replies, Answered python frame replies ∧
      serveFrame python sessionId s frame = .ok (after s (isViolation python frame) replies) := by
  simp only [frameFault] at plain
  rw [serveFrame_eq]
  cases found : replyTo python sessionId frame with
  | error error => simp [found] at plain
  | ok reply =>
    cases reply with
    | none =>
      obtain ⟨answered,harmless⟩ := replyTo_none found
      exact ⟨[],answered,by simp [harmless,after]⟩
    | some reply =>
      simp only [found] at plain
      exact ⟨_,replyTo_answers found,by simp [answer,plain]⟩

/-- Any other frame ends the loop by what breaks it. -/
theorem serveFrame_broken (s : State) {frame : Incoming} {error : Raised}
    (broken : frameFault python sessionId frame = some error) :
    serveFrame python sessionId s frame = .error error := by
  simp only [frameFault] at broken
  rw [serveFrame_eq]
  cases found : replyTo python sessionId frame with
  | error other => simpa [found] using broken
  | ok reply =>
    cases reply with
    | none => simp [found] at broken
    | some reply =>
      simp only [found] at broken
      simp [answer,broken]

/-! ## A whole session -/

/-- The loop while `left` more violations are to be read before it closes. -/
structure Open (s : State) (left : Nat) : Prop where
  serving : s.loop = .serving
  budget : s.violations + left = maxViolations

theorem ended {s : State} (stopped : s.loop ≠ .serving) (frames : List Incoming) :
    frames.foldl (receive python sessionId) s = s := by
  induction frames with
  | nil => rfl
  | cons frame rest ih =>
    have same : receive python sessionId s frame = s := by
      cases loop : s.loop with
      | serving => exact (stopped loop).elim
      | closed code reason => simp only [receive,loop]
      | raised error => simp only [receive,loop]
    rw [List.foldl_cons,same,ih]

theorem receive_plain {s : State} {left : Nat} {frame : Incoming} (live : Open s left)
    (plain : frameFault python sessionId frame = none) :
    ∃ replies, Answered python frame replies ∧
      receive python sessionId s frame = after s (isViolation python frame) replies := by
  obtain ⟨replies,answered,served⟩ := serveFrame_plain s plain
  exact ⟨replies,answered,by simp only [receive,live.serving,served]⟩

theorem receive_broken {s : State} {left : Nat} {frame : Incoming} {error : Raised}
    (live : Open s left) (broken : frameFault python sessionId frame = some error) :
    (receive python sessionId s frame).loop = .raised error := by
  simp only [receive,live.serving,serveFrame_broken s broken]

theorem after_harmless {s : State} {left : Nat} {replies : List Envelope} (live : Open s left) :
    Open (after s false replies) left :=
  ⟨by simpa [after] using live.serving,live.budget⟩

theorem after_violation {s : State} {left : Nat} {replies : List Envelope}
    (live : Open s (left + 2)) : Open (after s true replies) (left + 1) := by
  have budget := live.budget
  have below : ¬maxViolations ≤ s.violations + 1 := by omega
  constructor
  · simp [after,below,live.serving]
  · simp only [after,Bool.toNat_true]
    omega

theorem after_closed {s : State} {replies : List Envelope} (live : Open s 1) :
    (after s true replies).loop =
      .closed closeProtocolViolation "too many protocol violations" := by
  have budget := live.budget
  have full : maxViolations ≤ s.violations + 1 := by omega
  simp [after,full]

/-- As long as the frames that are read break nothing, they are answered in turn, and the loop is
closed at the last violation that it stands. -/
theorem serve_plain {frames : List Incoming} {s : State} {left : Nat} (live : Open s (left + 1))
    (plain : ∀ frame ∈ upTo (isViolation python) (left + 1) frames,
      frameFault python sessionId frame = none) :
    (∃ replies, List.Forall₂ (Answered python)
        (upTo (isViolation python) (left + 1) frames) replies ∧
      (frames.foldl (receive python sessionId) s).sent = s.sent ++ replies.flatten) ∧
    (frames.foldl (receive python sessionId) s).loop =
      if left + 1 ≤ frames.countP (isViolation python) then
        .closed closeProtocolViolation "too many protocol violations"
      else .serving := by
  induction frames generalizing s left with
  | nil => exact ⟨⟨[],.nil,by simp⟩,by simp [live.serving]⟩
  | cons frame rest ih =>
    obtain ⟨first,plain⟩ := List.forall_mem_cons.mp plain
    obtain ⟨replies,answered,received⟩ := receive_plain live first
    rw [List.foldl_cons,received,List.countP_cons,upTo]
    cases violation : isViolation python frame with
    | false =>
      have next := @after_harmless s _ replies live
      obtain ⟨⟨later,answers,sent⟩,loop⟩ := ih next (by simpa [violation] using plain)
      refine ⟨⟨replies :: later,.cons answered (by simpa using answers),?_⟩,by simpa using loop⟩
      rw [sent]
      simp [after]
    | true =>
      cases left with
      | zero =>
        have closed := @after_closed s replies live
        rw [ended (by simp [closed])]
        exact ⟨⟨[replies],.cons answered (by simp [upTo]),by simp [after]⟩,by simp [closed]⟩
      | succ left =>
        have next := @after_violation s _ replies live
        obtain ⟨⟨later,answers,sent⟩,loop⟩ := ih next (by simpa [violation] using plain)
        refine ⟨⟨replies :: later,.cons answered (by simpa using answers),?_⟩,
          by simpa using loop⟩
        rw [sent]
        simp [after]

/-- The first frame that breaks the loop ends it. -/
theorem serve_broken {frames : List Incoming} {s : State} {left : Nat} {error : Raised}
    (live : Open s (left + 1))
    (broken : (upTo (isViolation python) (left + 1) frames).findSome?
      (frameFault python sessionId) = some error) :
    (frames.foldl (receive python sessionId) s).loop = .raised error := by
  induction frames generalizing s left with
  | nil => simp [upTo] at broken
  | cons frame rest ih =>
    rw [List.foldl_cons]
    rw [upTo,List.findSome?_cons] at broken
    cases first : frameFault python sessionId frame with
    | some own =>
      obtain rfl : own = error := by simpa [first] using broken
      have raised := receive_broken live first
      rw [ended (by simp [raised]),raised]
    | none =>
      obtain ⟨replies,_,received⟩ := receive_plain live first
      simp only [first] at broken
      rw [received]
      cases violation : isViolation python frame with
      | false => exact ih (after_harmless live) (by simpa [violation] using broken)
      | true =>
        cases left with
        | zero => simp [violation,upTo] at broken
        | succ left => exact ih (after_violation live) (by simpa [violation] using broken)

theorem start_open : Open start maxViolations := ⟨rfl,rfl⟩

/-- The frames that are read, and what they break the session by. -/
theorem serveSession_loop (python : Python) (sessionId : String) (frames : List Incoming) :
    (serveSession python sessionId frames).loop =
      match (upTo (isViolation python) maxViolations frames).findSome?
        (frameFault python sessionId) with
      | some error => .raised error
      | none =>
        if maxViolations ≤ frames.countP (isViolation python) then
          .closed closeProtocolViolation "too many protocol violations"
        else .serving := by
  cases found : (upTo (isViolation python) maxViolations frames).findSome?
      (frameFault python sessionId) with
  | some error => exact serve_broken start_open found
  | none => exact (serve_plain start_open (List.findSome?_eq_none_iff.mp found)).2

/-- The session is served as it should be exactly if every frame that is read is plain. -/
theorem serves_iff (python : Python) (sessionId : String) (frames : List Incoming) :
    Serves python sessionId frames ↔
      ∀ frame ∈ upTo (isViolation python) maxViolations frames,
        Plain python sessionId frame := by
  have loop := serveSession_loop python sessionId frames
  simp only [plain_iff]
  constructor
  · intro serves
    cases found : (upTo (isViolation python) maxViolations frames).findSome?
        (frameFault python sessionId) with
    | some error =>
      rw [found] at loop
      exact (serves.unbroken error loop).elim
    | none => exact List.findSome?_eq_none_iff.mp found
  · intro plain
    obtain ⟨answers,loop⟩ := serve_plain start_open plain
    by_cases full : maxViolations ≤ frames.countP (isViolation python)
    · have closed := loop.trans (if_pos full)
      refine ⟨?_,⟨fun _ => full,fun _ => ⟨_,closed⟩⟩,answers⟩
      intro error raised
      cases closed.symm.trans raised
    · have serving := loop.trans (if_neg full)
      refine ⟨?_,⟨?_,fun closes => (full closes).elim⟩,answers⟩
      · intro error raised
        cases serving.symm.trans raised
      · rintro ⟨reason,closed⟩
        cases serving.symm.trans closed

end

/-! ## A ping that cannot be answered -/

/-- The text is ASCII: the escape in it stands for a lone surrogate. -/
def surrogatePing : PyStr :=
  .ofString "\x7b\"v\":1,\"type\":\"ping\",\"id\":\"\\ud800\"\x7d"

/-- A parser that takes this text as Python's does. -/
def pingPython : Python where
  loads text :=
    if text = surrogatePing then
      .ok (.obj [(.ofString "v",.int 1),(.ofString "type",.str (.ofString "ping")),
        (.ofString "id",.str [0xd800])])
    else .error (.jsonDecodeError "Expecting value: line 1 column 1 (char 0)")
  unicode := ⟨fun c => !c.isSurrogate,by simp⟩
  writer := .usual

theorem surrogatePing_raises :
    (serveSession pingPython "s-1"
      [⟨.text surrogatePing,fun _ _ _ => .exception,epoch⟩]).loop = .raised .unicodeEncodeError ∧
    ¬Serves pingPython "s-1" [⟨.text surrogatePing,fun _ _ _ => .exception,epoch⟩] := by
  have raised : (serveSession pingPython "s-1"
      [⟨.text surrogatePing,fun _ _ _ => .exception,epoch⟩]).loop = .raised .unicodeEncodeError := by
    decide
  exact ⟨raised,fun serves => serves.unbroken _ raised⟩

end GhostRunner.Wire
