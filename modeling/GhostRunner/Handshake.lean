import GhostRunner.Conversation
import GhostRunner.WireMessages

/-! A connection from its first frame on (`ws_server.py`): the handshake, what is written once the
session is bound, and the session. The socket stays open, unless `websockets` closes it over a text
that it cannot encode. -/
namespace GhostRunner.Wire

open Json (Reader)
open Commands (Core Loaded)

/-- What comes of the wait for the first frame. -/
inductive First where
  | timeout
  | frame (raw : Raw)

/-- `isinstance(accept_v, list) and 1 in accept_v` -/
def accepts : Option Json → Bool
  | some (.arr versions) => versions.any fun version => isVersion (some version)
  | _ => false

/-- The resume key of a hello and the last seq that its client has seen, if both are there. -/
def resumeOf (hello : Envelope) : Option (PyStr × PyInt) :=
  match hello.payload.get "resume" with
  | some (.obj resume) =>
    match Dict.get resume "resume_key",(Dict.get resume "last_seen_seq").bind asInt with
    | some (.str key),some lastSeen => some (key,lastSeen)
    | _,_ => none
  | _ => none

inductive Greeting where
  | hello (hello : Envelope)
  | closed (code : Nat) (reason : PyStr)
  | raised (error : Raised)

section
variable (python : Python) (now : Millis)

/-- `ws.send(env.encode())`, without a session. -/
def sendError (env : Envelope) : Except Raised Unit :=
  match env.encode python.writer now.value with
  | .error error => throw (.ofDumps error)
  | .ok text => if text.encodes then return () else throw .unicodeEncodeError

/-- An error is sent and the socket closed. -/
def refuseHello (error : Envelope) (reason : PyStr) : List Envelope × Greeting :=
  match sendError python now error with
  | .ok () => ([error],.closed closeProtocolViolation reason)
  | .error raised => ([],.raised raised)

/-- `_handshake`, up to `_attach`. -/
def handshake : First → List Envelope × Greeting
  | .timeout => ([],.closed closeProtocolViolation (.ofString "hello timeout"))
  | .frame raw =>
    match decode python raw with
    | .error (.protocolError error) =>
      refuseHello python now (errorEnvelope error.code error.message none) error.code
    | .error (.valueError message) => ([],.raised (.valueError message))
    | .error (.recursionError message) => ([],.raised (.recursionError message))
    | .ok env =>
      if env.type = .ofString "hello" then
        if accepts (env.payload.get "accept_v") then ([],.hello env)
        else
          refuseHello python now (errorEnvelope (.ofString eUnsupportedVersion)
            (.ofString "no common protocol version in " ++
              python.reprOf (env.payload.get "accept_v")) none) (.ofString "version mismatch")
      else
        refuseHello python now (errorEnvelope (.ofString eBadEnvelope)
          (.ofString "first message must be hello") none) (.ofString "no hello")

/-- What the session manager gives for a hello: a session, and the messages of the core that are
sent in it again. -/
structure Binding where
  session : Nat
  resumeKey : Nat
  replay : Bool
  resent : List GhostRunner.Envelope

variable (tokens : Tokens)

def Binding.sessionId (bound : Binding) : String := "s-" ++ tokens.text bound.session

def helloAck (hello : Envelope) (bound : Binding) : Envelope where
  type := .ofString "hello_ack"
  payload := helloAckMembers (tokens.sessionId bound.session) (tokens.resumeKey bound.resumeKey)
    bound.replay
  id := hello.id
  session := some (tokens.sessionId bound.session)

def resends (bound : Binding) : List Envelope :=
  (bound.resent.filterMap (GhostRunner.Envelope.wire tokens)).map
    (addressed (bound.sessionId tokens))

/-- What `_attach` sends, in that order. -/
def attachment (hello : Envelope) (bound : Binding) : List Envelope :=
  helloAck tokens hello bound :: resends tokens bound

/-- They are sent one by one, up to the first that cannot be. -/
def sendAll : List Envelope → List Envelope × Option Raised
  | [] => ([],none)
  | env :: rest =>
    match sendError python now env with
    | .ok () => (env :: (sendAll rest).1,(sendAll rest).2)
    | .error raised => ([],some raised)

inductive Ending where
  | refused (code : Nat) (reason : PyStr)
  | raised (error : Raised)
  | aborted
  | served (loop : Loop)

/-- `websockets` closes a connection on which it should send what it cannot encode, and raises a
`ConnectionClosed`, which `_handler` passes over. -/
def Ending.ofRaised : Raised → Ending
  | .unicodeEncodeError => .aborted
  | error => .raised error

def sessionEnding : Loop → Ending
  | .raised error => .ofRaised error
  | loop => .served loop

/-- `bound` says whether `_handshake` has returned a session. -/
structure Connection where
  sent : List Envelope
  bound : Bool
  ending : Ending

/-- `_handler`, where `bind` is the session manager and `frames` is what follows the hello. -/
def handler (bind : Option (PyStr × PyInt) → Binding) (first : First) (frames : List Incoming) :
    Connection :=
  match handshake python now first with
  | (sent,.closed code reason) => ⟨sent,false,.refused code reason⟩
  | (sent,.raised error) => ⟨sent,false,.ofRaised error⟩
  | (sent,.hello hello) =>
    match sendAll python now (attachment tokens hello (bind (resumeOf hello))) with
    | (written,some error) => ⟨sent ++ written,false,.ofRaised error⟩
    | (written,none) =>
      let served := serveSession python ((bind (resumeOf hello)).sessionId tokens) frames
      ⟨sent ++ written ++ served.sent,true,sessionEnding served.loop⟩

end

/-! ## The first frame -/

/-- The first frame is a hello of a client that speaks version 1. -/
def Greets (python : Python) (first : First) (hello : Envelope) : Prop :=
  ∃ raw, first = .frame raw ∧ decode python raw = .ok hello ∧ hello.type = .ofString "hello" ∧
    accepts (hello.payload.get "accept_v") = true

/-- The parser gives up on the first frame. -/
def Garbled (python : Python) (first : First) : Prop :=
  ∃ raw error, first = .frame raw ∧ decode python raw = .error error ∧
    ∀ rejected, error ≠ .protocolError rejected

variable {python : Python} {now : Millis} {first : First}

theorem greets_frame {raw : Raw} {hello : Envelope} : Greets python (.frame raw) hello ↔
    decode python raw = .ok hello ∧ hello.type = .ofString "hello" ∧
      accepts (hello.payload.get "accept_v") = true := by
  simp [Greets]

theorem garbled_frame {raw : Raw} : Garbled python (.frame raw) ↔
    ∃ error, decode python raw = .error error ∧ ∀ rejected, error ≠ .protocolError rejected := by
  simp [Garbled]

theorem Greets.unique {hello other : Envelope} (greets : Greets python first hello)
    (again : Greets python first other) : hello = other := by
  obtain ⟨raw,rfl,decoded,-⟩ := greets
  exact Except.ok.inj (decoded.symm.trans (greets_frame.mp again).1)

theorem Greets.not_garbled {hello : Envelope} (greets : Greets python first hello) :
    ¬Garbled python first := by
  obtain ⟨raw,rfl,decoded,-⟩ := greets
  intro garbled
  obtain ⟨error,failed,-⟩ := garbled_frame.mp garbled
  cases failed.symm.trans decoded

/-- At most one error has been sent, without an id. -/
def Reproached (sent : List Envelope) : Prop :=
  sent = [] ∨ ∃ code message : PyStr, code.encodes = true ∧ message.encodes = true ∧
    sent = [errorEnvelope code message none]

theorem errorEnvelope_encode (writer : Json.Writer) (code message : PyStr) (id : Option PyStr) :
    (errorEnvelope code message id).encode writer now.value =
      .ok ((errorEnvelope code message id).text now.value) := by
  rw [encode_eq writer rfl rfl rfl,errorEnvelope_fault]

theorem refuseHello_eq {code message reason : PyStr} (plain : code.encodes = true)
    (speaks : message.encodes = true) :
    refuseHello python now (errorEnvelope code message none) reason =
      ([errorEnvelope code message none],.closed closeProtocolViolation reason) := by
  have ready : ((errorEnvelope code message none).text now.value).encodes = true := by
    simp [text_encodes,errorEnvelope,Json.encodes,Json.all,Json.allMembers,plain,speaks]
  simp only [refuseHello,sendError,errorEnvelope_encode,if_pos ready]
  rfl

/-- What the handshake comes to. -/
def Meets (python : Python) (first : First) : List Envelope × Greeting → Prop
  | (sent,.hello hello) => sent = [] ∧ Greets python first hello
  | (sent,.closed _ _) => Reproached sent ∧ ¬Garbled python first ∧ ∀ hello, ¬Greets python first hello
  | (sent,.raised error) => sent = [] ∧ Garbled python first ∧ error ≠ .unicodeEncodeError

theorem refuseHello_meets {code message reason : PyStr} (plain : code.encodes = true)
    (speaks : message.encodes = true) (readable : ¬Garbled python first)
    (stranger : ∀ hello, ¬Greets python first hello) :
    Meets python first (refuseHello python now (errorEnvelope code message none) reason) := by
  rw [refuseHello_eq plain speaks]
  exact ⟨.inr ⟨code,message,plain,speaks,rfl⟩,readable,stranger⟩

theorem handshake_meets : Meets python first (handshake python now first) := by
  cases first with
  | timeout => exact ⟨.inl rfl,by simp [Garbled],by simp [Greets]⟩
  | frame raw =>
    simp only [handshake]
    cases read : decode python raw with
    | error error =>
      have stranger : ∀ hello, ¬Greets python (.frame raw) hello := by
        simp [greets_frame,read]
      cases error with
      | protocolError error =>
        obtain ⟨plain,speaks⟩ := decode_speaks python read
        exact refuseHello_meets plain speaks (by simp [garbled_frame,read]) stranger
      | valueError message => exact ⟨rfl,garbled_frame.mpr ⟨_,read,by simp⟩,by simp⟩
      | recursionError message => exact ⟨rfl,garbled_frame.mpr ⟨_,read,by simp⟩,by simp⟩
    | ok env =>
      have readable : ¬Garbled python (.frame raw) := by simp [garbled_frame,read]
      by_cases hello : env.type = .ofString "hello"
      · by_cases version : accepts (env.payload.get "accept_v") = true
        · simp only [if_pos hello,if_pos version]
          exact ⟨rfl,greets_frame.mpr ⟨read,hello,version⟩⟩
        · simp only [if_pos hello,if_neg version]
          refine refuseHello_meets (by simp) (by simp [Python.reprOf]) readable ?_
          intro other greets
          obtain ⟨decoded,-,accepted⟩ := greets_frame.mp greets
          cases read.symm.trans decoded
          exact version accepted
      · simp only [if_neg hello]
        refine refuseHello_meets (by simp) (by simp) readable ?_
        intro other greets
        obtain ⟨decoded,typed,-⟩ := greets_frame.mp greets
        cases read.symm.trans decoded
        exact hello typed

/-! ## What is written when a session is bound -/

variable {tokens : Tokens}

theorem members_encodes {payload : Payload} {members : Dict}
    (written : payload.members tokens = some members) : (Json.obj members).encodes = true := by
  cases payload with
  | state mascot message attention =>
    cases written
    simp [object,str,defaultConfidence,Json.encodes,Json.all,Json.allMembers]
  | turn event origin owner reason =>
    cases written
    cases reason <;> simp [object,str,Tokens.sessionId,Json.encodes,Json.all,Json.allMembers]
  | token stream seq delta done finish snapshot =>
    cases written
    cases finish <;> cases snapshot <;>
      simp [object,str,nat,Snapshot.members,Json.encodes,Json.all,Json.allMembers]
  | audioMeta stream rate last =>
    cases written
    simp [object,str,nat,Json.encodes,Json.all,Json.allMembers]
  | helloAck session key replay =>
    cases written
    simp [helloAckMembers,object,str,nat,Tokens.sessionId,Tokens.resumeKey,Json.encodes,Json.all,
      Json.allMembers,Json.allItems]
  | other type body => cases written

theorem wire_sendable {message : GhostRunner.Envelope} {env : Envelope}
    (written : message.wire tokens = some env) : sendable env = true := by
  obtain ⟨members,payload,rfl⟩ := Option.map_eq_some_iff.mp written
  have plain := members_encodes payload
  cases message.id <;> simp [sendable,plain]

/-- Its numbers have as many digits at most as every interpreter writes. -/
def Brief (message : GhostRunner.Envelope) : Prop :=
  ∀ now : Millis, ∀ n ∈ message.numbers now.value, (toString n.natAbs).length ≤ 640

variable {reader client : Reader} {unicode : PyStr.Unicode}

theorem addressed_fits {sessionId : String} {env : Envelope} {at_ : Int} :
    (addressed sessionId env).Fits reader at_ ↔ env.Fits reader at_ :=
  ⟨fun ⟨type,ts,seq,turn,payload⟩ => ⟨type,ts,seq,turn,payload⟩,
    fun ⟨type,ts,seq,turn,payload⟩ => ⟨type,ts,seq,turn,payload⟩⟩

theorem deepest_deep (reader : Reader) : 3 ≤ reader.deepest.maxDepth :=
  Nat.le_trans (by decide) reader.writer.deep

theorem resent_fits {bound : Binding} {env : Envelope}
    (float : reader.float (.ofString "0.6") = "0.6") (brief : ∀ message ∈ bound.resent, Brief message)
    (among : env ∈ resends tokens bound) : env.Fits reader.deepest now.value := by
  obtain ⟨own,member,rfl⟩ := List.mem_map.mp among
  obtain ⟨message,resent,written⟩ := List.mem_filterMap.mp member
  exact addressed_fits.mpr (GhostRunner.Envelope.wire_fits written (deepest_deep reader) float
    fun n stands => short_of_le (brief message resent now n stands))

theorem resent_encodes {bound : Binding} {env : Envelope}
    (among : env ∈ resends tokens bound) : (env.text now.value).encodes = true := by
  obtain ⟨own,member,rfl⟩ := List.mem_map.mp among
  obtain ⟨message,-,written⟩ := List.mem_filterMap.mp member
  rw [addressed_encodes]
  exact wire_sendable written

theorem helloAck_fits (hello : Envelope) (bound : Binding) :
    (helloAck tokens hello bound).Fits reader.deepest now.value := by
  obtain ⟨depth,below⟩ : ∃ depth, reader.deepest.maxDepth - 1 = depth + 2 :=
    ⟨reader.deepest.maxDepth - 3,by have deep := deepest_deep reader; omega⟩
  refine ⟨by simp [helloAck,validTypes],short_now now,by simp [helloAck],by simp [helloAck],?_⟩
  rw [below]
  exact helloAckMembers_readable (short_of_le (Nat.le_of_ble_eq_true rfl)) _ _ _ depth

theorem helloAck_encodes (hello : Envelope) (bound : Binding) (at_ : Int) :
    ((helloAck tokens hello bound).text at_).encodes = hello.id.all PyStr.encodes := by
  have written : (Payload.helloAck bound.session bound.resumeKey bound.replay).members tokens =
      some (helloAckMembers (tokens.sessionId bound.session) (tokens.resumeKey bound.resumeKey)
        bound.replay) := rfl
  have payload := members_encodes written
  have session : (tokens.sessionId bound.session).encodes = true := PyStr.encodes_ofString _
  simp [text_encodes,helloAck,payload,session]

theorem sendError_eq {env : Envelope} (fits : env.Fits reader.deepest now.value) :
    sendError (interpreter reader unicode) now env =
      if (env.text now.value).encodes then .ok () else .error .unicodeEncodeError := by
  have written : env.encode (interpreter reader unicode).writer now.value =
    .ok (env.text now.value) := @Envelope.Fits.encode reader.deepest _ _ fits
  simp only [sendError,written]
  split_ifs
  · rfl
  · rfl

theorem sendAll_all {envs : List Envelope}
    (ready : ∀ env ∈ envs, sendError (interpreter reader unicode) now env = .ok ()) :
    sendAll (interpreter reader unicode) now envs = (envs,none) := by
  induction envs with
  | nil => rfl
  | cons env rest ih =>
    simp only [List.forall_mem_cons] at ready
    rw [sendAll,ready.1,ih ready.2]

/-- All of it can be written, unless the id of the hello has a lone surrogate. -/
theorem sendAll_attachment (hello : Envelope) {bound : Binding}
    (float : reader.float (.ofString "0.6") = "0.6")
    (brief : ∀ message ∈ bound.resent, Brief message) :
    sendAll (interpreter reader unicode) now (attachment tokens hello bound) =
      if hello.id.all PyStr.encodes then (attachment tokens hello bound,none)
      else ([],some .unicodeEncodeError) := by
  have rest : sendAll (interpreter reader unicode) now (resends tokens bound) =
      (resends tokens bound,none) :=
    sendAll_all fun env among =>
      (sendError_eq (resent_fits float brief among)).trans (if_pos (resent_encodes among))
  rw [attachment,sendAll,rest,sendError_eq (helloAck_fits hello bound),helloAck_encodes]
  split_ifs
  · rfl
  · rfl

/-! ## The connection -/

/-- What the first frame of a session that cannot be answered breaks it by. -/
def firstFault (python : Python) (core : Core) (sessionId : String) (frames : List Asked) :
    Option Raised :=
  (readFrames python core frames).findSome? fun asked =>
    frameFault python sessionId (asked.incoming core)

theorem firstFault_none_iff {core : Core} {sessionId : String} {frames : List Asked} :
    firstFault python core sessionId frames = none ↔
      ∀ asked ∈ readFrames python core frames, asked.Answerable python core := by
  simp only [firstFault,List.findSome?_eq_none_iff,
    ← @plain_iff_answerable python core sessionId,plain_iff]

theorem serveSession_firstFault {core : Core} {sessionId : String} {frames : List Asked} :
    (serveSession python sessionId (frames.map (Asked.incoming core))).loop =
      match firstFault python core sessionId frames with
      | some error => .raised error
      | none =>
        if maxViolations ≤ (frames.map (Asked.incoming core)).countP (isViolation python) then
          .closed closeProtocolViolation "too many protocol violations"
        else .serving := by
  rw [serveSession_loop,upTo_map,List.findSome?_map]
  rfl

/-- The connection does not come to its end by the protocol. -/
def Connection.Breaks (connection : Connection) : Prop :=
  connection.ending = .aborted ∨ ∃ error, connection.ending = .raised error

/-- What there is to say of a connection from its frames. -/
structure Received (reader client : Reader) (unicode : PyStr.Unicode) (tokens : Tokens)
    (core : Core) (bind : Option (PyStr × PyInt) → Binding) (first : First) (frames : List Asked)
    (connection : Connection) : Prop where
  /-- A session is bound exactly to a hello whose id can be repeated. -/
  binds : connection.bound = true ↔
    ∃ hello, Greets (interpreter reader unicode) first hello ∧ hello.id.all PyStr.encodes = true
  breaks : connection.Breaks ↔ Garbled (interpreter reader unicode) first ∨
    ∃ hello, Greets (interpreter reader unicode) first hello ∧
      (hello.id.all PyStr.encodes = false ∨
        ∃ asked ∈ readFrames (interpreter reader unicode) core frames,
          ¬asked.Answerable (interpreter reader unicode) core)
  /-- An exception leaves `_handler` only if a text is not read or not written. -/
  raises : (∃ error, connection.ending = .raised error) ↔
    Garbled (interpreter reader unicode) first ∨
    ∃ hello, Greets (interpreter reader unicode) first hello ∧
      hello.id.all PyStr.encodes = true ∧ ∃ error, error ≠ .unicodeEncodeError ∧
        firstFault (interpreter reader unicode) core ((bind (resumeOf hello)).sessionId tokens)
          frames = some error
  reaches : ∀ env ∈ connection.sent, Reaches reader client unicode env
  messages : ∀ env ∈ connection.sent, ∃ message : Message, message.wire tokens = some env

/-! ### What is sent -/

variable {core : Core} {bind : Option (PyStr × PyInt) → Binding} {frames : List Asked}
  {sessionId : String}

theorem reproach_reaches (follows : Follows client reader) {sent : List Envelope}
    (reproached : Reproached sent) {env : Envelope} (among : env ∈ sent) :
    Reaches reader client unicode env := by
  rcases reproached with rfl | ⟨code,message,encodes,speaks,rfl⟩
  · cases among
  · rw [List.mem_singleton.mp among]
    refine follows.reaches (fun now => ?_) fun now => ?_
    · exact addressed_fits.mp (@reply_fits "" reader _ (by simp [errorEnvelope,validTypes])
        (errorEnvelope_bare code message none) (errorEnvelope_formed _ _ _ _)
        (errorEnvelope_fault _ _ _ _) now)
    · simp [text_encodes,errorEnvelope,Json.encodes,Json.all,Json.allMembers,encodes,speaks]

theorem reproach_message {sent : List Envelope} (reproached : Reproached sent) {env : Envelope}
    (among : env ∈ sent) : ∃ message : Message, message.wire tokens = some env := by
  rcases reproached with rfl | ⟨code,message,-,-,rfl⟩
  · cases among
  · rw [List.mem_singleton.mp among]
    exact ⟨.error code message none none,rfl⟩

theorem attachment_reaches (follows : Follows client reader) {hello env : Envelope}
    {bound : Binding} (float : reader.float (.ofString "0.6") = "0.6")
    (brief : ∀ message ∈ bound.resent, Brief message) (plain : hello.id.all PyStr.encodes = true)
    (among : env ∈ attachment tokens hello bound) : Reaches reader client unicode env := by
  rcases List.mem_cons.mp among with rfl | among
  · exact follows.reaches (fun now => helloAck_fits hello bound)
      fun now => (helloAck_encodes hello bound now.value).trans plain
  · exact follows.reaches (fun now => resent_fits float brief among)
      fun now => resent_encodes among

theorem attachment_message {hello env : Envelope} {bound : Binding}
    (plain : hello.id.all PyStr.encodes = true) (among : env ∈ attachment tokens hello bound) :
    ∃ message : Message, message.wire tokens = some env := by
  rcases List.mem_cons.mp among with rfl | among
  · obtain ⟨id,same⟩ : ∃ id : Option String, id.map PyStr.ofString = hello.id := by
      cases own : hello.id with
      | none => exact ⟨none,rfl⟩
      | some text =>
        obtain ⟨t,rfl⟩ := PyStr.exists_ofString (s := text) (by simpa [own] using plain)
        exact ⟨some t,rfl⟩
    let message : GhostRunner.Envelope :=
      { payload := .helloAck bound.session bound.resumeKey bound.replay
        id := id
        session := some bound.session }
    refine ⟨.notice message,?_⟩
    have written : message.wire tokens = some { helloAck tokens hello bound with
      id := id.map PyStr.ofString } := rfl
    rw [Message.wire,written,same]
    rfl
  · obtain ⟨own,member,rfl⟩ := List.mem_map.mp among
    obtain ⟨message,-,written⟩ := List.mem_filterMap.mp member
    obtain ⟨members,payload,rfl⟩ := Option.map_eq_some_iff.mp written
    refine ⟨.notice { message with session := some bound.session },?_⟩
    have members : ({ message with session := some bound.session } :
      GhostRunner.Envelope).payload.members tokens = some members := payload
    rw [Message.wire,GhostRunner.Envelope.wire,members]
    rfl

theorem commandReply_message (frame : Incoming) (env : Envelope) :
    ∃ message : Message, message.wire tokens =
      some (addressed sessionId (commandReply sessionId frame env)) := by
  have refused (code message : PyStr) (id : Option PyStr) :
      ∃ own : Message, own.wire tokens = some (addressed sessionId (errorEnvelope code message id)) :=
    ⟨.error code message id (some (.ofString sessionId)),rfl⟩
  simp only [commandReply]
  split
  · exact refused _ _ _
  · split
    · exact refused _ _ _
    · next id _ _ name args _ =>
      split
      · exact refused _ _ _
      · exact refused _ _ _
      · next result _ => exact ⟨.ack id result (.ofString sessionId),rfl⟩

theorem replyTo_message {frame : Incoming} {reply : Envelope}
    (found : replyTo python sessionId frame = .ok (some reply)) :
    ∃ message : Message, message.wire tokens = some (addressed sessionId reply) := by
  simp only [replyTo] at found
  split at found
  · cases found
    exact ⟨.error _ _ none (some (.ofString sessionId)),rfl⟩
  · cases found
  · cases found
  · next env _ =>
    split_ifs at found
    · cases found
      exact ⟨.pong env.id (.ofString sessionId),rfl⟩
    · cases found
    · cases found
      exact commandReply_message frame env
    · cases found
      exact ⟨.error _ _ env.id (some (.ofString sessionId)),rfl⟩

theorem session_messages {env : Envelope} {frames : List Incoming}
    (sent : env ∈ (serveSession python sessionId frames).sent) :
    ∃ message : Message, message.wire tokens = some env := by
  rcases serve_replies sent with before | ⟨frame,-,reply,found,-,rfl⟩
  · cases before
  · exact replyTo_message found

/-! ### How it ends -/

theorem Greets.only {hello other : Envelope} (greets : Greets python first hello) :
    Greets python first other ↔ other = hello :=
  ⟨fun again => again.unique greets,fun same => same ▸ greets⟩

theorem received_refused {sent : List Envelope} {code : Nat} {reason : PyStr}
    (follows : Follows client reader)
    (meets : Meets (interpreter reader unicode) first (sent,.closed code reason)) :
    Received reader client unicode tokens core bind first frames
      ⟨sent,false,.refused code reason⟩ := by
  obtain ⟨reproached,readable,stranger⟩ := meets
  exact ⟨by simp [stranger],by simp [Connection.Breaks,stranger,readable],
    by simp [stranger,readable],fun _ among => reproach_reaches follows reproached among,
    fun _ among => reproach_message reproached among⟩

theorem received_raised {sent : List Envelope} {error : Raised}
    (meets : Meets (interpreter reader unicode) first (sent,.raised error)) :
    Received reader client unicode tokens core bind first frames
      ⟨sent,false,.ofRaised error⟩ := by
  obtain ⟨rfl,garbled,readable⟩ := meets
  have ends : ∃ raised, Ending.ofRaised error = .raised raised := by
    cases error with
    | unicodeEncodeError => exact absurd rfl readable
    | valueError message => exact ⟨_,rfl⟩
    | recursionError message => exact ⟨_,rfl⟩
  have stranger : ∀ hello, ¬Greets (interpreter reader unicode) first hello :=
    fun hello greets => greets.not_garbled garbled
  exact ⟨by simp [stranger],by simp [Connection.Breaks,garbled,ends],by simp [garbled,ends],
    by simp,by simp⟩

theorem received_lone {hello : Envelope}
    (greets : Greets (interpreter reader unicode) first hello)
    (lone : hello.id.all PyStr.encodes = false) :
    Received reader client unicode tokens core bind first frames ⟨[],false,.aborted⟩ :=
  ⟨by simp [greets.only,lone],by simp [Connection.Breaks,greets.only,lone],
    by simp [greets.only,greets.not_garbled,lone],by simp,by simp⟩

theorem sessionEnding_breaks {python : Python} {sessionId : String} (sent : List Envelope)
    (bound : Bool) : (Connection.mk sent bound (sessionEnding (serveSession python sessionId
      (frames.map (Asked.incoming core))).loop)).Breaks ↔
        ∃ asked ∈ readFrames python core frames, ¬asked.Answerable python core := by
  have answerable := @firstFault_none_iff python core sessionId frames
  rw [serveSession_firstFault]
  cases fault : firstFault python core sessionId frames with
  | none =>
    have sound := answerable.mp fault
    constructor
    · intro breaks
      simp only [Connection.Breaks,sessionEnding] at breaks
      split_ifs at breaks <;> simp at breaks
    · rintro ⟨asked,member,broken⟩
      exact absurd (sound asked member) broken
  | some error =>
    rw [fault] at answerable
    have broken : ∃ asked ∈ readFrames python core frames, ¬asked.Answerable python core := by
      by_contra none
      push Not at none
      cases answerable.mpr none
    simp only [broken,iff_true]
    cases error with
    | unicodeEncodeError => exact .inl rfl
    | valueError message => exact .inr ⟨_,rfl⟩
    | recursionError message => exact .inr ⟨_,rfl⟩

theorem sessionEnding_raises {python : Python} {sessionId : String} :
    (∃ error, sessionEnding (serveSession python sessionId
      (frames.map (Asked.incoming core))).loop = .raised error) ↔
        ∃ error, error ≠ .unicodeEncodeError ∧
          firstFault python core sessionId frames = some error := by
  rw [serveSession_firstFault]
  cases firstFault python core sessionId frames with
  | none =>
    simp only [sessionEnding]
    split_ifs <;> simp
  | some error => cases error <;> simp [sessionEnding,Ending.ofRaised]

theorem received_served {hello : Envelope} (follows : Follows client reader)
    (float : reader.float (.ofString "0.6") = "0.6")
    (brief : ∀ message ∈ (bind (resumeOf hello)).resent, Brief message)
    (loaded : ∀ asked ∈ frames, Loaded reader asked.parts)
    (greets : Greets (interpreter reader unicode) first hello)
    (plain : hello.id.all PyStr.encodes = true) :
    Received reader client unicode tokens core bind first frames
      ⟨attachment tokens hello (bind (resumeOf hello)) ++
        (serveSession (interpreter reader unicode) ((bind (resumeOf hello)).sessionId tokens)
          (frames.map (Asked.incoming core))).sent,true,
        sessionEnding (serveSession (interpreter reader unicode)
          ((bind (resumeOf hello)).sessionId tokens) (frames.map (Asked.incoming core))).loop⟩ where
  binds := by simp [greets.only,plain]
  breaks := by simp [sessionEnding_breaks,greets.only,plain,greets.not_garbled]
  raises := by simp [sessionEnding_raises,greets.only,plain,greets.not_garbled]
  reaches := by
    intro env among
    rcases List.mem_append.mp among with attached | replied
    · exact attachment_reaches follows float brief plain attached
    · exact session_reaches follows loaded replied
  messages := by
    intro env among
    rcases List.mem_append.mp among with attached | replied
    · exact attachment_message plain attached
    · exact session_messages replied

/-- A connection to the orchestrator, from its first frame on. It comes to a session exactly by a
hello that accepts version 1 and has an id that can be repeated. It is broken exactly by a first
frame that the JSON parser gives up on, by such an id, or by a later frame that cannot be answered;
what is resent cannot do that. And whatever was sent is a message of the core, which the client
reads as it is. -/
theorem connection_received (reader client : Reader) (unicode : PyStr.Unicode) (tokens : Tokens)
    (core : Core) (bind : Option (PyStr × PyInt) → Binding) (now : Millis) (first : First)
    (frames : List Asked) (follows : Follows client reader)
    (float : reader.float (.ofString "0.6") = "0.6")
    (brief : ∀ resume, ∀ message ∈ (bind resume).resent, Brief message)
    (loaded : ∀ asked ∈ frames, Loaded reader asked.parts) :
    Received reader client unicode tokens core bind first frames
      (handler (interpreter reader unicode) now tokens bind first
        (frames.map (Asked.incoming core))) := by
  have meets : Meets (interpreter reader unicode) first
    (handshake (interpreter reader unicode) now first) := handshake_meets
  simp only [handler]
  generalize handshake (interpreter reader unicode) now first = shaken at meets
  obtain ⟨sent,greeting⟩ := shaken
  cases greeting with
  | closed code reason => exact received_refused follows meets
  | raised error => exact received_raised meets
  | hello hello =>
    obtain ⟨rfl,greets⟩ := meets
    by_cases plain : hello.id.all PyStr.encodes = true
    · simp only [sendAll_attachment hello float (brief _),if_pos plain,List.nil_append]
      exact received_served follows float (brief _) loaded greets plain
    · simp only [sendAll_attachment hello float (brief _),if_neg plain,List.nil_append]
      exact received_lone greets (by simpa using plain)

/-- A client says hello for the first time, and then sends a message. -/
theorem hello_received :
    Received Json.tenths Json.tenths .widest unaryTokens bareCore (fun _ => ⟨0,1,false,[]⟩)
      (.frame (.text (hello.text 0))) [chatHelloFrame]
      (handler (interpreter Json.tenths .widest) epoch unaryTokens (fun _ => ⟨0,1,false,[]⟩)
        (.frame (.text (hello.text 0))) ([chatHelloFrame].map (Asked.incoming bareCore))) ∧
    ∃ hello', Greets (interpreter Json.tenths .widest) (.frame (.text (hello.text 0))) hello' ∧
      hello'.id.all PyStr.encodes = true := by
  refine ⟨?_,hello.stamped 0,greets_frame.mpr ⟨?_,rfl,by decide⟩,rfl⟩
  · exact connection_received Json.tenths Json.tenths .widest unaryTokens bareCore _ epoch _ _
      tenths_follows rfl (by simp) (by simpa [chatHelloFrame] using bareParts_loaded)
  · exact decode_encoded Json.tenths .widest hello 0 hello_fits

end GhostRunner.Wire
