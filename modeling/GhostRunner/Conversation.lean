import GhostRunner.CommandsServed

/-! A session whose commands `handle_command` handles: what breaks it, and that its client can read
every reply. -/
namespace GhostRunner.Wire

open Json (Reader Readable)
open Commands (Core Parts Writes Loaded)

/-- One frame, with what the parts behind the orchestrator give for it. -/
structure Asked where
  raw : Raw
  parts : Parts
  now : Millis

def Asked.incoming (core : Core) (asked : Asked) : Incoming :=
  ⟨asked.raw,Commands.handleCommand core asked.parts,asked.now⟩

/-- The parser takes the frame or rejects it by a `JSONDecodeError`, and no lone surrogate stands
in an id that is to be repeated. -/
def Legible (python : Python) (raw : Raw) : Prop :=
  match decode python raw with
  | .error (.protocolError _) => True
  | .error _ => False
  | .ok env => env.type = .ofString "pong" ∨ env.id.all PyStr.encodes = true

/-- What a command asks of the parts, if it is not refused. -/
def callRequest (core : Core) (payload : Dict) : Option Commands.Request :=
  (commandCall payload).bind fun (name,args) => (Commands.request core name args).toOption

def requestOf (python : Python) (core : Core) (raw : Raw) : Option Commands.Request :=
  match decode python raw with
  | .error _ => none
  | .ok env =>
    if env.type = .ofString "command" ∧ env.id.isSome then callRequest core env.payload else none

/-- The frame is legible, and what the parts give for it can be written. -/
def Asked.Answerable (python : Python) (core : Core) (asked : Asked) : Prop :=
  Legible python asked.raw ∧
    ∀ request ∈ requestOf python core asked.raw, Writes python.writer core asked.parts request

variable {python : Python} {core : Core} {sessionId : String}

/-! ## What breaks the loop -/

theorem callRequest_iff {payload : Dict} {name : PyStr} {args : Dict}
    (call : commandCall payload = some (name,args)) (request : Commands.Request) :
    request ∈ callRequest core payload ↔ Commands.request core name args = .ok request := by
  simp only [callRequest,call,Option.bind_some,Option.mem_def]
  cases Commands.request core name args <;> simp [Except.toOption]

theorem commandPlain_iff (asked : Asked) (env : Envelope) :
    CommandPlain python sessionId (asked.incoming core) env ↔ env.id.all PyStr.encodes = true ∧
      (env.id.isSome →
        ∀ request ∈ callRequest core env.payload, Writes python.writer core asked.parts request) := by
  simp only [CommandPlain,Asked.incoming]
  cases env.id with
  | none => simp
  | some id =>
    cases call : commandCall env.payload with
    | none => simp [callRequest,call]
    | some named =>
      obtain ⟨name,args⟩ := named
      simp [callRequest_iff call,Commands.handleCommand_plain_iff]

theorem plain_iff_answerable (asked : Asked) :
    Plain python sessionId (asked.incoming core) ↔ asked.Answerable python core := by
  have raw : (asked.incoming core).raw = asked.raw := rfl
  simp only [Plain,Asked.Answerable,Legible,requestOf,raw]
  cases decode python asked.raw with
  | error error => cases error <;> simp
  | ok env =>
    by_cases pong : env.type = .ofString "pong"
    · simp [pong]
    by_cases command : env.type = .ofString "command"
    · cases id : env.id <;> simp [command,commandPlain_iff,id]
    · simp [pong,command]

theorem upTo_map {α β : Type} (f : α → β) (p : β → Bool) (n : Nat) (items : List α) :
    upTo p n (items.map f) = (upTo (fun a => p (f a)) n items).map f := by
  induction items generalizing n with
  | nil => cases n <;> rfl
  | cons a rest ih =>
    cases n with
    | zero => rfl
    | succ n => simp [upTo,ih]

/-- The frames of a session up to the third violation. -/
def readFrames (python : Python) (core : Core) (frames : List Asked) : List Asked :=
  upTo (fun asked => isViolation python (asked.incoming core)) maxViolations frames

theorem upTo_subset {α : Type} {p : α → Bool} {n : Nat} {items : List α} {a : α}
    (member : a ∈ upTo p n items) : a ∈ items := by
  induction items generalizing n with
  | nil =>
    cases n <;> cases member
  | cons b rest ih =>
    cases n with
    | zero => cases member
    | succ n =>
      rcases List.mem_cons.mp member with rfl | later
      · exact List.mem_cons_self
      · exact List.mem_cons_of_mem b (ih later)

/-- The session is broken exactly by a frame that cannot be answered. -/
theorem session_raises_iff {frames : List Asked} :
    (∃ error, (serveSession python sessionId (frames.map (Asked.incoming core))).loop =
      .raised error) ↔ ∃ asked ∈ readFrames python core frames, ¬asked.Answerable python core := by
  have loop := serveSession_loop python sessionId (frames.map (Asked.incoming core))
  simp only [← @plain_iff_answerable python core sessionId,plain_iff,readFrames]
  rw [loop,upTo_map,List.findSome?_map]
  cases found : (upTo (fun asked => isViolation python (asked.incoming core)) maxViolations
      frames).findSome? (frameFault python sessionId ∘ Asked.incoming core) with
  | some error =>
    obtain ⟨asked,member,broken⟩ := List.exists_of_findSome?_eq_some found
    simp only [Loop.raised.injEq,exists_eq',true_iff]
    have broken : frameFault python sessionId (asked.incoming core) = some error := broken
    exact ⟨asked,member,by simp [broken]⟩
  | none =>
    have sound := List.findSome?_eq_none_iff.mp found
    constructor
    · rintro ⟨error,raised⟩
      simp only at raised
      split_ifs at raised
    · rintro ⟨asked,member,broken⟩
      exact (broken (sound asked member)).elim

/-! ## What the client reads -/

/-- Whenever it is written, the client reads it as it is. -/
def Reaches (reader client : Reader) (unicode : PyStr.Unicode) (env : Envelope) : Prop :=
  ∀ now : Millis, ∃ text, env.encode reader.writer now.value = .ok text ∧ text.encodes = true ∧
    decode (interpreter client unicode) (.text text) = .ok (env.stamped now.value)

variable {reader client : Reader} {unicode : PyStr.Unicode}

theorem Follows.reaches (follows : Follows client reader) {env : Envelope}
    (fits : ∀ now : Millis, env.Fits reader.deepest now.value)
    (plain : ∀ now : Millis, (env.text now.value).encodes = true) :
    Reaches reader client unicode env := by
  intro now
  have written : env.encode reader.deepest.writer now.value = .ok (env.text now.value) :=
    (fits now).encode
  exact ⟨_,written,plain now,decode_encoded client unicode env _ (follows.fits (fits now))⟩

theorem reply_fits {reply : Envelope} (type : reply.type ∈ validTypes) (bare : Bare reply)
    (formed : Json.Formed reader.float (.obj reply.payload))
    (written : Json.fault reader.writer (reader.writer.maxDepth - 1) (.obj reply.payload) = none)
    (now : Millis) : (addressed sessionId reply).Fits reader.deepest now.value where
  type := type
  ts := by simpa [addressed,bare.ts,PyInt.Fits] using short_now now
  seq := by simp [addressed,bare.seq]
  turn := by simp [addressed,bare.turn]
  payload := Json.readable_iff.mpr ⟨formed,written⟩

theorem errorEnvelope_formed (float : PyStr → String) (code message : PyStr) (id : Option PyStr) :
    Json.Formed float (.obj (errorEnvelope code message id).payload) := by
  simp [errorEnvelope,Json.Formed,Json.FormedMembers]

theorem commandReply_formed {asked : Asked} (loaded : Loaded reader asked.parts) (env : Envelope) :
    (commandReply sessionId (asked.incoming core) env).type ∈ validTypes ∧
      Json.Formed reader.float
        (.obj (commandReply sessionId (asked.incoming core) env).payload) := by
  have refused (code message : PyStr) (id : Option PyStr) :
      (errorEnvelope code message id).type ∈ validTypes ∧
        Json.Formed reader.float (.obj (errorEnvelope code message id).payload) :=
    ⟨by simp [errorEnvelope,validTypes],errorEnvelope_formed _ _ _ _⟩
  simp only [commandReply,Asked.incoming]
  split
  · exact refused _ _ _
  · split
    · exact refused _ _ _
    · next name args _ =>
      cases answered : Commands.handleCommand core asked.parts sessionId name args with
      | protocolError error => exact refused _ _ _
      | exception => exact refused _ _ _
      | result members =>
        have formed := Commands.handleCommand_formed loaded answered
        exact ⟨by simp [validTypes],by simpa [Json.Formed,Json.FormedMembers] using formed⟩

theorem replyTo_formed {asked : Asked} {reply : Envelope} (loaded : Loaded reader asked.parts)
    (found : replyTo python sessionId (asked.incoming core) = .ok (some reply)) :
    reply.type ∈ validTypes ∧ Json.Formed reader.float (.obj reply.payload) := by
  simp only [replyTo] at found
  split at found
  · cases found
    exact ⟨by simp [errorEnvelope,validTypes],errorEnvelope_formed _ _ _ _⟩
  · cases found
  · cases found
  · split_ifs at found
    · cases found
      exact ⟨by simp [validTypes],by simp [Json.Formed,Json.FormedMembers]⟩
    · cases found
    · cases found
      exact commandReply_formed loaded _
    · cases found
      exact ⟨by simp [errorEnvelope,validTypes],errorEnvelope_formed _ _ _ _⟩

/-- The envelope is a reply to a frame, and could be sent. -/
def IsReply (python : Python) (sessionId : String) (frames : List Incoming) (env : Envelope) :
    Prop :=
  ∃ frame ∈ frames, ∃ reply, replyTo python sessionId frame = .ok (some reply) ∧
    unsent python reply = none ∧ env = addressed sessionId reply

theorem receive_replies {s : State} {frame : Incoming} {env : Envelope}
    (sent : env ∈ (receive python sessionId s frame).sent) :
    env ∈ s.sent ∨ IsReply python sessionId [frame] env := by
  simp only [receive] at sent
  split at sent
  · rw [serveFrame_eq] at sent
    cases found : replyTo python sessionId frame with
    | error error => exact .inl (by simpa [found] using sent)
    | ok reply =>
      cases reply with
      | none => exact .inl (by simpa [found] using sent)
      | some reply =>
        cases ready : unsent python reply with
        | some error => exact .inl (by simpa [found,answer,ready] using sent)
        | none =>
          simp only [found,answer,ready,after,List.mem_append,List.mem_singleton] at sent
          exact sent.imp_right fun same => ⟨frame,by simp,reply,found,ready,same⟩
  · exact .inl sent

/-- Nothing but replies is sent. -/
theorem serve_replies {frames : List Incoming} {s : State} {env : Envelope}
    (sent : env ∈ (frames.foldl (receive python sessionId) s).sent) :
    env ∈ s.sent ∨ IsReply python sessionId frames env := by
  induction frames generalizing s with
  | nil => exact .inl sent
  | cons frame rest ih =>
    rcases ih sent with before | ⟨other,member,rest⟩
    · rcases receive_replies before with before | ⟨own,member,rest⟩
      · exact .inl before
      · rw [List.mem_singleton] at member
        exact .inr ⟨own,by simp [member],rest⟩
    · exact .inr ⟨other,by simp [member],rest⟩

/-- The client reads what was sent. -/
theorem session_reaches {frames : List Asked} (follows : Follows client reader)
    (loaded : ∀ asked ∈ frames, Loaded reader asked.parts) {env : Envelope}
    (sent : env ∈ (serveSession (interpreter reader unicode) sessionId
      (frames.map (Asked.incoming core))).sent) : Reaches reader client unicode env := by
  rcases serve_replies sent with before | ⟨frame,member,reply,found,ready,rfl⟩
  · cases before
  · obtain ⟨asked,among,rfl⟩ := List.mem_map.mp member
    obtain ⟨type,formed⟩ := replyTo_formed (loaded asked among) found
    obtain ⟨written,plain⟩ := unsent_none_iff.mp ready
    exact follows.reaches (reply_fits type (replyTo_bare found) formed written)
      fun now => by rw [addressed_encodes,plain]

/-- A session whose commands go to the orchestrator. It is ended by an exception exactly if one of
the frames that it reads cannot be answered: the parser gives up on it, an id that is to be repeated
has a lone surrogate, or what the parts give for its command cannot be written; no refusal does
that. And whatever was sent in it, the client reads as it is. -/
theorem commands_answered (reader : Reader) (unicode : PyStr.Unicode) (core : Core)
    (sessionId : String) (frames : List Asked) :
    ((∃ error, (serveSession (interpreter reader unicode) sessionId
        (frames.map (Asked.incoming core))).loop = .raised error) ↔
      ∃ asked ∈ readFrames (interpreter reader unicode) core frames,
        ¬asked.Answerable (interpreter reader unicode) core) ∧
    ∀ client, Follows client reader → (∀ asked ∈ frames, Loaded reader asked.parts) →
      ∀ env ∈ (serveSession (interpreter reader unicode) sessionId
        (frames.map (Asked.incoming core))).sent, Reaches reader client unicode env :=
  ⟨session_raises_iff,fun _ follows loaded _ sent => session_reaches follows loaded sent⟩

/-! ## A user says hello -/

/-- A core that has neither speech nor skills. -/
def bareCore : Core := ⟨.widest,false,none⟩

/-- Every turn that begins is the first. -/
def bareParts : Parts where
  begin_ _ := some 1
  cancel _ := .cancelled false
  sync _ := some false
  infer _ := .failed
  run _ _ := .failed

def chatHello : Envelope where
  type := .ofString "command"
  id := some (.ofString "c1")
  ts := some (.int 0)
  payload := [(.ofString "name",.str (.ofString "chat.send")),
    (.ofString "args",.obj [(.ofString "text",.str (.ofString "hello"))])]

def chatHelloFrame : Asked := ⟨.text (chatHello.text 0),bareParts,epoch⟩

theorem chatHello_fits : chatHello.Fits Json.tenths 0 := by
  refine ⟨by simp [chatHello,validTypes],Nat.le_of_ble_eq_true rfl,by simp [chatHello],
    by simp [chatHello],?_⟩
  exact ⟨by simp [chatHello],by simp [chatHello,Readable]⟩

theorem chatHello_answerable :
    chatHelloFrame.Answerable (interpreter Json.tenths .widest) bareCore := by
  have decoded : decode (interpreter Json.tenths .widest) chatHelloFrame.raw =
      .ok (chatHello.stamped 0) := decode_encoded Json.tenths .widest chatHello 0 chatHello_fits
  have asks : requestOf (interpreter Json.tenths .widest) bareCore chatHelloFrame.raw =
      some (.chatSend (.ofString "hello")) := by
    rw [requestOf,decoded]
    rfl
  constructor
  · rw [Legible,decoded]
    exact .inr (by simp [Envelope.stamped,chatHello])
  · rw [asks]
    rintro request ⟨⟩ turn begun
    cases begun
    exact Nat.le_of_ble_eq_true rfl

theorem tenths_follows : Follows Json.tenths Json.tenths := ⟨rfl,Nat.le_refl _,Nat.le_refl _⟩

theorem bareParts_loaded : Loaded Json.tenths bareParts := fun _ _ _ ran => by cases ran

theorem chatHello_answered :
    (¬∃ error, (serveSession (interpreter Json.tenths .widest) "s-1"
      ([chatHelloFrame].map (Asked.incoming bareCore))).loop = .raised error) ∧
    ∀ env ∈ (serveSession (interpreter Json.tenths .widest) "s-1"
      ([chatHelloFrame].map (Asked.incoming bareCore))).sent,
      Reaches Json.tenths Json.tenths .widest env := by
  obtain ⟨raises,reaches⟩ := commands_answered Json.tenths .widest bareCore "s-1" [chatHelloFrame]
  refine ⟨?_,reaches Json.tenths tenths_follows (by simpa [chatHelloFrame] using bareParts_loaded)⟩
  rw [raises]
  rintro ⟨asked,member,broken⟩
  obtain rfl := List.mem_singleton.mp (upTo_subset member)
  exact broken chatHello_answerable

end GhostRunner.Wire
