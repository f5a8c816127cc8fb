import GhostRunner.Envelope
import GhostRunner.WireRoundTrip

/-! The messages of the core as they go out on the wire: the payloads that the constructor calls
in `orchestrator.py`, `tts_pipeline.py` and `ws_server.py` write out, and the replies to frames. -/
namespace GhostRunner

open Wire (Dict)

/-- The texts that `secrets` makes. -/
structure Tokens where
  text : Nat → String
  injective : Function.Injective text

namespace Tokens
variable (tokens : Tokens)

def sessionId (S : Nat) : PyStr := .ofString ("s-" ++ tokens.text S)
def resumeKey (key : Nat) : PyStr := .ofString (tokens.text key)

theorem sessionId_inj {S S' : Nat} : tokens.sessionId S = tokens.sessionId S' ↔ S = S' := by
  constructor
  · intro same
    have texts : tokens.text S = tokens.text S' := by
      simpa [sessionId] using same
    exact tokens.injective texts
  · rintro rfl; rfl

theorem resumeKey_inj {key key' : Nat} :
    tokens.resumeKey key = tokens.resumeKey key' ↔ key = key' := by
  simp [resumeKey,tokens.injective.eq_iff]

end Tokens

def MsgType.name : MsgType → String
  | .hello => "hello" | .helloAck => "hello_ack"
  | .state => "state" | .turn => "turn" | .token => "token"
  | .asrPartial => "asr_partial" | .audioMeta => "audio_meta"
  | .command => "command" | .ack => "ack" | .error => "error"
  | .ping => "ping" | .pong => "pong"
  | .perceptionStatus => "perception.status"
  | .suggestion => "suggestion" | .elicitation => "elicitation"

def Mascot.name : Mascot → String
  | .idle => "IDLE" | .thinking => "THINKING" | .responding => "RESPONDING"
  | .success => "SUCCESS" | .error => "ERROR"

def TurnEvent.name : TurnEvent → String
  | .started => "started" | .cancelled => "cancelled" | .done => "done"

def Origin.name : Origin → String
  | .balloon => "balloon" | .voice => "voice" | .proactive => "proactive" | .tool => "tool"

def defaultConfidence : Json := .float "0.6"
def maxBinFrame : Nat := 262144

def str (s : String) : Json := .str (.ofString s)
def nat (n : Nat) : Json := .int n

/-- A dict whose keys are written out. -/
def object (members : List (String × Json)) : Dict :=
  members.map fun (key,value) => (.ofString key,value)

def Snapshot.members (snapshot : Snapshot) : Dict :=
  object [("seq_base",nat snapshot.seqBase),("text",str snapshot.text)]

/-- The payload of a `hello_ack`. -/
def helloAckMembers (session resumeKey : PyStr) (replay : Bool) : Dict := object [
  ("session",.str session),("v",nat 1),("resume_key",.str resumeKey),("replay",.bool replay),
  ("caps",.obj (object [("consent",.bool true)])),
  ("emits",.arr (["state","turn","token","audio_meta"].map str)),
  ("viseme_scheme",str "none"),
  ("limits",.obj (object [("max_bin_frame",nat maxBinFrame)])),
  ("rev",.obj (object [("perception",nat 0),("settings",nat 0)]))]

variable (tokens : Tokens)

/-- The payload, but for the types that only replies have, and those that the core never sends. -/
def Payload.members : Payload → Option Dict
  | .state mascot message attention => some (object [("state",str mascot.name),
      ("confidence",defaultConfidence),("attention",.int attention),("target",.null),
      ("message",str message)])
  | .turn event origin ownerSession reason => some (object [("event",str event.name),
      ("origin",str origin.name),("owner_session",.str (tokens.sessionId ownerSession))] ++
      reason.toList.map fun reason => (.ofString "reason",str reason))
  | .token stream seq delta done finish snapshot => some (object [("stream",str stream),
      ("seq",nat seq),("delta",str delta),("done",.bool done)] ++
      (finish.toList.map fun finish => (.ofString "finish",str finish)) ++
      snapshot.toList.map fun snapshot => (.ofString "snapshot",.obj snapshot.members))
  | .audioMeta stream sampleRate last => some (object [("stream",nat stream),
      ("codec",str "pcm_s16le"),("sample_rate",nat sampleRate),("channels",nat 1),
      ("last",.bool last)])
  | .helloAck session resumeKey replay =>
    some (helloAckMembers (tokens.sessionId session) (tokens.resumeKey resumeKey) replay)
  | .other _ _ => none

/-- The envelope whose fields are texts and numbers. -/
def Envelope.wire (env : Envelope) : Option Wire.Envelope :=
  (env.payload.members tokens).map fun payload => {
    type := .ofString env.type.name
    payload := payload
    id := env.id.map .ofString
    seq := env.seq.map fun n : Nat => .int n
    turn := env.turn.map fun n : Nat => .int n
    session := env.session.map tokens.sessionId
    ts := env.ts.map .int }

/-- The numbers that stand in a payload. -/
def Payload.numbers : Payload → List Int
  | .state _ _ attention => [attention]
  | .token _ seq _ _ _ snapshot => seq :: (snapshot.map fun s => (s.seqBase : Int)).toList
  | .audioMeta stream sampleRate _ => [stream,sampleRate]
  | .helloAck .. => [maxBinFrame]
  | _ => []

def Envelope.numbers (env : Envelope) (now : Int) : List Int :=
  env.payload.numbers ++ (env.seq.map fun n => (n : Int)).toList ++
    (env.turn.map fun n => (n : Int)).toList ++ [env.ts.getD now]

/-- The envelope with the time that it gets when it is sent. -/
def Envelope.stamped (env : Envelope) (now : Int) : Envelope :=
  { env with ts := some (env.ts.getD now) }

/-! ## A message says all that it was made of -/

theorem Mascot.name_injective : Function.Injective Mascot.name := by
  intro a b; cases a <;> cases b <;> simp [Mascot.name]

theorem TurnEvent.name_injective : Function.Injective TurnEvent.name := by
  intro a b; cases a <;> cases b <;> simp [TurnEvent.name]

theorem Origin.name_injective : Function.Injective Origin.name := by
  intro a b; cases a <;> cases b <;> simp [Origin.name]

@[simp] theorem str_inj {s t : String} : str s = str t ↔ s = t := by simp [str]

@[simp] theorem nat_inj {n m : Nat} : nat n = nat m ↔ n = m := by
  simp only [nat,Json.int.injEq,Int.ofNat_inj]

theorem str_injective : Function.Injective str := fun _ _ same => str_inj.mp same

theorem Snapshot.members_injective : Function.Injective Snapshot.members := by
  rintro ⟨base,text⟩ ⟨base',text'⟩ same
  simpa [Snapshot.members,object] using same

theorem snapshot_injective :
    Function.Injective fun snapshot : Snapshot => Json.obj snapshot.members := by
  intro a b same
  exact Snapshot.members_injective (Json.obj.inj same)

/-- Payloads of one type that are written alike are the same. -/
theorem Payload.members_injective {p q : Payload} {members : Dict}
    (first : p.members tokens = some members) (second : q.members tokens = some members)
    (type : p.type.name = q.type.name) : p = q := by
  have field (key : String) : (p.members tokens).bind (fun d => d.get key) =
      (q.members tokens).bind (fun d => d.get key) := by rw [first,second]
  cases p with
  | state mascot message attention =>
    cases q <;> simp only [Payload.type,MsgType.name,String.reduceEq] at type
    · have mascots := field "state"
      have messages := field "message"
      have attentions := field "attention"
      simp [Payload.members,object] at mascots messages attentions
      rw [Mascot.name_injective mascots,messages,attentions]
    · cases second
  | turn event origin owner reason =>
    cases q <;> simp only [Payload.type,MsgType.name,String.reduceEq] at type
    · have reasons := field "reason"
      have events := field "event"
      have origins := field "origin"
      have owners := field "owner_session"
      simp [Payload.members,object,tokens.sessionId_inj] at reasons events origins owners
      rw [TurnEvent.name_injective events,Origin.name_injective origins,owners,
        Option.map_injective str_injective reasons]
    · cases second
  | token stream seq delta done finish snapshot =>
    cases q <;> simp only [Payload.type,MsgType.name,String.reduceEq] at type
    · have streams := field "stream"
      have seqs := field "seq"
      have deltas := field "delta"
      have dones := field "done"
      have finishes := field "finish"
      have snapshots := field "snapshot"
      simp [Payload.members,object] at streams seqs deltas dones finishes snapshots
      rw [streams,seqs,deltas,dones,Option.map_injective str_injective finishes,
        Option.map_injective snapshot_injective snapshots]
    · cases second
  | audioMeta stream rate last =>
    cases q <;> simp only [Payload.type,MsgType.name,String.reduceEq] at type
    · have streams := field "stream"
      have rates := field "sample_rate"
      have lasts := field "last"
      simp [Payload.members,object] at streams rates lasts
      rw [streams,rates,lasts]
    · cases second
  | helloAck session key replay =>
    cases q <;> simp only [Payload.type,MsgType.name,String.reduceEq] at type
    · have sessions := field "session"
      have keys := field "resume_key"
      have replays := field "replay"
      simp [Payload.members,helloAckMembers,object,tokens.sessionId_inj,
        tokens.resumeKey_inj] at sessions keys replays
      rw [sessions,keys,replays]
    · cases second
  | other type body => cases first

theorem Envelope.wire_injective {env env' : Envelope} {w w' : Wire.Envelope} {now : Int}
    (first : env.wire tokens = some w) (second : env'.wire tokens = some w')
    (same : w.stamped now = w'.stamped now) : env.stamped now = env'.stamped now := by
  obtain ⟨members,payload,rfl⟩ := Option.map_eq_some_iff.mp first
  obtain ⟨members',payload',rfl⟩ := Option.map_eq_some_iff.mp second
  simp only [Wire.Envelope.stamped,Wire.Envelope.mk.injEq,PyStr.ofString_inj] at same
  obtain ⟨type,rfl,id,seq,turn,session,ts⟩ := same
  have ids := Option.map_injective PyStr.ofString_injective id
  have numbers : Function.Injective fun n : Nat => Wire.PyInt.int n := by
    intro a b eq
    exact Int.ofNat_inj.mp (Wire.PyInt.int.inj eq)
  have sessions := Option.map_injective (fun a b eq => tokens.sessionId_inj.mp eq) session
  have times : env.ts.getD now = env'.ts.getD now := by
    simpa only [Option.getD_map,Option.some.injEq,Wire.PyInt.int.injEq] using ts
  have payloads := Payload.members_injective tokens payload payload' type
  obtain ⟨_,_,_,_,_,_⟩ := env
  obtain ⟨_,_,_,_,_,_⟩ := env'
  simp only [stamped,mk.injEq]
  exact ⟨payloads,ids,Option.map_injective numbers seq,Option.map_injective numbers turn,sessions,
    congrArg some times⟩

/-! ## A message can be read -/

open Json (Reader Readable)
open Wire (Short)

variable {tokens} {reader : Reader}

theorem nat_readable {n : Nat} (short : Short reader n) (depth : Nat) :
    Readable reader depth (nat n) := by
  simpa [Readable,nat,Short] using short

theorem str_readable (s : String) (depth : Nat) : Readable reader depth (str s) := by
  simp [Readable,str]

theorem zero_short : Short reader (0 : Nat) := Wire.short_of_le (by decide)
theorem one_short : Short reader (1 : Nat) := Wire.short_of_le (by decide)

theorem Snapshot.members_readable {snapshot : Snapshot} (depth : Nat)
    (short : Short reader snapshot.seqBase) :
    Readable reader (depth + 1) (.obj snapshot.members) := by
  refine ⟨by simp [Snapshot.members,object],?_⟩
  simp only [Snapshot.members,object,List.map_cons,List.map_nil,List.forall_mem_cons]
  exact ⟨nat_readable short depth,str_readable _ depth,by simp⟩

theorem helloAckMembers_readable (frames : Short reader maxBinFrame) (session resumeKey : PyStr)
    (replay : Bool) (depth : Nat) :
    Readable reader (depth + 2) (.obj (helloAckMembers session resumeKey replay)) := by
  refine ⟨by simp [helloAckMembers,object],?_⟩
  simp only [helloAckMembers,object,List.map_cons,List.map_nil,List.forall_mem_cons]
  refine ⟨by simp [Readable],nat_readable one_short _,by simp [Readable],by simp [Readable],
    ⟨by simp,?_⟩,?_,str_readable _ _,⟨by simp,?_⟩,⟨by simp,?_⟩,by simp⟩
  · simp [Readable]
  · simp [Readable,str]
  · simpa using nat_readable frames depth
  · simpa using nat_readable zero_short depth

/-- What the core writes into a payload can be read, three levels deep at most. -/
theorem Payload.members_readable {payload : Payload} {members : Dict} (depth : Nat)
    (written : payload.members tokens = some members)
    (float : reader.float (.ofString "0.6") = "0.6")
    (short : ∀ n ∈ payload.numbers, Short reader n) :
    Readable reader (depth + 2) (.obj members) := by
  cases payload with
  | state mascot message attention =>
    cases written
    refine ⟨by simp [object],?_⟩
    simp only [object,List.map_cons,List.map_nil,List.forall_mem_cons]
    have number : Short reader attention := short attention (by simp [Payload.numbers])
    exact ⟨str_readable _ _,by simpa [Readable,defaultConfidence] using Json.repr_tenth float,
      by simpa [Readable,Short] using number,by simp [Readable],str_readable _ _,by simp⟩
  | turn event origin owner reason =>
    cases written
    refine ⟨?_,?_⟩
    · cases reason <;> simp [object]
    · simp only [object,List.map_cons,List.map_nil,List.forall_mem_append,List.forall_mem_cons]
      refine ⟨⟨str_readable _ _,str_readable _ _,by simp [Readable],by simp⟩,?_⟩
      intro member among
      obtain ⟨text,-,rfl⟩ := List.mem_map.mp among
      exact str_readable _ _
  | token stream seq delta done finish snapshot =>
    cases written
    refine ⟨?_,?_⟩
    · cases finish <;> cases snapshot <;> simp [object]
    · simp only [object,List.map_cons,List.map_nil,List.forall_mem_append,List.forall_mem_cons]
      have number : Short reader seq := short seq (by simp [Payload.numbers])
      refine ⟨⟨⟨str_readable _ _,nat_readable number _,str_readable _ _,by simp [Readable],by simp⟩,
        ?_⟩,?_⟩
      · intro member among
        obtain ⟨text,-,rfl⟩ := List.mem_map.mp among
        exact str_readable _ _
      · intro member among
        obtain ⟨taken,here,rfl⟩ := List.mem_map.mp among
        have base : Short reader taken.seqBase := by
          apply short
          have own : snapshot = some taken := Option.mem_toList.mp here
          simp [Payload.numbers,own]
        exact Snapshot.members_readable depth base
  | audioMeta stream rate last =>
    cases written
    refine ⟨by simp [object],?_⟩
    simp only [object,List.map_cons,List.map_nil,List.forall_mem_cons]
    have streams : Short reader stream := short stream (by simp [Payload.numbers])
    have rates : Short reader rate := short rate (by simp [Payload.numbers])
    exact ⟨nat_readable streams _,str_readable _ _,nat_readable rates _,nat_readable one_short _,
      by simp [Readable],by simp⟩
  | helloAck session key replay =>
    cases written
    exact helloAckMembers_readable (short maxBinFrame (by simp [Payload.numbers])) _ _ _ depth
  | other type body => cases written

theorem Payload.written_type {payload : Payload} {members : Dict}
    (written : payload.members tokens = some members) :
    .ofString payload.type.name ∈ Wire.validTypes := by
  cases payload with
  | other type body => cases written
  | _ => simp [Payload.type,MsgType.name,Wire.validTypes]

/-- Every message of the core is an envelope of the protocol. -/
theorem Envelope.wire_fits {env : Envelope} {w : Wire.Envelope} {now : Int}
    (written : env.wire tokens = some w) (deep : 3 ≤ reader.maxDepth)
    (float : reader.float (.ofString "0.6") = "0.6")
    (short : ∀ n ∈ env.numbers now, Short reader n) : w.Fits reader now := by
  obtain ⟨members,payload,rfl⟩ := Option.map_eq_some_iff.mp written
  obtain ⟨depth,bound⟩ : ∃ depth, reader.maxDepth - 1 = depth + 2 := ⟨reader.maxDepth - 3,by omega⟩
  refine ⟨Payload.written_type payload,?_,?_,?_,?_⟩
  · have stamp : (env.ts.map Wire.PyInt.int).getD (.int now) = .int (env.ts.getD now) :=
      Option.getD_map ..
    rw [stamp]
    exact short _ (by simp [Envelope.numbers])
  · intro n member
    obtain ⟨seq,own,rfl⟩ := Option.map_eq_some_iff.mp member
    exact short seq (by simp [Envelope.numbers,own])
  · intro n member
    obtain ⟨turn,own,rfl⟩ := Option.map_eq_some_iff.mp member
    exact short turn (by simp [Envelope.numbers,own])
  · rw [bound]
    exact Payload.members_readable depth payload float fun n member =>
      short n (by simp [Envelope.numbers,member])

/-- The time of sending aside, a message has one text. -/
theorem Envelope.wire_stamped {env env' : Envelope} {w w' : Wire.Envelope} {now : Int}
    (first : env.wire tokens = some w) (second : env'.wire tokens = some w')
    (same : env.stamped now = env'.stamped now) : w.text now = w'.text now := by
  obtain ⟨members,payload,rfl⟩ := Option.map_eq_some_iff.mp first
  obtain ⟨members',payload',rfl⟩ := Option.map_eq_some_iff.mp second
  obtain ⟨p,id,seq,turn,session,ts⟩ := env
  obtain ⟨p',id',seq',turn',session',ts'⟩ := env'
  simp only [stamped,mk.injEq,Option.some.injEq] at same
  obtain ⟨rfl,rfl,rfl,rfl,rfl,times⟩ := same
  cases payload.symm.trans payload'
  have stamp (t : Option Int) : (t.map Wire.PyInt.int).getD (.int now) = .int (t.getD now) :=
    Option.getD_map ..
  simp only [Wire.Envelope.text,Wire.Envelope.members,stamp,times,Envelope.type]

/-! ## All that is sent -/

/-- What the core sends: its notices, and the replies to frames. Only an error of the handshake has
no session. -/
inductive Message where
  | notice (env : Envelope)
  | pong (id : Option PyStr) (session : PyStr)
  | ack (id : PyStr) (result : Dict) (session : PyStr)
  | error (code message : PyStr) (id session : Option PyStr)

namespace Message

def wire (tokens : Tokens) : Message → Option Wire.Envelope
  | .notice env => env.wire tokens
  | .pong id session => some { type := .ofString "pong", id := id, session := some session }
  | .ack id result session =>
    some { type := .ofString "ack", id := some id, session := some session,
           payload := [(.ofString "ok",.bool true),(.ofString "result",.obj result)] }
  | .error code message id session =>
    some { Wire.errorEnvelope code message id with session := session }

/-- A reply always gets the time at which it is sent. -/
def stamped (now : Int) : Message → Message
  | .notice env => .notice (env.stamped now)
  | reply => reply

/-- Its numbers are not too long, and a result is not nested too deep, to be read. -/
def Fits (reader : Reader) (now : Int) : Message → Prop
  | .notice env => ∀ n ∈ env.numbers now, Short reader n
  | .ack _ result _ => Readable reader (reader.maxDepth - 2) (.obj result)
  | .pong _ _ | .error _ _ _ _ => True

theorem wire_fits {message : Message} {w : Wire.Envelope} {now : Int}
    (written : message.wire tokens = some w) (deep : 3 ≤ reader.maxDepth)
    (float : reader.float (.ofString "0.6") = "0.6") (short : Short reader now)
    (fits : message.Fits reader now) : w.Fits reader now := by
  obtain ⟨depth,bound⟩ : ∃ depth, reader.maxDepth - 1 = depth + 2 := ⟨reader.maxDepth - 3,by omega⟩
  cases message with
  | notice env => exact Envelope.wire_fits written deep float fits
  | pong id session =>
    cases written
    refine ⟨by simp [Wire.validTypes],short,by simp,by simp,?_⟩
    rw [bound]
    simp [Readable]
  | ack id result session =>
    cases written
    refine ⟨by simp [Wire.validTypes],short,by simp,by simp,?_⟩
    have below : reader.maxDepth - 2 = depth + 1 := by omega
    have inner : Readable reader (depth + 1) (.obj result) := below ▸ fits
    rw [bound]
    refine ⟨by simp,?_⟩
    simp only [List.forall_mem_cons]
    exact ⟨by simp [Readable],inner,by simp⟩
  | error code message id session =>
    cases written
    refine ⟨by simp [Wire.errorEnvelope,Wire.validTypes],short,by simp [Wire.errorEnvelope],
      by simp [Wire.errorEnvelope],?_⟩
    rw [bound]
    simp [Wire.errorEnvelope,Readable]

/-- A notice is not of a type that only replies have. -/
theorem notice_type {env : Envelope} {w : Wire.Envelope} (written : env.wire tokens = some w) :
    w.type ≠ .ofString "pong" ∧ w.type ≠ .ofString "ack" ∧ w.type ≠ .ofString "error" := by
  obtain ⟨members,payload,rfl⟩ := Option.map_eq_some_iff.mp written
  cases kind : env.payload with
  | other type body =>
    rw [kind] at payload
    cases payload
  | _ => simp [Envelope.type,kind,Payload.type,MsgType.name]

theorem wire_injective {message other : Message} {w w' : Wire.Envelope} {now : Int}
    (first : message.wire tokens = some w) (second : other.wire tokens = some w')
    (same : w.stamped now = w'.stamped now) : message.stamped now = other.stamped now := by
  have types : (w.stamped now).type = (w'.stamped now).type := by rw [same]
  simp only [Wire.Envelope.stamped] at types
  cases message with
  | notice env =>
    obtain ⟨noPong,noAck,noError⟩ := notice_type first
    rw [types] at noPong noAck noError
    cases other with
    | notice env' => exact congrArg notice (Envelope.wire_injective tokens first second same)
    | pong id session => cases second; exact absurd rfl noPong
    | ack id result session => cases second; exact absurd rfl noAck
    | error code message id session => cases second; exact absurd rfl noError
  | pong id session =>
    cases first
    cases other with
    | notice env => exact absurd types.symm (notice_type second).1
    | pong id session =>
      cases second
      simp [Wire.Envelope.stamped] at same
      obtain ⟨rfl,rfl⟩ := same
      rfl
    | ack id result session => cases second; simp at types
    | error code message id session => cases second; simp [Wire.errorEnvelope] at types
  | ack id result session =>
    cases first
    cases other with
    | notice env => exact absurd types.symm (notice_type second).2.1
    | pong id session => cases second; simp at types
    | ack id result session =>
      cases second
      simp [Wire.Envelope.stamped] at same
      obtain ⟨rfl,rfl,rfl⟩ := same
      rfl
    | error code message id session => cases second; simp [Wire.errorEnvelope] at types
  | error code text id session =>
    cases first
    cases other with
    | notice env => exact absurd types.symm (notice_type second).2.2
    | pong id session => cases second; simp [Wire.errorEnvelope] at types
    | ack id result session => cases second; simp [Wire.errorEnvelope] at types
    | error code text id session =>
      cases second
      simp [Wire.Envelope.stamped,Wire.errorEnvelope] at same
      obtain ⟨⟨rfl,rfl⟩,rfl,rfl⟩ := same
      rfl

theorem wire_stamped {message other : Message} {w w' : Wire.Envelope} {now : Int}
    (first : message.wire tokens = some w) (second : other.wire tokens = some w')
    (same : message.stamped now = other.stamped now) : w.text now = w'.text now := by
  cases message <;> cases other <;> simp only [stamped,reduceCtorEq] at same
  · exact Envelope.wire_stamped first second (notice.inj same)
  · cases same
    rw [Option.some.inj (first.symm.trans second)]
  · cases same
    rw [Option.some.inj (first.symm.trans second)]
  · cases same
    rw [Option.some.inj (first.symm.trans second)]

end Message

/-- A client that reads what the core writes learns which message it was. -/
theorem messages_told_apart (reader : Reader) (unicode : PyStr.Unicode) (tokens : Tokens)
    (now : Int) (message other : Message) (w w' : Wire.Envelope)
    (float : reader.float (.ofString "0.6") = "0.6") (deep : 3 ≤ reader.maxDepth)
    (short : Short reader now) (written : message.wire tokens = some w)
    (fits : message.Fits reader now) (written' : other.wire tokens = some w')
    (fits' : other.Fits reader now) :
    w.encode reader.writer now = .ok (w.text now) ∧
      Wire.decode (Wire.interpreter reader unicode) (.text (w.text now)) = .ok (w.stamped now) ∧
      (w.text now = w'.text now ↔ message.stamped now = other.stamped now) := by
  have room := Message.wire_fits written deep float short fits
  have read := Wire.decode_encoded reader unicode w now room
  have read' := Wire.decode_encoded reader unicode w' now
    (Message.wire_fits written' deep float short fits')
  refine ⟨room.encode,read,fun same => ?_,Message.wire_stamped written written'⟩
  rw [same,read'] at read
  exact Message.wire_injective written written' (Except.ok.inj read.symm)

/-- Tokens that are told apart by their lengths. -/
def unaryTokens : Tokens where
  text := fun n => String.ofList (List.replicate n 'a')
  injective := by
    intro n m same
    simpa using congrArg List.length (String.ofList_injective same)

def stateMessage (mascot : Mascot) : Envelope := { payload := .state mascot "" 0 }

theorem idle_told_from_thinking :
    ∃ w w', (Message.notice (stateMessage .idle)).wire unaryTokens = some w ∧
      (Message.notice (stateMessage .thinking)).wire unaryTokens = some w' ∧
      Wire.decode (Wire.interpreter Json.tenths .widest) (.text (w.text 0)) =
        .ok (w.stamped 0) ∧ w.text 0 ≠ w'.text 0 := by
  have zero : Short Json.tenths 0 := Nat.le_of_ble_eq_true rfl
  have fits (mascot : Mascot) : (Message.notice (stateMessage mascot)).Fits Json.tenths 0 := by
    simpa [Message.Fits,stateMessage,Envelope.numbers,Payload.numbers] using zero
  obtain ⟨-,read,apart⟩ := messages_told_apart Json.tenths .widest unaryTokens 0
    (.notice (stateMessage .idle)) (.notice (stateMessage .thinking)) _ _ rfl (by decide) zero rfl
    (fits _) rfl (fits _)
  refine ⟨_,_,rfl,rfl,read,fun same => ?_⟩
  have equal := apart.mp same
  simp [Message.stamped,stateMessage,Envelope.stamped] at equal

end GhostRunner
