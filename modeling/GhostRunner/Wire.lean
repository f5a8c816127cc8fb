import GhostRunner.Json

/-! Envelopes as they stand on the wire (`envelope.py`), with the values that `decode` takes
over unread. -/
namespace GhostRunner.Wire

def protocolVersion : Int := 1

def validTypes : List PyStr :=
  ["hello","hello_ack","state","turn","token","asr_partial","audio_meta","command","ack","error",
    "ping","pong"].map .ofString

def eBadEnvelope : String := "bad_envelope"
def eUnsupportedVersion : String := "unsupported_version"
def eInternal : String := "internal"

abbrev Dict := List (PyStr × Json)

/-- `dict.get` -/
def Dict.get (members : Dict) (key : String) : Option Json := members.lookup (.ofString key)

/-- An `int` in the sense of `isinstance`, which a `bool` is too. -/
inductive PyInt where
  | int (n : Int)
  | bool (b : Bool)
  deriving DecidableEq, Repr

def PyInt.json : PyInt → Json
  | .int n => .int n
  | .bool b => .bool b

structure Envelope where
  type : PyStr
  payload : Dict := []
  id : Option PyStr := none
  seq : Option PyInt := none
  turn : Option PyInt := none
  session : Option PyStr := none
  ts : Option PyInt := none

structure ProtocolError where
  code : PyStr
  message : PyStr

/-- What goes out of `decode`. -/
inductive DecodeError where
  | protocolError (error : ProtocolError)
  | valueError (message : String)
  | recursionError (message : String)

/-! ## `Envelope.encode` -/

/-- `now_ms`: the whole part of a float, which has at most 309 digits. -/
structure Millis where
  value : Int
  short : (toString value.natAbs).length ≤ 309

def epoch : Millis := ⟨0,by decide⟩

/-- The members of the object that is dumped, at the time `now`. -/
def Envelope.members (env : Envelope) (now : Int) : Dict :=
  [(.ofString "v",.int protocolVersion),(.ofString "type",.str env.type),
    (.ofString "ts",(env.ts.getD (.int now)).json)] ++
  env.id.toList.map (fun id => (.ofString "id",.str id)) ++
  env.seq.toList.map (fun seq => (.ofString "seq",seq.json)) ++
  env.session.toList.map (fun session => (.ofString "session",.str session)) ++
  env.turn.toList.map (fun turn => (.ofString "turn",turn.json)) ++
  [(.ofString "payload",.obj env.payload)]

def Envelope.encode (writer : Json.Writer) (env : Envelope) (now : Int) :
    Except Json.DumpsError PyStr :=
  writer.dumps Json.compact (.obj (env.members now))

/-- The text that is written, where nothing is raised. -/
def Envelope.text (env : Envelope) (now : Int) : PyStr :=
  Json.written Json.compact (.obj (env.members now))

def errorEnvelope (code message : PyStr) (replyTo : Option PyStr) : Envelope where
  type := .ofString "error"
  payload := [(.ofString "code",.str code),(.ofString "message",.str message)]
  id := replyTo

/-! ## `decode` -/

/-- `value != PROTOCOL_VERSION`, where `True` and `1.0` equal 1. -/
def isVersion : Option Json → Bool
  | some (.int n) => n = protocolVersion
  | some (.bool b) => b
  | some (.float repr) => repr = "1.0"
  | _ => false

/-- A value that may be missing or null, and else must be a string. -/
def optionalStr : Option Json → Option (Option PyStr)
  | none | some .null => some none
  | some (.str s) => some (some s)
  | _ => none

def asInt : Json → Option PyInt
  | .int n => some (.int n)
  | .bool b => some (.bool b)
  | _ => none

def optionalInt : Option Json → Option (Option PyInt)
  | none | some .null => some none
  | some value => (asInt value).map some

/-- A value that may be missing, and else must be a dict. -/
def defaultDict : Option Json → Option Dict
  | none => some []
  | some (.obj members) => some members
  | _ => none

def knownType : Option Json → Option PyStr
  | some (.str type) => if type ∈ validTypes then some type else none
  | _ => none

/-- The parser, the character table and the limits of the interpreter. -/
structure Python where
  loads : PyStr → Except Json.LoadsError Json
  unicode : PyStr.Unicode
  writer : Json.Writer

variable (python : Python)

/-- The format `value!r`, for what `dict.get` gives. -/
def Python.reprOf (value : Option Json) : PyStr := (value.getD .null).repr python.unicode

def badEnvelope (message : PyStr) : DecodeError :=
  .protocolError ⟨.ofString eBadEnvelope,message⟩

def require {α : Type} (value : Option α) (error : DecodeError) : Except DecodeError α :=
  match value with
  | some value => .ok value
  | none => .error error

/-- `decode`, after the parsing. -/
def decodeObject (members : Dict) : Except DecodeError Envelope := do
  require (if isVersion (members.get "v") then some () else none) (.protocolError
    ⟨.ofString eUnsupportedVersion,
      .ofString "unsupported protocol version " ++ python.reprOf (members.get "v")⟩)
  let type ← require (knownType (members.get "type")) (badEnvelope
    (.ofString "unknown message type " ++ python.reprOf (members.get "type")))
  let payload ← require (defaultDict (members.get "payload"))
    (badEnvelope (.ofString "payload must be an object"))
  let id ← require (optionalStr (members.get "id"))
    (badEnvelope (.ofString "id must be a string"))
  let turn ← require (optionalInt (members.get "turn"))
    (badEnvelope (.ofString "turn must be an integer"))
  let ts ← require (asInt ((members.get "ts").getD (.int 0)))
    (badEnvelope (.ofString "ts must be an integer"))
  let seq ← require (optionalInt (members.get "seq"))
    (badEnvelope (.ofString "seq must be an integer"))
  let session ← require (optionalStr (members.get "session"))
    (badEnvelope (.ofString "session must be a string"))
  return ⟨type,payload,id,seq,turn,session,some ts⟩

/-- A frame as the socket gives it. -/
inductive Raw where
  | text (text : PyStr)
  | binary (bytes : List UInt8)
  deriving DecidableEq, Repr

def decode : Raw → Except DecodeError Envelope
  | .binary _ => .error (badEnvelope (.ofString "binary frames are not accepted in M0"))
  | .text text =>
    match python.loads text with
    | .error (.jsonDecodeError message) =>
      .error (badEnvelope (.ofString ("unparseable JSON: " ++ message)))
    | .error (.valueError message) => .error (.valueError message)
    | .error (.recursionError message) => .error (.recursionError message)
    | .ok (.obj members) => decodeObject python members
    | .ok _ => .error (badEnvelope (.ofString "envelope must be a JSON object"))

/-! ## What can be sent back -/

theorem PyInt.json_encodes (n : PyInt) : n.json.encodes = true := by
  cases n <;> rfl

/-- The text can be encoded: no string in the envelope has a lone surrogate. -/
theorem text_encodes (env : Envelope) (now : Int) :
    (env.text now).encodes = (env.type.encodes && env.id.all PyStr.encodes &&
      env.session.all PyStr.encodes && (Json.obj env.payload).encodes) := by
  have number (n : PyInt) : n.json.all PyStr.encodes = true := n.json_encodes
  simp only [Envelope.text,Json.written_encodes,Json.encodes,Json.all,Envelope.members,
    Json.allMembers_append]
  cases env.id <;> cases env.seq <;> cases env.session <;> cases env.turn <;>
    simp [Json.allMembers,Json.all,number,Bool.and_assoc]

theorem fault_now (writer : Json.Writer) (depth : Nat) (now : Millis) :
    Json.fault writer depth (.int now.value) = none :=
  Json.fault_int ((now.short.trans (by decide)).trans writer.digits)

theorem fault_version (writer : Json.Writer) (depth : Nat) :
    Json.fault writer depth (.int protocolVersion) = none := by
  have one : (toString protocolVersion.natAbs).length = 1 := rfl
  exact Json.fault_int ((one.trans_le (by decide)).trans writer.digits)

/-- What is raised of an envelope without a number of its own is raised of its payload. -/
theorem encode_eq (writer : Json.Writer) {env : Envelope} (seq : env.seq = none)
    (turn : env.turn = none) (ts : env.ts = none) (now : Millis) :
    env.encode writer now.value =
      match Json.fault writer (writer.maxDepth - 1) (.obj env.payload) with
      | some error => .error error
      | none => .ok (env.text now.value) := by
  obtain ⟨depth,bound⟩ : ∃ depth, writer.maxDepth = depth + 1 :=
    ⟨writer.maxDepth - 1,by have deep := writer.deep; omega⟩
  have members : Json.faultMembers writer depth (env.members now.value) =
      Json.fault writer depth (.obj env.payload) := by
    simp only [Envelope.members,seq,turn,ts]
    cases env.id <;> cases env.session <;>
      simp [Json.faultMembers,PyInt.json,fault_version,fault_now]
  have whole : Json.fault writer (depth + 1) (.obj (env.members now.value)) =
      Json.fault writer depth (.obj env.payload) := by
    rw [Json.fault,members]
  rw [Envelope.encode,Json.Writer.dumps,bound,whole]
  rfl

/-- An error that goes back to the client names what it has rejected by its `repr`. -/
def DecodeError.Speaks : DecodeError → Prop
  | .protocolError error => error.code.encodes = true ∧ error.message.encodes = true
  | _ => True

theorem bind_error {α β : Type} {first : Except DecodeError α}
    {rest : α → Except DecodeError β} {error : DecodeError}
    (failed : (first >>= rest) = .error error) :
    first = .error error ∨ ∃ value, rest value = .error error := by
  cases first with
  | error other =>
    have same : other = error := Except.error.inj failed
    exact .inl (congrArg Except.error same)
  | ok value => exact .inr ⟨value,failed⟩

theorem require_speaks {α : Type} {value : Option α} {error other : DecodeError}
    (speaks : error.Speaks) (failed : require value error = .error other) : other.Speaks := by
  cases value with
  | none => cases failed; exact speaks
  | some value => cases failed

theorem badEnvelope_speaks {message : PyStr} (encodes : message.encodes = true) :
    (badEnvelope message).Speaks :=
  ⟨PyStr.encodes_ofString _,encodes⟩

theorem decodeObject_speaks {members : Dict} {error : DecodeError}
    (failed : decodeObject python members = .error error) : error.Speaks := by
  have unsupported (value : Option Json) : DecodeError.Speaks (.protocolError
      ⟨.ofString eUnsupportedVersion,
        .ofString "unsupported protocol version " ++ python.reprOf value⟩) := by
    constructor <;> simp [Python.reprOf]
  simp only [decodeObject] at failed
  rcases bind_error failed with failed | ⟨_,failed⟩
  · exact require_speaks (unsupported _) failed
  rcases bind_error failed with failed | ⟨type,failed⟩
  · exact require_speaks (badEnvelope_speaks (by simp [Python.reprOf])) failed
  iterate 6
    rcases bind_error failed with failed | ⟨_,failed⟩
    · exact require_speaks (badEnvelope_speaks (PyStr.encodes_ofString _)) failed
  cases failed

theorem decode_speaks {raw : Raw} {error : DecodeError}
    (failed : decode python raw = .error error) : error.Speaks := by
  simp only [decode] at failed
  split at failed
  · cases failed
    exact badEnvelope_speaks (PyStr.encodes_ofString _)
  · split at failed
    · cases failed
      exact badEnvelope_speaks (PyStr.encodes_ofString _)
    · cases failed; trivial
    · cases failed; trivial
    · exact decodeObject_speaks python failed
    · cases failed
      exact badEnvelope_speaks (PyStr.encodes_ofString _)

end GhostRunner.Wire
