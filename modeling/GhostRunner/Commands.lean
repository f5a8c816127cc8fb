import GhostRunner.Base64
import GhostRunner.ServeSession
import GhostRunner.SkillLibrary
import GhostRunner.WireRoundTrip

/-! The commands of a client (`handle_command` in `orchestrator.py`, `asr/client.py`): which of
them are refused, what each asks of the parts behind it, and what it answers. -/
namespace GhostRunner.Commands

open Wire (Dict PyInt ProtocolError Handled)
open SkillLibrary (Skill Skills)

def eNotOwner : String := "not_owner"
def eUnavailable : String := "unavailable"
def eUnknownCommand : String := "unknown_command"

def maxAudioBytes : Nat := 10000000

def text (s : String) : PyStr := .ofString s

/-- `_truncate` -/
def truncate (message : PyStr) : PyStr :=
  if message.length ≤ 120 then message else message.take 119 ++ [0x2026]

def refuse {α : Type} (code : String) (message : PyStr) : Except ProtocolError α :=
  .error ⟨text code,message⟩

/-! ## `WhisperClient.transcribe` -/

structure Response where
  status : Int
  text : PyStr
  json : Except Json.LoadsError Json

/-- What `httpx` makes of a request. -/
inductive Http where
  | answered (response : Response)
  | httpError (message : PyStr)
  | failed

inductive Transcript where
  | text (text : PyStr)
  | asrError (message : PyStr)
  | failed

/-- `str(value)` -/
def pyStr (unicode : PyStr.Unicode) : Json → PyStr
  | .str s => s
  | value => value.repr unicode

/-- `body.get("text") if isinstance(body, dict) else None`, if it is a string. -/
def bodyText : Json → Option PyStr
  | .obj members =>
    match Dict.get members "text" with
    | some (.str s) => some s
    | _ => none
  | _ => none

def transcribe (unicode : PyStr.Unicode) : Http → Transcript
  | .failed => .failed
  | .httpError message => .asrError (text "whisper-server request failed: " ++ message)
  | .answered response =>
    if response.status ≠ 200 then
      .asrError (text ("whisper-server /inference returned " ++ toString response.status ++ ": ") ++
        response.text.take 200)
    else
      match response.json with
      | .error (.jsonDecodeError _) | .error (.valueError _) =>
        .asrError (text "whisper-server returned non-JSON: " ++ response.text.take 200)
      | .error (.recursionError _) => .failed
      | .ok body =>
        match bodyText body with
        | some s => .text s.strip
        | none =>
          .asrError (text "whisper-server response has no text field: " ++
            (pyStr unicode body).take 200)

/-! ## What a command asks for -/

/-- The parts that are configured, and how the interpreter prints. -/
structure Core where
  unicode : PyStr.Unicode
  asr : Bool
  skills : Option Skills

/-- A command whose arguments have passed. -/
inductive Request where
  | chatSend (text : PyStr)
  | turnCancel (turn : PyInt)
  | streamSync (stream : PyStr)
  | transcribe (wav : List UInt8)
  | skillList (skills : Skills)
  | skillRun (skill : Skill) (args : Dict)

variable (core : Core)

def chatSend (args : Dict) : Except ProtocolError Request :=
  match args.get "text" with
  | some (.str s) =>
    if s.strip ≠ [] then .ok (.chatSend s)
    else refuse Wire.eBadEnvelope (text "chat.send needs a non-empty text argument")
  | _ => refuse Wire.eBadEnvelope (text "chat.send needs a non-empty text argument")

def turnCancel (args : Dict) : Except ProtocolError Request :=
  match (args.get "turn").bind Wire.asInt with
  | some turn => .ok (.turnCancel turn)
  | none => refuse Wire.eBadEnvelope (text "turn.cancel needs an integer turn argument")

def streamSync (args : Dict) : Except ProtocolError Request :=
  match args.get "stream" with
  | some (.str s) => .ok (.streamSync s)
  | _ => refuse Wire.eBadEnvelope (text "stream.sync needs a string stream argument")

/-- The bytes at which a WAV file is told. -/
def isWave (wav : List UInt8) : Bool :=
  44 ≤ wav.length && wav.take 4 = [0x52,0x49,0x46,0x46] &&
    (wav.drop 8).take 4 = [0x57,0x41,0x56,0x45]

def asrTranscribe (args : Dict) : Except ProtocolError Request :=
  if core.asr then
    match args.get "audio" with
    | some (.str audio) =>
      if audio = [] then
        refuse Wire.eBadEnvelope (text "asr.transcribe needs a base64 audio argument")
      else
        match Base64.b64decode audio with
        | .error fault =>
          refuse Wire.eBadEnvelope (text ("asr.transcribe audio is not valid base64: " ++
            fault.message))
        | .ok wav =>
          if maxAudioBytes < wav.length then
            refuse Wire.eBadEnvelope (text ("asr.transcribe audio too large (" ++
              toString wav.length ++ " > " ++ toString maxAudioBytes ++ " bytes)"))
          else if isWave wav then .ok (.transcribe wav)
          else refuse Wire.eBadEnvelope (text "asr.transcribe audio must be a RIFF/WAVE file")
    | _ => refuse Wire.eBadEnvelope (text "asr.transcribe needs a base64 audio argument")
  else
    refuse eUnavailable (text "asr is not configured on this core (no [asr] config section)")

def unconfiguredSkills : Except ProtocolError Request :=
  refuse eUnavailable (text "skills are not configured on this core (no [skills] section)")

def skillList : Except ProtocolError Request :=
  match core.skills with
  | none => unconfiguredSkills
  | some skills => .ok (.skillList skills)

def skillRun (args : Dict) : Except ProtocolError Request :=
  match core.skills with
  | none => unconfiguredSkills
  | some skills =>
    match args.get "name" with
    | some (.str name) =>
      if name = [] then refuse Wire.eBadEnvelope (text "skill.run needs a string name argument")
      else
        match Wire.defaultDict (args.get "args") with
        | none => refuse Wire.eBadEnvelope (text "skill.run args must be an object")
        | some skillArgs =>
          match skills.lookup name with
          | none => refuse Wire.eBadEnvelope (text "unknown skill " ++ name.repr core.unicode)
          | some skill => .ok (.skillRun skill skillArgs)
    | _ => refuse Wire.eBadEnvelope (text "skill.run needs a string name argument")

/-- `handle_command`, up to the first call of another part. -/
def request (name : PyStr) (args : Dict) : Except ProtocolError Request :=
  if name = text "chat.send" then chatSend args
  else if name = text "turn.cancel" then turnCancel args
  else if name = text "stream.sync" then streamSync args
  else if name = text "asr.transcribe" then asrTranscribe core args
  else if name = text "skill.list" then skillList core
  else if name = text "skill.run" then skillRun core args
  else refuse eUnknownCommand (text "unknown command " ++ name.repr core.unicode)

/-! ## What it answers -/

inductive Cancelling where
  | cancelled (done : Bool)
  | permissionError
  | failed

inductive Ran where
  | result (members : Dict)
  | skillError (message : PyStr)
  | executionError (message : PyStr)
  | failed

/-- What the other parts do. A call that raises what `handle_command` does not catch gives
`none`, or has failed. -/
structure Parts where
  begin_ : PyStr → Option Nat
  cancel : PyInt → Cancelling
  sync : PyStr → Option Bool
  infer : List UInt8 → Http
  run : Skill → Dict → Ran

/-- `str(turn_id)` -/
def printInt : PyInt → String
  | .int n => toString n
  | .bool b => if b then "True" else "False"

def dict (key : String) (value : Json) : Dict := [(text key,value)]

def describe (skill : Skill) : Json :=
  .obj (dict "name" (.str skill.name) ++ dict "version" (.str skill.version) ++
    dict "description" (.str skill.description))

def protocolError (code : String) (message : PyStr) : Handled :=
  .protocolError ⟨text code,message⟩

variable (parts : Parts)

def perform (sessionId : String) : Request → Handled
  | .chatSend s =>
    match parts.begin_ s with
    | some turn => .result (dict "turn" (.int turn))
    | none => .exception
  | .turnCancel turn =>
    match parts.cancel turn with
    | .cancelled done => .result (dict "cancelled" (.bool done))
    | .permissionError =>
      protocolError eNotOwner (text ("session " ++ sessionId ++ " does not own turn " ++
        printInt turn))
    | .failed => .exception
  | .streamSync stream =>
    match parts.sync stream with
    | some active => .result (dict "active" (.bool active))
    | none => .exception
  | .transcribe wav =>
    match transcribe core.unicode (parts.infer wav) with
    | .text s => .result (dict "text" (.str s))
    | .asrError message => protocolError eUnavailable (truncate (text "ASR error: " ++ message))
    | .failed => .exception
  | .skillList skills =>
    .result (dict "skills" (.arr (skills.map fun (_,skill) => describe skill)))
  | .skillRun skill args =>
    match parts.run skill args with
    | .result members => .result (dict "result" (.obj members))
    | .skillError message => protocolError eUnavailable (truncate message)
    | .executionError message => protocolError Wire.eInternal (truncate message)
    | .failed => .exception

/-- `handle_command` -/
def handleCommand (sessionId : String) (name : PyStr) (args : Dict) : Handled :=
  match request core name args with
  | .error error => .protocolError error
  | .ok request => perform core parts sessionId request

end GhostRunner.Commands
