import GhostRunner.ConfigAccepts
import GhostRunner.ProbeFormat
import GhostRunner.SkillLibrary

/-! The start of the process (`main.py`): what it checks before it serves, and which connections it
then lets in (`_check_auth` in `server/ws_server.py`). -/
namespace GhostRunner.Startup

open Config (CoreConfig LlmConfig AsrConfig SkillsConfig TtsConfig ServerConfig)
open SkillLibrary (OSError Skills)
open Wire (PyInt)

def text (s : String) : PyStr := .ofString s

/-- What comes of `models.list()`. -/
inductive Models where
  | openaiError (exc : PyStr)
  | ids (ids : List PyStr)

/-- What comes of `read_text(encoding="utf-8")`. -/
inductive TextFile where
  | osError (exc : PyStr)
  | unicodeDecodeError
  | text (content : PyStr)

/-- What the process finds around it. An HTTP client is not made for every URL, and `expanduser`
does not always know a home directory. -/
structure Host where
  unicode : PyStr.Unicode
  python : SkillLibrary.Python
  http : PyStr → Option Tts.Http
  models : PyStr → Models
  bwrap : Bool
  prlimit : Except OSError Bool
  expanduser : PyStr → Option PyStr
  skills : PyStr → SkillLibrary.Disk
  mkdir : PyStr → Bool
  opens : PyStr → Bool
  readText : PyStr → TextFile
  listens : PyStr → PyInt → Bool

/-- The exceptions that `cli` reports, and all others. -/
inductive Raised where
  | llmError (message : PyStr)
  | asrError (message : PyStr)
  | skillError (message : PyStr)
  | ttsError (message : PyStr)
  | configError (message : PyStr)
  | other
  deriving DecidableEq, Repr

variable (host : Host)

def orOther {α : Type} : Option α → Except Raised α
  | none => .error .other
  | some a => .ok a

def demand (fine : Bool) : Except Raised Unit := if fine then .ok () else .error .other

/-! ## The dependencies -/

/-- `check_reachable` of `LlamaClient`, and the search for the model. -/
def checkModel (cfg : LlmConfig) : Except Raised Unit := do
  let http ← orOther (host.http cfg.baseUrl)
  match host.models cfg.baseUrl with
  | .openaiError exc =>
    throw (.llmError (text "llama-server unreachable at " ++ http.baseUrl ++ text ": " ++ exc))
  | .ids available =>
    if cfg.model ∈ available then return ()
    else throw (.llmError (text "configured model " ++ cfg.model.repr host.unicode ++
      text " not served by " ++ cfg.baseUrl ++ text " (available: " ++
      (Json.arr (available.map .str)).repr host.unicode ++ text ")"))

/-- `check_reachable` of `WhisperClient`. -/
def checkWhisper (cfg : AsrConfig) : Except Raised Unit := do
  let http ← orOther (host.http cfg.serverUrl)
  match http.get "/health" with
  | .httpError exc =>
    throw (.asrError (text "whisper-server unreachable at " ++ http.baseUrl ++ text ": " ++ exc))
  | .answered statusCode _ _ =>
    if statusCode ≠ 200 then
      throw (.asrError (text ("whisper-server /health returned " ++ toString statusCode ++ " at ") ++
        http.baseUrl))
    else return ()

/-- `check_sandbox_available` -/
def checkSandbox : Except Raised Unit :=
  if host.bwrap then
    match host.prlimit with
    | .error _ => .error .other
    | .ok true => .ok ()
    | .ok false =>
      .error (.skillError (text ("[skills] is configured but /usr/bin/prlimit (util-linux) is " ++
        "missing; refusing to run skills without resource limits")))
  else
    .error (.skillError (text ("[skills] is configured but bwrap (bubblewrap) is not installed; " ++
      "refusing to run skills without a sandbox")))

def skillRaised : SkillLibrary.Error → Raised
  | .skillError message => .skillError message
  | _ => .other

def loadSkills (cfg : SkillsConfig) : Except Raised Skills := do
  checkSandbox host
  let root ← orOther (host.expanduser cfg.dir)
  match SkillLibrary.load host.python (host.skills root) ⟨root,[]⟩ with
  | (.error error,_) => throw (skillRaised error)
  | (.ok (),library) => return library.skills

def ttsRaised : Tts.Failure → Raised
  | .ttsError message => .ttsError message
  | .structError => .other

/-- The client of the configured engine. -/
def ttsChecks (cfg : TtsConfig) : Except Raised Tts.Checks :=
  match cfg.engine with
  | .fish => .ok (Tts.TtsClient.checks {})
  | .irodori =>
    if cfg.voice = [] then .error .other else .ok (Tts.IrodoriClient.checks { voice := cfg.voice })

/-- The sample rate that the configured TTS server speaks at. -/
def checkTts (cfg : TtsConfig) : Except Raised Nat := do
  let checks ← ttsChecks cfg
  let http ← orOther (host.http cfg.serverUrl)
  (checks.checkReachable http).mapError ttsRaised
  (checks.probeFormat http).mapError ttsRaised

/-! ## The store, the token and the port -/

def openStore (dbPath : PyStr) : Except Raised Unit := do
  let path ← orOther (host.expanduser dbPath)
  demand (host.mkdir path)
  demand (host.opens path)

def readToken (tokenFile : PyStr) : Except Raised PyStr := do
  let path ← orOther (host.expanduser tokenFile)
  match host.readText path with
  | .osError exc =>
    throw (.configError (text "cannot read auth token file " ++ path ++ text ": " ++ exc))
  | .unicodeDecodeError => throw .other
  | .text content =>
    if content.strip = [] then
      throw (.configError (text "auth token file " ++ path ++ text " is empty"))
    else return content.strip

/-- A part that may not be configured. -/
def optionally {α β : Type} (check : α → Except Raised β) : Option α → Except Raised (Option β)
  | none => .ok none
  | some cfg => (check cfg).map some

/-- The core that serves. -/
structure Core where
  cfg : CoreConfig
  skills : Option Skills
  sampleRate : Option Nat
  authToken : Option PyStr

/-- `run`, up to where it waits to be cancelled. -/
def run (cfg : CoreConfig) : Except Raised Core := do
  checkModel host cfg.llm
  let _ ← optionally (checkWhisper host) cfg.asr
  let skills ← optionally (loadSkills host) cfg.skills
  let sampleRate ← optionally (checkTts host) cfg.tts
  openStore host cfg.dbPath
  let authToken ← optionally (readToken host) cfg.server.authTokenFile
  demand (host.listens cfg.server.bind cfg.server.port)
  return ⟨cfg,skills,sampleRate,authToken⟩

/-- How `cli` ends before it serves, if it does: by an exit with a message, or by an exception. -/
inductive Outcome where
  | serving (core : Core)
  | exits (code : Nat) (message : PyStr)
  | raises

def Raised.outcome : Raised → Outcome
  | .llmError message | .asrError message | .skillError message | .ttsError message
  | .configError message => .exits 1 (text "startup failed: " ++ message)
  | .other => .raises

def cli (python : Config.Python) (path : PyStr) (file : Config.File) : Outcome :=
  match Config.loadConfig python path file with
  | .error (.configError message) => .exits 2 (text "config error: " ++ message)
  | .error _ => .raises
  | .ok cfg =>
    match run host cfg with
    | .error raised => raised.outcome
    | .ok core => .serving core

/-! ## The upgrade -/

inductive Answer where
  | accepted
  | unauthorized
  | raises
  deriving DecidableEq, Repr

def isAscii (s : PyStr) : Bool := s.all fun c => c < 0x80

/-- `secrets.compare_digest` of two strings. Only ASCII strings are compared. -/
def compareDigest (a b : PyStr) : Option Bool :=
  if isAscii a && isAscii b then some (a = b) else none

/-- `headers.get("Authorization", "")`, for the values under that name. -/
def authorization : List PyStr → Option PyStr
  | [] => some []
  | [value] => some value
  | _ => none

def answer : Option Bool → Answer
  | none => .raises
  | some true => .accepted
  | some false => .unauthorized

/-- `_check_auth`. What it raises, `websockets` answers with an error. -/
def checkAuth (authToken : Option PyStr) (values : List PyStr) : Answer :=
  match authToken with
  | none => .accepted
  | some token =>
    match authorization values with
    | none => .raises
    | some auth => answer (compareDigest auth (text "Bearer " ++ token))

end GhostRunner.Startup
