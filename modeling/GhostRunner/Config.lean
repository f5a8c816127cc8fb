import GhostRunner.SkillManifest
import GhostRunner.Wire

/-! The configuration file (`config.py`): what `load_config` accepts, and what it raises else. -/
namespace GhostRunner.Config

open SkillLibrary (Toml TomlError OSError)
open Wire (PyInt)

structure ServerConfig where
  bind : PyStr
  port : PyInt
  authTokenFile : Option PyStr

structure LlmConfig where
  baseUrl : PyStr
  model : PyStr
  systemPrompt : PyStr
  historyMessages : PyInt

structure AsrConfig where
  serverUrl : PyStr
  language : PyStr

structure SkillsConfig where
  dir : PyStr

inductive Engine where
  | fish
  | irodori
  deriving DecidableEq, Repr

structure TtsConfig where
  serverUrl : PyStr
  engine : Engine
  voice : PyStr

structure CoreConfig where
  server : ServerConfig
  llm : LlmConfig
  dbPath : PyStr
  asr : Option AsrConfig
  skills : Option SkillsConfig
  tts : Option TtsConfig

/-- What stands at the top of a TOML file under one key. -/
inductive Item where
  | table (entries : List (PyStr × Toml))
  | other

abbrev Document := List (PyStr × Item)

/-- `tomllib`, `ipaddress.ip_address(..).is_loopback` (`none` is its `ValueError`), and what `repr`
needs. -/
structure Python where
  loads : List UInt8 → Except TomlError Document
  isLoopback : PyStr → Option Bool
  unicode : PyStr.Unicode
  reprOther : Toml → PyStr

def Python.repr (python : Python) : Toml → PyStr
  | .str s => s.repr python.unicode
  | value => python.reprOther value

inductive Error where
  | configError (message : PyStr)
  | tomlError (error : TomlError)
  | osError (error : OSError)
  | keyError
  | typeError
  | attributeError

/-- What is found at the path of the configuration. -/
inductive File where
  | missing
  | unreadable (error : OSError)
  | bytes (content : List UInt8)

def text (s : String) : PyStr := .ofString s

def known : List (PyStr × List PyStr) :=
  [(text "server",["bind","port","auth_token_file"].map text),
    (text "llm",["base_url","model","system_prompt","history_messages"].map text),
    (text "memory",["db"].map text),
    (text "asr",["server_url","language"].map text),
    (text "skills",["dir"].map text),
    (text "tts",["server_url","engine","voice"].map text)]

def defaultSystemPrompt : PyStr :=
  text ("あなたはデスクトップに常駐するアシスタント「ゴースト」です。" ++
    "日本語で簡潔に、話し言葉で答えてください。" ++
    "分からないことは分からないと正直に言い、感情を持っているかのような表現" ++
    "(「嬉しい」「寂しい」など)は使わないでください。" ++
    "結果に基づく表現(「うまくいきました」「よかったです」)は使えます。")

def refuse {α : Type} (message : PyStr) : Except Error α := .error (.configError message)

def check (passed : Bool) (message : PyStr) : Except Error Unit :=
  if passed then .ok () else refuse message

/-! ## Unknown names -/

def checkKeys (section_ : PyStr) (keys : List PyStr) : List (PyStr × Toml) → Except Error Unit
  | [] => .ok ()
  | (key,_) :: rest =>
    if key ∈ keys then checkKeys section_ keys rest
    else refuse (text "unknown config key " ++ section_ ++ text "." ++ key)

def checkSections : Document → Except Error Unit
  | [] => .ok ()
  | (section_,item) :: rest =>
    match known.lookup section_ with
    | none => refuse (text "unknown config section [" ++ section_ ++ text "]")
    | some keys =>
      match item with
      | .other => refuse (text "[" ++ section_ ++ text "] must be a table")
      | .table entries => do
        checkKeys section_ keys entries
        checkSections rest

/-! ## Looking up -/

variable (raw : Document)

def dotted (section_ key : String) : PyStr := text (section_ ++ "." ++ key)

def missing {α : Type} (section_ key : String) : Except Error α :=
  refuse (text "missing required config key " ++ dotted section_ key)

/-- `require(section, key)` -/
def require (section_ key : String) : Except Error Toml :=
  match raw.lookup (text section_) with
  | none => missing section_ key
  | some .other => .error .typeError
  | some (.table entries) =>
    match entries.lookup (text key) with
    | none => missing section_ key
    | some value => .ok value

/-- `raw[section].get(key)` -/
def get (section_ key : String) : Except Error (Option Toml) :=
  match raw.lookup (text section_) with
  | none => .error .keyError
  | some .other => .error .attributeError
  | some (.table entries) => .ok (entries.lookup (text key))

/-- `section in raw` -/
def has (section_ : String) : Bool := (raw.lookup (text section_)).isSome

/-- `raw.get(section, {}).get(key)` -/
def getAnyway (section_ key : String) : Except Error (Option Toml) :=
  if has raw section_ then get raw section_ key else .ok none

def asStr (value : Toml) (message : String) : Except Error PyStr :=
  match value with
  | .str s => .ok s
  | _ => refuse (text message)

def asNonEmpty (value : Toml) (message : String) : Except Error PyStr :=
  match value with
  | .str (c :: rest) => .ok (c :: rest)
  | _ => refuse (text message)

def asInt (value : Toml) (message : String) : Except Error PyInt :=
  match value with
  | .int n => .ok (.int n)
  | .bool b => .ok (.bool b)
  | _ => refuse (text message)

/-- A value that may be missing, and else must be a string. -/
def asOptional (value : Option Toml) (message : String) : Except Error (Option PyStr) :=
  match value with
  | none => .ok none
  | some value => (asStr value message).map some

/-! ## The sections -/

def Python.loopback (python : Python) (bind : PyStr) : Bool :=
  match python.isLoopback bind with
  | some loopback => loopback
  | none => bind = text "localhost"

variable (python : Python)

def serverConfig : Except Error ServerConfig := do
  let bind ← require raw "server" "bind"
  let port ← require raw "server" "port"
  let bind ← asStr bind "server.bind must be a string"
  let port ← asInt port "server.port must be an integer"
  let token ← get raw "server" "auth_token_file"
  let authTokenFile ← asOptional token "server.auth_token_file must be a string path"
  check (python.loopback bind || authTokenFile.isSome) (text "server.bind=" ++
    bind.repr python.unicode ++ text (" is not loopback: server.auth_token_file is required " ++
      "(plain unauthenticated ws is allowed only on 127.0.0.1 — §A7.6)"))
  return ⟨bind,port,authTokenFile⟩

def notNegative : PyInt → Bool
  | .int n => 0 ≤ n
  | .bool _ => true

def llmConfig : Except Error LlmConfig := do
  let baseUrl ← require raw "llm" "base_url"
  let model ← require raw "llm" "model"
  let baseUrl ← asStr baseUrl "llm.base_url and llm.model must be strings"
  let model ← asStr model "llm.base_url and llm.model must be strings"
  let prompt ← get raw "llm" "system_prompt"
  let systemPrompt ← asStr (prompt.getD (.str defaultSystemPrompt))
    "llm.system_prompt must be a string"
  let history ← get raw "llm" "history_messages"
  let historyMessages ← asInt (history.getD (.int 20))
    "llm.history_messages must be a non-negative integer"
  check (notNegative historyMessages)
    (text "llm.history_messages must be a non-negative integer")
  return ⟨baseUrl,model,systemPrompt,historyMessages⟩

def dbPath : Except Error PyStr := do
  let db ← getAnyway raw "memory" "db"
  match db with
  | none => missing "memory" "db"
  | some value => asStr value "memory.db must be a string path"

def asrConfig : Except Error AsrConfig := do
  let url ← require raw "asr" "server_url"
  let serverUrl ← asStr url "asr.server_url must be a string"
  let language ← get raw "asr" "language"
  let language ← asNonEmpty (language.getD (.str (text "ja")))
    "asr.language must be a non-empty string"
  return ⟨serverUrl,language⟩

def skillsConfig : Except Error SkillsConfig := do
  let dir ← require raw "skills" "dir"
  let dir ← asNonEmpty dir "skills.dir must be a non-empty string path"
  return ⟨dir⟩

def Engine.name : Engine → String
  | .fish => "fish"
  | .irodori => "irodori"

def asEngine (value : Toml) : Except Error Engine :=
  match value with
  | .str s =>
    if s = text "fish" then .ok .fish
    else if s = text "irodori" then .ok .irodori
    else refuse (text "tts.engine must be 'fish' or 'irodori', got " ++ python.repr value)
  | _ => refuse (text "tts.engine must be 'fish' or 'irodori', got " ++ python.repr value)

def ttsConfig : Except Error TtsConfig := do
  let url ← require raw "tts" "server_url"
  let serverUrl ← asNonEmpty url "tts.server_url must be a non-empty string"
  let engine ← get raw "tts" "engine"
  let engine ← asEngine python (engine.getD (.str (text "fish")))
  let voice ← get raw "tts" "voice"
  let voice ← asNonEmpty (voice.getD (.str (text "none"))) "tts.voice must be a non-empty string"
  check (voice = text "none" || engine = .irodori)
    (text "tts.voice is only supported by the irodori engine")
  return ⟨serverUrl,engine,voice⟩

/-- A section that may be missing. -/
def optionally {α : Type} (section_ : String) (read : Except Error α) : Except Error (Option α) :=
  if has raw section_ then read.map some else .ok none

/-- `load_config`, after the parsing. -/
def readConfig : Except Error CoreConfig := do
  checkSections raw
  let server ← serverConfig raw python
  let llm ← llmConfig raw
  let dbPath ← dbPath raw
  let asr ← optionally raw "asr" (asrConfig raw)
  let skills ← optionally raw "skills" (skillsConfig raw)
  let tts ← optionally raw "tts" (ttsConfig raw python)
  return ⟨server,llm,dbPath,asr,skills,tts⟩

def loadConfig (path : PyStr) (file : File) : Except Error CoreConfig :=
  match file with
  | .missing => refuse (text "config file not found: " ++ path)
  | .unreadable error => .error (.osError error)
  | .bytes content =>
    match python.loads content with
    | .error error => .error (.tomlError error)
    | .ok raw => readConfig raw python

end GhostRunner.Config
