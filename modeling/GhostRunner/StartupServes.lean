import GhostRunner.Startup

/-! When the core serves, every dependency that is configured has passed its checks; and only who
knows the token gets in from outside. -/
namespace GhostRunner.Startup

open Config (CoreConfig LlmConfig AsrConfig SkillsConfig TtsConfig ServerConfig)
open SkillLibrary (Skills)

variable (host : Host)

/-! ## What each check demands -/

structure ModelServed (cfg : LlmConfig) : Prop where
  http : ∃ http, host.http cfg.baseUrl = some http
  listed : ∃ available, host.models cfg.baseUrl = .ids available ∧ cfg.model ∈ available

def WhisperHealthy (cfg : AsrConfig) : Prop :=
  ∃ http content said, host.http cfg.serverUrl = some http ∧
    http.get "/health" = .answered 200 content said

/-- There is a sandbox, and the skills are the ones of the directory. -/
structure SkillsReady (cfg : SkillsConfig) (skills : Skills) : Prop where
  bwrap : host.bwrap = true
  prlimit : host.prlimit = .ok true
  loaded : ∃ root, host.expanduser cfg.dir = some root ∧
    SkillLibrary.load host.python (host.skills root) ⟨root,[]⟩ = (.ok (),⟨root,skills⟩)

/-- The client of the engine was made, its server is up and has answered the probe at the rate. -/
def TtsReady (cfg : TtsConfig) (rate : Nat) : Prop :=
  ∃ checks http content said, ttsChecks cfg = .ok checks ∧ host.http cfg.serverUrl = some http ∧
    http.get checks.healthPath = .answered 200 content said ∧ Tts.Answers checks http rate

def StoreReady (dbPath : PyStr) : Prop :=
  ∃ path, host.expanduser dbPath = some path ∧ host.mkdir path = true ∧ host.opens path = true

def TokenRead (tokenFile token : PyStr) : Prop :=
  ∃ path content, host.expanduser tokenFile = some path ∧ host.readText path = .text content ∧
    content.strip = token ∧ token ≠ []

structure Ready (core : Core) : Prop where
  model : ModelServed host core.cfg.llm
  asr : ∀ cfg, core.cfg.asr = some cfg → WhisperHealthy host cfg
  skills : Option.Rel (SkillsReady host) core.cfg.skills core.skills
  tts : Option.Rel (TtsReady host) core.cfg.tts core.sampleRate
  store : StoreReady host core.cfg.dbPath
  token : Option.Rel (TokenRead host) core.cfg.server.authTokenFile core.authToken
  port : host.listens core.cfg.server.bind core.cfg.server.port = true

variable {host}

/-! ## The checks -/

theorem bind_ok_iff {α β : Type} {first : Except Raised α} {rest : α → Except Raised β} {b : β} :
    (first >>= rest) = .ok b ↔ ∃ a, first = .ok a ∧ rest a = .ok b := by
  cases first with
  | error raised => exact ⟨fun same => (by cases same),fun ⟨_,same,_⟩ => (by cases same)⟩
  | ok a => exact ⟨fun same => ⟨a,rfl,same⟩,fun ⟨_,same,rest⟩ => by cases same; exact rest⟩

theorem orOther_ok_iff {α : Type} {found : Option α} {a : α} :
    orOther found = .ok a ↔ found = some a := by
  cases found <;> simp [orOther]

theorem demand_ok_iff {fine : Bool} {done : Unit} : demand fine = .ok done ↔ fine = true := by
  cases fine <;> simp [demand]

theorem optionally_ok_iff {α β : Type} {check : α → Except Raised β} {cfg : Option α}
    {found : Option β} : optionally check cfg = .ok found ↔
      Option.Rel (fun a b => check a = .ok b) cfg found := by
  cases cfg with
  | none => cases found <;> simp [optionally]
  | some a =>
    cases checked : check a with
    | error raised => cases found <;> simp [optionally,checked,Except.map]
    | ok b => cases found <;> simp [optionally,checked,Except.map]

theorem checkModel_ok_iff {cfg : LlmConfig} {done : Unit} :
    checkModel host cfg = .ok done ↔ ModelServed host cfg := by
  rw [checkModel,bind_ok_iff]
  constructor
  · rintro ⟨http,made,passed⟩
    split at passed
    · cases passed
    · next available listed =>
      split_ifs at passed with served
      exact ⟨⟨http,orOther_ok_iff.mp made⟩,available,listed,served⟩
  · rintro ⟨⟨http,made⟩,available,listed,served⟩
    refine ⟨http,orOther_ok_iff.mpr made,?_⟩
    rw [listed]
    exact if_pos served

theorem checkWhisper_ok_iff {cfg : AsrConfig} {done : Unit} :
    checkWhisper host cfg = .ok done ↔ WhisperHealthy host cfg := by
  rw [checkWhisper,bind_ok_iff]
  constructor
  · rintro ⟨http,made,passed⟩
    split at passed
    · cases passed
    · next statusCode content said answer =>
      split_ifs at passed with failed
      rw [not_not.mp failed] at answer
      exact ⟨http,content,said,orOther_ok_iff.mp made,answer⟩
  · rintro ⟨http,content,said,made,answer⟩
    refine ⟨http,orOther_ok_iff.mpr made,?_⟩
    rw [answer]
    rfl

theorem checkSandbox_ok_iff {done : Unit} :
    checkSandbox host = .ok done ↔ host.bwrap = true ∧ host.prlimit = .ok true := by
  unfold checkSandbox
  cases host.bwrap with
  | false => simp
  | true =>
    cases host.prlimit with
    | error error => simp
    | ok found => cases found <;> simp

theorem load_root (python : SkillLibrary.Python) (disk : SkillLibrary.Disk)
    (library : SkillLibrary.Library) :
    (SkillLibrary.load python disk library).2.root = library.root := by
  unfold SkillLibrary.load
  split
  · rfl
  · rfl
  · split
    · rfl
    · split <;> rfl

theorem load_loaded {python : SkillLibrary.Python} {disk : SkillLibrary.Disk}
    {library after : SkillLibrary.Library}
    (loaded : SkillLibrary.load python disk library = (.ok (),after)) :
    SkillLibrary.Loaded python disk after.skills := by
  unfold SkillLibrary.load at loaded
  split at loaded
  · cases loaded
  · cases loaded
  · split at loaded
    · cases loaded
    · next entries listed =>
      split at loaded
      · cases loaded
      · next skills loop =>
        cases loaded
        exact SkillLibrary.loaded_of_loadEntries listed loop

theorem loadSkills_ok_iff {cfg : SkillsConfig} {skills : Skills} :
    loadSkills host cfg = .ok skills ↔ SkillsReady host cfg skills := by
  rw [loadSkills,bind_ok_iff]
  constructor
  · rintro ⟨_,sandboxed,passed⟩
    obtain ⟨bwrap,prlimit⟩ := checkSandbox_ok_iff.mp sandboxed
    obtain ⟨root,known,passed⟩ := bind_ok_iff.mp passed
    refine ⟨bwrap,prlimit,root,orOther_ok_iff.mp known,?_⟩
    have same := load_root host.python (host.skills root) ⟨root,[]⟩
    split at passed
    · cases passed
    · next library loaded =>
      cases passed
      rw [loaded] at same ⊢
      obtain ⟨own,skills⟩ := library
      cases same
      rfl
  · rintro ⟨bwrap,prlimit,root,known,loaded⟩
    refine ⟨(),checkSandbox_ok_iff.mpr ⟨bwrap,prlimit⟩,bind_ok_iff.mpr ⟨root,?_,?_⟩⟩
    · exact orOther_ok_iff.mpr known
    · rw [loaded]
      rfl

theorem checkTts_ok_iff {cfg : TtsConfig} {rate : Nat} :
    checkTts host cfg = .ok rate ↔ TtsReady host cfg rate := by
  rw [checkTts,bind_ok_iff]
  constructor
  · rintro ⟨checks,chosen,passed⟩
    obtain ⟨http,made,passed⟩ := bind_ok_iff.mp passed
    obtain ⟨_,healthy,probed⟩ := bind_ok_iff.mp passed
    obtain ⟨content,said,answer⟩ := Tts.checkReachable_ok_iff.mp (Tts.mapError_ok_iff.mp healthy)
    exact ⟨checks,http,content,said,chosen,orOther_ok_iff.mp made,answer,
      Tts.probeFormat_ok_iff.mp (Tts.mapError_ok_iff.mp probed)⟩
  · rintro ⟨checks,http,content,said,chosen,made,answer,answers⟩
    refine ⟨checks,chosen,bind_ok_iff.mpr ⟨http,orOther_ok_iff.mpr made,bind_ok_iff.mpr ⟨(),?_,?_⟩⟩⟩
    · exact Tts.mapError_ok_iff.mpr (Tts.checkReachable_ok_iff.mpr ⟨content,said,answer⟩)
    · exact Tts.mapError_ok_iff.mpr (Tts.probeFormat_ok_iff.mpr answers)

theorem openStore_ok_iff {dbPath : PyStr} {done : Unit} :
    openStore host dbPath = .ok done ↔ StoreReady host dbPath := by
  simp only [openStore,bind_ok_iff,orOther_ok_iff,demand_ok_iff,StoreReady]
  constructor
  · rintro ⟨path,known,_,made,opened⟩
    exact ⟨path,known,made,opened⟩
  · rintro ⟨path,known,made,opened⟩
    exact ⟨path,known,(),made,opened⟩

theorem readToken_ok_iff {tokenFile token : PyStr} :
    readToken host tokenFile = .ok token ↔ TokenRead host tokenFile token := by
  rw [readToken,bind_ok_iff]
  constructor
  · rintro ⟨path,known,passed⟩
    split at passed
    · cases passed
    · cases passed
    · next content read =>
      split_ifs at passed with empty
      cases passed
      exact ⟨path,content,orOther_ok_iff.mp known,read,rfl,empty⟩
  · rintro ⟨path,content,known,read,rfl,proper⟩
    refine ⟨path,orOther_ok_iff.mpr known,?_⟩
    rw [read]
    exact if_neg proper

/-! ## The start -/

theorem run_ok_iff {cfg : CoreConfig} {core : Core} :
    run host cfg = .ok core ↔ core.cfg = cfg ∧ Ready host core := by
  simp only [run,bind_ok_iff,optionally_ok_iff,checkModel_ok_iff,checkWhisper_ok_iff,
    loadSkills_ok_iff,checkTts_ok_iff,openStore_ok_iff,readToken_ok_iff,demand_ok_iff]
  constructor
  · rintro ⟨_,model,asr,isAsr,skills,isSkills,rate,isRate,_,store,token,isToken,_,port,made⟩
    cases made
    refine ⟨rfl,model,fun cfg configured => ?_,isSkills,isRate,store,isToken,port⟩
    dsimp only at configured
    rw [configured] at isAsr
    cases isAsr with
    | some healthy => exact healthy
  · rintro ⟨rfl,ready⟩
    have asr : ∃ found : Option Unit,
        Option.Rel (fun cfg _ => WhisperHealthy host cfg) core.cfg.asr found := by
      cases configured : core.cfg.asr with
      | none => exact ⟨none,.none⟩
      | some cfg => exact ⟨some (),.some (ready.asr cfg configured)⟩
    obtain ⟨found,isAsr⟩ := asr
    exact ⟨(),ready.model,found,isAsr,core.skills,ready.skills,core.sampleRate,ready.tts,(),
      ready.store,core.authToken,ready.token,(),ready.port,rfl⟩

theorem cli_serves {python : Config.Python} {path : PyStr} {file : Config.File} {core : Core} :
    cli host python path file = .serving core ↔
      Config.loadConfig python path file = .ok core.cfg ∧ Ready host core := by
  unfold cli
  cases loaded : Config.loadConfig python path file with
  | error error => cases error <;> simp
  | ok cfg =>
    have ready : cfg = core.cfg ∧ Ready host core ↔ run host cfg = .ok core := by
      rw [run_ok_iff,eq_comm]
    rw [Except.ok.injEq,ready]
    dsimp only
    cases run host cfg with
    | error raised => cases raised <;> simp [Raised.outcome]
    | ok own => simp

/-- What `loadConfig` gives is what the file says. -/
theorem loadConfig_reads {python : Config.Python} {path : PyStr} {file : Config.File}
    {cfg : CoreConfig} : Config.loadConfig python path file = .ok cfg ↔ ∃ content raw,
      file = .bytes content ∧ python.loads content = .ok raw ∧ cfg.Reads python raw := by
  cases file with
  | missing => simp [Config.loadConfig,Config.refuse]
  | unreadable error => simp [Config.loadConfig]
  | bytes content =>
    simp only [Config.loadConfig]
    cases loaded : python.loads content with
    | error error => simp [loaded]
    | ok raw =>
      have decides : Config.Decides (Config.readConfig raw python) _ :=
        Config.readConfig_decides python
      simp [decides.accepts cfg,loaded]

/-- The core serves exactly if the configuration file says what it serves with, and everything that
is configured there is in order; the skills are then those of the directory, each with the code
that its manifest names. -/
theorem serves_when_ready (host : Host) (python : Config.Python) (path : PyStr)
    (file : Config.File) (core : Core) :
    (cli host python path file = .serving core ↔ (∃ content raw, file = .bytes content ∧
      python.loads content = .ok raw ∧ core.cfg.Reads python raw) ∧ Ready host core) ∧
    ∀ skills, cli host python path file = .serving core → core.skills = some skills →
      ∃ cfg root, core.cfg.skills = some cfg ∧ host.expanduser cfg.dir = some root ∧
        SkillLibrary.Loaded host.python (host.skills root) skills := by
  refine ⟨by rw [cli_serves,loadConfig_reads],fun skills serves there => ?_⟩
  have ready := (cli_serves.mp serves).2.skills
  rw [there] at ready
  cases configured : core.cfg.skills with
  | none =>
    rw [configured] at ready
    cases ready
  | some cfg =>
    rw [configured] at ready
    cases ready with
    | some ready =>
      obtain ⟨root,known,loaded⟩ := ready.loaded
      exact ⟨cfg,root,rfl,known,load_loaded loaded⟩

/-! ## Who gets in -/

/-- What the upgrade comes to, for each list of credentials: they are let in, refused, or the
check of them fails, which `websockets` answers with a 500. -/
structure Guarded (token : PyStr) (check : List PyStr → Answer) : Prop where
  accepted (values : List PyStr) : check values = .accepted ↔
    values = [text "Bearer " ++ token] ∧ isAscii token = true
  raises (values : List PyStr) : check values = .raises ↔
    1 < values.length ∨ isAscii token = false ∨ ∃ value, values = [value] ∧ isAscii value = false
  unauthorized (values : List PyStr) : check values = .unauthorized ↔ isAscii token = true ∧
    (values = [] ∨ ∃ value, values = [value] ∧ isAscii value = true ∧
      value ≠ text "Bearer " ++ token)

theorem bearer_ascii (token : PyStr) : isAscii (text "Bearer " ++ token) = isAscii token := by
  rw [isAscii,List.all_append]
  rfl

/-- The comparison of one string with the credentials. -/
theorem answer_one (token value : PyStr) :
    answer (compareDigest value (text "Bearer " ++ token)) =
      if isAscii value && isAscii token then
        if value = text "Bearer " ++ token then .accepted else .unauthorized
      else .raises := by
  rw [compareDigest,bearer_ascii]
  split_ifs with ascii same
  · simp [answer,same]
  · simp [answer,same]
  · rfl

theorem checkAuth_guarded (token : PyStr) : Guarded token (checkAuth (some token)) := by
  have none : checkAuth (some token) [] =
      if isAscii token then .unauthorized else .raises := by
    have other : ([] : PyStr) ≠ text "Bearer " ++ token := by simp [text,PyStr.ofString]
    have empty : isAscii [] = true := rfl
    simp only [checkAuth,authorization,answer_one,empty,Bool.true_and,if_neg other]
  have one (value : PyStr) : checkAuth (some token) [value] = _ := answer_one token value
  have many (first second : PyStr) (rest : List PyStr) :
      checkAuth (some token) (first :: second :: rest) = .raises := rfl
  constructor
  · rintro (_ | ⟨value,_ | ⟨second,rest⟩⟩)
    · rw [none]
      split_ifs <;> simp
    · rw [one]
      by_cases same : value = text "Bearer " ++ token
      · subst same
        simp [bearer_ascii]
      · split_ifs <;> simp [same]
    · simp [many]
  · rintro (_ | ⟨value,_ | ⟨second,rest⟩⟩)
    · rw [none]
      split_ifs with ascii <;> simp [ascii]
    · rw [one]
      split_ifs with ascii same
      · simp_all
      · simp_all
      · simp only [Bool.and_eq_true,not_and,Bool.not_eq_true] at ascii
        by_cases plain : isAscii value = true
        · simp [ascii plain]
        · simp [plain]
    · simp [many]
  · rintro (_ | ⟨value,_ | ⟨second,rest⟩⟩)
    · rw [none]
      split_ifs with ascii <;> simp [ascii]
    · rw [one]
      split_ifs with ascii same
      · simp [same]
      · simp_all
      · simp only [Bool.and_eq_true,not_and] at ascii
        simp only [List.cons.injEq,and_true,false_or,false_iff]
        rintro ⟨plain,own,rfl,known,-⟩
        exact ascii known plain
    · simp [many]

/-- A core that serves on an address which is not loopback has read a token, and lets in only who
presents it, as the only credentials. -/
theorem no_open_door (host : Host) (python : Config.Python) (path : PyStr) (file : Config.File)
    (core : Core) (serves : cli host python path file = .serving core)
    (outside : python.loopback core.cfg.server.bind = false) :
    ∃ tokenFile token, core.cfg.server.authTokenFile = some tokenFile ∧
      TokenRead host tokenFile token ∧ Guarded token (checkAuth core.authToken) := by
  obtain ⟨loaded,ready⟩ := cli_serves.mp serves
  obtain ⟨content,raw,-,-,reads⟩ := loadConfig_reads.mp loaded
  have named : core.cfg.server.authTokenFile ≠ none := by
    intro none
    cases outside.symm.trans (reads.server.guarded none)
  obtain ⟨tokenFile,named⟩ := Option.ne_none_iff_exists'.mp named
  have read := ready.token
  rw [named] at read
  cases held : core.authToken with
  | none =>
    rw [held] at read
    cases read
  | some token =>
    rw [held] at read
    cases read with
    | some read => exact ⟨tokenFile,token,named,read,checkAuth_guarded token⟩

/-- A configuration without `[asr]`, `[skills]` and `[tts]`, for every address. -/
def publicConfig : Config.Document :=
  [(text "server",.table [(text "bind",.str (text "0.0.0.0")),(text "port",.int 8765),
      (text "auth_token_file",.str (text "token"))]),
    (text "llm",.table [(text "base_url",.str (text "llama")),(text "model",.str (text "qwen"))]),
    (text "memory",.table [(text "db",.str (text "core.db"))])]

def publicPython : Config.Python where
  loads := fun _ => .ok publicConfig
  isLoopback := fun _ => some false
  unicode := .widest
  reprOther := fun _ => []

/-- A host where everything is in order. -/
def publicHost : Host where
  unicode := .widest
  python := SkillLibrary.bare
  http := fun url => some ⟨url,fun _ => .answered 200 [] [],fun _ _ => .answered 200 [] []⟩
  models := fun _ => .ids [text "qwen"]
  bwrap := true
  prlimit := .ok true
  expanduser := some
  skills := fun _ => ⟨.ok false,.ok ⟨[],.nil⟩⟩
  mkdir := fun _ => true
  opens := fun _ => true
  readText := fun _ => .text (text "s3cret\n")
  listens := fun _ _ => true

def publicCore : Core where
  cfg :=
    { server := ⟨text "0.0.0.0",.int 8765,some (text "token")⟩
      llm := ⟨text "llama",text "qwen",Config.defaultSystemPrompt,.int 20⟩
      dbPath := text "core.db"
      asr := none
      skills := none
      tts := none }
  skills := none
  sampleRate := none
  authToken := some (text "s3cret")

theorem publicCore_guarded : cli publicHost publicPython [] (.bytes []) = .serving publicCore ∧
    ∃ tokenFile token, publicCore.cfg.server.authTokenFile = some tokenFile ∧
      TokenRead publicHost tokenFile token ∧ Guarded token (checkAuth publicCore.authToken) := by
  have serves : cli publicHost publicPython [] (.bytes []) = .serving publicCore := rfl
  exact ⟨serves,no_open_door publicHost publicPython [] (.bytes []) publicCore serves rfl⟩

end GhostRunner.Startup
