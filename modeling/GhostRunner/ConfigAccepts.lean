import GhostRunner.Config

/-! The documents that `load_config` accepts, and that it rejects every other one by a
`ConfigError`. -/
namespace GhostRunner.Config

open SkillLibrary (Toml TomlError OSError)
open Wire (PyInt)

/-! ## What a document says -/

def PyInt.toml : PyInt → Toml
  | .int n => .int n
  | .bool b => .bool b

/-- The value under a section and a key. -/
def value (raw : Document) (section_ key : String) : Option Toml :=
  match raw.lookup (text section_) with
  | some (.table entries) => entries.lookup (text key)
  | _ => none

/-- Every section is a table, and it and its keys are known. -/
def Known (raw : Document) : Prop :=
  ∀ item ∈ raw, ∃ keys entries, known.lookup item.1 = some keys ∧ item.2 = .table entries ∧
    ∀ entry ∈ entries, entry.1 ∈ keys

def NonEmpty (value : Toml) (s : PyStr) : Prop := value = .str s ∧ s ≠ []

structure ServerConfig.Reads (python : Python) (raw : Document) (cfg : ServerConfig) : Prop where
  bind : value raw "server" "bind" = some (.str cfg.bind)
  port : value raw "server" "port" = some (PyInt.toml cfg.port)
  token : value raw "server" "auth_token_file" = cfg.authTokenFile.map .str
  guarded : cfg.authTokenFile = none → python.loopback cfg.bind = true

structure LlmConfig.Reads (raw : Document) (cfg : LlmConfig) : Prop where
  baseUrl : value raw "llm" "base_url" = some (.str cfg.baseUrl)
  model : value raw "llm" "model" = some (.str cfg.model)
  prompt : (value raw "llm" "system_prompt").getD (.str defaultSystemPrompt) = .str cfg.systemPrompt
  history : (value raw "llm" "history_messages").getD (.int 20) = PyInt.toml cfg.historyMessages
  count : notNegative cfg.historyMessages = true

structure AsrConfig.Reads (raw : Document) (cfg : AsrConfig) : Prop where
  serverUrl : value raw "asr" "server_url" = some (.str cfg.serverUrl)
  language : NonEmpty ((value raw "asr" "language").getD (.str (text "ja"))) cfg.language

structure SkillsConfig.Reads (raw : Document) (cfg : SkillsConfig) : Prop where
  dir : ∃ found, value raw "skills" "dir" = some found ∧ NonEmpty found cfg.dir

structure TtsConfig.Reads (raw : Document) (cfg : TtsConfig) : Prop where
  serverUrl : ∃ found, value raw "tts" "server_url" = some found ∧ NonEmpty found cfg.serverUrl
  engine : (value raw "tts" "engine").getD (.str (text "fish")) = .str (text cfg.engine.name)
  voice : NonEmpty ((value raw "tts" "voice").getD (.str (text "none"))) cfg.voice
  supported : cfg.voice = text "none" ∨ cfg.engine = .irodori

/-- A section that is there is read, and only then is there anything. -/
def Optionally {α : Type} (raw : Document) (section_ : String) (reads : α → Prop) (cfg : Option α) :
    Prop :=
  if has raw section_ then ∃ read, cfg = some read ∧ reads read else cfg = none

structure CoreConfig.Reads (python : Python) (raw : Document) (cfg : CoreConfig) : Prop where
  known : Known raw
  server : cfg.server.Reads python raw
  llm : cfg.llm.Reads raw
  dbPath : value raw "memory" "db" = some (.str cfg.dbPath)
  asr : Optionally raw "asr" (AsrConfig.Reads raw) cfg.asr
  skills : Optionally raw "skills" (SkillsConfig.Reads raw) cfg.skills
  tts : Optionally raw "tts" (TtsConfig.Reads raw) cfg.tts

/-! ## A check and what it lets pass -/

/-- The function gives what the property says, and rejects everything else by a `ConfigError`. -/
structure Decides {α : Type} (result : Except Error α) (property : α → Prop) : Prop where
  accepts : ∀ a, result = .ok a ↔ property a
  rejects : ∀ error, result = .error error → ∃ message, error = .configError message

theorem Decides.ok {α : Type} {property : α → Prop} (a : α) (only : ∀ b, a = b ↔ property b) :
    Decides (.ok a) property :=
  ⟨fun b => by simpa using only b,fun _ same => by cases same⟩

theorem Decides.refuse {α : Type} {property : α → Prop} {message : PyStr}
    (never : ∀ a, ¬property a) : Decides (refuse message : Except Error α) property :=
  ⟨fun a => ⟨fun same => (by cases same),fun holds => (never a holds).elim⟩,
    fun _ same => by cases same; exact ⟨message,rfl⟩⟩

theorem Decides.imp {α : Type} {result : Except Error α} {p q : α → Prop} (decides : Decides result p)
    (same : ∀ a, p a ↔ q a) : Decides result q :=
  ⟨fun a => (decides.accepts a).trans (same a),decides.rejects⟩

/-- Checks in turn. -/
theorem Decides.bind {α β : Type} {first : Except Error α} {rest : α → Except Error β}
    {p : α → Prop} {q : α → β → Prop} (decides : Decides first p)
    (next : ∀ a, p a → Decides (rest a) (q a)) :
    Decides (first >>= rest) fun b => ∃ a, p a ∧ q a b := by
  cases first with
  | error error =>
    refine ⟨fun b => ?_,fun error' same => decides.rejects error' ?_⟩
    · constructor
      · intro same
        cases same
      · rintro ⟨a,holds,-⟩
        cases (decides.accepts a).mpr holds
    · cases same
      rfl
  | ok a =>
    have holds := (decides.accepts a).mp rfl
    have own := next a holds
    refine ⟨fun b => ?_,own.rejects⟩
    refine (own.accepts b).trans ⟨fun second => ⟨a,holds,second⟩,?_⟩
    rintro ⟨a',first,second⟩
    cases (decides.accepts a').mpr first
    exact second

theorem check_decides (passed : Bool) (message : PyStr) :
    Decides (check passed message) fun _ => passed = true := by
  cases passed
  · exact .refuse (by simp)
  · exact .ok () (by simp)

theorem asStr_decides (found : Toml) (message : String) :
    Decides (asStr found message) fun s => found = .str s := by
  cases found with
  | str s => exact .ok s fun b => by simp
  | _ => exact .refuse (by simp)

theorem asNonEmpty_decides (found : Toml) (message : String) :
    Decides (asNonEmpty found message) (NonEmpty found) := by
  cases found with
  | str s =>
    cases s with
    | nil => exact .refuse (by simp [NonEmpty])
    | cons c rest =>
      refine .ok _ fun b => ⟨?_,fun both => by simpa using both.1⟩
      rintro rfl
      exact ⟨rfl,by simp⟩
  | _ => exact .refuse (by simp [NonEmpty])

theorem asInt_decides (found : Toml) (message : String) :
    Decides (asInt found message) fun n => found = PyInt.toml n := by
  cases found with
  | int n => exact .ok (PyInt.int n) fun b => by cases b <;> simp [PyInt.toml]
  | bool n => exact .ok (PyInt.bool n) fun b => by cases b <;> simp [PyInt.toml]
  | _ => exact .refuse fun b => by cases b <;> simp [PyInt.toml]

theorem asOptional_decides (found : Option Toml) (message : String) :
    Decides (asOptional found message) fun s => found = s.map .str := by
  cases found with
  | none => exact .ok none fun b => by cases b <;> simp
  | some found =>
    cases found with
    | str s => exact .ok (some s) fun b => by cases b <;> simp
    | _ => exact .refuse fun b => by cases b <;> simp

theorem asEngine_decides (python : Python) (found : Toml) :
    Decides (asEngine python found) fun engine => found = .str (text engine.name) := by
  cases found with
  | str s =>
    simp only [asEngine]
    split_ifs with fish irodori
    · exact .ok Engine.fish fun b => by cases b <;> simp [fish,Engine.name,text]
    · exact .ok Engine.irodori fun b => by cases b <;> simp [irodori,Engine.name,text]
    · refine .refuse fun b => ?_
      cases b <;> simp_all [Engine.name]
  | _ => exact .refuse (by simp)

/-! ## Unknown names -/

theorem checkKeys_decides (section_ : PyStr) (keys : List PyStr) (entries : List (PyStr × Toml)) :
    Decides (checkKeys section_ keys entries) fun _ => ∀ entry ∈ entries, entry.1 ∈ keys := by
  induction entries with
  | nil => exact .ok () (by simp)
  | cons entry rest ih =>
    obtain ⟨key,found⟩ := entry
    simp only [checkKeys]
    split_ifs with member
    · exact ih.imp (by simp [member])
    · exact .refuse (by simp [member])

theorem checkSections_decides (raw : Document) :
    Decides (checkSections raw) fun _ => Known raw := by
  induction raw with
  | nil => exact .ok () (by simp [Known])
  | cons item rest ih =>
    obtain ⟨section_,item⟩ := item
    simp only [checkSections]
    split
    · next unknown =>
      refine .refuse fun _ all => ?_
      obtain ⟨keys,_,found,_⟩ := all _ List.mem_cons_self
      cases unknown.symm.trans found
    · next keys found =>
      cases item with
      | other =>
        refine .refuse fun _ all => ?_
        obtain ⟨_,_,_,same,_⟩ := all _ List.mem_cons_self
        cases same
      | table entries =>
        refine ((checkKeys_decides section_ keys entries).bind fun _ _ => ih).imp fun _ => ?_
        simp [Known,found]

/-! ## Sections -/

/-- Whatever stands at the top is a table. -/
theorem Known.tables {raw : Document} (all : Known raw) {section_ : String} {item : Item}
    (found : raw.lookup (text section_) = some item) : ∃ entries, item = .table entries := by
  have member : (text section_,item) ∈ raw := by
    obtain ⟨before,after,rfl,-⟩ := List.lookup_eq_some_iff.mp found
    simp
  obtain ⟨_,entries,_,table,_⟩ := all _ member
  exact ⟨entries,table⟩

variable {raw : Document} {section_ key : String}

theorem require_decides (all : Known raw) (section_ key : String) :
    Decides (require raw section_ key) fun found => value raw section_ key = some found := by
  simp only [require,value]
  cases at_ : raw.lookup (text section_) with
  | none => exact .refuse (by simp)
  | some item =>
    obtain ⟨entries,rfl⟩ := all.tables at_
    dsimp only
    cases entries.lookup (text key) with
    | none => exact .refuse (by simp)
    | some found => exact .ok found (by simp)

theorem get_decides (all : Known raw) (there : has raw section_ = true) (key : String) :
    Decides (get raw section_ key) fun found => value raw section_ key = found := by
  simp only [get,value]
  simp only [has] at there
  cases at_ : raw.lookup (text section_) with
  | none => simp [at_] at there
  | some item =>
    obtain ⟨entries,rfl⟩ := all.tables at_
    exact .ok _ (by simp)

theorem has_of_value {found : Toml} (own : value raw section_ key = some found) :
    has raw section_ = true := by
  simp only [value] at own
  simp only [has]
  split at own
  · next entries at_ => rw [at_]; rfl
  · cases own

theorem serverConfig_decides (python : Python) (all : Known raw) :
    Decides (serverConfig raw python) (ServerConfig.Reads python raw) := by
  refine Decides.imp ((require_decides all "server" "bind").bind fun bind found =>
    (require_decides all "server" "port").bind fun port _ =>
    (asStr_decides bind _).bind fun bind _ =>
    (asInt_decides port _).bind fun port _ =>
    (get_decides all (has_of_value found) "auth_token_file").bind fun token _ =>
    (asOptional_decides token _).bind fun authTokenFile _ =>
    (check_decides _ _).bind fun _ _ =>
    .ok (ServerConfig.mk bind port authTokenFile) fun b => Iff.rfl) fun cfg => ?_
  constructor
  · rintro ⟨bind,isBind,port,isPort,own,rfl,number,rfl,token,isToken,file,rfl,-,guarded,rfl⟩
    refine ⟨isBind,isPort,isToken,fun open_ => ?_⟩
    cases open_
    simpa using guarded
  · intro reads
    refine ⟨_,reads.bind,_,reads.port,_,rfl,_,rfl,_,reads.token,_,rfl,(),?_,rfl⟩
    cases file : cfg.authTokenFile with
    | none => simp [reads.guarded file]
    | some file => simp

theorem llmConfig_decides (all : Known raw) :
    Decides (llmConfig raw) (LlmConfig.Reads raw) := by
  refine Decides.imp ((require_decides all "llm" "base_url").bind fun baseUrl found =>
    (require_decides all "llm" "model").bind fun model _ =>
    (asStr_decides baseUrl _).bind fun baseUrl _ =>
    (asStr_decides model _).bind fun model _ =>
    (get_decides all (has_of_value found) "system_prompt").bind fun prompt _ =>
    (asStr_decides (prompt.getD (.str defaultSystemPrompt)) _).bind fun systemPrompt _ =>
    (get_decides all (has_of_value found) "history_messages").bind fun history _ =>
    (asInt_decides (history.getD (.int 20)) _).bind fun historyMessages _ =>
    (check_decides _ _).bind fun _ _ =>
    .ok (LlmConfig.mk baseUrl model systemPrompt historyMessages) fun b => Iff.rfl) fun cfg => ?_
  constructor
  · rintro ⟨url,isUrl,model,isModel,own,rfl,named,rfl,-,rfl,prompt,isPrompt,-,rfl,history,isHistory,
      -,count,rfl⟩
    exact ⟨isUrl,isModel,isPrompt,isHistory,count⟩
  · intro reads
    exact ⟨_,reads.baseUrl,_,reads.model,_,rfl,_,rfl,_,rfl,_,reads.prompt,_,rfl,_,reads.history,(),
      reads.count,rfl⟩

theorem getAnyway_decides (all : Known raw) (section_ key : String) :
    Decides (getAnyway raw section_ key) fun found => value raw section_ key = found := by
  simp only [getAnyway]
  split
  · next there => exact get_decides all there key
  · next absent =>
    refine .ok none fun b => ?_
    cases own : value raw section_ key with
    | none => exact Iff.rfl
    | some found => exact absurd (has_of_value own) absent

theorem dbPath_decides (all : Known raw) :
    Decides (dbPath raw) fun path => value raw "memory" "db" = some (.str path) := by
  refine Decides.imp ((getAnyway_decides all "memory" "db").bind
    (q := fun found path => found = some (.str path)) fun found _ => ?_) fun path => by simp
  cases found with
  | none => exact .refuse (by simp)
  | some found => exact (asStr_decides found _).imp (by simp)

theorem asrConfig_decides (all : Known raw) :
    Decides (asrConfig raw) (AsrConfig.Reads raw) := by
  refine Decides.imp ((require_decides all "asr" "server_url").bind fun url found =>
    (asStr_decides url _).bind fun serverUrl _ =>
    (get_decides all (has_of_value found) "language").bind fun language _ =>
    (asNonEmpty_decides (language.getD (.str (text "ja"))) _).bind fun language _ =>
    .ok (AsrConfig.mk serverUrl language) fun b => Iff.rfl) fun cfg => ?_
  constructor
  · rintro ⟨url,isUrl,own,rfl,-,rfl,language,isLanguage,rfl⟩
    exact ⟨isUrl,isLanguage⟩
  · intro reads
    exact ⟨_,reads.serverUrl,_,rfl,_,rfl,_,reads.language,rfl⟩

theorem skillsConfig_decides (all : Known raw) :
    Decides (skillsConfig raw) (SkillsConfig.Reads raw) := by
  refine Decides.imp ((require_decides all "skills" "dir").bind fun dir _ =>
    (asNonEmpty_decides dir _).bind fun dir _ =>
    .ok (SkillsConfig.mk dir) fun b => Iff.rfl) fun cfg => ?_
  constructor
  · rintro ⟨found,isFound,dir,own,rfl⟩
    exact ⟨found,isFound,own⟩
  · rintro ⟨found,isFound,own⟩
    exact ⟨found,isFound,_,own,rfl⟩

theorem ttsConfig_decides (python : Python) (all : Known raw) :
    Decides (ttsConfig raw python) (TtsConfig.Reads raw) := by
  refine Decides.imp ((require_decides all "tts" "server_url").bind fun url found =>
    (asNonEmpty_decides url _).bind fun serverUrl _ =>
    (get_decides all (has_of_value found) "engine").bind fun engine _ =>
    (asEngine_decides python (engine.getD (.str (text "fish")))).bind fun engine _ =>
    (get_decides all (has_of_value found) "voice").bind fun voice _ =>
    (asNonEmpty_decides (voice.getD (.str (text "none"))) _).bind fun voice _ =>
    (check_decides _ _).bind fun _ _ =>
    .ok (TtsConfig.mk serverUrl engine voice) fun b => Iff.rfl) fun cfg => ?_
  constructor
  · rintro ⟨found,isFound,url,own,-,rfl,engine,isEngine,-,rfl,voice,isVoice,-,supported,rfl⟩
    exact ⟨⟨found,isFound,own⟩,isEngine,isVoice,by simpa using supported⟩
  · intro reads
    obtain ⟨found,isFound,own⟩ := reads.serverUrl
    exact ⟨found,isFound,_,own,_,rfl,_,reads.engine,_,rfl,_,reads.voice,(),
      by simpa using reads.supported,rfl⟩

theorem optionally_decides {α : Type} {read : Except Error α} {property : α → Prop}
    (section_ : String) (decides : Decides read property) :
    Decides (optionally raw section_ read) (Optionally raw section_ property) := by
  unfold optionally
  by_cases there : has raw section_ = true
  · rw [if_pos there]
    refine Decides.imp (p := fun cfg => ∃ read, cfg = some read ∧ property read) ?_
      fun cfg => by simp [Optionally,there]
    cases read with
    | error error =>
      refine ⟨fun a => ⟨fun same => (by cases same),?_⟩,fun error' same => ?_⟩
      · rintro ⟨found,-,holds⟩
        cases (decides.accepts found).mpr holds
      · cases same
        exact decides.rejects error rfl
    | ok found =>
      refine .ok (some found) fun a => ⟨?_,?_⟩
      · rintro rfl
        exact ⟨found,rfl,(decides.accepts found).mp rfl⟩
      · rintro ⟨own,rfl,holds⟩
        cases (decides.accepts own).mpr holds
        rfl
  · rw [if_neg there]
    exact .ok none fun a => by simp [Optionally,there,eq_comm]

theorem readConfig_decides (python : Python) :
    Decides (readConfig raw python) (CoreConfig.Reads python raw) := by
  refine Decides.imp ((checkSections_decides raw).bind fun _ all =>
    (serverConfig_decides python all).bind fun server _ =>
    (llmConfig_decides all).bind fun llm _ =>
    (dbPath_decides all).bind fun dbPath _ =>
    (optionally_decides "asr" (asrConfig_decides all)).bind fun asr _ =>
    (optionally_decides "skills" (skillsConfig_decides all)).bind fun skills _ =>
    (optionally_decides "tts" (ttsConfig_decides python all)).bind fun tts _ =>
    .ok (CoreConfig.mk server llm dbPath asr skills tts) fun b => Iff.rfl) fun cfg => ?_
  constructor
  · rintro ⟨-,known,server,isServer,llm,isLlm,db,isDb,asr,isAsr,skills,isSkills,tts,isTts,rfl⟩
    exact ⟨known,isServer,isLlm,isDb,isAsr,isSkills,isTts⟩
  · intro reads
    exact ⟨(),reads.known,_,reads.server,_,reads.llm,_,reads.dbPath,_,reads.asr,_,reads.skills,_,
      reads.tts,rfl⟩

/-- `load_config` gives exactly what the file says, if the file says all that it must and nothing
that it may not; and a TOML file that it does not accept, it rejects by a `ConfigError`, never by
another exception. -/
theorem loadConfig_exact (python : Python) (path : PyStr) (file : File) :
    (∀ cfg, loadConfig python path file = .ok cfg ↔ ∃ content raw, file = .bytes content ∧
      python.loads content = .ok raw ∧ cfg.Reads python raw) ∧
    ∀ error, loadConfig python path file = .error error →
      (∃ message, error = .configError message) ∨
      (∃ os, file = .unreadable os ∧ error = .osError os) ∨
      ∃ content toml, file = .bytes content ∧ python.loads content = .error toml ∧
        error = .tomlError toml := by
  cases file with
  | missing =>
    refine ⟨fun cfg => ⟨fun same => (by cases same),?_⟩,fun error same => ?_⟩
    · rintro ⟨_,_,same,_⟩
      cases same
    · cases same
      exact .inl ⟨_,rfl⟩
  | unreadable os =>
    refine ⟨fun cfg => ⟨fun same => (by cases same),?_⟩,fun error same => ?_⟩
    · rintro ⟨_,_,same,_⟩
      cases same
    · cases same
      exact .inr (.inl ⟨os,rfl,rfl⟩)
  | bytes content =>
    simp only [loadConfig]
    cases loaded : python.loads content with
    | error toml =>
      refine ⟨fun cfg => ⟨fun same => (by cases same),?_⟩,fun error same => ?_⟩
      · rintro ⟨_,_,same,read,_⟩
        cases same
        cases loaded.symm.trans read
      · cases same
        exact .inr (.inr ⟨content,toml,rfl,loaded,rfl⟩)
    | ok raw =>
      have decides : Decides (readConfig raw python) _ := readConfig_decides python
      refine ⟨fun cfg => (decides.accepts cfg).trans ⟨fun reads => ⟨content,raw,rfl,loaded,reads⟩,?_⟩,
        fun error same => .inl (decides.rejects error same)⟩
      rintro ⟨_,_,same,read,reads⟩
      cases same
      cases loaded.symm.trans read
      exact reads

end GhostRunner.Config
