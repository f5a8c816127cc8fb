import GhostRunner.Commands

/-! Which commands the orchestrator answers by what cannot be written, and that a client can read
its other answers. -/
namespace GhostRunner.Commands

open Wire (Dict PyInt ProtocolError HandledPlainly Python)
open SkillLibrary (Skill Skills)
open Json (Reader)

/-! ## What can be encoded -/

theorem encodes_text (s : String) : (text s).encodes = true := PyStr.encodes_ofString s

theorem dict_encodes (key : String) (value : Json) :
    (Json.obj (dict key value)).encodes = value.encodes := by
  simp [dict,Json.encodes,Json.all,Json.allMembers,encodes_text]

variable {python : Python} {core : Core} {parts : Parts}

/-- The only member of a result is nested three levels deep in the ack. -/
theorem dict_fault (writer : Json.Writer) (key : String) (value : Json) :
    Json.fault writer (writer.maxDepth - 2) (.obj (dict key value)) =
      Json.fault writer (writer.maxDepth - 3) value := by
  obtain ⟨depth,bound⟩ : ∃ depth, writer.maxDepth = depth + 3 :=
    ⟨writer.maxDepth - 3,by have deep := writer.deep; omega⟩
  have first : writer.maxDepth - 2 = depth + 1 := by omega
  have second : writer.maxDepth - 3 = depth := by omega
  rw [first,second]
  simp [dict,Json.fault,Json.faultMembers]

theorem dict_plain {name : PyStr} (key : String) (value : Json) :
    HandledPlainly python name (.result (dict key value)) ↔ value.encodes = true ∧
      Json.fault python.writer (python.writer.maxDepth - 3) value = none := by
  rw [HandledPlainly,dict_encodes,dict_fault]

theorem allItems_iff {p : PyStr → Bool} {items : List Json} :
    Json.allItems p items = true ↔ ∀ item ∈ items, item.all p = true := by
  induction items with
  | nil => simp [Json.allItems]
  | cons item items ih => simp [Json.allItems,ih]

/-! ## The refusals -/

/-- The error can be told to the client. -/
def Told (error : ProtocolError) : Prop :=
  error.code.encodes = true ∧ error.message.encodes = true

/-- A refusal can be told. -/
def Fair : Except ProtocolError Request → Prop
  | .error error => Told error
  | .ok _ => True

theorem refuse_fair {code : String} {message : PyStr} (speaks : message.encodes = true) :
    Fair (refuse code message) :=
  ⟨encodes_text code,speaks⟩

theorem chatSend_fair (args : Dict) : Fair (chatSend args) := by
  simp only [chatSend]
  split
  · split_ifs
    · trivial
    · exact refuse_fair (encodes_text _)
  · exact refuse_fair (encodes_text _)

theorem turnCancel_fair (args : Dict) : Fair (turnCancel args) := by
  simp only [turnCancel]
  split
  · trivial
  · exact refuse_fair (encodes_text _)

theorem streamSync_fair (args : Dict) : Fair (streamSync args) := by
  simp only [streamSync]
  split
  · trivial
  · exact refuse_fair (encodes_text _)

theorem asrTranscribe_fair (args : Dict) : Fair (asrTranscribe core args) := by
  simp only [asrTranscribe]
  split_ifs
  · split
    · split_ifs
      · exact refuse_fair (encodes_text _)
      · split
        · exact refuse_fair (encodes_text _)
        · split_ifs
          · exact refuse_fair (encodes_text _)
          · trivial
          · exact refuse_fair (encodes_text _)
    · exact refuse_fair (encodes_text _)
  · exact refuse_fair (encodes_text _)

theorem skillList_fair : Fair (skillList core) := by
  simp only [skillList]
  split
  · exact refuse_fair (encodes_text _)
  · trivial

theorem skillRun_fair (args : Dict) : Fair (skillRun core args) := by
  simp only [skillRun]
  split
  · exact refuse_fair (encodes_text _)
  · split
    · split_ifs
      · exact refuse_fair (encodes_text _)
      · split
        · exact refuse_fair (encodes_text _)
        · split
          · exact refuse_fair (by simp [encodes_text])
          · trivial
    · exact refuse_fair (encodes_text _)

def commandNames : List String :=
  ["chat.send","turn.cancel","stream.sync","asr.transcribe","skill.list","skill.run"]

/-- Whatever a client asks, it can be told why it is refused. -/
theorem request_told {name : PyStr} {args : Dict} {error : ProtocolError}
    (refused : request core name args = .error error) : Told error := by
  have fair : Fair (request core name args) := by
    simp only [request]
    split_ifs
    · exact chatSend_fair args
    · exact turnCancel_fair args
    · exact streamSync_fair args
    · exact asrTranscribe_fair args
    · exact skillList_fair
    · exact skillRun_fair args
    · exact refuse_fair (by simp [encodes_text])
  rwa [refused] at fair

/-- What is not refused has one of the names. -/
theorem request_named {name : PyStr} {args : Dict} {asked : Request}
    (passed : request core name args = .ok asked) : ∃ known ∈ commandNames, name = text known := by
  by_contra unknown
  have other {s : String} (among : s ∈ commandNames) : name ≠ text s :=
    fun same => unknown ⟨s,among,same⟩
  rw [request,if_neg (other (by simp [commandNames])),if_neg (other (by simp [commandNames])),
    if_neg (other (by simp [commandNames])),if_neg (other (by simp [commandNames])),
    if_neg (other (by simp [commandNames])),if_neg (other (by simp [commandNames]))] at passed
  cases passed

/-! ## The answers -/

def Transcript.Encodes : Transcript → Prop
  | .text s => s.encodes = true
  | .asrError message => (truncate (Commands.text "ASR error: " ++ message)).encodes = true
  | .failed => True

/-- A result is nested in the ack three levels deep, an error is cut off. -/
def Ran.Writes (writer : Json.Writer) : Ran → Prop
  | .result members => (Json.obj members).encodes = true ∧
      Json.fault writer (writer.maxDepth - 3) (.obj members) = none
  | .skillError message | .executionError message => (truncate message).encodes = true
  | .failed => True

def SkillEncodes (skill : Skill) : Prop :=
  skill.name.encodes = true ∧ skill.version.encodes = true ∧ skill.description.encodes = true

/-- What the client is told of the other parts can be written. -/
def Writes (writer : Json.Writer) (core : Core) (parts : Parts) : Request → Prop
  | .chatSend s => ∀ turn ∈ parts.begin_ s, (toString turn).length ≤ writer.maxDigits
  | .turnCancel _ | .streamSync _ => True
  | .transcribe wav => (transcribe core.unicode (parts.infer wav)).Encodes
  | .skillList skills => ∀ named ∈ skills, SkillEncodes named.2
  | .skillRun skill args => (parts.run skill args).Writes writer

theorem protocolError_plain {name : PyStr} {code : String} {message : PyStr} :
    HandledPlainly python name (protocolError code message) ↔ message.encodes = true := by
  simp [protocolError,HandledPlainly,encodes_text]

theorem begun_plain {name : PyStr} (turn : Nat) :
    HandledPlainly python name (.result (dict "turn" (.int turn))) ↔
      (toString turn).length ≤ python.writer.maxDigits := by
  rw [dict_plain]
  simp [Json.encodes,Json.all,Json.fault]

theorem flag_plain {name : PyStr} (key : String) (flag : Bool) :
    HandledPlainly python name (.result (dict key (.bool flag))) := by
  rw [dict_plain]
  exact ⟨rfl,Json.fault_bool flag⟩

theorem describe_encodes (skill : Skill) : (describe skill).encodes = true ↔ SkillEncodes skill := by
  simp [describe,dict,Json.encodes,Json.all,Json.allMembers,encodes_text,SkillEncodes]

theorem skills_plain {name : PyStr} (skills : Skills) :
    HandledPlainly python name
        (.result (dict "skills" (.arr (skills.map fun (_,skill) => describe skill)))) ↔
      ∀ named ∈ skills, SkillEncodes named.2 := by
  obtain ⟨depth,bound⟩ : ∃ depth, python.writer.maxDepth - 3 = depth + 2 :=
    ⟨python.writer.maxDepth - 5,by have deep := python.writer.deep; omega⟩
  have flat (skill : Skill) : Json.fault python.writer (depth + 1) (describe skill) = none := by
    simp [describe,dict,Json.fault]
  rw [dict_plain,bound,Json.fault,Json.faultItems_none,Json.encodes,Json.all,allItems_iff]
  simp only [List.forall_mem_map,flat,implies_true,and_true]
  exact forall₂_congr fun named _ => describe_encodes named.2

/-- The answer can be written exactly if what it repeats can. -/
theorem perform_plain_iff {name : PyStr} (known : name.encodes = true) (sessionId : String)
    (asked : Request) : HandledPlainly python name (perform core parts sessionId asked) ↔
      Writes python.writer core parts asked := by
  cases asked with
  | chatSend s =>
    simp only [perform,Writes]
    cases parts.begin_ s with
    | none => simp [HandledPlainly,known]
    | some turn => simp [begun_plain]
  | turnCancel turn =>
    simp only [perform,Writes]
    cases parts.cancel turn with
    | cancelled done => simp [flag_plain]
    | permissionError => simp [protocolError_plain,encodes_text]
    | failed => simp [HandledPlainly,known]
  | streamSync stream =>
    simp only [perform,Writes]
    cases parts.sync stream with
    | none => simp [HandledPlainly,known]
    | some active => simp [flag_plain]
  | transcribe wav =>
    simp only [perform,Writes]
    cases Commands.transcribe core.unicode (parts.infer wav) with
    | text s => simp [dict_plain,Transcript.Encodes,Json.encodes,Json.all]
    | asrError message => simp [protocolError_plain,Transcript.Encodes]
    | failed => simp [HandledPlainly,Transcript.Encodes,known]
  | skillList skills => exact skills_plain skills
  | skillRun skill args =>
    simp only [perform,Writes]
    cases parts.run skill args with
    | result members => exact dict_plain "result" (.obj members)
    | skillError message => exact protocolError_plain
    | executionError message => exact protocolError_plain
    | failed => simp [HandledPlainly,Ran.Writes,known]

/-- A refusal can always be written, and a handler that breaks had a command that it knows. -/
theorem handleCommand_plain_iff (sessionId : String) (name : PyStr) (args : Dict) :
    HandledPlainly python name (handleCommand core parts sessionId name args) ↔
      ∀ asked, request core name args = .ok asked → Writes python.writer core parts asked := by
  have told := @request_told core name args
  simp only [handleCommand]
  cases passed : request core name args with
  | error error => simpa [HandledPlainly,Told] using told passed
  | ok asked =>
    obtain ⟨known,-,rfl⟩ := request_named passed
    simp [perform_plain_iff (encodes_text known)]

/-! ## What a client reads of them -/

/-- A result of a skill is what `json.loads` has read. -/
def Loaded (reader : Reader) (parts : Parts) : Prop :=
  ∀ skill args members, parts.run skill args = .result members →
    ∃ text, reader.loads text = .ok (.obj members)

theorem dict_formed {float : PyStr → String} (key : String) {value : Json}
    (formed : Json.Formed float value) : Json.Formed float (.obj (dict key value)) := by
  simpa [dict,Json.Formed,Json.FormedMembers] using formed

theorem describe_formed (float : PyStr → String) (skill : Skill) :
    Json.Formed float (describe skill) := by
  simp [dict,describe,Json.Formed,Json.FormedMembers,text]

theorem perform_formed {reader : Reader} (loaded : Loaded reader parts) {sessionId : String}
    {asked : Request} {members : Dict}
    (answered : perform core parts sessionId asked = .result members) :
    Json.Formed reader.float (.obj members) := by
  cases asked with
  | chatSend s =>
    simp only [perform] at answered
    split at answered
    · cases answered
      exact dict_formed "turn" trivial
    · cases answered
  | turnCancel turn =>
    simp only [perform] at answered
    split at answered
    · cases answered
      exact dict_formed "cancelled" trivial
    · cases answered
    · cases answered
  | streamSync stream =>
    simp only [perform] at answered
    split at answered
    · cases answered
      exact dict_formed "active" trivial
    · cases answered
  | transcribe wav =>
    simp only [perform] at answered
    split at answered
    · cases answered
      exact dict_formed "text" trivial
    · cases answered
    · cases answered
  | skillList skills =>
    cases answered
    refine dict_formed "skills" (Json.formedItems_iff.mpr ?_)
    rw [List.forall_mem_map]
    exact fun named _ => describe_formed reader.float named.2
  | skillRun skill args =>
    simp only [perform] at answered
    split at answered
    · next result ran =>
      cases answered
      obtain ⟨_,read⟩ := loaded skill args result ran
      exact dict_formed "result" (Json.readable_iff.mp (Json.loads_readable read)).1
    · cases answered
    · cases answered
    · cases answered

theorem handleCommand_formed {reader : Reader} (loaded : Loaded reader parts)
    {sessionId : String} {name : PyStr} {args members : Dict}
    (answered : handleCommand core parts sessionId name args = .result members) :
    Json.Formed reader.float (.obj members) := by
  simp only [handleCommand] at answered
  split at answered
  · cases answered
  · exact perform_formed loaded answered

end GhostRunner.Commands
