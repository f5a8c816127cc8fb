import GhostRunner.Recordings
import GhostRunner.SkillProgramRuns

/-! The way of a `skill.run` from the client to the skill, and back. -/
namespace GhostRunner.Wire

open Json (Reader Readable)
open Commands (Core Parts Ran)
open Skills (Call Gives Op Outcome)
open SkillProgram (Program Arrives textStats textStatsOutcome)

/-- A client runs a skill. -/
def skillCommand (id name : PyStr) (args : Dict) : Envelope where
  type := .ofString "command"
  id := some id
  payload := [(.ofString "name",.str (.ofString "skill.run")),
    (.ofString "args",.obj [(.ofString "name",.str name),(.ofString "args",.obj args)])]

/-- What `_cmd_skill_run` sees of `run_skill`. -/
def ran : Outcome → Ran
  | .result members => .result members
  | .skillError message => .skillError message
  | .executionError message => .executionError message
  | .raised _ | .cancelled => .failed

def skillReply (id : PyStr) : Outcome → Envelope
  | .result members =>
    { type := .ofString "ack", id := some id,
      payload := [(.ofString "ok",.bool true),
        (.ofString "result",.obj [(.ofString "result",.obj members)])] }
  | .skillError message =>
    errorEnvelope (.ofString Commands.eUnavailable) (Commands.truncate message) (some id)
  | .executionError message =>
    errorEnvelope (.ofString eInternal) (Commands.truncate message) (some id)
  | .raised _ | .cancelled => errorEnvelope (.ofString eInternal)
      (.ofString "command skill.run failed; see core log") (some id)

variable {reader : Reader} {unicode : PyStr.Unicode} {core : Core} {parts : Parts}
  {id name : PyStr} {args : Dict}

theorem skillCommand_fits {now : Int} {depth : Nat} (deep : reader.maxDepth = depth + 3)
    (readable : Readable reader depth (.obj args)) (short : Short reader now) :
    (skillCommand id name args).Fits reader now := by
  refine ⟨by simp [skillCommand,validTypes],short,by simp [skillCommand],by simp [skillCommand],?_⟩
  have below : reader.maxDepth - 1 = depth + 2 := by omega
  rw [below]
  refine ⟨by simp [skillCommand],?_⟩
  simp only [skillCommand,List.forall_mem_cons]
  refine ⟨by simp [Readable],⟨by simp,?_⟩,by simp⟩
  simp only [List.forall_mem_cons]
  exact ⟨by simp [Readable],readable,by simp⟩

/-- The command reaches the skill of that name with those arguments. -/
theorem skill_request {skills : SkillLibrary.Skills} {skill : SkillLibrary.Skill}
    (configured : core.skills = some skills) (known : skills.lookup name = some skill)
    (named : name ≠ []) : Commands.request core (.ofString "skill.run")
      [(.ofString "name",.str name),(.ofString "args",.obj args)] = .ok (.skillRun skill args) := by
  have routed : Commands.request core (.ofString "skill.run")
      [(.ofString "name",.str name),(.ofString "args",.obj args)] =
        Commands.skillRun core [(.ofString "name",.str name),(.ofString "args",.obj args)] := by
    simp [Commands.request,Commands.text]
  rw [routed]
  simp [Commands.skillRun,configured,named,defaultDict,known]

/-- What `run_skill` comes to is what the client is told. -/
theorem skillRun_replied {sessionId : String} {sentAt : Int} {now : Millis} {skills : SkillLibrary.Skills}
    {skill : SkillLibrary.Skill} {outcome : Outcome} {depth : Nat}
    (deep : reader.maxDepth = depth + 3) (readable : Readable reader depth (.obj args))
    (short : Short reader sentAt) (configured : core.skills = some skills)
    (known : skills.lookup name = some skill) (named : name ≠ [])
    (comes : parts.run skill args = ran outcome) :
    Told (interpreter reader unicode) sessionId
      ⟨.text ((skillCommand id name args).text sentAt),Commands.handleCommand core parts,now⟩
      (skillReply id outcome) := by
  have decoded : decode (interpreter reader unicode)
      (.text ((skillCommand id name args).text sentAt)) =
        .ok ((skillCommand id name args).stamped sentAt) :=
    decode_encoded reader unicode _ sentAt (skillCommand_fits deep readable short)
  have call : commandCall ((skillCommand id name args).stamped sentAt).payload =
      some (.ofString "skill.run",
        [(.ofString "name",.str name),(.ofString "args",.obj args)]) := rfl
  have handled : Commands.handleCommand core parts sessionId (.ofString "skill.run")
      [(.ofString "name",.str name),(.ofString "args",.obj args)] =
        Commands.perform core parts sessionId (.skillRun skill args) := by
    rw [Commands.handleCommand,skill_request configured known named]
  refine told_command decoded rfl ((replyTo_command decoded rfl rfl call).trans ?_)
  simp only [handled,Commands.perform,comes]
  cases outcome <;> rfl

/-- A client asks for the statistics of a text, and gets them. However the pipes of the skill are
read, it is told of a result or of the complaint, and of nothing else. -/
theorem statistics_arrive (reader skillReader : Reader) (unicode : PyStr.Unicode) (core : Core)
    (parts : Parts) (sessionId : String) (id name : PyStr) (sentAt : Int) (now : Millis)
    (skills : SkillLibrary.Skills) (skill : SkillLibrary.Skill) (call : Call) (depth : Nat)
    (deep : reader.maxDepth = depth + 3) (readable : Readable reader depth (.obj call.args))
    (short : Short reader sentAt) (configured : core.skills = some skills)
    (known : skills.lookup name = some skill) (named : name ≠ [])
    (arrives : Arrives skillReader call)
    (sized : ∀ s, Dict.get call.args "text" = some (.str s) → s.length ≤ SkillProgram.maxsize)
    (runs : ∃ ops outcome, Gives call (textStats.script skillReader call.args) ops outcome ∧
      parts.run skill call.args = ran outcome) :
    Told (interpreter reader unicode) sessionId
      ⟨.text ((skillCommand id name call.args).text sentAt),
        Commands.handleCommand core parts,now⟩
      (skillReply id (textStatsOutcome call.skill.name call.args)) := by
  obtain ⟨ops,outcome,gives,comes⟩ := runs
  rw [SkillProgram.textStats_answers arrives sized gives] at comes
  exact skillRun_replied deep readable short configured known named comes

/-- The skill as it is installed with the core. -/
def textStatsSkill : SkillLibrary.Skill where
  name := .ofString "text_stats"
  version := .ofString "1.0.0"
  description := .ofString "statistics"
  timeoutS := .finite false 5
  sha256 := []
  provenance := []
  path := .ofString "skills/text_stats"

theorem kanji_arrive :
    Told (interpreter Json.tenths .widest) "s-1"
      ⟨.text ((skillCommand (.ofString "c1") (.ofString "text_stats")
          [(.ofString "text",.str (.ofString "漢字です"))]).text 0),
        Commands.handleCommand ⟨.widest,false,some [(.ofString "text_stats",textStatsSkill)]⟩
          { bareParts with
            run := fun _ _ => .result (SkillProgram.stats (.ofString "漢字です")) },epoch⟩
      (skillReply (.ofString "c1") (.result (SkillProgram.stats (.ofString "漢字です")))) := by
  have deep : Json.tenths.maxDepth = 997 + 3 := by decide
  have readable : Readable Json.tenths 997 (.obj
      (SkillProgram.callWith "text_stats" "text" "漢字です").args) := by
    have below : 997 = 996 + 1 := by decide
    rw [below]
    simp [SkillProgram.callWith,Readable]
  obtain ⟨ops,outcome,gives,rfl⟩ := SkillProgram.kanji_counted
  exact statistics_arrive Json.tenths Json.tenths .widest _ _ "s-1" (.ofString "c1")
    (.ofString "text_stats") 0 epoch _ textStatsSkill
    (SkillProgram.callWith "text_stats" "text" "漢字です") 997 deep readable
    (Nat.le_of_ble_eq_true rfl) rfl rfl (by decide)
    (SkillProgram.callWith_arrives "text_stats" "text" "漢字です")
    (fun s given => by cases given; decide) ⟨ops,_,gives,rfl⟩

end GhostRunner.Wire
