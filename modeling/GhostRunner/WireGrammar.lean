import GhostRunner.Wire

/-! The grammar of inbound envelopes. `decode` departs from it in its test of the version, which
holds of everything that equals 1, and in its tests of integers, which hold of booleans. -/
namespace GhostRunner.Wire

/-- The field stands for a member that may be missing or null. -/
def Nullable {α : Type} (wrap : α → Json) (value : Option Json) (field : Option α) : Prop :=
  (value = none ∨ value = some .null) ∧ field = none ∨
    ∃ content, value = some (wrap content) ∧ field = some content

/-- The envelope has what the members say. A boolean may still pass for an integer. -/
structure Carries (members : Dict) (env : Envelope) : Prop where
  type : members.get "type" = some (.str env.type) ∧ env.type ∈ validTypes
  payload : members.get "payload" = none ∧ env.payload = [] ∨
    members.get "payload" = some (.obj env.payload)
  id : Nullable .str (members.get "id") env.id
  turn : Nullable PyInt.json (members.get "turn") env.turn
  ts : members.get "ts" = none ∧ env.ts = some (.int 0) ∨
    ∃ n, members.get "ts" = some n.json ∧ env.ts = some n
  seq : Nullable PyInt.json (members.get "seq") env.seq
  session : Nullable .str (members.get "session") env.session

/-- No boolean stands for an integer. -/
def Envelope.Integral (env : Envelope) : Prop :=
  ∀ field ∈ [env.turn,env.seq,env.ts], ∀ b, field ≠ some (.bool b)

/-- An object of version 1, and the envelope that it is. -/
def Grammar (value : Json) (env : Envelope) : Prop :=
  ∃ members : Dict, value = .obj members ∧ members.get "v" = some (.int protocolVersion) ∧
    Carries members env ∧ env.Integral

variable (python : Python)

/-- `decode` follows the grammar on a text that `json.loads` parses to the value. -/
structure FollowsGrammar (text : PyStr) (value : Json) : Prop where
  accepts : ∀ env, decode python (.text text) = .ok env ↔ Grammar value env
  refuses : (∀ env, ¬Grammar value env) →
    ∃ error, decode python (.text text) = .error (.protocolError error) ∧
      (error.code = .ofString eUnsupportedVersion ↔
        ∃ members : Dict, value = .obj members ∧ members.get "v" ≠ some (.int protocolVersion))

/-- The version is `true` or `1.0`; or it is 1, and all is well but for a boolean in the place of
an integer. -/
def Lax (value : Json) : Prop :=
  ∃ members : Dict, value = .obj members ∧
    (members.get "v" = some (.bool true) ∨ members.get "v" = some (.float "1.0") ∨
      members.get "v" = some (.int protocolVersion) ∧ ∃ env, Carries members env ∧ ¬env.Integral)

/-! ## The tests of `decode` -/

theorem isVersion_iff {value : Option Json} : isVersion value = true ↔
    value = some (.bool true) ∨ value = some (.float "1.0") ∨
      value = some (.int protocolVersion) := by
  cases value with
  | none => simp [isVersion]
  | some value => cases value <;> simp [isVersion]

theorem optionalStr_iff {value : Option Json} {field : Option PyStr} :
    optionalStr value = some field ↔ Nullable .str value field := by
  cases value with
  | none => simp [optionalStr,Nullable,eq_comm]
  | some value => cases value <;> simp [optionalStr,Nullable,eq_comm]

theorem asInt_iff {value : Json} {n : PyInt} : asInt value = some n ↔ value = n.json := by
  cases value <;> cases n <;> simp [asInt,PyInt.json]

theorem PyInt.json_ne_null (n : PyInt) : n.json ≠ .null := by
  cases n <;> simp [PyInt.json]

theorem optionalInt_iff {value : Option Json} {field : Option PyInt} :
    optionalInt value = some field ↔ Nullable PyInt.json value field := by
  rcases value with _ | value
  · simp [optionalInt,Nullable,eq_comm]
  · by_cases null : value = .null
    · subst null
      have differs (n : PyInt) : Json.null ≠ n.json := n.json_ne_null.symm
      simp [optionalInt,Nullable,differs,eq_comm]
    · have reads : optionalInt (some value) = (asInt value).map some := by
        cases value <;> first | rfl | exact absurd rfl null
      simp only [reads,Nullable,Option.map_eq_some_iff,asInt_iff,Option.some.injEq,reduceCtorEq,
        null,false_or,false_and]
      simp only [eq_comm]

theorem defaultDict_iff {value : Option Json} {members : Dict} :
    defaultDict value = some members ↔
      value = none ∧ members = [] ∨ value = some (.obj members) := by
  cases value with
  | none => simp [defaultDict,eq_comm]
  | some value => cases value <;> simp [defaultDict]

theorem knownType_iff {value : Option Json} {type : PyStr} :
    knownType value = some type ↔ value = some (.str type) ∧ type ∈ validTypes := by
  cases value with
  | none => simp [knownType]
  | some value =>
    cases value with
    | str s =>
      simp only [knownType,Option.ite_none_right_eq_some,Option.some.injEq,Json.str.injEq]
      constructor
      · rintro ⟨known,rfl⟩; exact ⟨rfl,known⟩
      · rintro ⟨rfl,known⟩; exact ⟨known,rfl⟩
    | _ => simp [knownType]

theorem require_ok {α β : Type} {value : Option α} {error : DecodeError}
    {rest : α → Except DecodeError β} {result : β} :
    (require value error >>= rest) = .ok result ↔
      ∃ content, value = some content ∧ rest content = .ok result := by
  cases value with
  | none => simp [require,bind,Except.bind]
  | some content => simp [require,bind,Except.bind]

theorem default_ts_iff {value : Option Json} {n : PyInt} :
    value.getD (.int 0) = n.json ↔ value = none ∧ n = .int 0 ∨ value = some n.json := by
  cases value with
  | none => cases n <;> simp [PyInt.json,eq_comm]
  | some value => simp

/-- What `decode` accepts. -/
theorem decodeObject_ok_iff {members : Dict} {env : Envelope} :
    decodeObject python members = .ok env ↔
      isVersion (members.get "v") = true ∧ Carries members env := by
  simp only [decodeObject,require_ok,knownType_iff,defaultDict_iff,optionalStr_iff,optionalInt_iff,
    asInt_iff,default_ts_iff]
  constructor
  · rintro ⟨_,version,type,known,payload,object,id,idField,turn,turnField,ts,tsField,seq,seqField,
      session,sessionField,made⟩
    cases made
    refine ⟨?_,known,?_,idField,turnField,?_,seqField,sessionField⟩
    · by_contra other
      simp [other] at version
    · exact object
    · rcases tsField with ⟨missing,zero⟩ | given
      · exact .inl ⟨missing,congrArg some zero⟩
      · exact .inr ⟨ts,given,rfl⟩
  · rintro ⟨version,carries⟩
    obtain ⟨ts,tsField,isTs⟩ : ∃ ts, (members.get "ts" = none ∧ ts = .int 0 ∨
        members.get "ts" = some ts.json) ∧ env.ts = some ts := by
      rcases carries.ts with ⟨missing,zero⟩ | ⟨n,given,isTs⟩
      · exact ⟨_,.inl ⟨missing,rfl⟩,zero⟩
      · exact ⟨n,.inr given,isTs⟩
    refine ⟨(),by rw [if_pos version],env.type,carries.type,env.payload,?_,env.id,carries.id,
      env.turn,carries.turn,ts,tsField,env.seq,carries.seq,env.session,carries.session,?_⟩
    · exact carries.payload
    · rw [← isTs]; rfl

/-! ## What `decode` refuses -/

theorem require_bad {α : Type} {value : Option α} {message : PyStr} {error : DecodeError}
    (failed : require value (badEnvelope message) = .error error) :
    ∃ refusal : ProtocolError, error = .protocolError refusal ∧
      refusal.code = .ofString eBadEnvelope := by
  cases value with
  | none => cases failed; exact ⟨_,rfl,rfl⟩
  | some value => cases failed

/-- An object of another version is refused as such; every other one is a bad envelope. -/
theorem decodeObject_error {members : Dict} {error : DecodeError}
    (failed : decodeObject python members = .error error) :
    ∃ refusal : ProtocolError, error = .protocolError refusal ∧
      refusal.code = .ofString
        (if isVersion (members.get "v") then eBadEnvelope else eUnsupportedVersion) := by
  by_cases version : isVersion (members.get "v") = true
  · simp only [decodeObject,version,if_true] at failed ⊢
    rcases bind_error failed with failed | ⟨_,failed⟩
    · cases failed
    iterate 7
      rcases bind_error failed with failed | ⟨_,failed⟩
      · exact require_bad failed
    cases failed
  · simp only [decodeObject,version] at failed ⊢
    cases failed
    exact ⟨_,rfl,rfl⟩

theorem decode_object {text : PyStr} {members : Dict}
    (parsed : python.loads text = .ok (.obj members)) :
    decode python (.text text) = decodeObject python members := by
  simp only [decode,parsed]

theorem decode_other {text : PyStr} {value : Json} (parsed : python.loads text = .ok value)
    (other : ∀ members : Dict, value ≠ .obj members) : decode python (.text text) =
      .error (badEnvelope (.ofString "envelope must be a JSON object")) := by
  cases value with
  | obj members => exact absurd rfl (other members)
  | _ => simp only [decode,parsed]

theorem codes_differ : PyStr.ofString eBadEnvelope ≠ .ofString eUnsupportedVersion := by
  decide

/-! ## The grammar -/

theorem grammar_object {members : Dict} {env : Envelope} : Grammar (.obj members) env ↔
    members.get "v" = some (.int protocolVersion) ∧ Carries members env ∧ env.Integral := by
  constructor
  · rintro ⟨_,same,rest⟩
    cases same
    exact rest
  · exact fun rest => ⟨members,rfl,rest⟩

theorem lax_object {members : Dict} : Lax (.obj members) ↔
    members.get "v" = some (.bool true) ∨ members.get "v" = some (.float "1.0") ∨
      members.get "v" = some (.int protocolVersion) ∧
        ∃ env, Carries members env ∧ ¬env.Integral := by
  constructor
  · rintro ⟨_,same,rest⟩
    cases same
    exact rest
  · exact fun rest => ⟨members,rfl,rest⟩

theorem not_lax_of_follows {text : PyStr} {members : Dict}
    (parsed : python.loads text = .ok (.obj members))
    (follows : FollowsGrammar python text (.obj members)) : ¬Lax (.obj members) := by
  have decoded := decode_object python parsed
  -- a version that equals 1 without being it should be refused for what it is
  have equal_version (version : isVersion (members.get "v") = true)
      (other : members.get "v" ≠ some (.int protocolVersion)) : False := by
    obtain ⟨refusal,refused,code⟩ := follows.refuses
      fun env grammar => other (grammar_object.1 grammar).1
    obtain ⟨_,same,bad⟩ := decodeObject_error python (decoded.symm.trans refused)
    cases same
    rw [if_pos version] at bad
    exact codes_differ (bad.symm.trans (code.2 ⟨members,rfl,other⟩))
  rw [lax_object]
  rintro (true_ | float | ⟨version,env,carries,boolean⟩)
  · exact equal_version (by rw [true_]; rfl) (by simp [true_])
  · exact equal_version (by rw [float]; rfl) (by simp [float])
  · have accepted : decode python (.text text) = .ok env :=
      decoded.trans ((decodeObject_ok_iff python).2 ⟨isVersion_iff.2 (.inr (.inr version)),carries⟩)
    exact boolean (grammar_object.1 ((follows.accepts env).1 accepted)).2.2

theorem follows_of_not_lax {text : PyStr} {members : Dict}
    (parsed : python.loads text = .ok (.obj members)) (strict : ¬Lax (.obj members)) :
    FollowsGrammar python text (.obj members) := by
  have decoded := decode_object python parsed
  rw [lax_object,not_or,not_or] at strict
  obtain ⟨not_true,not_float,integral⟩ := strict
  have version : isVersion (members.get "v") = true ↔
      members.get "v" = some (.int protocolVersion) := by
    rw [isVersion_iff,or_iff_right not_true,or_iff_right not_float]
  have accepts (env : Envelope) :
      decode python (.text text) = .ok env ↔ Grammar (.obj members) env := by
    rw [decoded,decodeObject_ok_iff,version,grammar_object]
    constructor
    · rintro ⟨one,carries⟩
      exact ⟨one,carries,by_contra fun boolean => integral ⟨one,env,carries,boolean⟩⟩
    · exact fun ⟨one,carries,_⟩ => ⟨one,carries⟩
  refine ⟨accepts,fun none_fits => ?_⟩
  cases outcome : decodeObject python members with
  | ok env => exact absurd ((accepts env).1 (decoded.trans outcome)) (none_fits env)
  | error error =>
    obtain ⟨refusal,rfl,code⟩ := decodeObject_error python outcome
    refine ⟨refusal,decoded.trans outcome,?_⟩
    rw [code]
    by_cases one : members.get "v" = some (.int protocolVersion)
    · rw [if_pos (version.2 one)]
      constructor
      · exact fun same => absurd same codes_differ
      · rintro ⟨_,same,other⟩
        cases same
        exact absurd one other
    · rw [if_neg (fun equal => one (version.1 equal))]
      exact ⟨fun _ => ⟨members,rfl,one⟩,fun _ => rfl⟩

theorem follows_of_other {text : PyStr} {value : Json} (parsed : python.loads text = .ok value)
    (other : ∀ members : Dict, value ≠ .obj members) : FollowsGrammar python text value := by
  have refused := decode_other python parsed other
  constructor
  · intro env
    rw [refused]
    constructor
    · exact fun same => by cases same
    · exact fun ⟨members,same,_⟩ => absurd same (other members)
  · intro _
    refine ⟨_,refused,?_⟩
    constructor
    · exact fun same => absurd same codes_differ
    · exact fun ⟨members,same,_⟩ => absurd same (other members)

/-- `decode` follows the grammar on every text but those that its tests are too wide for. -/
theorem decode_follows_grammar_iff {text : PyStr} {value : Json}
    (parsed : python.loads text = .ok value) :
    FollowsGrammar python text value ↔ ¬Lax value := by
  by_cases object : ∃ members : Dict, value = .obj members
  · obtain ⟨members,rfl⟩ := object
    exact ⟨not_lax_of_follows python parsed,follows_of_not_lax python parsed⟩
  · have other (members : Dict) : value ≠ .obj members := fun same => object ⟨members,same⟩
    constructor
    · rintro - ⟨members,same,-⟩
      exact other members same
    · exact fun _ => follows_of_other python parsed other

def booleanPing : PyStr :=
  .ofString "\x7b\"v\": 1, \"type\": \"ping\", \"turn\": true\x7d"

def booleanMembers : Dict :=
  [(.ofString "v",.int 1),(.ofString "type",.str (.ofString "ping")),(.ofString "turn",.bool true)]

def laterPing : PyStr := .ofString "\x7b\"v\": 2, \"type\": \"ping\"\x7d"

def laterMembers : Dict := [(.ofString "v",.int 2),(.ofString "type",.str (.ofString "ping"))]

/-- An interpreter that reads these two texts. -/
def twoPings : Python where
  loads text :=
    if text = booleanPing then .ok (.obj booleanMembers)
    else if text = laterPing then .ok (.obj laterMembers)
    else .error (.jsonDecodeError "Expecting value: line 1 column 1 (char 0)")
  unicode := .widest
  writer := .usual

theorem decode_later_version :
    twoPings.loads laterPing = .ok (.obj laterMembers) ∧
      FollowsGrammar twoPings laterPing (.obj laterMembers) := by
  have parsed : twoPings.loads laterPing = .ok (.obj laterMembers) := rfl
  have version : laterMembers.get "v" = some (.int 2) := rfl
  refine ⟨parsed,(decode_follows_grammar_iff twoPings parsed).2 ?_⟩
  rw [lax_object,version]
  simp [protocolVersion]

/-- A `true` is taken for a turn id. -/
theorem decode_boolean_turn :
    twoPings.loads booleanPing = .ok (.obj booleanMembers) ∧
      (∃ env, decode twoPings (.text booleanPing) = .ok env ∧ env.turn = some (.bool true)) ∧
      ¬FollowsGrammar twoPings booleanPing (.obj booleanMembers) := by
  have parsed : twoPings.loads booleanPing = .ok (.obj booleanMembers) := rfl
  let env : Envelope :=
    ⟨.ofString "ping",[],none,none,some (.bool true),none,some (.int 0)⟩
  have decoded : decode twoPings (.text booleanPing) = .ok env := by
    rw [decode_object twoPings parsed]
    rfl
  refine ⟨parsed,⟨env,decoded,rfl⟩,fun follows => ?_⟩
  obtain ⟨-,-,integral⟩ := grammar_object.1 ((follows.accepts env).1 decoded)
  exact integral (some (.bool true)) (by simp [env]) true rfl

end GhostRunner.Wire
