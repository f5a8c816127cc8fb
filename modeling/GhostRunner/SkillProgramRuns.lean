import GhostRunner.SkillProgram

/-! What becomes of a call of a skill that comes with the core, from the arguments in `run_skill` to
the result there. -/
namespace GhostRunner.SkillProgram

open Json (Readable)
open Skills (Call Gives Op Outcome Runtime maxResultBytes stderrCap)
open Wire (Dict)

/-! ## One line on stdout -/

/-- Bytes are read as the UTF-8 that they are. -/
structure Agrees (reader : Json.Reader) (runtime : Runtime) : Prop where
  loads : ∀ result : Dict, (Json.obj result).encodes = true →
    runtime.loads (line result).utf8 = reader.loads (line result)
  decodes : ∀ s : PyStr, s.encodes = true → runtime.decodeReplace s.utf8 = s

variable {reader : Json.Reader} {program : Program} {call : Call} {result : Dict}

theorem loads_line (readable : Readable reader reader.maxDepth (.obj result)) :
    reader.loads (line result) = .ok (.obj result) :=
  Json.loads_written_before Json.spaced_plain readable (by simp [newline,Json.isWhitespace])

theorem script_ok (readable : Readable reader reader.maxDepth (.obj call.args))
    (returns : program.main (.obj call.args) = .ok result) :
    program.script reader call.args = ⟨(line result).utf8,[],0⟩ := by
  simp only [Program.script,Program.run,Json.loads_written Json.spaced_plain readable,returns,
    PyStr.utf8_nil]

theorem script_error {exc : PyStr} (readable : Readable reader reader.maxDepth (.obj call.args))
    (raises : program.main (.obj call.args) = .error exc) :
    program.script reader call.args = ⟨[],(program.fails exc).stderr.utf8,1⟩ := by
  simp only [Program.script,Program.run,Json.loads_written Json.spaced_plain readable,raises,
    Program.fails,PyStr.utf8_nil]

/-- The dict that `main` returns is the result of the call, however the pipes are read. -/
theorem result_arrives {ops : List Op} {outcome : Outcome} (agrees : Agrees reader call.runtime)
    (encodes : (Json.obj call.args).encodes = true)
    (readable : Readable reader reader.maxDepth (.obj call.args))
    (returns : program.main (.obj call.args) = .ok result)
    (answers : (Json.obj result).encodes = true)
    (legible : Readable reader reader.maxDepth (.obj result))
    (short : (line result).utf8.length ≤ maxResultBytes)
    (gives : Gives call (program.script reader call.args) ops outcome) : outcome = .result result := by
  rw [script_ok readable returns] at gives
  rcases Skills.gives_final encodes gives with ⟨_,longer⟩ | ⟨_,kept,_,rfl⟩
  · exact absurd short (Nat.not_le_of_lt longer)
  · simp only [Call.conclude,ne_eq,not_true_eq_false,if_false,agrees.loads result answers,
      loads_line legible]

/-- What `main` raises is quoted in the error of the call. -/
theorem failure_arrives {exc : PyStr} {ops : List Op} {outcome : Outcome}
    (agrees : Agrees reader call.runtime) (encodes : (Json.obj call.args).encodes = true)
    (readable : Readable reader reader.maxDepth (.obj call.args))
    (raises : program.main (.obj call.args) = .error exc)
    (encoded : (program.fails exc).stderr.encodes = true)
    (short : (program.fails exc).stderr.utf8.length ≤ stderrCap)
    (own : ¬Skills.text "bwrap:" <+: (program.fails exc).stderr.strip)
    (detail : (program.fails exc).stderr.strip ≠ [])
    (gives : Gives call (program.script reader call.args) ops outcome) :
    outcome = .executionError (text ("skill " ++ call.skill.name ++ " exited " ++
      toString (1 : Int) ++ ": ") ++ (program.fails exc).stderr.strip.take Skills.stderrExcerpt) := by
  rw [script_error readable raises] at gives
  rcases Skills.gives_final encodes gives with ⟨_,longer⟩ | ⟨_,kept,among,rfl⟩
  · exact absurd longer (Nat.not_lt_of_le (Nat.zero_le _))
  · rcases among with ⟨_,rfl⟩ | ⟨longer,_⟩
    · have failed : (1 : Int) ≠ 0 := by decide
      simp only [Call.conclude,if_pos failed,agrees.decodes _ encoded]
      rw [if_neg own,if_neg detail]
      rfl
    · exact absurd short (Nat.not_le_of_lt longer)

/-- What has to hold of a call for the arguments to reach the skill. -/
structure Arrives (reader : Json.Reader) (call : Call) : Prop where
  agrees : Agrees reader call.runtime
  digits : 19 ≤ reader.maxDigits
  encodes : (Json.obj call.args).encodes = true
  readable : Readable reader reader.maxDepth (.obj call.args)

theorem Arrives.depth (arrives : Arrives reader call) : ∃ depth, reader.maxDepth = depth + 1 := by
  have readable := arrives.readable
  cases nested : reader.maxDepth with
  | zero =>
    rw [nested] at readable
    exact readable.elim
  | succ depth => exact ⟨depth,rfl⟩

/-- A result is what `main` returned. -/
theorem result_came {ops : List Op} {members : Dict} (arrives : Arrives reader call)
    (answers : ∀ result, program.main (.obj call.args) = .ok result →
      (Json.obj result).encodes = true ∧ Readable reader reader.maxDepth (.obj result))
    (gives : Gives call (program.script reader call.args) ops (.result members)) :
    program.main (.obj call.args) = .ok members := by
  have final := Skills.gives_final arrives.encodes gives
  rcases final with ⟨capped,-⟩ | ⟨-,kept,-,concluded⟩
  · cases capped
  · cases returns : program.main (.obj call.args) with
    | error exc =>
      have failed : (1 : Int) ≠ 0 := by decide
      rw [script_error arrives.readable returns,Skills.conclude_failed failed] at concluded
      split at concluded <;> cases concluded
    | ok result =>
      obtain ⟨encodes,legible⟩ := answers result returns
      rw [script_ok arrives.readable returns] at concluded
      simp only [Call.conclude,ne_eq,not_true_eq_false,if_false,
        arrives.agrees.loads result encodes,loads_line legible] at concluded
      cases concluded
      rfl

/-- An argument is read, or complained about. -/
theorem argument_obj (args : Dict) (key complaint : String) :
    (∃ s, Dict.get args key = some (.str s) ∧ argument key complaint (.obj args) = .ok s) ∨
      (∀ s, Dict.get args key ≠ some (.str s)) ∧
        argument key complaint (.obj args) = .error (text complaint) := by
  simp only [argument]
  split
  next s given => exact .inl ⟨s,given,rfl⟩
  next missing => exact .inr ⟨missing,rfl⟩

/-! ## How long a line is -/

/-- `sys.maxsize`: no string has more characters. -/
def maxsize : Nat := 2 ^ 63 - 1

theorem utf8_length (s : PyStr) : s.utf8.length ≤ 4 * s.length := by
  induction s with
  | nil => exact Nat.le_refl 0
  | cons c rest ih =>
    have single : (String.utf8EncodeChar (PyStr.toChar c)).length ≤ 4 := by
      rw [String.length_utf8EncodeChar]
      exact Char.utf8Size_le_four _
    simp only [PyStr.utf8,List.flatMap_cons,List.length_append,List.length_cons] at ih ⊢
    omega

theorem digits_le {n : Nat} (sized : n ≤ maxsize) : (toString n).length ≤ 19 := by
  have below : n < 10 ^ 19 := Nat.lt_of_le_of_lt sized (by decide)
  exact (Nat.length_repr_le_iff (by decide)).mpr below

theorem renderMembers_length (style : Json.Style) {most : Nat} (members : Dict)
    (each : ∀ member ∈ members, (style.str member.1).length +
      (Json.render style member.2).length ≤ most) :
    (Json.renderMembers style members).length ≤
      members.length * (most + style.key.length + style.item.length) := by
  match members with
  | [] => exact Nat.zero_le _
  | [(key,value)] =>
    have single := each (key,value) (List.mem_singleton_self _)
    simp only [Json.renderMembers,List.length_append,PyStr.ofString,List.length_map,
      String.length_toList,List.length_singleton,Nat.one_mul] at single ⊢
    omega
  | (key,value) :: next :: rest =>
    have first := each (key,value) List.mem_cons_self
    have others := renderMembers_length style (next :: rest)
      (fun member among => each member (List.mem_cons_of_mem _ among))
    simp only [Json.renderMembers,List.length_append,PyStr.ofString,List.length_map,
      String.length_toList,List.length_cons,Nat.succ_mul] at first others ⊢
    omega

theorem line_length {most : Nat}
    (each : ∀ member ∈ result, (Json.quote member.1).length +
      (Json.written Json.spaced member.2).length ≤ most) :
    (line result).utf8.length ≤ 4 * (result.length * (most + 2 + 2) + 3) := by
  have members : (Json.written Json.spaced (.obj result)).length ≤
      1 + result.length * (most + 2 + 2) + 1 := by
    rw [Json.written,Json.render,List.length_append,List.length_append]
    exact Nat.add_le_add_right (Nat.add_le_add_left (renderMembers_length _ result each) 1) 1
  have bytes := utf8_length (line result)
  simp only [line,List.length_append,List.length_singleton] at bytes ⊢
  omega

/-! ## `text_stats` -/

theorem splitlinesFrom_length (s : PyStr) : ∀ (before : PyStr) (afterCr : Bool),
    (splitlinesFrom before afterCr s).length ≤ s.length + if before = [] then 0 else 1 := by
  induction s with
  | nil =>
    intro before afterCr
    simp only [splitlinesFrom]
    split_ifs <;> simp
  | cons c rest ih =>
    intro before afterCr
    simp only [splitlinesFrom,List.length_cons]
    by_cases skipped : afterCr ∧ c = newline
    · have fewer := ih before false
      rw [if_pos skipped]
      omega
    · rw [if_neg skipped]
      by_cases broken : isLineBreak c = true
      · have fewer := ih [] (c = 0x0d)
        rw [if_pos rfl] at fewer
        rw [if_pos broken,List.length_cons]
        omega
      · have fewer := ih (before ++ [c]) false
        rw [if_neg (by simp)] at fewer
        rw [if_neg broken]
        omega

theorem splitlines_length (s : PyStr) : (splitlines s).length ≤ s.length := by
  have bound := splitlinesFrom_length s [] false
  rwa [if_pos rfl] at bound

/-- No count is larger than the text. -/
theorem stats_number {s : PyStr} {member : PyStr × Json} (among : member ∈ stats s) :
    ∃ n ≤ s.length, member.2 = .int n := by
  simp only [stats,List.mem_cons,List.not_mem_nil,or_false] at among
  rcases among with rfl | rfl | rfl | rfl | rfl | rfl
  · exact ⟨_,Nat.le_refl _,rfl⟩
  · exact ⟨_,List.countP_le_length,rfl⟩
  · exact ⟨_,splitlines_length s,rfl⟩
  · exact ⟨_,List.countP_le_length,rfl⟩
  · exact ⟨_,List.countP_le_length,rfl⟩
  · exact ⟨_,List.countP_le_length,rfl⟩

theorem stats_keys (s : PyStr) : (stats s).map Prod.fst = [text "chars",text "chars_no_space",
    text "lines",text "hiragana",text "katakana",text "kanji"] := rfl

theorem stats_readable {s : PyStr} (digits : 19 ≤ reader.maxDigits) (sized : s.length ≤ maxsize)
    (depth : Nat) : Readable reader (depth + 1) (.obj (stats s)) := by
  refine ⟨?_,?_⟩
  · rw [stats_keys]
    decide
  · intro member among
    obtain ⟨n,small,counted⟩ := stats_number among
    have written := digits_le (Nat.le_trans small sized)
    rw [counted]
    simp only [Readable,Int.natAbs_natCast]
    exact Nat.le_trans written digits

theorem stats_encodes (s : PyStr) : (Json.obj (stats s)).encodes = true := by
  simp [stats,number,Json.encodes,Json.all,Json.allMembers,text]

theorem line_stats_short {s : PyStr} (sized : s.length ≤ maxsize) :
    (line (stats s)).utf8.length ≤ maxResultBytes := by
  have each : ∀ member ∈ stats s, (Json.quote member.1).length +
      (Json.written Json.spaced member.2).length ≤ 37 := by
    intro member among
    obtain ⟨n,small,counted⟩ := stats_number among
    have keys : ∀ key ∈ (stats s).map Prod.fst, (Json.quote key).length ≤ 18 := by
      rw [stats_keys]
      decide
    have written := digits_le (Nat.le_trans small sized)
    have value : (Json.written Json.spaced member.2).length = (toString n).length := by
      rw [counted]
      simp only [Json.written,Json.render,PyStr.ofString,List.length_map,String.length_toList]
      rfl
    have key := keys member.1 (List.mem_map_of_mem among)
    omega
  have six : (stats s).length = 6 := rfl
  have bytes := line_length each
  rw [six] at bytes
  exact Nat.le_trans bytes (by decide)

/-- What `run_skill` makes of `text_stats`. -/
def textStatsOutcome (skill : String) (args : Dict) : Outcome :=
  match Dict.get args "text" with
  | some (.str s) => .result (stats s)
  | _ => .executionError (text ("skill " ++ skill ++ " exited " ++ toString (1 : Int) ++ ": " ++
      "text_stats: args.text must be a string"))

theorem textStatsOutcome_text {skill : String} {args : Dict} {s : PyStr}
    (given : Dict.get args "text" = some (.str s)) :
    textStatsOutcome skill args = .result (stats s) := by
  rw [textStatsOutcome,given]

theorem textStatsOutcome_other {skill : String} {args : Dict}
    (missing : ∀ s, Dict.get args "text" ≠ some (.str s)) :
    textStatsOutcome skill args = .executionError (text ("skill " ++ skill ++ " exited " ++
      toString (1 : Int) ++ ": " ++ "text_stats: args.text must be a string")) := by
  rw [textStatsOutcome]
  split
  next s given => exact absurd given (missing s)
  next => rfl

/-- However the pipes are read, the statistics of a text arrive, and an argument that is no text is
complained about. -/
theorem textStats_answers {ops : List Op} {outcome : Outcome} (arrives : Arrives reader call)
    (sized : ∀ s, Dict.get call.args "text" = some (.str s) → s.length ≤ maxsize)
    (gives : Gives call (textStats.script reader call.args) ops outcome) :
    outcome = textStatsOutcome call.skill.name call.args := by
  obtain ⟨depth,nested⟩ := arrives.depth
  obtain ⟨agrees,digits,encodes,readable⟩ := arrives
  have main : textStats.main (.obj call.args) =
      (argument "text" "args.text must be a string" (.obj call.args)).map stats := rfl
  rcases argument_obj call.args "text" "args.text must be a string" with
    ⟨s,given,read⟩ | ⟨missing,refused⟩
  · rw [read] at main
    have small := sized s given
    have legible : Readable reader reader.maxDepth (.obj (stats s)) := by
      rw [nested]
      exact stats_readable digits small depth
    rw [textStatsOutcome_text given]
    exact result_arrives agrees encodes readable main (stats_encodes s) legible
      (line_stats_short small) gives
  · rw [refused] at main
    have failed := failure_arrives agrees encodes readable main (by decide) (by decide)
      (by decide) (by decide) gives
    have quoted : (textStats.fails (text "args.text must be a string")).stderr.strip.take
        Skills.stderrExcerpt = text "text_stats: args.text must be a string" := by decide
    rw [failed,quoted,textStatsOutcome_other missing]
    simp [text,PyStr.ofString]

/-- Bytes are read as UTF-8. -/
def utf8Runtime (reader : Json.Reader) : Runtime where
  loads := fun bytes => match PyStr.fromUtf8? bytes with
    | some s => reader.loads s
    | none => .error (.valueError "'utf-8' codec can't decode bytes")
  decodeReplace := fun bytes => (PyStr.fromUtf8? bytes).getD []

theorem utf8Runtime_agrees (reader : Json.Reader) : Agrees reader (utf8Runtime reader) := by
  constructor
  · intro result encodes
    have whole : (line result).encodes = true := by
      rw [line,PyStr.encodes_append,Json.written_encodes,encodes]
      rfl
    simp only [utf8Runtime,PyStr.fromUtf8_utf8 whole]
  · intro s encodes
    simp only [utf8Runtime,PyStr.fromUtf8_utf8 encodes,Option.getD_some]

/-- A call with one string. -/
def callWith (skill key value : String) : Call where
  runtime := utf8Runtime Json.tenths
  skill := ⟨skill,"5.0"⟩
  args := [(text key,.str (text value))]

theorem callWith_arrives (skill key value : String) :
    Arrives Json.tenths (callWith skill key value) where
  agrees := utf8Runtime_agrees Json.tenths
  digits := by decide
  encodes := by simp [callWith,Json.encodes,Json.all,Json.allMembers,text]
  readable := by
    have deep : Json.tenths.maxDepth = (Json.tenths.maxDepth - 1) + 1 := by decide
    rw [deep]
    simp [callWith,Readable]

theorem kanji_counted : ∃ ops outcome,
    Gives (callWith "text_stats" "text" "漢字です")
      (textStats.script Json.tenths (callWith "text_stats" "text" "漢字です").args) ops outcome ∧
      outcome = .result (stats (text "漢字です")) := by
  have arrives := callWith_arrives "text_stats" "text" "漢字です"
  have sized : (text "漢字です").length ≤ maxsize := by decide
  have short : (textStats.script Json.tenths
      (callWith "text_stats" "text" "漢字です").args).stdout.length ≤ maxResultBytes := by
    have returns : textStats.main (.obj (callWith "text_stats" "text" "漢字です").args) =
        .ok (stats (text "漢字です")) := rfl
    rw [script_ok arrives.readable returns]
    exact line_stats_short sized
  obtain ⟨ops,kept,gives⟩ := Skills.gives_some arrives.encodes short
  refine ⟨ops,_,gives,?_⟩
  refine textStats_answers arrives (fun s given => ?_) gives
  cases given
  exact sized

end GhostRunner.SkillProgram
