import GhostRunner.SkillProgramRuns

/-! What `jp_calendar` tells of a date, across calls. -/
namespace GhostRunner.SkillProgram

open Json (Readable)
open Skills (Call Gives Op maxResultBytes)
open Wire (Dict)

variable {reader : Json.Reader} {call : Call} {result : Dict}

/-! ## Numbers in text -/

/-- A number ends where the digits end. -/
theorem takeWhile_decimal (n : Nat) {s : PyStr} (stops : Json.Stops Json.isDigit s) :
    (text (toString n) ++ s).takeWhile Json.isDigit = (Nat.toDigits 10 n).map Char.codePoint := by
  rw [text,Json.ofString_toString]
  exact Json.takeWhile_stops (Json.digits_toDigits n).2 stops

theorem decimal_inj {m n : Nat} {s t : PyStr} (stops : Json.Stops Json.isDigit s)
    (ends : Json.Stops Json.isDigit t) (same : text (toString m) ++ s = text (toString n) ++ t) :
    m = n ∧ s = t := by
  have digits := congrArg (List.takeWhile Json.isDigit) same
  rw [takeWhile_decimal m stops,takeWhile_decimal n ends] at digits
  have equal : m = n := by
    have value := congrArg Json.digitsValue digits
    rwa [Json.digitsValue_toDigits,Json.digitsValue_toDigits] at value
  rw [equal] at same
  exact ⟨equal,List.append_cancel_left same⟩

theorem stops_text (label : String)
    (ends : ((text label).head?.any fun c => !Json.isDigit c) = true) (s : PyStr) :
    Json.Stops Json.isDigit (text label ++ s) := by
  intro c head
  cases shape : text label with
  | nil =>
    rw [shape] at ends
    cases ends
  | cons d rest =>
    rw [shape] at ends head
    cases head
    simpa using ends

/-- `year_label` -/
def yearLabel (eraYear : Nat) : PyStr :=
  if eraYear = 1 then text "元年" else text (toString eraYear) ++ text "年"

theorem yearLabel_inj {m n : Nat} {s t : PyStr} (same : yearLabel m ++ s = yearLabel n ++ t) :
    m = n ∧ s = t := by
  have year := stops_text "年" (by decide)
  have first := stops_text "元年" (by decide)
  have apart (n : Nat) (s t : PyStr) :
      text "元年" ++ s ≠ text (toString n) ++ (text "年" ++ t) := by
    intro same
    have digits := congrArg (List.takeWhile Json.isDigit) same
    have none : ([] ++ (text "元年" ++ s)).takeWhile Json.isDigit = [] :=
      Json.takeWhile_stops (by simp) (first s)
    rw [takeWhile_decimal n (year t),← List.nil_append (text "元年" ++ s),none] at digits
    exact (Json.digits_toDigits n).1 digits.symm
  simp only [yearLabel] at same
  split_ifs at same with one other other
  · exact ⟨one.trans other.symm,List.append_cancel_left same⟩
  · rw [List.append_assoc] at same
    exact absurd same (apart n s t)
  · rw [List.append_assoc] at same
    exact absurd same.symm (apart m t s)
  · rw [List.append_assoc,List.append_assoc] at same
    obtain ⟨equal,rest⟩ := decimal_inj (year s) (year t) same
    exact ⟨equal,List.append_cancel_left rest⟩

/-! ## Eras -/

theorem eras_apart : ∀ first ∈ eras, ∀ second ∈ eras,
    (text first.2).take 2 = (text second.2).take 2 → first = second := by
  decide

theorem eras_short : ∀ entry ∈ eras, (text entry.2).length = 2 := by
  decide

/-- The era in which the date falls, and how many years after its first. -/
theorem eraOf_some {date : Date} {era : String} {eraYear : Nat}
    (falls : eraOf date = some (era,eraYear)) :
    ∃ start, (start,era) ∈ eras ∧ start.year + eraYear = date.year + 1 := by
  simp only [eraOf,Option.map_eq_some_iff] at falls
  obtain ⟨⟨start,name⟩,found,pair⟩ := falls
  have reaches := List.find?_some found
  simp only [Date.reaches,Bool.or_eq_true,Bool.and_eq_true,decide_eq_true_eq] at reaches pair
  cases pair
  exact ⟨start,List.mem_of_find?_eq_some found,by omega⟩

theorem wareki_parts (date : Date) (era : String) (eraYear : Nat) :
    wareki date era eraYear = text era ++ (yearLabel eraYear ++ (text (toString date.month) ++
      (text "月" ++ (text (toString date.day) ++ (text "日" ++ []))))) := by
  simp [wareki,yearLabel]

/-- No two days are written alike. -/
theorem wareki_inj {date other : Date} {era name : String} {eraYear year : Nat}
    (falls : eraOf date = some (era,eraYear)) (lies : eraOf other = some (name,year))
    (same : wareki date era eraYear = wareki other name year) : date = other := by
  obtain ⟨start,among,after⟩ := eraOf_some falls
  obtain ⟨origin,within,later⟩ := eraOf_some lies
  rw [wareki_parts,wareki_parts] at same
  have taken := congrArg (List.take 2) same
  have entries : (start,era) = (origin,name) := by
    refine eras_apart _ among _ within ?_
    rwa [List.take_append_of_le_length (by rw [eras_short _ among]),
      List.take_append_of_le_length (by rw [eras_short _ within])] at taken
  cases entries
  obtain ⟨years,rest⟩ := yearLabel_inj (List.append_cancel_left same)
  have month := stops_text "月" (by decide)
  have day := stops_text "日" (by decide)
  obtain ⟨months,rest⟩ := decimal_inj (month _) (month _) rest
  obtain ⟨days,-⟩ := decimal_inj (day _) (day _) (List.append_cancel_left rest)
  have sameYear : date.year = other.year := by omega
  cases date
  cases other
  simp only [Date.mk.injEq]
  exact ⟨sameYear,months,days⟩

/-! ## Calls -/

variable {fromisoformat : PyStr → Except PyStr Date}

/-- What is returned for a date. -/
structure Dated (raw : PyStr) (date : Date) (era : String) (eraYear : Nat) (result : Dict) :
    Prop where
  falls : eraOf date = some (era,eraYear)
  result : result = [(text "date",.str raw),(text "era",.str (text era)),number "era_year" eraYear,
    (text "wareki",.str (wareki date era eraYear)),
    (text "weekday",.str (text (weekdays.getD date.weekday "")))]

theorem calendar_ok {raw : PyStr} {result : Dict}
    (returns : calendar fromisoformat raw = .ok result) :
    ∃ date era eraYear, fromisoformat raw = .ok date ∧ Dated raw date era eraYear result := by
  rw [calendar] at returns
  cases read : fromisoformat raw with
  | error exc =>
    rw [read] at returns
    cases returns
  | ok date =>
    cases falls : eraOf date with
    | none =>
      simp only [read,bind,Except.bind,falls] at returns
      cases returns
    | some answer =>
      obtain ⟨era,eraYear⟩ := answer
      simp only [read,bind,Except.bind,falls,pure,Except.pure] at returns
      exact ⟨date,era,eraYear,rfl,falls,(Except.ok.inj returns).symm⟩

theorem jpCalendar_ok {args result : Dict}
    (returns : (jpCalendar fromisoformat).main (.obj args) = .ok result) :
    ∃ raw date era eraYear, Dict.get args "date" = some (.str raw) ∧
      fromisoformat raw = .ok date ∧ Dated raw date era eraYear result := by
  simp only [jpCalendar] at returns
  rcases argument_obj args "date" "args.date must be a YYYY-MM-DD string" with
    ⟨raw,given,read⟩ | ⟨-,refused⟩
  · rw [read] at returns
    obtain ⟨date,era,eraYear,parsed,dated⟩ := calendar_ok returns
    exact ⟨raw,date,era,eraYear,given,parsed,dated⟩
  · rw [refused] at returns
    cases returns

theorem Dated.readable {raw : PyStr} {date : Date} {era : String} {eraYear : Nat}
    (dated : Dated raw date era eraYear result) (digits : 19 ≤ reader.maxDigits) (depth : Nat) :
    Readable reader (depth + 1) (.obj result) := by
  obtain ⟨falls,rfl⟩ := dated
  obtain ⟨start,-,after⟩ := eraOf_some falls
  have written : (toString eraYear).length ≤ 19 := by
    have last := date.inYears.2
    have first := start.inYears.1
    exact digits_le (by simp only [maxsize]; omega)
  refine ⟨?_,?_⟩
  · simp only [number,List.map_cons,List.map_nil]
    decide
  · intro member among
    simp only [number,List.mem_cons,List.not_mem_nil,or_false] at among
    rcases among with rfl | rfl | rfl | rfl | rfl
    · simp only [Readable]
    · simp only [Readable]
    · simp only [Readable,Int.natAbs_natCast]
      exact Nat.le_trans written digits
    · simp only [Readable]
    · simp only [Readable]

theorem Dated.encodes {raw : PyStr} {date : Date} {era : String} {eraYear : Nat}
    (dated : Dated raw date era eraYear result) (plain : raw.encodes = true) :
    (Json.obj result).encodes = true := by
  have year : (yearLabel eraYear).encodes = true := by
    simp only [yearLabel]
    split_ifs <;> simp [text]
  have written : (wareki date era eraYear).encodes = true := by
    rw [wareki_parts]
    simp [year,text]
  rw [dated.result]
  simp [Json.encodes,Json.all,Json.allMembers,number,text,plain,written]

/-- What `jp_calendar` returned for a call. -/
theorem jpCalendar_came {ops : List Op} (arrives : Arrives reader call)
    (gives : Gives call ((jpCalendar fromisoformat).script reader call.args) ops (.result result)) :
    ∃ raw date era eraYear, Dict.get call.args "date" = some (.str raw) ∧
      fromisoformat raw = .ok date ∧ Dated raw date era eraYear result := by
  refine jpCalendar_ok (result_came arrives (fun result returns => ?_) gives)
  obtain ⟨raw,date,era,eraYear,given,-,dated⟩ := jpCalendar_ok returns
  obtain ⟨depth,nested⟩ := arrives.depth
  rw [nested]
  exact ⟨dated.encodes (Wire.Dict.encodes_get arrives.encodes given),
    dated.readable arrives.digits depth⟩

theorem Dated.wareki {raw : PyStr} {date : Date} {era : String} {eraYear : Nat}
    (dated : Dated raw date era eraYear result) :
    Dict.get result "wareki" = some (.str (SkillProgram.wareki date era eraYear)) := by
  rw [dated.result]
  rfl

/-- Where two calls are given the same wareki they have been asked about the same day, however it
was written. -/
theorem same_wareki_same_day {other : Call} {otherReader : Json.Reader} {ops otherOps : List Op}
    {otherResult : Dict} (arrives : Arrives reader call) (comes : Arrives otherReader other)
    (gives : Gives call ((jpCalendar fromisoformat).script reader call.args) ops (.result result))
    (answers : Gives other ((jpCalendar fromisoformat).script otherReader other.args) otherOps
      (.result otherResult))
    (same : Dict.get result "wareki" = Dict.get otherResult "wareki") :
    ∃ raw otherRaw date, Dict.get call.args "date" = some (.str raw) ∧
      Dict.get other.args "date" = some (.str otherRaw) ∧ fromisoformat raw = .ok date ∧
        fromisoformat otherRaw = .ok date := by
  obtain ⟨raw,date,era,eraYear,given,read,dated⟩ := jpCalendar_came arrives gives
  obtain ⟨otherRaw,otherDate,name,year,asked,parsed,answered⟩ := jpCalendar_came comes answers
  have written : wareki date era eraYear = wareki otherDate name year := by
    rw [dated.wareki,answered.wareki] at same
    exact Json.str.inj (Option.some.inj same)
  have day := wareki_inj dated.falls answered.falls written
  exact ⟨raw,otherRaw,date,given,asked,read,day ▸ parsed⟩

/-- A reader of the day on which the newest era begins, in two of the formats. -/
def readReiwa (raw : PyStr) : Except PyStr Date :=
  if raw == text "2019-05-01" || raw == text "20190501" then
    match eras with
    | [] => .error []
    | (start,_) :: _ => .ok start
  else .error (text "Invalid isoformat string")

def firstOfReiwa (raw : String) : Dict :=
  [(text "date",.str (text raw)),(text "era",.str (text "令和")),number "era_year" 1,
    (text "wareki",.str (text "令和元年5月1日")),(text "weekday",.str (text "水曜日"))]

theorem reiwa_given {raw : String}
    (returns : (jpCalendar readReiwa).main (.obj (callWith "jp_calendar" "date" raw).args) =
      .ok (firstOfReiwa raw)) (short : (line (firstOfReiwa raw)).utf8.length ≤ maxResultBytes) :
    ∃ ops, Gives (callWith "jp_calendar" "date" raw)
      ((jpCalendar readReiwa).script Json.tenths (callWith "jp_calendar" "date" raw).args) ops
      (.result (firstOfReiwa raw)) := by
  have arrives := callWith_arrives "jp_calendar" "date" raw
  obtain ⟨given,date,era,eraYear,read,-,dated⟩ := jpCalendar_ok returns
  obtain ⟨depth,nested⟩ := arrives.depth
  have encodes := dated.encodes (Wire.Dict.encodes_get arrives.encodes read)
  have legible : Readable Json.tenths Json.tenths.maxDepth (.obj (firstOfReiwa raw)) := by
    rw [nested]
    exact dated.readable arrives.digits depth
  have printed : ((jpCalendar readReiwa).script Json.tenths
      (callWith "jp_calendar" "date" raw).args).stdout.length ≤ maxResultBytes := by
    rwa [script_ok arrives.readable returns]
  obtain ⟨ops,kept,gives⟩ := Skills.gives_some arrives.encodes printed
  have result := result_arrives arrives.agrees arrives.encodes arrives.readable returns encodes
    legible short gives
  rw [result] at gives
  exact ⟨ops,gives⟩

theorem reiwa_told : ∃ raw otherRaw date,
    Dict.get (callWith "jp_calendar" "date" "2019-05-01").args "date" = some (.str raw) ∧
      Dict.get (callWith "jp_calendar" "date" "20190501").args "date" = some (.str otherRaw) ∧
        readReiwa raw = .ok date ∧ readReiwa otherRaw = .ok date := by
  obtain ⟨ops,gives⟩ := @reiwa_given "2019-05-01" rfl (by decide +kernel)
  obtain ⟨otherOps,answers⟩ := @reiwa_given "20190501" rfl (by decide +kernel)
  exact same_wareki_same_day (callWith_arrives _ _ _) (callWith_arrives _ _ _) gives answers rfl

end GhostRunner.SkillProgram
