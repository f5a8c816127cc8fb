import GhostRunner.SandboxOutcome
import GhostRunner.WireRoundTrip

/-! The skills that come with the core (`skills/text_stats/skill.py`,
`skills/jp_calendar/skill.py`), and the contract of a skill: arguments on stdin, a result on stdout,
and any failure on stderr. -/
namespace GhostRunner.SkillProgram

open Wire (Dict)

def text (s : String) : PyStr := .ofString s

/-- `main` returns the dict that it prints, or raises. -/
structure Program where
  name : String
  main : Json → Except PyStr Dict

structure Printed where
  stdout : PyStr := []
  stderr : PyStr := []
  code : Int

def newline : CodePoint := 0x0a

/-- `print(json.dumps(result, ensure_ascii=False))` -/
def line (result : Dict) : PyStr := Json.written Json.spaced (.obj result) ++ [newline]

def loadsMessage : Json.LoadsError → String
  | .jsonDecodeError message | .valueError message | .recursionError message => message

namespace Program

variable (program : Program)

/-- `print(f"{name}: {exc}", file=sys.stderr)`, and `sys.exit(1)`. -/
def fails (exc : PyStr) : Printed :=
  { stderr := text (program.name ++ ": ") ++ exc ++ [newline], code := 1 }

/-- The module as it is run, on what stands on stdin. -/
def run (reader : Json.Reader) (stdin : PyStr) : Printed :=
  match reader.loads stdin with
  | .error error => program.fails (text (loadsMessage error))
  | .ok args =>
    match program.main args with
    | .error exc => program.fails exc
    | .ok result => { stdout := line result, code := 0 }

/-- The process that `run_skill` starts and feeds with the arguments. -/
def script (reader : Json.Reader) (args : Dict) : Skills.Script :=
  let printed := program.run reader (Json.written Json.spaced (.obj args))
  ⟨printed.stdout.utf8,printed.stderr.utf8,printed.code⟩

end Program

/-- `args.get(key)`, which must be a string. -/
def argument (key : String) (complaint : String) : Json → Except PyStr PyStr
  | .obj args =>
    match Dict.get args key with
    | some (.str s) => .ok s
    | _ => .error (text complaint)
  | value => .error (text ("'" ++ value.typeName ++ "' object has no attribute 'get'"))

/-! ## `text_stats` -/

inductive Script where
  | hiragana
  | katakana
  | kanji
  deriving DecidableEq, Repr

def scriptOf (c : CodePoint) : Option Script :=
  if 0x3041 ≤ c ∧ c ≤ 0x309f then some .hiragana
  else if 0x30a0 ≤ c ∧ c ≤ 0x30ff then some .katakana
  else if (0x4e00 ≤ c ∧ c ≤ 0x9fff) ∨ (0x3400 ≤ c ∧ c ≤ 0x4dbf) then some .kanji
  else none

/-- `counts[script]` after the loop. -/
def count (script : Script) (s : PyStr) : Nat := s.countP fun c => scriptOf c = some script

def isLineBreak (c : CodePoint) : Bool :=
  (0x0a ≤ c && c ≤ 0x0d) || (0x1c ≤ c && c ≤ 0x1e) || c = 0x85 || c = 0x2028 || c = 0x2029

/-- `str.splitlines`, after the beginning of a line, or after `\r`. -/
def splitlinesFrom (before : PyStr) (afterCr : Bool) : PyStr → List PyStr
  | [] => if before = [] then [] else [before]
  | c :: rest =>
    if afterCr ∧ c = newline then splitlinesFrom before false rest
    else if isLineBreak c then before :: splitlinesFrom [] (c = 0x0d) rest
    else splitlinesFrom (before ++ [c]) false rest

def splitlines (s : PyStr) : List PyStr := splitlinesFrom [] false s

def number (key : String) (n : Nat) : PyStr × Json := (text key,.int n)

def stats (s : PyStr) : Dict :=
  [number "chars" s.length,number "chars_no_space" (s.countP fun c => !PyStr.isSpace c),
    number "lines" (splitlines s).length,number "hiragana" (count .hiragana s),
    number "katakana" (count .katakana s),number "kanji" (count .kanji s)]

def textStats : Program where
  name := "text_stats"
  main := fun args => (argument "text" "args.text must be a string" args).map stats

/-! ## `jp_calendar` -/

def isLeap (year : Nat) : Bool := year % 4 = 0 && (year % 100 ≠ 0 || year % 400 = 0)

def daysInMonth (year month : Nat) : Nat :=
  if month = 2 then if isLeap year then 29 else 28
  else if month = 4 ∨ month = 6 ∨ month = 9 ∨ month = 11 then 30 else 31

/-- `datetime.date` -/
structure Date where
  year : Nat
  month : Nat
  day : Nat
  inYears : 1 ≤ year ∧ year ≤ 9999
  inYear : 1 ≤ month ∧ month ≤ 12
  inMonth : 1 ≤ day ∧ day ≤ daysInMonth year month
  deriving DecidableEq

/-- `date >= start` -/
def Date.reaches (date start : Date) : Bool :=
  start.year < date.year || (start.year = date.year &&
    (start.month < date.month || (start.month = date.month && start.day ≤ date.day)))

def Date.daysBeforeYear (year : Nat) : Nat :=
  (year - 1) * 365 + (year - 1) / 4 - (year - 1) / 100 + (year - 1) / 400

def Date.daysBeforeMonth (year month : Nat) : Nat :=
  (List.range (month - 1)).foldl (fun days m => days + daysInMonth year (m + 1)) 0

def Date.toordinal (date : Date) : Nat :=
  daysBeforeYear date.year + daysBeforeMonth date.year date.month + date.day

/-- Monday is 0. -/
def Date.weekday (date : Date) : Nat := (date.toordinal + 6) % 7

/-- The newest era first. -/
def eras : List (Date × String) :=
  [(⟨2019,5,1,by decide,by decide,by decide⟩,"令和"),
    (⟨1989,1,8,by decide,by decide,by decide⟩,"平成"),
    (⟨1926,12,25,by decide,by decide,by decide⟩,"昭和"),
    (⟨1912,7,30,by decide,by decide,by decide⟩,"大正"),
    (⟨1868,1,25,by decide,by decide,by decide⟩,"明治")]

def weekdays : List String := ["月曜日","火曜日","水曜日","木曜日","金曜日","土曜日","日曜日"]

/-- The era of the date, and its year in it. -/
def eraOf (date : Date) : Option (String × Nat) :=
  (eras.find? fun (start,_) => date.reaches start).map fun (start,era) =>
    (era,date.year - start.year + 1)

def wareki (date : Date) (era : String) (eraYear : Nat) : PyStr :=
  text era ++ (if eraYear = 1 then text "元年" else text (toString eraYear) ++ text "年") ++
    text (toString date.month) ++ text "月" ++ text (toString date.day) ++ text "日"

def calendar (fromisoformat : PyStr → Except PyStr Date) (raw : PyStr) : Except PyStr Dict := do
  let date ← fromisoformat raw
  match eraOf date with
  | none => throw (raw ++ text " is before 明治 (1868-01-25); no era mapping")
  | some (era,eraYear) =>
    return [(text "date",.str raw),(text "era",.str (text era)),number "era_year" eraYear,
      (text "wareki",.str (wareki date era eraYear)),
      (text "weekday",.str (text (weekdays.getD date.weekday "")))]

def jpCalendar (fromisoformat : PyStr → Except PyStr Date) : Program where
  name := "jp_calendar"
  main := fun args => do
    let raw ← argument "date" "args.date must be a YYYY-MM-DD string" args
    calendar fromisoformat raw

end GhostRunner.SkillProgram
