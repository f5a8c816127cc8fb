import Mathlib.Data.List.Lex
import Mathlib.Data.List.Sort
import GhostRunner.Json
import GhostRunner.PyFloat

/-! One skill as it is loaded (`_load_manifest` in `skills/library.py`): its manifest is read and
checked, and then its code against the digest in it. -/
namespace GhostRunner.SkillLibrary

def maxTimeoutS : ℚ := 20

/-- A value in a TOML file. No check looks into the other ones: dates and times, arrays, tables. -/
inductive Toml where
  | str (s : PyStr)
  | int (n : Int)
  | float (x : PyFloat)
  | bool (b : Bool)
  | other

/-- What `tomllib.load` may raise. -/
inductive TomlError where
  | tomlDecodeError (message : PyStr)
  | unicodeDecodeError (message : PyStr)

abbrev Table := List (PyStr × Toml)

def Table.keys (raw : Table) : List PyStr := raw.map Prod.fst

def Table.get (raw : Table) (key : String) : Option Toml := raw.lookup (.ofString key)

/-- What the interpreter and its library do: `tomllib.load`, `str.lower`, the `repr` of a float,
the character table, and the `hexdigest` of SHA-256. -/
structure Python where
  loads : List UInt8 → Except TomlError Table
  decodes : ∀ bytes, (∃ message, loads bytes = .error (.unicodeDecodeError message)) ↔
    ¬(ByteArray.mk bytes.toArray).IsValidUTF8
  lower : PyStr → PyStr
  floatRepr : PyFloat → PyStr
  unicode : PyStr.Unicode
  hexdigest : List UInt8 → PyStr

/-- What an `OSError` says. -/
structure OSError where
  text : PyStr

/-- A path in the library, and what is found there: `manifest.toml` and `skill.py`. -/
structure Entry where
  path : PyStr
  name : PyStr
  isDir : Except OSError Bool
  manifest : Except OSError (List UInt8)
  codeIsFile : Except OSError Bool
  code : Except OSError (List UInt8)

structure Skill where
  name : PyStr
  version : PyStr
  description : PyStr
  timeoutS : PyFloat
  sha256 : PyStr
  provenance : PyStr
  path : PyStr

inductive Error where
  | skillError (message : PyStr)
  | unicodeDecodeError (message : PyStr)
  | overflowError
  | osError (error : OSError)

/-! ## Patterns -/

/-- `$` matches at the end, and before a line break at the end. -/
def beforeLineEnd (s : PyStr) : PyStr := if s.getLast? = some 0x0a then s.dropLast else s

def isDigit (c : CodePoint) : Bool := 0x30 ≤ c && c ≤ 0x39
def isLower (c : CodePoint) : Bool := 0x61 ≤ c && c ≤ 0x7a

/-- `_NAME_RE.match` -/
def nameMatches (s : PyStr) : Bool :=
  match beforeLineEnd s with
  | [] => false
  | c :: rest => isLower c && rest.length ≤ 63 &&
      rest.all fun d => isLower d || isDigit d || d = 0x5f

/-- `_SHA256_RE.match` -/
def sha256Matches (s : PyStr) : Bool :=
  (beforeLineEnd s).length = 64 &&
    (beforeLineEnd s).all fun d => isDigit d || (0x61 ≤ d && d ≤ 0x66)

def namePattern : String := "^[a-z][a-z0-9_]\x7b0,63\x7d$"

def manifestKeys : List PyStr :=
  ["name","version","description","timeout_s","sha256","provenance"].map .ofString

/-! ## `_load_manifest` -/

def text (s : String) : PyStr := .ofString s

variable (python : Python)

/-- The format `value!r` of a string. -/
def Python.reprStr (s : PyStr) : PyStr := s.repr python.unicode

/-- A sorted list of strings as it is printed. -/
def Python.reprSorted (keys : List PyStr) : PyStr :=
  (Json.arr ((keys.mergeSort fun a b => decide (a ≤ b)).map .str)).repr python.unicode

namespace Entry

variable (entry : Entry)

def manifestPath : PyStr := entry.path ++ text "/manifest.toml"
def codePath : PyStr := entry.path ++ text "/skill.py"

/-- A `SkillError` that says where. -/
def invalid (message : PyStr) : Error :=
  .skillError (text "skill manifest " ++ entry.manifestPath ++ text ": " ++ message)

def readManifest : Except Error Table :=
  match entry.manifest with
  | .error error => .error (entry.invalid (text "cannot read: " ++ error.text))
  | .ok bytes =>
    match python.loads bytes with
    | .error (.tomlDecodeError message) =>
      .error (entry.invalid (text "invalid TOML: " ++ message))
    | .error (.unicodeDecodeError message) => .error (.unicodeDecodeError message)
    | .ok raw => .ok raw

def check (passed : Bool) (message : PyStr) : Except Error Unit :=
  if passed then .ok () else .error (entry.invalid message)

def checkKeys (raw : Table) : Except Error Unit := do
  let unknown := raw.keys.filter (· ∉ manifestKeys)
  entry.check unknown.isEmpty (text "unknown keys " ++ python.reprSorted unknown)
  let missing := manifestKeys.filter (· ∉ raw.keys)
  entry.check missing.isEmpty (text "missing keys " ++ python.reprSorted missing)

/-- A string that is not empty. -/
def nonEmpty (raw : Table) (key : String) : Except Error PyStr :=
  match raw.get key with
  | some (.str (c :: rest)) => .ok (c :: rest)
  | _ => .error (entry.invalid (text (key ++ " must be a non-empty string")))

def number (raw : Table) : Except Error PyFloat :=
  match raw.get "timeout_s" with
  | some (.int n) =>
    match PyFloat.ofInt n with
    | some x => .ok x
    | none => .error .overflowError
  | some (.float x) => .ok x
  | _ => .error (entry.invalid (text "timeout_s must be a number"))

def readCode : Except Error (List UInt8) :=
  match entry.codeIsFile with
  | .error error => .error (.osError error)
  | .ok false => .error (entry.invalid (entry.codePath ++ text " does not exist"))
  | .ok true =>
    match entry.code with
    | .error error => .error (.osError error)
    | .ok bytes => .ok bytes

/-- The checks of the manifest. -/
def describe (raw : Table) : Except Error Skill := do
  entry.checkKeys python raw
  let name ← entry.nonEmpty raw "name"
  let version ← entry.nonEmpty raw "version"
  let description ← entry.nonEmpty raw "description"
  let written ← entry.nonEmpty raw "sha256"
  let provenance ← entry.nonEmpty raw "provenance"
  let timeoutS ← entry.number raw
  entry.check (timeoutS.within maxTimeoutS)
    (text "timeout_s must be in (0, 20.0] (got " ++ python.floatRepr timeoutS ++ text ")")
  let sha256 := python.lower written
  entry.check (sha256Matches sha256)
    (text "sha256 must be 64 hex characters, got " ++ python.reprStr written)
  entry.check (nameMatches name)
    (text "name " ++ python.reprStr name ++ text (" must match " ++ namePattern))
  entry.check (name = entry.name)
    (text "name " ++ python.reprStr name ++ text " does not match directory name " ++
      python.reprStr entry.name)
  return ⟨name,version,description,timeoutS,sha256,provenance,entry.path⟩

/-- `_load_manifest` -/
def loadManifest : Except Error Skill := do
  let raw ← entry.readManifest python
  let skill ← entry.describe python raw
  let bytes ← entry.readCode
  let actual := python.hexdigest bytes
  entry.check (actual = skill.sha256)
    (text "sha256 mismatch — manifest says " ++ skill.sha256 ++ text ", skill.py is " ++ actual ++
      text "; refusing to load tampered/stale skill")
  return skill

end Entry

/-! ## What `_load_manifest` accepts -/

theorem bind_ok_iff {α β : Type} {first : Except Error α} {rest : α → Except Error β}
    {result : β} :
    (first >>= rest) = .ok result ↔ ∃ value, first = .ok value ∧ rest value = .ok result := by
  cases first with
  | error error => simp [bind,Except.bind]
  | ok value => simp [bind,Except.bind]

/-- A key and its non-empty string. -/
def Holds (raw : Table) (key : String) (s : PyStr) : Prop :=
  raw.get key = some (.str s) ∧ s ≠ []

/-- The keys of a manifest, all of them and no other. -/
def Keyed (raw : Table) : Prop := ∀ key, key ∈ raw.keys ↔ key ∈ manifestKeys

/-- The manifest can be read, and has these contents. -/
def Entry.Reads (entry : Entry) (raw : Table) : Prop :=
  ∃ bytes, entry.manifest = .ok bytes ∧ python.loads bytes = .ok raw

/-- `timeout_s`, as a float or as an integer that is one. -/
def Times (raw : Table) (x : PyFloat) : Prop :=
  raw.get "timeout_s" = some (.float x) ∨
    ∃ n, raw.get "timeout_s" = some (.int n) ∧ PyFloat.ofInt n = some x

/-- The manifest describes the skill. -/
structure Entry.Describes (entry : Entry) (raw : Table) (skill : Skill) : Prop where
  keys : Keyed raw
  name : Holds raw "name" skill.name
  version : Holds raw "version" skill.version
  description : Holds raw "description" skill.description
  provenance : Holds raw "provenance" skill.provenance
  sha256 : ∃ written, Holds raw "sha256" written ∧ skill.sha256 = python.lower written
  times : Times raw skill.timeoutS
  within : skill.timeoutS.within maxTimeoutS = true
  hexadecimal : sha256Matches skill.sha256 = true
  pattern : nameMatches skill.name = true
  directory : skill.name = entry.name
  path : skill.path = entry.path

/-- The code is there, and has these contents. -/
def Entry.Has (entry : Entry) (bytes : List UInt8) : Prop :=
  entry.codeIsFile = .ok true ∧ entry.code = .ok bytes

/-- A directory that is a skill. -/
structure Entry.Valid (entry : Entry) (skill : Skill) : Prop where
  manifest : ∃ raw, entry.Reads python raw ∧ entry.Describes python raw skill
  digest : ∃ bytes, entry.Has bytes ∧ python.hexdigest bytes = skill.sha256

variable {python} {entry : Entry} {raw : Table}

theorem check_ok_iff {passed : Bool} {message : PyStr} {value : Unit} :
    entry.check passed message = .ok value ↔ passed = true := by
  cases passed <;> simp [Entry.check]

theorem readManifest_ok_iff : entry.readManifest python = .ok raw ↔ entry.Reads python raw := by
  simp only [Entry.readManifest,Entry.Reads]
  cases entry.manifest with
  | error error => simp
  | ok bytes =>
    cases loaded : python.loads bytes with
    | error error => cases error <;> simp [loaded]
    | ok read => simp [loaded]

theorem checkKeys_ok_iff {value : Unit} :
    entry.checkKeys python raw = .ok value ↔ Keyed raw := by
  simp only [Entry.checkKeys,bind_ok_iff,check_ok_iff,List.isEmpty_iff,List.filter_eq_nil_iff,
    decide_eq_true_eq,not_not,exists_const]
  constructor
  · rintro ⟨known,present⟩ key
    exact ⟨known key,present key⟩
  · intro keyed
    exact ⟨fun key => (keyed key).1,fun key => (keyed key).2⟩

theorem nonEmpty_ok_iff {key : String} {s : PyStr} :
    entry.nonEmpty raw key = .ok s ↔ Holds raw key s := by
  simp only [Entry.nonEmpty,Holds]
  split
  · next c rest found =>
    rw [found]
    simp only [Except.ok.injEq,Option.some.injEq,Toml.str.injEq]
    constructor
    · rintro rfl; exact ⟨rfl,by simp⟩
    · exact And.left
  · next other =>
    simp only [reduceCtorEq,false_iff]
    rintro ⟨found,some_text⟩
    cases s with
    | nil => exact some_text rfl
    | cons c rest => exact other c rest found

theorem number_ok_iff {x : PyFloat} : entry.number raw = .ok x ↔ Times raw x := by
  simp only [Entry.number,Times]
  split
  · next n found =>
    rw [found]
    cases converted : PyFloat.ofInt n <;> simp [converted]
  · next y found =>
    rw [found]
    simp
  · next other another =>
    simp only [reduceCtorEq,false_iff]
    rintro (found | ⟨n,found,_⟩)
    · exact another x found
    · exact other n found

theorem readCode_ok_iff {bytes : List UInt8} : entry.readCode = .ok bytes ↔ entry.Has bytes := by
  simp only [Entry.readCode,Entry.Has]
  cases entry.codeIsFile with
  | error error => simp
  | ok present =>
    cases present
    · simp
    · cases entry.code <;> simp

theorem describe_ok_iff {skill : Skill} :
    entry.describe python raw = .ok skill ↔ entry.Describes python raw skill := by
  simp only [Entry.describe,bind_ok_iff,checkKeys_ok_iff,nonEmpty_ok_iff,number_ok_iff,
    check_ok_iff,decide_eq_true_eq,exists_const]
  constructor
  · rintro ⟨keys,name,isName,version,isVersion,description,isDescription,written,isWritten,
      provenance,isProvenance,x,times,within,hexadecimal,pattern,directory,made⟩
    cases made
    exact ⟨keys,isName,isVersion,isDescription,isProvenance,⟨written,isWritten,rfl⟩,times,within,
      hexadecimal,pattern,directory,rfl⟩
  · intro describes
    obtain ⟨written,isWritten,lowered⟩ := describes.sha256
    refine ⟨describes.keys,_,describes.name,_,describes.version,_,describes.description,
      written,isWritten,_,describes.provenance,_,describes.times,describes.within,?_,
      describes.pattern,describes.directory,?_⟩
    · rw [← lowered]; exact describes.hexadecimal
    · rw [← lowered,← describes.path]; rfl

/-- `_load_manifest` accepts the directories that are skills. -/
theorem loadManifest_ok_iff {skill : Skill} :
    entry.loadManifest python = .ok skill ↔ entry.Valid python skill := by
  simp only [Entry.loadManifest,bind_ok_iff,readManifest_ok_iff,describe_ok_iff,readCode_ok_iff,
    check_ok_iff,decide_eq_true_eq]
  constructor
  · rintro ⟨raw,reads,read,describes,bytes,has,_,same,made⟩
    cases made
    exact ⟨⟨raw,reads,describes⟩,bytes,has,same⟩
  · rintro ⟨⟨raw,reads,describes⟩,bytes,has,same⟩
    exact ⟨raw,reads,skill,describes,bytes,has,(),same,rfl⟩

/-! ## What goes out of it besides a `SkillError` -/

/-- The failure is none that is meant to be caught. -/
def Escapes {α : Type} (result : Except Error α) : Prop :=
  ∃ error, result = .error error ∧ ∀ message, error ≠ .skillError message

theorem escapes_bind {α β : Type} {first : Except Error α} {rest : α → Except Error β} :
    Escapes (first >>= rest) ↔
      Escapes first ∨ ∃ value, first = .ok value ∧ Escapes (rest value) := by
  cases first with
  | error error => simp [Escapes,bind,Except.bind]
  | ok value => simp [Escapes,bind,Except.bind]

theorem escapes_error {α : Type} {error : Error} : Escapes (Except.error error : Except Error α) ↔
    ∀ message, error ≠ .skillError message := by
  simp [Escapes]

@[simp] theorem not_escapes_ok {α : Type} (value : α) :
    ¬Escapes (Except.ok value : Except Error α) := by
  simp [Escapes]

@[simp] theorem not_escapes_invalid {α : Type} (entry : Entry) (message : PyStr) :
    ¬Escapes (Except.error (entry.invalid message) : Except Error α) := by
  simp [Escapes,Entry.invalid]

@[simp] theorem not_escapes_check (entry : Entry) (passed : Bool) (message : PyStr) :
    ¬Escapes (entry.check passed message) := by
  cases passed <;> simp [Entry.check]

@[simp] theorem not_escapes_nonEmpty (entry : Entry) (raw : Table) (key : String) :
    ¬Escapes (entry.nonEmpty raw key) := by
  simp only [Entry.nonEmpty]
  split <;> simp

@[simp] theorem not_escapes_checkKeys (python : Python) (entry : Entry) (raw : Table) :
    ¬Escapes (entry.checkKeys python raw) := by
  simp [Entry.checkKeys,escapes_bind]

/-- The manifest is not in UTF-8. -/
def Entry.Garbled (entry : Entry) : Prop :=
  ∃ bytes, entry.manifest = .ok bytes ∧ ¬(ByteArray.mk bytes.toArray).IsValidUTF8

theorem escapes_readManifest : Escapes (entry.readManifest python) ↔ entry.Garbled := by
  simp only [Entry.readManifest,Entry.Garbled,← python.decodes]
  cases entry.manifest with
  | error error => simp
  | ok bytes =>
    cases loaded : python.loads bytes with
    | ok raw => simp [loaded]
    | error error =>
      cases error with
      | tomlDecodeError message => simp [loaded]
      | unicodeDecodeError message => simp [loaded,Escapes]

/-- `timeout_s` is an integer beyond the range of floats. -/
def Oversized (raw : Table) : Prop :=
  ∃ n, raw.get "timeout_s" = some (.int n) ∧ 2 ^ 1024 - 2 ^ 970 ≤ n.natAbs

theorem escapes_number : Escapes (entry.number raw) ↔ Oversized raw := by
  simp only [Entry.number,Oversized,← PyFloat.ofInt_eq_none_iff]
  split
  · next n found =>
    rw [found]
    cases converted : PyFloat.ofInt n <;> simp [converted,Escapes]
  · next x found => simp [found]
  · next other _ =>
    simp only [not_escapes_invalid,false_iff]
    rintro ⟨n,found,_⟩
    exact other n found

/-- The code cannot be looked up or read. -/
def Entry.Unreadable (entry : Entry) : Prop :=
  (∃ error, entry.codeIsFile = .error error) ∨
    entry.codeIsFile = .ok true ∧ ∃ error, entry.code = .error error

theorem escapes_readCode : Escapes entry.readCode ↔ entry.Unreadable := by
  simp only [Entry.readCode,Entry.Unreadable]
  cases entry.codeIsFile with
  | error error => simp [Escapes]
  | ok present =>
    cases present
    · simp
    · cases entry.code <;> simp [Escapes]

/-- The keys are those of a manifest, and its strings are there. -/
def Worded (raw : Table) : Prop :=
  Keyed raw ∧ ∀ key ∈ ["name","version","description","sha256","provenance"],
    ∃ s, Holds raw key s

theorem worded_iff : Worded raw ↔ Keyed raw ∧ (∃ s, Holds raw "name" s) ∧
    (∃ s, Holds raw "version" s) ∧ (∃ s, Holds raw "description" s) ∧
    (∃ s, Holds raw "sha256" s) ∧ ∃ s, Holds raw "provenance" s := by
  simp only [Worded,List.forall_mem_cons,List.not_mem_nil,false_implies,implies_true,and_true]

theorem escapes_describe :
    Escapes (entry.describe python raw) ↔ Worded raw ∧ Oversized raw := by
  simp only [Entry.describe,escapes_bind,checkKeys_ok_iff,nonEmpty_ok_iff,not_escapes_checkKeys,
    not_escapes_nonEmpty,not_escapes_check,not_escapes_ok,escapes_number,Pure.pure,Except.pure,
    false_or,or_false,and_false,exists_false,exists_const,worded_iff]
  constructor
  · rintro ⟨keyed,name,isName,version,isVersion,description,isDescription,written,isWritten,
      provenance,isProvenance,oversized⟩
    exact ⟨⟨keyed,⟨name,isName⟩,⟨version,isVersion⟩,⟨description,isDescription⟩,
      ⟨written,isWritten⟩,⟨provenance,isProvenance⟩⟩,oversized⟩
  · rintro ⟨⟨keyed,⟨name,isName⟩,⟨version,isVersion⟩,⟨description,isDescription⟩,
      ⟨written,isWritten⟩,⟨provenance,isProvenance⟩⟩,oversized⟩
    exact ⟨keyed,name,isName,version,isVersion,description,isDescription,written,isWritten,
      provenance,isProvenance,oversized⟩

/-- A directory that is no skill, of which `_load_manifest` does not say so by a `SkillError`. -/
inductive Entry.Breaks (python : Python) (entry : Entry) : Prop where
  | garbled (garbled : entry.Garbled)
  | oversized (raw : Table) (reads : entry.Reads python raw) (worded : Worded raw)
      (oversized : Oversized raw)
  | unreadable (raw : Table) (skill : Skill) (reads : entry.Reads python raw)
      (describes : entry.Describes python raw skill) (unreadable : entry.Unreadable)

theorem escapes_loadManifest : Escapes (entry.loadManifest python) ↔ entry.Breaks python := by
  simp only [Entry.loadManifest,escapes_bind,readManifest_ok_iff,describe_ok_iff,readCode_ok_iff,
    escapes_readManifest,escapes_describe,escapes_readCode,not_escapes_check,not_escapes_ok,
    Pure.pure,Except.pure,or_false,and_false,exists_false]
  constructor
  · rintro (garbled | ⟨raw,reads,⟨worded,oversized⟩ | ⟨skill,describes,unreadable⟩⟩)
    · exact .garbled garbled
    · exact .oversized raw reads worded oversized
    · exact .unreadable raw skill reads describes unreadable
  · rintro (garbled | ⟨raw,reads,worded,oversized⟩ | ⟨raw,skill,reads,describes,unreadable⟩)
    · exact .inl garbled
    · exact .inr ⟨raw,reads,.inl ⟨worded,oversized⟩⟩
    · exact .inr ⟨raw,reads,.inr ⟨skill,describes,unreadable⟩⟩

end GhostRunner.SkillLibrary
