import Mathlib.Logic.Function.Basic
import GhostRunner.JsonRoundTrip
import GhostRunner.Machine

/-! `CoreStore` (`store.py`) on its SQLite file: what its statements do to the tables, what stays
uncommitted when a commit fails, and what is left of it when the process ends. -/
namespace GhostRunner.CoreStore

def text (s : String) : PyStr := .ofString s

def origins : List PyStr := ["balloon","voice","proactive","tool"].map text
def statuses : List PyStr := ["active","done","cancelled","error"].map text
def roles : List PyStr := ["user","assistant","tool"].map text

structure TurnRow where
  origin : PyStr
  ownerSession : PyStr
  startedAt : Int
  endedAt : Option Int := none
  status : PyStr := text "active"
  cancelReason : Option PyStr := none
  deriving DecidableEq, Repr

structure MessageRow where
  id : Int
  turnId : Int
  role : PyStr
  text : PyStr
  ts : Int
  deriving DecidableEq, Repr

/-- The `CHECK`s of the table `turns`. -/
def TurnRow.Checked (row : TurnRow) : Prop := row.origin ∈ origins ∧ row.status ∈ statuses

instance TurnRow.decidableChecked (row : TurnRow) : Decidable row.Checked :=
  inferInstanceAs (Decidable (row.origin ∈ origins ∧ row.status ∈ statuses))

/-- The tables, with what the schema demands of their rows. Messages stand in the order of their
ids. -/
structure Tables where
  schemaMeta : List Int
  kv : PyStr → Option PyStr
  turns : Int → Option TurnRow
  messages : List MessageRow
  checked : ∀ id row, turns id = some row → row.Checked
  spoken : ∀ m ∈ messages, m.role ∈ roles
  ordered : messages.Pairwise fun m m' => m.id < m'.id
  referenced : ∀ m ∈ messages, (turns m.turnId).isSome = true

/-- A file without rows. -/
def Tables.empty : Tables where
  schemaMeta := []
  kv := fun _ => none
  turns := fun _ => none
  messages := []
  checked := fun _ _ found => nomatch found
  spoken := fun _ among => nomatch among
  ordered := .nil
  referenced := fun _ among => nomatch among

inductive Error where
  | integrityError
  | operationalError
  | unicodeEncodeError
  | overflowError
  | valueError (message : PyStr)
  deriving DecidableEq, Repr

/-! ## Values of SQLite -/

def maxInteger : Int := 9223372036854775807

def bindText (s : PyStr) : Except Error Unit :=
  if s.encodes then .ok () else .error .unicodeEncodeError

def bindInteger (n : Int) : Except Error Unit :=
  if -maxInteger - 1 ≤ n ∧ n ≤ maxInteger then .ok () else .error .overflowError

def isBlank (c : CodePoint) : Bool := c = 0x20 || (0x09 ≤ c && c ≤ 0x0d)

def clamp (n : Int) : Int :=
  if n < -maxInteger - 1 then -maxInteger - 1 else if maxInteger < n then maxInteger else n

/-- `CAST(value AS INTEGER)`: the longest prefix that is an integer. -/
def castInteger (value : PyStr) : Int :=
  let signed := Json.scanSign Json.isSign (value.dropWhile isBlank)
  let digits := Json.digitsValue (signed.2.takeWhile Json.isDigit)
  clamp (if signed.1 = [0x2d] then -digits else digits)

/-- `CAST(CAST(value AS INTEGER) + 1 AS TEXT)`. A sum that is no integer of SQLite is a float. -/
def increment (value : PyStr) : PyStr :=
  if castInteger value = maxInteger then text "9.22337203685478e+18"
  else text (toString (castInteger value + 1))

/-! ## Statements -/

def counterKey : PyStr := text "turn_counter"

def Tables.setKv (tables : Tables) (key value : PyStr) : Tables :=
  { tables with kv := Function.update tables.kv key (some value) }

@[simp] theorem setKv_kv (tables : Tables) (key value : PyStr) :
    (tables.setKv key value).kv = Function.update tables.kv key (some value) := rfl

/-- The value that `next_turn_id` leaves under its key. -/
def Tables.nextCount (tables : Tables) : PyStr :=
  match tables.kv counterKey with
  | none => text "1"
  | some value => increment value

section Rows

variable (tables : Tables) (id : Int) (row : TurnRow)

theorem checked_update (valid : row.Checked) : ∀ id' row',
    Function.update tables.turns id (some row) id' = some row' → row'.Checked := by
  intro id' row' found
  by_cases same : id' = id
  · subst same
    rw [Function.update_self] at found
    cases found
    exact valid
  · rw [Function.update_of_ne same] at found
    exact tables.checked id' row' found

theorem referenced_update : ∀ m ∈ tables.messages,
    (Function.update tables.turns id (some row) m.turnId).isSome = true := by
  intro m among
  by_cases same : m.turnId = id
  · rw [same,Function.update_self]
    rfl
  · rw [Function.update_of_ne same]
    exact tables.referenced m among

/-- A row takes the place under its id. -/
def Tables.putTurn (valid : row.Checked) : Tables :=
  { tables with
    turns := Function.update tables.turns id (some row)
    checked := checked_update tables id row valid
    referenced := referenced_update tables id row }

end Rows

def insertTurn (id : Int) (row : TurnRow) (tables : Tables) : Except Error Tables :=
  if valid : row.Checked then
    if (tables.turns id).isSome then .error .integrityError else .ok (tables.putTurn id row valid)
  else .error .integrityError

/-- Where no row has the id, there is nothing to update. -/
def updateTurn (id : Int) (status : PyStr) (endedAt : Int) (cancelReason : Option PyStr)
    (tables : Tables) : Except Error Tables :=
  match tables.turns id with
  | none => .ok tables
  | some row =>
    let row := { row with status := status, endedAt := some endedAt, cancelReason := cancelReason }
    if valid : row.Checked then .ok (tables.putTurn id row valid) else .error .integrityError

def Tables.nextMessageId (tables : Tables) : Int :=
  match tables.messages.getLast? with
  | none => 1
  | some m => m.id + 1

theorem ordered_append (tables : Tables) (m : MessageRow) (next : m.id = tables.nextMessageId) :
    (tables.messages ++ [m]).Pairwise fun m m' => m.id < m'.id := by
  rw [List.pairwise_append]
  refine ⟨tables.ordered,List.pairwise_singleton _ _,fun m' among last only => ?_⟩
  rw [List.mem_singleton.mp only,next,Tables.nextMessageId]
  obtain ⟨before,final,split⟩ := List.eq_nil_or_concat tables.messages |>.resolve_left
    (List.ne_nil_of_mem among)
  have ordered := tables.ordered
  rw [List.concat_eq_append] at split
  rw [split] at among ordered
  simp only [split,List.getLast?_append,List.getLast?_singleton,Option.some_or]
  rcases List.mem_append.mp among with earlier | same
  · have less := (List.pairwise_append.mp ordered).2.2 m' earlier final (List.mem_singleton_self _)
    omega
  · rw [List.mem_singleton.mp same]
    omega

theorem spoken_append (tables : Tables) (m : MessageRow) (valid : m.role ∈ roles) :
    ∀ m' ∈ tables.messages ++ [m], m'.role ∈ roles := by
  intro m' among
  rcases List.mem_append.mp among with before | last
  · exact tables.spoken m' before
  · rw [List.mem_singleton.mp last]
    exact valid

theorem referenced_append (tables : Tables) (m : MessageRow)
    (there : (tables.turns m.turnId).isSome = true) :
    ∀ m' ∈ tables.messages ++ [m], (tables.turns m'.turnId).isSome = true := by
  intro m' among
  rcases List.mem_append.mp among with before | last
  · exact tables.referenced m' before
  · rw [List.mem_singleton.mp last]
    exact there

/-- The id is the next one after the largest. -/
def insertMessage (turnId : Int) (role message : PyStr) (ts : Int) (tables : Tables) :
    Except Error Tables :=
  let m : MessageRow := ⟨tables.nextMessageId,turnId,role,message,ts⟩
  if valid : role ∈ roles then
    if there : (tables.turns turnId).isSome = true then
      .ok { tables with
        messages := tables.messages ++ [m]
        spoken := spoken_append tables m valid
        ordered := ordered_append tables m rfl
        referenced := referenced_append tables m there }
    else .error .integrityError
  else .error .integrityError

/-! ## The connection -/

/-- What is committed, and what the connection sees: that and its open transaction. -/
structure Database where
  disk : Tables
  seen : Tables

/-- How SQLite fares with a statement and its commit. A failure may undo the open transaction. -/
inductive Luck where
  | works
  | statementFails (undone : Bool)
  | commitFails (undone : Bool)
  deriving DecidableEq, Repr

inductive Value where
  | none
  | integer (n : Int)
  deriving DecidableEq, Repr

def Database.undo (db : Database) (undone : Bool) : Database :=
  if undone then { db with seen := db.disk } else db

/-- One statement that writes, and the commit after it. -/
def Database.write (db : Database) (luck : Luck)
    (statement : Tables → Except Error (Tables × Value)) : Except Error Value × Database :=
  match luck with
  | .statementFails undone => (.error .operationalError,db.undo undone)
  | .commitFails undone =>
    match statement db.seen with
    | .error error => (.error error,db)
    | .ok (tables,_) => (.error .operationalError,Database.undo { db with seen := tables } undone)
  | .works =>
    match statement db.seen with
    | .error error => (.error error,db)
    | .ok (tables,value) => (.ok value,⟨tables,tables⟩)

inductive Call where
  | kvSet (key value : PyStr)
  | nextTurnId
  | recordTurn (turnId : Int) (origin ownerSession : PyStr) (now : Int)
  | finishTurn (turnId : Int) (status : PyStr) (cancelReason : Option PyStr) (now : Int)
  | appendMessage (turnId : Int) (role message : PyStr) (now : Int)
  deriving DecidableEq, Repr

/-- Without the value that a statement returns. -/
def unit (result : Except Error Tables) : Except Error (Tables × Value) :=
  result.map fun tables => (tables,.none)

def kvSet (key value : PyStr) (tables : Tables) : Except Error (Tables × Value) := do
  bindText key
  bindText value
  return (tables.setKv key value,.none)

def nextTurnId (tables : Tables) : Except Error (Tables × Value) :=
  .ok (tables.setKv counterKey tables.nextCount,.integer (castInteger tables.nextCount))

def recordTurn (turnId : Int) (origin ownerSession : PyStr) (now : Int) (tables : Tables) :
    Except Error (Tables × Value) := do
  bindInteger turnId
  bindText origin
  bindText ownerSession
  bindInteger now
  unit (insertTurn turnId { origin := origin, ownerSession := ownerSession, startedAt := now }
    tables)

def finishTurn (turnId : Int) (status : PyStr) (cancelReason : Option PyStr) (now : Int)
    (tables : Tables) : Except Error (Tables × Value) := do
  bindText status
  bindInteger now
  bindText (cancelReason.getD [])
  bindInteger turnId
  unit (updateTurn turnId status now cancelReason tables)

def appendMessage (turnId : Int) (role message : PyStr) (now : Int) (tables : Tables) :
    Except Error (Tables × Value) := do
  bindInteger turnId
  bindText role
  bindText message
  bindInteger now
  unit (insertMessage turnId role message now tables)

def Call.statement : Call → Tables → Except Error (Tables × Value)
  | .kvSet key value => CoreStore.kvSet key value
  | .nextTurnId => CoreStore.nextTurnId
  | .recordTurn turnId origin owner now => CoreStore.recordTurn turnId origin owner now
  | .finishTurn turnId status reason now => CoreStore.finishTurn turnId status reason now
  | .appendMessage turnId role message now => CoreStore.appendMessage turnId role message now

def terminal : List PyStr := ["done","cancelled","error"].map text

def Database.perform (db : Database) (unicode : PyStr.Unicode) (luck : Luck) (call : Call) :
    Except Error Value × Database :=
  match call with
  | .finishTurn _ status _ _ =>
    if status ∈ terminal then db.write luck call.statement
    else (.error (.valueError (text "invalid terminal turn status " ++ status.repr unicode)),db)
  | _ => db.write luck call.statement

/-- `__init__`: the tables are there, and then the row with the version. -/
def Tables.opened (tables : Tables) : Tables :=
  if tables.schemaMeta = [] then { tables with schemaMeta := [1] } else tables

def Database.kvGet (db : Database) (key : PyStr) : Except Error (Option PyStr) := do
  bindText key
  return db.seen.kv key

/-- `ORDER BY id DESC LIMIT ?`, then reversed. A negative limit is none. -/
def Database.recentMessages (db : Database) (limit : Int) : Except Error (List (PyStr × PyStr)) := do
  bindInteger limit
  let rows := if limit < 0 then db.seen.messages.reverse
    else db.seen.messages.reverse.take limit.toNat
  return (rows.map fun m => (m.role,m.text)).reverse

/-! ## One file and the processes that open it, one after another -/

/-- A call, what its connection saw before it, and what came of it. -/
structure Entry where
  seen : Tables
  call : Call
  result : Except Error Value

/-- The log holds the calls of all processes. -/
structure State where
  disk : Tables
  connection : Option Tables
  log : List Entry

/-- A new installation. -/
def fresh : State := ⟨.empty,none,[]⟩

inductive Op where
  /-- `CoreStore(path)`, or an attempt at it. -/
  | opens (works : Bool)
  | call (luck : Luck) (call : Call)
  /-- `close()`, or the end of the process at any point of a method. -/
  | ends
  deriving DecidableEq, Repr

def step (unicode : PyStr.Unicode) (s : State) : Op → Option State
  | .opens works =>
    if s.connection = none then
      if works then some { s with disk := s.disk.opened, connection := some s.disk.opened }
      else some s
    else none
  | .call luck call =>
    match s.connection with
    | none => none
    | some seen =>
      let (result,db) := Database.perform ⟨s.disk,seen⟩ unicode luck call
      some ⟨db.disk,some db.seen,s.log ++ [⟨seen,call,result⟩]⟩
  | .ends => some { s with connection := none }

/-- The ids that `next_turn_id` has returned. -/
def issued (log : List Entry) : List Int :=
  log.filterMap fun entry =>
    match entry.call,entry.result with
    | .nextTurnId,.ok (.integer n) => some n
    | _,_ => none

end GhostRunner.CoreStore
