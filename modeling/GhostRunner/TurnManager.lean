import GhostRunner.Machine
import GhostRunner.Turns

/-! `TurnManager` (`orchestrator/turns.py`) by itself: any caller may call any operation with any
arguments at any time. A call is suspended while its notification is published, and what is raised
there goes out of it. The task of a turn is its caller's to set and to run. -/
namespace GhostRunner.TurnManager

open Orchestrator (Store Status)

/-- `Turn.task`, with the request to cancel it. -/
inductive Task where
  | absent
  | running (cancelling : Bool)
  | done
  deriving DecidableEq, Repr

structure Turn where
  origin : Origin := .balloon
  owner : Nat := 0
  status : String := "active"
  task : Task := .absent
  deriving DecidableEq, Repr

inductive Error where
  | valueError
  | operationalError
  | permissionError
  | notifyError
  deriving DecidableEq, Repr

inductive Value where
  | turn (t : Nat)
  | bool (b : Bool)
  | none
  deriving DecidableEq, Repr

/-- Where a caller stands: in no call yet, in a notification, or after its last call. -/
inductive Call where
  | outside
  | superseding (origin : Origin) (owner : Nat)
  | starting (t : Nat)
  | cancelling
  | finishing
  | returned (value : Value)
  | raised (error : Error)
  deriving DecidableEq, Repr

def Call.free : Call → Bool
  | .outside | .returned _ | .raised _ => true
  | _ => false

structure Notice where
  turn : Nat
  event : TurnEvent
  reason : Option String
  deriving DecidableEq, Repr

structure State where
  store : Store
  current : Option Nat
  turns : Nat → Turn
  calls : Nat → Call
  notified : List Notice

/-- A manager that starts on a store. -/
def init (store : Store) : State := ⟨store,none,fun _ => {},fun _ => .outside,[]⟩

namespace State

def modify (s : State) (t : Nat) (change : Turn → Turn) : State :=
  { s with turns := Function.update s.turns t (change (s.turns t)) }

def setCall (s : State) (a : Nat) (call : Call) : State :=
  { s with calls := Function.update s.calls a call }

def notify (s : State) (t : Nat) (event : TurnEvent) (reason : Option String) : State :=
  { s with notified := s.notified ++ [⟨t,event,reason⟩] }

/-- The status of a turn's row, if it has one. -/
def rowStatus (s : State) (t : Nat) : Option Status := (s.store.rows t).map Orchestrator.Row.status

end State

/-! ## `CoreStore.finish_turn` -/

def terminal : String → Option Status
  | "done" => some .done
  | "cancelled" => some .cancelled
  | "error" => some .error
  | _ => none

def finishTurn (store : Store) (t : Nat) (status : String) (reason : Option String)
    (stored : Bool) : Except Error Store :=
  match terminal status with
  | none => .error .valueError
  | some status =>
    if stored then .ok (store.finishTurn t status reason) else .error .operationalError

/-! ## The operations

`stored`, `counted` and `recorded` say whether the writes to the store succeed. -/

def Task.cancel : Task → Task
  | .running _ => .running true
  | task => task

/-- `by_session=None` is the core itself. Of another session's turns, only a proactive one may be
cancelled. -/
def Turn.mayCancel (r : Turn) (bySession : Option Nat) : Bool :=
  bySession.all fun session => session = r.owner || r.origin = .proactive

/-- `cancel` up to its notification, if it gets there. -/
def cancel (s : State) (t : Nat) (reason : String) (bySession : Option Nat) (stored : Bool) :
    State × Option (Except Error Bool) :=
  if s.current ≠ some t then (s,some (.ok false))
  else if (s.turns t).mayCancel bySession = false then (s,some (.error .permissionError))
  else
    let s := s.modify t fun r => { r with status := "cancelled" }
    match finishTurn s.store t "cancelled" (some reason) stored with
    | .error error => (s,some (.error error))
    | .ok store =>
      let s := { s with store := store, current := none }
      ((s.modify t fun r => { r with task := r.task.cancel }).notify t .cancelled (some reason),
        none)

/-- `begin` once no turn is active, up to its notification. -/
def start (s : State) (a : Nat) (origin : Origin) (owner : Nat) (counted recorded : Bool) :
    State :=
  if counted then
    let issued := s.store.nextTurnId
    let t := issued.2
    if recorded then
      let s := { s with
        store := issued.1.recordTurn t le_rfl origin owner
        current := some t
        turns := Function.update s.turns t { origin := origin, owner := owner } }
      (s.notify t .started none).setCall a (.starting t)
    else { s with store := issued.1 }.setCall a (.raised .operationalError)
  else s.setCall a (.raised .operationalError)

/-- `begin` -/
def beginTurn (s : State) (a : Nat) (origin : Origin) (owner : Nat)
    (stored counted recorded : Bool) : State :=
  match s.current with
  | none => start s a origin owner counted recorded
  | some t =>
    if (s.turns t).status = "active" then
      match cancel s t "superseded" none stored with
      | (s,none) => s.setCall a (.superseding origin owner)
      | (s,some (.ok _)) => start s a origin owner counted recorded
      | (s,some (.error error)) => s.setCall a (.raised error)
    else start s a origin owner counted recorded

def cancelTurn (s : State) (a t : Nat) (reason : String) (bySession : Option Nat)
    (stored : Bool) : State :=
  match cancel s t reason bySession stored with
  | (s,none) => s.setCall a .cancelling
  | (s,some (.ok b)) => s.setCall a (.returned (.bool b))
  | (s,some (.error error)) => s.setCall a (.raised error)

def finish (s : State) (a t : Nat) (status : String) (stored : Bool) : State :=
  if s.current ≠ some t then s.setCall a (.returned .none)
  else
    let s := s.modify t fun r => { r with status := status }
    match finishTurn s.store t status none stored with
    | .error error => s.setCall a (.raised error)
    | .ok store =>
      let s := { s with store := store, current := none }
      (s.notify t .done (if status = "done" then none else some status)).setCall a .finishing

/-- The notification of a suspended call has been published. -/
def resumes (s : State) (a : Nat) (counted recorded : Bool) : Option State :=
  match s.calls a with
  | .superseding origin owner => some (start s a origin owner counted recorded)
  | .starting t => some (s.setCall a (.returned (.turn t)))
  | .cancelling => some (s.setCall a (.returned (.bool true)))
  | .finishing => some (s.setCall a (.returned .none))
  | _ => none

inductive Op where
  | beginTurn (a : Nat) (origin : Origin) (owner : Nat) (stored counted recorded : Bool)
  | cancel (a t : Nat) (reason : String) (bySession : Option Nat) (stored : Bool)
  | finish (a t : Nat) (status : String) (stored : Bool)
  | resumes (a : Nat) (counted recorded : Bool)
  | notifyRaises (a : Nat)
  | task (t : Nat) (task : Task)
  deriving DecidableEq, Repr

def step (s : State) : Op → Option State
  | .beginTurn a origin owner stored counted recorded =>
    if (s.calls a).free then some (beginTurn s a origin owner stored counted recorded) else none
  | .cancel a t reason bySession stored =>
    if (s.calls a).free then some (cancelTurn s a t reason bySession stored) else none
  | .finish a t status stored =>
    if (s.calls a).free then some (finish s a t status stored) else none
  | .resumes a counted recorded => resumes s a counted recorded
  | .notifyRaises a =>
    if (s.calls a).free then none else some (s.setCall a (.raised .notifyError))
  | .task t task => some (s.modify t fun r => { r with task := task })

/-! ## The row of the current turn -/

/-- The current turn has been issued and recorded. -/
def Recorded (s : State) : Prop :=
  ∀ t, s.current = some t → t ≤ s.store.counter ∧ ∃ row, s.store.rows t = some row

theorem Recorded.initial (store : Store) : Recorded (init store) := by
  intro t current
  cases current

theorem Recorded.idle {s : State} (idle : s.current = none) : Recorded s := by
  intro t current
  rw [idle] at current
  cases current

theorem Recorded.of_eq {s u : State} (inv : Recorded s) (store : u.store = s.store)
    (current : u.current = s.current) : Recorded u := by
  intro t now
  rw [store]
  exact inv t (current.symm.trans now)

theorem Recorded.start {s : State} (inv : Recorded s) (a : Nat) (origin : Origin) (owner : Nat)
    (counted recorded : Bool) : Recorded (start s a origin owner counted recorded) := by
  cases counted
  · exact inv.of_eq rfl rfl
  · cases recorded
    · intro t current
      obtain ⟨issued,row⟩ := inv t current
      exact ⟨Nat.le_succ_of_le issued,row⟩
    · intro t current
      cases current
      exact ⟨le_rfl,_,Function.update_self ..⟩

theorem cancel_cases (s : State) (t : Nat) (reason : String) (bySession : Option Nat)
    (stored : Bool) :
    (∃ result, cancel s t reason bySession stored = (s,some result)) ∨
      (∃ error, cancel s t reason bySession stored =
        (s.modify t fun r => { r with status := "cancelled" },some (.error error))) ∨
      ((cancel s t reason bySession stored).1.current = none ∧
        (cancel s t reason bySession stored).2 = none) := by
  simp only [cancel]
  split
  · exact .inl ⟨_,rfl⟩
  · split
    · exact .inl ⟨_,rfl⟩
    · split
      · next error _ => exact .inr (.inl ⟨error,rfl⟩)
      · exact .inr (.inr ⟨rfl,rfl⟩)

theorem Recorded.cancel {s : State} (inv : Recorded s) (t : Nat) (reason : String)
    (bySession : Option Nat) (stored : Bool) :
    Recorded (cancel s t reason bySession stored).1 := by
  rcases cancel_cases s t reason bySession stored with ⟨_,same⟩ | ⟨_,same⟩ | ⟨idle,_⟩
  · rw [same]; exact inv
  · rw [same]; exact inv.of_eq rfl rfl
  · exact .idle idle

theorem Recorded.beginTurn {s : State} (inv : Recorded s) (a : Nat) (origin : Origin)
    (owner : Nat) (stored counted recorded : Bool) :
    Recorded (beginTurn s a origin owner stored counted recorded) := by
  simp only [TurnManager.beginTurn]
  split
  · exact inv.start a origin owner counted recorded
  · next t _ =>
    split
    · have kept := inv.cancel t "superseded" none stored
      split
      · next same => rw [same] at kept; exact kept.of_eq rfl rfl
      · next same => rw [same] at kept; exact kept.start a origin owner counted recorded
      · next same => rw [same] at kept; exact kept.of_eq rfl rfl
    · exact inv.start a origin owner counted recorded

theorem Recorded.cancelTurn {s : State} (inv : Recorded s) (a t : Nat) (reason : String)
    (bySession : Option Nat) (stored : Bool) :
    Recorded (cancelTurn s a t reason bySession stored) := by
  have kept := inv.cancel t reason bySession stored
  simp only [TurnManager.cancelTurn]
  split
  all_goals
    next same =>
    rw [same] at kept
    exact kept.of_eq rfl rfl

theorem Recorded.finish {s : State} (inv : Recorded s) (a t : Nat) (status : String)
    (stored : Bool) : Recorded (finish s a t status stored) := by
  simp only [TurnManager.finish]
  split
  · exact inv.of_eq rfl rfl
  · split
    · exact inv.of_eq rfl rfl
    · exact .idle rfl

theorem Recorded.resumes {s u : State} (inv : Recorded s) {a : Nat} {counted recorded : Bool}
    (taken : resumes s a counted recorded = some u) : Recorded u := by
  simp only [TurnManager.resumes] at taken
  split at taken <;> cases taken
  · exact inv.start a _ _ counted recorded
  all_goals exact inv.of_eq rfl rfl

theorem Recorded.step {s u : State} {op : Op} (inv : Recorded s) (taken : step s op = some u) :
    Recorded u := by
  cases op with
  | beginTurn a origin owner stored counted recorded =>
    obtain ⟨_,made⟩ := Option.ite_none_right_eq_some.mp taken
    cases made
    exact inv.beginTurn a origin owner stored counted recorded
  | cancel a t reason bySession stored =>
    obtain ⟨_,made⟩ := Option.ite_none_right_eq_some.mp taken
    cases made
    exact inv.cancelTurn a t reason bySession stored
  | finish a t status stored =>
    obtain ⟨_,made⟩ := Option.ite_none_right_eq_some.mp taken
    cases made
    exact inv.finish a t status stored
  | resumes a counted recorded => exact inv.resumes taken
  | notifyRaises a =>
    obtain ⟨_,made⟩ := Option.ite_none_left_eq_some.mp taken
    cases made
    exact inv.of_eq rfl rfl
  | task t task => cases taken; exact inv.of_eq rfl rfl

theorem Recorded.run {s : State} {store : Store} {ops : List Op}
    (reached : Machine.run TurnManager.step (init store) ops = some s) : Recorded s :=
  Machine.run_invariant (fun _ _ _ inv taken => inv.step taken) (.initial store) reached

/-! ## A write that fails -/

/-- The label takes a call of `cancel` or `finish` of the current turn to a `finish_turn` that
raises. -/
def FinishTurnRaises (s : State) (t : Nat) : Op → Prop
  | .beginTurn _ _ _ stored _ _ => (s.turns t).status = "active" ∧ stored = false
  | .cancel _ v _ bySession stored =>
    v = t ∧ (s.turns t).mayCancel bySession = true ∧ stored = false
  | .finish _ v status stored =>
    v = t ∧ ∃ error, finishTurn s.store t status none stored = .error error
  | _ => False

/-- With the store working, the call runs to its end and returns the value. -/
def Returns (u v : State) (a : Nat) (op : Op) (value : Value) : Prop :=
  ∃ resumed, Machine.run step u (op :: List.replicate resumed (.resumes a true true)) = some v ∧
    v.calls a = .returned value

/-- The turn counts as active for the operations that come next. -/
structure CountsAsActive (u : State) (t : Nat) : Prop where
  superseded : ∀ a origin owner, (u.calls a).free = true → ∃ v new reason,
    Returns u v a (.beginTurn a origin owner true true true) (.turn new) ∧
      (∀ cancelling, (u.turns t).task = .running cancelling →
        (v.turns t).task = .running true) ∧
      v.rowStatus t = some .cancelled ∧
      v.notified = u.notified ++ [⟨t,.cancelled,reason⟩,⟨new,.started,none⟩]
  cancellable : ∀ a reason, (u.calls a).free = true → ∃ v,
    Returns u v a (.cancel a t reason (some (u.turns t).owner) true) (.bool true)

theorem cancel_fails {s : State} {t : Nat} {bySession : Option Nat} (current : s.current = some t)
    (may : (s.turns t).mayCancel bySession = true) (reason : String) :
    cancel s t reason bySession false =
      (s.modify t fun r => { r with status := "cancelled" },some (.error .operationalError)) := by
  simp [cancel,current,may,finishTurn,terminal]

/-- What a write that fails leaves behind. -/
theorem raises_leaves {s u : State} {t : Nat} {op : Op} (current : s.current = some t)
    (active : (s.turns t).status = "active") (raises : FinishTurnRaises s t op)
    (taken : step s op = some u) :
    ∃ a status error,
      u = (s.modify t fun r => { r with status := status }).setCall a (.raised error) ∧
      (status = "active" ↔ ∃ a stored, op = .finish a t "active" stored) := by
  cases op with
  | beginTurn a origin owner stored counted recorded =>
    obtain ⟨_,made⟩ := Option.ite_none_right_eq_some.mp taken
    cases made
    obtain ⟨_,rfl⟩ := raises
    refine ⟨a,"cancelled",.operationalError,?_,by simp⟩
    have fails : cancel s t "superseded" none false = _ := cancel_fails current rfl "superseded"
    simp only [beginTurn,current,active,if_true,fails]
  | cancel a v reason bySession stored =>
    obtain ⟨_,made⟩ := Option.ite_none_right_eq_some.mp taken
    cases made
    obtain ⟨rfl,may,rfl⟩ := raises
    refine ⟨a,"cancelled",.operationalError,?_,by simp⟩
    simp only [cancelTurn,cancel_fails current may reason]
  | finish a v status stored =>
    obtain ⟨_,made⟩ := Option.ite_none_right_eq_some.mp taken
    cases made
    obtain ⟨rfl,error,fails⟩ := raises
    refine ⟨a,status,error,?_,by simp⟩
    simp only [finish,current,ne_eq,not_true_eq_false,if_false]
    rw [show (s.modify v fun r => { r with status := status }).store = s.store from rfl,fails]
  | resumes => exact raises.elim
  | notifyRaises => exact raises.elim
  | task => exact raises.elim

/-- `begin` passes over a current turn of another status. -/
theorem beginTurn_inactive {s : State} {t : Nat} (current : s.current = some t)
    (inactive : (s.turns t).status ≠ "active") (a : Nat) (origin : Origin) (owner : Nat)
    (stored counted recorded : Bool) :
    beginTurn s a origin owner stored counted recorded =
      start s a origin owner counted recorded := by
  simp [beginTurn,current,inactive]

/-! ## A `begin` whose writes work -/

@[simp] theorem setCall_call (s : State) (a : Nat) (call : Call) :
    (s.setCall a call).calls a = call := by
  simp [State.setCall]

section

variable (s : State) (a : Nat) (origin : Origin) (owner : Nat)

@[simp] theorem start_call :
    (start s a origin owner true true).calls a = .starting (s.store.counter + 1) := by
  simp [start,Store.nextTurnId]

@[simp] theorem start_notified : (start s a origin owner true true).notified =
    s.notified ++ [⟨s.store.counter + 1,.started,none⟩] := rfl

variable {s} {t : Nat} (issued : t ≤ s.store.counter)
include issued

theorem start_turn : (start s a origin owner true true).turns t = s.turns t :=
  Function.update_of_ne (by simp only [Store.nextTurnId]; omega) _ _

theorem start_rowStatus : (start s a origin owner true true).rowStatus t = s.rowStatus t := by
  have other : t ≠ s.store.counter + 1 := by omega
  simp [State.rowStatus,start,State.setCall,State.notify,Store.nextTurnId,Store.recordTurn,other]

end

/-- What `cancel` leaves when its write works. -/
def closed (s : State) (t : Nat) (reason : String) : State :=
  let s := s.modify t fun r => { r with status := "cancelled" }
  let s := { s with
    store := s.store.finishTurn t .cancelled (some reason)
    current := none }
  (s.modify t fun r => { r with task := r.task.cancel }).notify t .cancelled (some reason)

theorem cancel_works {s : State} {t : Nat} {bySession : Option Nat} (current : s.current = some t)
    (may : (s.turns t).mayCancel bySession = true) (reason : String) :
    cancel s t reason bySession true = (closed s t reason,none) := by
  simp [cancel,current,may,finishTurn,terminal,closed]

@[simp] theorem closed_counter (s : State) (t : Nat) (reason : String) :
    (closed s t reason).store.counter = s.store.counter := rfl

@[simp] theorem closed_notified (s : State) (t : Nat) (reason : String) :
    (closed s t reason).notified = s.notified ++ [⟨t,.cancelled,some reason⟩] := rfl

theorem closed_task (s : State) (t : Nat) (reason : String) :
    ((closed s t reason).turns t).task = (s.turns t).task.cancel := by
  simp [closed,State.notify,State.modify]

theorem closed_rowStatus {s : State} {t : Nat} {row : Orchestrator.Row}
    (recorded : s.store.rows t = some row) (reason : String) :
    (closed s t reason).rowStatus t = some .cancelled := by
  simp [closed,State.notify,State.modify,State.rowStatus,Store.finishTurn,recorded]

theorem owner_may_cancel (r : Turn) : r.mayCancel (some r.owner) = true := by
  simp [Turn.mayCancel]

/-! ## The operations after the write that failed -/

/-- A call that is over is not resumed. -/
theorem resumed_over {v w : State} {a resumed : Nat} (free : (w.calls a).free = true)
    (reached : Machine.run step w (List.replicate resumed (.resumes a true true)) = some v) :
    v = w := by
  cases resumed with
  | zero => exact (Option.some.inj reached).symm
  | succ resumed =>
    obtain ⟨x,taken,_⟩ := Machine.run_cons_iff.mp reached
    cases call : w.calls a with
    | outside | returned | raised => simp [step,resumes,call] at taken
    | superseding | starting | cancelling | finishing => simp [Call.free,call] at free

/-- A `begin` that has found no active turn publishes nothing but its own start. -/
theorem started_alone {u v : State} {a : Nat} {origin : Origin} {owner : Nat} {value : Value}
    (returns : Returns u v a (.beginTurn a origin owner true true true) value)
    (idle : beginTurn u a origin owner true true true = start u a origin owner true true) :
    v.notified = u.notified ++ [⟨u.store.counter + 1,.started,none⟩] := by
  obtain ⟨resumed,reached,returned⟩ := returns
  obtain ⟨w,begun,reached⟩ := Machine.run_cons_iff.mp reached
  obtain ⟨_,made⟩ := Option.ite_none_right_eq_some.mp begun
  rw [idle] at made
  cases made
  cases resumed with
  | zero => cases reached; simp at returned
  | succ resumed =>
    obtain ⟨x,taken,reached⟩ := Machine.run_cons_iff.mp reached
    simp only [step,resumes,start_call,Option.some.injEq] at taken
    subst taken
    rw [resumed_over (by simp [State.setCall,Call.free]) reached]
    rfl

theorem not_superseded {u : State} {t a : Nat} (current : u.current = some t)
    (inactive : (u.turns t).status ≠ "active") (free : (u.calls a).free = true) :
    ¬CountsAsActive u t := by
  intro counts
  obtain ⟨v,new,reason,returns,_,_,notified⟩ := counts.superseded a .balloon 0 free
  rw [started_alone returns (beginTurn_inactive current inactive a _ _ _ _ _)] at notified
  have lengths := congrArg List.length notified
  simp at lengths

theorem cancellable {u : State} {t : Nat} (current : u.current = some t) (a : Nat)
    (reason : String) (free : (u.calls a).free = true) : ∃ v,
    Returns u v a (.cancel a t reason (some (u.turns t).owner) true) (.bool true) := by
  refine ⟨(closed u t reason).setCall a .cancelling |>.setCall a (.returned (.bool true)),1,?_,?_⟩
  · refine Machine.run_cons_iff.mpr ⟨(closed u t reason).setCall a .cancelling,?_,?_⟩
    · simp [step,free,cancelTurn,cancel_works current (owner_may_cancel _)]
    · simp [Machine.run,step,resumes,State.setCall]
  · simp [State.setCall]

theorem superseded {u : State} {t : Nat} (inv : Recorded u) (current : u.current = some t)
    (active : (u.turns t).status = "active") (a : Nat) (origin : Origin) (owner : Nat)
    (free : (u.calls a).free = true) : ∃ v new reason,
    Returns u v a (.beginTurn a origin owner true true true) (.turn new) ∧
      (∀ cancelling, (u.turns t).task = .running cancelling →
        (v.turns t).task = .running true) ∧
      v.rowStatus t = some .cancelled ∧
      v.notified = u.notified ++ [⟨t,.cancelled,reason⟩,⟨new,.started,none⟩] := by
  obtain ⟨issued,row,recorded⟩ := inv t current
  let w := (closed u t "superseded").setCall a (.superseding origin owner)
  let x := start w a origin owner true true
  let new := u.store.counter + 1
  have later : t ≤ w.store.counter := issued
  refine ⟨x.setCall a (.returned (.turn new)),new,some "superseded",⟨2,?_,setCall_call ..⟩,?_,?_,?_⟩
  · refine Machine.run_cons_iff.mpr ⟨w,?_,Machine.run_cons_iff.mpr ⟨x,?_,?_⟩⟩
    · have works : cancel u t "superseded" none true = _ := cancel_works current rfl "superseded"
      simp [step,free,beginTurn,current,active,works,w]
    · simp [step,resumes,w,x]
    · have called : x.calls a = .starting new := start_call w a origin owner
      simp [Machine.run,step,resumes,called]
  · intro cancelling running
    show (x.turns t).task = .running true
    have task : (w.turns t).task = (u.turns t).task.cancel := closed_task u t "superseded"
    rw [start_turn a origin owner later,task,running]
    rfl
  · show x.rowStatus t = some .cancelled
    rw [start_rowStatus a origin owner later]
    exact closed_rowStatus recorded "superseded"
  · show x.notified = u.notified ++ ([⟨t,.cancelled,_⟩] ++ [⟨new,.started,none⟩])
    rw [← List.append_assoc]
    exact start_notified w a origin owner

/-- The turn still counts as active only if the status that could not be written was "active". -/
theorem countsAsActive_iff {store : Store} {ops : List Op} {s u : State} {t : Nat} {op : Op}
    (reached : Machine.run step (init store) ops = some s) (current : s.current = some t)
    (active : (s.turns t).status = "active") (raises : FinishTurnRaises s t op)
    (taken : step s op = some u) :
    CountsAsActive u t ↔ ∃ a stored, op = .finish a t "active" stored := by
  have inv : Recorded u := (Recorded.run reached).step taken
  obtain ⟨a,status,error,same,active_iff⟩ := raises_leaves current active raises taken
  have now : u.current = some t ∧ (u.turns t).status = status ∧ (u.calls a).free = true := by
    rw [same]
    exact ⟨current,by simp [State.setCall,State.modify],by rw [setCall_call]; rfl⟩
  obtain ⟨now,status_is,free⟩ := now
  rw [← active_iff,← status_is]
  constructor
  · intro counts
    by_contra inactive
    exact not_superseded now inactive free counts
  · intro active
    exact ⟨superseded inv now active,cancellable now⟩

/-- A turn that has begun, and whose task runs. -/
def begun : List Op :=
  [.beginTurn 0 .balloon 7 true true true,.resumes 0 true true,.task 1 (.running false)]

theorem countsAsActive_invalid : ∃ s u,
    Machine.run step (init Orchestrator.emptyStore) begun = some s ∧ s.current = some 1 ∧
      (s.turns 1).status = "active" ∧ FinishTurnRaises s 1 (.finish 0 1 "active" true) ∧
      step s (.finish 0 1 "active" true) = some u ∧ CountsAsActive u 1 := by
  refine ⟨_,_,rfl,rfl,rfl,⟨rfl,_,rfl⟩,rfl,?_⟩
  exact (@countsAsActive_iff Orchestrator.emptyStore begun _ _ 1 (.finish 0 1 "active" true)
    rfl rfl rfl ⟨rfl,_,rfl⟩ rfl).2 ⟨0,true,rfl⟩

/-- The owner's `cancel` cannot write; the `begin` after it leaves the row and the task as they
are, and nobody is told that the turn has ended. -/
theorem cancel_orphans : ∃ s u v,
    Machine.run step (init Orchestrator.emptyStore) begun = some s ∧ s.current = some 1 ∧
      (s.turns 1).status = "active" ∧
      FinishTurnRaises s 1 (.cancel 0 1 "user_cancel" (some 7) false) ∧
      step s (.cancel 0 1 "user_cancel" (some 7) false) = some u ∧ ¬CountsAsActive u 1 ∧
      Machine.run step u [.beginTurn 0 .balloon 7 true true true,.resumes 0 true true] = some v ∧
      v.current = some 2 ∧ v.rowStatus 1 = some .active ∧ (v.turns 1).task = .running false ∧
      v.notified = [⟨1,.started,none⟩,⟨2,.started,none⟩] := by
  refine ⟨_,_,_,rfl,rfl,rfl,⟨rfl,by decide,rfl⟩,rfl,?_,rfl,rfl,rfl,rfl,rfl⟩
  exact not_superseded (a := 0) rfl (by decide) rfl

end GhostRunner.TurnManager
