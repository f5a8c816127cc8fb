import Mathlib.Logic.Function.Basic
import Mathlib.Order.Nat
import GhostRunner.Envelope

/-! The state of the orchestrator (`orchestrator/orchestrator.py`), the turns and their
rows in the store (`store.py`), and `TurnManager` (`orchestrator/turns.py`). What is handed
to `SessionManager.broadcast` counts from the call; the caller may stay suspended in it
for as long as it takes. Timestamps of rows and messages are left out. -/
namespace GhostRunner.Orchestrator

/-! ## The store -/

inductive Status where
  | active
  | done
  | cancelled
  | error
  deriving DecidableEq, Repr

def Status.name : Status → String
  | .active => "active"
  | .done => "done"
  | .cancelled => "cancelled"
  | .error => "error"

/-- A row of the `turns` table. -/
structure Row where
  origin : Origin
  owner : Nat
  status : Status := .active
  reason : Option String := none
  deriving DecidableEq, Repr

inductive Role where
  | user
  | assistant
  deriving DecidableEq, Repr

structure Message where
  turn : Nat
  role : Role
  text : String
  deriving DecidableEq, Repr

/-- The tables `kv`, `turns` and `messages`. No row has an id that the counter has yet to
issue. -/
structure Store where
  counter : Nat
  rows : Nat → Option Row
  messages : List Message
  fresh : ∀ t, counter < t → rows t = none

/-- The store of a new installation. -/
def emptyStore : Store := ⟨0,fun _ => none,[],fun _ _ => rfl⟩

namespace Store

def nextTurnId (store : Store) : Store × Nat :=
  ({ store with
      counter := store.counter + 1
      fresh := fun t later => store.fresh t (Nat.lt_of_succ_lt later) },
    store.counter + 1)

def recordTurn (store : Store) (t : Nat) (issued : t ≤ store.counter) (origin : Origin)
    (owner : Nat) : Store :=
  { store with
    rows := Function.update store.rows t (some { origin := origin, owner := owner })
    fresh := by
      intro v later
      rw [Function.update_of_ne (by omega)]
      exact store.fresh v later }

def finishTurn (store : Store) (t : Nat) (status : Status) (reason : Option String) : Store :=
  { store with
    rows := Function.update store.rows t
      ((store.rows t).map fun row => { row with status := status, reason := reason })
    fresh := by
      intro v later
      by_cases same : v = t
      · subst v; simp [store.fresh t later]
      · rw [Function.update_of_ne same]; exact store.fresh v later }

def appendMessage (store : Store) (t : Nat) (role : Role) (text : String) : Store :=
  { store with messages := store.messages ++ [⟨t,role,text⟩] }

end Store

/-! ## What works for a turn -/

/-- The await at which `_run_chat_turn` stands. `stopping` is the `speech.cancel()` of a
handler: of the one for `CancelledError`, or of one that will then show a message. -/
inductive Task where
  | absent
  | created (text : String)
  | thinking
  | streaming
  | closing
  | speaking
  | succeeding
  | stopping (failure : Option String)
  | erring
  | finishing
  | holding
  | idling
  | ended
  deriving DecidableEq, Repr

/-- The scheduler job of a turn, and within it the await of `on_delta`. -/
inductive Job where
  | absent
  | queued
  | unstarted
  | fetching
  | responding (delta : String)
  | sending (delta : String)
  | ended
  deriving DecidableEq, Repr

/-- The future that `submit` awaits. -/
inductive Outcome where
  | pending
  | result
  | llmError (text : String)
  | failed
  | cancelled
  deriving DecidableEq, Repr

/-- The worker of `TurnSpeech`. It can drain once `finish` has queued the final `None`. -/
inductive Speech where
  | absent
  | running (final : Bool)
  | drained
  | failed (text : String)
  | cancelled
  deriving DecidableEq, Repr

/-- The dict `state` of a turn's stream. -/
structure Record where
  parts : List String := []
  seq : Nat := 0
  deriving DecidableEq, Repr

/-- A `Turn` with its task, its job and its speech. `asked`, `halted` and `stopped` are
requests to cancel these three that have not been delivered yet; `first` is the flag of
`on_delta`. -/
structure Turn where
  origin : Origin := .balloon
  owner : Nat := 0
  status : Status := .active
  task : Task := .absent
  asked : Bool := false
  job : Job := .absent
  halted : Bool := false
  future : Outcome := .pending
  first : Bool := true
  speech : Speech := .absent
  stopped : Bool := false
  record : Record := {}
  deriving DecidableEq, Repr

/-- A command whose handler is suspended in a notification: in the `cancelled` of the turn
it replaces, in the `started` of its own, or in the `cancelled` of `turn.cancel`. -/
inductive Command where
  | superseding (t : Nat) (owner : Nat) (text : String)
  | starting (t : Nat) (text : String)
  | cancelling (t : Nat)
  deriving DecidableEq, Repr

/-- `stream` is the turn whose record `_stream` refers to. An observer keeps `base`, the last
turn id issued before the process started, and `handed`, every state, turn and token
envelope handed to `broadcast`. -/
structure State where
  tts : Bool
  base : Nat
  store : Store
  current : Option Nat
  turns : Nat → Turn
  stream : Option Nat
  commands : Nat → Option Command
  handed : List Envelope

/-- A core that starts on a store, with or without a TTS client. -/
def init (tts : Bool) (store : Store) : State where
  tts := tts
  base := store.counter
  store := store
  current := none
  turns := fun _ => {}
  stream := none
  commands := fun _ => none
  handed := []

namespace State

def modify (s : State) (t : Nat) (change : Turn → Turn) : State :=
  { s with turns := Function.update s.turns t (change (s.turns t)) }

def setCommand (s : State) (a : Nat) (command : Option Command) : State :=
  { s with commands := Function.update s.commands a command }

def hand (s : State) (env : Envelope) : State := { s with handed := s.handed ++ [env] }

/-- The status of a turn's row, if it has one. -/
def status (s : State) (t : Nat) : Option Status := (s.store.rows t).map Row.status

@[simp] theorem modify_same (s : State) (t : Nat) (change : Turn → Turn) :
    (s.modify t change).turns t = change (s.turns t) := by simp [modify]

@[simp] theorem modify_other {s : State} {t v : Nat} (change : Turn → Turn) (other : v ≠ t) :
    (s.modify t change).turns v = s.turns v := by simp [modify,other]

end State

/-! ## Notifications -/

def stateEnvelope (state : Mascot) (turn : Option Nat) (message : String) : Envelope where
  payload := .state state message 0
  turn := turn

def setState (s : State) (state : Mascot) (turn : Option Nat) (message : String) : State :=
  s.hand (stateEnvelope state turn message)

def turnEnvelope (t : Nat) (turn : Turn) (event : TurnEvent) (reason : Option String) :
    Envelope where
  payload := .turn event turn.origin turn.owner reason
  turn := some t

def notifyTurn (s : State) (t : Nat) (event : TurnEvent) (reason : Option String) : State :=
  s.hand (turnEnvelope t (s.turns t) event reason)

/-! ## Cancellation requests -/

/-- A request to the task that a turn's task awaits reaches the awaited task or future. -/
def Turn.cancelTask (r : Turn) : Turn :=
  match r.task with
  | .absent | .ended => r
  | .streaming =>
    { r with asked := true, future := if r.future = .pending then .cancelled else r.future }
  | .speaking | .stopping _ =>
    match r.speech with
    | .running _ => { r with asked := true, stopped := true }
    | _ => { r with asked := true }
  | _ => { r with asked := true }

/-- `_remove` in the scheduler: out of the queue, or the job's task is cancelled. -/
def Turn.removeJob (r : Turn) : Turn :=
  match r.job with
  | .absent | .ended => r
  | .queued => { r with job := .ended }
  | _ => { r with halted := true }

/-- `cancel_turn` in the scheduler. -/
def Turn.cancelJob (r : Turn) : Turn :=
  match r.job with
  | .queued =>
    { r with job := .ended, future := if r.future = .pending then .cancelled else r.future }
  | _ => r.removeJob

/-! ## `TurnManager`

`stored`, `counted` and `recorded` say whether the writes to the store succeed. A write that
fails raises, and leaves the store as it was. -/

def isObsolete (s : State) (t : Nat) : Bool := s.current ≠ some t

/-- `cancel` of the current turn, up to the `cancelled` notification. -/
def cancel (s : State) (t : Nat) (reason : String) (stored : Bool) : State :=
  let s := s.modify t fun r => { r with status := .cancelled }
  if stored then
    notifyTurn { s.modify t Turn.cancelTask with
      store := s.store.finishTurn t .cancelled (some reason)
      current := none } t .cancelled (some reason)
  else s

/-- `begin` once the active turn is cancelled, up to the `started` notification. -/
def beginTurn (s : State) (a owner : Nat) (text : String) (counted recorded : Bool) : State :=
  if counted then
    let issued := s.store.nextTurnId
    let t := issued.2
    if recorded then
      (notifyTurn { s with
        store := issued.1.recordTurn t le_rfl .balloon owner
        current := some t
        turns := Function.update s.turns t { owner := owner } } t .started none).setCommand a
        (some (.starting t text))
    else { s with store := issued.1 }.setCommand a none
  else s.setCommand a none

/-- `chat.send`: the first half of `begin`. -/
def chatSend (s : State) (a owner : Nat) (text : String) (stored counted recorded : Bool) :
    State :=
  match s.current with
  | some t =>
    if (s.turns t).status = .active then
      (cancel s t "superseded" stored).setCommand a
        (if stored then some (.superseding t owner text) else none)
    else beginTurn s a owner text counted recorded
  | none => beginTurn s a owner text counted recorded

/-- `turn.cancel`. Of another session's turn, only a proactive one may be cancelled. -/
def turnCancel (s : State) (a session t : Nat) (stored : Bool) : State :=
  if s.current = some t ∧ (session = (s.turns t).owner ∨ (s.turns t).origin = .proactive) then
    (cancel s t "user_cancel" stored).setCommand a (if stored then some (.cancelling t) else none)
  else s

/-- The notification of a suspended command has been sent. -/
def commandResumes (s : State) (a : Nat) (counted recorded : Bool) : Option State :=
  match s.commands a with
  | some (.superseding t owner text) =>
    some (beginTurn (s.modify t Turn.cancelJob) a owner text counted recorded)
  | some (.starting t text) =>
    some ((s.modify t fun r => { r with task := .created text }).setCommand a none)
  | some (.cancelling t) => some ((s.modify t Turn.cancelJob).setCommand a none)
  | none => none

/-- `finish`, up to the `done` notification; `raised` handles a failed write. A turn that is
no longer the current one goes straight on to its decay. -/
def finish (s : State) (t : Nat) (status : Status) (stored : Bool) (raised : State → State) :
    State :=
  if s.current = some t then
    let s := s.modify t fun r => { r with status := status }
    if stored then
      notifyTurn { s.modify t fun r => { r with task := .finishing } with
        store := s.store.finishTurn t status none
        current := none } t .done (if status = .done then none else some status.name)
    else raised s
  else s.modify t fun r => { r with task := .holding }

end GhostRunner.Orchestrator
