import Mathlib.Data.Finset.Basic
import Mathlib.Data.List.Sort
import Mathlib.Data.Rat.Defs
import GhostRunner.Machine

/-! The priority scheduler in front of llama-server (`llm/scheduler.py`) while its
worker is alive. One label is one stretch of code between two awaits: a `submit`
up to its `await`, one wake-up of the worker with the `_dispatch` that follows, one
step of a job task, a `cancel_turn`, or the cancellation of a `submit`. Tasks have
asyncio's rules: control changes only at an await, a task cancelled before its first
step never runs its body, and a later cancellation is delivered where the task waits.
What a job's factory does at each step is part of the label. -/
namespace GhostRunner.Scheduler


def prioChat : Int := 0
def prioPerception : Int := 1
def prioEmbeddings : Int := 2
def prioConsolidation : Int := 3

/-- `asyncio.Future`, without the value or the exception it holds. -/
inductive FutureState where
  | pending
  | result
  | exception
  | cancelled
  deriving DecidableEq, Repr

def FutureState.done : FutureState → Bool
  | .pending => false
  | _ => true

/-- `Future.cancel`, `set_result` and `set_exception` behind their `done` checks. -/
def FutureState.settle (f outcome : FutureState) : FutureState :=
  if f.done then f else outcome

/-- A job is stored under its `seq`. `starts` counts the calls of its factory, and
`awaiting` tells whether its `submit` is still at `await future`; `submitCancelled`
is a cancellation of that `submit` that found the future already done. -/
structure Job where
  prio : Int
  pure : Bool
  turnId : Option Int
  enqueuedAt : ℚ
  preemptCount : Nat := 0
  future : FutureState := .pending
  starts : Nat := 0
  awaiting : Bool := true
  submitCancelled : Bool := false
  deriving DecidableEq

/-- A conversion to `int` drops the fraction, towards zero. -/
def truncate (q : ℚ) : Int := q.num.tdiv q.den

def Job.effectivePrio (job : Job) (now agingS : ℚ) : Int :=
  let aged := truncate ((now - job.enqueuedAt) / agingS)
  max 0 (job.prio - aged)

def Job.interactive (job : Job) : Bool := job.prio = prioChat

/-- What `_try_preempt` asks of a running job, apart from `_preempting`. -/
def Job.preemptible (job : Job) : Bool := job.pure && decide (prioEmbeddings ≤ job.prio)

inductive Phase where
  | unstarted
  | suspended
  | finished
  deriving DecidableEq, Repr

/-- A task of `_execute`. The flag is a cancellation that has not been delivered. -/
structure Task where
  job : Nat
  phase : Phase
  cancelRequested : Bool := false
  deriving DecidableEq, Repr

def Task.live (task : Task) : Bool := task.phase ≠ .finished

/-- `Task.cancel` does nothing to a finished task, and a second call before the
delivery changes nothing. -/
def Task.cancel (task : Task) : Task :=
  if task.live then { task with cancelRequested := true } else task

structure Config where
  slots : Nat
  reserved : Nat
  agingS : ℚ
  shared : reserved < slots

/-- `running` lists the keys of `_running` in insertion order; the value of a key is
the task's own job. Entries of `jobs` from `nextSeq` and of `tasks` from `nextTask`
on do not exist yet. -/
structure State where
  jobs : Nat → Job
  nextSeq : Nat
  queue : List Nat
  tasks : Nat → Task
  nextTask : Nat
  running : List Nat
  preempting : Finset Nat
  wake : Bool
  parked : Bool

def init : State where
  jobs := fun _ => { prio := 0, pure := false, turnId := none, enqueuedAt := 0 }
  nextSeq := 0
  queue := []
  tasks := fun _ => { job := 0, phase := .finished }
  nextTask := 0
  running := []
  preempting := ∅
  wake := false
  parked := false

namespace State

def jobOf (s : State) (k : Nat) : Job := s.jobs (s.tasks k).job

def setJob (s : State) (j : Nat) (job : Job) : State :=
  { s with jobs := Function.update s.jobs j job }

def setTask (s : State) (k : Nat) (task : Task) : State :=
  { s with tasks := Function.update s.tasks k task }

def settle (s : State) (j : Nat) (outcome : FutureState) : State :=
  s.setJob j { s.jobs j with future := (s.jobs j).future.settle outcome }

/-- Cancel the tasks of `_running` whose job satisfies the test. -/
def cancelRunning (s : State) (test : Nat → Bool) : State :=
  { s with tasks := fun k =>
      if k ∈ s.running ∧ test (s.tasks k).job = true then (s.tasks k).cancel else s.tasks k }

end State

/-! ## Submitting and cancelling -/

/-- `submit` up to its `await future`. -/
def submit (s : State) (prio : Int) (isPure : Bool) (turnId : Option Int) (now : ℚ) : State :=
  { s with
    jobs := Function.update s.jobs s.nextSeq
      { prio := prio, pure := isPure, turnId := turnId, enqueuedAt := now }
    nextSeq := s.nextSeq + 1
    queue := s.queue ++ [s.nextSeq]
    wake := true }

def remove (s : State) (j : Nat) : State :=
  ({ s with queue := s.queue.erase j }).cancelRunning (fun i => i = j)

/-- `Task.cancel` on the task that awaits the `submit`: it cancels the awaited future,
or, when that is already done, is delivered at the next step of the `submit`. -/
def cancelSubmit (s : State) (j : Nat) : State :=
  if (s.jobs j).future.done then s.setJob j { s.jobs j with submitCancelled := true }
  else s.settle j .cancelled

/-- The `submit` continues after its await: a `CancelledError` there removes the job. -/
def submitResumes (s : State) (j : Nat) : State :=
  let resumed := s.setJob j { s.jobs j with awaiting := false }
  if (s.jobs j).future = .cancelled ∨ (s.jobs j).submitCancelled = true then remove resumed j
  else resumed

/-- `cancel_turn` and the count it returns. -/
def cancelTurn (s : State) (turn : Int) : State × Nat :=
  let hit := fun j => decide ((s.jobs j).turnId = some turn)
  let queued := s.queue.filter hit
  let emptied :=
    { s with
      queue := s.queue.filter (fun j => !hit j)
      jobs := fun j => if j ∈ queued
        then { s.jobs j with future := (s.jobs j).future.settle .cancelled } else s.jobs j }
  (emptied.cancelRunning hit,
    queued.length + (s.running.filter (fun k => hit (s.tasks k).job)).length)

/-! ## Dispatch -/

/-- The sort key `(effective_prio, seq)`, compared lexicographically. -/
def precedes (cfg : Config) (now : ℚ) (s : State) (i j : Nat) : Prop :=
  (s.jobs i).effectivePrio now cfg.agingS < (s.jobs j).effectivePrio now cfg.agingS ∨
  (s.jobs i).effectivePrio now cfg.agingS = (s.jobs j).effectivePrio now cfg.agingS ∧ i ≤ j

instance (cfg : Config) (now : ℚ) (s : State) : DecidableRel (precedes cfg now s) :=
  fun _ _ => inferInstanceAs (Decidable (_ ∨ _))

def candidates (cfg : Config) (now : ℚ) (s : State) : List Nat :=
  s.queue.insertionSort (precedes cfg now s)

def free (cfg : Config) (s : State) : Int := cfg.slots - s.running.length

/-- The running jobs that `_try_preempt` may choose, newest first. -/
def victims (s : State) : List Nat :=
  ((s.running.map fun k => (s.tasks k).job).filter fun j =>
    (s.jobs j).preemptible && decide (j ∉ s.preempting)).insertionSort (fun i j => j ≤ i)

/-- The first task of `_running` that holds the victim is cancelled. -/
def preempt (s : State) (victim : Nat) : State :=
  let marked := { s with preempting := insert victim s.preempting }
  match s.running.find? (fun k => (s.tasks k).job = victim) with
  | some k => marked.setTask k (s.tasks k).cancel
  | none => marked

inductive Choice where
  | start (job : Nat)
  | preempt (victim : Nat)
  | nothing
  deriving DecidableEq, Repr

/-- The scan over the sorted candidates. A chat job that finds no free slot and no
victim does not stop the scan. -/
def choose (cfg : Config) (s : State) : List Nat → Choice
  | [] => .nothing
  | cand :: rest =>
    let interactive := (s.jobs cand).interactive
    if 1 ≤ free cfg s ∧ interactive = true then .start cand
    else if cfg.reserved < free cfg s ∧ interactive = false then .start cand
    else if free cfg s < 1 ∧ interactive = true then
      match (victims s).head? with
      | some victim => .preempt victim
      | none => choose cfg s rest
    else choose cfg s rest

/-- The chosen job leaves the queue. A job whose future is done was cancelled while
queued and is dropped; any other gets a task, which has yet to take its first step. -/
def take (s : State) (j : Nat) : State :=
  let dequeued := { s with queue := s.queue.erase j }
  if (s.jobs j).future.done then dequeued
  else
    { dequeued with
      tasks := Function.update s.tasks s.nextTask { job := j, phase := .unstarted }
      nextTask := s.nextTask + 1
      running := s.running ++ [s.nextTask] }

/-- `while self._queue`: every round that continues takes one job out of the queue. -/
def dispatchLoop (cfg : Config) (now : ℚ) : Nat → State → State
  | 0, s => s
  | rounds + 1, s =>
    match choose cfg s (candidates cfg now s) with
    | .start j => dispatchLoop cfg now rounds (take s j)
    | .preempt victim => preempt s victim
    | .nothing => s

def dispatch (cfg : Config) (now : ℚ) (s : State) : State :=
  dispatchLoop cfg now s.queue.length s

/-! ## The worker and the job tasks -/

/-- After `asyncio.wait`: the event is cleared and the finished tasks are popped. -/
def popFinished (s : State) : State :=
  { s with wake := false, running := s.running.filter fun k => (s.tasks k).live }

/-- The worker's first step dispatches at once; later it first needs the event or a
finished task. -/
def workerReady (s : State) : Bool :=
  !s.parked || s.wake || s.running.any fun k => !(s.tasks k).live

/-- With `aging_s` zero the sort of a non-empty queue raises and the worker dies, so
that no state with a live worker follows. -/
def worker (cfg : Config) (now : ℚ) (s : State) : Option State :=
  if workerReady s = false then none
  else
    let awake := if s.parked then popFinished s else s
    if cfg.agingS = 0 ∧ awake.queue ≠ [] then none
    else some { dispatch cfg now awake with parked := true }

/-- How one step of a job's factory ends: at its next await, or with a value, an
exception, or a `CancelledError`. -/
inductive Outcome where
  | suspends
  | returns
  | raises
  | cancelled
  deriving DecidableEq, Repr

/-- The `CancelledError` handler of `_execute`. -/
def onCancelled (s : State) (j : Nat) (now : ℚ) : State :=
  if j ∈ s.preempting then
    { s.setJob j { s.jobs j with
        preemptCount := (s.jobs j).preemptCount + 1, enqueuedAt := now } with
      preempting := s.preempting.erase j
      queue := s.queue ++ [j]
      wake := true }
  else s.settle j .cancelled

/-- The rest of `_execute` once the factory's step has ended. -/
def afterFactory (s : State) (k : Nat) (outcome : Outcome) (now : ℚ) : State :=
  let task := s.tasks k
  let ended := s.setTask k { task with phase := .finished, cancelRequested := false }
  match outcome with
  | .suspends => s.setTask k { task with phase := .suspended, cancelRequested := false }
  | .returns => ended.settle task.job .result
  | .raises => ended.settle task.job .exception
  | .cancelled => onCancelled ended task.job now

/-- One step of a job task. Cancelled before its first step it ends without calling
the factory; the outcome is then necessarily `cancelled`. -/
def taskStep (s : State) (k : Nat) (outcome : Outcome) (now : ℚ) : Option State :=
  let task := s.tasks k
  match task.phase with
  | .finished => none
  | .suspended => some (afterFactory s k outcome now)
  | .unstarted =>
    if task.cancelRequested then
      if outcome = .cancelled then
        some (s.setTask k { task with phase := .finished, cancelRequested := false })
      else none
    else
      let job := s.jobs task.job
      some (afterFactory (s.setJob task.job { job with starts := job.starts + 1 }) k outcome now)

inductive Op where
  | submit (prio : Int) (isPure : Bool) (turnId : Option Int) (now : ℚ)
  | worker (now : ℚ)
  | taskStep (task : Nat) (outcome : Outcome) (now : ℚ)
  | cancelTurn (turn : Int)
  | cancelSubmit (job : Nat)
  | submitResumes (job : Nat)
  deriving DecidableEq

def step (cfg : Config) (s : State) : Op → Option State
  | .submit prio isPure turnId now => some (submit s prio isPure turnId now)
  | .worker now => worker cfg now s
  | .taskStep k outcome now => taskStep s k outcome now
  | .cancelTurn turn => some (cancelTurn s turn).1
  | .cancelSubmit j =>
    if j < s.nextSeq ∧ (s.jobs j).awaiting = true then some (cancelSubmit s j) else none
  | .submitResumes j =>
    if j < s.nextSeq ∧ (s.jobs j).awaiting = true ∧ (s.jobs j).future.done = true
    then some (submitResumes s j) else none

/-- A state that some order of operations leads to. -/
def Reachable (cfg : Config) (s : State) : Prop :=
  ∃ ops, Machine.run (step cfg) init ops = some s

end GhostRunner.Scheduler
