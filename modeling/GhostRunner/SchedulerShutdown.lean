import GhostRunner.SchedulerOnce

/-! The end of the scheduler: `stop`, and the death of the worker. Either cancels the tasks
of `_running` and settles the queue once. What a cancelled task does later on its way out
is not looked at again: one that was cancelled before its first step settles nothing, and
one that finds its job in `_preempting` puts it back into a queue that nobody serves. -/
namespace GhostRunner.Scheduler

variable {cfg : Config}

/-- `_worker`: `None`, a running task, a cancelled one that a `stop` awaits, one that ended
by an exception, and one whose `_on_worker_dead` has run. -/
inductive Worker where
  | absent
  | alive
  | stopping
  | dying
  | dead
  deriving DecidableEq, Repr

/-- The scheduler with its worker. `stops` counts the calls of `stop` at their await, and
jobs below `closed` were submitted before the last shutdown that has completed. -/
structure Life where
  core : State
  worker : Worker
  stops : Nat
  closed : Nat

def Life.init : Life where
  core := Scheduler.init
  worker := .absent
  stops := 0
  closed := 0

/-- The rest of `stop` after `await self._worker`. -/
def stopTail (s : State) : State :=
  { s.cancelRunning (fun _ => true) with
    jobs := fun j => if j ∈ s.queue
      then { s.jobs j with future := (s.jobs j).future.settle .cancelled } else s.jobs j
    queue := [] }

/-- `_on_worker_dead` for a worker that was not cancelled. -/
def onWorkerDead (s : State) : State :=
  { s.cancelRunning (fun _ => true) with
    jobs := fun j => if j ∈ s.queue ++ s.running.map (fun k => (s.tasks k).job)
      then { s.jobs j with future := (s.jobs j).future.settle .exception } else s.jobs j
    queue := []
    running := [] }

inductive LifeOp where
  | start
  | core (op : Op)
  | stop
  | stopResumes
  | dies (now : ℚ) (rounds : Nat)
  | onWorkerDead
  deriving DecidableEq

/-- Only a worker that has not been cancelled dispatches, and `submit` raises once
`_fatal` is set. -/
def Worker.permits (w : Worker) : Op → Bool
  | .worker _ => w = .alive
  | .submit .. => w ≠ .dead
  | _ => true

/-- `start` is not called while a `stop` has still to return. A worker may die in any
round of a dispatch; its callback runs later. `stop` on a dead worker raises and does
nothing, and without a worker it returns at once. -/
def lifeStep (cfg : Config) (l : Life) : LifeOp → Option Life
  | .start =>
    if l.worker = .absent ∧ l.stops = 0
    then some { l with core := { l.core with parked := false }, worker := .alive } else none
  | .core op =>
    if l.worker.permits op then (step cfg l.core op).map fun s => { l with core := s } else none
  | .stop =>
    match l.worker with
    | .absent => some { l with closed := l.core.nextSeq }
    | .alive | .stopping => some { l with worker := .stopping, stops := l.stops + 1 }
    | .dying | .dead => some l
  | .stopResumes =>
    if 0 < l.stops ∧ (l.worker = .stopping ∨ l.worker = .absent)
    then some ⟨stopTail l.core, .absent, l.stops - 1, l.core.nextSeq⟩ else none
  | .dies now rounds =>
    if l.worker = .alive ∧ workerReady l.core = true
    then some { l with core := dispatchLoop cfg now rounds (awake l.core), worker := .dying }
    else none
  | .onWorkerDead =>
    if l.worker = .dying
    then some { l with
      core := onWorkerDead l.core, worker := .dead, closed := l.core.nextSeq } else none

/-- Of the jobs submitted before the shutdown, only those whose cancelled task has not
ended are still pending, and none of these is queued. -/
structure Released (l : Life) : Prop where
  unwinding : ∀ j < l.closed, (l.core.jobs j).future = .pending →
    ∃ k < l.core.nextTask, (l.core.tasks k).live = true ∧ (l.core.tasks k).job = j
  unqueued : ∀ j ∈ l.core.queue, j < l.closed → (l.core.jobs j).future ≠ .pending

instance : DecidablePred Released := fun l =>
  decidable_of_iff
    ((∀ j < l.closed, (l.core.jobs j).future = .pending →
      ∃ k < l.core.nextTask, (l.core.tasks k).live = true ∧ (l.core.tasks k).job = j) ∧
      ∀ j ∈ l.core.queue, j < l.closed → (l.core.jobs j).future ≠ .pending)
    ⟨fun both => ⟨both.1,both.2⟩,fun released => ⟨released.unwinding,released.unqueued⟩⟩

/-- Once the tasks of these jobs have ended, every one of them is done. -/
theorem Released.done {l : Life} (released : Released l)
    (ended : ∀ k < l.core.nextTask, (l.core.tasks k).job < l.closed →
      (l.core.tasks k).live = false) {j : Nat} (before : j < l.closed) :
    (l.core.jobs j).future ≠ .pending := by
  intro pending
  obtain ⟨k,issued,alive,rfl⟩ := released.unwinding j before pending
  rw [ended k issued before] at alive
  cases alive

/-- The steps that leave a submitter hanging: a task of an earlier job that ends before its
body or puts its job back, and a shutdown that does not reach a pending job because the
job is neither queued nor held. Without a worker `stop` reaches no job at all. -/
def Strands (l : Life) : LifeOp → Prop
  | .core (.taskStep k outcome now) => (l.core.tasks k).job < l.closed ∧
      (l.core.jobOf k).future = .pending ∧
      (EndsUnheard l.core (.taskStep k outcome now) ∨ Requeues l.core (.taskStep k outcome now))
  | .stop => l.worker = .absent ∧ ∃ j < l.core.nextSeq, (l.core.jobs j).future = .pending ∧
      (j ∈ l.core.queue ∨ held l.core j = 0)
  | .stopResumes => ∃ j < l.core.nextSeq, (l.core.jobs j).future = .pending ∧
      j ∉ l.core.queue ∧ held l.core j = 0
  | .onWorkerDead => ∃ j < l.core.nextSeq, (l.core.jobs j).future = .pending ∧
      j ∉ l.core.queue ∧ ∀ k ∈ l.core.running, (l.core.tasks k).job ≠ j
  | _ => False

instance (l : Life) : DecidablePred (Strands l)
  | .core (.taskStep ..) => inferInstanceAs (Decidable (_ ∧ _))
  | .stop => inferInstanceAs (Decidable (_ ∧ _))
  | .stopResumes => inferInstanceAs (Decidable (∃ j < l.core.nextSeq, _))
  | .onWorkerDead => inferInstanceAs (Decidable (∃ j < l.core.nextSeq, _))
  | .core (.submit ..) | .core (.worker ..) | .core (.submitResumes ..)
  | .core (.cancelSubmit ..) | .core (.cancelTurn ..) | .start | .dies .. => instDecidableFalse

/-! ## Futures are settled once -/

variable {s t : State}

theorem afterFactory_pending {k j : Nat} {outcome : Outcome} {now : ℚ}
    (pending : ((afterFactory s k outcome now).jobs j).future = .pending) :
    (s.jobs j).future = .pending := by
  rcases afterFactory_cases s k outcome now with ⟨_,eq⟩ | ⟨_,_,_,eq⟩ | ⟨_,_,eq⟩ <;> rw [eq] at pending
  · exact pending
  · exact (settle_pending pending).1
  · by_cases mine : j = (s.tasks k).job
    · subst mine; simpa [State.setJob,State.jobOf] using pending
    · simpa [State.setJob,mine,endUnstarted,State.setTask] using pending

/-- Relabelling a job without its future. -/
theorem setJob_pending {i j : Nat} {job : Job} (same : job.future = (s.jobs i).future)
    (pending : ((s.setJob i job).jobs j).future = .pending) : (s.jobs j).future = .pending := by
  by_cases mine : j = i
  · subst mine; simpa [State.setJob,same] using pending
  · simpa [State.setJob,mine] using pending

theorem dispatchLoop_jobs (now : ℚ) (rounds : Nat) (s : State) :
    (dispatchLoop cfg now rounds s).jobs = s.jobs ∧
      (dispatchLoop cfg now rounds s).nextSeq = s.nextSeq := by
  refine @dispatchLoop_keeps cfg (fun t => t.jobs = s.jobs ∧ t.nextSeq = s.nextSeq) now
    ?_ ?_ rounds s ⟨rfl,rfl⟩
  · rintro u j ⟨jobs,issued⟩ _ _
    exact ⟨(take_jobs u j).trans jobs,(take_nextSeq u j).trans issued⟩
  · rintro u v ⟨jobs,issued⟩ _ _
    exact ⟨(preempt_jobs u v).trans jobs,(SamePlaces.preempt u v).nextSeq.trans issued⟩

/-- No step of the core makes an old future pending again. -/
theorem step_pending {op : Op} {j : Nat} (issued : j < s.nextSeq)
    (taken : step cfg s op = some t) (pending : (t.jobs j).future = .pending) :
    (s.jobs j).future = .pending := by
  cases op with
  | submit prio isPure turnId now =>
    cases taken
    simpa [submit,issued.ne] using pending
  | worker now =>
    obtain ⟨_,_,rfl⟩ := worker_cases taken
    simpa [dispatch,(dispatchLoop_jobs now _ (awake s)).1] using pending
  | taskStep k outcome now =>
    rcases taskStep_cases taken with ⟨_,_,_,rfl⟩ | ⟨_,_,rfl⟩ | ⟨_,rfl⟩
    · exact pending
    · exact setJob_pending (by rfl) (afterFactory_pending pending)
    · exact afterFactory_pending pending
  | cancelTurn turn =>
    cases taken
    simp only [cancelTurn,State.cancelRunning] at pending
    split at pending
    · simp at pending
    · exact pending
  | cancelSubmit i =>
    obtain ⟨_,_,rfl⟩ := cancelSubmit_cases taken
    simp only [cancelSubmit] at pending
    split at pending
    · exact setJob_pending (by rfl) pending
    · exact (settle_pending pending).1
  | submitResumes i =>
    obtain ⟨_,_,_,rfl⟩ := submitResumes_cases taken
    simp only [submitResumes] at pending
    split at pending <;> exact setJob_pending (by rfl) pending

theorem step_issued {op : Op} (taken : step cfg s op = some t) : s.nextSeq ≤ t.nextSeq := by
  rcases step_outside taken with ⟨now,rfl⟩ | moves
  · obtain ⟨_,_,rfl⟩ := worker_cases taken
    simp [dispatch,(dispatchLoop_jobs now _ (awake s)).2]
  · exact moves.issued

/-! ## What a shutdown leaves -/

theorem stopTail_known (known : Known s) : Known (stopTail s) := by
  have same := SamePlaces.cancelRunning s fun _ => true
  have kept := same.known known
  exact ⟨nofun,kept.running,kept.jobs,kept.nodup,kept.live⟩

theorem stopTail_held (s : State) (j : Nat) : held (stopTail s) j = held s j :=
  (SamePlaces.cancelRunning s fun _ => true).held j

theorem stopTail_single (inv : Single s) : Single (stopTail s) where
  known := stopTail_known inv.known
  atMostOnce j := by
    have once := inv.atMostOnce j
    have same : load (stopTail s) j = 0 + held s j := congrArg (0 + ·) (stopTail_held s j)
    simp only [load] at once
    omega

/-- Only jobs that were not queued are still pending. -/
theorem stopTail_pending {j : Nat} : ((stopTail s).jobs j).future = .pending ↔
    (s.jobs j).future = .pending ∧ j ∉ s.queue := by
  by_cases queued : j ∈ s.queue <;> simp [stopTail,queued]

theorem onWorkerDead_pending {j : Nat} : ((onWorkerDead s).jobs j).future = .pending ↔
    (s.jobs j).future = .pending ∧ j ∉ s.queue ∧ ∀ k ∈ s.running, (s.tasks k).job ≠ j := by
  have failing : j ∈ s.queue ++ s.running.map (fun k => (s.tasks k).job) ↔
      j ∈ s.queue ∨ ∃ k ∈ s.running, (s.tasks k).job = j := by simp
  by_cases hit : j ∈ s.queue ++ s.running.map fun k => (s.tasks k).job
  · simp only [onWorkerDead,if_pos hit]
    rcases failing.mp hit with queued | ⟨k,listed,mine⟩
    · simp [queued]
    · simpa using fun _ _ => ⟨k,listed,mine⟩
  · simp only [onWorkerDead,if_neg hit]
    have outside := (not_congr failing).mp hit
    simp only [not_or,not_exists,not_and] at outside
    exact ⟨fun pending => ⟨pending,outside⟩,fun both => both.1⟩

/-- The unfinished tasks of a job are in `_running` as long as the worker has not died. -/
theorem held_ne_zero_iff (known : Known s) {j : Nat} : held s j ≠ 0 ↔
    ∃ k < s.nextTask, (s.tasks k).live = true ∧ (s.tasks k).job = j := by
  rw [held,← Nat.pos_iff_ne_zero,List.countP_pos_iff]
  constructor
  · rintro ⟨k,listed,holding⟩
    exact ⟨k,known.running k listed,holds_iff.mp holding⟩
  · rintro ⟨k,_,alive,mine⟩
    exact ⟨k,known.live k alive,holds_iff.mpr ⟨alive,mine⟩⟩

/-! ## Whole lives -/

/-- The inductive form of `Released`. Before the death of the worker an earlier job that is
pending is held and not queued; after it there is none. -/
structure Releasing (l : Life) : Prop where
  closed : l.closed ≤ l.core.nextSeq
  single : l.worker ≠ .dead → Single l.core
  held : l.worker ≠ .dead → ∀ j < l.closed, (l.core.jobs j).future = .pending →
    j ∉ l.core.queue ∧ held l.core j ≠ 0
  dead : l.worker = .dead → ∀ j < l.closed, (l.core.jobs j).future ≠ .pending

theorem init_releasing : Releasing Life.init where
  closed := le_rfl
  single _ := init_placement.toSingle
  held := by simp [Life.init]
  dead := nofun

theorem Releasing.released {l : Life} (inv : Releasing l) : Released l := by
  by_cases dead : l.worker = .dead
  · exact ⟨fun j before pending => absurd pending (inv.dead dead j before),
      fun j _ before => inv.dead dead j before⟩
  · have known := (inv.single dead).known
    constructor
    · intro j before pending
      exact (held_ne_zero_iff known).mp (inv.held dead j before pending).2
    · intro j queued before pending
      exact (inv.held dead j before pending).1 queued

/-- A step of the core moves an earlier job only where `Strands` says so. -/
theorem core_releasing {l : Life} {op : Op} (inv : Releasing l)
    (calm : ¬Strands l (.core op)) (taken : step cfg l.core op = some t) :
    Releasing { l with core := t } := by
  refine ⟨inv.closed.trans (step_issued taken),?_,?_,?_⟩
  · exact fun dead => step_single (inv.single dead) taken
  · intro dead j before pending
    have single := inv.single dead
    have old := step_pending (before.trans_le inv.closed) taken pending
    obtain ⟨unqueued,unfinished⟩ := inv.held dead j before old
    have stays : j ∉ t.queue := by
      intro queued
      rcases step_idles single.known taken with ⟨_,_,_,_,rfl⟩ | ⟨k,outcome,now,rfl⟩ | moves
      · have issued := before.trans_le inv.closed
        rcases List.mem_append.mp queued with mem | new
        · exact unqueued mem
        · exact issued.ne (List.mem_singleton.mp new)
      · rcases taskStep_queue taken queued with mem | ⟨rfl,requeues⟩
        · exact unqueued mem
        · exact calm ⟨before,old,.inr requeues⟩
      · exact unqueued (moves.queue queued)
    have same : load t j = load l.core j := by
      rcases step_rearranges single.known taken with
        ⟨prio,isPure,turnId,now,rfl⟩ | moves | ⟨k,outcome,now,rfl,phase,flag,rfl⟩
      · have issued := before.trans_le inv.closed
        rw [(submit_load single.known prio isPure turnId now).2 j,if_neg issued.ne,Nat.add_zero]
      · exact (moves.kept j pending).2 not_false
      · have alive : (l.core.tasks k).live = true := by simp [Task.live,phase]
        apply ((endUnstarted_rearranges single.known alive).kept j pending).2
        rintro rfl
        exact calm ⟨before,old,.inl ⟨phase,flag,old⟩⟩
    rw [load_eq_held stays,load_eq_held unqueued] at same
    exact ⟨stays,same ▸ unfinished⟩
  · intro dead j before pending
    exact inv.dead dead j before (step_pending (before.trans_le inv.closed) taken pending)

theorem dies_releasing {l : Life} {now : ℚ} {rounds : Nat} (inv : Releasing l)
    (alive : l.worker = .alive) :
    Releasing { l with core := dispatchLoop cfg now rounds (awake l.core), worker := .dying } := by
  have dead : l.worker ≠ .dead := by simp [alive]
  have single := inv.single dead
  have woken := awake_keeps single.known
  have moves : Keeps l.core (dispatchLoop cfg now rounds (awake l.core)) :=
    woken.trans (dispatchLoop_moves now rounds woken.known)
  have idles : Idles l.core (dispatchLoop cfg now rounds (awake l.core)) :=
    (awake_idles l.core).trans (dispatchLoop_idles now rounds woken.known)
  refine ⟨moves.issued ▸ inv.closed,fun _ => single.keep moves,fun _ j before pending => ?_,nofun⟩
  obtain ⟨old,same⟩ := moves.kept j pending
  obtain ⟨unqueued,unfinished⟩ := inv.held dead j before old
  have stays : j ∉ (dispatchLoop cfg now rounds (awake l.core)).queue :=
    fun queued => unqueued (idles.queue queued)
  have same := same not_false
  rw [load_eq_held stays,load_eq_held unqueued] at same
  exact ⟨stays,same ▸ unfinished⟩

theorem lifeStep_releasing {l m : Life} {op : LifeOp} (inv : Releasing l) (calm : ¬Strands l op)
    (taken : lifeStep cfg l op = some m) : Releasing m := by
  cases op with
  | start =>
    simp only [lifeStep] at taken
    split at taken <;> cases taken
    next enabled =>
    have dead : l.worker ≠ .dead := by simp [enabled.1]
    have single := inv.single dead
    exact ⟨inv.closed,fun _ => ⟨⟨single.known.queue,single.known.running,single.known.jobs,
      single.known.nodup,single.known.live⟩,single.atMostOnce⟩,fun _ => inv.held dead,nofun⟩
  | core op =>
    simp only [lifeStep] at taken
    split at taken
    · obtain ⟨t,moved,rfl⟩ := Option.map_eq_some_iff.mp taken
      exact core_releasing inv calm moved
    · cases taken
  | stop =>
    simp only [lifeStep] at taken
    split at taken <;> cases taken
    · next absent =>
      have dead : l.worker ≠ .dead := by simp [absent]
      refine ⟨le_rfl,inv.single,fun _ j issued pending => ?_,fun gone => absurd gone dead⟩
      by_contra lost
      exact calm ⟨absent,j,issued,pending,by simpa only [not_and_or,not_not] using lost⟩
    · next alive =>
      exact ⟨inv.closed,fun _ => inv.single (by simp [alive]),
        fun _ => inv.held (by simp [alive]),nofun⟩
    · next stopping =>
      exact ⟨inv.closed,fun _ => inv.single (by simp [stopping]),
        fun _ => inv.held (by simp [stopping]),nofun⟩
    · exact inv
    · exact inv
  | stopResumes =>
    simp only [lifeStep] at taken
    split at taken <;> cases taken
    next enabled =>
    have dead : l.worker ≠ .dead := by
      rcases enabled.2 with stopping | absent
      · simp [stopping]
      · simp [absent]
    refine ⟨le_rfl,fun _ => stopTail_single (inv.single dead),fun _ j issued pending => ?_,nofun⟩
    obtain ⟨old,unqueued⟩ := stopTail_pending.mp pending
    refine ⟨nofun,fun lost => calm ⟨j,issued,old,unqueued,?_⟩⟩
    rwa [stopTail_held] at lost
  | dies now rounds =>
    simp only [lifeStep] at taken
    split at taken <;> cases taken
    next enabled => exact dies_releasing inv enabled.1
  | onWorkerDead =>
    simp only [lifeStep] at taken
    split at taken <;> cases taken
    refine ⟨le_rfl,fun dead => absurd rfl dead,fun dead => absurd rfl dead,?_⟩
    intro _ j issued pending
    exact calm ⟨j,issued,onWorkerDead_pending.mp pending⟩

/-- A pending job without an unfinished task, or in the queue, is not released. -/
theorem not_released {l : Life} {j : Nat} (known : Known l.core) (before : j < l.closed)
    (pending : (l.core.jobs j).future = .pending)
    (lost : j ∈ l.core.queue ∨ held l.core j = 0) : ¬Released l := by
  intro released
  rcases lost with queued | free
  · exact released.unqueued j queued before pending
  · exact (held_ne_zero_iff known).mpr (released.unwinding j before pending) free

/-- A job that is put back keeps its future. -/
theorem requeues_pending {k : Nat} {outcome : Outcome} {now : ℚ}
    (requeues : Requeues s (.taskStep k outcome now)) (taken : taskStep s k outcome now = some t)
    (pending : (s.jobOf k).future = .pending) : (t.jobs (s.tasks k).job).future = .pending := by
  obtain ⟨cancelled,marked,running⟩ := requeues
  have after (u : State) (task : u.tasks k = s.tasks k) (marks : u.preempting = s.preempting)
      (pending : (u.jobOf k).future = .pending) :
      ((afterFactory u k outcome now).jobs (s.tasks k).job).future = .pending := by
    rcases afterFactory_cases u k outcome now with ⟨other,_⟩ | ⟨_,_,unmarked,_⟩ | ⟨_,_,eq⟩
    · rw [cancelled] at other; cases other
    · exact absurd (by rw [task,marks]; exact marked) (unmarked cancelled)
    · rw [eq,task]
      simpa [State.setJob] using pending
  rcases taskStep_cases taken with ⟨phase,flag,_,_⟩ | ⟨_,_,rfl⟩ | ⟨_,rfl⟩
  · exact absurd ⟨phase,flag⟩ running
  · apply after (invoke s k) rfl rfl
    simpa [State.jobOf,invoke,State.setJob] using pending
  · exact after s rfl rfl pending

theorem core_strands {l : Life} {op : Op} (inv : Releasing l) (strands : Strands l (.core op))
    (taken : step cfg l.core op = some t) : ¬Released { l with core := t } := by
  cases op with
  | taskStep k outcome now =>
    obtain ⟨before,pending,wrong⟩ := strands
    have dead : l.worker ≠ .dead := fun dead => inv.dead dead _ before pending
    have single := inv.single dead
    have known := (step_single single taken).known
    rcases wrong with unheard | requeues
    · obtain ⟨alive,rfl⟩ := endsUnheard_eq unheard taken
      refine not_released known before pending (.inr ?_)
      have once := single.atMostOnce (l.core.tasks k).job
      have freed := endUnstarted_held single.known alive (l.core.tasks k).job
      rw [if_pos rfl] at freed
      simp only [load] at once
      change held (endUnstarted l.core k) (l.core.tasks k).job = 0
      omega
    · exact not_released known before (requeues_pending requeues taken pending)
        (.inl (requeues_queued requeues taken))
  | submit | worker | cancelTurn | cancelSubmit | submitResumes => exact strands.elim

theorem strands_breaks {l m : Life} {op : LifeOp} (inv : Releasing l)
    (taken : lifeStep cfg l op = some m) (strands : Strands l op) : ¬Released m := by
  cases op with
  | start | dies => exact strands.elim
  | core op =>
    simp only [lifeStep] at taken
    split at taken
    · obtain ⟨t,moved,rfl⟩ := Option.map_eq_some_iff.mp taken
      exact core_strands inv strands moved
    · cases taken
  | stop =>
    obtain ⟨absent,j,issued,pending,lost⟩ := strands
    simp only [lifeStep,absent] at taken
    cases taken
    exact not_released (inv.single (by simp [absent])).known issued pending lost
  | stopResumes =>
    obtain ⟨j,issued,pending,unqueued,free⟩ := strands
    simp only [lifeStep] at taken
    split at taken <;> cases taken
    next enabled =>
    have dead : l.worker ≠ .dead := by
      rcases enabled.2 with stopping | absent
      · simp [stopping]
      · simp [absent]
    exact not_released (stopTail_known (inv.single dead).known) issued
      (stopTail_pending.mpr ⟨pending,unqueued⟩) (.inr ((stopTail_held _ j).trans free))
  | onWorkerDead =>
    obtain ⟨j,issued,pending,unqueued,outside⟩ := strands
    simp only [lifeStep] at taken
    split at taken <;> cases taken
    next dying =>
    have known := (inv.single (by simp [dying])).known
    have same := SamePlaces.cancelRunning l.core fun _ => true
    intro released
    obtain ⟨k,_,alive,mine⟩ := released.unwinding j issued
      (onWorkerDead_pending.mpr ⟨pending,unqueued,outside⟩)
    have alive : (l.core.tasks k).live = true := (same.live k).symm.trans alive
    exact outside k (known.live k alive) ((same.job k).symm.trans mine)

/-- A shutdown leaves no submitter hanging exactly as long as it loses no job itself and no
task of an earlier job ends before its body or puts its job back. -/
theorem released_throughout_iff (cfg : Config) (ops : List LifeOp) (l : Life)
    (reached : Machine.run (lifeStep cfg) Life.init ops = some l) :
    Machine.Throughout (lifeStep cfg) Released Life.init ops ↔
      Machine.Meets (lifeStep cfg) (fun l op => ¬Strands l op) Life.init ops :=
  Machine.throughout_iff_meets
    (fun _ _ _ inv calm taken => lifeStep_releasing inv calm taken)
    (fun _ inv => inv.released)
    (fun _ _ _ inv taken strands => strands_breaks inv taken (not_not.mp strands))
    init_releasing reached

/-- `stop` completes while a preempted job unwinds; its handler then queues it again. -/
def stoppedWhilePreempting : List LifeOp := [
  .start,
  .core (.submit prioConsolidation true none 0),
  .core (.worker 0),
  .core (.taskStep 0 .suspends 0),
  .core (.submit prioChat true (some 1) 1),
  .core (.submit prioChat true (some 2) 1),
  .core (.worker 1),
  .stop,
  .stopResumes,
  .core (.taskStep 0 .cancelled 1),
  .core (.taskStep 1 .cancelled 1)]

/-- Every task has ended, and the submitter of a queued job still waits. -/
theorem stoppedWhilePreempting_hangs :
    ∃ l, Machine.run (lifeStep standard) Life.init stoppedWhilePreempting = some l ∧
      l.worker = .absent ∧ (∀ k < l.core.nextTask, (l.core.tasks k).live = false) ∧
      0 < l.closed ∧ (l.core.jobs 0).future = .pending ∧ (l.core.jobs 0).awaiting = true ∧
      0 ∈ l.core.queue ∧ ¬Released l := by
  have eval : ∃ l, Machine.run (lifeStep standard) Life.init stoppedWhilePreempting = some l ∧
      (l.worker = .absent ∧ (∀ k < l.core.nextTask, (l.core.tasks k).live = false) ∧
        0 < l.closed ∧ (l.core.jobs 0).future = .pending ∧ (l.core.jobs 0).awaiting = true ∧
        0 ∈ l.core.queue ∧ ¬Released l) :=
    Machine.exists_of_eval (by decide +kernel)
  exact eval

/-- The same jobs, and a `stop` after the preempted one has unwound. -/
def stoppedAfterPreempting : List LifeOp := [
  .start,
  .core (.submit prioConsolidation true none 0),
  .core (.worker 0),
  .core (.taskStep 0 .suspends 0),
  .core (.submit prioChat true (some 1) 1),
  .core (.submit prioChat true (some 2) 1),
  .core (.worker 1),
  .core (.taskStep 0 .cancelled 1),
  .core (.taskStep 1 .suspends 1),
  .stop,
  .stopResumes,
  .core (.taskStep 1 .cancelled 1)]

theorem stoppedAfterPreempting_released :
    Machine.Throughout (lifeStep standard) Released Life.init stoppedAfterPreempting := by
  have completes : ∃ l, Machine.run (lifeStep standard) Life.init stoppedAfterPreempting = some l ∧
      True := Machine.exists_of_eval (by decide +kernel)
  obtain ⟨l,reached,_⟩ := completes
  exact (released_throughout_iff standard stoppedAfterPreempting l reached).mpr (by decide +kernel)

end GhostRunner.Scheduler
