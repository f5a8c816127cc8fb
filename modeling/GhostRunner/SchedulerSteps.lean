import Mathlib.Data.List.Count
import GhostRunner.Scheduler

/-! What each stretch of the scheduler can change. Later modules reason from these
facts and do not unfold the operations again. -/
namespace GhostRunner.Scheduler

variable {cfg : Config} {s t : State}

@[simp] theorem FutureState.done_iff (f : FutureState) : f.done = true ↔ f ≠ .pending := by
  cases f <;> simp [FutureState.done]

@[simp] theorem FutureState.settle_pending_iff (f outcome : FutureState) (final : outcome ≠ .pending) :
    f.settle outcome = .pending ↔ False := by
  cases f <;> simp [FutureState.settle,FutureState.done,final]

@[simp] theorem Task.cancel_job (task : Task) : task.cancel.job = task.job := by
  unfold Task.cancel; split <;> rfl

@[simp] theorem Task.cancel_phase (task : Task) : task.cancel.phase = task.phase := by
  unfold Task.cancel; split <;> rfl

@[simp] theorem Task.live_update (task : Task) (phase : Phase) (flag : Bool) :
    ({ task with phase := phase, cancelRequested := flag } : Task).live = decide (phase ≠ .finished) :=
  rfl

/-! ## Where a job is -/

/-- The task is unfinished and runs the job. -/
def holds (s : State) (j : Nat) (k : Nat) : Bool :=
  (s.tasks k).live && decide ((s.tasks k).job = j)

/-- How many unfinished tasks of `_running` hold the job. -/
def held (s : State) (j : Nat) : Nat := s.running.countP (holds s j)

/-- Occurrences in the queue and unfinished tasks together. -/
def load (s : State) (j : Nat) : Nat := s.queue.count j + held s j

theorem holds_iff {j : Nat} {k : Nat} :
    holds s j k = true ↔ (s.tasks k).live = true ∧ (s.tasks k).job = j := by
  simp [holds]

/-- Bookkeeping that every operation keeps: identifiers in use have been issued, no
task is listed twice, and an unfinished task is listed. -/
structure Known (s : State) : Prop where
  queue : ∀ j ∈ s.queue, j < s.nextSeq
  running : ∀ k ∈ s.running, k < s.nextTask
  jobs : ∀ k ∈ s.running, (s.tasks k).job < s.nextSeq
  nodup : s.running.Nodup
  live : ∀ k, (s.tasks k).live = true → k ∈ s.running

theorem init_known : Known init := by
  constructor <;> simp [init,Task.live]

/-- The two states agree on where every job is, whatever else has changed. -/
structure SamePlaces (s t : State) : Prop where
  queue : t.queue = s.queue
  running : t.running = s.running
  nextSeq : t.nextSeq = s.nextSeq
  nextTask : t.nextTask = s.nextTask
  job : ∀ k, (t.tasks k).job = (s.tasks k).job
  phase : ∀ k, (t.tasks k).phase = (s.tasks k).phase

namespace SamePlaces

theorem live (same : SamePlaces s t) (k : Nat) : (t.tasks k).live = (s.tasks k).live := by
  simp only [Task.live,same.phase]

theorem holds (same : SamePlaces s t) (j : Nat) : holds t j = holds s j := by
  funext k; simp only [Scheduler.holds,same.live,same.job]

theorem held (same : SamePlaces s t) (j : Nat) : held t j = held s j := by
  simp only [Scheduler.held,same.running,same.holds]

theorem load (same : SamePlaces s t) (j : Nat) : load t j = load s j := by
  simp only [Scheduler.load,same.queue,same.held]

theorem known (same : SamePlaces s t) (known : Known s) : Known t where
  queue := by rw [same.queue,same.nextSeq]; exact known.queue
  running := by rw [same.running,same.nextTask]; exact known.running
  jobs := by
    rw [same.running,same.nextSeq]
    intro k listed; rw [same.job]; exact known.jobs k listed
  nodup := by rw [same.running]; exact known.nodup
  live := by intro k; rw [same.live,same.running]; exact known.live k

theorem setJob (s : State) (j : Nat) (job : Job) : SamePlaces s (s.setJob j job) := by
  constructor <;> simp [State.setJob]

theorem cancelRunning (s : State) (test : Nat → Bool) :
    SamePlaces s (s.cancelRunning test) := by
  constructor <;> simp only [State.cancelRunning]
  all_goals intro k; split <;> simp

theorem preempt (s : State) (victim : Nat) : SamePlaces s (preempt s victim) := by
  simp only [Scheduler.preempt]
  split
  · next k _ =>
    constructor <;> simp only [State.setTask]
    all_goals
      intro i
      by_cases same : i = k
      · subst same; simp
      · simp [Function.update_of_ne same]
  · constructor <;> simp

end SamePlaces

/-! ## Taking a job out of the queue, and finishing a task -/

theorem listed_old (known : Known s) : ∀ k ∈ s.running, k ≠ s.nextTask := by
  intro k listed same
  have := known.running k listed
  omega

theorem take_done {j : Nat} (done : (s.jobs j).future.done = true) :
    take s j = { s with queue := s.queue.erase j } := by
  simp [take,done]

theorem take_pending {j : Nat} (pending : (s.jobs j).future = .pending) :
    take s j =
      { s with
        queue := s.queue.erase j
        tasks := Function.update s.tasks s.nextTask { job := j, phase := .unstarted }
        nextTask := s.nextTask + 1
        running := s.running ++ [s.nextTask] } := by
  simp [take,FutureState.done,pending]

@[simp] theorem take_jobs (s : State) (j : Nat) : (take s j).jobs = s.jobs := by
  unfold take; dsimp only; split <;> rfl

@[simp] theorem take_nextSeq (s : State) (j : Nat) : (take s j).nextSeq = s.nextSeq := by
  unfold take; dsimp only; split <;> rfl

@[simp] theorem take_queue (s : State) (j : Nat) : (take s j).queue = s.queue.erase j := by
  unfold take; dsimp only; split <;> rfl

theorem take_known {j : Nat} (known : Known s) (queued : j ∈ s.queue) : Known (take s j) := by
  by_cases pending : (s.jobs j).future = .pending
  · rw [take_pending pending]
    have old : ∀ k ∈ s.running, k ≠ s.nextTask := listed_old known
    constructor
    · exact fun i mem => known.queue i (List.mem_of_mem_erase mem)
    · intro k listed
      rcases List.mem_append.mp listed with before | fresh
      · have := known.running k before; simp only; omega
      · simp only [List.mem_singleton] at fresh; simp only; omega
    · intro k listed
      rcases List.mem_append.mp listed with before | fresh
      · simp only [Function.update_of_ne (old k before)]; exact known.jobs k before
      · simp only [List.mem_singleton] at fresh
        subst fresh
        simpa using known.queue j queued
    · apply List.nodup_append'.mpr
      refine ⟨known.nodup,List.nodup_singleton _,?_⟩
      intro k before fresh
      exact old k before (List.mem_singleton.mp fresh)
    · intro k alive
      by_cases fresh : k = s.nextTask
      · subst fresh; simp
      · simp only [Function.update_of_ne fresh] at alive
        exact List.mem_append_left _ (known.live k alive)
  · rw [take_done (by simpa using pending)]
    exact ⟨fun i mem => known.queue i (List.mem_of_mem_erase mem),known.running,known.jobs,
      known.nodup,known.live⟩

/-- A pending job moves from the queue to a fresh task; nothing else moves. -/
theorem take_load_pending {j : Nat} (known : Known s) (queued : j ∈ s.queue)
    (pending : (s.jobs j).future = .pending) (i : Nat) : load (take s j) i = load s i := by
  have old := listed_old known
  rw [take_pending pending]
  have before : s.running.countP (holds (take s j) i) = s.running.countP (holds s i) := by
    apply List.countP_congr
    intro k listed
    rw [take_pending pending]
    simp only [holds,Function.update_of_ne (old k listed)]
  rw [take_pending pending] at before
  simp only [load,held,List.countP_append,before]
  by_cases same : i = j
  · subst same
    have positive := List.count_pos_iff.mpr queued
    simp [holds,Task.live]
    omega
  · simp [holds,Task.live,List.count_erase_of_ne same,Ne.symm same]

/-- A job dropped from the queue leaves every other job where it was. -/
theorem take_load_done {j : Nat} (done : (s.jobs j).future.done = true) (i : Nat) :
    load (take s j) i ≤ load s i ∧ (i ≠ j → load (take s j) i = load s i) := by
  rw [take_done done]
  constructor
  · exact Nat.add_le_add_right ((List.erase_sublist).count_le i) _
  · intro other
    simp only [load,List.count_erase_of_ne other]
    rfl

/-- A single change of a predicate on a list without repetitions. -/
theorem countP_change {l : List Nat} {k : Nat} {p q : Nat → Bool} (nodup : l.Nodup)
    (mem : k ∈ l) (before : p k = true) (after : q k = false)
    (same : ∀ i, i ≠ k → p i = q i) : l.countP p = l.countP q + 1 := by
  induction l with
  | nil => simp at mem
  | cons i rest ih =>
    obtain ⟨absent,nodup⟩ := List.nodup_cons.mp nodup
    by_cases here : i = k
    · subst here
      have unchanged : rest.countP p = rest.countP q := by
        apply List.countP_congr
        intro m listed
        rw [same m (fun eq => absent (eq ▸ listed))]
      simp [before,after,unchanged]
    · have listed := (List.mem_cons.mp mem).resolve_left (fun eq => here eq.symm)
      simp only [List.countP_cons,same i here,ih nodup listed]
      omega

/-- A finished task no longer holds its job; every other holding stays. -/
theorem finish_held {k : Nat} (known : Known s) (alive : (s.tasks k).live = true)
    (task : Task) (finished : task.live = false) (j : Nat) :
    held s j = held (s.setTask k task) j + if (s.tasks k).job = j then 1 else 0 := by
  by_cases mine : (s.tasks k).job = j
  · rw [if_pos mine]
    apply countP_change known.nodup (known.live k alive) (holds_iff.mpr ⟨alive,mine⟩)
    · simp [holds,State.setTask,finished]
    · intro i other
      simp [holds,State.setTask,Function.update_of_ne other]
  · rw [if_neg mine]
    apply List.countP_congr
    intro i _
    by_cases same : i = k
    · subst same; simp [holds,State.setTask,finished,mine]
    · simp [holds,State.setTask,Function.update_of_ne same]

theorem setTask_known {k : Nat} (known : Known s) (alive : (s.tasks k).live = true)
    (task : Task) (sameJob : task.job = (s.tasks k).job) : Known (s.setTask k task) where
  queue := known.queue
  running := known.running
  jobs := by
    intro i listed
    by_cases same : i = k
    · subst same; simpa [State.setTask,sameJob] using known.jobs i listed
    · simpa [State.setTask,Function.update_of_ne same] using known.jobs i listed
  nodup := known.nodup
  live := by
    intro i living
    by_cases same : i = k
    · subst same; exact known.live i alive
    · simp only [State.setTask,Function.update_of_ne same] at living
      exact known.live i living

/-- A task that goes on keeps its job. -/
theorem suspend_places {k : Nat} (alive : (s.tasks k).live = true) (flag : Bool) (j : Nat) :
    held (s.setTask k { s.tasks k with phase := .suspended, cancelRequested := flag }) j =
      held s j := by
  apply List.countP_congr
  intro i _
  by_cases same : i = k
  · subst same; simp [holds,State.setTask,alive]
  · simp [holds,State.setTask,Function.update_of_ne same]

/-! ## The choice and the loop of `_dispatch` -/

theorem mem_candidates {now : ℚ} {j : Nat} : j ∈ candidates cfg now s ↔ j ∈ s.queue := by
  simp [candidates,List.mem_insertionSort]

theorem mem_victims {v : Nat} : v ∈ victims s ↔
    (∃ k ∈ s.running, (s.tasks k).job = v) ∧ (s.jobs v).preemptible = true ∧
      v ∉ s.preempting := by
  simp [victims,List.mem_insertionSort]

/-- A job is started only under the admission rule of its class. -/
theorem choose_start {cands : List Nat} {j : Nat} (chosen : choose cfg s cands = .start j) :
    j ∈ cands ∧ (((s.jobs j).interactive = true ∧ 1 ≤ free cfg s) ∨
      ((s.jobs j).interactive = false ∧ (cfg.reserved : Int) < free cfg s)) := by
  induction cands with
  | nil => simp [choose] at chosen
  | cons cand rest ih =>
    simp only [choose] at chosen
    split at chosen
    · next rule =>
      cases chosen
      exact ⟨List.mem_cons_self,.inl ⟨rule.2,rule.1⟩⟩
    split at chosen
    · next rule =>
      cases chosen
      exact ⟨List.mem_cons_self,.inr ⟨rule.2,rule.1⟩⟩
    split at chosen
    · split at chosen
      · cases chosen
      · exact ⟨List.mem_cons_of_mem _ (ih chosen).1,(ih chosen).2⟩
    · exact ⟨List.mem_cons_of_mem _ (ih chosen).1,(ih chosen).2⟩

/-- A victim is chosen only for a waiting chat job and only when no slot is free. -/
theorem choose_preempt {cands : List Nat} {v : Nat}
    (chosen : choose cfg s cands = .preempt v) :
    (victims s).head? = some v ∧ free cfg s < 1 ∧
      ∃ cand ∈ cands, (s.jobs cand).interactive = true := by
  induction cands with
  | nil => simp [choose] at chosen
  | cons cand rest ih =>
    simp only [choose] at chosen
    split at chosen
    · cases chosen
    split at chosen
    · cases chosen
    split at chosen
    · next waiting =>
      split at chosen
      · next victim found =>
        cases chosen
        exact ⟨found,waiting.1,cand,List.mem_cons_self,waiting.2⟩
      · obtain ⟨head,none,other,mem,chat⟩ := ih chosen
        exact ⟨head,none,other,List.mem_cons_of_mem _ mem,chat⟩
    · obtain ⟨head,none,other,mem,chat⟩ := ih chosen
      exact ⟨head,none,other,List.mem_cons_of_mem _ mem,chat⟩

/-- The victim that was found is still in `_running`, so the `RuntimeError` of
`_try_preempt` is never raised. -/
theorem victim_found {v : Nat} (victim : v ∈ victims s) :
    ∃ k ∈ s.running, s.running.find? (fun k => (s.tasks k).job = v) = some k ∧
      (s.tasks k).job = v := by
  obtain ⟨⟨k,listed,mine⟩,_⟩ := mem_victims.mp victim
  cases found : s.running.find? (fun k => (s.tasks k).job = v) with
  | none =>
    have := List.find?_eq_none.mp found k listed
    simp [mine] at this
  | some i =>
    have hit := List.find?_some found
    exact ⟨i,List.mem_of_find?_eq_some found,rfl,by simpa using hit⟩

/-- Whatever the two elementary moves keep, a whole `_dispatch` keeps. -/
theorem dispatchLoop_keeps {inv : State → Prop} (now : ℚ)
    (takes : ∀ s j, inv s → j ∈ s.queue →
      (((s.jobs j).interactive = true ∧ 1 ≤ free cfg s) ∨
        ((s.jobs j).interactive = false ∧ (cfg.reserved : Int) < free cfg s)) → inv (take s j))
    (preempts : ∀ s v, inv s → v ∈ victims s → free cfg s < 1 → inv (preempt s v))
    (rounds : Nat) (s : State) (start : inv s) : inv (dispatchLoop cfg now rounds s) := by
  induction rounds generalizing s with
  | zero => exact start
  | succ rounds ih =>
    simp only [dispatchLoop]
    split
    · next j chosen =>
      obtain ⟨mem,rule⟩ := choose_start chosen
      exact ih _ (takes s j start (mem_candidates.mp mem) rule)
    · next v chosen =>
      obtain ⟨head,none,_⟩ := choose_preempt chosen
      exact preempts s v start (List.mem_of_head? head) none
    · exact start

/-! ## One wake-up of the worker, one step of a job task -/

theorem popFinished_held (s : State) (j : Nat) : held (popFinished s) j = held s j := by
  simp only [held,popFinished,List.countP_filter]
  apply List.countP_congr
  intro k _
  simp only [holds]
  cases (s.tasks k).live <;> simp

theorem popFinished_known (known : Known s) : Known (popFinished s) where
  queue := known.queue
  running := fun k listed => known.running k (List.mem_filter.mp listed).1
  jobs := fun k listed => known.jobs k (List.mem_filter.mp listed).1
  nodup := known.nodup.filter _
  live := fun k alive => List.mem_filter.mpr ⟨known.live k alive,alive⟩

/-- The state in which the worker dispatches. -/
def awake (s : State) : State := if s.parked then popFinished s else s

theorem awake_load (s : State) (j : Nat) : load (awake s) j = load s j := by
  simp only [awake]
  split
  · exact congrArg (s.queue.count j + ·) (popFinished_held s j)
  · rfl

theorem awake_known (known : Known s) : Known (awake s) := by
  simp only [awake]
  split
  · exact popFinished_known known
  · exact known

@[simp] theorem awake_jobs (s : State) : (awake s).jobs = s.jobs := by
  unfold awake; split <;> rfl

@[simp] theorem awake_tasks (s : State) : (awake s).tasks = s.tasks := by
  unfold awake; split <;> rfl

@[simp] theorem awake_queue (s : State) : (awake s).queue = s.queue := by
  unfold awake; split <;> rfl

@[simp] theorem awake_preempting (s : State) : (awake s).preempting = s.preempting := by
  unfold awake; split <;> rfl

@[simp] theorem awake_nextSeq (s : State) : (awake s).nextSeq = s.nextSeq := by
  unfold awake; split <;> rfl

theorem worker_cases {now : ℚ} (woken : worker cfg now s = some t) :
    workerReady s = true ∧ (cfg.agingS = 0 → s.queue = []) ∧
      t = { dispatch cfg now (awake s) with parked := true } := by
  unfold worker at woken
  split at woken
  · cases woken
  · next ready =>
    dsimp only at woken
    change (if cfg.agingS = 0 ∧ (awake s).queue ≠ [] then none
      else some { dispatch cfg now (awake s) with parked := true }) = some t at woken
    split at woken
    · cases woken
    · next aging =>
      refine ⟨by simpa using ready,?_,(Option.some.inj woken).symm⟩
      intro zero
      by_contra nonempty
      exact aging ⟨zero,by simpa using nonempty⟩

/-- The task ends before its body. -/
def endUnstarted (s : State) (k : Nat) : State :=
  s.setTask k { s.tasks k with phase := .finished, cancelRequested := false }

/-- The factory is called. -/
def invoke (s : State) (k : Nat) : State :=
  s.setJob (s.tasks k).job { s.jobOf k with starts := (s.jobOf k).starts + 1 }

/-- A step of a job task is one of three: a cancelled task ends before its body, an
unstarted task calls the factory, or a suspended one goes on inside it. -/
theorem taskStep_cases {k : Nat} {outcome : Outcome} {now : ℚ}
    (taken : taskStep s k outcome now = some t) :
    ((s.tasks k).phase = .unstarted ∧ (s.tasks k).cancelRequested = true ∧
      outcome = .cancelled ∧ t = endUnstarted s k) ∨
    ((s.tasks k).phase = .unstarted ∧ (s.tasks k).cancelRequested = false ∧
      t = afterFactory (invoke s k) k outcome now) ∨
    ((s.tasks k).phase = .suspended ∧ t = afterFactory s k outcome now) := by
  simp only [taskStep] at taken
  cases phase : (s.tasks k).phase <;> simp only [phase] at taken
  · cases flag : (s.tasks k).cancelRequested <;>
      simp only [flag,Bool.false_eq_true,↓reduceIte] at taken
    · exact .inr (.inl ⟨rfl,rfl,(Option.some.inj taken).symm⟩)
    · split at taken
      · next ends => exact .inl ⟨rfl,rfl,ends,(Option.some.inj taken).symm⟩
      · cases taken
  · exact .inr (.inr ⟨rfl,(Option.some.inj taken).symm⟩)
  · cases taken

theorem cancelSubmit_cases {j : Nat} (taken : step cfg s (.cancelSubmit j) = some t) :
    j < s.nextSeq ∧ (s.jobs j).awaiting = true ∧ t = cancelSubmit s j := by
  simp only [step] at taken
  split at taken
  · next enabled => exact ⟨enabled.1,enabled.2,(Option.some.inj taken).symm⟩
  · cases taken

theorem submitResumes_cases {j : Nat} (taken : step cfg s (.submitResumes j) = some t) :
    j < s.nextSeq ∧ (s.jobs j).awaiting = true ∧ (s.jobs j).future.done = true ∧
      t = submitResumes s j := by
  simp only [step] at taken
  split at taken
  · next enabled =>
    exact ⟨enabled.1,enabled.2.1,enabled.2.2,(Option.some.inj taken).symm⟩
  · cases taken

/-- What `afterFactory` leaves of the future, the queue and the task, by outcome. -/
theorem afterFactory_cases (s : State) (k : Nat) (outcome : Outcome) (now : ℚ) :
    (outcome = .suspends ∧ afterFactory s k outcome now =
      s.setTask k { s.tasks k with phase := .suspended, cancelRequested := false }) ∨
    (∃ final : FutureState, final ≠ .pending ∧
      (outcome = .cancelled → (s.tasks k).job ∉ s.preempting) ∧
      afterFactory s k outcome now = (endUnstarted s k).settle (s.tasks k).job final) ∨
    (outcome = .cancelled ∧ (s.tasks k).job ∈ s.preempting ∧
      afterFactory s k outcome now =
        { (endUnstarted s k).setJob (s.tasks k).job { s.jobOf k with
            preemptCount := (s.jobOf k).preemptCount + 1, enqueuedAt := now } with
          preempting := s.preempting.erase (s.tasks k).job
          queue := s.queue ++ [(s.tasks k).job]
          wake := true }) := by
  cases outcome with
  | suspends => exact .inl ⟨rfl,rfl⟩
  | returns => exact .inr (.inl ⟨.result,by decide,nofun,rfl⟩)
  | raises => exact .inr (.inl ⟨.exception,by decide,nofun,rfl⟩)
  | cancelled =>
    by_cases marked : (s.tasks k).job ∈ s.preempting
    · refine .inr (.inr ⟨rfl,marked,?_⟩)
      simp only [afterFactory,onCancelled,State.setTask,marked,if_true]
      rfl
    · refine .inr (.inl ⟨.cancelled,by decide,fun _ => marked,?_⟩)
      simp only [afterFactory,onCancelled,State.setTask,marked,if_false]
      rfl

end GhostRunner.Scheduler
