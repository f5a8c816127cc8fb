import GhostRunner.SchedulerPlacement

/-! What `cancel_turn` settles for good. A job of the turn comes back only through the
handler that finds it in `_preempting`; its submitter waits for ever only when the job
had already been lost, or is lost because its task is cancelled before its first step. -/
namespace GhostRunner.Scheduler

variable {cfg : Config} {s t : State}

/-- The `CancelledError` handler of `_execute` runs for a job in `_preempting`. -/
def Requeues (s : State) : Op → Prop
  | .taskStep k outcome _ => outcome = .cancelled ∧ (s.tasks k).job ∈ s.preempting ∧
      ¬((s.tasks k).phase = .unstarted ∧ (s.tasks k).cancelRequested = true)
  | _ => False

/-! ## A job that no longer runs -/

/-- Neither queued nor about to run: no task of the job has still to call its factory. -/
structure Dormant (j : Nat) (s : State) : Prop where
  unqueued : j ∉ s.queue
  flagged : ∀ k, (s.tasks k).job = j → (s.tasks k).phase = .unstarted →
    (s.tasks k).cancelRequested = true

/-- Dormant, with a factory that has been called `starts` times. -/
def Rests (j starts : Nat) (s : State) : Prop := Dormant j s ∧ (s.jobs j).starts = starts

theorem Task.cancel_flag (task : Task) (phase : task.phase = .unstarted) :
    task.cancel.cancelRequested = true := by
  simp [Task.cancel,Task.live,phase]

theorem Dormant.of_tasks {j : Nat} (inv : Dormant j s) (unqueued : j ∉ t.queue)
    (tasks : ∀ k, t.tasks k = s.tasks k ∨ t.tasks k = (s.tasks k).cancel) : Dormant j t where
  unqueued := unqueued
  flagged := by
    intro k mine phase
    rcases tasks k with eq | eq <;> rw [eq] at mine phase ⊢
    · exact inv.flagged k mine phase
    · exact Task.cancel_flag _ (by simpa using phase)

theorem cancelRunning_tasks (s : State) (test : Nat → Bool) (k : Nat) :
    (s.cancelRunning test).tasks k = s.tasks k ∨
      (s.cancelRunning test).tasks k = (s.tasks k).cancel := by
  simp only [State.cancelRunning]
  split
  · exact .inr rfl
  · exact .inl rfl

theorem preempt_tasks (s : State) (v k : Nat) :
    (preempt s v).tasks k = s.tasks k ∨ (preempt s v).tasks k = (s.tasks k).cancel := by
  unfold preempt
  dsimp only
  split
  · next i _ =>
    by_cases same : k = i
    · subst same; simp [State.setTask]
    · simp [State.setTask,Function.update_of_ne same]
  · exact .inl rfl

theorem preempt_queue (s : State) (v : Nat) : (preempt s v).queue = s.queue := by
  unfold preempt; dsimp only; split <;> rfl

theorem preempt_rests {j starts : Nat} (inv : Rests j starts s) (v : Nat) :
    Rests j starts (preempt s v) :=
  ⟨inv.1.of_tasks (by rw [preempt_queue]; exact inv.1.unqueued) (preempt_tasks s v),
    by rw [preempt_jobs]; exact inv.2⟩

theorem take_rests {i j starts : Nat} (inv : Rests j starts s) (queued : i ∈ s.queue) :
    Rests j starts (take s i) := by
  have other : i ≠ j := fun same => inv.1.unqueued (same ▸ queued)
  refine ⟨⟨?_,?_⟩,by rw [take_jobs]; exact inv.2⟩
  · rw [take_queue]
    exact fun mem => inv.1.unqueued (List.mem_of_mem_erase mem)
  · intro k mine phase
    by_cases pending : (s.jobs i).future = .pending
    · simp only [take_pending pending] at mine phase ⊢
      by_cases fresh : k = s.nextTask
      · subst fresh; simp only [Function.update_self] at mine; exact absurd mine other
      · simp only [Function.update_of_ne fresh] at mine phase ⊢
        exact inv.1.flagged k mine phase
    · simp only [take_done (show (s.jobs i).future.done = true by simpa using pending)]
        at mine phase ⊢
      exact inv.1.flagged k mine phase

theorem worker_rests {j starts : Nat} {now : ℚ} (inv : Rests j starts s)
    (woken : worker cfg now s = some t) : Rests j starts t := by
  obtain ⟨_,_,rfl⟩ := worker_cases woken
  have start : Rests j starts (awake s) :=
    ⟨⟨by simpa using inv.1.unqueued,by simpa using inv.1.flagged⟩,by simpa using inv.2⟩
  have dispatched : Rests j starts (dispatch cfg now (awake s)) :=
    dispatchLoop_keeps now (fun _ _ rests queued _ => take_rests rests queued)
      (fun _ v rests _ _ => preempt_rests rests v) _ _ start
  exact ⟨⟨dispatched.1.unqueued,dispatched.1.flagged⟩,dispatched.2⟩

/-- A step of a job task leaves a resting job at rest unless it puts the job back. -/
theorem taskStep_rests {j starts k : Nat} {outcome : Outcome} {now : ℚ}
    (inv : Rests j starts s) (stays : (s.tasks k).job = j → ¬Requeues s (.taskStep k outcome now))
    (taken : taskStep s k outcome now = some t) : Rests j starts t := by
  have ended (s' : State) (inv : Rests j starts s') : Rests j starts (endUnstarted s' k) := by
    refine ⟨⟨inv.1.unqueued,?_⟩,inv.2⟩
    intro i mine phase
    by_cases same : i = k
    · subst same; simp [endUnstarted,State.setTask] at phase
    · simp only [endUnstarted,State.setTask,Function.update_of_ne same] at mine phase ⊢
      exact inv.1.flagged i mine phase
  have relabelled (s' : State) (inv : Rests j starts s') (i : Nat) (job : Job)
      (same : job.starts = (s'.jobs i).starts) : Rests j starts (s'.setJob i job) := by
    refine ⟨⟨inv.1.unqueued,inv.1.flagged⟩,?_⟩
    by_cases mine : j = i
    · subst mine; simpa [State.setJob,same] using inv.2
    · simpa [State.setJob,Function.update_of_ne mine] using inv.2
  have after (s' : State) (inv : Rests j starts s') (task : s'.tasks k = s.tasks k)
      (marks : s'.preempting = s.preempting)
      (running : ¬((s.tasks k).phase = .unstarted ∧ (s.tasks k).cancelRequested = true)) :
      Rests j starts (afterFactory s' k outcome now) := by
    rcases afterFactory_cases s' k outcome now with
      ⟨_,eq⟩ | ⟨final,_,_,eq⟩ | ⟨cancelled,marked,eq⟩ <;> rw [eq]
    · refine ⟨⟨inv.1.unqueued,?_⟩,inv.2⟩
      intro i mine phase
      by_cases same : i = k
      · subst same; simp [State.setTask] at phase
      · simp only [State.setTask,Function.update_of_ne same] at mine phase ⊢
        exact inv.1.flagged i mine phase
    · exact relabelled _ (ended s' inv) _ _ rfl
    · have other : (s'.tasks k).job ≠ j := by
        intro mine
        refine stays (task ▸ mine) ⟨cancelled,?_,running⟩
        rw [← marks,← task]; exact marked
      have moved := relabelled _ (ended s' inv) (s'.tasks k).job
        { s'.jobOf k with preemptCount := (s'.jobOf k).preemptCount + 1, enqueuedAt := now } rfl
      refine ⟨⟨?_,moved.1.flagged⟩,moved.2⟩
      intro mem
      rcases List.mem_append.mp mem with old | new
      · exact inv.1.unqueued old
      · exact other (List.mem_singleton.mp new).symm
  rcases taskStep_cases taken with ⟨_,_,_,rfl⟩ | ⟨phase,flag,rfl⟩ | ⟨phase,rfl⟩
  · exact ended s inv
  · have other : j ≠ (s.tasks k).job := by
      intro mine
      have := inv.1.flagged k mine.symm phase
      rw [flag] at this; cases this
    refine after (invoke s k) ⟨⟨inv.1.unqueued,inv.1.flagged⟩,?_⟩ rfl rfl (by simp [flag])
    simpa [invoke,State.setJob,Function.update_of_ne other] using inv.2
  · exact after s inv rfl rfl (by simp [phase])

theorem cancelTurn_tasks (s : State) (turn : Int) (k : Nat) :
    (cancelTurn s turn).1.tasks k = s.tasks k ∨
      (cancelTurn s turn).1.tasks k = (s.tasks k).cancel := by
  simp only [cancelTurn,State.cancelRunning]
  split
  · exact .inr rfl
  · exact .inl rfl

theorem cancelTurn_rests {j starts : Nat} (inv : Rests j starts s) (turn : Int) :
    Rests j starts (cancelTurn s turn).1 := by
  refine ⟨inv.1.of_tasks ?_ (cancelTurn_tasks s turn),?_⟩
  · exact fun mem => inv.1.unqueued (List.mem_filter.mp mem).1
  · simp only [cancelTurn,State.cancelRunning]
    split
    · exact inv.2
    · exact inv.2

theorem submitResumes_rests {i j starts : Nat} (inv : Rests j starts s) :
    Rests j starts (submitResumes s i) := by
  have resumed : Rests j starts (s.setJob i { s.jobs i with awaiting := false }) := by
    refine ⟨⟨inv.1.unqueued,inv.1.flagged⟩,?_⟩
    by_cases mine : j = i
    · subst mine; simpa [State.setJob] using inv.2
    · simpa [State.setJob,Function.update_of_ne mine] using inv.2
  unfold submitResumes
  dsimp only
  split
  · refine ⟨resumed.1.of_tasks ?_ (cancelRunning_tasks _ _),resumed.2⟩
    exact fun mem => resumed.1.unqueued (List.mem_of_mem_erase mem)
  · exact resumed

theorem cancelSubmit_rests {i j starts : Nat} (inv : Rests j starts s) :
    Rests j starts (cancelSubmit s i) := by
  simp only [cancelSubmit]
  split
  all_goals
    refine ⟨⟨inv.1.unqueued,inv.1.flagged⟩,?_⟩
    by_cases mine : j = i
    · subst mine; simpa [State.setJob,State.settle] using inv.2
    · simpa [State.setJob,State.settle,Function.update_of_ne mine] using inv.2

/-- The single way back to the queue, whatever else happens. -/
theorem step_rests {j starts : Nat} {op : Op} (inv : Rests j starts s) (issued : j < s.nextSeq)
    (stays : ∀ k outcome now, op = .taskStep k outcome now → (s.tasks k).job = j →
      ¬Requeues s op)
    (taken : step cfg s op = some t) : Rests j starts t := by
  cases op with
  | submit prio isPure turnId now =>
    cases taken
    have other : j ≠ s.nextSeq := by omega
    refine ⟨⟨?_,inv.1.flagged⟩,?_⟩
    · intro mem
      rcases List.mem_append.mp mem with old | new
      · exact inv.1.unqueued old
      · exact other (List.mem_singleton.mp new)
    · simpa [submit,Function.update_of_ne other] using inv.2
  | worker now => exact worker_rests inv taken
  | taskStep k outcome now => exact taskStep_rests inv (stays k outcome now rfl) taken
  | cancelTurn turn => cases taken; exact cancelTurn_rests inv turn
  | cancelSubmit i =>
    obtain ⟨_,_,rfl⟩ := cancelSubmit_cases taken
    exact cancelSubmit_rests inv
  | submitResumes i =>
    obtain ⟨_,_,_,rfl⟩ := submitResumes_cases taken
    exact submitResumes_rests inv

/-! ## The jobs of a cancelled turn -/

/-- `j` had been submitted for the turn when `cancel_turn` was called in `s₀`. -/
def Covered (turn : Int) (s₀ : State) (j : Nat) : Prop :=
  j < s₀.nextSeq ∧ (s₀.jobs j).turnId = some turn

instance (turn : Int) (s₀ : State) : DecidablePred (Covered turn s₀) := fun _ =>
  inferInstanceAs (Decidable (_ ∧ _))

/-- Every covered job is out of the queue, has not been started since the call, and has
a done future as soon as no unfinished task holds it. -/
def Final (turn : Int) (s₀ s : State) : Prop :=
  ∀ j < s₀.nextSeq, (s₀.jobs j).turnId = some turn →
    j ∉ s.queue ∧ (s.jobs j).starts = (s₀.jobs j).starts ∧
      (held s j = 0 → (s.jobs j).future ≠ .pending)

/-- No job of the turn waits for ever already: each pending one is queued or held. -/
def NoneLost (turn : Int) (s₀ : State) : Prop :=
  ∀ j < s₀.nextSeq, (s₀.jobs j).turnId = some turn → (s₀.jobs j).future = .pending →
    j ∈ s₀.queue ∨ held s₀ j ≠ 0

/-- A step of a covered job's task that puts the job back, or that ends before the body
with the job still awaited. -/
def Disturbs (turn : Int) (s₀ s : State) : Op → Prop
  | .taskStep k outcome now => Covered turn s₀ (s.tasks k).job ∧
      (EndsUnheard s (.taskStep k outcome now) ∨ Requeues s (.taskStep k outcome now))
  | _ => False

instance (s : State) : DecidablePred (Requeues s)
  | .taskStep .. => inferInstanceAs (Decidable (_ ∧ _))
  | .submit .. | .worker .. | .submitResumes .. | .cancelSubmit .. | .cancelTurn .. =>
    instDecidableFalse

instance (turn : Int) (s₀ s : State) : DecidablePred (Disturbs turn s₀ s)
  | .taskStep .. => inferInstanceAs (Decidable (_ ∧ _))
  | .submit .. | .worker .. | .submitResumes .. | .cancelSubmit .. | .cancelTurn .. =>
    instDecidableFalse

instance (turn : Int) (s₀ : State) : DecidablePred (Final turn s₀) := fun s => by
  unfold Final; infer_instance

instance (turn : Int) : DecidablePred (NoneLost turn) := fun s => by
  unfold NoneLost; infer_instance

/-- The inductive form of `Final`. -/
structure Settled (turn : Int) (s₀ s : State) : Prop where
  single : Single s
  later : s₀.nextSeq ≤ s.nextSeq
  rests : ∀ j, Covered turn s₀ j → Rests j (s₀.jobs j).starts s
  unwinding : ∀ j, Covered turn s₀ j → (s.jobs j).future = .pending → held s j ≠ 0

theorem Settled.final {turn : Int} {s₀ : State} (inv : Settled turn s₀ s) : Final turn s₀ s := by
  intro j issued mine
  obtain ⟨dormant,starts⟩ := inv.rests j ⟨issued,mine⟩
  exact ⟨dormant.unqueued,starts,
    fun free pending => inv.unwinding j ⟨issued,mine⟩ pending free⟩

theorem load_eq_held {j : Nat} (absent : j ∉ s.queue) : load s j = held s j := by
  simp [load,List.count_eq_zero.mpr absent]

/-- `cancel_turn` empties the queue of the turn's jobs and cancels each of their tasks. -/
theorem cancelTurn_settled {turn : Int} (single : Single s) (kept : NoneLost turn s) :
    Settled turn s (cancelTurn s turn).1 := by
  have moves := cancelTurn_keeps single.known turn
  have outside (j : Nat) (mine : (s.jobs j).turnId = some turn) :
      j ∉ (cancelTurn s turn).1.queue := by
    intro mem
    have := (List.mem_filter.mp mem).2
    simp [mine] at this
  refine ⟨single.keep moves,moves.issued.ge,?_,?_⟩
  · intro j covered
    refine ⟨⟨outside j covered.2,?_⟩,?_⟩
    · intro k mine phase
      have job : (s.tasks k).job = j := by
        rcases cancelTurn_tasks s turn k with eq | eq <;> simpa [eq] using mine
      have fresh : (s.tasks k).phase = .unstarted := by
        rcases cancelTurn_tasks s turn k with eq | eq <;> simpa [eq] using phase
      have listed := single.known.live k (by simp [Task.live,fresh])
      simp only [cancelTurn,State.cancelRunning,listed,job,covered.2,decide_true,and_self,if_true]
      exact Task.cancel_flag _ fresh
    · simp only [cancelTurn,State.cancelRunning]
      split <;> rfl
  · intro j covered pending
    obtain ⟨before,same⟩ := moves.kept j pending
    have stays := same not_false
    rw [load_eq_held (outside j covered.2)] at stays
    -- a queued job was cancelled by the call, so a pending one is held
    have unqueued : j ∉ s.queue := by
      intro mem
      have hit : j ∈ s.queue.filter (fun j => decide ((s.jobs j).turnId = some turn)) :=
        List.mem_filter.mpr ⟨mem,by simpa using covered.2⟩
      simp only [cancelTurn,State.cancelRunning,hit,if_true] at pending
      simp at pending
    rw [load_eq_held unqueued] at stays
    rw [stays]
    exact (kept j covered.1 covered.2 before).resolve_left unqueued

theorem step_settled {turn : Int} {s₀ : State} {op : Op} (inv : Settled turn s₀ s)
    (calm : ¬Disturbs turn s₀ s op) (taken : step cfg s op = some t) : Settled turn s₀ t := by
  have rests : ∀ j, Covered turn s₀ j → Rests j (s₀.jobs j).starts t := by
    intro j covered
    refine step_rests (inv.rests j covered) (covered.1.trans_le inv.later) ?_ taken
    rintro k outcome now rfl mine requeues
    exact calm ⟨mine ▸ covered,.inr requeues⟩
  have single := step_single inv.single taken
  rcases step_rearranges inv.single.known taken with
    ⟨_,_,_,_,rfl⟩ | moves | ⟨k,outcome,now,rfl,phase,flag,rfl⟩
  · refine ⟨single,inv.later.trans (Nat.le_succ _),rests,?_⟩
    intro j covered pending
    have other : j ≠ s.nextSeq := by have := covered.1; have := inv.later; omega
    simp only [submit,Function.update_of_ne other] at pending
    exact inv.unwinding j covered pending
  · refine ⟨single,inv.later.trans moves.issued.ge,rests,?_⟩
    intro j covered pending
    obtain ⟨before,same⟩ := moves.kept j pending
    have stays := same not_false
    rw [load_eq_held (rests j covered).1.unqueued,
      load_eq_held (inv.rests j covered).1.unqueued] at stays
    rw [stays]
    exact inv.unwinding j covered before
  · have alive : (s.tasks k).live = true := by simp [Task.live,phase]
    refine ⟨single,inv.later,rests,?_⟩
    intro j covered pending
    have other : (s.tasks k).job ≠ j := by
      rintro rfl; exact calm ⟨covered,.inl ⟨phase,flag,pending⟩⟩
    have freed := endUnstarted_held inv.single.known alive j
    rw [if_neg other] at freed
    have := inv.unwinding j covered pending
    omega

theorem requeues_queued {k : Nat} {outcome : Outcome} {now : ℚ}
    (requeues : Requeues s (.taskStep k outcome now))
    (taken : taskStep s k outcome now = some t) : (s.tasks k).job ∈ t.queue := by
  obtain ⟨cancelled,marked,running⟩ := requeues
  have after (s' : State) (task : s'.tasks k = s.tasks k) (marks : s'.preempting = s.preempting) :
      (s.tasks k).job ∈ (afterFactory s' k outcome now).queue := by
    rcases afterFactory_cases s' k outcome now with ⟨other,_⟩ | ⟨_,_,unmarked,_⟩ | ⟨_,_,eq⟩
    · rw [cancelled] at other; cases other
    · exact absurd (by rw [task,marks]; exact marked) (unmarked cancelled)
    · rw [eq,task]; simp
  rcases taskStep_cases taken with ⟨phase,flag,_,_⟩ | ⟨_,_,rfl⟩ | ⟨_,rfl⟩
  · exact absurd ⟨phase,flag⟩ running
  · exact after (invoke s k) rfl rfl
  · exact after s rfl rfl

theorem disturbs_breaks {turn : Int} {s₀ : State} {op : Op} (inv : Settled turn s₀ s)
    (disturbs : Disturbs turn s₀ s op) (taken : step cfg s op = some t) : ¬Final turn s₀ t := by
  cases op with
  | taskStep k outcome now =>
    obtain ⟨covered,unheard | requeues⟩ := disturbs
    · obtain ⟨alive,rfl⟩ := endsUnheard_eq unheard taken
      intro final
      have freed := endUnstarted_held inv.single.known alive (s.tasks k).job
      have once := inv.single.atMostOnce (s.tasks k).job
      rw [load_eq_held (inv.rests _ covered).1.unqueued,freed,if_pos rfl] at once
      exact (final _ covered.1 covered.2).2.2 (by omega) unheard.2.2
    · exact fun final => (final _ covered.1 covered.2).1 (requeues_queued requeues taken)
  | submit | worker | cancelTurn | cancelSubmit | submitResumes => exact disturbs.elim

theorem run_single {ops : List Op} (start : Single s)
    (reached : Machine.run (step cfg) s ops = some t) : Single t :=
  Machine.run_invariant (fun _ _ _ inv taken => step_single inv taken) start reached

/-- `cancel_turn` is final exactly when no job of the turn had been lost before the call
and afterwards no task of such a job ends before its body with the job still awaited or
handles its `CancelledError` with the job in `_preempting`. -/
theorem cancelTurn_final_iff (cfg : Config) (before after : List Op) (turn : Int) (s₀ s : State)
    (reached : Machine.run (step cfg) init before = some s₀)
    (continued : Machine.run (step cfg) (cancelTurn s₀ turn).1 after = some s) :
    Machine.Throughout (step cfg) (Final turn s₀) (cancelTurn s₀ turn).1 after ↔
      NoneLost turn s₀ ∧ Machine.Meets (step cfg) (fun s op => ¬Disturbs turn s₀ s op)
        (cancelTurn s₀ turn).1 after := by
  have single : Single s₀ := run_single init_placement.toSingle reached
  by_cases kept : NoneLost turn s₀
  · have exact_ := Machine.throughout_iff_meets
      (fun _ _ _ inv calm taken => step_settled inv calm taken) (fun _ inv => inv.final)
      (fun _ _ _ inv taken disturbs => disturbs_breaks inv (not_not.mp disturbs) taken)
      (cancelTurn_settled single kept) continued
    simp only [kept,true_and]
    exact exact_
  · simp only [kept,false_and,iff_false]
    intro all
    apply kept
    intro j issued mine pending
    by_contra outside
    obtain ⟨unqueued,unheld⟩ := not_or.mp outside
    have moves := cancelTurn_keeps single.known turn
    have free : held (cancelTurn s₀ turn).1 j = 0 := by
      have := moves.fewer j
      rw [load_eq_held unqueued] at this
      have bound : held (cancelTurn s₀ turn).1 j ≤ load (cancelTurn s₀ turn).1 j :=
        Nat.le_add_left _ _
      omega
    refine (all.head j issued mine).2.2 free ?_
    simp only [cancelTurn,State.cancelRunning]
    rw [if_neg (fun mem => unqueued (List.mem_filter.mp mem).1)]
    exact pending

/-- A background job of turn 7 has been preempted and has not unwound yet. -/
def preemptionInFlight : List Op := [
  .submit prioConsolidation true (some 7) 0,
  .worker 0,
  .taskStep 0 .suspends 0,
  .submit prioChat true (some 1) 1,
  .submit prioChat true (some 2) 1,
  .worker 1]

/-- It unwinds, waits behind the second chat job, and is called a second time. -/
def preemptionUnwinds : List Op := [
  .taskStep 0 .cancelled 1,
  .worker 1,
  .taskStep 1 .returns 2,
  .taskStep 2 .returns 2,
  .worker 2,
  .taskStep 3 .suspends 2]

/-- After `cancel_turn 7` the preempted job of turn 7 starts again. -/
theorem preemptionUnwinds_restarts :
    ∃ s₀, Machine.run (step standard) init preemptionInFlight = some s₀ ∧
      ∃ s, Machine.run (step standard) (cancelTurn s₀ 7).1 preemptionUnwinds = some s ∧
        Covered 7 s₀ 0 ∧ (s₀.jobs 0).starts = 1 ∧ (s.jobs 0).starts = 2 ∧ ¬Final 7 s₀ s := by
  have eval : ∃ s₀, Machine.run (step standard) init preemptionInFlight = some s₀ ∧
      ((Machine.run (step standard) (cancelTurn s₀ 7).1 preemptionUnwinds).map fun s =>
        decide (Covered 7 s₀ 0 ∧ (s₀.jobs 0).starts = 1 ∧ (s.jobs 0).starts = 2 ∧
          ¬Final 7 s₀ s)) = some true :=
    Machine.exists_of_eval (by decide +kernel)
  obtain ⟨s₀,reached,later⟩ := eval
  exact ⟨s₀,reached,Machine.exists_of_eval later⟩

/-- A job of turn 7 that runs and one that waits behind it. -/
def runningAndQueued : List Op := [
  .submit prioEmbeddings true (some 7) 0,
  .submit prioEmbeddings false (some 7) 0,
  .worker 0,
  .taskStep 0 .suspends 0]

theorem runningAndQueued_final :
    ∃ s₀, Machine.run (step standard) init runningAndQueued = some s₀ ∧
      Machine.Throughout (step standard) (Final 7 s₀) (cancelTurn s₀ 7).1
        [.taskStep 0 .cancelled 1, .submitResumes 1, .worker 1] := by
  have eval : ∃ s₀, Machine.run (step standard) init runningAndQueued = some s₀ ∧
      ((Machine.run (step standard) (cancelTurn s₀ 7).1
          [.taskStep 0 .cancelled 1, .submitResumes 1, .worker 1]).map fun _ =>
        decide (NoneLost 7 s₀ ∧ Machine.Meets (step standard) (fun s op => ¬Disturbs 7 s₀ s op)
          (cancelTurn s₀ 7).1 [.taskStep 0 .cancelled 1, .submitResumes 1, .worker 1])) =
        some true :=
    Machine.exists_of_eval (by decide +kernel)
  obtain ⟨s₀,reached,later⟩ := eval
  obtain ⟨s,continued,clean⟩ := Machine.exists_of_eval later
  exact ⟨s₀,reached,(cancelTurn_final_iff standard _ _ 7 s₀ s reached continued).mpr clean⟩

end GhostRunner.Scheduler
