import GhostRunner.SchedulerAdmission
import GhostRunner.SchedulerCancelTurn

/-! How often a factory is called. A call is due from the moment the job enters the queue,
by its submission or by the preemption that puts it back, until its task takes the first
step. A submitter that is cancelled in between withdraws the job only at its own next
step, and the first step of the task can come before that. -/
namespace GhostRunner.Scheduler

variable {cfg : Config} {s t : State}

/-- The job is queued, or a task of it has not taken its first step. -/
def Due (s : State) (j : Nat) : Prop :=
  j ∈ s.queue ∨ ∃ k, (s.tasks k).phase = .unstarted ∧ (s.tasks k).job = j

/-- A task takes its first step, not cancelled, between the cancellation of the submitter
and the submitter's `_remove`. -/
def Overtakes (s : State) : Op → Prop
  | .taskStep k _ _ => (s.tasks k).phase = .unstarted ∧ (s.tasks k).cancelRequested = false ∧
      (s.jobOf k).future = .cancelled ∧ (s.jobOf k).awaiting = true
  | _ => False

instance (s : State) : DecidablePred (Overtakes s)
  | .taskStep .. => inferInstanceAs (Decidable (_ ∧ _))
  | .submit .. | .worker .. | .submitResumes .. | .cancelSubmit .. | .cancelTurn .. =>
    instDecidableFalse

/-! ## Steps that call no factory -/

/-- No factory is called and no job enters the queue. -/
structure Idles (s t : State) : Prop where
  issued : t.nextSeq = s.nextSeq
  kind : ∀ j, (t.jobs j).kind = (s.jobs j).kind
  starts : ∀ j, (t.jobs j).starts = (s.jobs j).starts
  preemptCount : ∀ j, (t.jobs j).preemptCount = (s.jobs j).preemptCount
  queue : t.queue ⊆ s.queue
  due : ∀ j, Due t j → Due s j
  marks : ∀ j ∈ t.preempting, j ∈ s.preempting ∨ j < s.nextSeq ∧ (s.jobs j).preemptible = true

theorem Idles.refl (s : State) : Idles s s :=
  ⟨rfl,fun _ => rfl,fun _ => rfl,fun _ => rfl,List.Subset.refl _,fun _ due => due,
    fun _ marked => .inl marked⟩

theorem Idles.trans {u : State} (first : Idles s t) (second : Idles t u) : Idles s u where
  issued := second.issued.trans first.issued
  kind j := (second.kind j).trans (first.kind j)
  starts j := (second.starts j).trans (first.starts j)
  preemptCount j := (second.preemptCount j).trans (first.preemptCount j)
  queue := fun _ mem => first.queue (second.queue mem)
  due j due := first.due j (second.due j due)
  marks := by
    intro j marked
    rcases second.marks j marked with before | ⟨issued,may⟩
    · exact first.marks j before
    · exact .inr ⟨first.issued ▸ issued,(Job.preemptible_of_kind (first.kind j)) ▸ may⟩

/-- Cancelling tasks, and relabelling them without starting one, leaves no new call due. -/
theorem Idles.of_tasks (issued : t.nextSeq = s.nextSeq) (jobs : t.jobs = s.jobs)
    (queue : t.queue ⊆ s.queue) (marks : t.preempting = s.preempting)
    (tasks : ∀ k, (t.tasks k).phase = .unstarted →
      (s.tasks k).phase = .unstarted ∧ (t.tasks k).job = (s.tasks k).job) : Idles s t := by
  refine ⟨issued,fun _ => by rw [jobs],fun _ => by rw [jobs],fun _ => by rw [jobs],queue,?_,
    fun _ marked => .inl (marks ▸ marked)⟩
  rintro j (queued | ⟨k,fresh,mine⟩)
  · exact .inl (queue queued)
  · obtain ⟨before,same⟩ := tasks k fresh
    exact .inr ⟨k,before,same ▸ mine⟩

theorem Idles.setJob {j : Nat} {job : Job} (kind : job.kind = (s.jobs j).kind)
    (starts : job.starts = (s.jobs j).starts)
    (preemptCount : job.preemptCount = (s.jobs j).preemptCount) : Idles s (s.setJob j job) := by
  refine ⟨rfl,fun i => ?_,fun i => ?_,fun i => ?_,List.Subset.refl _,fun _ due => due,
    fun _ marked => .inl marked⟩
  all_goals
    by_cases mine : i = j
    · subst i; simpa [State.setJob]
    · simp [State.setJob,mine]

theorem Idles.cancelRunning (s : State) (test : Nat → Bool) : Idles s (s.cancelRunning test) := by
  have places := SamePlaces.cancelRunning s test
  exact .of_tasks rfl rfl (List.Subset.refl _) rfl fun k fresh =>
    ⟨places.phase k ▸ fresh,places.job k⟩

theorem Idles.finish (s : State) (k : Nat) (flag : Bool) {phase : Phase}
    (started : phase ≠ .unstarted) :
    Idles s (s.setTask k { s.tasks k with phase := phase, cancelRequested := flag }) := by
  refine .of_tasks rfl rfl (List.Subset.refl _) rfl fun i fresh => ?_
  by_cases mine : i = k
  · subst i; simp [State.setTask,started] at fresh
  · simpa [State.setTask,mine] using fresh

theorem take_idles {j : Nat} (queued : j ∈ s.queue) : Idles s (take s j) := by
  by_cases pending : (s.jobs j).future = .pending
  · rw [take_pending pending]
    refine ⟨rfl,fun _ => rfl,fun _ => rfl,fun _ => rfl,List.erase_subset,?_,
      fun _ marked => .inl marked⟩
    rintro i (waiting | ⟨k,fresh,mine⟩)
    · exact .inl (List.mem_of_mem_erase waiting)
    · by_cases new : k = s.nextTask
      · subst new
        simp only [Function.update_self] at mine
        exact .inl (mine ▸ queued)
      · simp only [Function.update_of_ne new] at fresh mine
        exact .inr ⟨k,fresh,mine⟩
  · rw [take_done (by simpa using pending)]
    exact .of_tasks rfl rfl List.erase_subset rfl fun _ fresh => ⟨fresh,rfl⟩

theorem preempt_idles {v : Nat} (known : Known s) (victim : v ∈ victims s) :
    Idles s (preempt s v) := by
  have places := SamePlaces.preempt s v
  obtain ⟨⟨k,listed,mine⟩,may,_⟩ := mem_victims.mp victim
  refine ⟨places.nextSeq,fun _ => by rw [preempt_jobs],fun _ => by rw [preempt_jobs],
    fun _ => by rw [preempt_jobs],places.queue ▸ List.Subset.refl _,?_,?_⟩
  · rintro j (queued | ⟨i,fresh,same⟩)
    · exact .inl (places.queue ▸ queued)
    · exact .inr ⟨i,places.phase i ▸ fresh,places.job i ▸ same⟩
  · intro j marked
    rw [preempt_preempting] at marked
    rcases Finset.mem_insert.mp marked with rfl | before
    · exact .inr ⟨mine ▸ known.jobs k listed,may⟩
    · exact .inl before

theorem awake_idles (s : State) : Idles s (awake s) := by
  apply Idles.of_tasks (awake_nextSeq s) (awake_jobs s) (by simp) (awake_preempting s)
  intro k fresh
  simpa using fresh

theorem dispatchLoop_idles (now : ℚ) (rounds : Nat) (known : Known s) :
    Idles s (dispatchLoop cfg now rounds s) := by
  have both : Known (dispatchLoop cfg now rounds s) ∧ Idles s (dispatchLoop cfg now rounds s) := by
    refine @dispatchLoop_keeps cfg (fun t => Known t ∧ Idles s t) now ?_ ?_ rounds s
      ⟨known,.refl s⟩
    · rintro u j ⟨known,idles⟩ queued _
      exact ⟨take_known known queued,idles.trans (take_idles queued)⟩
    · rintro u v ⟨known,idles⟩ victim _
      exact ⟨(SamePlaces.preempt u v).known known,idles.trans (preempt_idles known victim)⟩
  exact both.2

theorem worker_idles {now : ℚ} (known : Known s) (woken : worker cfg now s = some t) :
    Idles s t := by
  obtain ⟨_,_,rfl⟩ := worker_cases woken
  have dispatched : Idles s (dispatch cfg now (awake s)) :=
    (awake_idles s).trans (dispatchLoop_idles now _ (awake_known known))
  exact dispatched.trans (.of_tasks rfl rfl (List.Subset.refl _) rfl fun _ fresh => ⟨fresh,rfl⟩)

theorem cancelTurn_idles (s : State) (turn : Int) : Idles s (cancelTurn s turn).1 := by
  have emptied : Idles s { s with
      queue := s.queue.filter (fun j => !decide ((s.jobs j).turnId = some turn))
      jobs := fun j => if j ∈ s.queue.filter (fun j => decide ((s.jobs j).turnId = some turn))
        then { s.jobs j with future := (s.jobs j).future.settle .cancelled } else s.jobs j } := by
    refine ⟨rfl,fun j => ?_,fun j => ?_,fun j => ?_,
      fun _ mem => (List.mem_filter.mp mem).1,?_,fun _ marked => .inl marked⟩
    · dsimp only; split <;> rfl
    · dsimp only; split <;> rfl
    · dsimp only; split <;> rfl
    · rintro j (queued | fresh)
      · exact .inl (List.mem_filter.mp queued).1
      · exact .inr fresh
  have moved := emptied.trans (.cancelRunning _ fun j => decide ((s.jobs j).turnId = some turn))
  exact moved

theorem cancelSubmit_idles (s : State) (j : Nat) : Idles s (cancelSubmit s j) := by
  simp only [cancelSubmit]
  split <;> exact .setJob rfl rfl rfl

theorem submitResumes_idles (s : State) (j : Nat) : Idles s (submitResumes s j) := by
  have resumed : Idles s (s.setJob j { s.jobs j with awaiting := false }) := .setJob rfl rfl rfl
  simp only [submitResumes]
  split
  · have shorter : Idles (s.setJob j { s.jobs j with awaiting := false })
        { s.setJob j { s.jobs j with awaiting := false } with queue := s.queue.erase j } :=
      .of_tasks rfl rfl List.erase_subset rfl fun _ fresh => ⟨fresh,rfl⟩
    exact (resumed.trans shorter).trans (.cancelRunning _ _)
  · exact resumed

/-- Only a submission, and the steps of a job task, do more. -/
theorem step_idles (known : Known s) {op : Op} (taken : step cfg s op = some t) :
    (∃ prio isPure turnId now, t = submit s prio isPure turnId now) ∨
    (∃ k outcome now, op = .taskStep k outcome now) ∨ Idles s t := by
  cases op with
  | submit prio isPure turnId now => cases taken; exact .inl ⟨_,_,_,_,rfl⟩
  | worker now => exact .inr (.inr (worker_idles known taken))
  | taskStep k outcome now => exact .inr (.inl ⟨k,outcome,now,rfl⟩)
  | cancelTurn turn => cases taken; exact .inr (.inr (cancelTurn_idles s turn))
  | cancelSubmit j =>
    obtain ⟨_,_,rfl⟩ := cancelSubmit_cases taken
    exact .inr (.inr (cancelSubmit_idles s j))
  | submitResumes j =>
    obtain ⟨_,_,_,rfl⟩ := submitResumes_cases taken
    exact .inr (.inr (submitResumes_idles s j))

/-! ## What a call costs -/

/-- Each call beyond the first is paid for by a preemption, and only preemptible jobs are
preempted. -/
structure Paid (s : State) : Prop extends Single s where
  calls : ∀ j < s.nextSeq, (s.jobs j).starts ≤ (s.jobs j).preemptCount + 1
  marks : ∀ j ∈ s.preempting, j < s.nextSeq ∧ (s.jobs j).preemptible = true
  counted : ∀ j < s.nextSeq, (s.jobs j).preemptible = false → (s.jobs j).preemptCount = 0

/-- While a call is due it has not been used up. -/
structure Budget (s : State) : Prop extends Paid s where
  due : ∀ j < s.nextSeq, Due s j → (s.jobs j).starts ≤ (s.jobs j).preemptCount

theorem init_budget : Budget init where
  toSingle := init_placement.toSingle
  calls := by simp [init]
  marks := by simp [init]
  counted := by simp [init]
  due := by simp [init]

theorem Paid.idles (inv : Paid s) (single : Single t) (moves : Idles s t) : Paid t where
  toSingle := single
  calls j issued := by
    rw [moves.starts,moves.preemptCount]
    exact inv.calls j (moves.issued ▸ issued)
  marks j marked := by
    rw [moves.issued,Job.preemptible_of_kind (moves.kind j)]
    rcases moves.marks j marked with before | now
    · exact inv.marks j before
    · exact now
  counted j issued effectful := by
    rw [moves.preemptCount]
    rw [Job.preemptible_of_kind (moves.kind j)] at effectful
    exact inv.counted j (moves.issued ▸ issued) effectful

theorem Budget.idles (inv : Budget s) (single : Single t) (moves : Idles s t) : Budget t where
  toPaid := inv.toPaid.idles single moves
  due j issued due := by
    rw [moves.starts,moves.preemptCount]
    exact inv.due j (moves.issued ▸ issued) (moves.due j due)

theorem submit_budget (inv : Budget s) (prio : Int) (isPure : Bool) (turnId : Option Int)
    (now : ℚ) : Budget (submit s prio isPure turnId now) := by
  have old (j : Nat) (other : j ≠ s.nextSeq) :
      (submit s prio isPure turnId now).jobs j = s.jobs j := by simp [submit,other]
  have new : (submit s prio isPure turnId now).jobs s.nextSeq =
      { prio := prio, pure := isPure, turnId := turnId, enqueuedAt := now } := by simp [submit]
  have before (j : Nat) (issued : j < s.nextSeq + 1) (other : j ≠ s.nextSeq) : j < s.nextSeq := by
    omega
  refine ⟨⟨submit_single inv.toSingle prio isPure turnId now,?_,?_,?_⟩,?_⟩
  · intro j issued
    by_cases mine : j = s.nextSeq
    · subst mine; rw [new]; simp
    · rw [old j mine]; exact inv.calls j (before j issued mine)
  · intro j marked
    obtain ⟨issued,may⟩ := inv.marks j marked
    rw [old j (by omega)]
    exact ⟨Nat.lt_succ_of_lt issued,may⟩
  · intro j issued effectful
    by_cases mine : j = s.nextSeq
    · subst mine; rw [new]
    · rw [old j mine] at effectful ⊢
      exact inv.counted j (before j issued mine) effectful
  · intro j issued due
    by_cases mine : j = s.nextSeq
    · subst mine; rw [new]
    · rw [old j mine]
      apply inv.due j (before j issued mine)
      rcases due with queued | fresh
      · exact .inl ((List.mem_append.mp queued).resolve_right (by simpa using mine))
      · exact .inr fresh

/-- A job with an unfinished task is not queued. -/
theorem Single.unqueued (inv : Single s) {k : Nat} (alive : (s.tasks k).live = true) :
    (s.tasks k).job ∉ s.queue := by
  intro queued
  have once := inv.atMostOnce (s.tasks k).job
  have listed := List.count_pos_iff.mpr queued
  have freed := endUnstarted_held inv.known alive (s.tasks k).job
  rw [if_pos rfl] at freed
  simp only [load] at once
  omega

/-- No job has two unfinished tasks. -/
theorem Single.unique (inv : Single s) {k i : Nat} (alive : (s.tasks k).live = true)
    (living : (s.tasks i).live = true) (same : (s.tasks i).job = (s.tasks k).job) : i = k := by
  by_contra other
  have once := inv.atMostOnce (s.tasks k).job
  have freed := endUnstarted_held inv.known alive (s.tasks k).job
  have second : 0 < held (endUnstarted s k) (s.tasks k).job := by
    apply List.countP_pos_iff.mpr
    refine ⟨i,inv.known.live i living,holds_iff.mpr ?_⟩
    simp only [endUnstarted,State.setTask,Function.update_of_ne other]
    exact ⟨living,same⟩
  rw [if_pos rfl] at freed
  simp only [load] at once
  omega

/-! ## The steps of a job task -/

/-- A task that has started, or ended, is no longer why its job would be called. -/
theorem Paid.leaves_due {k j : Nat} {phase : Phase} (inv : Paid s)
    (alive : (s.tasks k).live = true) (started : phase ≠ .unstarted)
    (due : Due (s.setTask k { s.tasks k with phase := phase, cancelRequested := false }) j) :
    Due s j ∧ j ≠ (s.tasks k).job := by
  have before := (Idles.finish s k false started).due j due
  refine ⟨before,?_⟩
  rintro rfl
  rcases due with queued | ⟨i,fresh,same⟩
  · exact inv.unqueued alive queued
  · by_cases mine : i = k
    · subst i; simp [State.setTask,started] at fresh
    · simp only [State.setTask,Function.update_of_ne mine] at fresh same
      exact mine (inv.unique alive (by simp [Task.live,fresh]) same)

/-- The job of a preempted task is back in the queue. -/
def putBack (s : State) (k : Nat) (now : ℚ) : State :=
  { (endUnstarted s k).setJob (s.tasks k).job { s.jobOf k with
      preemptCount := (s.jobOf k).preemptCount + 1, enqueuedAt := now } with
    preempting := s.preempting.erase (s.tasks k).job
    queue := s.queue ++ [(s.tasks k).job]
    wake := true }

theorem putBack_own (s : State) (k : Nat) (now : ℚ) :
    (putBack s k now).jobs (s.tasks k).job =
      { s.jobOf k with preemptCount := (s.jobOf k).preemptCount + 1, enqueuedAt := now } := by
  simp [putBack,State.setJob]

theorem putBack_other {k j : Nat} (theirs : j ≠ (s.tasks k).job) (now : ℚ) :
    (putBack s k now).jobs j = s.jobs j := by
  simp [putBack,State.setJob,theirs,endUnstarted,State.setTask]

/-- The preemption pays for the next call. -/
theorem Paid.putBack {k : Nat} {now : ℚ} (inv : Paid s) (marked : (s.tasks k).job ∈ s.preempting)
    (single : Single (putBack s k now)) : Paid (putBack s k now) := by
  obtain ⟨issued,may⟩ := inv.marks _ marked
  have spent : (s.jobOf k).starts ≤ (s.jobOf k).preemptCount + 1 := inv.calls _ issued
  refine ⟨single,?_,?_,?_⟩
  · intro j known
    by_cases theirs : j = (s.tasks k).job
    · subst theirs
      simp only [putBack_own]
      omega
    · rw [putBack_other theirs]
      exact inv.calls j known
  · intro j still
    obtain ⟨known,preemptible⟩ := inv.marks j (Finset.mem_of_mem_erase still)
    refine ⟨known,?_⟩
    by_cases theirs : j = (s.tasks k).job
    · subst theirs
      rw [putBack_own]
      exact may
    · rw [putBack_other theirs]
      exact preemptible
  · intro j known effectful
    by_cases theirs : j = (s.tasks k).job
    · subst theirs
      rw [putBack_own] at effectful
      have never : (s.jobOf k).preemptible = false := effectful
      cases never.symm.trans may
    · rw [putBack_other theirs] at effectful ⊢
      exact inv.counted j known effectful

/-- However a step of the factory ends, it leaves a call due only where it has put the job
back, and that was paid for. -/
theorem afterFactory_budget {k : Nat} {outcome : Outcome} {now : ℚ} (inv : Paid s)
    (alive : (s.tasks k).live = true)
    (others : ∀ j < s.nextSeq, j ≠ (s.tasks k).job → Due s j →
      (s.jobs j).starts ≤ (s.jobs j).preemptCount) : Budget (afterFactory s k outcome now) := by
  have single := inv.toSingle.keep (afterFactory_keeps inv.known alive outcome now)
  have ended : Idles s (endUnstarted s k) := .finish s k false (by simp)
  rcases afterFactory_cases s k outcome now with ⟨_,eq⟩ | ⟨final,_,_,eq⟩ | ⟨_,marked,eq⟩
  · rw [eq] at single ⊢
    refine ⟨inv.idles single (.finish s k false (by simp)),?_⟩
    intro j issued due
    obtain ⟨before,other⟩ := inv.leaves_due alive (by simp) due
    exact others j issued other before
  · rw [eq] at single ⊢
    have moves : Idles s ((endUnstarted s k).settle (s.tasks k).job final) :=
      ended.trans (.setJob rfl rfl rfl)
    refine ⟨inv.idles single moves,?_⟩
    intro j issued due
    rw [moves.starts,moves.preemptCount]
    obtain ⟨before,other⟩ := inv.leaves_due alive (by simp) due
    exact others j issued other before
  · have back : afterFactory s k outcome now = putBack s k now := eq
    rw [back] at single ⊢
    refine ⟨inv.putBack marked single,?_⟩
    intro j known due
    by_cases theirs : j = (s.tasks k).job
    · subst theirs
      rw [putBack_own]
      exact inv.calls _ (inv.marks _ marked).1
    · rw [putBack_other theirs]
      apply others j known theirs
      rcases due with queued | fresh
      · exact .inl ((List.mem_append.mp queued).resolve_right (by simpa using theirs))
      · exact (inv.leaves_due alive (by simp) (.inr fresh)).1

theorem taskStep_budget {k : Nat} {outcome : Outcome} {now : ℚ} (inv : Budget s)
    (taken : taskStep s k outcome now = some t) : Budget t := by
  rcases taskStep_cases taken with ⟨phase,_,_,rfl⟩ | ⟨phase,_,rfl⟩ | ⟨phase,rfl⟩
  · have alive : (s.tasks k).live = true := by simp [Task.live,phase]
    exact inv.idles (inv.toSingle.keep (endUnstarted_rearranges inv.known alive))
      (.finish s k false (by simp))
  · have alive : (s.tasks k).live = true := by simp [Task.live,phase]
    have other {j : Nat} (theirs : j ≠ (s.tasks k).job) : (invoke s k).jobs j = s.jobs j := by
      simp [invoke,State.setJob,theirs]
    have mine : (invoke s k).jobs (s.tasks k).job =
        { s.jobOf k with starts := (s.jobOf k).starts + 1 } := by simp [invoke,State.setJob]
    have kind (j : Nat) : ((invoke s k).jobs j).kind = (s.jobs j).kind := by
      by_cases theirs : j = (s.tasks k).job
      · subst theirs; rw [mine]; rfl
      · rw [other theirs]
    have issued : (s.tasks k).job < s.nextSeq := inv.known.jobs k (inv.known.live k alive)
    -- the call that was due is used up here
    have paid : Paid (invoke s k) := by
      refine ⟨inv.toSingle.keep (invoke_keeps inv.known k),?_,?_,?_⟩
      · intro j known
        by_cases theirs : j = (s.tasks k).job
        · subst theirs
          have spent := inv.due _ issued (.inr ⟨k,phase,rfl⟩)
          rw [mine]
          exact Nat.succ_le_succ spent
        · rw [other theirs]; exact inv.calls j known
      · intro j marked
        rw [Job.preemptible_of_kind (kind j)]
        exact inv.marks j marked
      · intro j known effectful
        rw [Job.preemptible_of_kind (kind j)] at effectful
        have never := inv.counted j known effectful
        by_cases theirs : j = (s.tasks k).job
        · subst theirs; rw [mine]; exact never
        · rw [other theirs]; exact never
    apply afterFactory_budget paid alive
    intro j known theirs due
    rw [other theirs]
    exact inv.due j known due
  · have alive : (s.tasks k).live = true := by simp [Task.live,phase]
    exact afterFactory_budget inv.toPaid alive fun j issued _ due => inv.due j issued due

theorem step_budget {op : Op} (inv : Budget s) (taken : step cfg s op = some t) : Budget t := by
  rcases step_idles inv.known taken with ⟨_,_,_,_,rfl⟩ | ⟨k,outcome,now,rfl⟩ | moves
  · exact submit_budget inv ..
  · exact taskStep_budget inv taken
  · exact inv.idles (step_single inv.toSingle taken) moves

/-- A job that enters the queue in a step of its task was marked as preempted. -/
theorem taskStep_queue {k j : Nat} {outcome : Outcome} {now : ℚ}
    (taken : taskStep s k outcome now = some t) (queued : j ∈ t.queue) :
    j ∈ s.queue ∨ j = (s.tasks k).job ∧ Requeues s (.taskStep k outcome now) := by
  have after {u : State} (queue : u.queue = s.queue) (marks : u.preempting = s.preempting)
      (task : u.tasks k = s.tasks k)
      (heard : ¬((s.tasks k).phase = .unstarted ∧ (s.tasks k).cancelRequested = true))
      (queued : j ∈ (afterFactory u k outcome now).queue) :
      j ∈ s.queue ∨ j = (s.tasks k).job ∧ Requeues s (.taskStep k outcome now) := by
    rcases afterFactory_cases u k outcome now with ⟨_,eq⟩ | ⟨_,_,_,eq⟩ | ⟨cancelled,marked,eq⟩
    · rw [eq] at queued; exact .inl (queue ▸ queued)
    · rw [eq] at queued; exact .inl (queue ▸ queued)
    · rw [eq] at queued
      rw [marks,task] at marked
      rcases List.mem_append.mp queued with old | new
      · exact .inl (queue ▸ old)
      · exact .inr ⟨task ▸ List.mem_singleton.mp new,cancelled,marked,heard⟩
  rcases taskStep_cases taken with ⟨_,_,_,rfl⟩ | ⟨_,flag,rfl⟩ | ⟨phase,rfl⟩
  · exact .inl queued
  · exact after (u := invoke s k) rfl rfl rfl (by simp [flag]) queued
  · exact after (u := s) rfl rfl rfl (by simp [phase]) queued

/-- A job that may not be preempted never comes back to the queue. -/
theorem step_unqueued {op : Op} {j : Nat} (inv : Budget s) (issued : j < s.nextSeq)
    (effectful : (s.jobs j).preemptible = false) (absent : j ∉ s.queue)
    (taken : step cfg s op = some t) : j ∉ t.queue := by
  rcases step_idles inv.known taken with ⟨_,_,_,_,rfl⟩ | ⟨k,outcome,now,rfl⟩ | moves
  · intro queued
    rcases List.mem_append.mp queued with old | new
    · exact absent old
    · rw [List.mem_singleton.mp new] at issued
      omega
  · intro queued
    rcases taskStep_queue taken queued with old | ⟨rfl,_,marked,_⟩
    · exact absent old
    · rw [(inv.marks _ marked).2] at effectful
      cases effectful
  · exact fun queued => absent (moves.queue queued)

theorem step_kind {op : Op} (known : Known s) (taken : step cfg s op = some t) {j : Nat}
    (issued : j < s.nextSeq) : (t.jobs j).kind = (s.jobs j).kind := by
  rcases step_idles known taken with ⟨prio,isPure,turnId,now,rfl⟩ | ⟨k,outcome,now,rfl⟩ | moves
  · exact (submit_outside s prio isPure turnId now).kind j issued
  · exact (taskStep_outside taken).kind j issued
  · exact moves.kind j

/-! ## Futures that are done -/

/-- What a task that is about to call the factory finds: the submitter still waits, or it
has been cancelled and has not run since. -/
def Job.due (job : Job) : Prop :=
  job.future = .pending ∨ job.future = .cancelled ∧ job.awaiting = true

structure Heard (s : State) : Prop extends Single s where
  first : ∀ k, (s.tasks k).phase = .unstarted → (s.tasks k).cancelRequested = false →
    (s.jobOf k).due

theorem init_heard : Heard init where
  toSingle := init_placement.toSingle
  first := by intro k fresh; simp [init] at fresh

/-- Tasks that are cancelled need no excuse. -/
theorem Heard.of_tasks (single : Single t)
    (tasks : ∀ k, t.tasks k = s.tasks k ∨ t.tasks k = (s.tasks k).cancel)
    (jobs : ∀ k, (s.tasks k).phase = .unstarted → (s.tasks k).cancelRequested = false →
      (t.tasks k).cancelRequested = false → (t.jobs (s.tasks k).job).due) : Heard t where
  toSingle := single
  first := by
    intro k fresh unflagged
    rcases tasks k with eq | eq
    · have unflagged' := unflagged
      rw [eq] at fresh unflagged
      simpa only [State.jobOf,eq] using jobs k fresh unflagged unflagged'
    · rw [eq] at fresh unflagged
      rw [Task.cancel_flag _ (by simpa using fresh)] at unflagged
      cases unflagged

theorem take_heard {j : Nat} (inv : Heard s) (queued : j ∈ s.queue) : Heard (take s j) := by
  have single := inv.toSingle.keep (take_keeps inv.known queued)
  by_cases pending : (s.jobs j).future = .pending
  · rw [take_pending pending] at single ⊢
    refine ⟨single,fun k fresh unflagged => ?_⟩
    by_cases new : k = s.nextTask
    · subst new
      simp only [State.jobOf,Function.update_self]
      exact .inl pending
    · simp only [State.jobOf,Function.update_of_ne new] at fresh unflagged ⊢
      exact inv.first k fresh unflagged
  · rw [take_done (by simpa using pending)] at single ⊢
    exact ⟨single,inv.first⟩

theorem worker_heard {now : ℚ} (inv : Heard s) (woken : worker cfg now s = some t) : Heard t := by
  have single := inv.toSingle.keep (worker_keeps inv.known woken)
  obtain ⟨_,_,rfl⟩ := worker_cases woken
  have start : Heard (awake s) := by
    refine ⟨⟨awake_known inv.known,fun j => (awake_load s j).trans_le (inv.atMostOnce j)⟩,?_⟩
    simpa [State.jobOf] using inv.first
  have dispatched : Heard (dispatch cfg now (awake s)) := by
    apply dispatchLoop_keeps now ?_ ?_ _ _ start
    · exact fun _ _ inv queued _ => take_heard inv queued
    · intro u v inv _ _
      refine .of_tasks (inv.toSingle.keep (preempt_keeps inv.known v)) (preempt_tasks u v) ?_
      intro k fresh unflagged _
      rw [preempt_jobs]
      exact inv.first k fresh unflagged
  exact ⟨single,dispatched.first⟩

theorem cancelTurn_heard (inv : Heard s) (turn : Int) : Heard (cancelTurn s turn).1 := by
  refine .of_tasks (inv.toSingle.keep (cancelTurn_keeps inv.known turn))
    (cancelTurn_tasks s turn) ?_
  intro k fresh unflagged _
  have absent := inv.unqueued (k := k) (by simp [Task.live,fresh])
  simp only [cancelTurn,State.cancelRunning]
  rw [if_neg (fun mem => absent (List.mem_filter.mp mem).1)]
  exact inv.first k fresh unflagged

theorem cancelSubmit_heard {j : Nat} (inv : Heard s) (awaiting : (s.jobs j).awaiting = true) :
    Heard (cancelSubmit s j) := by
  have single := inv.toSingle.keep (cancelSubmit_keeps inv.known j)
  refine .of_tasks (s := s) single (fun k => ?_) ?_
  · simp only [cancelSubmit]; split <;> exact .inl rfl
  · intro k fresh unflagged _
    have before := inv.first k fresh unflagged
    simp only [State.jobOf] at before
    simp only [cancelSubmit]
    by_cases mine : (s.tasks k).job = j
    · rw [mine] at before ⊢
      split
      · simpa [Job.due,State.setJob] using before
      · next pending =>
        have pending : (s.jobs j).future = .pending := by simpa using pending
        right
        simp [State.settle,State.setJob,FutureState.settle,FutureState.done,pending,awaiting]
    · split <;> simpa [State.settle,State.setJob,mine] using before

theorem submitResumes_heard {j : Nat} (inv : Heard s) (done : (s.jobs j).future.done = true) :
    Heard (submitResumes s j) := by
  have single := inv.toSingle.keep (submitResumes_keeps inv.known done)
  have tasks (k : Nat) : (submitResumes s j).tasks k = s.tasks k ∨
      (submitResumes s j).tasks k = (s.tasks k).cancel := by
    simp only [submitResumes]
    split
    · exact cancelRunning_tasks _ _ k
    · exact .inl rfl
  refine .of_tasks single tasks ?_
  intro k fresh unflagged still
  have before := inv.first k fresh unflagged
  have listed := inv.known.live k (by simp [Task.live,fresh])
  by_cases mine : (s.tasks k).job = j
  · -- a submitter that was cancelled cancels the task too
    exfalso
    simp only [State.jobOf,mine] at before
    have cancelled := (before.resolve_left (by simpa using done)).1
    simp only [submitResumes,cancelled,true_or,if_true,remove,State.cancelRunning,State.setJob] at still
    rw [if_pos ⟨listed,by simpa using mine⟩,Task.cancel_flag _ fresh] at still
    cases still
  · have same : (submitResumes s j).jobs (s.tasks k).job = s.jobs (s.tasks k).job := by
      simp only [submitResumes]
      split <;> simp [remove,State.cancelRunning,State.setJob,mine]
    rw [same]
    exact before

/-- A step of a job task touches that task and its job only. -/
theorem taskStep_frame {k : Nat} {outcome : Outcome} {now : ℚ}
    (taken : taskStep s k outcome now = some t) :
    (s.tasks k).live = true ∧ (t.tasks k).phase ≠ .unstarted ∧
      (∀ i, i ≠ k → t.tasks i = s.tasks i) ∧
      ∀ j, j ≠ (s.tasks k).job → t.jobs j = s.jobs j := by
  have after (u : State) : ((afterFactory u k outcome now).tasks k).phase ≠ .unstarted ∧
      (∀ i, i ≠ k → (afterFactory u k outcome now).tasks i = u.tasks i) ∧
      ∀ j, j ≠ (u.tasks k).job → (afterFactory u k outcome now).jobs j = u.jobs j := by
    rcases afterFactory_cases u k outcome now with ⟨_,eq⟩ | ⟨_,_,_,eq⟩ | ⟨_,_,eq⟩ <;> rw [eq]
    all_goals
      refine ⟨by simp [endUnstarted,State.setTask,State.settle,State.setJob],?_,?_⟩
      · intro i other
        simp [endUnstarted,State.setTask,State.settle,State.setJob,other]
      · intro j other
        simp [endUnstarted,State.setTask,State.settle,State.setJob,other]
  rcases taskStep_cases taken with ⟨phase,_,_,rfl⟩ | ⟨phase,_,rfl⟩ | ⟨phase,rfl⟩
  · refine ⟨by simp [Task.live,phase],by simp [endUnstarted,State.setTask],?_,fun _ _ => rfl⟩
    intro i other
    simp [endUnstarted,State.setTask,other]
  · obtain ⟨ended,tasks,jobs⟩ := after (invoke s k)
    refine ⟨by simp [Task.live,phase],ended,tasks,?_⟩
    intro j other
    rw [jobs j other]
    simp [invoke,State.setJob,other]
  · obtain ⟨ended,tasks,jobs⟩ := after s
    exact ⟨by simp [Task.live,phase],ended,tasks,jobs⟩

theorem taskStep_heard {k : Nat} {outcome : Outcome} {now : ℚ} (inv : Heard s) (single : Single t)
    (taken : taskStep s k outcome now = some t) : Heard t := by
  obtain ⟨alive,started,tasks,jobs⟩ := taskStep_frame taken
  refine ⟨single,fun i fresh unflagged => ?_⟩
  have other : i ≠ k := by rintro rfl; exact started fresh
  rw [tasks i other] at fresh unflagged
  have theirs : (s.tasks i).job ≠ (s.tasks k).job := fun same =>
    other (inv.unique alive (by simp [Task.live,fresh]) same)
  simp only [State.jobOf,tasks i other,jobs _ theirs]
  exact inv.first i fresh unflagged

theorem step_heard {op : Op} (inv : Heard s) (taken : step cfg s op = some t) : Heard t := by
  have single := step_single inv.toSingle taken
  cases op with
  | submit prio isPure turnId now =>
    cases taken
    refine ⟨single,fun k fresh unflagged => ?_⟩
    have before : (s.tasks k).phase = .unstarted := fresh
    have issued := inv.known.jobs k (inv.known.live k (by simp [Task.live,before]))
    have old : (submit s prio isPure turnId now).jobOf k = s.jobOf k := by
      simp [State.jobOf,submit,issued.ne]
    rw [old]
    exact inv.first k fresh unflagged
  | worker now => exact worker_heard inv taken
  | taskStep k outcome now => exact taskStep_heard inv single taken
  | cancelTurn turn => cases taken; exact cancelTurn_heard inv turn
  | cancelSubmit j =>
    obtain ⟨_,awaiting,rfl⟩ := cancelSubmit_cases taken
    exact cancelSubmit_heard inv awaiting
  | submitResumes j =>
    obtain ⟨_,_,done,rfl⟩ := submitResumes_cases taken
    exact submitResumes_heard inv done

/-! ## Whole runs -/

theorem afterFactory_starts (s : State) (k : Nat) (outcome : Outcome) (now : ℚ) (j : Nat) :
    ((afterFactory s k outcome now).jobs j).starts = (s.jobs j).starts := by
  by_cases mine : j = (s.tasks k).job
  all_goals
    rcases afterFactory_cases s k outcome now with ⟨_,eq⟩ | ⟨_,_,_,eq⟩ | ⟨_,_,eq⟩ <;> rw [eq]
    all_goals simp [State.settle,State.setJob,State.jobOf,mine,endUnstarted,State.setTask]

/-- A done future stays done, and the job is not called unless its task overtakes the
submitter. -/
theorem step_done {op : Op} {j : Nat} (inv : Heard s) (issued : j < s.nextSeq)
    (done : (s.jobs j).future ≠ .pending) (behind : ¬Overtakes s op)
    (taken : step cfg s op = some t) :
    (t.jobs j).future ≠ .pending ∧ (t.jobs j).starts = (s.jobs j).starts := by
  constructor
  · intro pending
    rcases step_rearranges inv.known taken with ⟨_,_,_,_,rfl⟩ | moves | ⟨_,_,_,_,_,_,rfl⟩
    · simp only [submit,Function.update_of_ne issued.ne] at pending
      exact done pending
    · exact done (moves.kept j pending).1
    · exact done pending
  · rcases step_idles inv.known taken with ⟨_,_,_,_,rfl⟩ | ⟨k,outcome,now,rfl⟩ | moves
    · simp only [submit,Function.update_of_ne issued.ne]
    · rcases taskStep_cases taken with ⟨_,_,_,rfl⟩ | ⟨phase,flag,rfl⟩ | ⟨_,rfl⟩
      · rfl
      · have theirs : j ≠ (s.tasks k).job := by
          rintro rfl
          exact behind ⟨phase,flag,(inv.first k phase flag).resolve_left done⟩
        rw [afterFactory_starts]
        simp [invoke,State.setJob,theirs]
      · exact afterFactory_starts s k outcome now j
    · exact moves.starts j

/-- A task that overtakes the submitter calls the factory of a job whose future is done. -/
theorem overtakes_calls {op : Op} (inv : Heard s) (overtakes : Overtakes s op)
    (taken : step cfg s op = some t) :
    ∃ j < s.nextSeq, (s.jobs j).future ≠ .pending ∧ (t.jobs j).starts = (s.jobs j).starts + 1 := by
  cases op with
  | taskStep k outcome now =>
    obtain ⟨phase,flag,cancelled,_⟩ := overtakes
    have alive : (s.tasks k).live = true := by simp [Task.live,phase]
    refine ⟨(s.tasks k).job,inv.known.jobs k (inv.known.live k alive),?_,?_⟩
    · rw [State.jobOf] at cancelled; simp [cancelled]
    · rcases taskStep_cases taken with ⟨_,other,_,_⟩ | ⟨_,_,rfl⟩ | ⟨other,_⟩
      · rw [flag] at other; cases other
      · rw [afterFactory_starts]
        simp [invoke,State.setJob,State.jobOf]
      · rw [phase] at other; cases other
  | submit | worker | cancelTurn | cancelSubmit | submitResumes => exact overtakes.elim

/-- An effectful or interactive job is called at most once and never queued again after it
was taken, no job is called more than once beyond its preemptions, and a job whose future
is done is not called again. -/
structure RunsOnce (cfg : Config) (ops : List Op) : Prop where
  once : ∀ t u, Machine.Passes (step cfg) init ops t u → ∀ j < t.nextSeq,
    (t.jobs j).pure = false ∨ (t.jobs j).prio < prioEmbeddings →
    (u.jobs j).starts ≤ 1 ∧ (j ∉ t.queue → j ∉ u.queue)
  budget : ∀ t u, Machine.Passes (step cfg) init ops t u → ∀ j < t.nextSeq,
    (u.jobs j).starts ≤ (u.jobs j).preemptCount + 1
  done : ∀ t u, Machine.Passes (step cfg) init ops t u → ∀ j < t.nextSeq,
    (t.jobs j).future ≠ .pending → (u.jobs j).starts = (t.jobs j).starts

theorem run_budget {ops : List Op} (start : Budget s)
    (reached : Machine.run (step cfg) s ops = some t) : Budget t :=
  Machine.run_invariant (fun _ _ _ inv taken => step_budget inv taken) start reached

theorem run_heard {ops : List Op} (start : Heard s)
    (reached : Machine.run (step cfg) s ops = some t) : Heard t :=
  Machine.run_invariant (fun _ _ _ inv taken => step_heard inv taken) start reached

theorem run_issued {ops : List Op} {j : Nat} (start : Budget s) (issued : j < s.nextSeq)
    (reached : Machine.run (step cfg) s ops = some t) :
    j < t.nextSeq ∧ (t.jobs j).kind = (s.jobs j).kind := by
  have keep : ∀ u op v, (Budget u ∧ j < u.nextSeq ∧ (u.jobs j).kind = (s.jobs j).kind) →
      step cfg u op = some v →
      Budget v ∧ j < v.nextSeq ∧ (v.jobs j).kind = (s.jobs j).kind := by
    rintro u op v ⟨inv,known,same⟩ taken
    refine ⟨step_budget inv taken,?_,(step_kind inv.known taken known).trans same⟩
    rcases step_rearranges inv.known taken with ⟨_,_,_,_,rfl⟩ | moves | ⟨_,_,_,_,_,_,rfl⟩
    · exact Nat.lt_succ_of_lt known
    · exact moves.issued ▸ known
    · exact known
  exact (Machine.run_invariant keep ⟨start,issued,rfl⟩ reached).2

theorem run_unqueued {ops : List Op} {j : Nat} (start : Budget s) (issued : j < s.nextSeq)
    (effectful : (s.jobs j).preemptible = false) (absent : j ∉ s.queue)
    (reached : Machine.run (step cfg) s ops = some t) : j ∉ t.queue := by
  induction ops generalizing s with
  | nil => cases reached; exact absent
  | cons op ops ih =>
    obtain ⟨u,taken,reached⟩ := Machine.run_cons_iff.mp reached
    have first : Machine.run (step cfg) s [op] = some u :=
      Machine.run_cons_iff.mpr ⟨u,taken,rfl⟩
    obtain ⟨later,same⟩ := run_issued start issued first
    exact ih (step_budget start taken) later ((Job.preemptible_of_kind same).trans effectful)
      (step_unqueued start issued effectful absent taken) reached

theorem run_done {ops : List Op} {j : Nat} (start : Heard s) (issued : j < s.nextSeq)
    (done : (s.jobs j).future ≠ .pending)
    (behind : Machine.Meets (step cfg) (fun s op => ¬Overtakes s op) s ops)
    (reached : Machine.run (step cfg) s ops = some t) :
    (t.jobs j).starts = (s.jobs j).starts := by
  have keep : ∀ u op v, (Heard u ∧ j < u.nextSeq ∧ (u.jobs j).future ≠ .pending ∧
      (u.jobs j).starts = (s.jobs j).starts) → ¬Overtakes u op → step cfg u op = some v →
      Heard v ∧ j < v.nextSeq ∧ (v.jobs j).future ≠ .pending ∧
        (v.jobs j).starts = (s.jobs j).starts := by
    rintro u op v ⟨inv,known,done,same⟩ behind taken
    obtain ⟨still,equal⟩ := step_done inv known done behind taken
    refine ⟨step_heard inv taken,?_,still,equal.trans same⟩
    rcases step_rearranges inv.known taken with ⟨_,_,_,_,rfl⟩ | moves | ⟨_,_,_,_,_,_,rfl⟩
    · exact Nat.lt_succ_of_lt known
    · exact moves.issued ▸ known
    · exact known
  exact (behind.invariant keep ⟨start,issued,done,rfl⟩ reached).2.2.2

theorem preemptible_eq_false_iff (job : Job) :
    job.preemptible = false ↔ job.pure = false ∨ job.prio < prioEmbeddings := by
  cases isPure : job.pure <;> simp [Job.preemptible,isPure]

/-- A run calls the factories as it should exactly when no task of it takes its first step
after its submitter was cancelled and before the submitter has run. -/
theorem runsOnce_iff (cfg : Config) (ops : List Op) (s : State)
    (reached : Machine.run (step cfg) init ops = some s) :
    RunsOnce cfg ops ↔ Machine.Meets (step cfg) (fun s op => ¬Overtakes s op) init ops := by
  constructor
  · intro all
    apply Machine.meets_of_steps reached
    intro first op rest t u split before taken overtakes
    have inv : Heard t := run_heard init_heard before
    obtain ⟨j,issued,done,called⟩ := overtakes_calls inv overtakes taken
    have passes : Machine.Passes (step cfg) init ops t u :=
      ⟨first,[op],rest,split,before,Machine.run_cons_iff.mpr ⟨u,taken,rfl⟩⟩
    have same := all.done t u passes j issued done
    omega
  · intro behind
    have budget {t u : State} (passes : Machine.Passes (step cfg) init ops t u) {j : Nat}
        (issued : j < t.nextSeq) : Budget t ∧ Budget u ∧ j < u.nextSeq ∧
        (u.jobs j).kind = (t.jobs j).kind := by
      obtain ⟨first,middle,last,_,before,later⟩ := passes
      have start : Budget t := run_budget init_budget before
      exact ⟨start,run_budget start later,run_issued start issued later⟩
    constructor
    · intro t u passes j issued effectful
      have effectful := (preemptible_eq_false_iff _).mpr effectful
      obtain ⟨start,inv,later,same⟩ := budget passes issued
      have never := inv.counted j later ((Job.preemptible_of_kind same).trans effectful)
      have calls := inv.calls j later
      rw [never] at calls
      refine ⟨calls,fun absent => ?_⟩
      obtain ⟨first,middle,last,_,_,middle⟩ := passes
      exact run_unqueued start issued effectful absent middle
    · intro t u passes j issued
      obtain ⟨_,inv,later,_⟩ := budget passes issued
      exact inv.calls j later
    · intro t u passes j issued done
      obtain ⟨first,middle,last,split,before,later⟩ := passes
      rw [split] at behind
      have rest := ((Machine.meets_append_iff before).mp behind).2
      have here := ((Machine.meets_append_iff later).mp rest).1
      exact run_done (run_heard init_heard before) issued done here later

/-- The submitter of a job that has just been dispatched is cancelled, and the task takes
its first step before the submitter does. -/
def cancelledThenCalled : List Op := [
  .submit prioChat true (some 1) 0,
  .worker 0,
  .cancelSubmit 0,
  .taskStep 0 .suspends 0]

/-- The factory is called although the future has been cancelled. -/
theorem cancelledThenCalled_calls : ¬RunsOnce standard cancelledThenCalled := by
  have eval : ∃ t, Machine.run (step standard) init (cancelledThenCalled.take 3) = some t ∧
      (0 < t.nextSeq ∧ (t.jobs 0).future = .cancelled ∧ (t.jobs 0).starts = 0 ∧
        (step standard t (.taskStep 0 .suspends 0)).map (fun u => (u.jobs 0).starts) = some 1) :=
    Machine.exists_of_eval (by decide +kernel)
  obtain ⟨t,before,issued,cancelled,uncalled,called⟩ := eval
  obtain ⟨u,taken,called⟩ := Option.map_eq_some_iff.mp called
  intro all
  have passes : Machine.Passes (step standard) init cancelledThenCalled t u :=
    ⟨cancelledThenCalled.take 3,[.taskStep 0 .suspends 0],[],rfl,before,
      Machine.run_cons_iff.mpr ⟨u,taken,rfl⟩⟩
  have same := all.done t u passes 0 issued (by simp [cancelled])
  omega

theorem startedThenPreempted_runsOnce : RunsOnce standard startedThenPreempted := by
  have completes : ∃ s, Machine.run (step standard) init startedThenPreempted = some s ∧ True :=
    Machine.exists_of_eval (by decide +kernel)
  obtain ⟨s,reached,_⟩ := completes
  exact (runsOnce_iff standard startedThenPreempted s reached).mpr (by decide +kernel)

end GhostRunner.Scheduler
