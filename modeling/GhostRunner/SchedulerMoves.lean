import GhostRunner.SchedulerSteps

/-! Where jobs can go in one step. Apart from a submission, a step never gives a job a
second place, and only a task that ends before its body takes a place away from a job
whose submitter still waits. -/
namespace GhostRunner.Scheduler

variable {cfg : Config} {s t : State}

/-- What an operation that issues no job may do to the places of jobs: no job gains a
place, and apart from `lost` jobs one that is still pending keeps the place it had. -/
structure Rearranges (lost : Nat → Prop) (s t : State) : Prop where
  known : Known t
  issued : t.nextSeq = s.nextSeq
  fewer : ∀ j, load t j ≤ load s j
  kept : ∀ j, (t.jobs j).future = .pending →
    (s.jobs j).future = .pending ∧ (¬lost j → load t j = load s j)

/-- No operation loses a job but the unheard end of a task. -/
abbrev Keeps : State → State → Prop := Rearranges (fun _ => False)

theorem Rearranges.refl (known : Known s) : Keeps s s :=
  ⟨known,rfl,fun _ => le_rfl,fun _ pending => ⟨pending,fun _ => rfl⟩⟩

theorem Rearranges.trans {lost : Nat → Prop} {u : State} (first : Rearranges lost s t)
    (second : Rearranges lost t u) : Rearranges lost s u where
  known := second.known
  issued := second.issued.trans first.issued
  fewer := fun j => (second.fewer j).trans (first.fewer j)
  kept := by
    intro j pending
    obtain ⟨middle,later⟩ := second.kept j pending
    obtain ⟨before,earlier⟩ := first.kept j middle
    exact ⟨before,fun found => (later found).trans (earlier found)⟩

theorem Rearranges.of_places (known : Known s) (same : SamePlaces s t)
    (kept : ∀ j, (t.jobs j).future = .pending → (s.jobs j).future = .pending) : Keeps s t :=
  ⟨same.known known,same.nextSeq,fun j => (same.load j).le,
    fun j pending => ⟨kept j pending,fun _ => same.load j⟩⟩

/-- Bookkeeping and the absence of duplicates, which no operation can spoil. -/
structure Single (s : State) : Prop where
  known : Known s
  atMostOnce : ∀ j, load s j ≤ 1

theorem Single.keep {lost : Nat → Prop} (inv : Single s) (moves : Rearranges lost s t) :
    Single t :=
  ⟨moves.known,fun j => (moves.fewer j).trans (inv.atMostOnce j)⟩

/-! ## Each operation -/

theorem submit_load (known : Known s) (prio : Int) (isPure : Bool) (turnId : Option Int)
    (now : ℚ) : load s s.nextSeq = 0 ∧ ∀ j, load (submit s prio isPure turnId now) j =
      load s j + if j = s.nextSeq then 1 else 0 := by
  constructor
  · have unqueued : s.nextSeq ∉ s.queue := fun mem => absurd (known.queue _ mem) (by omega)
    have unheld : held s s.nextSeq = 0 := by
      apply List.countP_eq_zero.mpr
      intro k listed holding
      have := known.jobs k listed
      rw [(holds_iff.mp holding).2] at this
      omega
    simp [load,unheld,List.count_eq_zero.mpr unqueued]
  · intro j
    have count : (s.queue ++ [s.nextSeq]).count j =
        s.queue.count j + if j = s.nextSeq then 1 else 0 := by
      simp only [List.count_append,List.count_singleton,beq_iff_eq,@eq_comm _ s.nextSeq j]
    change (s.queue ++ [s.nextSeq]).count j + held s j = _
    rw [count,load]
    omega

theorem submit_single (inv : Single s) (prio : Int) (isPure : Bool) (turnId : Option Int)
    (now : ℚ) : Single (submit s prio isPure turnId now) := by
  obtain ⟨fresh,loads⟩ := submit_load inv.known prio isPure turnId now
  refine ⟨⟨?_,inv.known.running,?_,inv.known.nodup,inv.known.live⟩,?_⟩
  · intro j mem
    simp only [submit,List.mem_append,List.mem_singleton] at mem ⊢
    rcases mem with old | rfl
    · have := inv.known.queue j old; omega
    · omega
  · intro k listed
    have := inv.known.jobs k listed
    simp only [submit]; omega
  · intro j
    rw [loads]
    split
    · next same => rw [same,fresh]
    · exact inv.atMostOnce j

theorem remove_keeps (known : Known s) {j : Nat} (done : (s.jobs j).future.done = true) :
    Keeps s (remove s j) := by
  have same : SamePlaces { s with queue := s.queue.erase j } (remove s j) :=
    SamePlaces.cancelRunning _ _
  refine ⟨same.known ?_,same.nextSeq,?_,?_⟩
  · exact ⟨fun i mem => known.queue i (List.mem_of_mem_erase mem),known.running,
      known.jobs,known.nodup,known.live⟩
  · intro i
    rw [same.load]
    exact Nat.add_le_add_right ((List.erase_sublist).count_le i) _
  · intro i pending
    refine ⟨pending,fun _ => ?_⟩
    have other : i ≠ j := by
      rintro rfl
      simp [show (s.jobs i).future = .pending from pending] at done
    rw [same.load]
    simp only [load,List.count_erase_of_ne other]
    rfl

theorem settle_pending {j i : Nat} {outcome : FutureState}
    (pending : ((s.settle j outcome).jobs i).future = .pending) :
    (s.jobs i).future = .pending ∧ (outcome ≠ .pending → i ≠ j) := by
  by_cases same : i = j
  · subst same
    simp only [State.settle,State.setJob,Function.update_self] at pending
    cases before : (s.jobs i).future <;>
      simp_all [FutureState.settle,FutureState.done]
  · simp only [State.settle,State.setJob,Function.update_of_ne same] at pending
    exact ⟨pending,fun _ => same⟩

theorem cancelSubmit_keeps (known : Known s) (j : Nat) : Keeps s (cancelSubmit s j) := by
  simp only [cancelSubmit]
  split
  · refine Rearranges.of_places known (SamePlaces.setJob _ _ _) ?_
    intro i pending
    by_cases same : i = j
    · subst same; simpa [State.setJob] using pending
    · simpa [State.setJob,Function.update_of_ne same] using pending
  · exact Rearranges.of_places known (SamePlaces.setJob _ _ _)
      (fun _ pending => (settle_pending pending).1)

theorem submitResumes_keeps (known : Known s) {j : Nat}
    (done : (s.jobs j).future.done = true) : Keeps s (submitResumes s j) := by
  have resumed : Keeps s (s.setJob j { s.jobs j with awaiting := false }) := by
    refine Rearranges.of_places known (SamePlaces.setJob _ _ _) ?_
    intro i pending
    by_cases same : i = j
    · subst same; simpa [State.setJob] using pending
    · simpa [State.setJob,Function.update_of_ne same] using pending
  unfold submitResumes
  dsimp only
  split
  · exact resumed.trans (remove_keeps resumed.known (by simpa [State.setJob] using done))
  · exact resumed

theorem cancelTurn_keeps (known : Known s) (turn : Int) :
    Keeps s (cancelTurn s turn).1 := by
  have same := SamePlaces.cancelRunning
    { s with
      queue := s.queue.filter (fun j => !decide ((s.jobs j).turnId = some turn))
      jobs := fun j => if j ∈ s.queue.filter (fun j => decide ((s.jobs j).turnId = some turn))
        then { s.jobs j with future := (s.jobs j).future.settle .cancelled } else s.jobs j }
    (fun j => decide ((s.jobs j).turnId = some turn))
  refine ⟨same.known ?_,same.nextSeq,?_,?_⟩
  · exact ⟨fun i mem => known.queue i (List.mem_filter.mp mem).1,known.running,
      known.jobs,known.nodup,known.live⟩
  · intro i
    refine (same.load i).le.trans ?_
    exact Nat.add_le_add_right ((List.filter_sublist).count_le i) _
  · intro i pending
    -- a job of the turn that was queued is cancelled, so a pending one was not queued
    have unhit : i ∉ s.queue.filter (fun j => decide ((s.jobs j).turnId = some turn)) ∧
        (s.jobs i).future = .pending := by
      change (if i ∈ s.queue.filter (fun j => decide ((s.jobs j).turnId = some turn))
        then { s.jobs i with future := (s.jobs i).future.settle .cancelled }
        else s.jobs i).future = .pending at pending
      split at pending
      · simp at pending
      · next outside => exact ⟨outside,pending⟩
    refine ⟨unhit.2,fun _ => (same.load i).trans ?_⟩
    have count : (s.queue.filter (fun j => !decide ((s.jobs j).turnId = some turn))).count i =
        s.queue.count i := by
      by_cases mine : (s.jobs i).turnId = some turn
      · have absent : i ∉ s.queue := fun mem =>
          unhit.1 (List.mem_filter.mpr ⟨mem,by simpa using mine⟩)
        rw [List.count_eq_zero.mpr absent]
        exact List.count_eq_zero.mpr (fun mem => absent (List.mem_filter.mp mem).1)
      · exact List.count_filter (by simpa using mine)
    exact congrArg (· + held s i) count

theorem take_keeps (known : Known s) {j : Nat} (queued : j ∈ s.queue) :
    Keeps s (take s j) := by
  refine ⟨take_known known queued,take_nextSeq s j,?_,?_⟩
  · intro i
    by_cases pending : (s.jobs j).future = .pending
    · exact (take_load_pending known queued pending i).le
    · exact (take_load_done (by simpa using pending) i).1
  · intro i still
    rw [take_jobs] at still
    refine ⟨still,fun _ => ?_⟩
    by_cases pending : (s.jobs j).future = .pending
    · exact take_load_pending known queued pending i
    · exact (take_load_done (by simpa using pending) i).2 (fun same => pending (same ▸ still))

theorem preempt_jobs (s : State) (v : Nat) : (preempt s v).jobs = s.jobs := by
  unfold preempt; dsimp only; split <;> rfl

@[simp] theorem preempt_preempting (s : State) (v : Nat) :
    (preempt s v).preempting = insert v s.preempting := by
  unfold preempt; dsimp only; split <;> rfl

theorem preempt_keeps (known : Known s) (v : Nat) : Keeps s (preempt s v) :=
  Rearranges.of_places known (SamePlaces.preempt s v)
    (fun j pending => by rwa [preempt_jobs] at pending)

theorem awake_keeps (known : Known s) : Keeps s (awake s) :=
  ⟨awake_known known,awake_nextSeq s,fun j => (awake_load s j).le,
    fun j pending => ⟨by simpa using pending,fun _ => awake_load s j⟩⟩

theorem dispatchLoop_moves (now : ℚ) (rounds : Nat) (known : Known s) :
    Keeps s (dispatchLoop cfg now rounds s) :=
  dispatchLoop_keeps now
    (fun _ _ moved queued _ => moved.trans (take_keeps moved.known queued))
    (fun _ v moved _ _ => moved.trans (preempt_keeps moved.known v)) rounds s (.refl known)

theorem worker_keeps (known : Known s) {now : ℚ} (woken : worker cfg now s = some t) :
    Keeps s t := by
  obtain ⟨_,_,rfl⟩ := worker_cases woken
  have start := awake_keeps known
  have dispatched : Keeps s (dispatch cfg now (awake s)) :=
    start.trans (dispatchLoop_moves now _ start.known)
  exact dispatched.trans
    (Rearranges.of_places dispatched.known (by constructor <;> simp) (fun _ pending => pending))

/-! ## The steps of a job task -/

theorem endUnstarted_known (known : Known s) {k : Nat} (alive : (s.tasks k).live = true) :
    Known (endUnstarted s k) := setTask_known known alive _ rfl

theorem endUnstarted_held (known : Known s) {k : Nat} (alive : (s.tasks k).live = true) (j : Nat) :
    held s j = held (endUnstarted s k) j + if (s.tasks k).job = j then 1 else 0 :=
  finish_held known alive _ (by simp) j

/-- A task that ends with its job settled frees the job's place. -/
theorem settled_keeps (known : Known s) {k : Nat} (alive : (s.tasks k).live = true)
    {final : FutureState} (finished : final ≠ .pending) :
    Keeps s ((endUnstarted s k).settle (s.tasks k).job final) := by
  have same : SamePlaces (endUnstarted s k) ((endUnstarted s k).settle (s.tasks k).job final) :=
    SamePlaces.setJob _ _ _
  have freed := endUnstarted_held known alive
  refine ⟨same.known (endUnstarted_known known alive),rfl,?_,?_⟩
  · intro j
    rw [same.load]
    have := freed j
    simp only [load]
    change s.queue.count j + _ ≤ _
    omega
  · intro j pending
    obtain ⟨before,other⟩ := settle_pending pending
    refine ⟨before,fun _ => ?_⟩
    have kept := freed j
    rw [if_neg (fun eq => other finished eq.symm)] at kept
    rw [same.load]
    simp only [load]
    change s.queue.count j + _ = _
    omega

/-- A preempted task gives its place back to the queue. -/
theorem requeued_keeps (known : Known s) {k : Nat} (alive : (s.tasks k).live = true)
    (job : Job) (sameFuture : job.future = (s.jobOf k).future) (marks : Finset Nat) (flag : Bool) :
    Keeps s
      { (endUnstarted s k).setJob (s.tasks k).job job with
        preempting := marks
        queue := s.queue ++ [(s.tasks k).job]
        wake := flag } := by
  have freed := endUnstarted_held known alive
  have after := endUnstarted_known known alive
  have moved (j : Nat) : (s.queue ++ [(s.tasks k).job]).count j + held (endUnstarted s k) j =
      load s j := by
    have := freed j
    simp only [load,List.count_append,List.count_singleton,beq_iff_eq]
    by_cases mine : (s.tasks k).job = j <;> simp only [mine,↓reduceIte] at this ⊢ <;> omega
  refine ⟨⟨?_,after.running,after.jobs,after.nodup,after.live⟩,rfl,fun j => (moved j).le,?_⟩
  · intro j mem
    rcases List.mem_append.mp mem with old | new
    · exact known.queue j old
    · rw [List.mem_singleton.mp new]
      exact known.jobs k (known.live k alive)
  · intro j pending
    refine ⟨?_,fun _ => moved j⟩
    by_cases mine : j = (s.tasks k).job
    · subst mine
      simpa [State.setJob,State.jobOf,sameFuture] using pending
    · simpa [State.setJob,endUnstarted,State.setTask,Function.update_of_ne mine] using pending

theorem afterFactory_keeps (known : Known s) {k : Nat} (alive : (s.tasks k).live = true)
    (outcome : Outcome) (now : ℚ) : Keeps s (afterFactory s k outcome now) := by
  rcases afterFactory_cases s k outcome now with ⟨_,eq⟩ | ⟨final,finished,_,eq⟩ | ⟨_,_,eq⟩ <;> rw [eq]
  · refine ⟨setTask_known known alive _ rfl,rfl,?_,?_⟩
    · exact fun j => Nat.add_le_add_left (suspend_places alive false j).le _
    · exact fun j pending => ⟨pending,fun _ => congrArg (s.queue.count j + ·)
        (suspend_places alive false j)⟩
  · exact settled_keeps known alive finished
  · exact requeued_keeps known alive _ (by rfl) _ _

theorem invoke_keeps (known : Known s) (k : Nat) : Keeps s (invoke s k) := by
  refine Rearranges.of_places known (SamePlaces.setJob _ _ _) ?_
  intro j pending
  by_cases mine : j = (s.tasks k).job
  · subst mine; simpa [invoke,State.setJob,State.jobOf] using pending
  · simpa [invoke,State.setJob,Function.update_of_ne mine] using pending

/-- A task that ends before its body takes its job's only place with it. -/
theorem endUnstarted_rearranges (known : Known s) {k : Nat} (alive : (s.tasks k).live = true) :
    Rearranges (fun j => (s.tasks k).job = j) s (endUnstarted s k) := by
  have freed := endUnstarted_held known alive
  refine ⟨endUnstarted_known known alive,rfl,?_,?_⟩
  · intro j
    have := freed j
    simp only [load]
    change s.queue.count j + _ ≤ _
    omega
  · intro j pending
    refine ⟨pending,fun other => ?_⟩
    have kept := freed j
    rw [if_neg other] at kept
    simp only [load]
    change s.queue.count j + _ = _
    omega

/-- Every step but a submission only rearranges, and only a task that ends before its
body can lose a job. -/
theorem step_rearranges (known : Known s) {op : Op} (taken : step cfg s op = some t) :
    (∃ prio isPure turnId now, t = submit s prio isPure turnId now) ∨ Keeps s t ∨
    ∃ k outcome now, op = .taskStep k outcome now ∧ (s.tasks k).phase = .unstarted ∧
      (s.tasks k).cancelRequested = true ∧ t = endUnstarted s k := by
  cases op with
  | submit prio isPure turnId now => cases taken; exact .inl ⟨_,_,_,_,rfl⟩
  | worker now => exact .inr (.inl (worker_keeps known taken))
  | taskStep k outcome now =>
    rcases taskStep_cases taken with ⟨phase,flag,_,eq⟩ | ⟨phase,_,rfl⟩ | ⟨phase,rfl⟩
    · exact .inr (.inr ⟨k,outcome,now,rfl,phase,flag,eq⟩)
    · have invoked := invoke_keeps known k
      exact .inr (.inl (invoked.trans
        (afterFactory_keeps invoked.known (by simp [Task.live,invoke,State.setJob,phase]) _ _)))
    · exact .inr (.inl (afterFactory_keeps known (by simp [Task.live,phase]) _ _))
  | cancelTurn turn => cases taken; exact .inr (.inl (cancelTurn_keeps known turn))
  | cancelSubmit j =>
    obtain ⟨_,_,rfl⟩ := cancelSubmit_cases taken
    exact .inr (.inl (cancelSubmit_keeps known j))
  | submitResumes j =>
    obtain ⟨_,_,done,rfl⟩ := submitResumes_cases taken
    exact .inr (.inl (submitResumes_keeps known done))

/-- No run lists a job twice, however it is cancelled. -/
theorem step_single (inv : Single s) {op : Op} (taken : step cfg s op = some t) : Single t := by
  rcases step_rearranges inv.known taken with ⟨_,_,_,_,rfl⟩ | moves | ⟨k,_,_,_,phase,_,rfl⟩
  · exact submit_single inv ..
  · exact inv.keep moves
  · exact inv.keep (endUnstarted_rearranges inv.known (by simp [Task.live,phase]))

end GhostRunner.Scheduler
