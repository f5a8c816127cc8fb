import GhostRunner.SchedulerPlacement

/-! Admission. Only the worker puts a task into `_running`, and the size of `_running` that
it compares with the slots counts unpopped and preempted tasks too. What the worker would
admit can only appear in a step that sets `_wake` or ends a task of `_running`. -/
namespace GhostRunner.Scheduler

variable {cfg : Config} {s t : State}

/-! ## Steps outside the worker -/

/-- What a job is given when it is submitted, and keeps. -/
def Job.kind (job : Job) : Int × Bool × Option Int := (job.prio, job.pure, job.turnId)

theorem Job.interactive_of_kind {a b : Job} (same : a.kind = b.kind) :
    a.interactive = b.interactive := by
  have prio : a.prio = b.prio := congrArg Prod.fst same
  simp only [Job.interactive,prio]

theorem Job.preemptible_of_kind {a b : Job} (same : a.kind = b.kind) :
    a.preemptible = b.preemptible := by
  have prio : a.prio = b.prio := congrArg Prod.fst same
  have isPure : a.pure = b.pure := congrArg (fun kind => kind.2.1) same
  simp only [Job.preemptible,prio,isPure]

/-- A step that leaves `_running` alone, and sets `_wake` when it may add to the queue. -/
structure Outside (s t : State) : Prop where
  running : t.running = s.running
  parked : t.parked = s.parked
  issued : s.nextSeq ≤ t.nextSeq
  job : ∀ k, (t.tasks k).job = (s.tasks k).job
  kind : ∀ j < s.nextSeq, (t.jobs j).kind = (s.jobs j).kind
  quiet : t.wake = true ∨
    (t.wake = s.wake ∧ t.preempting = s.preempting ∧ t.queue ⊆ s.queue)

theorem Outside.trans {u : State} (first : Outside s t) (second : Outside t u) : Outside s u where
  running := second.running.trans first.running
  parked := second.parked.trans first.parked
  issued := first.issued.trans second.issued
  job k := (second.job k).trans (first.job k)
  kind j issued := (second.kind j (issued.trans_le first.issued)).trans (first.kind j issued)
  quiet := by
    rcases second.quiet with rings | ⟨wake,preempting,queue⟩
    · exact .inl rings
    · rcases first.quiet with rings | ⟨wake',preempting',queue'⟩
      · exact .inl (wake.trans rings)
      · exact .inr ⟨wake.trans wake',preempting.trans preempting',
        fun _ mem => queue' (queue mem)⟩

theorem Outside.setJob {j : Nat} {job : Job} (same : job.kind = (s.jobs j).kind) :
    Outside s (s.setJob j job) := by
  refine ⟨rfl,rfl,le_rfl,fun _ => rfl,fun i _ => ?_,.inr ⟨rfl,rfl,List.Subset.refl _⟩⟩
  by_cases mine : i = j
  · subst i; simpa [State.setJob] using same
  · simp [State.setJob,mine]

theorem Outside.setTask {k : Nat} {task : Task} (same : task.job = (s.tasks k).job) :
    Outside s (s.setTask k task) := by
  refine ⟨rfl,rfl,le_rfl,fun i => ?_,fun _ _ => rfl,.inr ⟨rfl,rfl,List.Subset.refl _⟩⟩
  by_cases mine : i = k
  · subst i; simpa [State.setTask] using same
  · simp [State.setTask,mine]

theorem Outside.cancelRunning (s : State) (test : Nat → Bool) :
    Outside s (s.cancelRunning test) :=
  ⟨rfl,rfl,le_rfl,(SamePlaces.cancelRunning s test).job,fun _ _ => rfl,
    .inr ⟨rfl,rfl,List.Subset.refl _⟩⟩

theorem submit_outside (s : State) (prio : Int) (isPure : Bool) (turnId : Option Int) (now : ℚ) :
    Outside s (submit s prio isPure turnId now) := by
  refine ⟨rfl,rfl,Nat.le_succ _,fun _ => rfl,fun j issued => ?_,.inl rfl⟩
  have other : j ≠ s.nextSeq := by omega
  simp [submit,other]

theorem cancelTurn_outside (s : State) (turn : Int) : Outside s (cancelTurn s turn).1 := by
  have emptied : Outside s { s with
      queue := s.queue.filter (fun j => !decide ((s.jobs j).turnId = some turn))
      jobs := fun j => if j ∈ s.queue.filter (fun j => decide ((s.jobs j).turnId = some turn))
        then { s.jobs j with future := (s.jobs j).future.settle .cancelled } else s.jobs j } := by
    refine ⟨rfl,rfl,le_rfl,fun _ => rfl,fun j _ => ?_,
      .inr ⟨rfl,rfl,fun _ mem => (List.mem_filter.mp mem).1⟩⟩
    dsimp only
    split <;> rfl
  have moved := emptied.trans (.cancelRunning _ fun j => decide ((s.jobs j).turnId = some turn))
  exact moved

theorem cancelSubmit_outside (s : State) (j : Nat) : Outside s (cancelSubmit s j) := by
  simp only [cancelSubmit]
  split <;> exact .setJob rfl

theorem submitResumes_outside (s : State) (j : Nat) : Outside s (submitResumes s j) := by
  have resumed : Outside s (s.setJob j { s.jobs j with awaiting := false }) := .setJob rfl
  simp only [submitResumes]
  split
  · have shorter : Outside (s.setJob j { s.jobs j with awaiting := false })
        { s.setJob j { s.jobs j with awaiting := false } with
          queue := s.queue.erase j } :=
      ⟨rfl,rfl,le_rfl,fun _ => rfl,fun _ _ => rfl,.inr ⟨rfl,rfl,List.erase_subset⟩⟩
    exact (resumed.trans shorter).trans (.cancelRunning _ _)
  · exact resumed

theorem afterFactory_outside (s : State) (k : Nat) (outcome : Outcome) (now : ℚ) :
    Outside s (afterFactory s k outcome now) := by
  have ended : Outside s (endUnstarted s k) := .setTask rfl
  rcases afterFactory_cases s k outcome now with ⟨_,eq⟩ | ⟨final,_,_,eq⟩ | ⟨_,_,eq⟩ <;> rw [eq]
  · exact .setTask rfl
  · exact ended.trans (.setJob rfl)
  · have requeued : Outside (endUnstarted s k) ((endUnstarted s k).setJob (s.tasks k).job
        { s.jobOf k with
          preemptCount := (s.jobOf k).preemptCount + 1, enqueuedAt := now }) := .setJob rfl
    have moved := ended.trans requeued
    exact ⟨moved.running,moved.parked,moved.issued,moved.job,moved.kind,.inl rfl⟩

theorem taskStep_outside {k : Nat} {outcome : Outcome} {now : ℚ}
    (taken : taskStep s k outcome now = some t) : Outside s t := by
  rcases taskStep_cases taken with ⟨_,_,_,rfl⟩ | ⟨_,_,rfl⟩ | ⟨_,rfl⟩
  · exact .setTask rfl
  · have invoked : Outside s (invoke s k) := .setJob rfl
    exact invoked.trans (afterFactory_outside _ k outcome now)
  · exact afterFactory_outside s k outcome now

/-- Only the worker starts tasks and pops them. -/
theorem step_outside {op : Op} (taken : step cfg s op = some t) :
    (∃ now, op = .worker now) ∨ Outside s t := by
  cases op with
  | submit prio isPure turnId now => cases taken; exact .inr (submit_outside ..)
  | worker now => exact .inl ⟨now,rfl⟩
  | taskStep k outcome now => exact .inr (taskStep_outside taken)
  | cancelTurn turn => cases taken; exact .inr (cancelTurn_outside s turn)
  | cancelSubmit j =>
    obtain ⟨_,_,rfl⟩ := cancelSubmit_cases taken
    exact .inr (cancelSubmit_outside s j)
  | submitResumes j =>
    obtain ⟨_,_,_,rfl⟩ := submitResumes_cases taken
    exact .inr (submitResumes_outside s j)

/-! ## Slots and the reservation -/

/-- The unfinished tasks of `_execute`, in `_running` or not. -/
def unfinished (s : State) : List Nat :=
  (List.range s.nextTask).filter fun k => (s.tasks k).live

/-- The task runs a job whose nominal priority is not the chat's. -/
def background (s : State) (k : Nat) : Bool := decide (1 ≤ (s.jobOf k).prio)

/-- At most `slots` unfinished tasks, and at most `slots - reserved` of background jobs. -/
def WithinLimits (cfg : Config) (s : State) : Prop :=
  (unfinished s).length ≤ cfg.slots ∧
    ((unfinished s).filter (background s)).length ≤ cfg.slots - cfg.reserved

/-- The two bounds on `_running` itself, whose finished entries count as well. -/
structure Admitted (cfg : Config) (s : State) : Prop where
  single : Single s
  slots : s.running.length ≤ cfg.slots
  shared : s.running.countP (fun k => !(s.jobOf k).interactive) ≤ cfg.slots - cfg.reserved

theorem init_admitted (cfg : Config) : Admitted cfg init :=
  ⟨init_placement.toSingle,by simp [init],by simp [init]⟩

theorem Admitted.of_running (inv : Admitted cfg s) (single : Single t)
    (running : t.running.Sublist s.running)
    (same : ∀ k ∈ s.running, (t.jobOf k).interactive = (s.jobOf k).interactive) :
    Admitted cfg t where
  single := single
  slots := running.length_le.trans inv.slots
  shared := by
    have fewer : t.running.countP (fun k => !(t.jobOf k).interactive) ≤
        s.running.countP (fun k => !(t.jobOf k).interactive) := running.countP_le
    have equal : s.running.countP (fun k => !(t.jobOf k).interactive) =
        s.running.countP (fun k => !(s.jobOf k).interactive) :=
      List.countP_congr fun k listed => by rw [same k listed]
    exact fewer.trans (equal.trans_le inv.shared)

theorem Admitted.outside (inv : Admitted cfg s) (single : Single t) (moves : Outside s t) :
    Admitted cfg t := by
  apply inv.of_running single (moves.running ▸ List.Sublist.refl _)
  intro k listed
  apply Job.interactive_of_kind
  have issued := inv.single.known.jobs k listed
  simpa only [State.jobOf,moves.job k] using moves.kind _ issued

/-- A task is added only where its class has room. -/
theorem take_admitted {j : Nat} (inv : Admitted cfg s) (queued : j ∈ s.queue)
    (rule : ((s.jobs j).interactive = true ∧ 1 ≤ free cfg s) ∨
      ((s.jobs j).interactive = false ∧ (cfg.reserved : Int) < free cfg s)) :
    Admitted cfg (take s j) := by
  have single := inv.single.keep (take_keeps inv.single.known queued)
  by_cases pending : (s.jobs j).future = .pending
  · rw [take_pending pending] at single ⊢
    have older : s.running.countP (fun k => !(s.jobs
        ((Function.update s.tasks s.nextTask { job := j, phase := .unstarted }) k).job).interactive) =
        s.running.countP (fun k => !(s.jobOf k).interactive) := by
      apply List.countP_congr
      intro k listed
      rw [Function.update_of_ne (listed_old inv.single.known k listed)]
      rfl
    have most : s.running.countP (fun k => !(s.jobOf k).interactive) ≤ s.running.length :=
      List.countP_le_length
    have bound := inv.shared
    simp only [free] at rule
    simp only [State.jobOf] at older most bound
    refine ⟨single,?_,?_⟩
    · simp only [List.length_append,List.length_singleton]
      omega
    · simp only [State.jobOf,List.countP_append,older,List.countP_singleton,Function.update_self]
      rcases rule with ⟨chat,room⟩ | ⟨other,room⟩
      · simpa [chat] using bound
      · simp only [other,Bool.not_false,if_true]
        omega
  · have done : (s.jobs j).future.done = true := by simpa using pending
    rw [take_done done] at single ⊢
    exact inv.of_running single (List.Sublist.refl _) fun _ _ => rfl

theorem preempt_admitted (inv : Admitted cfg s) (v : Nat) : Admitted cfg (preempt s v) := by
  have single := inv.single.keep (preempt_keeps inv.single.known v)
  have places := SamePlaces.preempt s v
  apply inv.of_running single (places.running ▸ List.Sublist.refl _)
  intro k _
  simp only [State.jobOf,places.job,preempt_jobs]

theorem awake_admitted (inv : Admitted cfg s) (single : Single (awake s)) :
    Admitted cfg (awake s) := by
  apply inv.of_running single
  · simp only [awake]
    split
    · exact List.filter_sublist
    · exact List.Sublist.refl _
  · intro k _; simp [State.jobOf]

theorem worker_admitted {now : ℚ} (inv : Admitted cfg s)
    (woken : worker cfg now s = some t) : Admitted cfg t := by
  obtain ⟨_,_,rfl⟩ := worker_cases woken
  have single : Single (awake s) :=
    ⟨awake_known inv.single.known,fun j => (awake_load s j).trans_le (inv.single.atMostOnce j)⟩
  have dispatched : Admitted cfg (dispatch cfg now (awake s)) :=
    dispatchLoop_keeps now (fun _ _ inv queued rule => take_admitted inv queued rule)
      (fun _ v inv _ _ => preempt_admitted inv v) _ _ (awake_admitted inv single)
  exact ⟨⟨⟨dispatched.single.known.queue,dispatched.single.known.running,
    dispatched.single.known.jobs,dispatched.single.known.nodup,dispatched.single.known.live⟩,
    dispatched.single.atMostOnce⟩,dispatched.slots,dispatched.shared⟩

theorem step_admitted {op : Op} (inv : Admitted cfg s) (taken : step cfg s op = some t) :
    Admitted cfg t := by
  rcases step_outside taken with ⟨now,rfl⟩ | moves
  · exact worker_admitted inv taken
  · exact inv.outside (step_single inv.single taken) moves

/-- Every unfinished task is listed in `_running`, so the bounds there are enough. -/
theorem Admitted.within (inv : Admitted cfg s) : WithinLimits cfg s := by
  have listed : unfinished s ⊆ s.running := by
    intro k mem
    exact inv.single.known.live k (List.mem_filter.mp mem).2
  have distinct : (unfinished s).Nodup := List.nodup_range.filter _
  refine ⟨((List.subperm_of_subset distinct listed).length_le).trans inv.slots,?_⟩
  have behind : (unfinished s).filter (background s) ⊆
      s.running.filter (fun k => !(s.jobOf k).interactive) := by
    intro k mem
    obtain ⟨unfinished,late⟩ := List.mem_filter.mp mem
    refine List.mem_filter.mpr ⟨listed unfinished,?_⟩
    have late : 1 ≤ (s.jobOf k).prio := by simpa [background] using late
    simp only [Job.interactive,prioChat,Bool.not_eq_true']
    exact decide_eq_false (by omega)
  have fewer := (List.subperm_of_subset (distinct.filter _) behind).length_le
  rw [← List.countP_eq_length_filter] at fewer
  rw [← List.countP_eq_length_filter] at fewer
  rw [← List.countP_eq_length_filter]
  exact fewer.trans inv.shared

theorem reachable_admitted (reached : Reachable cfg s) : Admitted cfg s := by
  obtain ⟨ops,run⟩ := reached
  exact Machine.run_invariant (fun _ _ _ inv taken => step_admitted inv taken)
    (init_admitted cfg) run

/-- The limits on slots and on the reservation hold in every run. -/
theorem reachable_withinLimits (cfg : Config) (s : State) (reached : Reachable cfg s) :
    WithinLimits cfg s :=
  (reachable_admitted reached).within

/-- Both slots are taken in the middle of this run, one of them by a background job. -/
theorem startedThenPreempted_withinLimits :
    ∃ s, Machine.run (step standard) init (startedThenPreempted.take 6) = some s ∧
      (unfinished s).length = 2 ∧ ((unfinished s).filter (background s)).length = 1 ∧
      WithinLimits standard s := by
  have eval : ∃ s, Machine.run (step standard) init (startedThenPreempted.take 6) = some s ∧
      ((unfinished s).length = 2 ∧ ((unfinished s).filter (background s)).length = 1) :=
    Machine.exists_of_eval (by decide +kernel)
  obtain ⟨s,reached,taken,shared⟩ := eval
  exact ⟨s,reached,taken,shared,reachable_withinLimits standard s ⟨_,reached⟩⟩

/-! ## No lost wake-up -/

/-- The worker is parked in `asyncio.wait`, and nothing it waits for has happened. -/
structure Asleep (s : State) : Prop where
  parked : s.parked = true
  clear : s.wake = false
  unfinished : ∀ k ∈ s.running, (s.tasks k).live = true

/-- Nothing in the queue is admissible, and a chat job that finds no slot waits for a
victim or for jobs that cannot be preempted. -/
structure Exhausted (cfg : Config) (s : State) : Prop where
  chat : s.running.length < cfg.slots → ∀ j ∈ s.queue, (s.jobs j).prio ≠ prioChat
  shared : s.running.length < cfg.slots - cfg.reserved → s.queue = []
  full : s.running.length = cfg.slots → (∃ j ∈ s.queue, (s.jobs j).prio = prioChat) →
    (∃ k ∈ s.running, (s.tasks k).job ∈ s.preempting) ∨
    ∀ k ∈ s.running, (s.jobOf k).pure = false ∨ (s.jobOf k).prio < prioEmbeddings

theorem Job.interactive_iff (job : Job) : job.interactive = true ↔ job.prio = prioChat := by
  simp [Job.interactive]

/-- A scan that picks nothing has turned every candidate down. -/
theorem choose_nothing {cands : List Nat} (chosen : choose cfg s cands = .nothing) {j : Nat}
    (cand : j ∈ cands) :
    ((s.jobs j).interactive = true → free cfg s < 1 ∧ victims s = []) ∧
    ((s.jobs j).interactive = false → free cfg s ≤ cfg.reserved) := by
  induction cands with
  | nil => cases cand
  | cons first rest ih =>
    simp only [choose] at chosen
    split at chosen
    · cases chosen
    next noSlot =>
    split at chosen
    · cases chosen
    next noShare =>
    have later : choose cfg s rest = .nothing ∧
        ((s.jobs first).interactive = true → victims s = []) := by
      split at chosen
      · split at chosen
        · cases chosen
        · next none => exact ⟨chosen,fun _ => by simpa using none⟩
      · next noVictim =>
        refine ⟨chosen,fun chat => ?_⟩
        exact absurd ⟨by by_contra; exact noSlot ⟨by omega,chat⟩,chat⟩ noVictim
    rcases List.mem_cons.mp cand with rfl | cand
    · constructor
      · intro chat
        exact ⟨by by_contra; exact noSlot ⟨by omega,chat⟩,later.2 chat⟩
      · intro other
        by_contra
        exact noShare ⟨by omega,other⟩
    · exact ih later.1 cand

/-- A dispatch ends because nothing more is admissible, or because it preempted. -/
theorem dispatchLoop_end (now : ℚ) (rounds : Nat) (s : State) (enough : s.queue.length ≤ rounds) :
    (∃ r, dispatchLoop cfg now rounds s = r ∧ choose cfg r (candidates cfg now r) = .nothing) ∨
    ∃ r v, dispatchLoop cfg now rounds s = preempt r v ∧ v ∈ victims r ∧ free cfg r < 1 := by
  induction rounds generalizing s with
  | zero =>
    have empty : s.queue = [] := List.eq_nil_of_length_eq_zero (by omega)
    exact .inl ⟨s,rfl,by simp [candidates,empty,choose]⟩
  | succ rounds ih =>
    simp only [dispatchLoop]
    split
    · next j chosen =>
      apply ih
      have mem := mem_candidates.mp (choose_start chosen).1
      simp only [take_queue,List.length_erase_of_mem mem]
      omega
    · next v chosen =>
      obtain ⟨head,none,_⟩ := choose_preempt chosen
      exact .inr ⟨s,v,rfl,List.mem_of_head? head,none⟩
    · next chosen => exact .inl ⟨s,rfl,chosen⟩

theorem nothing_exhausted {now : ℚ} (chosen : choose cfg s (candidates cfg now s) = .nothing) :
    Exhausted cfg s := by
  have declined (j : Nat) (queued : j ∈ s.queue) := choose_nothing chosen (mem_candidates.mpr queued)
  simp only [free] at declined
  constructor
  · intro room j queued chat
    have := ((declined j queued).1 ((Job.interactive_iff _).mpr chat)).1
    omega
  · intro room
    by_contra nonempty
    obtain ⟨j,queued⟩ := List.exists_mem_of_ne_nil _ nonempty
    cases chat : (s.jobs j).interactive with
    | true => have := ((declined j queued).1 chat).1; omega
    | false => have := (declined j queued).2 chat; omega
  · rintro full ⟨j,queued,chat⟩
    have none := ((declined j queued).1 ((Job.interactive_iff _).mpr chat)).2
    by_cases vacating : ∃ k ∈ s.running, (s.tasks k).job ∈ s.preempting
    · exact .inl vacating
    · right
      intro k listed
      by_contra preemptible
      have victim : (s.tasks k).job ∈ victims s := by
        refine mem_victims.mpr ⟨⟨k,listed,rfl⟩,?_,fun marked => vacating ⟨k,listed,marked⟩⟩
        simp only [State.jobOf,not_or,not_lt,Bool.not_eq_false] at preemptible
        simp [Job.preemptible,preemptible]
      rw [none] at victim
      cases victim

/-- A dispatch that preempted found no free slot, and the victim still counts. -/
theorem preempt_exhausted {v : Nat} (victim : v ∈ victims s) (none : free cfg s < 1) :
    Exhausted cfg (preempt s v) := by
  have places := SamePlaces.preempt s v
  simp only [free] at none
  constructor
  · intro room
    rw [places.running] at room
    omega
  · intro room
    rw [places.running] at room
    omega
  · intro _ _
    obtain ⟨k,listed,_,mine⟩ := victim_found victim
    refine .inl ⟨k,places.running ▸ listed,?_⟩
    rw [places.job,mine,preempt]
    split <;> simp [State.setTask]

theorem worker_exhausted {now : ℚ} (woken : worker cfg now s = some t) : Exhausted cfg t := by
  obtain ⟨_,_,rfl⟩ := worker_cases woken
  have ended : Exhausted cfg (dispatch cfg now (awake s)) := by
    rcases @dispatchLoop_end cfg now _ (awake s) le_rfl with
      ⟨r,eq,chosen⟩ | ⟨r,v,eq,victim,none⟩
    · rw [dispatch,eq]; exact nothing_exhausted chosen
    · rw [dispatch,eq]; exact preempt_exhausted victim none
  exact ⟨ended.chat,ended.shared,ended.full⟩

/-- Between two wake-ups nothing becomes admissible without setting `_wake`. -/
theorem Exhausted.outside (inv : Exhausted cfg s) (known : Known s) (moves : Outside s t)
    (clear : t.wake = false) : Exhausted cfg t := by
  obtain ⟨_,marks,fewer⟩ := moves.quiet.resolve_left (by simp [clear])
  have prio (j : Nat) (issued : j < s.nextSeq) : (t.jobs j).prio = (s.jobs j).prio :=
    congrArg Prod.fst (moves.kind j issued)
  have isPure (j : Nat) (issued : j < s.nextSeq) : (t.jobs j).pure = (s.jobs j).pure :=
    congrArg (fun kind => kind.2.1) (moves.kind j issued)
  constructor
  · intro room j queued
    rw [prio j (known.queue j (fewer queued))]
    exact inv.chat (moves.running ▸ room) j (fewer queued)
  · intro room
    have empty := inv.shared (moves.running ▸ room)
    exact List.eq_nil_iff_forall_not_mem.mpr fun j queued => by simpa [empty] using fewer queued
  · rintro full ⟨j,queued,chat⟩
    rw [prio j (known.queue j (fewer queued))] at chat
    rw [moves.running,marks]
    rcases inv.full (moves.running ▸ full) ⟨j,fewer queued,chat⟩ with ⟨k,listed,marked⟩ | stuck
    · exact .inl ⟨k,listed,by rwa [moves.job]⟩
    · right
      intro k listed
      have issued := known.jobs k listed
      simpa only [State.jobOf,moves.job,prio _ issued,isPure _ issued] using stuck k listed

/-- The worker that has parked left nothing admissible behind, unless `_wake` is set. -/
structure Vigilant (cfg : Config) (s : State) : Prop where
  single : Single s
  exhausted : s.parked = true → s.wake = false → Exhausted cfg s

theorem step_vigilant {op : Op} (inv : Vigilant cfg s) (taken : step cfg s op = some t) :
    Vigilant cfg t := by
  refine ⟨step_single inv.single taken,?_⟩
  rcases step_outside taken with ⟨now,rfl⟩ | moves
  · intro _ _
    exact worker_exhausted taken
  · intro parked clear
    have before : s.wake = false := by
      rcases moves.quiet with rings | ⟨same,_⟩
      · rw [clear] at rings; cases rings
      · exact same ▸ clear
    exact (inv.exhausted (moves.parked ▸ parked) before).outside inv.single.known moves clear

/-- The worker never sleeps on work that it would admit. -/
theorem asleep_exhausted (cfg : Config) (s : State) (reached : Reachable cfg s)
    (asleep : Asleep s) : Exhausted cfg s := by
  obtain ⟨ops,run⟩ := reached
  have start : Vigilant cfg init := ⟨init_placement.toSingle,nofun⟩
  have inv : Vigilant cfg s :=
    Machine.run_invariant (fun _ _ _ inv taken => step_vigilant inv taken) start run
  exact inv.exhausted asleep.parked asleep.clear

/-- The worker sleeps with a chat job queued while the preempted task unwinds. -/
theorem startedThenPreempted_exhausted :
    ∃ s, Machine.run (step standard) init (startedThenPreempted.take 6) = some s ∧
      Asleep s ∧ (∃ j ∈ s.queue, (s.jobs j).prio = prioChat) ∧ Exhausted standard s := by
  have eval : ∃ s, Machine.run (step standard) init (startedThenPreempted.take 6) = some s ∧
      (s.parked = true ∧ s.wake = false ∧ (∀ k ∈ s.running, (s.tasks k).live = true) ∧
        ∃ j ∈ s.queue, (s.jobs j).prio = prioChat) :=
    Machine.exists_of_eval (by decide +kernel)
  obtain ⟨s,reached,parked,clear,live,waiting⟩ := eval
  have asleep : Asleep s := ⟨parked,clear,live⟩
  exact ⟨s,reached,asleep,waiting,asleep_exhausted standard s ⟨_,reached⟩ asleep⟩

end GhostRunner.Scheduler
