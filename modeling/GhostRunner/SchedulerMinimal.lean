import GhostRunner.SchedulerOrder

/-! Preemption. A dispatch gives out the free slots and then cancels at most one victim for the
chat jobs that are left. It does not ask whether an earlier victim is still unwinding, so another
wake-up can cancel a second one for the same chat job. -/
namespace GhostRunner.Scheduler

variable {cfg : Config} {s t : State} {now : ℚ}

/-- What follows the first `n` elements that pass the test. -/
def afterFirst (test : Nat → Bool) : Nat → List Nat → List Nat
  | 0, l => l
  | _ + 1, [] => []
  | n + 1, i :: rest => if test i then afterFirst test n rest else afterFirst test (n + 1) rest

@[simp] theorem afterFirst_nil (test : Nat → Bool) (n : Nat) : afterFirst test n [] = [] := by
  cases n <;> rfl

/-- A job whose future is done is dropped from the queue and takes no slot. -/
def State.pending (s : State) (j : Nat) : Bool := !(s.jobs j).future.done

/-- The free slots that any job may take, and those of the reservation. -/
def sharedSlots (cfg : Config) (s : State) : Nat := (free cfg s - cfg.reserved).toNat
def keptSlots (cfg : Config) (s : State) : Nat := min (free cfg s).toNat cfg.reserved

/-- The jobs that get the shared slots. -/
def placed (cfg : Config) (now : ℚ) (s : State) : List Nat :=
  ((candidates cfg now s).filter s.pending).take (sharedSlots cfg s)

/-- The chat jobs for which there is no slot once all are given out. -/
def chatsLeft (cfg : Config) (now : ℚ) (s : State) : List Nat :=
  afterFirst s.pending (keptSlots cfg s)
    ((afterFirst s.pending (sharedSlots cfg s) (candidates cfg now s)).filter fun j =>
      (s.jobs j).interactive)

/-- The jobs that may then be cancelled. -/
def cancellable (cfg : Config) (now : ℚ) (s : State) : List Nat :=
  victims s ++ (placed cfg now s).filter fun j => (s.jobs j).preemptible

/-- The running unfinished jobs in `_preempting`. -/
def vacating (s : State) : Nat :=
  s.running.countP fun k => (s.tasks k).live && decide ((s.tasks k).job ∈ s.preempting)

/-- The chat jobs in the queue. -/
def waitingChats (s : State) : Nat := s.queue.countP fun j => (s.jobs j).interactive

/-- After a `_dispatch` that cancelled a victim, no more slots are being vacated than chat jobs
wait for one. -/
def PreemptsMinimally (cfg : Config) (ops : List Op) : Prop :=
  ∀ first now rest s t, ops = first ++ .worker now :: rest →
    Machine.run (step cfg) init first = some s → step cfg s (.worker now) = some t →
    (∃ v ∈ t.preempting, v ∉ s.preempting) → vacating t ≤ waitingChats t

/-- The worker wakes up when slots are being vacated for all the chat jobs it has no slot for, and
there is one more job that it may cancel. -/
def PreemptsNeedlessly (cfg : Config) (s : State) : Op → Prop
  | .worker now => chatsLeft cfg now (awake s) ≠ [] ∧ cancellable cfg now (awake s) ≠ [] ∧
      (chatsLeft cfg now (awake s)).length ≤ vacating (awake s)
  | _ => False

instance (cfg : Config) (s : State) : DecidablePred (PreemptsNeedlessly cfg s)
  | .worker _ => inferInstanceAs (Decidable (_ ∧ _))
  | .submit .. | .taskStep .. | .submitResumes .. | .cancelSubmit .. | .cancelTurn .. =>
    instDecidableFalse

/-! ## What is left while the slots are given out -/

/-- All that runs is unfinished, and a marked job is not queued. -/
structure Ready (s : State) : Prop where
  single : Single s
  live : ∀ k ∈ s.running, (s.tasks k).live = true
  unmarked : ∀ j ∈ s.queue, j ∉ s.preempting

@[simp] theorem take_preempting (s : State) (j : Nat) : (take s j).preempting = s.preempting := by
  simp only [take]; split <;> rfl

theorem take_ready {j : Nat} (inv : Ready s) (queued : j ∈ s.queue) : Ready (take s j) := by
  refine ⟨inv.single.keep (take_keeps inv.single.known queued),?_,?_⟩
  · intro k listed
    by_cases pending : (s.jobs j).future = .pending
    · rw [take_pending pending] at listed ⊢
      rcases List.mem_append.mp listed with before | fresh
      · simpa only [Function.update_of_ne (listed_old inv.single.known k before)] using
          inv.live k before
      · rw [List.mem_singleton.mp fresh]
        simp [Task.live]
    · rw [take_done (by simpa using pending)] at listed ⊢
      exact inv.live k listed
  · intro i left
    rw [take_queue] at left
    rw [take_preempting]
    exact inv.unmarked i (List.mem_of_mem_erase left)

/-- A job that was queued vacates no slot. -/
theorem take_vacating {j : Nat} (inv : Ready s) (queued : j ∈ s.queue) :
    vacating (take s j) = vacating s := by
  by_cases pending : (s.jobs j).future = .pending
  · have unmarked := inv.unmarked j queued
    simp only [vacating,take_pending pending,List.countP_append,List.countP_singleton,
      Function.update_self,unmarked,decide_false,Bool.and_false,Bool.false_eq_true,if_false,
      Nat.add_zero]
    apply List.countP_congr
    intro k listed
    rw [Function.update_of_ne (listed_old inv.single.known k listed)]
  · rw [take_done (by simpa using pending)]
    rfl

theorem take_free (s : State) (j : Nat) :
    free cfg (take s j) = if s.pending j then free cfg s - 1 else free cfg s := by
  by_cases pending : (s.jobs j).future = .pending
  · simp [free,State.pending,take_pending pending,FutureState.done,pending]
    omega
  · have done : (s.jobs j).future.done = true := by simpa using pending
    simp [free,State.pending,take_done done,done]

theorem take_victims {j v : Nat} (inv : Ready s) (queued : j ∈ s.queue) :
    v ∈ victims (take s j) ↔ v ∈ victims s ∨
      s.pending j = true ∧ (s.jobs j).preemptible = true ∧ v = j := by
  by_cases pending : (s.jobs j).future = .pending
  · have old (k : Nat) (listed : k ∈ s.running) : k ≠ s.nextTask :=
      listed_old inv.single.known k listed
    have unmarked := inv.unmarked j queued
    simp only [mem_victims,take_pending pending,List.mem_append,List.mem_singleton]
    constructor
    · rintro ⟨⟨k,listed | rfl,mine⟩,may,free⟩
      · rw [Function.update_of_ne (old k listed)] at mine
        exact .inl ⟨⟨k,listed,mine⟩,may,free⟩
      · simp only [Function.update_self] at mine
        subst mine
        exact .inr ⟨by simp [State.pending,FutureState.done,pending],may,rfl⟩
    · rintro (⟨⟨k,listed,mine⟩,may,free⟩ | ⟨_,may,rfl⟩)
      · refine ⟨⟨k,.inl listed,?_⟩,may,free⟩
        rwa [Function.update_of_ne (old k listed)]
      · exact ⟨⟨s.nextTask,.inr rfl,by simp⟩,may,unmarked⟩
  · have done : (s.jobs j).future.done = true := by simpa using pending
    rw [take_done done]
    simp [mem_victims,State.pending,done]

theorem take_pending_eq (s : State) (j : Nat) : (take s j).pending = s.pending := by
  funext i
  simp only [State.pending,take_jobs]

/-- The first candidate takes a shared slot, and the others find what is left of them. -/
theorem take_shared {j : Nat} {rest : List Nat} (shared : (cfg.reserved : Int) < free cfg s)
    (cands : candidates cfg now s = j :: rest) :
    chatsLeft cfg now (take s j) = chatsLeft cfg now s ∧
      placed cfg now s = (if s.pending j then [j] else []) ++ placed cfg now (take s j) := by
  have others : candidates cfg now (take s j) = rest := by
    rw [candidates_take,cands,List.erase_cons_head]
  have slots : ∃ n, sharedSlots cfg s = n + 1 ∧
      sharedSlots cfg (take s j) = if s.pending j then n else n + 1 := by
    refine ⟨sharedSlots cfg s - 1,?_,?_⟩
    · simp only [sharedSlots]
      omega
    · simp only [sharedSlots,take_free]
      split <;> omega
  have kept : keptSlots cfg (take s j) = keptSlots cfg s := by
    simp only [keptSlots,take_free]
    split <;> omega
  obtain ⟨n,before,after⟩ := slots
  cases pending : s.pending j <;>
    simp [chatsLeft,placed,take_pending_eq,others,kept,before,after,cands,afterFirst,pending]

theorem sharedSlots_kept (kept : free cfg s ≤ cfg.reserved) : sharedSlots cfg s = 0 := by
  simp only [sharedSlots]
  omega

/-- When only reserved slots are left, the first chat job takes one. -/
theorem take_kept {j : Nat} {rest : List Nat} (slot : 1 ≤ free cfg s)
    (kept : free cfg s ≤ cfg.reserved)
    (chats : (candidates cfg now s).filter (fun i => (s.jobs i).interactive) = j :: rest) :
    chatsLeft cfg now (take s j) = chatsLeft cfg now s ∧ placed cfg now s = [] ∧
      placed cfg now (take s j) = [] := by
  have none := sharedSlots_kept kept
  have still : sharedSlots cfg (take s j) = 0 := by
    apply sharedSlots_kept
    rw [take_free]
    split <;> omega
  have others : (candidates cfg now (take s j)).filter (fun i => (s.jobs i).interactive) = rest := by
    rw [candidates_take,← List.erase_filter,chats,List.erase_cons_head]
  have slots : ∃ n, keptSlots cfg s = n + 1 ∧
      keptSlots cfg (take s j) = if s.pending j then n else n + 1 := by
    refine ⟨keptSlots cfg s - 1,?_,?_⟩
    · simp only [keptSlots]
      omega
    · simp only [keptSlots,take_free]
      split <;> omega
  obtain ⟨n,before,after⟩ := slots
  refine ⟨?_,by simp [placed,none],by simp [placed,still]⟩
  simp only [chatsLeft,none,still,afterFirst,take_pending_eq,take_jobs,others,chats,before,after]
  cases s.pending j <;> simp

theorem mem_cancellable {v : Nat} : v ∈ cancellable cfg now s ↔
    v ∈ victims s ∨ v ∈ placed cfg now s ∧ (s.jobs v).preemptible = true := by
  simp [cancellable]

/-- A chat job is never a victim. -/
theorem Job.interactive_kept {job : Job} (chat : job.interactive = true) :
    job.preemptible = false := by
  have least : job.prio = 0 := of_decide_eq_true chat
  simp [Job.preemptible,least,prioEmbeddings]

/-- Whichever job a dispatch takes, the chat jobs left in the end and the jobs that may be
cancelled for them are the same. -/
theorem take_left {j : Nat} (inv : Ready s)
    (chosen : choose cfg s (candidates cfg now s) = .start j) :
    chatsLeft cfg now (take s j) = chatsLeft cfg now s ∧
      ∀ v, v ∈ cancellable cfg now (take s j) ↔ v ∈ cancellable cfg now s := by
  have queued := mem_candidates.mp (choose_start chosen).1
  have victims (v : Nat) := @take_victims s j v inv queued
  rcases chosen_cases chosen with ⟨shared,rest,cands⟩ | ⟨slot,kept,rest,chats⟩
  · obtain ⟨left,jobs⟩ := take_shared shared cands
    refine ⟨left,fun v => ?_⟩
    rw [mem_cancellable,mem_cancellable,victims,jobs,take_jobs]
    -- the job that is taken moves from those that get a slot to those that run
    cases pending : s.pending j
    · simp
    · simp only [if_true,List.singleton_append,List.mem_cons,true_and]
      constructor
      · rintro ((before | ⟨may,rfl⟩) | ⟨later,may⟩)
        · exact .inl before
        · exact .inr ⟨.inl rfl,may⟩
        · exact .inr ⟨.inr later,may⟩
      · rintro (before | ⟨rfl | later,may⟩)
        · exact .inl (.inl before)
        · exact .inl (.inr ⟨may,rfl⟩)
        · exact .inr ⟨later,may⟩
  · have chat : j ∈ (candidates cfg now s).filter fun i => (s.jobs i).interactive := by
      rw [chats]
      exact List.mem_cons_self
    obtain ⟨left,none,still⟩ := take_kept slot kept chats
    refine ⟨left,fun v => ?_⟩
    rw [mem_cancellable,mem_cancellable,victims,none,still,
      Job.interactive_kept (List.mem_filter.mp chat).2]
    simp

/-! ## The cancellation at the end -/

theorem preempt_ready {v : Nat} (inv : Ready s) (victim : v ∈ victims s) : Ready (preempt s v) := by
  obtain ⟨⟨k,listed,mine⟩,_⟩ := mem_victims.mp victim
  have places := SamePlaces.preempt s v
  refine ⟨inv.single.keep (preempt_keeps inv.single.known v),?_,?_⟩
  · intro i running
    rw [places.running] at running
    rw [places.live]
    exact inv.live i running
  · intro j queued marked
    rw [places.queue] at queued
    rw [preempt_preempting] at marked
    rcases Finset.mem_insert.mp marked with rfl | before
    · rw [← mine] at queued
      exact inv.single.unqueued (inv.live k listed) queued
    · exact inv.unmarked j queued before

/-- The victim is one more running job that vacates its slot. -/
theorem preempt_vacating {v : Nat} (inv : Ready s) (victim : v ∈ victims s) :
    vacating (preempt s v) = vacating s + 1 := by
  obtain ⟨k,listed,_,mine⟩ := victim_found victim
  have unmarked := (mem_victims.mp victim).2.2
  have places := SamePlaces.preempt s v
  simp only [vacating,places.running,places.live,places.job,preempt_preempting]
  apply countP_change inv.single.known.nodup listed
  · simp [inv.live k listed,mine]
  · simp [mine,unmarked]
  · intro i other
    cases living : (s.tasks i).live
    · rfl
    · have theirs : (s.tasks i).job ≠ v := fun same =>
        other (inv.single.unique (inv.live k listed) living (same.trans mine.symm))
      simp [theirs]

/-- The chat jobs that wait when there is no free slot. -/
theorem full_left (none : free cfg s < 1) :
    chatsLeft cfg now s = (candidates cfg now s).filter (fun j => (s.jobs j).interactive) ∧
      placed cfg now s = [] := by
  have shared : sharedSlots cfg s = 0 := sharedSlots_kept (by omega)
  have kept : keptSlots cfg s = 0 := by
    simp only [keptSlots]
    omega
  simp [chatsLeft,placed,shared,kept,afterFirst]

theorem waitingChats_eq (s : State) : waitingChats s =
    ((candidates cfg now s).filter fun j => (s.jobs j).interactive).length := by
  rw [waitingChats,← List.countP_eq_length_filter]
  exact (candidates_perm.countP_eq _).symm

/-- A dispatch that stops has found a slot for every chat job, or no job to cancel. -/
theorem choose_stops (chosen : choose cfg s (candidates cfg now s) = .nothing) :
    chatsLeft cfg now s = [] ∨ cancellable cfg now s = [] := by
  by_cases shared : (cfg.reserved : Int) < free cfg s
  · cases cands : candidates cfg now s with
    | nil => exact .inl (by simp [chatsLeft,cands])
    | cons first rest =>
      rw [cands,choose_shared shared] at chosen
      cases chosen
  by_cases slot : 1 ≤ free cfg s
  · left
    have kept : free cfg s ≤ cfg.reserved := by omega
    rw [choose_kept slot kept] at chosen
    split at chosen
    · next chats => simp [chatsLeft,sharedSlots_kept kept,afterFirst,chats]
    · cases chosen
  · have none : free cfg s < 1 := by omega
    obtain ⟨left,placed⟩ := @full_left cfg s now none
    rw [choose_full none] at chosen
    rw [left,cancellable,placed]
    split at chosen
    · cases chosen
    · next other =>
      cases chats : (candidates cfg now s).filter fun j => (s.jobs j).interactive with
      | nil => exact .inl rfl
      | cons chat rest =>
        cases found : (victims s).head? with
        | none => simp [List.head?_eq_none_iff.mp found]
        | some v => exact absurd found (other chat rest v chats)

/-- One victim is cancelled if a chat job is left and there is a job to cancel, and none
otherwise. -/
theorem dispatchLoop_cancels (rounds : Nat) (s : State) (inv : Ready s)
    (enough : s.queue.length ≤ rounds) :
    (chatsLeft cfg now s ≠ [] ∧ cancellable cfg now s ≠ [] ∧
      (∃ v ∈ (dispatchLoop cfg now rounds s).preempting, v ∉ s.preempting) ∧
      vacating (dispatchLoop cfg now rounds s) = vacating s + 1 ∧
      waitingChats (dispatchLoop cfg now rounds s) = (chatsLeft cfg now s).length) ∨
    ((chatsLeft cfg now s = [] ∨ cancellable cfg now s = []) ∧
      (dispatchLoop cfg now rounds s).preempting = s.preempting) := by
  induction rounds generalizing s with
  | zero =>
    have empty : candidates cfg now s = [] := by
      simp [candidates,List.eq_nil_of_length_eq_zero (Nat.le_zero.mp enough)]
    exact .inr ⟨choose_stops (by rw [empty]; rfl),rfl⟩
  | succ rounds ih =>
    simp only [dispatchLoop]
    split
    · next j chosen =>
      have queued := mem_candidates.mp (choose_start chosen).1
      have fewer : (take s j).queue.length ≤ rounds := by
        rw [take_queue,List.length_erase_of_mem queued]
        omega
      obtain ⟨chats,jobs⟩ := take_left inv chosen
      have same : cancellable cfg now (take s j) = [] ↔ cancellable cfg now s = [] := by
        simp only [List.eq_nil_iff_forall_not_mem,jobs]
      have later := ih (take s j) (take_ready inv queued) fewer
      rw [chats,take_preempting,take_vacating inv queued] at later
      simpa only [ne_eq,same] using later
    · next v chosen =>
      obtain ⟨head,none,chat,mem,interactive⟩ := choose_preempt chosen
      have victim := List.mem_of_head? head
      have unmarked := (mem_victims.mp victim).2.2
      obtain ⟨left,_⟩ := @full_left cfg s now none
      have waits : chat ∈ chatsLeft cfg now s := by
        rw [left]
        exact List.mem_filter.mpr ⟨mem,interactive⟩
      refine .inl ⟨List.ne_nil_of_mem waits,
        List.ne_nil_of_mem (mem_cancellable.mpr (.inl victim)),⟨v,?_,unmarked⟩,
        preempt_vacating inv victim,?_⟩
      · rw [preempt_preempting]
        exact Finset.mem_insert_self v _
      · rw [left,← waitingChats_eq]
        simp only [waitingChats,preempt_jobs,(SamePlaces.preempt s v).queue]
    · next chosen => exact .inr ⟨choose_stops chosen,rfl⟩

/-! ## Whole runs -/

/-- What every run keeps of `Ready`. -/
structure Marked (s : State) : Prop extends Budget s where
  unmarked : ∀ j ∈ s.queue, j ∉ s.preempting
  idle : s.parked = false → s.running = []

theorem init_marked : Marked init := ⟨init_budget,by simp [init],fun _ => rfl⟩

theorem Marked.awake (inv : Marked s) : Ready (awake s) := by
  have single : Single (Scheduler.awake s) := inv.toSingle.keep (awake_keeps inv.known)
  refine ⟨single,?_,?_⟩
  · intro k listed
    rw [awake_tasks]
    cases parked : s.parked
    · simp [Scheduler.awake,parked,inv.idle parked] at listed
    · simp only [Scheduler.awake,parked,if_true,popFinished] at listed
      exact (List.mem_filter.mp listed).2
  · intro j queued
    rw [awake_queue] at queued
    rw [awake_preempting]
    exact inv.unmarked j queued

/-- A preempted job that enters the queue loses its mark. -/
theorem taskStep_unmarked {k : Nat} {outcome : Outcome} (inv : Marked s)
    (taken : taskStep s k outcome now = some t) : ∀ j ∈ t.queue, j ∉ t.preempting := by
  have after (u : State) (queue : u.queue = s.queue) (marks : u.preempting = s.preempting) :
      ∀ j ∈ (afterFactory u k outcome now).queue, j ∉ (afterFactory u k outcome now).preempting := by
    rcases afterFactory_cases u k outcome now with ⟨_,eq⟩ | ⟨_,_,_,eq⟩ | ⟨_,_,eq⟩ <;> rw [eq]
    · simpa only [State.setTask,queue,marks] using inv.unmarked
    · simpa only [endUnstarted,State.settle,State.setJob,State.setTask,queue,marks] using
        inv.unmarked
    · intro j queued marked
      rw [queue] at queued
      obtain ⟨other,marked⟩ := Finset.mem_erase.mp marked
      rw [marks] at marked
      rcases List.mem_append.mp queued with before | mine
      · exact inv.unmarked j before marked
      · exact other (List.mem_singleton.mp mine)
  rcases taskStep_cases taken with ⟨_,_,_,rfl⟩ | ⟨_,_,rfl⟩ | ⟨_,rfl⟩
  · exact inv.unmarked
  · exact after (invoke s k) rfl rfl
  · exact after s rfl rfl

theorem worker_unmarked (inv : Ready (awake s)) (woken : worker cfg now s = some t) :
    ∀ j ∈ t.queue, j ∉ t.preempting := by
  obtain ⟨_,_,rfl⟩ := worker_cases woken
  have kept : Ready (dispatch cfg now (awake s)) := by
    apply dispatchLoop_keeps now
    · exact fun _ _ inv queued _ => take_ready inv queued
    · exact fun _ _ inv victim _ => preempt_ready inv victim
    · exact inv
  exact kept.unmarked

theorem step_marked {op : Op} (inv : Marked s) (taken : step cfg s op = some t) : Marked t := by
  refine ⟨step_budget inv.toBudget taken,?_,?_⟩
  · cases op with
    | submit prio isPure turnId now =>
      cases taken
      intro j queued
      rcases List.mem_append.mp queued with before | mine
      · exact inv.unmarked j before
      · intro marked
        have issued := (inv.marks j marked).1
        rw [List.mem_singleton.mp mine] at issued
        omega
    | worker now => exact worker_unmarked inv.awake taken
    | taskStep k outcome now => exact taskStep_unmarked inv taken
    | cancelTurn turn =>
      cases taken
      exact fun j left => inv.unmarked j (List.mem_filter.mp left).1
    | cancelSubmit j =>
      obtain ⟨_,_,rfl⟩ := cancelSubmit_cases taken
      simp only [cancelSubmit]
      split <;> exact inv.unmarked
    | submitResumes j =>
      obtain ⟨_,_,_,rfl⟩ := submitResumes_cases taken
      simp only [submitResumes]
      split
      · exact fun i left => inv.unmarked i (List.mem_of_mem_erase left)
      · exact inv.unmarked
  · intro parked
    rcases step_outside taken with ⟨now,rfl⟩ | moves
    · obtain ⟨_,_,rfl⟩ := worker_cases taken
      cases parked
    · rw [moves.running]
      exact inv.idle (moves.parked ▸ parked)

theorem run_marked {ops : List Op} (reached : Machine.run (step cfg) init ops = some s) : Marked s :=
  Machine.run_invariant (fun _ _ _ inv taken => step_marked inv taken) init_marked reached

/-- The worker cancels a victim where it should not exactly in the states described. -/
theorem worker_minimal_iff (inv : Marked s) (woken : worker cfg now s = some t) :
    ((∃ v ∈ t.preempting, v ∉ s.preempting) → vacating t ≤ waitingChats t) ↔
      ¬PreemptsNeedlessly cfg s (.worker now) := by
  obtain ⟨_,_,rfl⟩ := worker_cases woken
  have spec := @dispatchLoop_cancels cfg now (awake s).queue.length (awake s) inv.awake le_rfl
  rw [awake_preempting] at spec
  change (∃ v ∈ (dispatch cfg now (awake s)).preempting, v ∉ s.preempting) →
    vacating (dispatch cfg now (awake s)) ≤ waitingChats (dispatch cfg now (awake s)) ↔ _
  simp only [PreemptsNeedlessly]
  rcases spec with ⟨left,jobs,marked,vacated,waits⟩ | ⟨none,same⟩
  · simp only [dispatch,vacated,waits]
    constructor
    · intro minimal needless
      have most := minimal marked
      omega
    · intro needed _
      by_contra more
      exact needed ⟨left,jobs,by omega⟩
  · constructor
    · rintro _ ⟨left,jobs,_⟩
      rcases none with none | none
      · exact left none
      · exact jobs none
    · rintro _ ⟨v,marked,fresh⟩
      simp only [dispatch,same] at marked
      exact absurd marked fresh

/-- Preemption is minimal in a run exactly when the worker never wakes up to a needless one. -/
theorem preemptsMinimally_iff (cfg : Config) (ops : List Op) (s : State)
    (reached : Machine.run (step cfg) init ops = some s) :
    PreemptsMinimally cfg ops ↔
      Machine.Meets (step cfg) (fun s op => ¬PreemptsNeedlessly cfg s op) init ops := by
  constructor
  · intro minimal
    apply Machine.meets_of_steps reached
    intro first op rest t u split before taken
    cases op with
    | worker now =>
      exact (worker_minimal_iff (run_marked before) taken).mp
        (minimal first now rest t u split before taken)
    | submit | taskStep | cancelTurn | cancelSubmit | submitResumes => exact id
  · rintro needed first now rest t u rfl before taken
    have here := (Machine.meets_cons_iff taken).mp ((Machine.meets_append_iff before).mp needed).2
    exact (worker_minimal_iff (run_marked before) taken).mpr here.1

theorem startedThenPreempted_minimal : PreemptsMinimally standard startedThenPreempted := by
  have completes : ∃ s, Machine.run (step standard) init startedThenPreempted = some s ∧ True :=
    Machine.exists_of_eval (by decide +kernel)
  obtain ⟨s,reached,_⟩ := completes
  exact (preemptsMinimally_iff standard startedThenPreempted s reached).mpr (by decide +kernel)

def threeSlots : Config := ⟨3,1,60,by decide⟩

/-- Two background jobs run, a chat job takes the reserved slot and a second one waits. -/
def preemptedTwice : List Op := [
  .submit prioConsolidation true none 0,
  .submit prioConsolidation true none 0,
  .worker 0,
  .taskStep 0 .suspends 0,
  .taskStep 1 .suspends 0,
  .submit prioChat true (some 1) 1,
  .worker 1,
  .taskStep 2 .suspends 1,
  .submit prioChat true (some 2) 1,
  .worker 1,
  .submit prioEmbeddings true none 2,
  .worker 2]

theorem preemptedTwice_needless : ¬PreemptsMinimally threeSlots preemptedTwice := by
  have eval : ∃ s, Machine.run (step threeSlots) init (preemptedTwice.take 11) = some s ∧
      (step threeSlots s (.worker 2)).map (fun t => decide ((∃ v ∈ t.preempting, v ∉ s.preempting) ∧
        waitingChats t < vacating t)) = some true :=
    Machine.exists_of_eval (by decide +kernel)
  obtain ⟨s,before,eval⟩ := eval
  obtain ⟨t,taken,marked⟩ := Option.map_eq_some_iff.mp eval
  obtain ⟨marked,more⟩ := of_decide_eq_true marked
  intro minimal
  have most := minimal (preemptedTwice.take 11) 2 [] s t rfl before taken marked
  omega

/-- With a single shared slot at most one background job runs, so there is no second victim. -/
theorem oneShared_needed (one : cfg.slots = cfg.reserved + 1) (inv : Admitted cfg (awake s))
    (marks : ∀ j ∈ s.preempting, (s.jobs j).preemptible = true) :
    ¬PreemptsNeedlessly cfg s (.worker now) := by
  rintro ⟨left,jobs,many⟩
  have some : 0 < vacating (awake s) := (List.length_pos_of_ne_nil left).trans_le many
  obtain ⟨k,listed,leaves⟩ := List.countP_pos_iff.mp some
  simp only [awake_tasks,awake_preempting,Bool.and_eq_true,decide_eq_true_eq] at leaves
  obtain ⟨v,candidate⟩ := List.exists_mem_of_ne_nil _ jobs
  rcases mem_cancellable.mp candidate with victim | ⟨slot,_⟩
  · obtain ⟨⟨i,running,mine⟩,may,unmarked⟩ := mem_victims.mp victim
    have other : i ≠ k := by
      rintro rfl
      rw [← mine,awake_tasks,awake_preempting] at unmarked
      exact unmarked leaves.2
    have background {m : Nat} (running : m ∈ (awake s).running)
        (may : ((awake s).jobOf m).preemptible = true) :
        m ∈ (awake s).running.filter fun i => !((awake s).jobOf i).interactive := by
      apply List.mem_filter.mpr ⟨running,?_⟩
      cases chat : ((awake s).jobOf m).interactive
      · rfl
      · rw [Job.interactive_kept chat] at may
        cases may
    have both : [i,k] ⊆ (awake s).running.filter fun i => !((awake s).jobOf i).interactive := by
      intro m mem
      rcases List.mem_pair.mp mem with rfl | rfl
      · exact background running (by rw [State.jobOf,mine]; exact may)
      · exact background listed (by simpa [State.jobOf] using marks _ leaves.2)
    have two := (List.subperm_of_subset (by simp [other]) both).length_le
    have most := inv.shared
    rw [List.countP_eq_length_filter] at most
    simp only [List.length_cons,List.length_nil] at two
    omega
  · have shared : 0 < sharedSlots cfg (awake s) := by
      by_contra none
      rw [placed,Nat.eq_zero_of_not_pos none] at slot
      cases slot
    have running := List.length_pos_of_mem listed
    simp only [sharedSlots,free] at shared
    omega

/-- With the default numbers of slots preemption is minimal in every run. -/
theorem oneShared_minimal (cfg : Config) (one : cfg.slots = cfg.reserved + 1) (ops : List Op) :
    PreemptsMinimally cfg ops := by
  intro first now rest s t _ before taken
  have inv := run_marked before
  apply (worker_minimal_iff inv taken).mpr
  apply oneShared_needed one
  · exact awake_admitted (reachable_admitted ⟨first,before⟩) inv.awake.single
  · exact fun j marked => (inv.marks j marked).2

end GhostRunner.Scheduler
