import Mathlib.Algebra.Order.Field.Rat
import Mathlib.Data.Rat.Floor
import Mathlib.Tactic.Linarith
import GhostRunner.SchedulerOrder

/-! Aging. Background jobs are started in the order of their sort keys, and a job that has waited
for its priority times the aging period has the least key of all that came after it. -/
namespace GhostRunner.Scheduler

variable {cfg : Config} {s t : State} {now : ℚ}

/-! ## The order within one dispatch -/

/-- What a dispatch does with the tasks it starts, in the order in which it starts them. A
background job precedes all jobs that are then in the queue. -/
structure Dispatched (cfg : Config) (now : ℚ) (s t : State) (started : List Nat) : Prop where
  jobs : t.jobs = s.jobs
  queue : t.queue ⊆ s.queue
  running : t.running = s.running ++ started
  old : ∀ k < s.nextTask, (t.tasks k).job = (s.tasks k).job
  fresh : ∀ k ∈ started, s.nextTask ≤ k
  taken : ∀ k ∈ started, (t.tasks k).job ∈ s.queue
  ordered : ∀ before k after, started = before ++ k :: after → (t.jobOf k).interactive = false →
    ∀ i, (i ∈ t.queue ∨ ∃ later ∈ after, (t.tasks later).job = i) →
      precedes cfg now s (t.tasks k).job i

theorem Dispatched.of_places (same : SamePlaces s t) (jobs : t.jobs = s.jobs) :
    Dispatched cfg now s t [] := by
  refine ⟨jobs,same.queue ▸ List.Subset.refl _,?_,fun k _ => same.job k,by simp,by simp,by simp⟩
  rw [same.running,List.append_nil]

/-- The first choice of a dispatch, then the rest of it. -/
theorem Dispatched.take {j : Nat} {started : List Nat}
    (chosen : choose cfg s (candidates cfg now s) = .start j)
    (later : Dispatched cfg now (take s j) t started) : ∃ started, Dispatched cfg now s t started := by
  have queued := mem_candidates.mp (choose_start chosen).1
  have shorter : (Scheduler.take s j).queue ⊆ s.queue := by
    rw [take_queue]
    exact List.erase_subset
  have jobs := later.jobs.trans (take_jobs s j)
  have order := @precedes_of_jobs cfg s (Scheduler.take s j) now (take_jobs s j)
  by_cases pending : (s.jobs j).future = .pending
  · have old := later.old
    have fresh := later.fresh
    have running := later.running
    have ordered := later.ordered
    rw [take_pending pending] at old fresh running
    simp only [Nat.lt_succ_iff] at old
    have mine : (t.tasks s.nextTask).job = j := by
      rw [old s.nextTask le_rfl]
      simp
    refine ⟨s.nextTask :: started,jobs,fun i mem => shorter (later.queue mem),by simpa using running,
      ?_,?_,?_,?_⟩
    · intro k issued
      rw [old k (Nat.le_of_lt issued)]
      simp [Function.update_of_ne (Nat.ne_of_lt issued)]
    · intro k mem
      rcases List.mem_cons.mp mem with rfl | mem
      · exact le_rfl
      · exact Nat.le_of_succ_le (fresh k mem)
    · intro k mem
      rcases List.mem_cons.mp mem with rfl | mem
      · rwa [mine]
      · exact shorter (later.taken k mem)
    · intro before k after split background i left
      cases before with
      | nil =>
        obtain ⟨rfl,rfl⟩ := List.cons_eq_cons.mp split
        have among : i ∈ s.queue := by
          rcases left with left | ⟨other,mem,rfl⟩
          · exact shorter (later.queue left)
          · exact shorter (later.taken other mem)
        simp only [State.jobOf,mine,jobs] at background
        rw [mine]
        exact chosen_precedes chosen background i among
      | cons first before =>
        obtain ⟨rfl,rfl⟩ := List.cons_eq_cons.mp split
        have inner := ordered before k after rfl background i left
        rwa [order] at inner
  · have dropped := take_done (s := s) (j := j) (by simpa using pending)
    rw [dropped] at later
    exact ⟨started,jobs,fun i mem => List.mem_of_mem_erase (later.queue mem),later.running,later.old,
      later.fresh,fun k mem => List.mem_of_mem_erase (later.taken k mem),later.ordered⟩

theorem dispatchLoop_dispatched (now : ℚ) (rounds : Nat) (s : State) :
    ∃ started, Dispatched cfg now s (dispatchLoop cfg now rounds s) started := by
  induction rounds generalizing s with
  | zero => exact ⟨[],.of_places ⟨rfl,rfl,rfl,rfl,fun _ => rfl,fun _ => rfl⟩ rfl⟩
  | succ rounds ih =>
    simp only [dispatchLoop]
    split
    · next j chosen =>
      obtain ⟨_,later⟩ := ih (take s j)
      exact later.take chosen
    · next v _ => exact ⟨[],.of_places (SamePlaces.preempt s v) (preempt_jobs s v)⟩
    · exact ⟨[],.of_places ⟨rfl,rfl,rfl,rfl,fun _ => rfl,fun _ => rfl⟩ rfl⟩

theorem worker_dispatched (woken : worker cfg now s = some t) :
    ∃ started, Dispatched cfg now (awake s) t started := by
  obtain ⟨_,_,rfl⟩ := worker_cases woken
  obtain ⟨started,loop⟩ := dispatchLoop_dispatched now (awake s).queue.length (awake s)
  exact ⟨started,loop.jobs,loop.queue,loop.running,loop.old,loop.fresh,loop.taken,loop.ordered⟩

/-- In a dispatch a task of `j` is started when `i` is in the queue and stays there for then. -/
def StartsBefore (s t : State) (j i : Nat) : Prop :=
  ∃ before k after, t.running = (awake s).running ++ (before ++ k :: after) ∧
    (t.tasks k).job = j ∧ (i ∈ t.queue ∨ ∃ later ∈ after, (t.tasks later).job = i)

/-- A background job is never started before a job with a smaller key. -/
theorem startsBefore_precedes {j i : Nat} (woken : worker cfg now s = some t)
    (background : 1 ≤ (s.jobs j).prio) (starts : StartsBefore s t j i) : precedes cfg now s j i := by
  obtain ⟨started,spec⟩ := worker_dispatched woken
  obtain ⟨before,k,after,running,rfl,left⟩ := starts
  have same : started = before ++ k :: after := by
    rw [spec.running] at running
    exact List.append_cancel_left running
  have jobs : t.jobs = s.jobs := spec.jobs.trans (awake_jobs s)
  have other : (t.jobOf k).interactive = false := by
    simp only [State.jobOf,jobs,Job.interactive,prioChat,decide_eq_false_iff_not]
    omega
  have order := spec.ordered before k after same other i left
  rwa [precedes_of_jobs (awake_jobs s)] at order

/-! ## Age -/

theorem le_truncate {n : Int} {q : ℚ} (nonneg : 0 ≤ q) (below : (n : ℚ) ≤ q) : n ≤ truncate q := by
  have floor : truncate q = ⌊q⌋ := by
    rw [truncate,Int.tdiv_eq_ediv_of_nonneg (Rat.num_nonneg.mpr nonneg),Rat.floor_def']
  rw [floor]
  exact Int.le_floor.mpr below

/-- A job that has waited long enough has no priority left to lose. -/
theorem effectivePrio_aged {job : Job} {agingS : ℚ} (positive : 0 < agingS)
    (background : 1 ≤ job.prio) (aged : job.enqueuedAt + job.prio * agingS ≤ now) :
    job.effectivePrio now agingS = 0 := by
  have waited : (job.prio : ℚ) ≤ (now - job.enqueuedAt) / agingS := by
    rw [le_div_iff₀ positive]
    linarith
  have nonneg : (0 : ℚ) ≤ job.prio := by exact_mod_cast (by omega : (0 : Int) ≤ job.prio)
  have steps := le_truncate (nonneg.trans waited) waited
  simp only [Job.effectivePrio]
  omega

theorem effectivePrio_nonneg (job : Job) (now agingS : ℚ) : 0 ≤ job.effectivePrio now agingS :=
  le_max_left _ _

/-- A dispatch starts no background job before an older one that has aged. -/
theorem aged_first {j b : Nat} (positive : 0 < cfg.agingS) (woken : worker cfg now s = some t)
    (background : 1 ≤ (s.jobs b).prio)
    (aged : (s.jobs b).enqueuedAt + (s.jobs b).prio * cfg.agingS ≤ now)
    (other : 1 ≤ (s.jobs j).prio) (newer : b < j) : ¬StartsBefore s t j b := by
  intro starts
  have order := startsBefore_precedes woken other starts
  have least := effectivePrio_aged positive background aged
  have nonneg := effectivePrio_nonneg (s.jobs j) now cfg.agingS
  simp only [precedes] at order
  omega

/-! ## Whole runs -/

def Op.clock : Op → Option ℚ
  | .submit _ _ _ now | .worker now | .taskStep _ _ now => some now
  | .cancelTurn _ | .cancelSubmit _ | .submitResumes _ => none

/-- The times at which the operations take place, where they look at the clock. -/
def clocks (ops : List Op) : List ℚ := ops.filterMap Op.clock

/-- While a job stays in the queue nothing makes it younger. -/
theorem step_enqueuedAt {op : Op} {b : Nat} (inv : Single s) (queued : b ∈ s.queue)
    (taken : step cfg s op = some t) : (t.jobs b).enqueuedAt = (s.jobs b).enqueuedAt := by
  have setJob (j : Nat) (job : Job) (same : job.enqueuedAt = (s.jobs j).enqueuedAt) :
      ((s.setJob j job).jobs b).enqueuedAt = (s.jobs b).enqueuedAt := by
    by_cases mine : b = j
    · subst mine; simpa [State.setJob] using same
    · simp [State.setJob,mine]
  cases op with
  | submit prio isPure turnId now =>
    cases taken
    have other : b ≠ s.nextSeq := Nat.ne_of_lt (inv.known.queue b queued)
    simp [submit,other]
  | worker now =>
    obtain ⟨started,spec⟩ := worker_dispatched taken
    rw [spec.jobs,awake_jobs]
  | taskStep k outcome now =>
    obtain ⟨alive,_,_,jobs⟩ := taskStep_frame taken
    have other : b ≠ (s.tasks k).job := by
      rintro rfl
      exact inv.unqueued alive queued
    rw [jobs b other]
  | cancelTurn turn =>
    cases taken
    simp only [cancelTurn,State.cancelRunning]
    split <;> rfl
  | cancelSubmit j =>
    obtain ⟨_,_,rfl⟩ := cancelSubmit_cases taken
    simp only [cancelSubmit]
    split
    · exact setJob j _ rfl
    · exact setJob j _ rfl
  | submitResumes j =>
    obtain ⟨_,_,_,rfl⟩ := submitResumes_cases taken
    simp only [submitResumes]
    split
    · exact setJob j _ rfl
    · exact setJob j _ rfl

/-- The job that stays in the queue keeps its priority and its age over a run. -/
theorem run_waiting {ops : List Op} {b : Nat} (inv : Single s)
    (reached : Machine.run (step cfg) s ops = some t)
    (queued : Machine.Throughout (step cfg) (fun u => b ∈ u.queue) s ops) :
    Single t ∧ (t.jobs b).enqueuedAt = (s.jobs b).enqueuedAt ∧
      (t.jobs b).prio = (s.jobs b).prio := by
  induction ops generalizing s with
  | nil => cases reached; exact ⟨inv,rfl,rfl⟩
  | cons op ops ih =>
    obtain ⟨u,taken,reached⟩ := Machine.run_cons_iff.mp reached
    obtain ⟨here,queued⟩ := (Machine.throughout_cons_iff taken).mp queued
    obtain ⟨single,age,prio⟩ := ih (step_single inv taken) reached queued
    have kind := step_kind inv.known taken (inv.known.queue b here)
    refine ⟨single,age.trans (step_enqueuedAt inv here taken),prio.trans ?_⟩
    exact congrArg Prod.fst kind

/-- No background job is started while one with a smaller key is queued. From the first time on
that is as late as a queued job's age allows, none that was submitted after the job is started
before it for as long as it stays queued. -/
theorem aging_bounds_overtaking (cfg : Config) (positive : 0 < cfg.agingS) (ops : List Op)
    (monotone : (clocks ops).Pairwise (· ≤ ·)) :
    (∀ first now rest s t, ops = first ++ .worker now :: rest →
      Machine.run (step cfg) init first = some s → step cfg s (.worker now) = some t →
      ∀ j i, 1 ≤ (s.jobs j).prio → StartsBefore s t j i →
        ¬((s.jobs i).effectivePrio now cfg.agingS < (s.jobs j).effectivePrio now cfg.agingS ∨
          (s.jobs i).effectivePrio now cfg.agingS = (s.jobs j).effectivePrio now cfg.agingS ∧
            i < j)) ∧
    ∀ first middle now rest r s t b, ops = first ++ (middle ++ .worker now :: rest) →
      Machine.run (step cfg) init first = some r → Machine.run (step cfg) r middle = some s →
      Machine.Throughout (step cfg) (fun u => b ∈ u.queue) r middle →
      step cfg s (.worker now) = some t → 1 ≤ (r.jobs b).prio →
      (∃ time ∈ clocks (first ++ (middle ++ [.worker now])),
        (r.jobs b).enqueuedAt + (r.jobs b).prio * cfg.agingS ≤ time) →
      ∀ j, b < j → 1 ≤ (s.jobs j).prio → ¬StartsBefore s t j b := by
  constructor
  · intro first now rest s t _ _ woken j i background starts
    exact precedes_iff.mp (startsBefore_precedes woken background starts)
  · rintro first middle now rest r s t b rfl begun reached queued woken background
      ⟨time,passed,old⟩ j newer other
    obtain ⟨_,age,prio⟩ := run_waiting (Machine.run_invariant
      (fun _ _ _ inv taken => step_single inv taken) init_placement.toSingle begun) reached queued
    have late : time ≤ now := by
      simp only [clocks,List.filterMap_append,List.filterMap_cons,Op.clock,List.filterMap_nil,
        List.mem_append,List.mem_singleton,← or_assoc] at passed
      simp only [clocks,List.filterMap_append,List.filterMap_cons,Op.clock,
        ← List.append_assoc] at monotone
      rcases passed with before | rfl
      · exact (List.pairwise_append.mp monotone).2.2 time (List.mem_append.mpr before) now (by simp)
      · exact le_rfl
    rw [← prio] at background
    rw [← age,← prio] at old
    exact aged_first positive woken background (old.trans late) other newer

/-- A consolidation job waits for three minutes behind another; then a perception job comes. -/
def agedQueue : List Op := [
  .submit prioConsolidation true none 0,
  .worker 0,
  .taskStep 0 .suspends 0,
  .submit prioConsolidation true none 0]

theorem agedQueue_first : ∃ r s t, Machine.run (step standard) init agedQueue = some r ∧
    Machine.run (step standard) r
      [.submit prioPerception true none 200,.taskStep 0 .returns 200] = some s ∧
    step standard s (.worker 200) = some t ∧ ¬StartsBefore s t 2 1 := by
  have whole : ∃ r, Machine.run (step standard) init agedQueue = some r ∧
      ((Machine.Throughout (step standard) (fun u => 1 ∈ u.queue) r
          [.submit prioPerception true none 200,.taskStep 0 .returns 200] ∧
        1 ≤ (r.jobs 1).prio ∧ (r.jobs 1).enqueuedAt + (r.jobs 1).prio * standard.agingS ≤ 200) ∧
      (Machine.run (step standard) r
        [.submit prioPerception true none 200,.taskStep 0 .returns 200]).map (fun s =>
          decide (1 ≤ (s.jobs 2).prio ∧ (step standard s (.worker 200)).isSome = true)) =
        some true) :=
    Machine.exists_of_eval (by decide +kernel)
  obtain ⟨r,begun,⟨queued,background,old⟩,eval⟩ := whole
  obtain ⟨s,reached,other,some⟩ := Machine.exists_of_eval eval
  obtain ⟨t,woken⟩ := Option.isSome_iff_exists.mp some
  refine ⟨r,s,t,begun,reached,woken,?_⟩
  exact (aging_bounds_overtaking standard (by decide +kernel) (agedQueue ++
    ([.submit prioPerception true none 200,.taskStep 0 .returns 200] ++ [.worker 200]))
    (by decide +kernel)).2 agedQueue _ 200 [] r s t 1 rfl begun reached queued woken background
    ⟨200,by decide +kernel,old⟩ 2 (by decide) other

end GhostRunner.Scheduler
