import GhostRunner.OrchestratorSteps
import GhostRunner.SchedulerCancelTurn
import GhostRunner.SchedulerOnce

/-! The scheduler under the orchestrator. A chat turn's job goes through the real scheduler as the
orchestrator's model of a job says: what the scheduler does to it is done there by `dispatch`,
`jobResumes` and the end of the LLM stream, and by the three ways to cancel it. -/
namespace GhostRunner.ChatJob

open Machine
open Orchestrator (State Turn Outcome)
open Scheduler (Config prioChat)

/-! ## What the orchestrator's model may do to a job -/

inductive JobOp where
  | dispatch
  | jobResumes
  | llmEnds (outcome : Outcome)
  | cancelTurn
  | remove
  | cancelTask
  deriving DecidableEq, Repr

/-- A task that awaits its job can be cancelled; this is what the job sees of it. -/
def jobStep (t : Nat) (o : State) : JobOp → Option State
  | .dispatch => Orchestrator.dispatch o t
  | .jobResumes => Orchestrator.jobResumes o t
  | .llmEnds outcome => Orchestrator.step o (.llmEnds t outcome)
  | .cancelTurn => some (o.modify t Turn.cancelJob)
  | .remove => some (o.modify t Turn.removeJob)
  | .cancelTask =>
    if (o.turns t).task = .streaming then some (o.modify t Turn.cancelTask) else none

/-- What the orchestrator's model does when the job's task takes a step. -/
def streams : Scheduler.Outcome → JobOp → Bool
  | .returns,.llmEnds final => final == .result
  | .raises,.llmEnds final => final == .failed
  | _,.jobResumes => true
  | _,_ => false

/-- Which moves an operation of the scheduler may account for. -/
def during (s : Scheduler.State) (j : Nat) : Scheduler.Op → JobOp → Bool
  | .worker _,.dispatch => true
  | .taskStep k outcome _,move => (s.tasks k).job == j && streams outcome move
  | .cancelTurn turn,.cancelTurn => (s.jobs j).turnId == some turn
  | .submitResumes i,.remove => i == j
  | .cancelSubmit i,.cancelTask => i == j
  | _,_ => false

theorem resuming (outcome : Scheduler.Outcome) : streams outcome .jobResumes = true := by
  cases outcome <;> rfl

/-! ## Two views of one job -/

def Resolves : Scheduler.FutureState → Outcome → Prop
  | .pending,.pending | .result,.result | .cancelled,.cancelled => True
  | .exception,.llmError _ | .exception,.failed => True
  | _,_ => False

/-- Where the job is. `thrown` tells that a `CancelledError` has been delivered to its body, which
then only unwinds. -/
inductive At (s : Scheduler.State) (j : Nat) (thrown : Bool) (r : Turn) : Prop
  | queued (here : j ∈ s.queue) (job : r.job = .queued) (calm : r.halted = false)
      (fresh : thrown = false)
  | unstarted (k : Nat) (job : (s.tasks k).job = j) (phase : (s.tasks k).phase = .unstarted)
      (own : r.job = .unstarted) (asked : r.halted = (s.tasks k).cancelRequested)
      (fresh : thrown = false)
  | body (k : Nat) (job : (s.tasks k).job = j) (phase : (s.tasks k).phase = .suspended)
      (own : r.job = .fetching) (asked : r.halted = ((s.tasks k).cancelRequested || thrown))
  | gone (unqueued : j ∉ s.queue) (unheld : ∀ k, (s.tasks k).live = true → (s.tasks k).job ≠ j)
      (job : r.job = .ended)

/-- The turn sees the job as the scheduler has it. -/
structure Sees (s : Scheduler.State) (j : Nat) (thrown : Bool) (r : Turn) : Prop where
  place : At s j thrown r
  future : Resolves (s.jobs j).future r.future
  task : r.task = .streaming

/-- By moves it may take, the orchestrator's model does to the job what has been done to it. -/
def Follows (may : JobOp → Bool) (t : Nat) (o : State) (s : Scheduler.State) (j : Nat)
    (thrown : Bool) : Prop :=
  ∃ moves u, (∀ move ∈ moves, may move = true) ∧ run (jobStep t) o moves = some u ∧
    Sees s j thrown (u.turns t)

theorem Sees.follows {may : JobOp → Bool} {s : Scheduler.State} {j t : Nat} {thrown : Bool}
    {o : State} (sees : Sees s j thrown (o.turns t)) : Follows may t o s j thrown :=
  ⟨[],o,nofun,rfl,sees⟩

/-- What is followed from wherever the job is seen can be followed further. -/
theorem Follows.trans {may : JobOp → Bool} {s s' : Scheduler.State} {j t : Nat}
    {thrown thrown' : Bool} {o : State} (follows : Follows may t o s j thrown)
    (further : ∀ u : State, Sees s j thrown (u.turns t) → Follows may t u s' j thrown') :
    Follows may t o s' j thrown' := by
  obtain ⟨moves,u,mays,reached,sees⟩ := follows
  obtain ⟨more,v,also,later,seen⟩ := further u sees
  refine ⟨moves ++ more,v,?_,?_,seen⟩
  · intro move among
    rcases List.mem_append.mp among with first | second
    · exact mays move first
    · exact also move second
  · rw [run_append reached]
    exact later

theorem Follows.move {may : JobOp → Bool} {s : Scheduler.State} {j t : Nat} {thrown : Bool}
    {o u : State} (move : JobOp) (allowed : may move = true)
    (taken : jobStep t o move = some u) (follows : Follows may t u s j thrown) :
    Follows may t o s j thrown := by
  obtain ⟨moves,v,mays,reached,sees⟩ := follows
  refine ⟨move :: moves,v,?_,run_cons_iff.mpr ⟨u,taken,reached⟩,sees⟩
  exact List.forall_mem_cons.mpr ⟨allowed,mays⟩

/-! ## What does not concern the job -/

variable {s s' : Scheduler.State} {j t k i : Nat} {thrown : Bool} {o : State} {r r' : Turn}
  {cfg : Config} {may : JobOp → Bool}

/-- The job, and its task if it has one, are left as they are. -/
structure Spares (s s' : Scheduler.State) (j : Nat) : Prop where
  future : (s'.jobs j).future = (s.jobs j).future
  queue : j ∈ s'.queue ↔ j ∈ s.queue
  held : ∀ k, (s.tasks k).live = true → (s.tasks k).job = j → s'.tasks k = s.tasks k
  fresh : ∀ k, (s'.tasks k).live = true → (s'.tasks k).job = j → s'.tasks k = s.tasks k

theorem live_unstarted (phase : (s.tasks k).phase = .unstarted) : (s.tasks k).live = true := by
  simp [Scheduler.Task.live,phase]

theorem live_suspended (phase : (s.tasks k).phase = .suspended) : (s.tasks k).live = true := by
  simp [Scheduler.Task.live,phase]

theorem At.spared (place : At s j thrown r) (spares : Spares s s' j) : At s' j thrown r := by
  cases place with
  | queued here job calm fresh => exact .queued (spares.queue.mpr here) job calm fresh
  | unstarted k job phase own asked fresh =>
    have same := spares.held k (live_unstarted phase) job
    exact .unstarted k (same ▸ job) (same ▸ phase) own (same ▸ asked) fresh
  | body k job phase own asked =>
    have same := spares.held k (live_suspended phase) job
    exact .body k (same ▸ job) (same ▸ phase) own (same ▸ asked)
  | gone unqueued unheld job =>
    refine .gone (fun here => unqueued (spares.queue.mp here)) (fun k alive own => ?_) job
    have same := spares.fresh k alive own
    exact unheld k (same ▸ alive) (same ▸ own)

theorem Sees.spared (sees : Sees s j thrown r) (spares : Spares s s' j) : Sees s' j thrown r :=
  ⟨sees.place.spared spares,spares.future ▸ sees.future,sees.task⟩

/-- The turn may change in what the job does not show. -/
theorem At.congr (place : At s j thrown r) (job : r'.job = r.job) (halted : r'.halted = r.halted) :
    At s j thrown r' := by
  cases place with
  | queued here own calm fresh => exact .queued here (job.trans own) (halted.trans calm) fresh
  | unstarted k mine phase own asked fresh =>
    exact .unstarted k mine phase (job.trans own) (halted.trans asked) fresh
  | body k mine phase own asked => exact .body k mine phase (job.trans own) (halted.trans asked)
  | gone unqueued unheld own => exact .gone unqueued unheld (job.trans own)

theorem spares_setJob (other : i ≠ j) (job : Scheduler.Job) : Spares s (s.setJob i job) j :=
  ⟨by simp [Scheduler.State.setJob,Ne.symm other],Iff.rfl,fun _ _ _ => rfl,fun _ _ _ => rfl⟩

theorem Spares.trans {u : Scheduler.State} (first : Spares s s' j) (second : Spares s' u j) :
    Spares s u j where
  future := second.future.trans first.future
  queue := second.queue.trans first.queue
  held := fun k alive own => by
    have same := first.held k alive own
    exact (second.held k (same ▸ alive) (same ▸ own)).trans same
  fresh := fun k alive own => by
    have same := second.fresh k alive own
    exact same.trans (first.fresh k (same ▸ alive) (same ▸ own))

theorem spares_submit (issued : j < s.nextSeq) (prio : Int) (isPure : Bool) (turnId : Option Int)
    (now : ℚ) : Spares s (Scheduler.submit s prio isPure turnId now) j := by
  have other : j ≠ s.nextSeq := by omega
  exact ⟨by simp [Scheduler.submit,other],by simp [Scheduler.submit,other],fun _ _ _ => rfl,
    fun _ _ _ => rfl⟩

theorem spares_cancelRunning (test : Nat → Bool) (calm : test j = false) :
    Spares s (s.cancelRunning test) j := by
  refine ⟨rfl,Iff.rfl,fun k _ own => ?_,fun k _ own => ?_⟩
  · simp [Scheduler.State.cancelRunning,own,calm]
  · have mine : (s.tasks k).job = j := by
      rw [← own,(Scheduler.SamePlaces.cancelRunning s test).job k]
    simp [Scheduler.State.cancelRunning,mine,calm]

/-! ## The worker -/

theorem resolves_pending {f : Scheduler.FutureState} {outcome : Outcome}
    (resolves : Resolves f outcome) : outcome = .pending ↔ f = .pending := by
  cases f <;> cases outcome <;> simp_all [Resolves]

theorem spares_take (known : Scheduler.Known s) (other : i ≠ j) :
    Spares s (Scheduler.take s i) j := by
  have absent (k : Nat) (alive : (s.tasks k).live = true) : k ≠ s.nextTask := by
    have listed := known.running k (known.live k alive)
    omega
  by_cases pending : (s.jobs i).future = .pending
  · rw [Scheduler.take_pending pending]
    refine ⟨rfl,List.mem_erase_of_ne (Ne.symm other),fun k alive own => ?_,fun k alive own => ?_⟩
    · simp [absent k alive]
    · by_cases fresh : k = s.nextTask
      · subst fresh
        simp only [Function.update_self] at own
        exact absurd own other
      · simp [fresh]
  · rw [Scheduler.take_done (by simpa using pending)]
    exact ⟨rfl,List.mem_erase_of_ne (Ne.symm other),fun _ _ _ => rfl,fun _ _ _ => rfl⟩

/-- The job leaves the queue. -/
theorem take_follows (allowed : may .dispatch = true) (single : Scheduler.Single s) (queued : j ∈ s.queue)
    (sees : Sees s j thrown (o.turns t)) : Follows may t o (Scheduler.take s j) j thrown := by
  obtain ⟨place,future,task⟩ := sees
  have unheld (k : Nat) (alive : (s.tasks k).live = true) : (s.tasks k).job ≠ j := by
    rintro rfl
    exact single.unqueued alive queued
  have erased : j ∉ s.queue.erase j := by
    have once := single.atMostOnce j
    simp only [Scheduler.load] at once
    rw [← List.count_pos_iff,List.count_erase_self]
    omega
  cases place with
  | queued _ job calm fresh =>
    have taken : jobStep t o .dispatch = some (o.modify t fun r =>
        { r with job := if r.future = .pending then .unstarted else .ended }) := by
      simp [jobStep,Orchestrator.dispatch,job]
    refine Follows.move .dispatch allowed taken (Sees.follows ?_)
    rw [Orchestrator.State.modify_same]
    by_cases pending : (s.jobs j).future = .pending
    · rw [Scheduler.take_pending pending]
      refine ⟨.unstarted s.nextTask (by simp) (by simp) ?_ (by simpa using calm) fresh,future,task⟩
      simp [(resolves_pending future).mpr pending]
    · rw [Scheduler.take_done (by simpa using pending)]
      refine ⟨.gone erased unheld ?_,future,task⟩
      simp [mt (resolves_pending future).mp pending]
  | unstarted k job phase => exact absurd job (unheld k (live_unstarted phase))
  | body k job phase => exact absurd job (unheld k (live_suspended phase))
  | gone unqueued => exact absurd queued unqueued

theorem spares_preempt {v : Nat} (other : v ≠ j) : Spares s (Scheduler.preempt s v) j := by
  have same (k : Nat) (own : (s.tasks k).job = j) :
      (Scheduler.preempt s v).tasks k = s.tasks k := by
    simp only [Scheduler.preempt]
    split
    · next i found =>
      have victim : (s.tasks i).job = v := by simpa using List.find?_some found
      have apart : k ≠ i := by
        rintro rfl
        exact other (victim.symm.trans own)
      simp [Scheduler.State.setTask,apart]
    · rfl
  refine ⟨by rw [Scheduler.preempt_jobs],?_,fun k _ own => same k own,fun k _ own => ?_⟩
  · rw [(Scheduler.SamePlaces.preempt s v).queue]
  · exact same k (((Scheduler.SamePlaces.preempt s v).job k).symm.trans own)

theorem spares_awake : Spares s (Scheduler.awake s) j :=
  ⟨by simp,by simp,fun _ _ _ => by simp,fun _ _ _ => by simp⟩

/-- What is kept while the worker dispatches. -/
structure Kept (may : JobOp → Bool) (t : Nat) (o : State) (j : Nat) (thrown : Bool) (s : Scheduler.State) : Prop where
  single : Scheduler.Single s
  chat : (s.jobs j).preemptible = false
  follows : Follows may t o s j thrown

theorem Kept.take (allowed : may .dispatch = true) (kept : Kept may t o j thrown s) (queued : i ∈ s.queue) :
    Kept may t o j thrown (Scheduler.take s i) where
  single := kept.single.keep (Scheduler.take_keeps kept.single.known queued)
  chat := by rw [Scheduler.take_jobs]; exact kept.chat
  follows := kept.follows.trans fun u sees => by
    by_cases own : i = j
    · subst own
      exact take_follows allowed kept.single queued sees
    · exact (sees.spared (spares_take kept.single.known own)).follows

theorem Kept.preempt {v : Nat} (kept : Kept may t o j thrown s) (victim : v ∈ Scheduler.victims s) :
    Kept may t o j thrown (Scheduler.preempt s v) where
  single := kept.single.keep (Scheduler.preempt_keeps kept.single.known v)
  chat := by rw [Scheduler.preempt_jobs]; exact kept.chat
  follows := kept.follows.trans fun u sees => by
    refine (sees.spared (spares_preempt ?_)).follows
    rintro rfl
    have effectful := kept.chat
    rw [(Scheduler.mem_victims.mp victim).2.1] at effectful
    cases effectful

/-- One wake-up of the worker starts the job, or drops it, or leaves it. -/
theorem worker_follows (allowed : may .dispatch = true) (single : Scheduler.Single s) (chat : (s.jobs j).preemptible = false)
    {now : ℚ} (woken : Scheduler.worker cfg now s = some s') (sees : Sees s j thrown (o.turns t)) :
    Follows may t o s' j thrown := by
  obtain ⟨-,-,rfl⟩ := Scheduler.worker_cases woken
  have start : Kept may t o j thrown (Scheduler.awake s) :=
    ⟨single.keep (Scheduler.awake_keeps single.known),by simpa using chat,
      (sees.spared spares_awake).follows⟩
  have dispatched : Kept may t o j thrown (Scheduler.dispatch cfg now (Scheduler.awake s)) :=
    Scheduler.dispatchLoop_keeps now (fun _ _ kept queued _ => kept.take allowed queued)
      (fun _ _ kept victim _ => kept.preempt victim) _ _ start
  have parked : Spares (Scheduler.dispatch cfg now (Scheduler.awake s))
      { Scheduler.dispatch cfg now (Scheduler.awake s) with parked := true } j :=
    ⟨rfl,Iff.rfl,fun _ _ _ => rfl,fun _ _ _ => rfl⟩
  exact dispatched.follows.trans fun u sees => (sees.spared parked).follows

/-! ## Cancellation -/

theorem removeJob_future (r : Turn) : r.removeJob.future = r.future := by
  simp only [Turn.removeJob]
  split <;> rfl

theorem removeJob_task (r : Turn) : r.removeJob.task = r.task := by
  simp only [Turn.removeJob]
  split <;> rfl

theorem removeJob_ended (ended : r.job = .ended) : r.removeJob = r := by
  simp [Turn.removeJob,ended]

/-- Tasks that are cancelled where they stand. -/
theorem cancelRunning_own {test : Nat → Bool} (hit : test j = true) (listed : k ∈ s.running)
    (alive : (s.tasks k).live = true) (own : (s.tasks k).job = j) :
    (s.cancelRunning test).tasks k = { s.tasks k with cancelRequested := true } := by
  simp [Scheduler.State.cancelRunning,listed,own,hit,Scheduler.Task.cancel,alive]

theorem unheld_cancelRunning (test : Nat → Bool)
    (unheld : ∀ k, (s.tasks k).live = true → (s.tasks k).job ≠ j) :
    ∀ k, ((s.cancelRunning test).tasks k).live = true →
      ((s.cancelRunning test).tasks k).job ≠ j := fun k alive => by
  have same := Scheduler.SamePlaces.cancelRunning s test
  rw [same.live k] at alive
  rw [same.job k]
  exact unheld k alive

/-- A job that is not queued is halted where its task stands. -/
theorem At.halted {test : Nat → Bool} (place : At s j thrown r) (unqueued : j ∉ s.queue)
    (listed : ∀ k, (s.tasks k).live = true → k ∈ s.running) (hit : test j = true) :
    At (s.cancelRunning test) j thrown r.removeJob := by
  cases place with
  | queued here => exact absurd here unqueued
  | unstarted k own phase job asked fresh =>
    have alive := live_unstarted phase
    have task := cancelRunning_own hit (listed k alive) alive own
    exact .unstarted k (by rw [task]; exact own) (by rw [task]; exact phase)
      (by simp [Turn.removeJob,job]) (by rw [task]; simp [Turn.removeJob,job]) fresh
  | body k own phase job asked =>
    have alive := live_suspended phase
    have task := cancelRunning_own hit (listed k alive) alive own
    exact .body k (by rw [task]; exact own) (by rw [task]; exact phase)
      (by simp [Turn.removeJob,job]) (by rw [task]; simp [Turn.removeJob,job])
  | gone _ unheld ended =>
    rw [removeJob_ended ended]
    exact .gone unqueued (unheld_cancelRunning test unheld) ended

/-- `cancel_turn` has taken the turn's jobs out of the queue, and not yet cancelled any task. -/
def emptied (s : Scheduler.State) (turn : Int) : Scheduler.State :=
  let hit := fun i => decide ((s.jobs i).turnId = some turn)
  { s with
    queue := s.queue.filter (fun i => !hit i)
    jobs := fun i => if i ∈ s.queue.filter hit
      then { s.jobs i with future := (s.jobs i).future.settle .cancelled } else s.jobs i }

theorem cancelTurn_emptied (s : Scheduler.State) (turn : Int) :
    (Scheduler.cancelTurn s turn).1 =
      (emptied s turn).cancelRunning fun i => decide ((s.jobs i).turnId = some turn) := rfl

theorem spares_emptied {turn : Int} (apart : j ∉ s.queue ∨ (s.jobs j).turnId ≠ some turn) :
    Spares s (emptied s turn) j := by
  refine ⟨?_,?_,fun _ _ _ => rfl,fun _ _ _ => rfl⟩
  · have unlisted : ¬(j ∈ s.queue ∧ (s.jobs j).turnId = some turn) := by tauto
    simp [emptied,unlisted]
  · simp only [emptied,List.mem_filter,Bool.not_eq_true',decide_eq_false_iff_not]
    tauto

/-- Once done a future keeps its outcome, on both sides. -/
theorem resolves_settle {f g : Scheduler.FutureState} {outcome final : Outcome}
    (resolves : Resolves f outcome) (same : Resolves g final) :
    Resolves (f.settle g) (if outcome = .pending then final else outcome) := by
  by_cases pending : f = .pending
  · rw [if_pos ((resolves_pending resolves).mpr pending),pending]
    exact same
  · rw [if_neg (mt (resolves_pending resolves).mp pending)]
    have done : f.done = true := by simpa using pending
    simpa [Scheduler.FutureState.settle,done] using resolves

theorem cancelJob_of_unqueued (unqueued : r.job ≠ .queued) : r.cancelJob = r.removeJob := by
  simp only [Turn.cancelJob]

/-- Where a queued job is. -/
theorem At.of_queued (place : At s j thrown r) (single : Scheduler.Single s) (here : j ∈ s.queue) :
    r.job = .queued ∧ r.halted = false ∧ thrown = false := by
  have unheld (k : Nat) (alive : (s.tasks k).live = true) : (s.tasks k).job ≠ j := by
    rintro rfl
    exact single.unqueued alive here
  cases place with
  | queued _ job calm fresh => exact ⟨job,calm,fresh⟩
  | unstarted k job phase => exact absurd job (unheld k (live_unstarted phase))
  | body k job phase => exact absurd job (unheld k (live_suspended phase))
  | gone unqueued => exact absurd here unqueued

theorem At.of_unqueued (place : At s j thrown r) (unqueued : j ∉ s.queue) : r.job ≠ .queued := by
  cases place with
  | queued here => exact absurd here unqueued
  | unstarted k job phase own => simp [own]
  | body k job phase own => simp [own]
  | gone _ _ job => simp [job]

/-- A job that leaves the queue by a cancellation gets no task. -/
theorem At.dropped {test : Nat → Bool} (single : Scheduler.Single s) (here : j ∈ s.queue)
    (tasks : s'.tasks = s.tasks) (unqueued : j ∉ s'.queue) (ended : r.job = .ended) :
    At (s'.cancelRunning test) j thrown r := by
  refine .gone unqueued (unheld_cancelRunning test fun k alive => ?_) ended
  rw [tasks] at alive ⊢
  rintro rfl
  exact single.unqueued alive here

theorem cancelTurn_follows {turn : Int} (single : Scheduler.Single s)
    (allowed : (s.jobs j).turnId = some turn → may .cancelTurn = true)
    (sees : Sees s j thrown (o.turns t)) :
    Follows may t o (Scheduler.cancelTurn s turn).1 j thrown := by
  rw [cancelTurn_emptied]
  by_cases hit : (s.jobs j).turnId = some turn
  · refine Follows.move .cancelTurn (allowed hit) (u := o.modify t Turn.cancelJob) rfl (Sees.follows ?_)
    rw [Orchestrator.State.modify_same]
    by_cases here : j ∈ s.queue
    · have job := (sees.place.of_queued single here).1
      have removed : j ∉ (emptied s turn).queue := by simp [emptied,hit]
      have settled : ((emptied s turn).jobs j).future = (s.jobs j).future.settle .cancelled := by
        simp [emptied,here,hit]
      simp only [Turn.cancelJob,job]
      refine ⟨.dropped single here rfl removed rfl,?_,sees.task⟩
      exact settled ▸ resolves_settle sees.future trivial
    · have aside : Spares s (emptied s turn) j := spares_emptied (.inl here)
      have seen := sees.spared aside
      rw [cancelJob_of_unqueued (sees.place.of_unqueued here)]
      refine ⟨seen.place.halted (mt aside.queue.mp here) single.known.live (by simpa using hit),
        ?_,(removeJob_task _).trans sees.task⟩
      rw [removeJob_future]
      exact seen.future
  · exact (sees.spared ((spares_emptied (.inr hit)).trans
      (spares_cancelRunning _ (by simpa using hit)))).follows

/-- `_remove`, once the `submit` no longer awaits. -/
theorem remove_follows (single : Scheduler.Single s) (allowed : i = j → may .remove = true)
    (sees : Sees s j thrown (o.turns t)) :
    Follows may t o (Scheduler.remove s i) j thrown := by
  by_cases own : i = j
  · subst own
    refine Follows.move .remove (allowed rfl) (u := o.modify t Turn.removeJob) rfl (Sees.follows ?_)
    rw [Orchestrator.State.modify_same]
    refine ⟨?_,by rw [removeJob_future]; exact sees.future,(removeJob_task _).trans sees.task⟩
    by_cases here : i ∈ s.queue
    · have job := (sees.place.of_queued single here).1
      have once := single.atMostOnce i
      have removed : i ∉ s.queue.erase i := by
        simp only [Scheduler.load] at once
        rw [← List.count_pos_iff,List.count_erase_self]
        omega
      exact .dropped single here rfl removed (by simp [Turn.removeJob,job])
    · have same : { s with queue := s.queue.erase i } = s := by
        rw [List.erase_of_not_mem here]
      simp only [Scheduler.remove,same]
      exact sees.place.halted here single.known.live (by simp)
  · have erased : Spares s { s with queue := s.queue.erase i } j :=
      ⟨rfl,List.mem_erase_of_ne (Ne.symm own),fun _ _ _ => rfl,fun _ _ _ => rfl⟩
    exact (sees.spared (erased.trans (spares_cancelRunning _ (by simpa using Ne.symm own)))).follows

theorem spares_awaited (job : Scheduler.Job) (same : job.future = (s.jobs i).future) :
    Spares s (s.setJob i job) j := by
  refine ⟨?_,Iff.rfl,fun _ _ _ => rfl,fun _ _ _ => rfl⟩
  by_cases own : j = i
  · subst own
    simpa [Scheduler.State.setJob] using same
  · simp [Scheduler.State.setJob,own]

/-- Only the job's future changes. -/
theorem At.setJob (place : At s j thrown r) (job : Scheduler.Job) :
    At (s.setJob i job) j thrown r := by
  cases place with
  | queued here own calm fresh => exact .queued here own calm fresh
  | unstarted k mine phase own asked fresh => exact .unstarted k mine phase own asked fresh
  | body k mine phase own asked => exact .body k mine phase own asked
  | gone unqueued unheld own => exact .gone unqueued unheld own

/-- The request of the awaiting task reaches the future. -/
theorem cancelSubmit_follows (allowed : i = j → may .cancelTask = true)
    (sees : Sees s j thrown (o.turns t)) :
    Follows may t o (Scheduler.cancelSubmit s i) j thrown := by
  by_cases own : i = j
  · subst own
    have taken : jobStep t o .cancelTask = some (o.modify t Turn.cancelTask) := by
      simp [jobStep,sees.task]
    refine Follows.move .cancelTask (allowed rfl) taken (Sees.follows ?_)
    rw [Orchestrator.State.modify_same]
    have asked : (o.turns t).cancelTask = { o.turns t with
        asked := true
        future := if (o.turns t).future = .pending then .cancelled else (o.turns t).future } := by
      simp [Turn.cancelTask,sees.task]
    rw [asked]
    have place : At s i thrown { o.turns t with
        asked := true
        future := if (o.turns t).future = .pending then .cancelled else (o.turns t).future } :=
      sees.place.congr rfl rfl
    have settled : Resolves ((s.jobs i).future.settle .cancelled)
        (if (o.turns t).future = .pending then .cancelled else (o.turns t).future) :=
      resolves_settle sees.future trivial
    simp only [Scheduler.cancelSubmit]
    split
    · next done =>
      refine ⟨place.setJob _,?_,sees.task⟩
      simpa [Scheduler.State.setJob,Scheduler.FutureState.settle,done] using settled
    · refine ⟨place.setJob _,?_,sees.task⟩
      simpa [Scheduler.State.settle,Scheduler.State.setJob] using settled
  · refine (sees.spared ?_).follows
    simp only [Scheduler.cancelSubmit]
    split
    · exact spares_setJob own _
    · exact spares_setJob own _

theorem single_same (single : Scheduler.Single s) (same : Scheduler.SamePlaces s s') :
    Scheduler.Single s' :=
  ⟨same.known single.known,fun i => (same.load i).symm ▸ single.atMostOnce i⟩

theorem submitResumes_follows (single : Scheduler.Single s)
    (allowed : i = j → may .remove = true) (sees : Sees s j thrown (o.turns t)) :
    Follows may t o (Scheduler.submitResumes s i) j thrown := by
  have aside : Spares s (s.setJob i { s.jobs i with awaiting := false }) j :=
    spares_awaited _ rfl
  have seen := sees.spared aside
  simp only [Scheduler.submitResumes]
  split
  · exact remove_follows (single_same single (Scheduler.SamePlaces.setJob _ _ _)) allowed seen
  · exact seen.follows

/-! ## A step of the job's task -/

/-- The factory ends by a `CancelledError` only once one has been delivered to it, and then it
only unwinds. -/
def tame (s : Scheduler.State) (j : Nat) (thrown : Bool) : Scheduler.Op → Bool
  | .taskStep k outcome _ =>
    if (s.tasks k).job = j then
      if thrown || (s.tasks k).cancelRequested then
        outcome == .suspends || outcome == .cancelled
      else !(outcome == .cancelled)
    else true
  | _ => true

/-- Whether the body has been told. -/
def thrownAfter (s : Scheduler.State) (j : Nat) (thrown : Bool) : Scheduler.Op → Bool
  | .taskStep k _ _ => thrown || ((s.tasks k).job == j && (s.tasks k).phase == .suspended &&
      (s.tasks k).cancelRequested)
  | _ => thrown

theorem queued_taskStep {outcome : Scheduler.Outcome} {now : ℚ} (queued : j ∈ s.queue)
    (taken : Scheduler.taskStep s k outcome now = some s') : j ∈ s'.queue := by
  have after (u : Scheduler.State) (here : j ∈ u.queue) :
      j ∈ (Scheduler.afterFactory u k outcome now).queue := by
    rcases Scheduler.afterFactory_cases u k outcome now with ⟨_,eq⟩ | ⟨_,_,_,eq⟩ | ⟨_,_,eq⟩ <;>
      rw [eq]
    · exact here
    · exact here
    · exact List.mem_append.mpr (.inl here)
  rcases Scheduler.taskStep_cases taken with ⟨-,-,-,rfl⟩ | ⟨-,-,rfl⟩ | ⟨-,rfl⟩
  · exact queued
  · exact after _ queued
  · exact after _ queued

/-- A step of another job's task. -/
theorem spares_taskStep {outcome : Scheduler.Outcome} {now : ℚ}
    (other : (s.tasks k).job ≠ j) (taken : Scheduler.taskStep s k outcome now = some s') :
    Spares s s' j := by
  obtain ⟨-,-,tasks,jobs⟩ := Scheduler.taskStep_frame taken
  have apart (i : Nat) (own : (s.tasks i).job = j) : i ≠ k := by
    rintro rfl
    exact other own
  refine ⟨by rw [jobs j (Ne.symm other)],?_,fun i _ own => tasks i (apart i own),?_⟩
  · constructor
    · intro queued
      rcases Scheduler.taskStep_queue taken queued with old | ⟨own,_⟩
      · exact old
      · exact absurd own.symm other
    · exact fun queued => queued_taskStep queued taken
  · intro i alive own
    rw [(Scheduler.taskStep_outside taken).job i] at own
    exact tasks i (apart i own)

/-- Where a job with an unfinished task is. -/
theorem At.of_task (place : At s j thrown r) (single : Scheduler.Single s)
    (own : (s.tasks k).job = j) (alive : (s.tasks k).live = true) :
    ((s.tasks k).phase = .unstarted ∧ r.job = .unstarted ∧
        r.halted = (s.tasks k).cancelRequested ∧ thrown = false) ∨
      ((s.tasks k).phase = .suspended ∧ r.job = .fetching ∧
        r.halted = ((s.tasks k).cancelRequested || thrown)) := by
  subst own
  cases place with
  | queued here => exact absurd here (single.unqueued alive)
  | unstarted i mine phase job asked fresh =>
    obtain rfl := single.unique alive (live_unstarted phase) mine
    exact .inl ⟨phase,job,asked,fresh⟩
  | body i mine phase job asked =>
    obtain rfl := single.unique alive (live_suspended phase) mine
    exact .inr ⟨phase,job,asked⟩
  | gone _ unheld => exact absurd rfl (unheld k alive)

/-- The job's task has ended. -/
theorem At.ended (single : Scheduler.Single s) (own : (s.tasks k).job = j)
    (alive : (s.tasks k).live = true) (job : r.job = .ended) :
    At (Scheduler.endUnstarted s k) j thrown r := by
  subst own
  refine .gone (single.unqueued alive) (fun i living mine => ?_) job
  by_cases same : i = k
  · subst same
    simp [Scheduler.endUnstarted,Scheduler.State.setTask,Scheduler.Task.live] at living
  · simp only [Scheduler.endUnstarted,Scheduler.State.setTask,Function.update_of_ne same]
      at living mine
    exact same (single.unique alive living mine)

theorem settle_future (final : Scheduler.FutureState) :
    ((s.settle j final).jobs j).future = (s.jobs j).future.settle final := by
  simp [Scheduler.State.settle,Scheduler.State.setJob]

/-- The body has been called; its step ends as the orchestrator's stream may end. -/
theorem body_follows {outcome : Scheduler.Outcome} {now : ℚ} {told : Bool}
    (allowed : ∀ move, streams outcome move = true → may move = true)
    (single : Scheduler.Single s) (unmarked : j ∉ s.preempting) (own : (s.tasks k).job = j)
    (alive : (s.tasks k).live = true) (future : Resolves (s.jobs j).future (o.turns t).future)
    (task : (o.turns t).task = .streaming) (job : (o.turns t).job = .fetching)
    (asked : (o.turns t).halted = told)
    (heard : told = true → outcome = .suspends ∨ outcome = .cancelled)
    (unheard : told = false → outcome ≠ .cancelled) :
    Follows may t o (Scheduler.afterFactory s k outcome now) j told := by
  have ends (final : Outcome) (given : Scheduler.FutureState) (same : Resolves given final)
      (move : JobOp) (of : streams outcome move = true) (taken : jobStep t o move = some (o.modify t fun r => { r with
        job := .ended
        future := if r.future = .pending then final else r.future })) :
      Follows may t o ((Scheduler.endUnstarted s k).settle j given) j told := by
    refine Follows.move move (allowed move of) taken (Sees.follows ?_)
    rw [Orchestrator.State.modify_same]
    refine ⟨(At.ended single own alive rfl).setJob _,?_,task⟩
    rw [settle_future]
    exact resolves_settle future same
  have calm (final : outcome ≠ .suspends) (apart : outcome ≠ .cancelled) :
      (o.turns t).halted = false := by
    rw [asked]
    by_contra truth
    exact (heard (by simpa using truth)).elim final apart
  cases outcome with
  | suspends =>
    refine Sees.follows ⟨.body k ?_ ?_ job ?_,future,task⟩
    · simpa [Scheduler.afterFactory,Scheduler.State.setTask] using own
    · simp [Scheduler.afterFactory,Scheduler.State.setTask]
    · simpa [Scheduler.afterFactory,Scheduler.State.setTask] using asked
  | returns =>
    have running := calm (by decide) (by decide)
    rw [show Scheduler.afterFactory s k .returns now =
      (Scheduler.endUnstarted s k).settle j .result by rw [← own]; rfl]
    refine ends .result .result trivial (.llmEnds .result) rfl ?_
    simp [jobStep,Orchestrator.step,job,running,Orchestrator.llmEnds]
  | raises =>
    have running := calm (by decide) (by decide)
    rw [show Scheduler.afterFactory s k .raises now =
      (Scheduler.endUnstarted s k).settle j .exception by rw [← own]; rfl]
    refine ends .failed .exception trivial (.llmEnds .failed) rfl ?_
    simp [jobStep,Orchestrator.step,job,running,Orchestrator.llmEnds]
  | cancelled =>
    have halted : (o.turns t).halted = true := by
      rw [asked]
      by_contra calm
      exact unheard (by simpa using calm) rfl
    have unwound : Scheduler.afterFactory s k .cancelled now =
        (Scheduler.endUnstarted s k).settle j .cancelled := by
      subst own
      exact if_neg unmarked
    rw [unwound]
    refine ends .cancelled .cancelled trivial .jobResumes rfl ?_
    simp [jobStep,Orchestrator.jobResumes,job,halted,Orchestrator.jobCancelled]

/-- A step of the job's own task. -/
theorem ownStep_follows {outcome : Scheduler.Outcome} {now : ℚ}
    (allowed : ∀ move, streams outcome move = true → may move = true) (single : Scheduler.Single s)
    (unmarked : j ∉ s.preempting) (own : (s.tasks k).job = j)
    (tamed : tame s j thrown (.taskStep k outcome now) = true)
    (taken : Scheduler.taskStep s k outcome now = some s') (sees : Sees s j thrown (o.turns t)) :
    Follows may t o s' j (thrownAfter s j thrown (.taskStep k outcome now)) := by
  have alive := (Scheduler.taskStep_frame taken).1
  simp only [tame,own,if_true] at tamed
  rcases Scheduler.taskStep_cases taken with ⟨fresh,flag,rfl,rfl⟩ | ⟨fresh,flag,rfl⟩ | ⟨inside,rfl⟩
  · -- cancelled before the first step: the body is never entered
    rcases sees.place.of_task single own alive with ⟨-,job,halted,-⟩ | ⟨other,-⟩
    · have move : jobStep t o .jobResumes =
          some (o.modify t fun r => { r with job := .ended }) := by
        simp [jobStep,Orchestrator.jobResumes,job,halted,flag]
      refine Follows.move .jobResumes (allowed _ (resuming _)) move (Sees.follows ?_)
      rw [Orchestrator.State.modify_same]
      exact ⟨.ended single own alive rfl,sees.future,sees.task⟩
    · rw [fresh] at other
      cases other
  · rcases sees.place.of_task single own alive with ⟨-,job,halted,rfl⟩ | ⟨other,-⟩
    · have move : jobStep t o .jobResumes =
          some (o.modify t fun r => { r with job := .fetching }) := by
        simp [jobStep,Orchestrator.jobResumes,job,halted,flag]
      refine Follows.move .jobResumes (allowed _ (resuming _)) move ?_
      simp only [flag,Bool.or_self,Bool.false_eq_true,↓reduceIte,Bool.not_eq_true',
        beq_eq_false_iff_ne] at tamed
      have called : Spares s (Scheduler.invoke s k) j := spares_awaited _ rfl
      have untold : thrownAfter s j false (.taskStep k outcome now) = false := by
        simp [thrownAfter,fresh]
      rw [untold]
      refine body_follows allowed (single_same single (Scheduler.SamePlaces.setJob _ _ _)) unmarked own
        alive ?_ ?_ ?_ ?_ (fun told => absurd told (by decide)) fun _ => tamed
      · rw [Orchestrator.State.modify_same,called.future]
        exact sees.future
      · rw [Orchestrator.State.modify_same]
        exact sees.task
      · rw [Orchestrator.State.modify_same]
      · rw [Orchestrator.State.modify_same]
        exact halted.trans flag
    · rw [fresh] at other
      cases other
  · rcases sees.place.of_task single own alive with ⟨other,-⟩ | ⟨-,job,halted⟩
    · rw [inside] at other
      cases other
    · have told : thrownAfter s j thrown (.taskStep k outcome now) =
          (thrown || (s.tasks k).cancelRequested) := by simp [thrownAfter,own,inside]
      rw [told]
      refine body_follows allowed single unmarked own alive sees.future sees.task job
        (by rw [halted,Bool.or_comm]) (fun truth => ?_) (fun calm => ?_)
      · simpa [truth] using tamed
      · simpa [calm] using tamed

/-! ## Runs -/

/-- What the scheduler keeps of a chat job once it is submitted. -/
structure Chat (s : Scheduler.State) (j : Nat) : Prop where
  budget : Scheduler.Budget s
  issued : j < s.nextSeq
  effectful : (s.jobs j).preemptible = false

theorem Chat.unmarked (chat : Chat s j) : j ∉ s.preempting := fun marked => by
  have pure := (chat.budget.marks j marked).2
  rw [chat.effectful] at pure
  cases pure

theorem Chat.step {op : Scheduler.Op} (chat : Chat s j)
    (taken : Scheduler.step cfg s op = some s') : Chat s' j := by
  have first : run (Scheduler.step cfg) s [op] = some s' := run_cons_iff.mpr ⟨s',taken,rfl⟩
  obtain ⟨issued,kind⟩ := Scheduler.run_issued chat.budget chat.issued first
  exact ⟨Scheduler.step_budget chat.budget taken,issued,
    (Scheduler.Job.preemptible_of_kind kind).trans chat.effectful⟩

/-- Every step of the scheduler is followed by moves that the step accounts for. -/
theorem step_follows {op : Scheduler.Op} (chat : Chat s j)
    (taken : Scheduler.step cfg s op = some s') (tamed : tame s j thrown op = true)
    (sees : Sees s j thrown (o.turns t)) :
    Follows (during s j op) t o s' j (thrownAfter s j thrown op) := by
  have single := chat.budget.toSingle
  cases op with
  | submit prio isPure turnId now =>
    cases taken
    exact (sees.spared (spares_submit chat.issued prio isPure turnId now)).follows
  | worker now => exact worker_follows rfl single chat.effectful taken sees
  | taskStep k outcome now =>
    by_cases own : (s.tasks k).job = j
    · refine ownStep_follows (fun move of => ?_) single chat.unmarked own tamed taken sees
      simp [during,own,of]
    · have untold : thrownAfter s j thrown (.taskStep k outcome now) = thrown := by
        simp [thrownAfter,own]
      rw [untold]
      exact (sees.spared (spares_taskStep own taken)).follows
  | cancelTurn turn =>
    cases taken
    exact cancelTurn_follows single (fun hit => by simp [during,hit]) sees
  | cancelSubmit i =>
    obtain ⟨-,-,rfl⟩ := Scheduler.cancelSubmit_cases taken
    exact cancelSubmit_follows (fun own => by simp [during,own]) sees
  | submitResumes i =>
    obtain ⟨-,-,-,rfl⟩ := Scheduler.submitResumes_cases taken
    exact submitResumes_follows single (fun own => by simp [during,own]) sees

/-- A run in which the job's body is tame, from where `thrown` tells what it has heard. -/
def Tame (cfg : Config) (j : Nat) : Bool → Scheduler.State → List Scheduler.Op → Bool
  | _,_,[] => true
  | thrown,s,op :: ops =>
    tame s j thrown op && match Scheduler.step cfg s op with
      | some s' => Tame cfg j (thrownAfter s j thrown op) s' ops
      | none => true

/-- Along the run each operation is followed by moves that it accounts for, after which the
turn sees the job as the scheduler has it. -/
def Followed (cfg : Config) (j t : Nat) :
    Bool → Scheduler.State → State → List Scheduler.Op → Prop
  | thrown,s,o,[] => Sees s j thrown (o.turns t)
  | thrown,s,o,op :: ops =>
    Sees s j thrown (o.turns t) ∧ ∃ moves u s',
      Scheduler.step cfg s op = some s' ∧ (∀ move ∈ moves, during s j op move = true) ∧
        run (jobStep t) o moves = some u ∧ Followed cfg j t (thrownAfter s j thrown op) s' u ops

theorem run_followed {ops : List Scheduler.Op} (chat : Chat s j)
    (reached : run (Scheduler.step cfg) s ops = some s') (tamed : Tame cfg j thrown s ops = true)
    (sees : Sees s j thrown (o.turns t)) : Followed cfg j t thrown s o ops := by
  induction ops generalizing s o thrown with
  | nil => exact sees
  | cons op ops ih =>
    obtain ⟨u,taken,rest⟩ := run_cons_iff.mp reached
    simp only [Tame,taken,Bool.and_eq_true] at tamed
    obtain ⟨moves,v,mays,moved,seen⟩ := step_follows chat taken tamed.1 sees
    exact ⟨sees,moves,v,u,taken,mays,moved,ih (chat.step taken) rest tamed.2 seen⟩

/-- From the submission of a turn's stream on, a run of the scheduler in which the job's body is
tame is followed, operation by operation, by the orchestrator's model of that job. -/
theorem job_followed (cfg : Config) (before after : List Scheduler.Op) (s s' : Scheduler.State)
    (o : State) (t : Nat) (now : ℚ)
    (reached : run (Scheduler.step cfg) Scheduler.init before = some s)
    (pending : (o.turns t).future = .pending) (calm : (o.turns t).halted = false)
    (ran : run (Scheduler.step cfg) (Scheduler.submit s prioChat true (some t) now) after = some s')
    (tamed : Tame cfg s.nextSeq false (Scheduler.submit s prioChat true (some t) now) after =
      true) :
    Followed cfg s.nextSeq t false (Scheduler.submit s prioChat true (some t) now)
      (Orchestrator.openStream o t) after := by
  have budget := Scheduler.run_budget Scheduler.init_budget reached
  have chat : Chat (Scheduler.submit s prioChat true (some t) now) s.nextSeq :=
    ⟨Scheduler.submit_budget budget prioChat true (some t) now,Nat.lt_succ_self _,by
      simp [Scheduler.submit,Scheduler.Job.preemptible,prioChat,Scheduler.prioEmbeddings]⟩
  refine run_followed chat ran tamed ?_
  simp only [Orchestrator.openStream,Orchestrator.State.modify_same]
  refine ⟨.queued ?_ rfl calm rfl,?_,rfl⟩
  · simp [Scheduler.submit]
  · simp [Scheduler.submit,pending,Resolves]

/-- The turn's stream waits for a slot, starts, and is cancelled. -/
def streamsThenCancelled : List Scheduler.Op := [
  .taskStep 0 .cancelled 2,
  .worker 2,
  .taskStep 1 .returns 3,
  .taskStep 2 .returns 3,
  .worker 3,
  .taskStep 3 .suspends 3,
  .taskStep 3 .suspends 4,
  .cancelTurn 3,
  .taskStep 3 .suspends 5,
  .cancelSubmit 3,
  .submitResumes 3,
  .taskStep 3 .cancelled 5]

theorem streamsThenCancelled_followed :
    ∃ s, run (Scheduler.step Scheduler.standard) Scheduler.init Scheduler.preemptionInFlight =
        some s ∧
      Followed Scheduler.standard s.nextSeq 3 false
        (Scheduler.submit s prioChat true (some (3 : Nat)) 2)
        (Orchestrator.openStream (Orchestrator.init true Orchestrator.emptyStore) 3) streamsThenCancelled := by
  have eval : ∃ s, run (Scheduler.step Scheduler.standard) Scheduler.init
      Scheduler.preemptionInFlight = some s ∧
      ((run (Scheduler.step Scheduler.standard)
          (Scheduler.submit s prioChat true (some (3 : Nat)) 2) streamsThenCancelled).map fun _ =>
        Tame Scheduler.standard s.nextSeq false
          (Scheduler.submit s prioChat true (some (3 : Nat)) 2) streamsThenCancelled) =
        some true :=
    exists_of_eval (by decide +kernel)
  obtain ⟨s,reached,later⟩ := eval
  obtain ⟨s',ran,tamed⟩ := Option.map_eq_some_iff.mp later
  exact ⟨s,reached,job_followed Scheduler.standard Scheduler.preemptionInFlight
    streamsThenCancelled s s' (Orchestrator.init true Orchestrator.emptyStore) 3 2 reached rfl rfl ran tamed⟩

end GhostRunner.ChatJob
