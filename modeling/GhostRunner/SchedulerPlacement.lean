import GhostRunner.SchedulerMoves

/-! No job is lost or held twice, as long as no task is cancelled before its first
step while its submitter still waits. Such a task ends without its body, so nothing
puts the job back and nothing settles its future. -/
namespace GhostRunner.Scheduler

variable {cfg : Config} {s t : State}

/-- Every submitted job whose future is pending is once in the queue, or held by one
unfinished task of `_running`, and not both. -/
def Placed (s : State) : Prop :=
  ∀ j < s.nextSeq, (s.jobs j).future = .pending →
    (s.queue.count j = 1 ∧ held s j = 0) ∨ (s.queue.count j = 0 ∧ held s j = 1)

instance : DecidablePred Placed := fun s => by unfold Placed; infer_instance

/-- A first step that finds the task cancelled and the job still awaited. -/
def EndsUnheard (s : State) : Op → Prop
  | .taskStep k _ _ => (s.tasks k).phase = .unstarted ∧ (s.tasks k).cancelRequested = true ∧
      (s.jobOf k).future = .pending
  | _ => False

instance (s : State) : DecidablePred (EndsUnheard s) := fun op => by
  cases op <;> unfold EndsUnheard <;> infer_instance

/-- The inductive form of `Placed`, which also covers jobs whose future is done. -/
structure Placement (s : State) : Prop extends Single s where
  pending : ∀ j < s.nextSeq, (s.jobs j).future = .pending → load s j = 1

theorem Placement.placed (inv : Placement s) : Placed s := by
  intro j issued pending
  have once := inv.pending j issued pending
  simp only [load] at once
  omega

theorem init_placement : Placement init where
  known := init_known
  atMostOnce := by intro j; simp [load,held,init]
  pending := by intro j issued; simp [init] at issued

theorem Placement.keep (inv : Placement s) (moves : Keeps s t) : Placement t where
  toSingle := inv.toSingle.keep moves
  pending := by
    intro j old pending
    obtain ⟨before,same⟩ := moves.kept j pending
    rw [same not_false,inv.pending j (moves.issued ▸ old) before]

theorem submit_placement (inv : Placement s) (prio : Int) (isPure : Bool) (turnId : Option Int)
    (now : ℚ) : Placement (submit s prio isPure turnId now) := by
  obtain ⟨fresh,loads⟩ := submit_load inv.known prio isPure turnId now
  refine ⟨submit_single inv.toSingle prio isPure turnId now,?_⟩
  intro j issued pending
  rw [loads]
  split
  · next same => rw [same,fresh]
  · next other =>
    simp only [submit,Function.update_of_ne other] at issued pending
    exact inv.pending j (by omega) pending

/-! ## Whole runs -/

theorem step_placement (inv : Placement s) {op : Op} (heard : ¬EndsUnheard s op)
    (taken : step cfg s op = some t) : Placement t := by
  rcases step_rearranges inv.known taken with
    ⟨_,_,_,_,rfl⟩ | moves | ⟨k,outcome,now,rfl,phase,flag,rfl⟩
  · exact submit_placement inv ..
  · exact inv.keep moves
  · have alive : (s.tasks k).live = true := by simp [Task.live,phase]
    have lost := endUnstarted_rearranges inv.known alive
    refine ⟨inv.toSingle.keep lost,?_⟩
    intro j old pending
    have other : (s.tasks k).job ≠ j := by
      rintro rfl; exact heard ⟨phase,flag,pending⟩
    rw [(lost.kept j pending).2 other]
    exact inv.pending j old pending

theorem endsUnheard_eq {k : Nat} {outcome : Outcome} {now : ℚ}
    (unheard : EndsUnheard s (.taskStep k outcome now))
    (taken : taskStep s k outcome now = some t) :
    (s.tasks k).live = true ∧ t = endUnstarted s k := by
  obtain ⟨phase,flag,_⟩ := unheard
  refine ⟨by simp [Task.live,phase],?_⟩
  rcases taskStep_cases taken with ⟨_,_,_,eq⟩ | ⟨_,unflagged,_⟩ | ⟨other,_⟩
  · exact eq
  · rw [flag] at unflagged; cases unflagged
  · rw [phase] at other; cases other

/-- The step that ends the task before its body leaves its pending job nowhere. -/
theorem endsUnheard_loses (inv : Placement s) {op : Op} (unheard : EndsUnheard s op)
    (taken : step cfg s op = some t) : ¬Placed t := by
  cases op with
  | taskStep k outcome now =>
    obtain ⟨alive,rfl⟩ := endsUnheard_eq unheard taken
    have pending := unheard.2.2
    intro placed
    have issued := inv.known.jobs k (inv.known.live k alive)
    have once := inv.pending _ issued pending
    have freed := endUnstarted_held inv.known alive (s.tasks k).job
    have found := placed _ issued pending
    simp only [load,if_true] at once freed
    change (s.queue.count _ = 1 ∧ _) ∨ (s.queue.count _ = 0 ∧ _) at found
    omega
  | submit | worker | cancelTurn | cancelSubmit | submitResumes => exact unheard.elim

/-- No job is lost or duplicated in a run exactly when no task of the run takes its
first step already cancelled with its job still awaited. -/
theorem placed_throughout_iff (cfg : Config) (ops : List Op) (s : State)
    (reached : Machine.run (step cfg) init ops = some s) :
    Machine.Throughout (step cfg) Placed init ops ↔
      Machine.Meets (step cfg) (fun s op => ¬EndsUnheard s op) init ops :=
  Machine.throughout_iff_meets
    (fun _ _ _ inv heard taken => step_placement inv heard taken)
    (fun _ inv => inv.placed)
    (fun _ _ _ inv taken unheard => endsUnheard_loses inv (not_not.mp unheard) taken)
    init_placement reached

/-- The default scheduler: two slots, one of them reserved, one level of age a minute. -/
def standard : Config := ⟨2, 1, 60, by decide⟩

/-- A background job waits behind a chat job until it has aged past three levels; then
one dispatch starts it, starts a chat job, and preempts it for a second chat job. -/
def agedThenPreempted : List Op := [
  .submit prioChat true (some 1) 0,
  .worker 0,
  .taskStep 0 .suspends 0,
  .submit prioConsolidation true none 0,
  .submit prioChat true (some 2) 180,
  .submit prioChat true (some 3) 180,
  .taskStep 0 .returns 180,
  .worker 180,
  .taskStep 1 .cancelled 180]

/-- The preempted background job is in neither place, and its submitter still waits. -/
theorem agedThenPreempted_loses :
    ∃ s, Machine.run (step standard) init agedThenPreempted = some s ∧
      (s.jobs 1).future = .pending ∧ (s.jobs 1).awaiting = true ∧
      s.queue.count 1 = 0 ∧ held s 1 = 0 ∧ ¬Placed s := by
  have lost : ∃ s, Machine.run (step standard) init agedThenPreempted = some s ∧
      ((s.jobs 1).future = .pending ∧ (s.jobs 1).awaiting = true ∧
        s.queue.count 1 = 0 ∧ held s 1 = 0 ∧ ¬Placed s) :=
    Machine.exists_of_eval (by decide +kernel)
  exact lost

/-- The same preemption after the background job's first step: the job goes back to
the queue and is started again. -/
def startedThenPreempted : List Op := [
  .submit prioConsolidation true none 0,
  .worker 0,
  .taskStep 0 .suspends 0,
  .submit prioChat true (some 1) 1,
  .submit prioChat true (some 2) 1,
  .worker 1,
  .taskStep 0 .cancelled 1,
  .worker 1,
  .taskStep 1 .returns 2,
  .taskStep 2 .returns 2,
  .worker 2]

theorem startedThenPreempted_placed :
    Machine.Throughout (step standard) Placed init startedThenPreempted := by
  have completes : ∃ s, Machine.run (step standard) init startedThenPreempted = some s ∧ True :=
    Machine.exists_of_eval (by decide +kernel)
  obtain ⟨s,reached,_⟩ := completes
  exact (placed_throughout_iff standard startedThenPreempted s reached).mpr (by decide +kernel)

end GhostRunner.Scheduler
