import GhostRunner.OrchestratorSteps
import GhostRunner.TurnManager

/-! The orchestrator uses its turns as any caller of a `TurnManager` may. Its commands and the tasks
of its turns are the callers, and what it does besides is no more than the course of these tasks. -/
namespace GhostRunner.Orchestrator

/-! ## Two views of one state -/

def commandCaller (a : Nat) : Nat := 2 * a
def taskCaller (t : Nat) : Nat := 2 * t + 1

/-- A turn's task as `TurnManager` sees it. -/
def Turn.handle (r : Turn) : TurnManager.Task :=
  match r.task with
  | .absent => .absent
  | .ended => .done
  | _ => .running r.asked

def Turn.managed (r : Turn) : TurnManager.Turn := ⟨r.origin,r.owner,r.status.name,r.handle⟩

/-- The `turn` messages among the envelopes. -/
def notices (handed : List Envelope) : List TurnManager.Notice :=
  handed.filterMap fun env =>
    match env.payload,env.turn with
    | .turn event _ _ reason,some t => some ⟨t,event,reason⟩
    | _,_ => none

def CommandCall (command : Option Command) (call : TurnManager.Call) : Prop :=
  match command with
  | none => call.free = true
  | some (.superseding _ owner _) => call = .superseding .balloon owner
  | some (.starting t _) => call = .starting t
  | some (.cancelling _) => call = .cancelling

def TaskCall (task : Task) (call : TurnManager.Call) : Prop :=
  match task with
  | .finishing => call = .finishing
  | _ => call.free = true

/-- The manager that the orchestrator works with. It does not see messages. -/
structure Represents (s : State) (m : TurnManager.State) : Prop where
  counter : m.store.counter = s.store.counter
  rows : m.store.rows = s.store.rows
  current : m.current = s.current
  turns : ∀ t, m.turns t = (s.turns t).managed
  commands : ∀ a, CommandCall (s.commands a) (m.calls (commandCaller a))
  tasks : ∀ t, TaskCall (s.turns t).task (m.calls (taskCaller t))
  notified : m.notified = notices s.handed

theorem Represents.initial (tts : Bool) (store : Store) :
    Represents (init tts store) (TurnManager.init store) :=
  ⟨rfl,rfl,rfl,fun _ => rfl,fun _ => rfl,fun _ => rfl,rfl⟩

@[simp] theorem notices_append (first rest : List Envelope) :
    notices (first ++ rest) = notices first ++ notices rest :=
  List.filterMap_append

/-! ## Steps that the manager does not take part in -/

/-- The turn stays what it is to everyone but its task. -/
structure Remains (r r' : Turn) : Prop where
  origin : r'.origin = r.origin
  owner : r'.owner = r.owner
  status : r'.status = r.status
  task : r'.task ≠ .finishing

/-- A turn's task, or what works for it, goes on without the manager. -/
structure Leaves (s u : State) (t : Nat) : Prop where
  keeps : Keeps s u
  alone : Alone s u t
  remains : Remains (s.turns t) (u.turns t)
  notified : notices u.handed = notices s.handed

theorem Leaves.update {s u : State} {t : Nat} {r : Turn} (base : u.base = s.base)
    (current : u.current = s.current) (rows : u.store.rows = s.store.rows)
    (counter : u.store.counter = s.store.counter)
    (turns : u.turns = Function.update s.turns t r) (commands : u.commands = s.commands)
    (remains : Remains (s.turns t) r) (notified : notices u.handed = notices s.handed) :
    Leaves s u t :=
  ⟨⟨base,current,rows,counter⟩,.update turns commands,
    by rw [turns,Function.update_self]; exact remains,notified⟩

theorem Leaves.modify {s : State} {t : Nat} {change : Turn → Turn}
    (remains : Remains (s.turns t) (change (s.turns t))) : Leaves s (s.modify t change) t :=
  .update rfl rfl rfl rfl rfl rfl remains rfl

theorem Remains.trans {r r' r'' : Turn} (first : Remains r r') (second : Remains r' r'') :
    Remains r r'' :=
  ⟨second.origin.trans first.origin,second.owner.trans first.owner,
    second.status.trans first.status,second.task⟩

theorem Leaves.trans {s u v : State} {t : Nat} (first : Leaves s u t) (second : Leaves u v t) :
    Leaves s v t :=
  ⟨first.keeps.trans second.keeps,first.alone.trans second.alone,
    first.remains.trans second.remains,second.notified.trans first.notified⟩

/-- Before the turn changes, something changes that the manager does not see. -/
theorem Leaves.after {s u v : State} {t : Nat} (leaves : Leaves u v t) (keeps : Keeps s u)
    (turns : u.turns = s.turns) (commands : u.commands = s.commands)
    (handed : u.handed = s.handed) : Leaves s v t :=
  ⟨keeps.trans leaves.keeps,leaves.alone.of_eq turns commands,
    by rw [← turns]; exact leaves.remains,by rw [leaves.notified,handed]⟩

@[simp] theorem notices_state (state : Mascot) (turn : Option Nat) (message : String) :
    notices [stateEnvelope state turn message] = [] := rfl

@[simp] theorem notices_doneToken (t seq : Nat) : notices [doneToken t seq] = [] := rfl

@[simp] theorem notices_deltaToken (t seq : Nat) (delta : String) :
    notices [deltaToken t seq delta] = [] := rfl

theorem showError_leaves (s : State) (t : Nat) (message : String) :
    Leaves s (showError s t message) t :=
  .update rfl rfl rfl rfl rfl rfl ⟨rfl,rfl,rfl,by simp⟩ (by simp [showError])

theorem handle_leaves (s : State) (t : Nat) (failure : Option String) :
    Leaves s (handle s t failure) t := by
  simp only [handle]
  split
  · exact .modify ⟨rfl,rfl,rfl,by simp⟩
  · exact .modify ⟨rfl,rfl,rfl,by simp⟩
  · cases failure with
    | none => exact .update rfl rfl rfl rfl rfl rfl ⟨rfl,rfl,rfl,by simp⟩ rfl
    | some message => exact showError_leaves s t message

theorem startTurn_leaves (s : State) (t : Nat) (text : String) (stored : Bool) :
    Leaves s (startTurn s t text stored) t := by
  cases stored
  · exact handle_leaves s t _
  · exact .update rfl rfl rfl rfl rfl rfl ⟨rfl,rfl,rfl,by simp⟩ (by simp [startTurn])

theorem storeReply_leaves (s : State) (t : Nat) (stored : Bool) :
    Leaves s (storeReply s t stored) t := by
  simp only [storeReply]
  cases stored
  · exact (handle_leaves _ t _).after ⟨rfl,rfl,rfl,rfl⟩ rfl rfl rfl
  · simp only [if_true]
    split
    · exact .update rfl rfl rfl rfl rfl rfl ⟨rfl,rfl,rfl,by simp⟩ rfl
    · exact (showError_leaves _ t _).after ⟨rfl,rfl,rfl,rfl⟩ rfl rfl rfl
    · exact (handle_leaves _ t _).after ⟨rfl,rfl,rfl,rfl⟩ rfl rfl rfl
    · exact .update rfl rfl rfl rfl rfl rfl ⟨rfl,rfl,rfl,by simp⟩ (by simp [succeed])

theorem removeJob_remains {r : Turn} (working : r.task ≠ .finishing) : Remains r r.removeJob := by
  simp only [Turn.removeJob]
  split <;> exact ⟨rfl,rfl,rfl,working⟩

/-- A task goes on without the manager, or calls `finish`. -/
theorem resumeWith_leaves {s : State} {t : Nat} (stored : Bool) (wake : Wake)
    (working : (s.turns t).task ≠ .finishing) :
    Leaves s (resumeWith s t stored wake) t ∨
      ∃ status raised, status ≠ .active ∧ (∀ u, Leaves u (raised u) t) ∧
        resumeWith s t stored wake = finish s t status stored raised := by
  simp only [resumeWith]
  split
  · exact .inl (.modify ⟨rfl,rfl,rfl,by simp⟩)
  · exact .inl (startTurn_leaves ..)
  · exact .inl (.update rfl rfl rfl rfl rfl rfl ⟨rfl,rfl,rfl,by simp⟩ rfl)
  · exact .inl (.update rfl rfl rfl rfl rfl rfl ⟨rfl,rfl,rfl,by simp⟩ (by simp [closeStream]))
  · exact .inl ((Leaves.modify (removeJob_remains working)).trans (handle_leaves ..))
  · exact .inl (handle_leaves ..)
  · exact .inl (handle_leaves ..)
  · exact .inl (storeReply_leaves ..)
  · exact .inl (.update rfl rfl rfl rfl rfl rfl ⟨rfl,rfl,rfl,by simp⟩ (by simp [succeed]))
  · exact .inl (showError_leaves ..)
  · exact .inr ⟨_,_,by decide,fun u => handle_leaves u t _,rfl⟩
  · exact .inl (.update rfl rfl rfl rfl rfl rfl ⟨rfl,rfl,rfl,by simp⟩ rfl)
  · exact .inl (showError_leaves ..)
  · exact .inr ⟨_,_,by decide,fun u => .modify ⟨rfl,rfl,rfl,by simp⟩,rfl⟩
  · exact .inl (.modify ⟨rfl,rfl,rfl,by simp⟩)
  · next finishing => exact absurd finishing working
  · simp only [decay]
    split
    · exact .inl (.update rfl rfl rfl rfl rfl rfl ⟨rfl,rfl,rfl,by simp⟩ (by simp))
    · exact .inl (.modify ⟨rfl,rfl,rfl,by simp⟩)
  · exact .inl (.modify ⟨rfl,rfl,rfl,by simp⟩)
  · exact .inl (handle_leaves ..)

/-! ## The manager follows -/

theorem taskCall_iff {task : Task} {call : TurnManager.Call} (working : task ≠ .finishing) :
    TaskCall task call ↔ call.free = true := by
  cases task with
  | finishing => exact absurd rfl working
  | _ => rfl

/-- The manager's view after some of its own steps. -/
def Followed (m : TurnManager.State) (u : State) : Prop :=
  ∃ ops n, Machine.run TurnManager.step m ops = some n ∧ Represents u n

theorem Followed.step {m n : TurnManager.State} {u : State} (op : TurnManager.Op)
    (taken : TurnManager.step m op = some n) (followed : Followed n u) : Followed m u := by
  obtain ⟨ops,last,reached,represents⟩ := followed
  exact ⟨op :: ops,last,Machine.run_cons_iff.mpr ⟨n,taken,reached⟩,represents⟩

theorem Represents.followed {s : State} {m : TurnManager.State} (represents : Represents s m) :
    Followed m s := ⟨[],m,rfl,represents⟩

theorem Leaves.followed {s u : State} {t : Nat} {m : TurnManager.State} (leaves : Leaves s u t)
    (working : (s.turns t).task ≠ .finishing) (represents : Represents s m) : Followed m u := by
  refine .step (.task t (u.turns t).handle) rfl (Represents.followed ?_)
  have others (v : Nat) (other : v ≠ t) := leaves.alone.turns v other
  refine ⟨represents.counter.trans leaves.keeps.counter.symm,
    represents.rows.trans leaves.keeps.rows.symm,
    represents.current.trans leaves.keeps.current.symm,fun v => ?_,fun a => ?_,fun v => ?_,
    represents.notified.trans leaves.notified.symm⟩
  · by_cases same : v = t
    · subst v
      obtain ⟨origin,owner,status,_⟩ := leaves.remains
      simp [TurnManager.State.modify,represents.turns,Turn.managed,origin,owner,status]
    · simp [TurnManager.State.modify,same,represents.turns,others v same]
  · rw [leaves.alone.commands]
    exact represents.commands a
  · by_cases same : v = t
    · subst same
      have free := (taskCall_iff working).1 (represents.tasks v)
      exact (taskCall_iff leaves.remains.task).2 free
    · rw [others v same]
      exact represents.tasks v

theorem callers_differ (a t : Nat) : commandCaller a ≠ taskCaller t := by
  simp only [commandCaller,taskCaller]
  omega

theorem taskCaller_inj {t v : Nat} : taskCaller v = taskCaller t ↔ v = t := by
  simp only [taskCaller]
  omega

theorem commandCaller_inj {a b : Nat} : commandCaller b = commandCaller a ↔ b = a := by
  simp only [commandCaller]
  omega

/-- One turn changes in both views, and its task may make a call or come back from one. -/
theorem Represents.turn {s u : State} {m n : TurnManager.State} {t : Nat}
    (represents : Represents s m) (counter : n.store.counter = u.store.counter)
    (rows : n.store.rows = u.store.rows) (current : n.current = u.current)
    (others : ∀ v, v ≠ t → u.turns v = s.turns v) (also : ∀ v, v ≠ t → n.turns v = m.turns v)
    (own : n.turns t = (u.turns t).managed) (commands : u.commands = s.commands)
    (call : TurnManager.Call) (calls : n.calls = Function.update m.calls (taskCaller t) call)
    (task : TaskCall (u.turns t).task call) (notified : n.notified = notices u.handed) :
    Represents u n := by
  refine ⟨counter,rows,current,fun v => ?_,fun a => ?_,fun v => ?_,notified⟩
  · by_cases same : v = t
    · subst same; exact own
    · rw [also v same,others v same]; exact represents.turns v
  · rw [commands,calls,Function.update_of_ne (callers_differ a t)]
    exact represents.commands a
  · by_cases same : v = t
    · subst same; rw [calls,Function.update_self]; exact task
    · rw [others v same,calls,Function.update_of_ne (fun h => same (taskCaller_inj.1 h))]
      exact represents.tasks v

theorem terminal_name {status : Status} (terminal : status ≠ .active) :
    TurnManager.terminal status.name = some status := by
  cases status with
  | active => exact absurd rfl terminal
  | _ => rfl

theorem done_name {status : Status} : status.name = "done" ↔ status = .done := by
  cases status <;> decide

theorem finish_followed {s : State} {m : TurnManager.State} {t : Nat} {status : Status}
    {raised : State → State} (stored : Bool) (terminal : status ≠ .active)
    (raises : ∀ u, Leaves u (raised u) t) (working : (s.turns t).task ≠ .finishing)
    (represents : Represents s m) : Followed m (finish s t status stored raised) := by
  have free := (taskCall_iff working).1 (represents.tasks t)
  have calls : TurnManager.step m (.finish (taskCaller t) t status.name stored) =
      some (TurnManager.finish m (taskCaller t) t status.name stored) := if_pos free
  refine .step _ calls ?_
  by_cases current : s.current = some t
  · have own : m.current = some t := represents.current.trans current
    simp only [finish,TurnManager.finish,current,own,if_true,ne_eq,not_true_eq_false,if_false,
      TurnManager.finishTurn,terminal_name terminal]
    cases stored
    · simp only [Bool.false_eq_true,if_false]
      refine (raises _).followed (by rw [State.modify_same]; exact working) ?_
      refine represents.turn (t := t) represents.counter represents.rows represents.current
        (fun v other => Function.update_of_ne other ..)
        (fun v other => Function.update_of_ne other ..) ?_ rfl _ rfl ?_ represents.notified
      · simp [TurnManager.State.setCall,TurnManager.State.modify,represents.turns,Turn.managed,
          Turn.handle]
      · rw [State.modify_same]
        exact (taskCall_iff working).2 rfl
    · simp only [if_true,done_name]
      refine .step (.task t (.running (s.turns t).asked)) rfl (Represents.followed ?_)
      refine represents.turn (t := t) represents.counter ?_ rfl
        (fun v other => ?_) (fun v other => ?_) ?_ rfl .finishing rfl ?_ ?_
      · show (m.store.finishTurn t status none).rows = (s.store.finishTurn t status none).rows
        simp only [Store.finishTurn,represents.rows]
      · simp [State.modify,other]
      · simp [TurnManager.State.modify,TurnManager.State.setCall,TurnManager.State.notify,other]
      · simp [TurnManager.State.modify,TurnManager.State.setCall,TurnManager.State.notify,
          represents.turns,State.modify,Turn.managed,Turn.handle]
      · simp [State.modify,TaskCall]
      · show m.notified ++ _ = notices (s.handed ++ _)
        rw [notices_append,represents.notified]
        rfl
  · have own : m.current ≠ some t := by rw [represents.current]; exact current
    simp only [finish,TurnManager.finish,current,own,if_false,ne_eq,not_false_eq_true,if_true]
    refine (Leaves.modify ⟨rfl,rfl,rfl,by simp⟩).followed working ?_
    exact represents.turn (t := t) represents.counter represents.rows represents.current
      (fun _ _ => rfl) (fun _ _ => rfl) (represents.turns t) rfl _ rfl
      ((taskCall_iff working).2 rfl) represents.notified

theorem taskResumes_followed {s u : State} {m : TurnManager.State} {t : Nat} {stored : Bool}
    (represents : Represents s m) (taken : taskResumes s t stored = some u) : Followed m u := by
  obtain ⟨wake,_,rfl⟩ := Option.map_eq_some_iff.mp taken
  by_cases working : (s.turns t).task = .finishing
  · have call : m.calls (taskCaller t) = .finishing := by
      have own := represents.tasks t
      rw [working] at own
      exact own
    have resumed : resumeWith s t stored wake =
        s.modify t fun r => { r with task := .holding } := by
      simp only [resumeWith,working]
    have returns : TurnManager.step m (.resumes (taskCaller t) true true) =
        some (m.setCall (taskCaller t) (.returned .none)) := by
      simp only [TurnManager.step,TurnManager.resumes,call]
    refine .step _ returns ?_
    rw [resumed]
    refine .step (.task t (.running (s.turns t).asked)) rfl (Represents.followed ?_)
    refine represents.turn (t := t) represents.counter represents.rows represents.current
      (fun v other => ?_) (fun v other => ?_) ?_ rfl _ rfl ?_ represents.notified
    · simp [other]
    · simp [TurnManager.State.modify,TurnManager.State.setCall,other]
    · simp [TurnManager.State.modify,TurnManager.State.setCall,represents.turns,Turn.managed,
        Turn.handle]
    · rw [State.modify_same]
      rfl
  · rcases resumeWith_leaves stored wake working with leaves | ⟨status,raised,terminal,raises,same⟩
    · exact leaves.followed working represents
    · rw [same]
      exact finish_followed stored terminal raises working represents

/-! ## What works for a turn -/

/-- Neither the manager nor the task sees a difference. -/
structure Unseen (r r' : Turn) : Prop where
  managed : r'.managed = r.managed
  task : r'.task = r.task

theorem Unseen.refl (r : Turn) : Unseen r r := ⟨rfl,rfl⟩

/-- The manager has no part in the step. -/
theorem Represents.unseen {s u : State} {m : TurnManager.State} (represents : Represents s m)
    (keeps : Keeps s u) (turns : ∀ v, Unseen (s.turns v) (u.turns v))
    (commands : u.commands = s.commands) (notified : notices u.handed = notices s.handed) :
    Represents u m := by
  refine ⟨represents.counter.trans keeps.counter.symm,represents.rows.trans keeps.rows.symm,
    represents.current.trans keeps.current.symm,fun v => ?_,fun a => ?_,fun v => ?_,
    represents.notified.trans notified.symm⟩
  · rw [(turns v).managed]; exact represents.turns v
  · rw [commands]; exact represents.commands a
  · rw [(turns v).task]; exact represents.tasks v

theorem unseen_update {s : State} {t : Nat} {r : Turn} (unseen : Unseen (s.turns t) r) (v : Nat) :
    Unseen (s.turns v) (Function.update s.turns t r v) := by
  by_cases same : v = t
  · subst same; rw [Function.update_self]; exact unseen
  · rw [Function.update_of_ne same]; exact .refl _

theorem removeJob_unseen (r : Turn) : Unseen r r.removeJob := by
  simp only [Turn.removeJob]
  split <;> exact ⟨rfl,rfl⟩

theorem cancelJob_unseen (r : Turn) : Unseen r r.cancelJob := by
  simp only [Turn.cancelJob]
  split
  · exact ⟨rfl,rfl⟩
  · exact removeJob_unseen r

/-- A job goes on. -/
theorem jobResumes_represents {s u : State} {m : TurnManager.State} {t : Nat}
    (represents : Represents s m) (taken : jobResumes s t = some u) : Represents u m := by
  have keeps := jobResumes_keeps taken
  simp only [jobResumes] at taken
  split at taken <;> cases taken
  all_goals
    exact represents.unseen keeps (unseen_update ⟨rfl,rfl⟩) rfl (by simp [sendDelta,jobCancelled])

theorem onDelta_represents {s : State} {m : TurnManager.State} (t : Nat) (delta : String)
    (represents : Represents s m) : Represents (onDelta s t delta) m := by
  simp only [onDelta]
  split
  · exact represents
  · split
    · exact represents.unseen ⟨rfl,rfl,rfl,rfl⟩ (unseen_update ⟨rfl,rfl⟩) rfl (by simp)
    · exact represents.unseen ⟨rfl,rfl,rfl,rfl⟩ (unseen_update ⟨rfl,rfl⟩) rfl (by simp [sendDelta])

theorem speechEnds_represents {s u : State} {m : TurnManager.State} {t : Nat}
    {failure : Option String} (represents : Represents s m)
    (taken : speechEnds s t failure = some u) : Represents u m := by
  obtain ⟨_,_,_,_,_,rfl⟩ := speechEnds_taken taken
  exact represents.unseen (.modify ..) (unseen_update ⟨rfl,rfl⟩) rfl rfl

/-! ## Commands -/

/-- A command makes a call, or comes back from one. -/
theorem Represents.command {s u : State} {m n : TurnManager.State} {a : Nat}
    {command : Option Command} {call : TurnManager.Call} (represents : Represents s m)
    (counter : n.store.counter = u.store.counter) (rows : n.store.rows = u.store.rows)
    (current : n.current = u.current) (turns : ∀ v, n.turns v = (u.turns v).managed)
    (commands : u.commands = Function.update s.commands a command)
    (calls : n.calls = Function.update m.calls (commandCaller a) call)
    (matching : CommandCall command call)
    (tasks : ∀ v, TaskCall (u.turns v).task (m.calls (taskCaller v)))
    (notified : n.notified = notices u.handed) : Represents u n := by
  refine ⟨counter,rows,current,turns,fun b => ?_,fun v => ?_,notified⟩
  · by_cases same : b = a
    · subst same
      rw [commands,calls,Function.update_self,Function.update_self]
      exact matching
    · rw [commands,calls,Function.update_of_ne same,
        Function.update_of_ne (fun h => same (commandCaller_inj.1 h))]
      exact represents.commands b
  · rw [calls,Function.update_of_ne (callers_differ a v).symm]
    exact tasks v

theorem cancelTask_task (r : Turn) : r.cancelTask.task = r.task := (cancelTask_stands r).task

theorem cancelTask_managed (r : Turn) :
    r.cancelTask.managed = { r.managed with task := r.managed.task.cancel } := by
  cases task : r.task with
  | speaking | stopping =>
    -- the request goes on to the worker if it runs; the manager does not see it there
    simp only [Turn.cancelTask,task]
    split <;> simp [Turn.managed,Turn.handle,task,TurnManager.Task.cancel]
  | _ => simp [Turn.cancelTask,Turn.managed,Turn.handle,task,TurnManager.Task.cancel]

/-- `begin` once no turn is active. -/
theorem start_represents {s : State} {m : TurnManager.State} (a owner : Nat) (text : String)
    (counted recorded : Bool) (represents : Represents s m)
    (fresh : (s.turns (s.store.counter + 1)).task ≠ .finishing) :
    Represents (beginTurn s a owner text counted recorded)
      (TurnManager.start m (commandCaller a) .balloon owner counted recorded) := by
  cases counted
  · exact represents.command represents.counter represents.rows represents.current
      represents.turns rfl rfl rfl represents.tasks represents.notified
  cases recorded
  · refine represents.command ?_ represents.rows represents.current represents.turns rfl rfl rfl
      represents.tasks represents.notified
    exact congrArg (· + 1) represents.counter
  · obtain ⟨⟨counter,rows,messages,none_later⟩,current,turns,calls,notified⟩ := m
    cases (represents.counter : counter = s.store.counter)
    cases (represents.rows : rows = s.store.rows)
    refine represents.command (a := a) rfl rfl rfl (fun v => ?_) rfl rfl rfl (fun v => ?_) ?_
    · have managed : turns v = (s.turns v).managed := represents.turns v
      by_cases new : v = s.store.counter + 1
      · subst v; simp [beginTurn,TurnManager.start,Store.nextTurnId,TurnManager.State.setCall,
          TurnManager.State.notify,Turn.managed,Turn.handle,Status.name]
      · simp [beginTurn,TurnManager.start,Store.nextTurnId,TurnManager.State.setCall,
          TurnManager.State.notify,new,managed]
    · have task := represents.tasks v
      by_cases new : v = s.store.counter + 1
      · subst v
        have free := (taskCall_iff fresh).1 task
        simpa [beginTurn,Store.nextTurnId,TaskCall] using free
      · simpa [beginTurn,Store.nextTurnId,new] using task
    · show notified ++ _ = notices (s.handed ++ _)
      rw [notices_append,← represents.notified]
      rfl

theorem closed_represents {s : State} {m : TurnManager.State} {a t : Nat} {reason : String}
    {command : Option Command} {call : TurnManager.Call} (represents : Represents s m)
    (matching : CommandCall command call) :
    Represents ((cancel s t reason true).setCommand a command)
      ((TurnManager.closed m t reason).setCall (commandCaller a) call) := by
  refine represents.command (a := a) represents.counter ?_ rfl (fun v => ?_) rfl rfl matching
    (fun v => ?_) ?_
  · show (m.store.finishTurn t .cancelled (some reason)).rows =
      (s.store.finishTurn t .cancelled (some reason)).rows
    simp only [Store.finishTurn,represents.rows]
  · by_cases same : v = t
    · subst same
      have own : (((cancel s v reason true).setCommand a command).turns v) =
          ({ s.turns v with status := .cancelled } : Turn).cancelTask := by simp [cancel]
      rw [own,cancelTask_managed]
      simp [TurnManager.closed,TurnManager.State.setCall,TurnManager.State.notify,
        TurnManager.State.modify,represents.turns,Turn.managed,Turn.handle,Status.name]
    · simp [TurnManager.closed,TurnManager.State.setCall,TurnManager.State.notify,
        TurnManager.State.modify,cancel,represents.turns,same]
  · have task := represents.tasks v
    by_cases same : v = t
    · subst same; simpa [cancel,cancelTask_task] using task
    · simpa [cancel,same] using task
  · show m.notified ++ _ = notices (s.handed ++ _)
    rw [notices_append,represents.notified]
    rfl

theorem failed_represents {s : State} {m : TurnManager.State} {a t : Nat} {reason : String}
    {error : TurnManager.Error} (represents : Represents s m) :
    Represents ((cancel s t reason false).setCommand a none)
      ((m.modify t fun r => { r with status := "cancelled" }).setCall (commandCaller a)
        (.raised error)) := by
  refine represents.command (a := a) represents.counter represents.rows represents.current
    (fun v => ?_) rfl rfl rfl (fun v => ?_) represents.notified
  · by_cases same : v = t
    · subst same
      simp [TurnManager.State.setCall,TurnManager.State.modify,cancel,represents.turns,
        Turn.managed,Turn.handle,Status.name]
    · simp [TurnManager.State.setCall,TurnManager.State.modify,cancel,represents.turns,same]
  · have task := represents.tasks v
    by_cases same : v = t
    · subst same; simpa [cancel] using task
    · simpa [cancel,same] using task

theorem chatSend_followed {s : State} {m : TurnManager.State} {a owner : Nat} {text : String}
    {stored counted recorded : Bool} (represents : Represents s m) (unused : s.commands a = none)
    (fresh : (s.turns (s.store.counter + 1)).task ≠ .finishing) :
    Followed m (chatSend s a owner text stored counted recorded) := by
  have free : (m.calls (commandCaller a)).free = true := by
    have command := represents.commands a
    rw [unused] at command
    exact command
  refine .step (.beginTurn (commandCaller a) .balloon owner stored counted recorded) (if_pos free)
    (Represents.followed ?_)
  have active_iff (t : Nat) : (m.turns t).status = "active" ↔ (s.turns t).status = .active := by
    rw [represents.turns]
    simp only [Turn.managed]
    cases (s.turns t).status <;> decide
  rcases chatSend_cases s a owner text stored counted recorded with
    ⟨t,current,active,same⟩ | ⟨idle,same⟩ <;> rw [same]
  · have own : m.current = some t := represents.current.trans current
    have also := (active_iff t).2 active
    cases stored
    · have fails : TurnManager.cancel m t "superseded" none false = _ :=
        TurnManager.cancel_fails own rfl "superseded"
      simp only [TurnManager.beginTurn,own,also,if_true,fails]
      exact failed_represents represents
    · have works : TurnManager.cancel m t "superseded" none true = _ :=
        TurnManager.cancel_works own rfl "superseded"
      simp only [TurnManager.beginTurn,own,also,if_true,works]
      exact closed_represents represents rfl
  · have starts : TurnManager.beginTurn m (commandCaller a) .balloon owner stored counted recorded =
        TurnManager.start m (commandCaller a) .balloon owner counted recorded := by
      cases current : m.current with
      | none => simp only [TurnManager.beginTurn,current]
      | some t =>
        have inactive : (m.turns t).status ≠ "active" := fun active =>
          idle t (represents.current.symm.trans current) ((active_iff t).1 active)
        exact TurnManager.beginTurn_inactive current inactive ..
    rw [starts]
    exact start_represents a owner text counted recorded represents fresh

theorem Represents.idle_command {s : State} {m : TurnManager.State} {a : Nat}
    (represents : Represents s m) (unused : s.commands a = none) :
    (m.calls (commandCaller a)).free = true := by
  have command := represents.commands a
  rw [unused] at command
  exact command

/-- The manager refuses a call, or has nothing to do for it. -/
theorem Represents.refused {s : State} {m : TurnManager.State} {a : Nat}
    (represents : Represents s m) (unused : s.commands a = none) {call : TurnManager.Call}
    (free : call.free = true) : Represents s (m.setCall (commandCaller a) call) := by
  have same : s.commands = Function.update s.commands a none :=
    (Function.update_eq_self_iff.mpr unused.symm).symm
  exact represents.command represents.counter represents.rows represents.current represents.turns
    same rfl free represents.tasks represents.notified

theorem turnCancel_followed {s : State} {m : TurnManager.State} {a session t : Nat}
    {stored : Bool} (represents : Represents s m) (unused : s.commands a = none) :
    Followed m (turnCancel s a session t stored) := by
  refine .step (.cancel (commandCaller a) t "user_cancel" (some session) stored)
    (if_pos (represents.idle_command unused)) (Represents.followed ?_)
  have origin_owner : (m.turns t).mayCancel (some session) = true ↔
      session = (s.turns t).owner ∨ (s.turns t).origin = .proactive := by
    simp [TurnManager.Turn.mayCancel,represents.turns,Turn.managed]
  simp only [turnCancel]
  by_cases current : s.current = some t
  · have own : m.current = some t := represents.current.trans current
    by_cases may : session = (s.turns t).owner ∨ (s.turns t).origin = .proactive
    · have also := origin_owner.2 may
      rw [if_pos ⟨current,may⟩]
      cases stored
      · simp only [TurnManager.cancelTurn,TurnManager.cancel_fails own also]
        exact failed_represents represents
      · simp only [TurnManager.cancelTurn,TurnManager.cancel_works own also]
        exact closed_represents represents rfl
    · have refuses : (m.turns t).mayCancel (some session) = false := by
        rw [← Bool.not_eq_true,origin_owner]; exact may
      rw [if_neg fun both => may both.2]
      simp only [TurnManager.cancelTurn,TurnManager.cancel,own,refuses,ne_eq,not_true_eq_false,
        if_false,if_true]
      exact represents.refused unused rfl
  · have other : m.current ≠ some t := by rw [represents.current]; exact current
    rw [if_neg fun both => current both.1]
    simp only [TurnManager.cancelTurn,TurnManager.cancel,ne_eq,other,not_false_eq_true,if_true]
    exact represents.refused unused rfl

theorem cancelJob_represents {s : State} {m : TurnManager.State} (represents : Represents s m)
    (t : Nat) : Represents (s.modify t Turn.cancelJob) m :=
  represents.unseen (.modify ..) (unseen_update (cancelJob_unseen _)) rfl rfl

theorem createTask_followed {s : State} {m : TurnManager.State} {a t : Nat} {text : String}
    (represents : Represents s m) (waits : s.commands a = some (.starting t text))
    (absent : (s.turns t).task = .absent) : Followed m (createTask s a t text) := by
  have call : m.calls (commandCaller a) = .starting t := by
    have command := represents.commands a
    rw [waits] at command
    exact command
  have returns : TurnManager.step m (.resumes (commandCaller a) true true) =
      some (m.setCall (commandCaller a) (.returned (.turn t))) := by
    simp only [TurnManager.step,TurnManager.resumes,call]
  refine .step _ returns ?_
  refine .step (.task t (.running (s.turns t).asked)) rfl (Represents.followed ?_)
  refine represents.command (a := a) represents.counter represents.rows represents.current
    (fun v => ?_) rfl rfl rfl (fun v => ?_) represents.notified
  · by_cases same : v = t
    · subst same
      simp [TurnManager.State.modify,TurnManager.State.setCall,createTask,State.setCommand,
        represents.turns,Turn.managed,Turn.handle]
    · simp [TurnManager.State.modify,TurnManager.State.setCall,createTask,State.setCommand,same,
        represents.turns]
  · have task := represents.tasks v
    by_cases same : v = t
    · subst same
      rw [absent] at task
      simpa [createTask,State.setCommand,TaskCall] using task
    · simpa [createTask,State.setCommand,same] using task

theorem commandResumes_followed {s u : State} {m : TurnManager.State} {a : Nat}
    {counted recorded : Bool} (represents : Represents s m) (starts : Starts s)
    (fresh : (s.turns (s.store.counter + 1)).task ≠ .finishing)
    (taken : step s (.commandResumes a counted recorded) = some u) : Followed m u := by
  have command := represents.commands a
  obtain ⟨t,owner,text,waits,rfl⟩ | ⟨t,text,waits,rfl⟩ | ⟨t,waits,rfl⟩ := commandResumes_taken taken
  · rw [waits] at command
    have call : m.calls (commandCaller a) = .superseding .balloon owner := command
    have starts : TurnManager.step m (.resumes (commandCaller a) counted recorded) =
        some (TurnManager.start m (commandCaller a) .balloon owner counted recorded) := by
      simp only [TurnManager.step,TurnManager.resumes,call]
    refine .step _ starts (Represents.followed ?_)
    refine start_represents a owner text counted recorded (cancelJob_represents represents t) ?_
    rw [(cancelJob_stand s t _).task]
    exact fresh
  · exact createTask_followed represents waits (starts.starting a t text waits).2
  · rw [waits] at command
    have call : m.calls (commandCaller a) = .cancelling := command
    have returns : TurnManager.step m (.resumes (commandCaller a) true true) =
        some (m.setCall (commandCaller a) (.returned (.bool true))) := by
      simp only [TurnManager.step,TurnManager.resumes,call]
    refine .step _ returns (Represents.followed ?_)
    have quiet := cancelJob_represents represents t
    exact quiet.command quiet.counter quiet.rows quiet.current quiet.turns rfl rfl rfl quiet.tasks
      quiet.notified

/-- Whatever the orchestrator does, the manager follows with steps of its own. -/
theorem step_followed {s u : State} {m : TurnManager.State} {op : Op}
    (represents : Represents s m) (starts : Starts s) (unissued : Unissued s)
    (taken : step s op = some u) : Followed m u := by
  have fresh : (s.turns (s.store.counter + 1)).task ≠ .finishing := by
    rw [unissued _ (Nat.lt_succ_self _)]
    decide
  cases op with
  | startup =>
    cases taken
    have unseen : Represents (setState s .idle none "") m :=
      represents.unseen ⟨rfl,rfl,rfl,rfl⟩ (fun _ => .refl _) rfl (by simp)
    exact unseen.followed
  | chatSend a owner text stored counted recorded =>
    obtain ⟨unused,rfl⟩ := chatSend_taken taken
    exact chatSend_followed represents unused fresh
  | turnCancel a session t stored =>
    obtain ⟨unused,rfl⟩ := turnCancel_taken taken
    exact turnCancel_followed represents unused
  | commandResumes a counted recorded =>
    exact commandResumes_followed represents starts fresh taken
  | taskResumes t stored => exact taskResumes_followed represents taken
  | dispatch t =>
    obtain ⟨_,rfl⟩ := dispatch_taken taken
    exact (represents.unseen (.modify ..) (unseen_update ⟨rfl,rfl⟩) rfl rfl).followed
  | jobResumes t => exact (jobResumes_represents represents taken).followed
  | delta t delta =>
    obtain ⟨_,_,rfl⟩ := delta_taken taken
    exact (onDelta_represents t delta represents).followed
  | llmEnds t outcome =>
    obtain ⟨_,_,_,_,rfl⟩ := llmEnds_taken taken
    exact (represents.unseen (.modify ..) (unseen_update ⟨rfl,rfl⟩) rfl rfl).followed
  | speechEnds t failure => exact (speechEnds_represents represents taken).followed

theorem run_followed {s u : State} {m : TurnManager.State} {ops : List Op}
    (represents : Represents s m) (starts : Starts s) (unissued : Unissued s)
    (reached : Machine.run step s ops = some u) : Followed m u := by
  induction ops generalizing s m with
  | nil => cases reached; exact represents.followed
  | cons op ops ih =>
    obtain ⟨v,taken,reached⟩ := Machine.run_cons_iff.mp reached
    obtain ⟨calls,n,followed,also⟩ := step_followed represents starts unissued taken
    obtain ⟨later,last,reached,also⟩ :=
      ih also (starts.step taken) (unissued.step starts taken) reached
    refine ⟨calls ++ later,last,?_,also⟩
    rw [Machine.run_append followed]
    exact reached

/-- Every state of the orchestrator is one that the operations of its `TurnManager` lead to. -/
theorem run_represented {s : State} {tts : Bool} {store : Store} {ops : List Op}
    (reached : Machine.run step (init tts store) ops = some s) :
    Followed (TurnManager.init store) s :=
  run_followed (.initial tts store) (.initial tts store) (fun _ _ => rfl) reached

/-- A turn is cancelled while it thinks, and the next is begun. -/
def begunAnew : List Op := [
  .startup,
  .chatSend 0 1 "a" true true true,
  .commandResumes 0 true true,
  .taskResumes 1 true,
  .turnCancel 0 1 1 true,
  .commandResumes 0 true true,
  .taskResumes 1 true,
  .chatSend 0 2 "b" true true true]

theorem begunAnew_represented :
    ∃ s, Machine.run step (init true emptyStore) begunAnew = some s ∧
      s.current = some 2 ∧ Followed (TurnManager.init emptyStore) s := by
  have eval : ∃ s, Machine.run step (init true emptyStore) begunAnew = some s ∧
      s.current = some 2 := Machine.exists_of_eval (by decide)
  obtain ⟨s,reached,current⟩ := eval
  exact ⟨s,reached,current,run_represented reached⟩

end GhostRunner.Orchestrator
