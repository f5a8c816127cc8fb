import GhostRunner.TurnsForeground

/-! What a cancelled turn still shows. The task of a turn learns of the cancellation when it
goes on, its job only when `cancel_turn` or `_remove` reaches it, and a task that is created
after the cancellation never does. -/
namespace GhostRunner.Orchestrator

open Machine

/-- The envelope is the `cancelled` event of turn `t`. -/
def cancels (env : Envelope) (t : Nat) : Bool :=
  match env.payload with
  | .turn .cancelled .. => env.turn = some t
  | _ => false

/-- The envelope is a state or a token of turn `t`. -/
def shows (env : Envelope) (t : Nat) : Bool :=
  env.turn = some t && (env.type = .state || env.type = .token)

/-- Nothing of a turn is shown after its `cancelled` event has been handed over. -/
def Quiet (s : State) : Prop :=
  s.handed.Pairwise fun first later => ∀ t, cancels first t = true → shows later t = false

def announced (s : State) (t : Nat) : Bool := s.handed.any (cancels · t)

/-- Of a turn whose cancellation has been announced, no task takes its first step without
having been asked to stop, no handler goes on to its ERROR, and no job that nothing has
halted goes on from its RESPONDING. -/
def Hushes (s : State) : Op → Prop
  | .taskResumes t _ => announced s t = true →
    match (s.turns t).task with
    | .created _ => (s.turns t).asked = true
    | .stopping (some _) => False
    | _ => True
  | .jobResumes t => announced s t = true →
    match (s.turns t).job with
    | .responding _ => (s.turns t).halted = true
    | _ => True
  | _ => True

instance (s : State) : DecidablePred (Hushes s)
  | .taskResumes t _ => @instDecidableForall _ _ inferInstance <|
    match (s.turns t).task with
    | .created _ => instDecidableEqBool _ _
    | .stopping (some _) => instDecidableFalse
    | .stopping none | .absent | .thinking | .streaming | .closing | .speaking | .succeeding |
      .erring | .finishing | .holding | .idling | .ended => instDecidableTrue
  | .jobResumes t => @instDecidableForall _ _ inferInstance <|
    match (s.turns t).job with
    | .responding _ => instDecidableEqBool _ _
    | .absent | .queued | .unstarted | .fetching | .sending _ | .ended => instDecidableTrue
  | .startup | .chatSend .. | .turnCancel .. | .commandResumes .. | .dispatch .. | .delta .. |
    .llmEnds .. | .speechEnds .. => instDecidableTrue

/-- The task will not show anything more, unless it does so in a step that `Hushes` rules out. -/
def Turn.dying (r : Turn) : Bool :=
  r.asked || match r.task with
    | .absent | .created _ | .stopping _ | .ended => true
    | _ => false

/-! ## What a step hands over -/

/-- A step hands over no cancellation, and shows something of turn `who` at most. -/
def Mutters (s u : State) (who : Option Nat) : Prop :=
  ∃ added, u.handed = s.handed ++ added ∧
    ∀ env ∈ added, (∀ v, cancels env v = false) ∧ ∀ v, shows env v = true → who = some v

theorem Mutters.silent {s u : State} (who : Option Nat) (handed : u.handed = s.handed) :
    Mutters s u who := ⟨[],by simp [handed],fun _ mem => by cases mem⟩

theorem Mutters.one {s u : State} {who : Option Nat} {env : Envelope}
    (handed : u.handed = s.handed ++ [env]) (harmless : ∀ v, cancels env v = false)
    (owner : ∀ v, shows env v = true → who = some v) : Mutters s u who :=
  ⟨[env],handed,fun _ mem => by rw [List.mem_singleton.mp mem]; exact ⟨harmless,owner⟩⟩

/-- A state, whose turn is `turn`. -/
theorem Mutters.state {s u : State} {state : Mascot} {turn : Option Nat} {message : String}
    (handed : u.handed = s.handed ++ [stateEnvelope state turn message]) : Mutters s u turn :=
  .one handed (fun _ => rfl) fun v shown => by
    simp only [shows,stateEnvelope,Bool.and_eq_true] at shown
    exact of_decide_eq_true shown.1

theorem Mutters.event {s u : State} {t : Nat} {r : Turn} {event : TurnEvent}
    {reason : Option String} (who : Option Nat) (other : event ≠ .cancelled)
    (handed : u.handed = s.handed ++ [turnEnvelope t r event reason]) : Mutters s u who := by
  refine .one handed (fun v => ?_) fun v shown => ?_
  · cases event <;> first | rfl | exact (other rfl).elim
  · simp [shows,turnEnvelope,Envelope.type,Payload.type] at shown

theorem Mutters.of_eq {s u v : State} {who : Option Nat} (mutters : Mutters u v who)
    (handed : u.handed = s.handed) : Mutters s v who := by
  simp only [Mutters] at mutters ⊢
  rwa [handed] at mutters

theorem Mutters.announced {s u : State} {who : Option Nat} (mutters : Mutters s u who) (v : Nat) :
    announced u v = GhostRunner.Orchestrator.announced s v := by
  obtain ⟨added,handed,harmless⟩ := mutters
  simp only [GhostRunner.Orchestrator.announced,handed,List.any_append]
  have none : added.any (cancels · v) = false := by
    rw [List.any_eq_false]
    intro env mem
    simp [(harmless env mem).1 v]
  rw [none,Bool.or_false]

theorem Mutters.quiet {s u : State} {who : Option Nat} (mutters : Mutters s u who)
    (quiet : Quiet s) (fresh : ∀ v, who = some v → GhostRunner.Orchestrator.announced s v = false) :
    Quiet u := by
  obtain ⟨added,handed,harmless⟩ := mutters
  simp only [Quiet]
  rw [handed,List.pairwise_append]
  refine ⟨quiet,?_,?_⟩
  · refine List.Pairwise.imp_of_mem ?_ (List.pairwise_of_forall (R := fun _ _ => True) (by simp))
    intro first later mem _ _ v cancelled
    rw [(harmless first mem).1 v] at cancelled
    cases cancelled
  · intro first mem later new v cancelled
    by_contra shown
    have owner := (harmless later new).2 v (by simpa using shown)
    have none := fresh v owner
    rw [GhostRunner.Orchestrator.announced,List.any_eq_false] at none
    exact none first mem cancelled

theorem showError_mutters (s : State) (t : Nat) (message : String) :
    Mutters s (showError s t message) (some t) := .state rfl

theorem handle_mutters (s : State) (t : Nat) (failure : Option String) :
    Mutters s (handle s t failure) (some t) := by
  simp only [handle]
  split
  · exact .silent _ rfl
  · exact .silent _ rfl
  · cases failure
    · exact .silent _ rfl
    · exact .state rfl

theorem storeReply_mutters (s : State) (t : Nat) (stored : Bool) :
    Mutters s (storeReply s t stored) (some t) := by
  simp only [storeReply]
  cases stored
  · exact (handle_mutters _ t _).of_eq rfl
  · simp only [if_true]
    split
    · exact .silent _ rfl
    · exact .state rfl
    · exact (handle_mutters _ t _).of_eq rfl
    · exact .state rfl

theorem finish_mutters (s : State) (t : Nat) (status : Status) (stored : Bool)
    {raised : State → State} (raises : ∀ u, Mutters u (raised u) (some t)) :
    Mutters s (finish s t status stored raised) (some t) := by
  simp only [finish]
  split
  · cases stored
    · exact (raises _).of_eq rfl
    · exact .event _ (by decide) rfl
  · exact .silent _ rfl

/-- A task that goes on shows something of its own turn only. -/
theorem resumeWith_mutters (s : State) (t : Nat) (stored : Bool) (wake : Wake) :
    Mutters s (resumeWith s t stored wake) (some t) := by
  simp only [resumeWith]
  split
  · exact .silent _ rfl
  · cases stored
    · exact handle_mutters ..
    · exact .state rfl
  · exact .silent _ rfl
  · refine .one rfl (fun _ => rfl) fun v shown => ?_
    simpa [shows,doneToken,Envelope.type,Payload.type] using shown
  · exact (handle_mutters _ t _).of_eq rfl
  · exact handle_mutters ..
  · exact handle_mutters ..
  · exact storeReply_mutters ..
  · exact .state rfl
  · exact showError_mutters ..
  · exact finish_mutters s t _ stored fun u => handle_mutters u t _
  · exact .silent _ rfl
  · exact showError_mutters ..
  · exact finish_mutters s t _ stored fun u => .silent _ rfl
  · exact .silent _ rfl
  · exact .silent _ rfl
  · simp only [decay]
    split
    · refine .one rfl (fun _ => rfl) fun v shown => ?_
      simp [shows,stateEnvelope] at shown
    · exact .silent _ rfl
  · exact .silent _ rfl
  · exact handle_mutters ..

/-! ## Dying turns -/

theorem Stands.dying {r r' : Turn} (stands : Stands r r') (dying : r.dying = true) :
    r'.dying = true := by
  simp only [Turn.dying,stands.task,Bool.or_eq_true] at dying ⊢
  exact dying.imp stands.asked id

theorem Spares.dying {s u : State} (spares : Spares s u) {v : Nat}
    (dying : (s.turns v).dying = true) : (u.turns v).dying = true := by
  rcases spares.turns v with stands | ⟨_,new,_⟩
  · exact stands.dying dying
  · simp [Turn.dying,new]

theorem cancelTask_dying (r : Turn) : r.cancelTask.dying = true := by
  rcases cancelTask_asked r with asked | absent | ended
  · simp [Turn.dying,asked]
  · simp [Turn.dying,(cancelTask_stands r).task,absent]
  · simp [Turn.dying,(cancelTask_stands r).task,ended]

theorem onCancelled_dying (s : State) (t : Nat) :
    Mutters s (onCancelled s t) none ∧ ((onCancelled s t).turns t).dying = true := by
  simp only [onCancelled,handle]
  split
  · exact ⟨.silent _ rfl,by simp [Turn.dying]⟩
  · exact ⟨.silent _ rfl,by simp [Turn.dying]⟩
  · exact ⟨.silent _ rfl,by simp [unwind,Turn.dying]⟩

/-- A dying turn goes on in silence, and stays dying. -/
theorem resumeWith_dying {s : State} {t : Nat} {wake : Wake} (stored : Bool)
    (woken : (s.turns t).wake = some wake) (dying : (s.turns t).dying = true)
    (created : ∀ text, (s.turns t).task = .created text → (s.turns t).asked = true)
    (stopping : ∀ message, (s.turns t).task ≠ .stopping (some message)) :
    Mutters s (resumeWith s t stored wake) none ∧
      ((resumeWith s t stored wake).turns t).dying = true := by
  have ends : Mutters s (s.modify t fun r => { r with task := .ended }) none ∧
      ((s.modify t fun r => { r with task := .ended }).turns t).dying = true :=
    ⟨.silent _ rfl,by simp [Turn.dying]⟩
  cases task : (s.turns t).task
  case created text =>
    have asked := created text task
    simp only [Turn.wake,task,asked,if_true,Option.some.injEq] at woken
    subst woken
    simpa [resumeWith,task] using ends
  case stopping failure =>
    cases failure with
    | none => simp only [resumeWith,task]; exact ⟨.silent _ rfl,by simp [unwind,Turn.dying]⟩
    | some message => exact (stopping message task).elim
  case absent => simp [Turn.wake,task] at woken
  case ended => simp [Turn.wake,task] at woken
  all_goals have asked : (s.turns t).asked = true := by simpa [Turn.dying,task] using dying
  case thinking | closing | succeeding =>
    simp only [Turn.wake,task,asked,if_true,Option.some.injEq] at woken
    subst woken
    simp only [resumeWith,task]
    exact onCancelled_dying s t
  case streaming =>
    have cancelled : wake = .cancelled := by
      simp only [Turn.wake,task,asked] at woken
      split at woken <;> simp_all
    subst cancelled
    simp only [resumeWith,task]
    obtain ⟨mutters,dies⟩ := onCancelled_dying (s.modify t Turn.removeJob) t
    exact ⟨mutters.of_eq rfl,dies⟩
  case speaking =>
    have cancelled : wake = .cancelled := by
      simp only [Turn.wake,task,asked] at woken
      split at woken <;> simp_all
    subst cancelled
    simp only [resumeWith,task]
    exact onCancelled_dying s t
  case erring =>
    simp only [Turn.wake,task,asked,if_true,Option.some.injEq] at woken
    subst woken
    simpa [resumeWith,task] using ends
  case finishing =>
    simp only [resumeWith,task]
    exact ⟨.silent _ rfl,by simp [Turn.dying,asked]⟩
  case holding =>
    simp only [resumeWith,task,decay]
    split
    · exact ⟨.state rfl,by simp [Turn.dying,asked]⟩
    · exact ends
  case idling => simpa [resumeWith,task] using ends

/-! ## Runs -/

/-- A turn whose cancellation is announced has been let go of, and is dying. -/
structure Hushed (s : State) : Prop where
  owned : Owned s
  starts : Starts s
  gone : ∀ t, announced s t = true →
    s.current ≠ some t ∧ t ≤ s.store.counter ∧ (s.turns t).dying = true
  quiet : Quiet s

theorem Hushed.initial (tts : Bool) (store : Store) : Hushed (init tts store) :=
  ⟨Owned.initial tts store,Starts.initial tts store,by simp [announced,init],List.Pairwise.nil⟩

theorem step_current {s u : State} {op : Op} (taken : step s op = some u) :
    s.store.counter ≤ u.store.counter ∧
      ∀ v, u.current = some v → s.current = some v ∨ s.store.counter < v := by
  have change := step_foreground taken
  split at change
  · obtain ⟨owner,records⟩ := change
    refine ⟨by rw [records.counter]; exact Nat.le_succ _,fun v now => .inr ?_⟩
    rw [records.current] at now
    cases now
    rw [records.counter]
    exact Nat.lt_succ_self _
  · refine ⟨?_,fun v now => .inl (change.current now)⟩
    rcases change with keeps | skips | ⟨_,_,closes⟩
    · exact keeps.counter.ge
    · rw [skips.counter]; exact Nat.le_succ _
    · exact closes.counter.ge

theorem Owned.known {s : State} (inv : Owned s) {t : Nat} (current : s.current = some t) :
    t ≤ s.store.counter := by
  by_contra later
  have none := s.store.fresh t (by omega)
  have row := (inv.current t current).2
  simp [State.status,none] at row

theorem Hushed.mutters {s u : State} {op : Op} {who : Option Nat} (inv : Hushed s)
    (taken : step s op = some u) (mutters : Mutters s u who)
    (fresh : ∀ v, who = some v → announced s v = false)
    (dying : ∀ v, announced s v = true → (u.turns v).dying = true) : Hushed u where
  owned := inv.owned.step taken
  starts := inv.starts.step taken
  gone v told := by
    rw [mutters.announced] at told
    obtain ⟨other,known,_⟩ := inv.gone v told
    obtain ⟨counter,current⟩ := step_current taken
    refine ⟨fun now => ?_,known.trans counter,dying v told⟩
    rcases current v now with same | later
    · exact other same
    · omega
  quiet := mutters.quiet inv.quiet fresh

/-- A step that shows nothing of any turn. -/
theorem Hushed.silently {s u : State} {op : Op} (inv : Hushed s) (taken : step s op = some u)
    (mutters : Mutters s u none)
    (dying : ∀ v, announced s v = true → (u.turns v).dying = true) : Hushed u :=
  inv.mutters taken mutters (by intro v none; cases none) dying

/-- The current turn is cancelled, and its task is asked to stop. -/
theorem Hushed.cancelled {s u : State} {op : Op} {t : Nat} {r : Turn} {reason : Option String}
    (inv : Hushed s) (taken : step s op = some u) (was : s.current = some t)
    (handed : u.handed = s.handed ++ [turnEnvelope t r .cancelled reason])
    (current : u.current = none)
    (dying : ∀ v, v = t ∨ announced s v = true → (u.turns v).dying = true) : Hushed u where
  owned := inv.owned.step taken
  starts := inv.starts.step taken
  gone v told := by
    have which : v = t ∨ announced s v = true := by
      simp only [announced,handed,List.any_append,List.any_cons,List.any_nil,Bool.or_false,
        Bool.or_eq_true] at told
      rcases told with before | now
      · exact .inr before
      · exact .inl (Option.some.inj (of_decide_eq_true now)).symm
    refine ⟨by rw [current]; simp,?_,dying v which⟩
    have known : v ≤ s.store.counter := by
      rcases which with rfl | before
      · exact inv.owned.known was
      · exact (inv.gone v before).2.1
    exact known.trans (step_current taken).1
  quiet := by
    simp only [Quiet]
    rw [handed,List.pairwise_append]
    refine ⟨inv.quiet,List.pairwise_singleton _ _,?_⟩
    intro first _ later mem v _
    rw [List.mem_singleton.mp mem]
    simp [shows,turnEnvelope,Envelope.type,Payload.type]

theorem beginTurn_mutters (s : State) (a owner : Nat) (text : String) (counted recorded : Bool) :
    Mutters s (beginTurn s a owner text counted recorded) none := by
  cases counted
  · exact .silent _ rfl
  cases recorded
  · exact .silent _ rfl
  · exact .event _ (by decide) rfl

theorem sendDelta_mutters (s : State) (t : Nat) (delta : String) :
    Mutters s (sendDelta s t delta) (some t) := by
  refine .one rfl (fun _ => rfl) fun v shown => ?_
  simpa [shows,deltaToken,Envelope.type,Payload.type] using shown

theorem Hushed.onDelta {s : State} {t : Nat} {delta : String} (inv : Hushed s)
    (taken : step s (.delta t delta) = some (GhostRunner.Orchestrator.onDelta s t delta))
    (dying : ∀ v, announced s v = true →
      ((GhostRunner.Orchestrator.onDelta s t delta).turns v).dying = true) :
    Hushed (GhostRunner.Orchestrator.onDelta s t delta) := by
  by_cases current : s.current = some t
  · have mutters : Mutters s (GhostRunner.Orchestrator.onDelta s t delta) (some t) := by
      simp only [GhostRunner.Orchestrator.onDelta]
      split
      · exact .silent _ rfl
      · split
        · exact .state rfl
        · exact sendDelta_mutters s t delta
    refine inv.mutters taken mutters ?_ dying
    rintro v same
    cases same
    by_contra told
    exact (inv.gone t (by simpa using told)).1 current
  · have mutters : Mutters s (GhostRunner.Orchestrator.onDelta s t delta) none :=
      .silent none (by simp [GhostRunner.Orchestrator.onDelta,isObsolete,current])
    exact inv.silently taken mutters dying

theorem Hushed.jobResumes {s u : State} {t : Nat} (inv : Hushed s)
    (hushes : Hushes s (.jobResumes t)) (taken : step s (.jobResumes t) = some u)
    (dying : ∀ v, announced s v = true → (u.turns v).dying = true) : Hushed u := by
  have moved := taken
  simp only [step,GhostRunner.Orchestrator.jobResumes] at moved
  split at moved <;> cases moved
  case h_6 delta job halted =>
    refine inv.mutters taken (sendDelta_mutters s t delta) ?_ dying
    rintro v same
    cases same
    by_contra told
    have stops := hushes (by simpa using told)
    simp only [job] at stops
    rw [halted] at stops
    cases stops
  all_goals exact inv.silently taken (.silent none rfl) dying

theorem Hushed.taskResumes {s u : State} {t : Nat} {stored : Bool} (inv : Hushed s)
    (hushes : Hushes s (.taskResumes t stored)) (taken : step s (.taskResumes t stored) = some u) :
    Hushed u := by
  obtain ⟨wake,woken,rfl⟩ := Option.map_eq_some_iff.mp taken
  have others : ∀ v, v ≠ t → announced s v = true →
      ((resumeWith s t stored wake).turns v).dying = true := by
    intro v other told
    rw [(resumeWith_alone s t stored wake).turns v other]
    exact (inv.gone v told).2.2
  by_cases told : announced s t = true
  · have hushed := hushes told
    obtain ⟨mutters,dies⟩ := resumeWith_dying stored woken (inv.gone t told).2.2
      (fun text created => by simpa only [created] using hushed)
      (fun message stopping => by simp only [stopping] at hushed)
    refine inv.silently taken mutters fun v told => ?_
    by_cases own : v = t
    · subst v; exact dies
    · exact others v own told
  · refine inv.mutters taken (resumeWith_mutters s t stored wake) ?_ fun v told' => ?_
    · rintro v same; cases same; simpa using told
    · exact others v (by rintro rfl; exact told told') told'

theorem hushes_keeps {s u : State} {op : Op} (inv : Hushed s) (hushes : Hushes s op)
    (taken : step s op = some u) : Hushed u := by
  by_cases resumed : ∃ t stored, op = .taskResumes t stored
  · obtain ⟨t,stored,rfl⟩ := resumed
    exact inv.taskResumes hushes taken
  have dying : ∀ v, announced s v = true → (u.turns v).dying = true := by
    intro v told
    have dies := (inv.gone v told).2.2
    rcases step_spares taken fun t stored same => resumed ⟨t,stored,same⟩ with
      spares | ⟨a,t,text,_,rfl⟩
    · exact spares.dying dies
    · by_cases same : v = t
      · subst v; simp [createTask,Turn.dying]
      · simpa [createTask,same] using dies
  have silent : u.handed = s.handed → Hushed u := fun handed =>
    inv.silently taken (.silent none handed) dying
  have begun : ∀ m a owner text counted recorded, m.handed = s.handed →
      u = beginTurn m a owner text counted recorded → Hushed u := by
    rintro m a owner text counted recorded handed rfl
    exact inv.silently taken ((beginTurn_mutters m a owner text counted recorded).of_eq handed)
      dying
  have cancelled : ∀ t reason stored a command, s.current = some t →
      u = (cancel s t reason stored).setCommand a command → Hushed u := by
    rintro t reason stored a command was rfl
    cases stored
    · exact silent rfl
    refine inv.cancelled taken was rfl rfl fun v which => ?_
    by_cases own : v = t
    · subst v
      simpa [cancel] using cancelTask_dying { s.turns t with status := .cancelled }
    · exact dying v (which.resolve_left own)
  have moved := taken
  cases op with
  | startup =>
    cases taken
    exact inv.silently moved (.state rfl) dying
  | chatSend a owner text stored counted recorded =>
    obtain ⟨_,rfl⟩ := chatSend_taken moved
    rcases chatSend_cases s a owner text stored counted recorded with ⟨t,was,_,same⟩ | ⟨_,same⟩
    · exact cancelled t _ stored a _ was same
    · exact begun s a owner text counted recorded rfl same
  | turnCancel a session t stored =>
    obtain ⟨_,rfl⟩ := turnCancel_taken moved
    rcases turnCancel_cases s a session t stored with ⟨was,same⟩ | same
    · exact cancelled t _ stored a _ was same
    · exact silent (by rw [same])
  | commandResumes a counted recorded =>
    rcases commandResumes_taken moved with ⟨t,owner,text,waits,rfl⟩ | ⟨t,text,waits,rfl⟩ | ⟨t,waits,rfl⟩
    · exact begun (s.modify t Turn.cancelJob) a owner text counted recorded rfl rfl
    · exact silent rfl
    · exact silent rfl
  | taskResumes t stored => exact (resumed ⟨t,stored,rfl⟩).elim
  | dispatch t =>
    obtain ⟨_,rfl⟩ := dispatch_taken moved
    exact silent rfl
  | jobResumes t => exact inv.jobResumes hushes taken dying
  | delta t delta =>
    obtain ⟨_,_,rfl⟩ := delta_taken moved
    exact inv.onDelta taken dying
  | llmEnds t outcome =>
    obtain ⟨_,_,_,rfl⟩ := llmEnds_taken moved
    exact silent rfl
  | speechEnds t failure =>
    obtain ⟨_,_,_,_,_,rfl⟩ := speechEnds_taken moved
    exact silent rfl

/-- Something is shown of a turn whose cancellation has been announced. -/
theorem shown_breaks {s u : State} {t : Nat} {env : Envelope} (told : announced s t = true)
    (handed : u.handed = s.handed ++ [env]) (shown : shows env t = true) : ¬Quiet u := by
  intro quiet
  simp only [Quiet] at quiet
  rw [handed,List.pairwise_append] at quiet
  obtain ⟨event,mem,cancelled⟩ := List.any_eq_true.mp told
  have silent := quiet.2.2 event mem env (List.mem_singleton_self _) t cancelled
  rw [shown] at silent
  cases silent

theorem state_shown (state : Mascot) (t : Nat) (message : String) :
    shows (stateEnvelope state (some t) message) t = true := by
  simp [shows,stateEnvelope,Envelope.type,Payload.type]

/-- The first step shows THINKING, or ERROR if the message cannot be stored. -/
theorem startTurn_shows {s : State} (starts : Starts s) {t : Nat} {text : String}
    (created : (s.turns t).task = .created text) (stored : Bool) :
    ∃ env, (startTurn s t text stored).handed = s.handed ++ [env] ∧ shows env t = true := by
  cases stored
  · have silent := starts.silent t (by simp [Turn.unopened,created])
    exact ⟨stateEnvelope .error (some t) internalError,
      by simp [startTurn,onException,handle,silent,showError],state_shown ..⟩
  · exact ⟨_,rfl,state_shown ..⟩

theorem unhushed_breaks {s u : State} {op : Op} (inv : Hushed s) (taken : step s op = some u)
    (bad : ¬Hushes s op) : ¬Quiet u := by
  cases op with
  | taskResumes t stored =>
    obtain ⟨wake,woken,rfl⟩ := Option.map_eq_some_iff.mp taken
    obtain ⟨told,loud⟩ := Classical.not_imp.mp bad
    cases task : (s.turns t).task
    case created text =>
      simp only [task] at loud
      obtain rfl : wake = .returns := by
        simpa [Turn.wake,task,loud] using woken.symm
      obtain ⟨env,handed,shown⟩ := startTurn_shows inv.starts task stored
      simp only [resumeWith,task]
      exact shown_breaks told handed shown
    case stopping failure =>
      cases failure with
      | none => simp [task] at loud
      | some message =>
        simp only [resumeWith,task]
        exact shown_breaks told rfl (state_shown ..)
    all_goals simp [task] at loud
  | jobResumes t =>
    obtain ⟨told,loud⟩ := Classical.not_imp.mp bad
    cases job : (s.turns t).job
    case responding delta =>
      simp only [job] at loud
      have sends : step s (.jobResumes t) = some (sendDelta s t delta) := by
        simp [step,jobResumes,job,loud]
      obtain rfl : u = sendDelta s t delta := Option.some.inj (taken.symm.trans sends)
      exact shown_breaks told rfl (by simp [shows,deltaToken,Envelope.type,Payload.type])
    all_goals simp [job] at loud
  | _ => exact (bad trivial).elim

theorem quiet_throughout_iff (tts : Bool) (store : Store) (ops : List Op) (s : State)
    (reached : run step (init tts store) ops = some s) :
    Throughout step Quiet (init tts store) ops ↔ Meets step Hushes (init tts store) ops :=
  throughout_iff_meets
    (fun _ _ _ inv hushes taken => hushes_keeps inv hushes taken)
    (fun _ inv => inv.quiet)
    (fun _ _ _ inv taken bad => unhushed_breaks inv taken bad)
    (Hushed.initial tts store) reached

/-- A turn is cancelled while its `started` event is being broadcast. -/
def cancelledWhileStarting : List Op := [
  .chatSend 0 1 "a" true true true,
  .turnCancel 1 1 1 true,
  .commandResumes 0 true true,
  .commandResumes 1 true true,
  .taskResumes 1 true]

theorem cancelledWhileStarting_thinks :
    ∃ s, run step (init false emptyStore) cancelledWhileStarting = some s ∧
      s.handed = [turnEnvelope 1 { owner := 1 } .started none,
        turnEnvelope 1 { owner := 1 } .cancelled (some "user_cancel"),
        stateEnvelope .thinking (some 1) ""] ∧ ¬Quiet s := by
  have lost : ∃ s, run step (init false emptyStore) cancelledWhileStarting = some s ∧
      s.handed = [turnEnvelope 1 { owner := 1 } .started none,
        turnEnvelope 1 { owner := 1 } .cancelled (some "user_cancel"),
        stateEnvelope .thinking (some 1) ""] := exists_of_eval (by decide +kernel)
  obtain ⟨s,reached,handed⟩ := lost
  refine ⟨s,reached,handed,?_⟩
  intro quiet
  simp only [Quiet] at quiet
  rw [handed] at quiet
  simp [cancels,shows,turnEnvelope,stateEnvelope,Envelope.type,Payload.type] at quiet

/-- A turn is cancelled while its RESPONDING is being broadcast, and its task goes on first. -/
def cancelledWhileResponding : List Op := [
  .chatSend 0 1 "a" true true true,
  .commandResumes 0 true true,
  .taskResumes 1 true,
  .taskResumes 1 true,
  .dispatch 1,
  .jobResumes 1,
  .delta 1 "Hi",
  .turnCancel 1 1 1 true,
  .taskResumes 1 true,
  .jobResumes 1,
  .commandResumes 1 true true]

theorem cancelledWhileResponding_quiet :
    Throughout step Quiet (init false emptyStore) cancelledWhileResponding := by
  have completes : ∃ s, run step (init false emptyStore) cancelledWhileResponding = some s ∧ True :=
    exists_of_eval (by decide +kernel)
  obtain ⟨s,reached,_⟩ := completes
  exact (quiet_throughout_iff false emptyStore cancelledWhileResponding s reached).mpr
    (by decide +kernel)

end GhostRunner.Orchestrator
