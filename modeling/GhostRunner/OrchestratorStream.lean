import GhostRunner.OrchestratorSteps

/-! The resync record. `_stream` is one slot for the tasks of all turns, and the handlers of a
turn that has been replaced still assign to it, some of them only after awaiting the speech
worker. -/
namespace GhostRunner.Orchestrator

open Machine

/-- The answer of `stream.sync`: whether this stream is the active one. -/
def streamSync (s : State) (stream : String) : Bool := s.stream.any fun t => streamId t = stream

/-- While the task of the current turn awaits its LLM stream (its record is installed, its
done token is not yet handed over, and it has not failed), `_stream` is its record. -/
def Resyncs (s : State) : Prop :=
  ∀ t, s.current = some t → (s.turns t).task = .streaming →
    s.stream = some t ∧ streamSync s (streamId t) = true

/-- `speech.cancel()` would return at once. -/
def Speech.settled : Speech → Bool
  | .running _ | .failed _ => false
  | _ => true

/-- Whether a task that goes on assigns `_stream` before its next await. -/
def assigns (s : State) (t : Nat) (stored : Bool) (wake : Wake) : Bool :=
  match (s.turns t).task, wake with
  | .created _, .cancelled => false
  | .created _, _ => !stored && (s.turns t).speech.settled
  | .thinking, .returns | .closing, .returns | .speaking, .ttsError _ | .stopping _, _ => true
  | .streaming, .returns | .speaking, .returns => false
  | .succeeding, .returns => s.current = some t && !stored && (s.turns t).speech.settled
  | .erring, _ | .finishing, _ | .holding, _ | .idling, _ => false
  | _, _ => (s.turns t).speech.settled

/-- No other turn's task assigns `_stream` while the current turn streams. -/
def LeavesRecord (s : State) : Op → Prop
  | .taskResumes t stored =>
    ∀ wake ∈ (s.turns t).wake, assigns s t stored wake = true →
      ∀ v ∈ s.current, (s.turns v).task = .streaming → v = t
  | _ => True

instance (s : State) (op : Op) : Decidable (LeavesRecord s op) := by
  unfold LeavesRecord; split <;> infer_instance

/-- What a task that goes on may do to the slot. -/
structure Assigned (s u : State) (t : Nat) (assigned : Bool) : Prop where
  stream : if assigned then u.stream = none ∨ u.stream = some t else u.stream = s.stream
  installed : (u.turns t).task = .streaming → u.stream = some t

theorem Assigned.kept {s u : State} {t : Nat} (stream : u.stream = s.stream)
    (task : (u.turns t).task ≠ .streaming) : Assigned s u t false :=
  ⟨stream,fun streaming => (task streaming).elim⟩

theorem showError_assigned (s : State) (t : Nat) (message : String) :
    Assigned s (showError s t message) t true := by
  refine ⟨.inl rfl,fun streaming => ?_⟩
  simp [showError] at streaming

theorem handle_assigned (s : State) (t : Nat) (failure : Option String) :
    Assigned s (handle s t failure) t (s.turns t).speech.settled := by
  simp only [handle]
  cases speech : (s.turns t).speech
  case running => exact .kept rfl (by simp)
  case failed => exact .kept rfl (by simp)
  all_goals
    cases failure
    · exact ⟨.inl rfl,fun streaming => by simp [unwind] at streaming⟩
    · exact showError_assigned ..

/-- The slot has been cleared first. -/
theorem Assigned.cleared {s v u : State} {t : Nat} {assigned : Bool}
    (empty : v.stream = none) (rest : Assigned v u t assigned) : Assigned s u t true := by
  refine ⟨?_,rest.installed⟩
  have stream := rest.stream
  cases assigned
  · exact .inl (stream.trans empty)
  · exact stream

theorem storeReply_assigned (s : State) (t : Nat) (stored : Bool) :
    Assigned s (storeReply s t stored) t true := by
  simp only [storeReply]
  cases stored
  · exact (handle_assigned _ t _).cleared rfl
  · simp only [if_true]
    split
    · exact ⟨.inl rfl,fun streaming => by simp at streaming⟩
    · exact (showError_assigned _ t _).cleared rfl
    · exact (handle_assigned _ t _).cleared rfl
    · exact ⟨.inl rfl,fun streaming => by simp [succeed] at streaming⟩

theorem finish_assigned (s : State) (t : Nat) (status : Status) (stored assigned : Bool)
    {raised : State → State}
    (raises : Assigned (s.modify t fun r => { r with status := status })
      (raised (s.modify t fun r => { r with status := status })) t assigned) :
    Assigned s (finish s t status stored raised) t
      (s.current = some t && !stored && assigned) := by
  simp only [finish]
  by_cases current : s.current = some t
  · cases stored
    · simpa [current] using ⟨raises.stream,raises.installed⟩
    · simp only [current,if_true,decide_true,Bool.not_true,Bool.and_false,Bool.false_and]
      exact .kept rfl (by simp)
  · simp only [current,if_false,decide_false,Bool.false_and]
    exact .kept rfl (by simp)

theorem resumeWith_assigned (s : State) (t : Nat) (stored : Bool) (wake : Wake) :
    Assigned s (resumeWith s t stored wake) t (assigns s t stored wake) := by
  cases task : (s.turns t).task
  case created text =>
    have starts : Assigned s (startTurn s t text stored) t
        (!stored && (s.turns t).speech.settled) := by
      cases stored
      · exact handle_assigned s t _
      · exact .kept rfl (by simp [startTurn])
    cases wake <;> simp only [resumeWith,assigns,task]
    case cancelled => exact .kept rfl (by simp)
    all_goals exact starts
  case thinking =>
    cases wake <;> simp only [resumeWith,assigns,task]
    case returns => exact ⟨.inr rfl,fun _ => rfl⟩
    all_goals exact handle_assigned s t none
  case streaming =>
    have removed : Assigned s (onCancelled (s.modify t Turn.removeJob) t) t
        (s.turns t).speech.settled := by
      obtain ⟨stream,installed⟩ := handle_assigned (s.modify t Turn.removeJob) t none
      simp only [State.modify_same,removeJob_speech] at stream
      exact ⟨stream,installed⟩
    cases wake <;> simp only [resumeWith,assigns,task]
    case returns => exact .kept rfl (by simp [closeStream])
    case cancelled => exact removed
    all_goals exact handle_assigned s t _
  case closing =>
    cases wake <;> simp only [resumeWith,assigns,task]
    case returns => exact storeReply_assigned s t stored
    all_goals exact handle_assigned s t none
  case speaking =>
    cases wake <;> simp only [resumeWith,assigns,task]
    case returns => exact .kept rfl (by simp [succeed])
    case ttsError text => exact showError_assigned s t _
    all_goals exact handle_assigned s t none
  case succeeding =>
    cases wake <;> simp only [resumeWith,assigns,task]
    case returns =>
      have raises := handle_assigned (s.modify t fun r => { r with status := .done }) t
        (some internalError)
      simp only [State.modify_same] at raises
      exact finish_assigned s t .done stored _ raises
    all_goals exact handle_assigned s t none
  case stopping failure =>
    cases failure <;> simp only [resumeWith,assigns,task]
    · exact ⟨.inl rfl,fun streaming => by simp [unwind] at streaming⟩
    · exact showError_assigned s t _
  case erring =>
    cases wake <;> simp only [resumeWith,assigns,task]
    case returns =>
      have ends : Assigned (s.modify t fun r => { r with status := .error })
          ((s.modify t fun r => { r with status := .error }).modify t
            fun r => { r with task := .ended }) t false := .kept rfl (by simp)
      simpa using finish_assigned s t .error stored false ends
    all_goals exact .kept rfl (by simp)
  case finishing =>
    simp only [resumeWith,assigns,task]
    exact .kept rfl (by simp)
  case holding =>
    simp only [resumeWith,assigns,task,decay]
    split <;> exact .kept rfl (by simp)
  case idling =>
    simp only [resumeWith,assigns,task]
    exact .kept rfl (by simp)
  all_goals
    simp only [resumeWith,assigns,task]
    exact handle_assigned s t none

/-- A resumed task leaves the current turn alone, or lets go of it. -/
theorem resumeWith_current (s : State) (t : Nat) (stored : Bool) (wake : Wake) :
    (resumeWith s t stored wake).current = s.current ∨
      (resumeWith s t stored wake).current = none := by
  rcases resumeWith_foreground s t stored wake with keeps | ⟨_,_,closes⟩
  · exact .inl keeps.current
  · exact .inr closes.current

theorem Resyncs.of_stream {s : State}
    (streams : ∀ t, s.current = some t → (s.turns t).task = .streaming → s.stream = some t) :
    Resyncs s := by
  intro t current streaming
  have stream := streams t current streaming
  exact ⟨stream,by simp [streamSync,stream]⟩

theorem Resyncs.spares {s u : State} (inv : Resyncs s) (spares : Spares s u)
    (current : ∀ t, u.current = some t → s.current = some t ∨ (u.turns t).task = .absent) :
    Resyncs u := by
  apply Resyncs.of_stream
  intro t now streaming
  rcases spares.turns t with stands | ⟨_,new,_⟩
  · rcases current t now with same | new
    · rw [spares.stream]
      exact (inv t same (by rw [← stands.task]; exact streaming)).1
    · rw [new] at streaming; cases streaming
  · rw [new] at streaming; cases streaming

theorem Resyncs.createTask {s : State} (inv : Resyncs s) (a t : Nat) (text : String) :
    Resyncs (GhostRunner.Orchestrator.createTask s a t text) := by
  apply Resyncs.of_stream
  intro v now streaming
  by_cases same : v = t
  · subst v; simp [GhostRunner.Orchestrator.createTask] at streaming
  · have streaming : (s.turns v).task = .streaming := by
      simpa [GhostRunner.Orchestrator.createTask,same] using streaming
    exact (inv v now streaming).1

theorem leavesRecord_keeps {s u : State} {op : Op} (inv : Resyncs s) (leaves : LeavesRecord s op)
    (taken : step s op = some u) : Resyncs u := by
  by_cases resumed : ∃ t stored, op = .taskResumes t stored
  · obtain ⟨t,stored,rfl⟩ := resumed
    obtain ⟨wake,woken,rfl⟩ := Option.map_eq_some_iff.mp taken
    have assigned := resumeWith_assigned s t stored wake
    apply Resyncs.of_stream
    intro v now streaming
    by_cases own : v = t
    · subst v; exact assigned.installed streaming
    have current : s.current = some v := by
      rcases resumeWith_current s t stored wake with same | none
      · exact same.symm.trans now
      · rw [none] at now; cases now
    rw [(resumeWith_alone s t stored wake).turns v own] at streaming
    have stream := assigned.stream
    split at stream
    · next writes => exact (own (leaves wake woken writes v current streaming)).elim
    · rw [stream]; exact (inv v current streaming).1
  · rcases step_spares taken fun t stored same => resumed ⟨t,stored,same⟩ with
      spares | ⟨a,t,text,_,rfl⟩
    case inr => exact inv.createTask a t text
    refine inv.spares spares fun t now => ?_
    have change := step_foreground taken
    split at change
    · obtain ⟨owner,records⟩ := change
      rw [records.current] at now
      cases now
      exact .inr (by rw [records.turns])
    · exact .inl (change.current now)

/-- The assignment of another turn takes effect while the current turn streams on. -/
theorem foreignAssignment_breaks {s u : State} {op : Op} (taken : step s op = some u)
    (bad : ¬LeavesRecord s op) : ¬Resyncs u := by
  cases op with
  | taskResumes t stored =>
    simp only [LeavesRecord,not_forall] at bad
    obtain ⟨wake,woken,writes,v,current,streaming,other⟩ := bad
    obtain ⟨wake',woken',rfl⟩ := Option.map_eq_some_iff.mp taken
    obtain rfl : wake' = wake := Option.some.inj (woken'.symm.trans woken)
    have assigned := resumeWith_assigned s t stored wake'
    have stream := assigned.stream
    rw [if_pos writes] at stream
    have still : (resumeWith s t stored wake').current = some v := by
      rcases resumeWith_foreground s t stored wake' with keeps | ⟨_,_,closes⟩
      · exact keeps.current.trans current
      · exact (other (Option.some.inj (current.symm.trans closes.was))).elim
    intro resyncs
    have mine := (resyncs v still (by
      rw [(resumeWith_alone s t stored wake').turns v other]; exact streaming)).1
    rw [mine] at stream
    rcases stream with none | same
    · cases none
    · exact other (Option.some.inj same)
  | _ => exact (bad trivial).elim

theorem resyncs_throughout_iff (tts : Bool) (store : Store) (ops : List Op) (s : State)
    (reached : run step (init tts store) ops = some s) :
    Throughout step Resyncs (init tts store) ops ↔
      Meets step LeavesRecord (init tts store) ops :=
  throughout_iff_meets
    (fun _ _ _ inv leaves taken => leavesRecord_keeps inv leaves taken)
    (fun _ inv => inv)
    (fun _ _ _ _ taken bad => foreignAssignment_breaks taken bad)
    (fun _ current => nomatch current) reached

/-- The first turn speaks when it is replaced; its handler awaits the speech worker until
the second turn has installed its record. -/
def lateCleanup : List Op := [
  .chatSend 0 1 "a" true true true,
  .commandResumes 0 true true,
  .taskResumes 1 true,
  .taskResumes 1 true,
  .chatSend 1 1 "b" true true true,
  .commandResumes 1 true true,
  .commandResumes 1 true true,
  .taskResumes 1 true,
  .taskResumes 2 true,
  .taskResumes 2 true,
  .speechEnds 1 none,
  .taskResumes 1 true]

theorem lateCleanup_clearsRecord :
    ∃ s, run step (init true emptyStore) lateCleanup = some s ∧ s.current = some 2 ∧
      (s.turns 2).task = .streaming ∧ streamSync s "t2" = false ∧ ¬Resyncs s := by
  have lost : ∃ s, run step (init true emptyStore) lateCleanup = some s ∧
      (s.current = some 2 ∧ (s.turns 2).task = .streaming ∧ streamSync s "t2" = false ∧
        s.stream = none) := exists_of_eval (by decide +kernel)
  obtain ⟨s,reached,current,streaming,answer,stream⟩ := lost
  refine ⟨s,reached,current,streaming,answer,fun resyncs => ?_⟩
  have kept := (resyncs 2 current streaming).1
  rw [stream] at kept
  cases kept

/-- The speech worker of the first turn ends before the second turn installs its record. -/
def promptCleanup : List Op := [
  .chatSend 0 1 "a" true true true,
  .commandResumes 0 true true,
  .taskResumes 1 true,
  .taskResumes 1 true,
  .chatSend 1 1 "b" true true true,
  .commandResumes 1 true true,
  .commandResumes 1 true true,
  .taskResumes 1 true,
  .speechEnds 1 none,
  .taskResumes 1 true,
  .taskResumes 2 true,
  .taskResumes 2 true]

theorem promptCleanup_resyncs : Throughout step Resyncs (init true emptyStore) promptCleanup := by
  have completes : ∃ s, run step (init true emptyStore) promptCleanup = some s ∧ True :=
    exists_of_eval (by decide +kernel)
  obtain ⟨s,reached,_⟩ := completes
  exact (resyncs_throughout_iff true emptyStore promptCleanup s reached).mpr (by decide +kernel)

end GhostRunner.Orchestrator
