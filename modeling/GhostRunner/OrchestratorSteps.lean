import GhostRunner.Orchestrator

/-! What the steps of the orchestrator leave alone: the turns of other tasks, the commands,
and all but the one turn that a step lets go of or records. -/
namespace GhostRunner.Orchestrator

open Machine

namespace State

@[simp] theorem modify_store (s : State) (t : Nat) (f : Turn → Turn) :
    (s.modify t f).store = s.store := rfl

@[simp] theorem modify_handed (s : State) (t : Nat) (f : Turn → Turn) :
    (s.modify t f).handed = s.handed := rfl

end State

attribute [simp] State.hand State.setCommand setState notifyTurn

/-! ## What a step that was taken tells -/

theorem chatSend_taken {s u : State} {a owner : Nat} {text : String}
    {stored counted recorded : Bool}
    (taken : step s (.chatSend a owner text stored counted recorded) = some u) :
    s.commands a = none ∧ u = chatSend s a owner text stored counted recorded := by
  simp only [step] at taken
  split at taken
  · next unused => exact ⟨unused,(Option.some.inj taken).symm⟩
  · cases taken

theorem turnCancel_taken {s u : State} {a session t : Nat} {stored : Bool}
    (taken : step s (.turnCancel a session t stored) = some u) :
    s.commands a = none ∧ u = turnCancel s a session t stored := by
  simp only [step] at taken
  split at taken
  · next unused => exact ⟨unused,(Option.some.inj taken).symm⟩
  · cases taken

theorem dispatch_taken {s u : State} {t : Nat} (taken : step s (.dispatch t) = some u) :
    (s.turns t).job = .queued ∧ u = s.modify t fun r =>
      { r with job := if r.future = .pending then .unstarted else .ended } := by
  simp only [step,dispatch] at taken
  split at taken
  · next queued => exact ⟨queued,(Option.some.inj taken).symm⟩
  · cases taken

theorem delta_taken {s u : State} {t : Nat} {delta : String}
    (taken : step s (.delta t delta) = some u) :
    (s.turns t).job = .fetching ∧ (s.turns t).halted = false ∧ u = onDelta s t delta := by
  simp only [step] at taken
  split at taken
  · next may => exact ⟨may.1,may.2,(Option.some.inj taken).symm⟩
  · cases taken

theorem llmEnds_taken {s u : State} {t : Nat} {outcome : Outcome}
    (taken : step s (.llmEnds t outcome) = some u) :
    (s.turns t).job = .fetching ∧ (s.turns t).halted = false ∧
      (outcome ≠ .pending ∧ outcome ≠ .cancelled) ∧ u = llmEnds s t outcome := by
  simp only [step] at taken
  split at taken
  · next may => exact ⟨may.1,may.2.1,may.2.2,(Option.some.inj taken).symm⟩
  · cases taken

/-- The worker has ended. -/
theorem speechEnds_taken {s u : State} {t : Nat} {failure : Option String}
    (taken : speechEnds s t failure = some u) : ∃ final speech,
      (s.turns t).speech = .running final ∧ speech ≠ .absent ∧
      (speech = .cancelled → (s.turns t).stopped = true) ∧
      u = s.modify t fun r => { r with speech := speech } := by
  simp only [speechEnds] at taken
  split at taken <;> cases taken
  · next final running stopped => exact ⟨final,.cancelled,running,by simp,fun _ => stopped,rfl⟩
  · next final text running _ => exact ⟨final,.failed text,running,by simp,by simp,rfl⟩
  · next running _ => exact ⟨true,.drained,running,by simp,by simp,rfl⟩

/-! ## The foreground -/

/-- Neither the current turn nor a row changes. -/
structure Keeps (s u : State) : Prop where
  base : u.base = s.base
  current : u.current = s.current
  rows : u.store.rows = s.store.rows
  counter : u.store.counter = s.store.counter

/-- `cancel` or `finish` lets go of the current turn. -/
structure Closes (s u : State) (t : Nat) (status : Status) : Prop where
  was : s.current = some t
  terminal : status ≠ .active
  base : u.base = s.base
  current : u.current = none
  rows : ∃ reason, u.store.rows = (s.store.finishTurn t status reason).rows
  counter : u.store.counter = s.store.counter

/-- `begin` records a turn and makes it the current one. -/
structure Records (s u : State) (owner : Nat) : Prop where
  base : u.base = s.base
  current : u.current = some u.store.counter
  rows : u.store.rows =
    Function.update s.store.rows u.store.counter (some { origin := .balloon, owner := owner })
  counter : u.store.counter = s.store.counter + 1
  turns : u.turns u.store.counter = { owner := owner }

/-- A turn id is issued, but its row cannot be written. -/
structure Skips (s u : State) : Prop where
  base : u.base = s.base
  current : u.current = s.current
  rows : u.store.rows = s.store.rows
  counter : u.store.counter = s.store.counter + 1

theorem Keeps.refl (s : State) : Keeps s s := ⟨rfl,rfl,rfl,rfl⟩

theorem Keeps.modify (s : State) (t : Nat) (change : Turn → Turn) : Keeps s (s.modify t change) :=
  ⟨rfl,rfl,rfl,rfl⟩

theorem Keeps.trans {s u v : State} (first : Keeps s u) (second : Keeps u v) : Keeps s v :=
  ⟨second.base.trans first.base,second.current.trans first.current,second.rows.trans first.rows,
    second.counter.trans first.counter⟩

theorem showError_keeps (s : State) (t : Nat) (message : String) :
    Keeps s (showError s t message) := ⟨rfl,rfl,rfl,rfl⟩

theorem handle_keeps (s : State) (t : Nat) (failure : Option String) :
    Keeps s (handle s t failure) := by
  simp only [handle]
  split
  · exact .modify ..
  · exact .modify ..
  · cases failure <;> exact ⟨rfl,rfl,rfl,rfl⟩

theorem startTurn_keeps (s : State) (t : Nat) (text : String) (stored : Bool) :
    Keeps s (startTurn s t text stored) := by
  cases stored
  · exact handle_keeps s t _
  · exact ⟨rfl,rfl,rfl,rfl⟩

theorem storeReply_keeps (s : State) (t : Nat) (stored : Bool) :
    Keeps s (storeReply s t stored) := by
  have cleared : Keeps s { s with stream := none } := ⟨rfl,rfl,rfl,rfl⟩
  have written : Keeps s { s with
      stream := none
      store := s.store.appendMessage t .assistant (String.join (s.turns t).record.parts) } :=
    ⟨rfl,rfl,rfl,rfl⟩
  simp only [storeReply]
  cases stored
  · exact cleared.trans (handle_keeps _ t _)
  · simp only [if_true]
    split
    · exact written.trans (.modify ..)
    · exact written.trans (showError_keeps _ t _)
    · exact written.trans (handle_keeps _ t _)
    · exact ⟨rfl,rfl,rfl,rfl⟩

theorem decay_keeps (s : State) (t : Nat) : Keeps s (decay s t) := by
  simp only [decay]
  split <;> exact ⟨rfl,rfl,rfl,rfl⟩

theorem finish_foreground {s : State} {t : Nat} {status : Status} {raised : State → State}
    (stored : Bool) (terminal : status ≠ .active) (raises : ∀ u, Keeps u (raised u)) :
    Keeps s (finish s t status stored raised) ∨
      (stored = true ∧ Closes s (finish s t status stored raised) t status) := by
  simp only [finish]
  split
  · next was =>
    cases stored
    · exact .inl ((Keeps.modify ..).trans (raises _))
    · exact .inr ⟨rfl,was,terminal,rfl,rfl,⟨none,rfl⟩,rfl⟩
  · exact .inl (.modify ..)

theorem resumeWith_foreground (s : State) (t : Nat) (stored : Bool) (wake : Wake) :
    Keeps s (resumeWith s t stored wake) ∨
      ∃ status, stored = true ∧ Closes s (resumeWith s t stored wake) t status := by
  simp only [resumeWith]
  split
  · exact .inl (.modify ..)
  · exact .inl (startTurn_keeps ..)
  · exact .inl ⟨rfl,rfl,rfl,rfl⟩
  · exact .inl ⟨rfl,rfl,rfl,rfl⟩
  · exact .inl ((Keeps.modify ..).trans (handle_keeps ..))
  · exact .inl (handle_keeps ..)
  · exact .inl (handle_keeps ..)
  · exact .inl (storeReply_keeps ..)
  · exact .inl ⟨rfl,rfl,rfl,rfl⟩
  · exact .inl (showError_keeps ..)
  · exact (finish_foreground stored (by decide) fun u => handle_keeps u t _).imp id fun closes =>
      ⟨_,closes⟩
  · exact .inl ⟨rfl,rfl,rfl,rfl⟩
  · exact .inl (showError_keeps ..)
  · exact (finish_foreground stored (by decide) fun u => Keeps.modify u t _).imp id fun closes =>
      ⟨_,closes⟩
  · exact .inl (.modify ..)
  · exact .inl (.modify ..)
  · exact .inl (decay_keeps ..)
  · exact .inl (.modify ..)
  · exact .inl (handle_keeps ..)

theorem beginTurn_foreground (s : State) (a owner : Nat) (text : String) (counted recorded : Bool) :
    (counted = false ∧ Keeps s (beginTurn s a owner text counted recorded)) ∨
      (counted = true ∧ recorded = false ∧ Skips s (beginTurn s a owner text counted recorded)) ∨
      (counted = true ∧ recorded = true ∧
        Records s (beginTurn s a owner text counted recorded) owner) := by
  cases counted
  · exact .inl ⟨rfl,rfl,rfl,rfl,rfl⟩
  · cases recorded
    · exact .inr (.inl ⟨rfl,rfl,rfl,rfl,rfl,rfl⟩)
    · refine .inr (.inr ⟨rfl,rfl,rfl,rfl,rfl,rfl,?_⟩)
      simp [beginTurn,Store.nextTurnId,Store.recordTurn]

/-- The label lets `begin` record its turn. -/
def begins (s : State) : Op → Bool
  | .chatSend _ _ _ _ counted recorded =>
    counted && recorded && !(s.current.any fun t => (s.turns t).status = .active)
  | .commandResumes a counted recorded =>
    match s.commands a with
    | some (.superseding ..) => counted && recorded
    | _ => false
  | _ => false

/-- Any other change to the foreground. -/
def Foregrounds (s u : State) : Prop :=
  Keeps s u ∨ Skips s u ∨ ∃ t status, Closes s u t status

theorem beginTurn_begins {s v : State} (keeps : Keeps s v) (a owner : Nat) (text : String)
    (counted recorded : Bool) :
    if counted && recorded then Records s (beginTurn v a owner text counted recorded) owner
    else Foregrounds s (beginTurn v a owner text counted recorded) := by
  obtain ⟨base,current,rows,counter⟩ := keeps
  rcases beginTurn_foreground v a owner text counted recorded with
    ⟨rfl,kept⟩ | ⟨rfl,rfl,skips⟩ | ⟨rfl,rfl,records⟩
  · exact .inl (Keeps.trans ⟨base,current,rows,counter⟩ kept)
  · exact .inr (.inl ⟨skips.base.trans base,skips.current.trans current,skips.rows.trans rows,
      skips.counter.trans (congrArg (· + 1) counter)⟩)
  · refine ⟨records.base.trans base,records.current,?_,?_,records.turns⟩
    · rw [records.rows,rows]
    · rw [records.counter,counter]

theorem Foregrounds.keep {s u v : State} (change : Foregrounds s u) (keeps : Keeps u v) :
    Foregrounds s v := by
  obtain ⟨base,current,rows,counter⟩ := keeps
  rcases change with kept | skips | ⟨t,status,closes⟩
  · exact .inl (kept.trans ⟨base,current,rows,counter⟩)
  · exact .inr (.inl ⟨base.trans skips.base,current.trans skips.current,rows.trans skips.rows,
      counter.trans skips.counter⟩)
  · obtain ⟨reason,finished⟩ := closes.rows
    exact .inr (.inr ⟨t,status,closes.was,closes.terminal,base.trans closes.base,
      current.trans closes.current,⟨reason,rows.trans finished⟩,counter.trans closes.counter⟩)

theorem cancel_foreground {s : State} {t : Nat} (was : s.current = some t) (reason : String)
    (stored : Bool) : Foregrounds s (cancel s t reason stored) := by
  cases stored
  · exact .inl ⟨rfl,rfl,rfl,rfl⟩
  · exact .inr (.inr ⟨t,.cancelled,was,by decide,rfl,rfl,⟨some reason,rfl⟩,rfl⟩)

/-- `chat.send` cancels the current turn and waits, or records its own at once. -/
theorem chatSend_cases (s : State) (a owner : Nat) (text : String)
    (stored counted recorded : Bool) :
    (∃ t, s.current = some t ∧ (s.turns t).status = .active ∧
        chatSend s a owner text stored counted recorded =
          (cancel s t "superseded" stored).setCommand a
            (if stored then some (.superseding t owner text) else none)) ∨
      ((∀ t, s.current = some t → (s.turns t).status ≠ .active) ∧
        chatSend s a owner text stored counted recorded =
          beginTurn s a owner text counted recorded) := by
  simp only [chatSend]
  cases current : s.current with
  | none => exact .inr ⟨fun _ other => (nomatch other),rfl⟩
  | some t =>
    by_cases active : (s.turns t).status = .active
    · exact .inl ⟨t,rfl,active,by simp [active]⟩
    · exact .inr ⟨fun v same => by cases same; exact active,by simp [active]⟩

theorem turnCancel_cases (s : State) (a session t : Nat) (stored : Bool) :
    (s.current = some t ∧
        turnCancel s a session t stored =
          (cancel s t "user_cancel" stored).setCommand a
            (if stored then some (.cancelling t) else none)) ∨
      turnCancel s a session t stored = s := by
  simp only [turnCancel]
  split
  · next may => exact .inl ⟨may.1,rfl⟩
  · exact .inr rfl

theorem chatSend_foreground (s : State) (a owner : Nat) (text : String)
    (stored counted recorded : Bool) :
    if begins s (.chatSend a owner text stored counted recorded)
    then Records s (chatSend s a owner text stored counted recorded) owner
    else Foregrounds s (chatSend s a owner text stored counted recorded) := by
  rcases chatSend_cases s a owner text stored counted recorded with
    ⟨t,current,active,same⟩ | ⟨idle,same⟩
  · have quiet : begins s (.chatSend a owner text stored counted recorded) = false := by
      simp [begins,current,active]
    rw [if_neg (by simp [quiet]),same]
    exact (cancel_foreground current "superseded" stored).keep ⟨rfl,rfl,rfl,rfl⟩
  · have begins_iff : begins s (.chatSend a owner text stored counted recorded) =
        (counted && recorded) := by
      cases current : s.current with
      | none => simp [begins,current]
      | some t => simp [begins,current,idle t current]
    rw [begins_iff,same]
    exact beginTurn_begins (Keeps.refl s) a owner text counted recorded

theorem turnCancel_foreground (s : State) (a session t : Nat) (stored : Bool) :
    Foregrounds s (turnCancel s a session t stored) := by
  rcases turnCancel_cases s a session t stored with ⟨current,same⟩ | same <;> rw [same]
  · exact (cancel_foreground current "user_cancel" stored).keep ⟨rfl,rfl,rfl,rfl⟩
  · exact .inl (.refl s)

theorem commandResumes_foreground {s u : State} {a : Nat} {counted recorded : Bool}
    (taken : commandResumes s a counted recorded = some u) :
    if begins s (.commandResumes a counted recorded) then ∃ owner, Records s u owner
    else Foregrounds s u := by
  simp only [commandResumes] at taken
  split at taken <;> cases taken
  · next t owner text waits =>
    have fresh := beginTurn_begins (Keeps.modify s t Turn.cancelJob) a owner text counted recorded
    simp only [begins,waits]
    split
    · next both => exact ⟨owner,by simpa [both] using fresh⟩
    · next fails => simpa [fails] using fresh
  · next waits => simp only [begins,waits]; exact .inl ⟨rfl,rfl,rfl,rfl⟩
  · next waits => simp only [begins,waits]; exact .inl ⟨rfl,rfl,rfl,rfl⟩

theorem onDelta_keeps (s : State) (t : Nat) (delta : String) : Keeps s (onDelta s t delta) := by
  simp only [onDelta]
  split
  · exact .refl s
  · split <;> exact ⟨rfl,rfl,rfl,rfl⟩

theorem jobResumes_keeps {s u : State} {t : Nat} (taken : jobResumes s t = some u) : Keeps s u := by
  simp only [jobResumes] at taken
  split at taken <;> cases taken <;> exact ⟨rfl,rfl,rfl,rfl⟩

theorem speechEnds_keeps {s u : State} {t : Nat} {failure : Option String}
    (taken : speechEnds s t failure = some u) : Keeps s u := by
  obtain ⟨_,_,_,_,_,rfl⟩ := speechEnds_taken taken
  exact .modify ..

/-- Only `begin` makes a turn current, and nothing but `cancel` and `finish` ends one. -/
theorem step_foreground {s u : State} {op : Op} (taken : step s op = some u) :
    if begins s op then ∃ owner, Records s u owner else Foregrounds s u := by
  cases op with
  | startup => cases taken; exact .inl ⟨rfl,rfl,rfl,rfl⟩
  | chatSend a owner text stored counted recorded =>
    obtain ⟨_,rfl⟩ := chatSend_taken taken
    have sent := chatSend_foreground s a owner text stored counted recorded
    split at sent
    · next records => rw [if_pos records]; exact ⟨owner,sent⟩
    · next keeps => rw [if_neg keeps]; exact sent
  | turnCancel a session t stored =>
    obtain ⟨_,rfl⟩ := turnCancel_taken taken
    exact turnCancel_foreground s a session t stored
  | commandResumes a counted recorded => exact commandResumes_foreground taken
  | taskResumes t stored =>
    obtain ⟨wake,_,rfl⟩ := Option.map_eq_some_iff.mp taken
    rcases resumeWith_foreground s t stored wake with keeps | ⟨status,_,closes⟩
    · exact .inl keeps
    · exact .inr (.inr ⟨t,status,closes⟩)
  | dispatch t =>
    obtain ⟨_,rfl⟩ := dispatch_taken taken
    exact .inl (.modify ..)
  | jobResumes t => exact .inl (jobResumes_keeps taken)
  | delta t delta =>
    obtain ⟨_,_,rfl⟩ := delta_taken taken
    exact .inl (onDelta_keeps s t delta)
  | llmEnds t outcome =>
    obtain ⟨_,_,_,rfl⟩ := llmEnds_taken taken
    exact .inl (.modify ..)
  | speechEnds t failure => exact .inl (speechEnds_keeps taken)

theorem Foregrounds.current {s u : State} (change : Foregrounds s u) {t : Nat}
    (now : u.current = some t) : s.current = some t := by
  rcases change with keeps | skips | ⟨_,_,closes⟩
  · exact keeps.current.symm.trans now
  · exact skips.current.symm.trans now
  · rw [closes.current] at now; cases now

/-! ## The tasks of the turns -/

/-- What happens to a turn while its task stands still. -/
structure Stands (r r' : Turn) : Prop where
  task : r'.task = r.task
  asked : r.asked = true → r'.asked = true
  speech : r.speech = .absent → r'.speech = .absent

/-- No task of a turn goes on. Besides, a new turn may be recorded. -/
structure Spares (s u : State) : Prop where
  stream : u.stream = s.stream
  turns : ∀ v, Stands (s.turns v) (u.turns v) ∨
    (s.store.counter < v ∧ (u.turns v).task = .absent ∧ (u.turns v).speech = .absent)
  counter : s.store.counter ≤ u.store.counter

theorem Stands.refl (r : Turn) : Stands r r := ⟨rfl,id,id⟩

theorem Spares.refl (s : State) : Spares s s := ⟨rfl,fun _ => .inl (.refl _),le_rfl⟩

theorem Spares.update {s u : State} {t : Nat} {r : Turn} (stream : u.stream = s.stream)
    (turns : u.turns = Function.update s.turns t r) (counter : u.store.counter = s.store.counter)
    (stands : Stands (s.turns t) r) : Spares s u := by
  refine ⟨stream,fun v => .inl ?_,counter.ge⟩
  rw [turns]
  by_cases same : v = t
  · subst v; simpa using stands
  · simpa [same] using Stands.refl _

theorem Spares.of_eq {s u v : State} (spares : Spares s u) (stream : v.stream = u.stream)
    (turns : v.turns = u.turns) (counter : v.store.counter = u.store.counter) : Spares s v :=
  ⟨stream.trans spares.stream,by rw [turns]; exact spares.turns,
    by rw [counter]; exact spares.counter⟩

theorem cancelTask_stands (r : Turn) : Stands r r.cancelTask := by
  simp only [Turn.cancelTask]
  split
  · exact .refl r
  · exact .refl r
  · exact ⟨rfl,fun _ => rfl,id⟩
  · split <;> exact ⟨rfl,fun _ => rfl,id⟩
  · split <;> exact ⟨rfl,fun _ => rfl,id⟩
  · exact ⟨rfl,fun _ => rfl,id⟩

/-- A task that has not ended is asked to stop. -/
theorem cancelTask_asked (r : Turn) :
    r.cancelTask.asked = true ∨ r.task = .absent ∨ r.task = .ended := by
  simp only [Turn.cancelTask]
  split
  · next shape => exact .inr (.inl shape)
  · next shape => exact .inr (.inr shape)
  · exact .inl rfl
  · split <;> exact .inl rfl
  · split <;> exact .inl rfl
  · exact .inl rfl

theorem removeJob_stands (r : Turn) : Stands r r.removeJob := by
  simp only [Turn.removeJob]
  split <;> exact ⟨rfl,id,id⟩

@[simp] theorem removeJob_speech (r : Turn) : r.removeJob.speech = r.speech := by
  simp only [Turn.removeJob]
  split <;> rfl

theorem cancelJob_stands (r : Turn) : Stands r r.cancelJob := by
  simp only [Turn.cancelJob]
  split
  · exact ⟨rfl,id,id⟩
  · exact removeJob_stands r

theorem cancel_spares (s : State) (t : Nat) (reason : String) (stored : Bool) :
    Spares s (cancel s t reason stored) := by
  cases stored
  · exact .update rfl rfl rfl ⟨rfl,id,id⟩
  · obtain ⟨task,asked,speech⟩ := cancelTask_stands { s.turns t with status := .cancelled }
    refine ⟨rfl,fun v => .inl ?_,le_rfl⟩
    by_cases same : v = t
    · subst v; simpa [cancel] using ⟨task,asked,speech⟩
    · simpa [cancel,same] using Stands.refl _

theorem cancelJob_stand (s : State) (t v : Nat) :
    Stands (s.turns v) ((s.modify t Turn.cancelJob).turns v) := by
  by_cases same : v = t
  · subst v; simpa using cancelJob_stands _
  · simpa [same] using Stands.refl _

theorem cancel_commands (s : State) (t : Nat) (reason : String) (stored : Bool) :
    (cancel s t reason stored).commands = s.commands := by
  cases stored <;> rfl

theorem beginTurn_spares {s m : State} (a owner : Nat) (text : String) (counted recorded : Bool)
    (stream : m.stream = s.stream) (stands : ∀ v, Stands (s.turns v) (m.turns v))
    (counter : m.store.counter = s.store.counter) :
    Spares s (beginTurn m a owner text counted recorded) := by
  cases counted
  · exact ⟨stream,fun v => .inl (stands v),counter.ge⟩
  have later : s.store.counter ≤ m.store.counter + 1 := by omega
  cases recorded
  · exact ⟨stream,fun v => .inl (stands v),later⟩
  · refine ⟨stream,fun v => ?_,later⟩
    by_cases new : v = m.store.counter + 1
    · subst v
      exact .inr ⟨by omega,by simp [beginTurn,Store.nextTurnId]⟩
    · exact .inl (by simpa [beginTurn,Store.nextTurnId,new] using stands v)

/-- `chat.send` creates the task of its turn. -/
def createTask (s : State) (a t : Nat) (text : String) : State :=
  (s.modify t fun r => { r with task := .created text }).setCommand a none

theorem commandResumes_taken {s u : State} {a : Nat} {counted recorded : Bool}
    (taken : step s (.commandResumes a counted recorded) = some u) :
    (∃ t owner text, s.commands a = some (.superseding t owner text) ∧
      u = beginTurn (s.modify t Turn.cancelJob) a owner text counted recorded) ∨
    (∃ t text, s.commands a = some (.starting t text) ∧ u = createTask s a t text) ∨
    ∃ t, s.commands a = some (.cancelling t) ∧
      u = (s.modify t Turn.cancelJob).setCommand a none := by
  simp only [step,commandResumes] at taken
  split at taken
  · next t owner text waits => exact .inl ⟨t,owner,text,waits,(Option.some.inj taken).symm⟩
  · next t text waits => exact .inr (.inl ⟨t,text,waits,(Option.some.inj taken).symm⟩)
  · next t waits => exact .inr (.inr ⟨t,waits,(Option.some.inj taken).symm⟩)
  · cases taken

/-- Unless a task goes on or is created, every task stands still. -/
theorem step_spares {s u : State} {op : Op} (taken : step s op = some u)
    (other : ∀ t stored, op ≠ .taskResumes t stored) :
    Spares s u ∨ ∃ a t text, s.commands a = some (.starting t text) ∧ u = createTask s a t text := by
  cases op with
  | startup => cases taken; exact .inl ((Spares.refl s).of_eq rfl rfl rfl)
  | chatSend a owner text stored counted recorded =>
    obtain ⟨_,rfl⟩ := chatSend_taken taken
    rcases chatSend_cases s a owner text stored counted recorded with ⟨t,_,_,same⟩ | ⟨_,same⟩ <;>
      rw [same]
    · exact .inl ((cancel_spares ..).of_eq rfl rfl rfl)
    · exact .inl (beginTurn_spares a owner text counted recorded rfl (fun v => .refl _) rfl)
  | turnCancel a session t stored =>
    obtain ⟨_,rfl⟩ := turnCancel_taken taken
    rcases turnCancel_cases s a session t stored with ⟨_,same⟩ | same <;> rw [same]
    · exact .inl ((cancel_spares ..).of_eq rfl rfl rfl)
    · exact .inl (.refl s)
  | commandResumes a counted recorded =>
    rcases commandResumes_taken taken with ⟨t,owner,text,waits,rfl⟩ | ⟨t,text,waits,rfl⟩ | ⟨t,waits,rfl⟩
    · exact .inl (beginTurn_spares a _ _ counted recorded rfl (cancelJob_stand s _) rfl)
    · exact .inr ⟨a,t,text,waits,rfl⟩
    · exact .inl (.update rfl rfl rfl (cancelJob_stands _))
  | taskResumes t stored => exact (other t stored rfl).elim
  | dispatch t =>
    obtain ⟨_,rfl⟩ := dispatch_taken taken
    exact .inl (.update rfl rfl rfl ⟨rfl,id,id⟩)
  | jobResumes t =>
    simp only [step,jobResumes] at taken
    split at taken <;> cases taken <;> exact .inl (.update rfl rfl rfl ⟨rfl,id,id⟩)
  | delta t delta =>
    obtain ⟨_,_,rfl⟩ := delta_taken taken
    simp only [onDelta]
    split
    · exact .inl (.refl s)
    · split <;> exact .inl (.update rfl rfl rfl ⟨rfl,id,id⟩)
  | llmEnds t outcome =>
    obtain ⟨_,_,_,rfl⟩ := llmEnds_taken taken
    exact .inl (.update rfl rfl rfl ⟨rfl,id,id⟩)
  | speechEnds t failure =>
    obtain ⟨_,_,running,_,_,rfl⟩ := speechEnds_taken taken
    exact .inl (.update rfl rfl rfl ⟨rfl,id,fun absent => by rw [running] at absent; cases absent⟩)

/-- A resumed task touches no other turn. -/
structure Alone (s u : State) (t : Nat) : Prop where
  turns : ∀ v, v ≠ t → u.turns v = s.turns v
  commands : u.commands = s.commands

theorem Alone.update {s u : State} {t : Nat} {r : Turn}
    (turns : u.turns = Function.update s.turns t r) (commands : u.commands = s.commands) :
    Alone s u t :=
  ⟨fun v other => by rw [turns,Function.update_of_ne other],commands⟩

theorem Alone.of_eq {s u v : State} {t : Nat} (alone : Alone u v t) (turns : u.turns = s.turns)
    (commands : u.commands = s.commands) : Alone s v t :=
  ⟨fun w other => (alone.turns w other).trans (congrFun turns w),alone.commands.trans commands⟩

theorem Alone.trans {s u v : State} {t : Nat} (first : Alone s u t) (second : Alone u v t) :
    Alone s v t :=
  ⟨fun w other => (second.turns w other).trans (first.turns w other),
    second.commands.trans first.commands⟩

theorem showError_alone (s : State) (t : Nat) (message : String) :
    Alone s (showError s t message) t := .update rfl rfl

theorem handle_alone (s : State) (t : Nat) (failure : Option String) :
    Alone s (handle s t failure) t := by
  simp only [handle]
  split
  · exact .update rfl rfl
  · exact .update rfl rfl
  · cases failure <;> exact .update rfl rfl

theorem storeReply_alone (s : State) (t : Nat) (stored : Bool) :
    Alone s (storeReply s t stored) t := by
  simp only [storeReply]
  cases stored
  · exact (handle_alone _ t _).of_eq rfl rfl
  · simp only [if_true]
    split
    · exact .update rfl rfl
    · exact (showError_alone _ t _).of_eq rfl rfl
    · exact (handle_alone _ t _).of_eq rfl rfl
    · exact .update rfl rfl

theorem finish_alone (s : State) (t : Nat) (status : Status) (stored : Bool)
    {raised : State → State} (raises : ∀ u, Alone u (raised u) t) :
    Alone s (finish s t status stored raised) t := by
  have marked : Alone s (s.modify t fun r => { r with status := status }) t := .update rfl rfl
  simp only [finish]
  split
  · cases stored
    · exact marked.trans (raises _)
    · exact marked.trans (.update rfl rfl)
  · exact .update rfl rfl

theorem resumeWith_alone (s : State) (t : Nat) (stored : Bool) (wake : Wake) :
    Alone s (resumeWith s t stored wake) t := by
  have removed : Alone s (s.modify t Turn.removeJob) t := .update rfl rfl
  simp only [resumeWith]
  split
  · exact .update rfl rfl
  · cases stored
    · exact handle_alone ..
    · exact .update rfl rfl
  · exact .update rfl rfl
  · exact .update rfl rfl
  · exact removed.trans (handle_alone ..)
  · exact handle_alone ..
  · exact handle_alone ..
  · exact storeReply_alone ..
  · exact .update rfl rfl
  · exact showError_alone ..
  · exact finish_alone s t _ stored fun u => handle_alone u t _
  · exact .update rfl rfl
  · exact showError_alone ..
  · exact finish_alone s t _ stored fun u => .update rfl rfl
  · exact .update rfl rfl
  · exact .update rfl rfl
  · simp only [decay]
    split <;> exact .update rfl rfl
  · exact .update rfl rfl
  · exact handle_alone ..

/-! ## Commands and unopened turns -/

def Turn.unopened (r : Turn) : Bool :=
  match r.task with
  | .absent | .created _ | .thinking => true
  | _ => false

/-- The task of a turn is created once, and has no speech before it opens its stream. -/
structure Starts (s : State) : Prop where
  starting : ∀ a t text, s.commands a = some (.starting t text) →
    t ≤ s.store.counter ∧ (s.turns t).task = .absent
  single : ∀ a b t text text', s.commands a = some (.starting t text) →
    s.commands b = some (.starting t text') → a = b
  silent : ∀ t, (s.turns t).unopened = true → (s.turns t).speech = .absent

theorem Starts.initial (tts : Bool) (store : Store) : Starts (init tts store) :=
  ⟨fun _ _ _ waits => (nomatch waits),fun _ _ _ _ _ waits => (nomatch waits),fun _ _ => rfl⟩

theorem Stands.unopened {r r' : Turn} (stands : Stands r r') : r'.unopened = r.unopened := by
  simp only [Turn.unopened,stands.task]

theorem Starts.still_silent {s u : State} (inv : Starts s) (spares : Spares s u) {t : Nat}
    (unopened : (u.turns t).unopened = true) : (u.turns t).speech = .absent := by
  rcases spares.turns t with stands | ⟨_,_,new⟩
  · exact stands.speech (inv.silent t (by rw [← stands.unopened]; exact unopened))
  · exact new

/-- No command has started a turn. -/
theorem Starts.spares {s u : State} (inv : Starts s) (spares : Spares s u)
    (commands : ∀ a t text, u.commands a = some (.starting t text) →
      s.commands a = some (.starting t text)) : Starts u where
  starting a t text waits := by
    obtain ⟨known,absent⟩ := inv.starting a t text (commands a t text waits)
    refine ⟨known.trans spares.counter,?_⟩
    rcases spares.turns t with stands | ⟨_,new,_⟩
    · rw [stands.task]; exact absent
    · exact new
  single a b t text text' first second :=
    inv.single a b t text text' (commands a t text first) (commands b t text' second)
  silent t unopened := inv.still_silent spares unopened

theorem update_starting {s : State} {a b t : Nat} {text : String} {command : Option Command}
    (waits : Function.update s.commands a command b = some (.starting t text))
    (none : ∀ t text, command ≠ some (.starting t text)) :
    s.commands b = some (.starting t text) := by
  by_cases same : b = a
  · subst b
    rw [Function.update_self] at waits
    exact (none t text waits).elim
  · rwa [Function.update_of_ne same] at waits

theorem Starts.beginTurn {s : State} (inv : Starts s) (a owner : Nat) (text : String)
    (counted recorded : Bool) :
    Starts (GhostRunner.Orchestrator.beginTurn s a owner text counted recorded) := by
  have spares := beginTurn_spares a owner text counted recorded (rfl : s.stream = s.stream)
    (fun v => Stands.refl (s.turns v)) rfl
  cases counted
  · exact inv.spares spares fun b t text waits => update_starting waits (by simp)
  cases recorded
  · exact inv.spares spares fun b t text waits => update_starting waits (by simp)
  have commands : (GhostRunner.Orchestrator.beginTurn s a owner text true true).commands =
      Function.update s.commands a (some (.starting (s.store.counter + 1) text)) := rfl
  have counter : (GhostRunner.Orchestrator.beginTurn s a owner text true true).store.counter =
      s.store.counter + 1 := rfl
  have older : ∀ b t text', b ≠ a →
      (GhostRunner.Orchestrator.beginTurn s a owner text true true).commands b =
        some (.starting t text') → s.commands b = some (.starting t text') := by
    intro b t text' other waits
    rwa [commands,Function.update_of_ne other] at waits
  have newest : ∀ t text',
      (GhostRunner.Orchestrator.beginTurn s a owner text true true).commands a =
        some (.starting t text') → t = s.store.counter + 1 := by
    intro t text' waits
    rw [commands,Function.update_self] at waits
    cases waits
    rfl
  refine ⟨?_,?_,fun t => inv.still_silent spares⟩
  · intro b t text' waits
    by_cases same : b = a
    · subst b
      obtain rfl := newest t text' waits
      refine ⟨le_rfl,?_⟩
      simp [GhostRunner.Orchestrator.beginTurn,Store.nextTurnId]
    · obtain ⟨known,absent⟩ := inv.starting b t text' (older b t text' same waits)
      refine ⟨known.trans spares.counter,?_⟩
      rcases spares.turns t with stands | ⟨_,new,_⟩
      · rw [stands.task]; exact absent
      · exact new
  · intro b b' t text' text'' first second
    by_cases same : b = a <;> by_cases same' : b' = a
    · rw [same,same']
    · subst b
      obtain rfl := newest t text' first
      have known := (inv.starting b' _ text'' (older b' _ text'' same' second)).1
      omega
    · subst b'
      obtain rfl := newest t text'' second
      have known := (inv.starting b _ text' (older b _ text' same first)).1
      omega
    · exact inv.single b b' t text' text'' (older b t text' same first)
        (older b' t text'' same' second)

theorem Starts.createTask {s : State} {a t : Nat} {text : String} (inv : Starts s)
    (waits : s.commands a = some (.starting t text)) :
    Starts (GhostRunner.Orchestrator.createTask s a t text) := by
  have older : ∀ b v text', (GhostRunner.Orchestrator.createTask s a t text).commands b =
      some (.starting v text') → s.commands b = some (.starting v text') ∧ v ≠ t := by
    intro b v text' later
    have before := update_starting later (by simp)
    refine ⟨before,?_⟩
    rintro rfl
    obtain rfl := inv.single b a v text' text before waits
    simp [GhostRunner.Orchestrator.createTask] at later
  refine ⟨?_,?_,?_⟩
  · intro b v text' later
    obtain ⟨before,other⟩ := older b v text' later
    simpa [GhostRunner.Orchestrator.createTask,other] using inv.starting b v text' before
  · intro b b' v text' text'' first second
    exact inv.single b b' v text' text'' (older b v text' first).1 (older b' v text'' second).1
  · intro v unopened
    by_cases same : v = t
    · subst v
      have silent := inv.silent t (by simp [Turn.unopened,(inv.starting a t text waits).2])
      simpa [GhostRunner.Orchestrator.createTask] using silent
    · simp only [GhostRunner.Orchestrator.createTask,State.setCommand] at unopened ⊢
      rw [State.modify_other _ same] at unopened ⊢
      exact inv.silent v unopened

theorem handle_opened (s : State) (t : Nat) (failure : Option String) :
    ((handle s t failure).turns t).unopened = false := by
  simp only [handle]
  split
  · simp [Turn.unopened]
  · simp [Turn.unopened]
  · cases failure <;> simp [unwind,showError,Turn.unopened]

theorem storeReply_opened (s : State) (t : Nat) (stored : Bool) :
    ((storeReply s t stored).turns t).unopened = false := by
  simp only [storeReply]
  cases stored
  · exact handle_opened _ t _
  · simp only [if_true]
    split
    · simp [Turn.unopened]
    · simp [onTtsError,showError,Turn.unopened]
    · exact handle_opened _ t _
    · simp [succeed,Turn.unopened]

theorem finish_opened (s : State) (t : Nat) (status : Status) (stored : Bool)
    {raised : State → State} (raises : ∀ u, ((raised u).turns t).unopened = false) :
    ((finish s t status stored raised).turns t).unopened = false := by
  simp only [finish]
  split
  · cases stored
    · exact raises _
    · simp [Turn.unopened]
  · simp [Turn.unopened]

/-- Only the first step leaves a turn without its stream. -/
theorem resumeWith_opened (s : State) (t : Nat) (stored : Bool) (wake : Wake) :
    ((resumeWith s t stored wake).turns t).unopened = false ∨
      ∃ text, (s.turns t).task = .created text ∧
        resumeWith s t stored wake = startTurn s t text true := by
  simp only [resumeWith]
  split
  · exact .inl (by simp [Turn.unopened])
  · next text created _ =>
    cases stored
    · exact .inl (handle_opened ..)
    · exact .inr ⟨text,created,rfl⟩
  · exact .inl (by simp [openStream,Turn.unopened])
  · exact .inl (by simp [closeStream,Turn.unopened])
  · exact .inl (handle_opened ..)
  · exact .inl (handle_opened ..)
  · exact .inl (handle_opened ..)
  · exact .inl (storeReply_opened ..)
  · exact .inl (by simp [succeed,Turn.unopened])
  · exact .inl (by simp [onTtsError,showError,Turn.unopened])
  · exact .inl (finish_opened s t _ stored fun u => handle_opened u t _)
  · exact .inl (by simp [unwind,Turn.unopened])
  · exact .inl (by simp [showError,Turn.unopened])
  · exact .inl (finish_opened s t _ stored fun u => by simp [Turn.unopened])
  · exact .inl (by simp [Turn.unopened])
  · exact .inl (by simp [Turn.unopened])
  · refine .inl ?_
    simp only [decay]
    split <;> simp [Turn.unopened]
  · exact .inl (by simp [Turn.unopened])
  · exact .inl (handle_opened ..)

theorem Starts.resumed {s : State} {t : Nat} {stored : Bool} {wake : Wake} (inv : Starts s)
    (woken : (s.turns t).wake = some wake) : Starts (resumeWith s t stored wake) := by
  have alone := resumeWith_alone s t stored wake
  have counter : (resumeWith s t stored wake).store.counter = s.store.counter := by
    rcases resumeWith_foreground s t stored wake with keeps | ⟨_,_,closes⟩
    · exact keeps.counter
    · exact closes.counter
  refine ⟨?_,?_,?_⟩
  · intro a v text waits
    rw [alone.commands] at waits
    obtain ⟨known,absent⟩ := inv.starting a v text waits
    have other : v ≠ t := by
      rintro rfl
      simp [Turn.wake,absent] at woken
    rw [counter,alone.turns v other]
    exact ⟨known,absent⟩
  · intro a b v text text' first second
    rw [alone.commands] at first second
    exact inv.single a b v text text' first second
  · intro v unopened
    by_cases own : v = t
    · subst v
      rcases resumeWith_opened s t stored wake with opened | ⟨text,created,first⟩
      · rw [opened] at unopened; cases unopened
      · have silent := inv.silent t (by simp [Turn.unopened,created])
        rw [first]
        simpa [startTurn] using silent
    · rw [alone.turns v own] at unopened ⊢
      exact inv.silent v unopened

theorem Starts.step {s u : State} {op : Op} (inv : Starts s) (taken : step s op = some u) :
    Starts u := by
  by_cases resumed : ∃ t stored, op = .taskResumes t stored
  · obtain ⟨t,stored,rfl⟩ := resumed
    obtain ⟨wake,woken,rfl⟩ := Option.map_eq_some_iff.mp taken
    exact inv.resumed woken
  have standing := step_spares taken fun t stored same => resumed ⟨t,stored,same⟩
  rcases standing with spares | ⟨a,t,text,waits,rfl⟩
  case inr => exact inv.createTask waits
  cases op with
  | chatSend a owner text stored counted recorded =>
    obtain ⟨_,rfl⟩ := chatSend_taken taken
    rcases chatSend_cases s a owner text stored counted recorded with ⟨t,_,_,same⟩ | ⟨_,same⟩ <;>
      rw [same] at spares ⊢
    · refine inv.spares spares fun b v text' waits => ?_
      rw [← cancel_commands s t "superseded" stored]
      exact update_starting waits fun v text' => by split <;> simp
    · exact inv.beginTurn ..
  | turnCancel a session t stored =>
    obtain ⟨_,rfl⟩ := turnCancel_taken taken
    rcases turnCancel_cases s a session t stored with ⟨_,same⟩ | same <;> rw [same] at spares ⊢
    · refine inv.spares spares fun b v text' waits => ?_
      rw [← cancel_commands s t "user_cancel" stored]
      exact update_starting waits fun v text' => by split <;> simp
    · exact inv
  | commandResumes a counted recorded =>
    rcases commandResumes_taken taken with ⟨t,owner,text,waits,rfl⟩ | ⟨t,text,waits,rfl⟩ | ⟨t,waits,rfl⟩
    · have job : Spares s (s.modify t Turn.cancelJob) :=
        .update rfl rfl rfl (cancelJob_stands _)
      exact (inv.spares job fun _ _ _ => id).beginTurn ..
    · exact inv.createTask waits
    · exact inv.spares spares fun b v text' waits => update_starting waits (by simp)
  | taskResumes t stored => exact (resumed ⟨t,stored,rfl⟩).elim
  | startup => cases taken; exact inv.spares spares fun _ _ _ => id
  | dispatch t =>
    obtain ⟨_,rfl⟩ := dispatch_taken taken
    exact inv.spares spares fun _ _ _ => id
  | jobResumes t =>
    simp only [GhostRunner.Orchestrator.step,jobResumes] at taken
    split at taken <;> cases taken <;> exact inv.spares spares fun _ _ _ => id
  | delta t delta =>
    obtain ⟨_,_,rfl⟩ := delta_taken taken
    have commands : (onDelta s t delta).commands = s.commands := by
      simp only [onDelta]
      split
      · rfl
      · split <;> rfl
    exact inv.spares spares fun _ _ _ waits => commands ▸ waits
  | llmEnds t outcome =>
    obtain ⟨_,_,_,rfl⟩ := llmEnds_taken taken
    exact inv.spares spares fun _ _ _ => id
  | speechEnds t failure =>
    obtain ⟨_,_,_,_,_,rfl⟩ := speechEnds_taken taken
    exact inv.spares spares fun _ _ _ => id

/-- No task works for a turn that has not been issued. -/
def Unissued (s : State) : Prop := ∀ t, s.store.counter < t → (s.turns t).task = .absent

theorem Unissued.step {s u : State} {op : Op} (inv : Unissued s) (starts : Starts s)
    (taken : GhostRunner.Orchestrator.step s op = some u) : Unissued u := by
  by_cases resumed : ∃ t stored, op = .taskResumes t stored
  · obtain ⟨t,stored,rfl⟩ := resumed
    obtain ⟨wake,woken,rfl⟩ := Option.map_eq_some_iff.mp taken
    have counter : (resumeWith s t stored wake).store.counter = s.store.counter := by
      rcases resumeWith_foreground s t stored wake with keeps | ⟨_,_,closes⟩
      · exact keeps.counter
      · exact closes.counter
    intro v later
    rw [counter] at later
    have other : v ≠ t := by
      rintro rfl
      simp [Turn.wake,inv v later] at woken
    rw [(resumeWith_alone s t stored wake).turns v other]
    exact inv v later
  · rcases step_spares taken fun t stored same => resumed ⟨t,stored,same⟩ with
      spares | ⟨a,t,text,waits,rfl⟩
    · intro v later
      rcases spares.turns v with stands | ⟨_,absent,_⟩
      · rw [stands.task]
        exact inv v (spares.counter.trans_lt later)
      · exact absent
    · intro v later
      have known : t ≤ s.store.counter := (starts.starting a t text waits).1
      have other : v ≠ t := by rintro rfl; exact absurd later (not_lt.mpr known)
      simpa [createTask,other] using inv v later

end GhostRunner.Orchestrator
