import GhostRunner.OrchestratorStream
import GhostRunner.TurnsForeground

/-! How chat turns end, while the store works. A `TtsError` that the speech worker has raised
is raised again by `speech.cancel()`, which the handlers call before their cleanup. -/
namespace GhostRunner.Orchestrator

open Machine

/-- The row of the turn has a terminal status. -/
def closed (s : State) (t : Nat) : Bool :=
  match s.status t with
  | none | some .active => false
  | _ => true

/-- A turn whose task has ended is not the current one, its row is terminal, and `_stream` is
not its record. -/
def Finalised (s : State) : Prop :=
  ∀ t, (s.turns t).task = .ended →
    s.current ≠ some t ∧ closed s t = true ∧ s.stream ≠ some t

/-- Every write to the store that the step makes succeeds. -/
def Op.stores : Op → Bool
  | .chatSend _ _ _ stored counted recorded => stored && counted && recorded
  | .turnCancel _ _ _ stored => stored
  | .commandResumes _ counted recorded => counted && recorded
  | .taskResumes _ stored => stored
  | _ => true

def Speech.isFailed : Speech → Bool
  | .failed _ => true
  | _ => false

/-- An exception takes the task into a handler that calls `speech.cancel()`. -/
def Turn.raises (r : Turn) (wake : Wake) : Bool :=
  match r.task, wake with
  | .streaming, .llmError _ | .streaming, .failed => true
  | .thinking, .cancelled | .streaming, .cancelled | .closing, .cancelled
  | .speaking, .cancelled | .succeeding, .cancelled => true
  | _, _ => false

/-- The task is in its decay and will end in this step. -/
def lastStep (s : State) (t : Nat) : Bool :=
  match (s.turns t).task with
  | .holding => s.current.isSome
  | .idling => true
  | _ => false

/-- No handler cancels a worker that has failed, unless the turn is over and its record gone;
and no task ends its decay while its turn is not over. -/
def EndsWell (s : State) : Op → Prop
  | .taskResumes t _ =>
    (∀ wake ∈ (s.turns t).wake, (s.turns t).raises wake = true →
      (s.turns t).speech.isFailed = true → closed s t = true ∧ s.stream ≠ some t) ∧
      (lastStep s t = true → closed s t = true)
  | _ => True

instance (s : State) : DecidablePred (EndsWell s)
  | .taskResumes .. => inferInstanceAs (Decidable (_ ∧ _))
  | .startup | .chatSend .. | .turnCancel .. | .commandResumes .. | .dispatch .. |
    .jobResumes .. | .delta .. | .llmEnds .. | .speechEnds .. => instDecidableTrue

/-! ## Rows -/

theorem closed_iff {s : State} {t : Nat} :
    closed s t = true ↔ ∃ status, s.status t = some status ∧ status ≠ .active := by
  simp only [closed]
  split
  · next none => simp [none]
  · next active => simp [active]
  · next other idle =>
    cases status : s.status t with
    | none => exact (other status).elim
    | some status' =>
      have terminal : status' ≠ .active := by rintro rfl; exact idle status
      simp [terminal]

theorem Closes.closed {s u : State} {t : Nat} {status : Status} (closes : Closes s u t status)
    (row : (s.status t).isSome = true) : closed u t = true := by
  obtain ⟨old,row⟩ := Option.isSome_iff_exists.mp row
  exact closed_iff.mpr ⟨status,by rw [closes.status_same,row]; rfl,closes.terminal⟩

theorem step_recorded {s u : State} {op : Op} (taken : step s op = some u) {t : Nat}
    (row : (s.status t).isSome = true) : (u.status t).isSome = true := by
  obtain ⟨status,found⟩ := Option.isSome_iff_exists.mp row
  have change := step_foreground taken
  split at change
  · obtain ⟨owner,records⟩ := change
    rw [records.status_other (records.older found)]
    exact row
  · rcases change with keeps | skips | ⟨v,status',closes⟩
    · rw [keeps.status]; exact row
    · rw [skips.status]; exact row
    · by_cases same : t = v
      · subst v; rw [closes.status_same,found]; rfl
      · rw [closes.status_other same]; exact row

theorem step_closed {s u : State} {op : Op} (taken : step s op = some u) {t : Nat}
    (ended : closed s t = true) : closed u t = true := by
  obtain ⟨status,row,terminal⟩ := closed_iff.mp ended
  have change := step_foreground taken
  split at change
  · obtain ⟨owner,records⟩ := change
    have kept := records.status_other (records.older row)
    exact closed_iff.mpr ⟨status,by rw [kept]; exact row,terminal⟩
  · rcases change with keeps | skips | ⟨v,status',closes⟩
    · exact closed_iff.mpr ⟨status,by rw [keeps.status]; exact row,terminal⟩
    · exact closed_iff.mpr ⟨status,by rw [skips.status]; exact row,terminal⟩
    · by_cases same : t = v
      · subst v; exact closes.closed (by rw [row]; rfl)
      · exact closed_iff.mpr ⟨status,by rw [closes.status_other same]; exact row,terminal⟩

theorem Owned.closed {s : State} (inv : Owned s) {t : Nat} (ended : closed s t = true) :
    s.current ≠ some t := by
  intro current
  obtain ⟨status,row,terminal⟩ := closed_iff.mp ended
  have active := (inv.current t current).2
  rw [row] at active
  exact terminal (Option.some.inj active)

/-! ## Doomed turns -/

/-- The task has not yet come to a handler or to the end of its speech. -/
def Turn.early (r : Turn) : Bool :=
  match r.task with
  | .absent | .created _ | .thinking | .streaming | .closing | .speaking => true
  | _ => false

/-- Something of the turn is, or will be, cancelled. -/
def Turn.doomed (r : Turn) : Bool :=
  r.asked || r.halted || r.future = .cancelled || r.task = .stopping none ||
    (r.early && (r.stopped || r.speech = .cancelled))

/-- The record of `_stream` may be that of a task that stands here. -/
def Turn.owns (r : Turn) : Bool :=
  match r.task with
  | .streaming | .closing | .stopping _ => true
  | _ => false

/-- The turn that a suspended command waits for has a row, or is over. -/
def Command.settled (s : State) : Command → Bool
  | .starting t _ => (s.status t).isSome
  | .superseding t _ _ | .cancelling t => closed s t

structure Settling (s : State) : Prop where
  owned : Owned s
  starts : Starts s
  rowed : ∀ t, (s.turns t).task ≠ .absent → (s.status t).isSome = true
  commands : ∀ a command, s.commands a = some command → command.settled s = true
  doomed : ∀ t, (s.turns t).doomed = true → closed s t = true
  owns : ∀ t, s.stream = some t → (s.turns t).owns = true
  ended : ∀ t, (s.turns t).task = .ended → closed s t = true

theorem Settling.finalised {s : State} (inv : Settling s) : Finalised s := by
  intro t ended
  have done := inv.ended t ended
  refine ⟨inv.owned.closed done,done,fun stream => ?_⟩
  have owns := inv.owns t stream
  simp [Turn.owns,ended] at owns

theorem Settling.initial (tts : Bool) (store : Store) : Settling (init tts store) where
  owned := Owned.initial tts store
  starts := Starts.initial tts store
  rowed t other := (other rfl).elim
  commands _ _ waits := nomatch waits
  doomed t doomed := by simp [init,Turn.doomed] at doomed
  owns _ none := nomatch none
  ended _ ended := nomatch ended

theorem step_settled {s u : State} {op : Op} (taken : step s op = some u) {command : Command}
    (settled : command.settled s = true) : command.settled u = true := by
  cases command with
  | starting t text => exact step_recorded taken settled
  | superseding t owner text => exact step_closed taken settled
  | cancelling t => exact step_closed taken settled

/-! ## Commands -/

theorem cancel_closed {s : State} {t : Nat} (inv : Owned s) (was : s.current = some t)
    (reason : String) : closed (cancel s t reason true) t = true := by
  obtain ⟨_,row⟩ := inv.current t was
  have closes : Closes s (cancel s t reason true) t .cancelled :=
    ⟨was,by decide,rfl,rfl,⟨some reason,rfl⟩,rfl⟩
  exact closes.closed (by rw [row]; rfl)

theorem beginTurn_commands {s : State} {a owner b : Nat} {text : String} {command : Command}
    (waits : (beginTurn s a owner text true true).commands b = some command) :
    (b ≠ a ∧ s.commands b = some command) ∨
      command.settled (beginTurn s a owner text true true) = true := by
  by_cases same : b = a
  · subst b
    refine .inr ?_
    have new : (beginTurn s a owner text true true).commands a =
        some (.starting (s.store.counter + 1) text) := Function.update_self ..
    obtain rfl := Option.some.inj (new.symm.trans waits)
    simp [Command.settled,beginTurn,Store.nextTurnId,Store.recordTurn,State.status]
  · exact .inl ⟨same,by rwa [show (beginTurn s a owner text true true).commands b = s.commands b
      from Function.update_of_ne same ..] at waits⟩

theorem setCommand_commands {s : State} {a b : Nat} {command : Command} {set : Option Command}
    (waits : (s.setCommand a set).commands b = some command) :
    s.commands b = some command ∨ set = some command := by
  by_cases same : b = a
  · subst b
    exact .inr (by simpa using waits)
  · exact .inl (by simpa [same] using waits)

theorem onDelta_commands (s : State) (t : Nat) (delta : String) :
    (onDelta s t delta).commands = s.commands := by
  simp only [onDelta]
  split
  · rfl
  · split <;> rfl

theorem step_commands {s u : State} {op : Op} (inv : Owned s) (stores : op.stores = true)
    (taken : step s op = some u) {b : Nat} {command : Command}
    (waits : u.commands b = some command) :
    s.commands b = some command ∨ command.settled u = true := by
  cases op with
  | chatSend a owner text stored counted recorded =>
    simp only [Op.stores,Bool.and_eq_true] at stores
    obtain ⟨⟨rfl,rfl⟩,rfl⟩ := stores
    obtain ⟨_,rfl⟩ := chatSend_taken taken
    rcases chatSend_cases s a owner text true true true with ⟨t,was,_,same⟩ | ⟨_,same⟩ <;>
      rw [same] at waits ⊢
    · rcases setCommand_commands waits with old | new
      · exact .inl old
      · cases new
        exact .inr (cancel_closed inv was _)
    · exact (beginTurn_commands waits).imp And.right id
  | turnCancel a session t stored =>
    obtain rfl : stored = true := stores
    obtain ⟨_,rfl⟩ := turnCancel_taken taken
    rcases turnCancel_cases s a session t true with ⟨was,same⟩ | same <;> rw [same] at waits ⊢
    · rcases setCommand_commands waits with old | new
      · exact .inl old
      · cases new
        exact .inr (cancel_closed inv was _)
    · exact .inl waits
  | commandResumes a counted recorded =>
    simp only [Op.stores,Bool.and_eq_true] at stores
    obtain ⟨rfl,rfl⟩ := stores
    rcases commandResumes_taken taken with ⟨t,owner,text,waits,rfl⟩ | ⟨t,text,waits,rfl⟩ | ⟨t,waits,rfl⟩
    · exact (beginTurn_commands waits).imp And.right id
    · exact .inl ((setCommand_commands waits).resolve_right (by simp))
    · exact .inl ((setCommand_commands waits).resolve_right (by simp))
  | taskResumes t stored =>
    obtain ⟨wake,_,rfl⟩ := Option.map_eq_some_iff.mp taken
    exact .inl ((resumeWith_alone s t stored wake).commands ▸ waits)
  | startup => cases taken; exact .inl waits
  | dispatch t =>
    obtain ⟨_,rfl⟩ := dispatch_taken taken
    exact .inl waits
  | jobResumes t =>
    simp only [step,jobResumes] at taken
    split at taken <;> cases taken <;> exact .inl waits
  | delta t delta =>
    obtain ⟨_,_,rfl⟩ := delta_taken taken
    exact .inl (onDelta_commands s t delta ▸ waits)
  | llmEnds t outcome =>
    obtain ⟨_,_,_,rfl⟩ := llmEnds_taken taken
    exact .inl waits
  | speechEnds t failure =>
    obtain ⟨_,_,_,_,_,rfl⟩ := speechEnds_taken taken
    exact .inl waits

/-! ## Steps that leave the tasks alone -/

theorem beginTurn_turns (s : State) (a owner : Nat) (text : String) (counted recorded : Bool)
    (v : Nat) :
    (beginTurn s a owner text counted recorded).turns v = s.turns v ∨
      (beginTurn s a owner text counted recorded).turns v = { owner := owner } := by
  cases counted
  · exact .inl rfl
  cases recorded
  · exact .inl rfl
  by_cases new : v = s.store.counter + 1
  · exact .inr (by simp [beginTurn,Store.nextTurnId,new])
  · exact .inl (by simp [beginTurn,Store.nextTurnId,new])

theorem onDelta_turns (s : State) (t : Nat) (delta : String) :
    (onDelta s t delta).turns = s.turns ∨
      ∃ r, (onDelta s t delta).turns = Function.update s.turns t r ∧
        r.doomed = (s.turns t).doomed := by
  simp only [onDelta]
  split
  · exact .inl rfl
  · split <;> exact .inr ⟨_,rfl,rfl⟩

/-- A turn is only doomed by a cancellation that has made its row terminal. -/
theorem step_doomed {s u : State} {op : Op} (inv : Settling s) (stores : op.stores = true)
    (taken : step s op = some u) (other : ∀ t stored, op ≠ .taskResumes t stored) {v : Nat}
    (doomed : (u.turns v).doomed = true) : (s.turns v).doomed = true ∨ closed u v = true := by
  have moved := taken
  have modified : ∀ t r, u.turns = Function.update s.turns t r →
      r.doomed = (s.turns t).doomed → (s.turns v).doomed = true := by
    intro t r turns same
    rw [turns] at doomed
    by_cases own : v = t
    · subst v; rwa [Function.update_self,same] at doomed
    · rwa [Function.update_of_ne own] at doomed
  have fresh : ∀ m a owner text counted recorded,
      u = beginTurn m a owner text counted recorded → (m.turns v).doomed = true := by
    rintro m a owner text counted recorded rfl
    rcases beginTurn_turns m a owner text counted recorded v with same | new
    · rwa [same] at doomed
    · rw [new] at doomed; simp [Turn.doomed] at doomed
  have cancelled : ∀ t reason a command, s.current = some t →
      u = (cancel s t reason true).setCommand a command →
      (s.turns v).doomed = true ∨ closed u v = true := by
    rintro t reason a command was rfl
    by_cases own : v = t
    · subst v; exact .inr (cancel_closed inv.owned was reason)
    · exact .inl (by simpa [cancel,own] using doomed)
  have dropped : ∀ t, closed s t = true → ((s.modify t Turn.cancelJob).turns v).doomed = true →
      (s.turns v).doomed = true ∨ closed u v = true := by
    intro t ended drops
    by_cases own : v = t
    · subst v; exact .inr (step_closed taken ended)
    · exact .inl (by simpa [own] using drops)
  cases op with
  | startup => cases taken; exact .inl doomed
  | chatSend a owner text stored counted recorded =>
    simp only [Op.stores,Bool.and_eq_true] at stores
    obtain ⟨⟨rfl,rfl⟩,rfl⟩ := stores
    obtain ⟨_,rfl⟩ := chatSend_taken moved
    rcases chatSend_cases s a owner text true true true with ⟨t,was,_,same⟩ | ⟨_,same⟩
    · exact cancelled t _ a _ was same
    · exact .inl (fresh s a owner text true true same)
  | turnCancel a session t stored =>
    obtain rfl : stored = true := stores
    obtain ⟨_,rfl⟩ := turnCancel_taken moved
    rcases turnCancel_cases s a session t true with ⟨was,same⟩ | same
    · exact cancelled t _ a _ was same
    · rw [same] at doomed; exact .inl doomed
  | commandResumes a counted recorded =>
    rcases commandResumes_taken moved with ⟨t,owner,text,waits,rfl⟩ | ⟨t,text,waits,rfl⟩ | ⟨t,waits,rfl⟩
    · exact dropped t (inv.commands a _ waits) (fresh _ a owner text counted recorded rfl)
    · have absent := (inv.starts.starting a t text waits).2
      exact .inl (modified t _ rfl (by simp [Turn.doomed,Turn.early,absent]))
    · exact dropped t (inv.commands a _ waits) doomed
  | taskResumes t stored => exact (other t stored rfl).elim
  | dispatch t =>
    obtain ⟨_,rfl⟩ := dispatch_taken moved
    exact .inl (modified t _ rfl (by simp [Turn.doomed,Turn.early]))
  | jobResumes t =>
    simp only [step,jobResumes] at moved
    split at moved <;> cases moved
    all_goals
      next halted =>
        exact .inl (modified t _ rfl (by simp [Turn.doomed,Turn.early,halted]))
  | delta t delta =>
    obtain ⟨_,_,rfl⟩ := delta_taken moved
    rcases onDelta_turns s t delta with same | ⟨r,same,unchanged⟩
    · exact .inl (same ▸ doomed)
    · exact .inl (modified t r same unchanged)
  | llmEnds t outcome =>
    obtain ⟨_,_,ends,rfl⟩ := llmEnds_taken moved
    refine .inl (modified t _ rfl ?_)
    simp only [Turn.doomed,Turn.early]
    split
    · next pending => simp [pending,ends.2]
    · rfl
  | speechEnds t failure =>
    obtain ⟨final,speech,running,_,stopped,rfl⟩ := speechEnds_taken moved
    refine .inl (modified t _ rfl ?_)
    by_cases cancelled : speech = .cancelled
    · simp [Turn.doomed,Turn.early,stopped cancelled]
    · simp [Turn.doomed,Turn.early,running,cancelled]

/-! ## Tasks that go on -/

/-- What a task that goes on may do to its own turn. -/
structure Settles (s u : State) (t : Nat) : Prop where
  doomed : (u.turns t).doomed = true → (s.turns t).doomed = true ∨ closed s t = true
  owns : u.stream = some t → (u.turns t).owns = true
  ended : (u.turns t).task = .ended → closed s t = true

theorem cancelled_doomed {r : Turn} (woken : r.wake = some .cancelled) : r.doomed = true := by
  by_cases asked : r.asked = true
  · simp [Turn.doomed,asked]
  · simp only [Turn.wake] at woken
    split at woken
    · cases woken
    · cases woken
    · split at woken <;> simp_all [Turn.doomed]
    · next task => split at woken <;> simp_all [Turn.doomed,Turn.early]
    · split at woken <;> cases woken
    all_goals simp [asked] at woken

/-- No cancellation is new. -/
structure Unharmed (r r' : Turn) : Prop where
  asked : r'.asked = false ∨ r'.asked = r.asked
  halted : r'.halted = r.halted
  future : r'.future = r.future
  task : r'.task ≠ .stopping none
  early : r'.early = false ∨ r.early = true ∧ r'.stopped = r.stopped ∧
    (r'.speech = .cancelled → r.speech = .cancelled)

theorem Unharmed.doomed {r r' : Turn} (unharmed : Unharmed r r') (doomed : r'.doomed = true) :
    r.doomed = true := by
  obtain ⟨asked,halted,future,task,early⟩ := unharmed
  simp only [Turn.doomed,Bool.or_eq_true,Bool.and_eq_true,decide_eq_true_eq] at doomed ⊢
  rcases doomed with (((asks | halts) | drops) | stops) | ⟨still,harm⟩
  · rcases asked with unasked | same
    · rw [unasked] at asks; cases asks
    · exact .inl (.inl (.inl (.inl (same ▸ asks))))
  · exact .inl (.inl (.inl (.inr (halted ▸ halts))))
  · exact .inl (.inl (.inr (future ▸ drops)))
  · exact (task stops).elim
  · rcases early with late | ⟨was,stopped,speech⟩
    · rw [late] at still; cases still
    · exact .inr ⟨was,harm.imp (stopped ▸ ·) speech⟩

theorem Settles.update {s u : State} {t : Nat} {r : Turn}
    (turns : u.turns = Function.update s.turns t r) (unharmed : Unharmed (s.turns t) r)
    (owns : u.stream = some t → r.owns = true) (ended : r.task ≠ .ended) : Settles s u t := by
  have own : u.turns t = r := by rw [turns,Function.update_self]
  refine ⟨fun doomed => .inl ?_,fun stream => ?_,fun ends => ?_⟩
  · rw [own] at doomed; exact unharmed.doomed doomed
  · rw [own]; exact owns stream
  · rw [own] at ends; exact (ended ends).elim

/-- The turn's affairs were in order already. -/
theorem Settles.over {s u : State} {t : Nat} (ends : closed s t = true)
    (stream : u.stream ≠ some t) : Settles s u t :=
  ⟨fun _ => .inr ends,fun own => (stream own).elim,fun _ => ends⟩

theorem showError_settles (s : State) (t : Nat) (message : String) :
    Settles s (showError s t message) t :=
  .update rfl ⟨.inl rfl,rfl,rfl,by simp,.inl rfl⟩ (fun stream => by cases stream) (by simp)

theorem handle_settles {s : State} {t : Nat} {failure : Option String}
    (done : failure = none → closed s t = true)
    (failed : (s.turns t).speech.isFailed = true → closed s t = true ∧ s.stream ≠ some t) :
    Settles s (handle s t failure) t := by
  simp only [handle]
  cases speech : (s.turns t).speech
  case running final =>
    cases failure with
    | none =>
      exact ⟨fun _ => .inr (done rfl),fun _ => by simp [Turn.owns],fun ended => by simp at ended⟩
    | some message =>
      exact .update rfl ⟨.inl rfl,rfl,rfl,by simp,.inl rfl⟩ (fun _ => rfl) (by simp)
  case failed text =>
    obtain ⟨ends,other⟩ := failed (by rw [speech]; rfl)
    exact .over ends other
  all_goals
    cases failure with
    | none => exact .over (done rfl) fun stream => by cases stream
    | some message => exact showError_settles s t message

/-- The record of `_stream` is not this turn's, and the step leaves it in place. -/
theorem Settles.apart {s u : State} {t : Nat} {r : Turn} (other : s.stream ≠ some t)
    (stream : u.stream = s.stream) (turns : u.turns = Function.update s.turns t r)
    (unharmed : Unharmed (s.turns t) r) (ended : r.task ≠ .ended) : Settles s u t :=
  .update turns unharmed (fun own => (other (stream ▸ own)).elim) ended

theorem storeReply_settles {s : State} {t : Nat} (closing : (s.turns t).task = .closing)
    (done : (s.turns t).doomed = true → closed s t = true) : Settles s (storeReply s t true) t := by
  have written : ∀ u, Settles { s with
      stream := none
      store := s.store.appendMessage t .assistant (String.join (s.turns t).record.parts) } u t →
      Settles s u t := fun u settles => ⟨settles.doomed,settles.owns,settles.ended⟩
  simp only [storeReply,if_true]
  cases speech : (s.turns t).speech
  case running final =>
    have early : (s.turns t).early = true := by simp [Turn.early,closing]
    exact .update rfl ⟨.inr rfl,rfl,rfl,by simp,.inr ⟨early,rfl,by simp⟩⟩
      (fun stream => by cases stream) (by simp)
  case failed text => exact written _ (showError_settles _ t _)
  case cancelled =>
    have ends := done (by simp [Turn.doomed,Turn.early,closing,speech])
    exact written _ (handle_settles (fun _ => ends) fun failed => by
      simp [speech,Speech.isFailed] at failed)
  all_goals
    exact .update rfl ⟨.inr rfl,rfl,rfl,by simp,.inl rfl⟩ (fun stream => by cases stream)
      (by simp)

theorem finish_settles {s : State} {t : Nat} {status : Status} {raised : State → State}
    (other : s.stream ≠ some t) : Settles s (finish s t status true raised) t := by
  simp only [finish]
  split
  · have turns : (((s.modify t fun r => { r with status := status }).modify t fun r =>
        { r with task := .finishing }).turns) =
        Function.update s.turns t { s.turns t with status := status, task := .finishing } := by
      simp [State.modify]
    exact .apart other rfl turns ⟨.inr rfl,rfl,rfl,by simp,.inl rfl⟩ (by simp)
  · exact .apart other rfl rfl ⟨.inr rfl,rfl,rfl,by simp,.inl rfl⟩ (by simp)

/-- Only the LLM stream and the speech worker raise anything but `CancelledError`. -/
theorem plain_wake {r : Turn} {wake : Wake} (woken : r.wake = some wake)
    (stream : r.task ≠ .streaming) (speech : r.task ≠ .speaking) :
    wake = .cancelled ∨ wake = .returns := by
  simp only [Turn.wake] at woken
  split at woken
  · cases woken
  · cases woken
  · next same => exact (stream same).elim
  · next same => exact (speech same).elim
  · split at woken <;> cases woken
    exact .inr rfl
  · cases woken; exact .inr rfl
  · cases woken; exact .inr rfl
  · cases woken; exact .inr rfl
  · split at woken <;> cases woken
    · exact .inl rfl
    · exact .inr rfl

/-- The LLM stream is over, one way or another. -/
theorem streaming_settles {s : State} {t : Nat} {wake : Wake}
    (woken : (s.turns t).wake = some wake) (task : (s.turns t).task = .streaming)
    (cancelled : wake = .cancelled → closed s t = true)
    (fails : (s.turns t).raises wake = true → (s.turns t).speech.isFailed = true →
      closed s t = true ∧ s.stream ≠ some t) : Settles s (resumeWith s t true wake) t := by
  cases wake <;> simp only [resumeWith,task]
  case returns =>
    have early : (s.turns t).early = true := by simp [Turn.early,task]
    exact .update rfl ⟨.inr rfl,rfl,rfl,by simp,.inr ⟨early,rfl,id⟩⟩ (fun _ => rfl) (by simp)
  case cancelled =>
    have ends := cancelled rfl
    have settles : Settles (s.modify t Turn.removeJob) (onCancelled (s.modify t Turn.removeJob) t)
        t := by
      refine handle_settles (fun _ => ends) fun failed => ?_
      simp only [State.modify_same,removeJob_speech] at failed
      exact fails (by simp [Turn.raises,task]) failed
    exact ⟨fun _ => .inr ends,settles.owns,fun _ => ends⟩
  case ttsError text =>
    simp only [Turn.wake,task] at woken
    split at woken <;> cases woken
  case llmError text =>
    exact handle_settles (fun none => by cases none) (fails (by simp [Turn.raises,task]))
  case failed =>
    exact handle_settles (fun none => by cases none) (fails (by simp [Turn.raises,task]))

/-- With the store working, a task that goes on keeps its turn's affairs in order. -/
theorem resumeWith_settles {s : State} {t : Nat} {wake : Wake}
    (woken : (s.turns t).wake = some wake)
    (done : (s.turns t).doomed = true → closed s t = true)
    (owns : s.stream = some t → (s.turns t).owns = true)
    (well : EndsWell s (.taskResumes t true)) : Settles s (resumeWith s t true wake) t := by
  obtain ⟨handled,last⟩ := well
  have fails := handled wake woken
  have cancelled : wake = .cancelled → closed s t = true := by
    rintro rfl
    exact done (cancelled_doomed woken)
  have other : (s.turns t).owns = false → s.stream ≠ some t := by
    intro apart stream
    rw [owns stream] at apart
    cases apart
  have handles : wake = .cancelled → (s.turns t).raises wake = true →
      Settles s (onCancelled s t) t := fun same raises =>
    handle_settles (fun _ => cancelled same) (fails raises)
  cases task : (s.turns t).task
  case created text =>
    have apart := other (by simp [Turn.owns,task])
    rcases plain_wake woken (by simp [task]) (by simp [task]) with rfl | rfl <;>
      simp only [resumeWith,task]
    · exact .over (cancelled rfl) apart
    · have early : (s.turns t).early = true := by simp [Turn.early,task]
      exact .apart apart rfl rfl ⟨.inr rfl,rfl,rfl,by simp,.inr ⟨early,rfl,id⟩⟩ (by simp)
  case thinking =>
    rcases plain_wake woken (by simp [task]) (by simp [task]) with rfl | rfl <;>
      simp only [resumeWith,task]
    · exact handles rfl (by simp [Turn.raises,task])
    · have early : (s.turns t).early = true := by simp [Turn.early,task]
      refine .update rfl ⟨.inr rfl,rfl,rfl,by simp,.inr ⟨early,rfl,fun drops => ?_⟩⟩
        (fun _ => rfl) (by simp)
      cases tts : s.tts <;> simp [tts] at drops
  case streaming => exact streaming_settles woken task cancelled fails
  case closing =>
    rcases plain_wake woken (by simp [task]) (by simp [task]) with rfl | rfl <;>
      simp only [resumeWith,task]
    · exact handles rfl (by simp [Turn.raises,task])
    · exact storeReply_settles task done
  case speaking =>
    have apart := other (by simp [Turn.owns,task])
    cases wake <;> simp only [resumeWith,task]
    case returns => exact .apart apart rfl rfl ⟨.inr rfl,rfl,rfl,by simp,.inl rfl⟩ (by simp)
    case cancelled => exact handles rfl (by simp [Turn.raises,task])
    case ttsError text => exact showError_settles s t _
    all_goals
      simp only [Turn.wake,task] at woken
      split at woken <;> cases woken
  case succeeding =>
    rcases plain_wake woken (by simp [task]) (by simp [task]) with rfl | rfl <;>
      simp only [resumeWith,task]
    · exact handles rfl (by simp [Turn.raises,task])
    · exact finish_settles (other (by simp [Turn.owns,task]))
  case stopping failure =>
    cases failure <;> simp only [resumeWith,task]
    case none =>
      exact .over (done (by simp [Turn.doomed,task])) fun stream => by cases stream
    case some message => exact showError_settles s t message
  case erring =>
    have apart := other (by simp [Turn.owns,task])
    rcases plain_wake woken (by simp [task]) (by simp [task]) with rfl | rfl <;>
      simp only [resumeWith,task]
    · exact .over (cancelled rfl) apart
    · exact finish_settles apart
  case finishing =>
    simp only [resumeWith,task]
    have apart := other (by simp [Turn.owns,task])
    exact .apart apart rfl rfl ⟨.inr rfl,rfl,rfl,by simp,.inl rfl⟩ (by simp)
  case holding =>
    have apart := other (by simp [Turn.owns,task])
    simp only [resumeWith,task,decay]
    split
    · exact .apart apart rfl rfl ⟨.inr rfl,rfl,rfl,by simp,.inl rfl⟩ (by simp)
    · next busy =>
      exact .over (last (by simpa [lastStep,task,Option.isSome_iff_ne_none] using busy)) apart
  case idling =>
    simp only [resumeWith,task]
    exact .over (last (by simp [lastStep,task])) (other (by simp [Turn.owns,task]))
  case absent => simp [Turn.wake,task] at woken
  case ended => simp [Turn.wake,task] at woken

/-! ## Runs -/

theorem Stands.owns {r r' : Turn} (stands : Stands r r') : r'.owns = r.owns := by
  simp only [Turn.owns,stands.task]

/-- A turn that opens no stream has no record in the slot. -/
theorem Settling.recorded {s : State} (inv : Settling s) {t : Nat} (stream : s.stream = some t) :
    t ≤ s.store.counter := by
  have owns := inv.owns t stream
  have row := inv.rowed t (by intro absent; simp [Turn.owns,absent] at owns)
  by_contra later
  have none := s.store.fresh t (by omega)
  simp [State.status,none] at row

theorem Settling.commands_step {s u : State} {op : Op} (inv : Settling s)
    (stores : op.stores = true) (taken : step s op = some u) (a : Nat) (command : Command)
    (waits : u.commands a = some command) : command.settled u = true := by
  rcases step_commands inv.owned stores taken waits with before | settled
  · exact step_settled taken (inv.commands a command before)
  · exact settled

theorem Settling.spares {s u : State} {op : Op} (inv : Settling s) (stores : op.stores = true)
    (taken : step s op = some u) (other : ∀ t stored, op ≠ .taskResumes t stored) :
    Settling u := by
  refine ⟨inv.owned.step taken,inv.starts.step taken,?_,inv.commands_step stores taken,?_,?_,?_⟩
  · intro v present
    rcases step_spares taken other with spares | ⟨a,t,text,waits,rfl⟩
    · rcases spares.turns v with stands | ⟨_,new,_⟩
      · exact step_recorded taken (inv.rowed v (by rw [← stands.task]; exact present))
      · exact (present new).elim
    · by_cases same : v = t
      · subst v; exact step_recorded taken (inv.commands a _ waits)
      · exact step_recorded taken (inv.rowed v (by simpa [createTask,same] using present))
  · intro v doomed
    rcases step_doomed inv stores taken other doomed with before | ended
    · exact step_closed taken (inv.doomed v before)
    · exact ended
  · intro v stream
    rcases step_spares taken other with spares | ⟨a,t,text,waits,rfl⟩
    · rw [spares.stream] at stream
      rcases spares.turns v with stands | ⟨later,_⟩
      · rw [stands.owns]; exact inv.owns v stream
      · have known := inv.recorded stream
        omega
    · have owns := inv.owns v stream
      have other : v ≠ t := by
        rintro rfl
        simp [Turn.owns,(inv.starts.starting a v text waits).2] at owns
      simpa [createTask,other] using owns
  · intro v ended
    rcases step_spares taken other with spares | ⟨a,t,text,_,rfl⟩
    · rcases spares.turns v with stands | ⟨_,new,_⟩
      · exact step_closed taken (inv.ended v (by rw [← stands.task]; exact ended))
      · rw [new] at ended; cases ended
    · by_cases same : v = t
      · subst v; simp [createTask] at ended
      · exact step_closed taken (inv.ended v (by simpa [createTask,same] using ended))

theorem Settling.taskResumes {s u : State} {t : Nat} (inv : Settling s)
    (well : EndsWell s (.taskResumes t true)) (taken : step s (.taskResumes t true) = some u) :
    Settling u := by
  obtain ⟨wake,woken,resumed⟩ := Option.map_eq_some_iff.mp taken
  have settles := resumeWith_settles woken (inv.doomed t) (inv.owns t) well
  have alone := resumeWith_alone s t true wake
  have assigned := (resumeWith_assigned s t true wake).stream
  rw [resumed] at settles alone assigned
  refine ⟨inv.owned.step taken,inv.starts.step taken,?_,inv.commands_step rfl taken,?_,?_,?_⟩
  · intro v present
    refine step_recorded taken (inv.rowed v ?_)
    by_cases own : v = t
    · subst v; intro absent; simp [Turn.wake,absent] at woken
    · rw [← alone.turns v own]; exact present
  · intro v doomed
    by_cases own : v = t
    · subst v
      rcases settles.doomed doomed with before | ended
      · exact step_closed taken (inv.doomed t before)
      · exact step_closed taken ended
    · rw [alone.turns v own] at doomed
      exact step_closed taken (inv.doomed v doomed)
  · intro v stream
    by_cases own : v = t
    · subst v; exact settles.owns stream
    rw [alone.turns v own]
    split at assigned
    · rcases assigned with none | mine
      · rw [none] at stream; cases stream
      · exact (own (Option.some.inj (stream.symm.trans mine))).elim
    · exact inv.owns v (assigned ▸ stream)
  · intro v ended
    by_cases own : v = t
    · subst v; exact step_closed taken (settles.ended ended)
    · rw [alone.turns v own] at ended
      exact step_closed taken (inv.ended v ended)

theorem endsWell_keeps {s u : State} {op : Op} (inv : Settling s) (stores : op.stores = true)
    (well : EndsWell s op) (taken : step s op = some u) : Settling u := by
  by_cases resumed : ∃ t stored, op = .taskResumes t stored
  · obtain ⟨t,stored,rfl⟩ := resumed
    obtain rfl : stored = true := stores
    exact inv.taskResumes well taken
  · exact inv.spares stores taken fun t stored same => resumed ⟨t,stored,same⟩

theorem handle_failed {s : State} {t : Nat} (failed : (s.turns t).speech.isFailed = true)
    (failure : Option String) :
    handle s t failure = s.modify t fun r => { r with task := .ended } := by
  simp only [handle]
  cases speech : (s.turns t).speech <;> simp [speech,Speech.isFailed] at failed ⊢

/-- The worker's `TtsError` leaves the handler before its cleanup. -/
theorem escape_ends {s : State} {t : Nat} {wake : Wake} (stored : Bool)
    (raises : (s.turns t).raises wake = true) (failed : (s.turns t).speech.isFailed = true) :
    ((resumeWith s t stored wake).turns t).task = .ended ∧
      (resumeWith s t stored wake).stream = s.stream ∧
      (resumeWith s t stored wake).store = s.store := by
  have ends : ∀ failure, ((handle s t failure).turns t).task = .ended ∧
      (handle s t failure).stream = s.stream ∧ (handle s t failure).store = s.store := by
    intro failure
    rw [handle_failed failed]
    exact ⟨by simp,rfl,rfl⟩
  simp only [Turn.raises] at raises
  split at raises
  case h_1 text task => simp only [resumeWith,task]; exact ends _
  case h_2 task => simp only [resumeWith,task]; exact ends _
  case h_4 task =>
    simp only [resumeWith,task,onCancelled]
    rw [handle_failed (by simpa using failed)]
    exact ⟨by simp,rfl,rfl⟩
  case h_8 => cases raises
  all_goals
    next task => simp only [resumeWith,task]; exact ends none

theorem lastStep_ends {s : State} {t : Nat} (last : lastStep s t = true) (stored : Bool)
    (wake : Wake) :
    ((resumeWith s t stored wake).turns t).task = .ended ∧
      (resumeWith s t stored wake).store = s.store := by
  simp only [lastStep] at last
  split at last
  · next task =>
    have busy : s.current ≠ none := Option.isSome_iff_ne_none.mp last
    simp [resumeWith,task,decay,busy]
  · next task => simp [resumeWith,task]
  · cases last

theorem badEnd_breaks {s u : State} {op : Op} (taken : step s op = some u)
    (bad : ¬EndsWell s op) : ¬Finalised u := by
  cases op with
  | taskResumes t stored =>
    obtain ⟨wake,woken,rfl⟩ := Option.map_eq_some_iff.mp taken
    intro finalised
    refine bad ⟨fun wake' woken' raises failed => ?_,fun last => ?_⟩
    · obtain rfl : wake = wake' := Option.some.inj (woken.symm.trans woken')
      obtain ⟨ended,stream,store⟩ := escape_ends stored raises failed
      obtain ⟨_,done,other⟩ := finalised t ended
      simp only [closed,State.status,store] at done ⊢
      exact ⟨done,stream ▸ other⟩
    · obtain ⟨ended,store⟩ := lastStep_ends last stored wake
      obtain ⟨_,done,_⟩ := finalised t ended
      simpa only [closed,State.status,store] using done
  | _ => exact (bad trivial).elim

theorem finalised_throughout_iff (tts : Bool) (store : Store) (ops : List Op) (s : State)
    (stores : ∀ op ∈ ops, op.stores = true)
    (reached : run step (init tts store) ops = some s) :
    Throughout step Finalised (init tts store) ops ↔
      Meets step EndsWell (init tts store) ops :=
  throughout_iff_meets_of
    (fun _ _ _ inv stores well taken => endsWell_keeps inv stores well taken)
    (fun _ inv => inv.finalised)
    (fun _ _ _ _ _ taken bad => badEnd_breaks taken bad)
    (Settling.initial tts store) stores reached

/-- The LLM stream breaks after the speech worker has failed on the first sentence. -/
def failedTwice : List Op := [
  .chatSend 0 1 "a" true true true,
  .commandResumes 0 true true,
  .taskResumes 1 true,
  .taskResumes 1 true,
  .dispatch 1,
  .jobResumes 1,
  .delta 1 "Hi! Wait",
  .jobResumes 1,
  .jobResumes 1,
  .speechEnds 1 (some "no audio"),
  .llmEnds 1 (.llmError "connection lost"),
  .taskResumes 1 true]

/-- The task is gone, and its turn stays current, active and in `_stream`. -/
theorem failedTwice_leavesTurn :
    ∃ s, run step (init true emptyStore) failedTwice = some s ∧
      (s.turns 1).task = .ended ∧ s.current = some 1 ∧ s.status 1 = some .active ∧
      s.stream = some 1 ∧ ¬Finalised s := by
  have lost : ∃ s, run step (init true emptyStore) failedTwice = some s ∧
      ((s.turns 1).task = .ended ∧ s.current = some 1 ∧ s.status 1 = some .active ∧
        s.stream = some 1) := exists_of_eval (by decide +kernel)
  obtain ⟨s,reached,ended,current,row,stream⟩ := lost
  exact ⟨s,reached,ended,current,row,stream,fun finalised => (finalised 1 ended).1 current⟩

/-- A reply is streamed and spoken to its end, and the next one fails. -/
def failedOnce : List Op := [
  .chatSend 0 1 "a" true true true,
  .commandResumes 0 true true,
  .taskResumes 1 true,
  .taskResumes 1 true,
  .dispatch 1,
  .jobResumes 1,
  .delta 1 "Hi! Wait",
  .jobResumes 1,
  .jobResumes 1,
  .llmEnds 1 .result,
  .taskResumes 1 true,
  .taskResumes 1 true,
  .speechEnds 1 none,
  .taskResumes 1 true,
  .taskResumes 1 true,
  .taskResumes 1 true,
  .chatSend 0 1 "b" true true true,
  .commandResumes 0 true true,
  .taskResumes 1 true,
  .taskResumes 2 true,
  .taskResumes 2 true,
  .dispatch 2,
  .jobResumes 2,
  .llmEnds 2 (.llmError "connection lost"),
  .taskResumes 2 true,
  .speechEnds 2 none,
  .taskResumes 2 true,
  .taskResumes 2 true,
  .taskResumes 2 true,
  .taskResumes 2 true,
  .taskResumes 2 true]

theorem failedOnce_finalised : Throughout step Finalised (init true emptyStore) failedOnce := by
  have completes : ∃ s, run step (init true emptyStore) failedOnce = some s ∧
      (s.turns 1).task = .ended ∧ (s.turns 2).task = .ended := exists_of_eval (by decide +kernel)
  obtain ⟨s,reached,_⟩ := completes
  exact (finalised_throughout_iff true emptyStore failedOnce s (by decide) reached).mpr
    (by decide +kernel)

end GhostRunner.Orchestrator
