import GhostRunner.OrchestratorLog
import GhostRunner.OrchestratorFinal

/-! The way back to IDLE. Only `_decay_to_idle` shows IDLE after the startup. A task that ends
by its cancellation does not come to it, and one whose hold ends while another turn is
current leaves it to that turn, which may be cancelled in its turn. -/
namespace GhostRunner

def Envelope.isIdle (env : Envelope) : Bool :=
  match env.payload with
  | .state .idle _ _ => true
  | _ => false

namespace Orchestrator

open Machine

/-- The last state envelope that has been broadcast. -/
def lastState (s : State) : Option Envelope :=
  (s.handed.filter fun env => env.type = .state).getLast?

/-- The last one that is not transient, which `state_snapshot` keeps. -/
def stateSnapshot (s : State) : Option Envelope := (s.handed.filter Envelope.lastingState).getLast?

def Turn.unfinished (r : Turn) : Bool :=
  match r.task with
  | .absent | .ended => false
  | _ => true

/-- No turn is current, and no task of a turn is unfinished. -/
def Quiescent (s : State) : Prop :=
  s.current = none ∧ ∀ t ≤ s.store.counter, (s.turns t).unfinished = false

/-- Whenever nothing is going on, IDLE is what was shown last and what a client that attaches
is told. -/
def Idles (s : State) : Prop :=
  Quiescent s → (lastState s).any Envelope.isIdle = true ∧
    (stateSnapshot s).any Envelope.isIdle = true

instance : DecidablePred Quiescent := fun _ => inferInstanceAs (Decidable (_ ∧ _))

instance : DecidablePred Idles := fun _ => inferInstanceAs (Decidable (_ → _))

/-- The state in which `startup` leaves a core. -/
def started (tts : Bool) (store : Store) : State := setState (init tts store) .idle none ""

def Speech.isRunning : Speech → Bool
  | .running _ => true
  | _ => false

/-- The task of a turn that is not current ends when it goes on: cancelled, after a `TtsError`
that leaves its handler, or at the end of its decay. -/
def Turn.departs (r : Turn) (stored : Bool) (wake : Wake) : Bool :=
  match r.task, wake with
  | .created _, .cancelled | .stopping none, _ | .idling, _ => true
  | .created _, _ => !stored && r.speech.isFailed
  | .erring, .returns => false
  | .erring, _ => true
  | .closing, .returns => if stored then r.speech = .cancelled else r.speech.isFailed
  | .streaming, .llmError _ | .streaming, .failed | .streaming, .ttsError _ => r.speech.isFailed
  | .thinking, .returns | .streaming, .returns | .speaking, .returns | .speaking, .ttsError _
  | .succeeding, .returns | .stopping (some _), _ | .finishing, _ | .holding, _ => false
  | _, _ => !r.speech.isRunning

/-- Something other than IDLE was shown last, and nobody is left to show anything: the last
unfinished task ends, or the current turn, which has no unfinished task, is cancelled. -/
def Strays (s : State) (op : Op) : Prop :=
  (lastState s).any Envelope.isIdle = false ∧
  match op with
  | .taskResumes t stored => s.current = none ∧
      (∀ v ≤ s.store.counter, v ≠ t → (s.turns v).unfinished = false) ∧
      ∃ wake ∈ (s.turns t).wake, (s.turns t).departs stored wake = true
  | .turnCancel _ session t stored => stored = true ∧ s.current = some t ∧
      (session = (s.turns t).owner ∨ (s.turns t).origin = .proactive) ∧
      ∀ v ≤ s.store.counter, (s.turns v).unfinished = false
  | .chatSend _ _ _ stored _ _ => stored = true ∧
      (∃ t ∈ s.current, (s.turns t).status = .active) ∧
      ∀ v ≤ s.store.counter, (s.turns v).unfinished = false
  | _ => False

instance (s : State) : DecidablePred (Strays s)
  | .taskResumes .. | .turnCancel .. | .chatSend .. => inferInstanceAs (Decidable (_ ∧ _))
  | .startup | .commandResumes .. | .dispatch .. | .jobResumes .. | .delta .. | .llmEnds .. |
    .speechEnds .. => inferInstanceAs (Decidable (_ ∧ False))

/-! ## What is shown -/

variable {s u : State}

theorem lastingState_type {env : Envelope} (lasting : env.lastingState = true) :
    env.type = .state := by
  simp only [Envelope.lastingState] at lasting
  split at lasting
  · next eq => simp only [Envelope.type,eq,Payload.type]
  · next eq => simp only [Envelope.type,eq,Payload.type]
  · cases lasting

theorem isIdle_lasting {env : Envelope} (idle : env.isIdle = true) : env.lastingState = true := by
  simp only [Envelope.isIdle] at idle
  split at idle
  · next eq => simp only [Envelope.lastingState,eq]; rfl
  · cases idle

theorem lastState_hand {env : Envelope} (handed : u.handed = s.handed ++ [env]) :
    lastState u = if env.type = .state then some env else lastState s := by
  by_cases state : env.type = .state <;> simp [lastState,handed,state]

theorem lastState_eq (handed : u.handed = s.handed) : lastState u = lastState s := by
  simp only [lastState,handed]

/-- IDLE is not transient, so it is kept if it was shown last. -/
theorem stateSnapshot_idle (last : (lastState s).any Envelope.isIdle = true) :
    (stateSnapshot s).any Envelope.isIdle = true := by
  obtain ⟨env,found,idle⟩ := (Option.any_eq_true ..).mp last
  obtain ⟨before,states⟩ := List.getLast?_eq_some_iff.mp found
  have through : s.handed.filter Envelope.lastingState =
      (s.handed.filter fun env => env.type = .state).filter Envelope.lastingState := by
    rw [List.filter_filter]
    apply List.filter_congr
    intro env _
    cases lasting : env.lastingState with
    | true => simp [lastingState_type lasting]
    | false => rfl
  rw [stateSnapshot,through,states,List.filter_append]
  simp [isIdle_lasting idle,idle]

theorem idles_iff : Idles s ↔ (Quiescent s → (lastState s).any Envelope.isIdle = true) :=
  ⟨fun idles still => (idles still).1,
    fun idles still => ⟨idles still,stateSnapshot_idle (idles still)⟩⟩

/-- What the session manager keeps as `state_snapshot` is this envelope. -/
theorem Logs.stateSnapshot {log : List LogOp} (logs : Logs log s) :
    (Ledger.after log).log.stateSnapshot.map Envelope.content =
      (Orchestrator.stateSnapshot s).map Envelope.content := by
  have lasting : s.handed.filter (fun env => env.lastingState && env.type.durable) =
      s.handed.filter Envelope.lastingState := by
    apply List.filter_congr
    intro env _
    cases lasting : env.lastingState with
    | true => simp [lastingState_type lasting,MsgType.durable]
    | false => rfl
  rw [snapshot_content,logs,List.filter_filter,lasting,Orchestrator.stateSnapshot]

/-! ## How tasks end -/

/-- The handlers end the task at once where the speech worker does not hold them up. -/
theorem handle_ended_iff (s : State) (t : Nat) (failure : Option String) :
    ((handle s t failure).turns t).task = .ended ↔
      match failure with
      | none => (s.turns t).speech.isRunning = false
      | some _ => (s.turns t).speech.isFailed = true := by
  simp only [handle]
  cases speech : (s.turns t).speech <;> cases failure <;>
    simp [unwind,showError,Speech.isRunning,Speech.isFailed]

theorem startTurn_ended_iff (s : State) (t : Nat) (text : String) (stored : Bool) :
    ((startTurn s t text stored).turns t).task = .ended ↔
      (!stored && (s.turns t).speech.isFailed) = true := by
  cases stored with
  | false => simpa [startTurn,onException] using handle_ended_iff s t (some internalError)
  | true => simp [startTurn]

theorem storeReply_ended_iff (s : State) (t : Nat) (stored : Bool) :
    ((storeReply s t stored).turns t).task = .ended ↔
      (if stored then decide ((s.turns t).speech = .cancelled) else (s.turns t).speech.isFailed) =
        true := by
  cases stored with
  | false =>
    simpa [storeReply,onException] using
      handle_ended_iff { s with stream := none } t (some internalError)
  | true =>
    simp only [storeReply,if_true,decide_eq_true_eq]
    cases speech : (s.turns t).speech <;>
      simp [onTtsError,showError,onCancelled,handle,speech,unwind,succeed]

/-- The task of a turn that is not current ends where `departs` says. -/
theorem resumeWith_ended_iff {t : Nat} {stored : Bool} {wake : Wake} (free : s.current = none)
    (woken : (s.turns t).wake = some wake) :
    ((resumeWith s t stored wake).turns t).task = .ended ↔
      (s.turns t).departs stored wake = true := by
  have cancels : ((onCancelled s t).turns t).task = .ended ↔
      (!(s.turns t).speech.isRunning) = true := by
    simpa [onCancelled] using handle_ended_iff s t none
  have fails (message : String) : ((handle s t (some message)).turns t).task = .ended ↔
      (s.turns t).speech.isFailed = true := handle_ended_iff s t (some message)
  cases task : (s.turns t).task
  case created text =>
    cases wake <;> simp only [resumeWith,Turn.departs,task]
    case cancelled => simp
    all_goals exact startTurn_ended_iff s t text stored
  case thinking =>
    cases wake <;> simp only [resumeWith,Turn.departs,task]
    case returns => simp [openStream]
    all_goals exact cancels
  case streaming =>
    cases wake <;> simp only [resumeWith,Turn.departs,task]
    case returns => simp [closeStream]
    case cancelled => simpa [onCancelled] using handle_ended_iff (s.modify t Turn.removeJob) t none
    all_goals exact fails _
  case closing =>
    cases wake <;> simp only [resumeWith,Turn.departs,task]
    case returns => exact storeReply_ended_iff s t stored
    all_goals exact cancels
  case speaking =>
    cases wake <;> simp only [resumeWith,Turn.departs,task]
    case returns => simp [succeed]
    case ttsError => simp [onTtsError,showError]
    all_goals exact cancels
  case succeeding =>
    cases wake <;> simp only [resumeWith,Turn.departs,task]
    case returns => simp [finish,free]
    all_goals exact cancels
  case stopping failure =>
    cases failure <;> simp only [resumeWith,Turn.departs,task]
    · simp [unwind]
    · simp [showError]
  case erring =>
    cases wake <;> simp only [resumeWith,Turn.departs,task]
    case returns => simp [finish,free]
    all_goals simp
  case finishing => simp [resumeWith,Turn.departs,task]
  case holding => simp [resumeWith,Turn.departs,task,decay,free]
  case idling => simp [resumeWith,Turn.departs,task]
  case absent => simp [Turn.wake,task] at woken
  case ended => simp [Turn.wake,task] at woken

/-! In its last step a task shows nothing, and lets go of nothing. -/

theorem handle_silent {s : State} {t : Nat} {failure : Option String}
    (ended : ((handle s t failure).turns t).task = .ended) :
    (handle s t failure).handed = s.handed ∧ (handle s t failure).current = s.current := by
  refine ⟨?_,(handle_keeps s t failure).current⟩
  simp only [handle] at ended ⊢
  cases speech : (s.turns t).speech <;> simp only [speech] at ended ⊢
  case running => rfl
  case failed => rfl
  all_goals
    cases failure with
    | none => rfl
    | some message => simp [showError] at ended

theorem storeReply_silent {s : State} {t : Nat} {stored : Bool}
    (ended : ((storeReply s t stored).turns t).task = .ended) :
    (storeReply s t stored).handed = s.handed ∧ (storeReply s t stored).current = s.current := by
  refine ⟨?_,(storeReply_keeps s t stored).current⟩
  cases stored with
  | false => exact (handle_silent ended).1
  | true =>
    simp only [storeReply,if_true] at ended ⊢
    cases speech : (s.turns t).speech <;> simp only [speech] at ended ⊢
    case running => rfl
    case failed => simp [onTtsError,showError] at ended
    case cancelled => exact (handle_silent ended).1
    all_goals simp [succeed] at ended

theorem finish_silent {s : State} {t : Nat} {status : Status} {stored : Bool}
    {raised : State → State}
    (raises : ∀ u, ((raised u).turns t).task = .ended →
      (raised u).handed = u.handed ∧ (raised u).current = u.current)
    (ended : ((finish s t status stored raised).turns t).task = .ended) :
    (finish s t status stored raised).handed = s.handed ∧
      (finish s t status stored raised).current = s.current := by
  by_cases current : s.current = some t
  · cases stored with
    | false =>
      simp only [finish,current,if_true] at ended ⊢
      have silent := raises _ ended
      exact ⟨silent.1,silent.2.trans current⟩
    | true => simp [finish,current] at ended
  · simp [finish,current] at ended

theorem resumeWith_silent {t : Nat} {stored : Bool} {wake : Wake}
    (same : resumeWith s t stored wake = u) (ended : (u.turns t).task = .ended) :
    u.handed = s.handed ∧ u.current = s.current := by
  simp only [resumeWith] at same
  split at same <;> subst same
  · exact ⟨rfl,rfl⟩
  · cases stored with
    | false => exact handle_silent ended
    | true => simp [startTurn] at ended
  · exact ⟨rfl,rfl⟩
  · simp [closeStream] at ended
  · exact handle_silent ended
  · exact handle_silent ended
  · exact handle_silent ended
  · exact storeReply_silent ended
  · simp [succeed] at ended
  · simp [onTtsError,showError] at ended
  · exact finish_silent (fun _ => handle_silent) ended
  · exact ⟨rfl,rfl⟩
  · simp [showError] at ended
  · exact finish_silent (fun _ _ => ⟨rfl,rfl⟩) ended
  · exact ⟨rfl,rfl⟩
  · exact ⟨rfl,rfl⟩
  · by_cases free : s.current = none
    · simp [decay,free] at ended
    · exact ⟨by simp [decay,free],(decay_keeps s t).current⟩
  · exact ⟨rfl,rfl⟩
  · exact handle_silent ended

theorem unfinished_ended {r : Turn} (rests : r.unfinished = false) (present : r.task ≠ .absent) :
    r.task = .ended := by
  simp only [Turn.unfinished] at rests
  split at rests
  · next absent => exact (present absent).elim
  · next ended => exact ended
  · cases rests

theorem resumeWith_present {t : Nat} {stored : Bool} {wake : Wake} :
    ((resumeWith s t stored wake).turns t).task ≠ .absent := by
  intro absent
  rcases resumeWith_opened s t stored wake with opened | ⟨text,_,first⟩
  · simp [Turn.unopened,absent] at opened
  · rw [first] at absent
    simp [startTurn] at absent

/-! ## One step -/

theorem unfinished_eq {r r' : Turn} (task : r'.task = r.task) : r'.unfinished = r.unfinished := by
  simp only [Turn.unfinished,task]

theorem Spares.unfinished {s u : State} (spares : Spares s u) {v : Nat}
    (known : v ≤ s.store.counter) : (u.turns v).unfinished = (s.turns v).unfinished := by
  rcases spares.turns v with stands | ⟨new,_⟩
  · exact unfinished_eq stands.task
  · omega

theorem Spares.quiescent_iff {s u : State} (spares : Spares s u)
    (counter : u.store.counter = s.store.counter) :
    Quiescent u ↔ u.current = none ∧ ∀ v ≤ s.store.counter, (s.turns v).unfinished = false := by
  constructor
  · intro still
    refine ⟨still.1,fun v known => ?_⟩
    rw [← spares.unfinished known]
    exact still.2 v (counter ▸ known)
  · rintro ⟨free,finished⟩
    refine ⟨free,fun v known => ?_⟩
    rw [counter] at known
    rw [spares.unfinished known]
    exact finished v known

/-- Nothing that could be going on ends in the step, and no state is shown. -/
theorem Idles.kept {s u : State} (inv : Idles s) (spares : Spares s u)
    (current : u.current = none → s.current = none)
    (last : u.current = none → lastState u = lastState s) : Idles u := by
  apply idles_iff.mpr
  intro still
  have before : Quiescent s := by
    refine ⟨current still.1,fun v known => ?_⟩
    rw [← spares.unfinished known]
    exact still.2 v (known.trans spares.counter)
  rw [last still.1]
  exact idles_iff.mp inv before

theorem Idles.current {u : State} {t : Nat} (current : u.current = some t) : Idles u := by
  rintro ⟨free,_⟩
  rw [current] at free
  cases free

/-- The step leaves what is shown as it is, and ends all that goes on where `ended` holds. -/
theorem idles_iff_of {s u : State} {ended : Prop} (quiescent : Quiescent u ↔ ended)
    (last : ended → lastState u = lastState s) :
    Idles u ↔ ¬((lastState s).any Envelope.isIdle = false ∧ ended) := by
  rw [idles_iff,quiescent]
  constructor
  · rintro idles ⟨astray,rests⟩
    have idle := idles rests
    rw [last rests,astray] at idle
    cases idle
  · intro kept rests
    rw [last rests]
    by_contra astray
    exact kept ⟨Bool.eq_false_of_not_eq_true astray,rests⟩

theorem cancel_lastState (s : State) (t : Nat) (reason : String) (stored : Bool) :
    lastState (cancel s t reason stored) = lastState s := by
  cases stored with
  | false => rfl
  | true =>
    refine (@lastState_hand s _ (turnEnvelope t _ .cancelled (some reason)) rfl).trans ?_
    simp [Envelope.type,turnEnvelope,Payload.type]

/-- A cancellation leaves the mascot as it is shown. -/
theorem cancel_idles_iff {s : State} {t a : Nat} (was : s.current = some t) (reason : String)
    (stored : Bool) (command : Option Command) :
    Idles ((cancel s t reason stored).setCommand a command) ↔
      ¬((lastState s).any Envelope.isIdle = false ∧ stored = true ∧
        ∀ v ≤ s.store.counter, (s.turns v).unfinished = false) := by
  have spares : Spares s ((cancel s t reason stored).setCommand a command) :=
    (cancel_spares s t reason stored).of_eq rfl rfl rfl
  have free : ((cancel s t reason stored).setCommand a command).current = none ↔
      stored = true := by
    cases stored with
    | false => simp [cancel,State.modify,was]
    | true => simp [cancel,State.modify]
  have counter : (cancel s t reason stored).store.counter = s.store.counter := by
    cases stored <;> rfl
  apply idles_iff_of ((spares.quiescent_iff counter).trans (and_congr_left' free))
  exact fun _ => cancel_lastState s t reason stored

theorem Idles.beginTurn {s m : State} (inv : Idles s) (a owner : Nat) (text : String)
    (counted recorded : Bool) (stands : ∀ v, Stands (s.turns v) (m.turns v))
    (counter : m.store.counter = s.store.counter) (current : m.current = s.current)
    (stream : m.stream = s.stream) (handed : m.handed = s.handed) :
    Idles (GhostRunner.Orchestrator.beginTurn m a owner text counted recorded) := by
  have spares := beginTurn_spares a owner text counted recorded stream stands counter
  cases counted
  · exact inv.kept spares current.symm.trans fun _ => lastState_eq handed
  cases recorded
  · exact inv.kept spares current.symm.trans fun _ => lastState_eq handed
  · exact Idles.current (t := m.store.counter + 1) rfl

theorem chatSend_idles_iff {s : State} (inv : Idles s) (a owner : Nat) (text : String)
    (stored counted recorded : Bool) :
    Idles (chatSend s a owner text stored counted recorded) ↔
      ¬Strays s (.chatSend a owner text stored counted recorded) := by
  simp only [Strays]
  rcases chatSend_cases s a owner text stored counted recorded with ⟨t,was,active,same⟩ | ⟨free,same⟩
  · rw [same,cancel_idles_iff was]
    simp [was,active]
  · have begins : Idles (chatSend s a owner text stored counted recorded) := by
      rw [same]
      exact inv.beginTurn a owner text counted recorded (fun v => .refl _) rfl rfl rfl rfl
    refine iff_of_true begins ?_
    rintro ⟨_,_,⟨t,was,active⟩,_⟩
    exact free t was active

theorem turnCancel_idles_iff {s : State} (inv : Idles s) (a session t : Nat) (stored : Bool) :
    Idles (turnCancel s a session t stored) ↔ ¬Strays s (.turnCancel a session t stored) := by
  simp only [Strays,turnCancel]
  by_cases may : s.current = some t ∧
      (session = (s.turns t).owner ∨ (s.turns t).origin = .proactive)
  · rw [if_pos may,cancel_idles_iff may.1]
    simp only [may.1,may.2,true_and]
  · rw [if_neg may]
    refine iff_of_true inv ?_
    rintro ⟨_,_,was,owns,_⟩
    exact may ⟨was,owns⟩

/-- A task that goes on ends all that goes on where it is the last one, and departs. -/
theorem resumeWith_idles_iff {s : State} {t : Nat} {stored : Bool} {wake : Wake}
    (unissued : Unissued s) (woken : (s.turns t).wake = some wake) :
    Idles (resumeWith s t stored wake) ↔ ¬Strays s (.taskResumes t stored) := by
  have known : t ≤ s.store.counter := by
    by_contra later
    simp [Turn.wake,unissued t (by omega)] at woken
  have counter : (resumeWith s t stored wake).store.counter = s.store.counter := by
    rcases resumeWith_foreground s t stored wake with keeps | ⟨_,_,closes⟩
    · exact keeps.counter
    · exact closes.counter
  have alone := (resumeWith_alone s t stored wake).turns
  have departs : (∃ wake ∈ (s.turns t).wake, (s.turns t).departs stored wake = true) ↔
      (s.turns t).departs stored wake = true := by simp [woken]
  simp only [Strays]
  refine idles_iff_of ?_ ?_
  · rw [departs]
    constructor
    · intro still
      have ended := unfinished_ended (still.2 t (counter ▸ known)) resumeWith_present
      have free : s.current = none := (resumeWith_silent rfl ended).2.symm.trans still.1
      refine ⟨free,fun v issued other => ?_,(resumeWith_ended_iff free woken).mp ended⟩
      rw [← alone v other]
      exact still.2 v (counter ▸ issued)
    · rintro ⟨free,finished,leaves⟩
      have ended := (resumeWith_ended_iff free woken).mpr leaves
      refine ⟨(resumeWith_silent rfl ended).2.trans free,fun v issued => ?_⟩
      by_cases own : v = t
      · subst v
        simp [Turn.unfinished,ended]
      · rw [alone v own]
        exact finished v (counter ▸ issued) own
  · rintro ⟨free,_,leaves⟩
    have ended := (resumeWith_ended_iff free woken).mpr (departs.mp leaves)
    exact lastState_eq (resumeWith_silent rfl ended).1

theorem lastState_token {s : State} {t : Nat} {delta : String} :
    lastState (sendDelta s t delta) = lastState s := by
  refine (@lastState_hand s _ (deltaToken t (s.turns t).record.seq delta) rfl).trans ?_
  simp [Envelope.type,deltaToken,Payload.type]

theorem onDelta_idles {s : State} (inv : Idles s) (t : Nat) (delta : String) :
    Idles (onDelta s t delta) := by
  by_cases obsolete : isObsolete s t = true
  · simpa only [onDelta,obsolete,if_true] using inv
  have current : s.current = some t := by simpa [isObsolete] using obsolete
  exact Idles.current ((onDelta_keeps s t delta).current.trans current)

theorem jobResumes_idles {s u : State} {t : Nat} (inv : Idles s) (taken : jobResumes s t = some u) :
    Idles u := by
  simp only [jobResumes] at taken
  split at taken <;> cases taken
  case h_6 => exact inv.kept (.update rfl rfl rfl ⟨rfl,id,id⟩) id fun _ => lastState_token
  all_goals exact inv.kept (.update rfl rfl rfl ⟨rfl,id,id⟩) id fun _ => rfl

theorem speechEnds_idles {s u : State} {t : Nat} {failure : Option String} (inv : Idles s)
    (taken : speechEnds s t failure = some u) : Idles u := by
  obtain ⟨_,_,running,_,_,rfl⟩ := speechEnds_taken taken
  refine inv.kept (.update rfl rfl rfl ⟨rfl,id,fun absent => ?_⟩) id fun _ => rfl
  rw [running] at absent
  cases absent

/-- Where the step strays, and only there, something else is left on show. -/
theorem idles_iff_step {s u : State} {op : Op} (inv : Idles s) (unissued : Unissued s)
    (starts : Starts s) (taken : step s op = some u) : Idles u ↔ ¬Strays s op := by
  cases op with
  | chatSend a owner text stored counted recorded =>
    obtain ⟨_,rfl⟩ := chatSend_taken taken
    exact chatSend_idles_iff inv ..
  | turnCancel a session t stored =>
    obtain ⟨_,rfl⟩ := turnCancel_taken taken
    exact turnCancel_idles_iff inv ..
  | taskResumes t stored =>
    obtain ⟨wake,woken,rfl⟩ := Option.map_eq_some_iff.mp taken
    exact resumeWith_idles_iff unissued woken
  | commandResumes a counted recorded =>
    refine iff_of_true ?_ (by simp [Strays])
    rcases commandResumes_taken taken with ⟨t,owner,text,waits,rfl⟩ | ⟨t,text,waits,rfl⟩ | ⟨t,waits,rfl⟩
    · exact inv.beginTurn a _ _ counted recorded (cancelJob_stand s _) rfl rfl rfl rfl
    · rintro ⟨_,finished⟩
      have created := finished t (starts.starting a t text waits).1
      simp [createTask,Turn.unfinished] at created
    · exact inv.kept (.update rfl rfl rfl (cancelJob_stands _)) id fun _ => rfl
  | startup =>
    refine iff_of_true ?_ (by simp [Strays])
    cases taken
    apply idles_iff.mpr
    intro _
    rw [@lastState_hand s _ (stateEnvelope .idle none "") rfl]
    rfl
  | dispatch t =>
    refine iff_of_true ?_ (by simp [Strays])
    obtain ⟨_,rfl⟩ := dispatch_taken taken
    exact inv.kept (.update rfl rfl rfl ⟨rfl,id,id⟩) id fun _ => rfl
  | jobResumes t => exact iff_of_true (jobResumes_idles inv taken) (by simp [Strays])
  | delta t delta =>
    refine iff_of_true ?_ (by simp [Strays])
    obtain ⟨_,_,rfl⟩ := delta_taken taken
    exact onDelta_idles inv t delta
  | llmEnds t outcome =>
    refine iff_of_true ?_ (by simp [Strays])
    obtain ⟨_,_,_,rfl⟩ := llmEnds_taken taken
    exact inv.kept (.update rfl rfl rfl ⟨rfl,id,id⟩) id fun _ => rfl
  | speechEnds t failure => exact iff_of_true (speechEnds_idles inv taken) (by simp [Strays])

/-! ## Runs after `startup` -/

structure Shown (s : State) : Prop where
  idles : Idles s
  unissued : Unissued s
  starts : Starts s

theorem Shown.initial (tts : Bool) (store : Store) : Shown (started tts store) where
  idles := by
    apply idles_iff.mpr
    intro _
    rfl
  unissued _ _ := rfl
  starts := Starts.step (Starts.initial tts store) (show step _ .startup = some _ from rfl)

theorem Shown.step {s u : State} {op : Op} (inv : Shown s) (shows : ¬Strays s op)
    (taken : GhostRunner.Orchestrator.step s op = some u) : Shown u where
  idles := (idles_iff_step inv.idles inv.unissued inv.starts taken).mpr shows
  unissued := inv.unissued.step inv.starts taken
  starts := inv.starts.step taken

/-- IDLE is what is shown whenever nothing is going on, for as long as no step strays. The
session manager keeps the state it shows to clients that attach. -/
theorem idles_throughout_iff (tts : Bool) (store : Store) (ops : List Op) (s : State)
    (reached : run step (started tts store) ops = some s) :
    (Throughout step Idles (started tts store) ops ↔
        Meets step (fun s op => ¬Strays s op) (started tts store) ops) ∧
      ∀ log, Logs log s → (Ledger.after log).log.stateSnapshot.map Envelope.content =
        (stateSnapshot s).map Envelope.content :=
  ⟨throughout_iff_meets (fun _ _ _ inv shows taken => Shown.step inv shows taken)
      (fun _ inv => inv.idles)
      (fun _ _ _ inv taken strays idles =>
        strays ((idles_iff_step inv.idles inv.unissued inv.starts taken).mp idles))
      (Shown.initial tts store) reached,
    fun _ logs => logs.stateSnapshot⟩

/-- A turn whose LLM job fails is played to its end, and its hold expires. -/
theorem failedOnce_idles : ∃ s, run step (started true emptyStore) failedOnce = some s ∧
    Quiescent s ∧ Throughout step Idles (started true emptyStore) failedOnce := by
  have eval : ∃ s, run step (started true emptyStore) failedOnce = some s ∧ Quiescent s :=
    exists_of_eval (by decide)
  have admitted : Meets step (fun s op => ¬Strays s op) (started true emptyStore) failedOnce := by
    decide
  obtain ⟨s,reached,still⟩ := eval
  exact ⟨s,reached,still,
    (idles_throughout_iff true emptyStore failedOnce s reached).1.mpr admitted⟩

/-- A turn is cancelled while it thinks, and its task ends in the handler. -/
def cancelledThinking : List Op := [
  .chatSend 0 1 "a" true true true,
  .commandResumes 0 true true,
  .taskResumes 1 true,
  .turnCancel 0 1 1 true,
  .commandResumes 0 true true,
  .taskResumes 1 true]

theorem cancelledThinking_strays :
    ∃ s, run step (started true emptyStore) cancelledThinking = some s ∧ Quiescent s ∧
      (lastState s).map Envelope.content =
        some (stateEnvelope .thinking (some 1) "").content ∧
      (stateSnapshot s).map Envelope.content =
        some (stateEnvelope .thinking (some 1) "").content ∧ ¬Idles s :=
  exists_of_eval (by decide)

end Orchestrator

end GhostRunner
