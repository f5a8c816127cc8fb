import GhostRunner.OrchestratorSteps
import GhostRunner.SpeechAudio

/-! The speech under the orchestrator. What `TurnSpeech` does for a turn is done in the
orchestrator's model of a speech by `speechEnds` and by its two callers, `storeReply` and the
handlers; and what an await of the worker gives there is what `finish` and `cancel` give. -/
namespace GhostRunner.ChatSpeech

open Machine
open BinFrame (u64Max u32Max)
open Orchestrator (State Turn Speech)
open Voice (TurnSpeech Act Wake Call)

/-! ## What the orchestrator's model may do to a speech -/

inductive SpeechOp where
  | finish
  | stop (failure : Option String)
  | interrupt
  | ends (failure : Option String)
  deriving DecidableEq, Repr

/-- The reply is stored and `finish` awaited, a handler calls `cancel`, the task that awaits the
worker is cancelled, or the worker ends. -/
def speechStep (t : Nat) (o : State) : SpeechOp → Option State
  | .finish => some (Orchestrator.storeReply o t true)
  | .stop failure => some (Orchestrator.handle o t failure)
  | .interrupt => some (o.modify t Turn.cancelTask)
  | .ends failure => Orchestrator.step o (.speechEnds t failure)

/-- Which moves a label of the turn's speech may account for. -/
def during : Act → SpeechOp → Bool
  | .finish,.finish => true
  | .cancel,.stop _ => true
  | .interrupt,.interrupt => true
  | .worker (.raises text),.ends failure => failure == some text
  | .worker _,.ends failure => failure == none
  | _,_ => false

/-! ## Two views of one speech -/

/-- The worker as the turn sees it. -/
def Shows (s : TurnSpeech) : Speech → Prop
  | .absent => False
  | .running final =>
    (∀ ending, s.worker ≠ .ended ending) ∧ (final = true ↔ s.finishing ≠ .idle)
  | .drained => s.worker = .ended .returned
  | .failed text => s.worker = .ended (.raised (.foreign text))
  | .cancelled => s.worker = .ended .cancelled

/-- The caller of `finish` goes on when the turn's task does, and with the same; and so does the
caller of `cancel`, which raises nothing. -/
structure Agrees (s : TurnSpeech) (r : Turn) : Prop where
  worker : Shows s r.speech
  finish : s.finishing = .waiting → r.task = .speaking →
    (s.finishResumes r.asked).map TurnSpeech.finishing =
      r.wake.map fun wake => if wake = .returns then .returned else .raised
  cancel : ∀ failure, s.cancelling = .waiting → r.task = .stopping failure →
    (s.cancelResumes false).map TurnSpeech.cancelling = r.wake.map fun _ => .returned

/-- What carries it over a run: a request to stop is the same on both sides while the worker
runs, and the final `None` comes from `finish`. -/
structure Speaks (s : TurnSpeech) (r : Turn) : Prop where
  worker : Shows s r.speech
  asked : ∀ final, r.speech = .running final → r.stopped = s.asked
  awaited : ∀ final, r.speech = .running final → s.finishing = .waiting →
    r.task = .speaking ∨ ∃ failure, r.task = .stopping failure
  stopping : ∀ failure, r.task = .stopping failure →
    r.speech = .cancelled ∨ (∃ final, r.speech = .running final) ∧ r.stopped = true
  final : none ∈ s.queue ∨ s.worker = .closing → s.finishing ≠ .idle

variable {s u : TurnSpeech} {r r' : Turn} {t : Nat} {o : State}

theorem unended_finish {interrupted : Bool} (unended : ∀ ending, s.worker ≠ .ended ending) :
    s.finishResumes interrupted = none := by
  simp only [TurnSpeech.finishResumes]
  split
  · next ended => exact absurd ended (unended _)
  · next ended => exact absurd ended (unended _)
  · rfl

theorem unended_cancel {interrupted : Bool} (unended : ∀ ending, s.worker ≠ .ended ending) :
    s.cancelResumes interrupted = none := by
  simp only [TurnSpeech.cancelResumes]
  split
  · next ended => exact absurd ended (unended _)
  · next ended => exact absurd ended (unended _)
  · rfl

theorem Speaks.agrees (speaks : Speaks s r) : Agrees s r := by
  refine ⟨speaks.worker,fun waits task => ?_,fun failure waits task => ?_⟩
  · have worker := speaks.worker
    cases speech : r.speech with
    | absent => simp [speech,Shows] at worker
    | running final =>
      simp only [speech,Shows] at worker
      simp [unended_finish worker.1,Turn.wake,task,speech]
    | drained =>
      simp only [speech,Shows] at worker
      cases asked : r.asked <;>
        simp [TurnSpeech.finishResumes,waits,worker,Turn.wake,task,speech,asked]
    | failed text =>
      simp only [speech,Shows] at worker
      cases asked : r.asked <;>
        simp [TurnSpeech.finishResumes,waits,worker,Turn.wake,task,speech,asked]
    | cancelled =>
      simp only [speech,Shows] at worker
      simp [TurnSpeech.finishResumes,waits,worker,Turn.wake,task,speech]
  · have worker := speaks.worker
    rcases speaks.stopping failure task with speech | ⟨⟨final,speech⟩,_⟩
    · simp only [speech,Shows] at worker
      simp [TurnSpeech.cancelResumes,waits,worker,Turn.wake,task,speech]
    · simp only [speech,Shows] at worker
      simp [unended_cancel worker.1,Turn.wake,task,speech]

/-! ## One step of the worker -/

/-- The worker goes on, or drains after the final `None`. -/
structure Goes (s u : TurnSpeech) : Prop where
  asked : u.asked = s.asked
  finishing : u.finishing = s.finishing
  queue : none ∈ u.queue → none ∈ s.queue
  worker : (∀ ending, u.worker ≠ .ended ending) ∨
    u.worker = .ended .returned ∧ s.finishing ≠ .idle
  closing : u.worker = .closing → s.finishing ≠ .idle

/-- What is set before a step does not keep the worker from it. -/
theorem Goes.set {opened : Bool} {seq : Nat}
    (goes : Goes { s with opened := opened, seq := seq } u) : Goes s u :=
  ⟨goes.asked,goes.finishing,goes.queue,goes.worker,goes.closing⟩

theorem sendSlice_goes {pcm : Voice.Pcm} {off : Nat} {chunks : List Voice.Pcm}
    (stream : s.streamId ≤ u64Max) (seq : s.seq ≤ u32Max) :
    Goes s (s.sendSlice pcm off chunks).1 := by
  simp only [TurnSpeech.sendSlice]
  split
  · next inside =>
    split
    · exact ⟨rfl,rfl,id,.inl (by simp),by simp⟩
    · next error failed =>
      have rest : pcm.drop off ≠ [] := by
        apply List.ne_nil_of_length_pos
        rw [List.length_drop]
        omega
      rcases TurnSpeech.encode_overflow rest failed with large | many <;> omega
  · exact ⟨rfl,rfl,id,.inl (by simp),by simp⟩

theorem nextChunk_goes {chunks : List Voice.Pcm} (stream : s.streamId ≤ u64Max)
    (seq : s.seq ≤ u32Max) : Goes s (s.nextChunk chunks).1 := by
  cases chunks with
  | nil => exact ⟨rfl,rfl,id,.inl (by simp [TurnSpeech.nextChunk]),by simp [TurnSpeech.nextChunk]⟩
  | cons pcm chunks =>
    simp only [TurnSpeech.nextChunk]
    split
    · exact sendSlice_goes stream seq
    · exact ⟨rfl,rfl,id,.inl (by simp [TurnSpeech.sendMeta]),by simp [TurnSpeech.sendMeta]⟩

theorem takeSentence_goes (unended : ∀ ending, s.worker ≠ .ended ending)
    (final : none ∈ s.queue ∨ s.worker = .closing → s.finishing ≠ .idle) :
    Goes s s.takeSentence.1 := by
  simp only [TurnSpeech.takeSentence]
  split
  · exact ⟨rfl,rfl,id,.inl unended,fun closing => final (.inr closing)⟩
  · next rest queued =>
    have finished : s.finishing ≠ .idle := final (.inl (by simp [queued]))
    have fewer : none ∈ rest → none ∈ s.queue := fun mem => by simp [queued]
    split
    · exact ⟨rfl,rfl,fewer,.inl (by simp [TurnSpeech.sendMeta]),fun _ => finished⟩
    · exact ⟨rfl,rfl,fewer,.inr ⟨rfl,finished⟩,by simp⟩
  · next sentence rest queued =>
    exact ⟨rfl,rfl,fun mem => by simpa [queued] using mem,.inl (by simp),by simp⟩

theorem goesOn_goes (unended : ∀ ending, s.worker ≠ .ended ending)
    (final : none ∈ s.queue ∨ s.worker = .closing → s.finishing ≠ .idle)
    (stream : s.streamId ≤ u64Max) (seq : s.seq < u32Max) : Goes s s.goesOn.1 := by
  simp only [TurnSpeech.goesOn]
  split
  · exact ⟨rfl,rfl,id,.inl (by simp),by simp⟩
  · exact takeSentence_goes unended final
  · exact nextChunk_goes stream seq.le
  · exact .set (sendSlice_goes stream seq.le)
  · exact .set (sendSlice_goes stream seq)
  · next closing => exact ⟨rfl,rfl,id,.inr ⟨rfl,final (.inr closing)⟩,by simp⟩
  · next ending ended => exact absurd ended (unended ending)

/-! ## The callers -/

/-- Once the worker has ended nothing changes what the turn sees of it. -/
theorem Speaks.past (speaks : Speaks s r) (ended : ∀ final, r.speech ≠ .running final)
    (worker : u.worker = s.worker) (speech : r'.speech = r.speech)
    (task : ∀ failure, r'.task = .stopping failure → r.task = .stopping failure)
    (final : none ∈ u.queue → u.finishing ≠ .idle) : Speaks u r' := by
  have shown := speaks.worker
  refine ⟨?_,?_,?_,fun failure stopping => ?_,?_⟩
  · rw [speech]
    cases now : r.speech <;> simp_all [Shows]
  · exact fun final running => absurd (speech.symm.trans running) (ended final)
  · exact fun final running => absurd (speech.symm.trans running) (ended final)
  · rcases speaks.stopping failure (task failure stopping) with cancelled | ⟨⟨final,running⟩,_⟩
    · exact .inl (speech.trans cancelled)
    · exact absurd running (ended final)
  · rintro (queued | closing)
    · exact final queued
    · rw [worker] at closing
      cases now : r.speech <;> simp_all [Shows]

/-- A caller's field changes that the worker does not read. -/
theorem Speaks.caller (speaks : Speaks s r) (worker : u.worker = s.worker)
    (asked : u.asked = s.asked) (queue : u.queue = s.queue)
    (idle : u.finishing = .idle ↔ s.finishing = .idle)
    (waits : u.finishing = .waiting → s.finishing = .waiting) : Speaks u r := by
  refine ⟨?_,fun final running => (speaks.asked final running).trans asked.symm,
    fun final running now => speaks.awaited final running (waits now),speaks.stopping,?_⟩
  · have shown := speaks.worker
    cases speech : r.speech <;> simp_all [Shows]
  · rw [worker,queue]
    exact fun ends now => speaks.final ends (idle.mp now)

theorem storeReply_running {final : Bool} (running : (o.turns t).speech = .running final) :
    (Orchestrator.storeReply o t true).turns t =
      { o.turns t with task := .speaking, speech := .running true } := by
  simp [Orchestrator.storeReply,running]

theorem handle_running {final : Bool} (running : (o.turns t).speech = .running final)
    (failure : Option String) : (Orchestrator.handle o t failure).turns t =
      { o.turns t with task := .stopping failure, asked := false, stopped := true } := by
  simp [Orchestrator.handle,running]

theorem handle_ended (unended : ∀ final, (o.turns t).speech ≠ .running final)
    (failure : Option String) :
    ((Orchestrator.handle o t failure).turns t).speech = (o.turns t).speech ∧
      ∀ f, ((Orchestrator.handle o t failure).turns t).task ≠ .stopping f := by
  simp only [Orchestrator.handle]
  cases speech : (o.turns t).speech with
  | running final => exact absurd speech (unended final)
  | failed text => simp [speech]
  | absent | drained | cancelled =>
    cases failure <;> simp [Orchestrator.unwind,Orchestrator.showError,speech]

theorem storeReply_ended (unended : ∀ final, (o.turns t).speech ≠ .running final) :
    ((Orchestrator.storeReply o t true).turns t).speech = (o.turns t).speech ∧
      ∀ f, ((Orchestrator.storeReply o t true).turns t).task ≠ .stopping f := by
  simp only [Orchestrator.storeReply,if_true]
  cases speech : (o.turns t).speech with
  | running final => exact absurd speech (unended final)
  | failed text => simp [Orchestrator.onTtsError,Orchestrator.showError,speech]
  | cancelled => simp [Orchestrator.onCancelled,Orchestrator.handle,Orchestrator.unwind,speech]
  | absent | drained => simp [Orchestrator.succeed,speech]

theorem cancelTask_speech (r : Turn) : r.cancelTask.speech = r.speech := by
  simp only [Turn.cancelTask]
  split
  · rfl
  · rfl
  · rfl
  all_goals first | rfl | (split <;> rfl)

/-- The request to stop reaches the worker that is awaited. -/
theorem cancelTask_stopped {final : Bool} (running : r.speech = .running final)
    (awaited : r.task = .speaking ∨ ∃ failure, r.task = .stopping failure) :
    r.cancelTask.stopped = true := by
  rcases awaited with task | ⟨failure,task⟩ <;> simp [Turn.cancelTask,task,running]

/-! ## Runs -/

/-- By moves that the label accounts for, the orchestrator's model does to the speech what has
been done to it. -/
def Follows (act : Act) (t : Nat) (o : State) (u : TurnSpeech) : Prop :=
  ∃ moves v, (∀ move ∈ moves, during act move = true) ∧ run (speechStep t) o moves = some v ∧
    Speaks u (v.turns t)

variable {act : Act} {v : State}

theorem Speaks.follows (speaks : Speaks u (o.turns t)) : Follows act t o u :=
  ⟨[],o,by simp,rfl,speaks⟩

theorem Speaks.moved (move : SpeechOp) (allowed : during act move = true)
    (taken : speechStep t o move = some v) (speaks : Speaks u (v.turns t)) : Follows act t o u :=
  ⟨[move],v,by simpa using allowed,run_cons_iff.mpr ⟨v,taken,rfl⟩,speaks⟩

/-- The worker runs, or has ended. -/
theorem Speaks.cases (speaks : Speaks s r) :
    (∃ final, r.speech = .running final ∧ (∀ ending, s.worker ≠ .ended ending) ∧
      (final = true ↔ s.finishing ≠ .idle)) ∨
    (∀ final, r.speech ≠ .running final) ∧ ∃ ending, s.worker = .ended ending := by
  have worker := speaks.worker
  cases speech : r.speech <;> simp_all [Shows]

theorem finish_follows (speaks : Speaks s (o.turns t)) :
    Follows .finish t o s.finish := by
  refine Speaks.moved .finish rfl rfl ?_
  rcases speaks.cases with ⟨final,running,unended,_⟩ | ⟨ended,ending,worker⟩
  · rw [storeReply_running running]
    refine ⟨⟨unended,by simp [TurnSpeech.finish]⟩,fun _ _ => speaks.asked final running,
      fun _ _ _ => .inl rfl,by simp,fun _ => by simp [TurnSpeech.finish]⟩
  · obtain ⟨speech,task⟩ := storeReply_ended ended
    exact speaks.past ended rfl speech (fun f stopping => absurd stopping (task f))
      (fun _ => by simp [TurnSpeech.finish])

theorem cancel_follows (speaks : Speaks s (o.turns t)) : Follows .cancel t o s.cancel := by
  refine Speaks.moved (.stop none) rfl rfl ?_
  rcases speaks.cases with ⟨final,running,unended,final'⟩ | ⟨ended,-⟩
  · rw [handle_running running]
    refine ⟨?_,fun _ _ => rfl,fun _ _ _ => .inr ⟨_,rfl⟩,fun _ _ => .inr ⟨⟨final,running⟩,rfl⟩,
      speaks.final⟩
    simp only [running]
    exact ⟨unended,final'⟩
  · obtain ⟨speech,task⟩ := handle_ended ended none
    exact speaks.past ended rfl speech (fun f stopping => absurd stopping (task f))
      (fun queued => speaks.final (.inl queued))

theorem interrupt_follows (speaks : Speaks s (o.turns t)) (waits : s.finishing = .waiting) :
    Follows .interrupt t o { s with asked := true } := by
  refine Speaks.moved .interrupt rfl rfl ?_
  rw [Orchestrator.State.modify_same]
  rcases speaks.cases with ⟨final,running,unended,final'⟩ | ⟨ended,-⟩
  · have stopped := cancelTask_stopped running (speaks.awaited final running waits)
    refine ⟨?_,fun _ _ => stopped,fun _ _ _ => ?_,fun _ _ => ?_,speaks.final⟩
    · rw [cancelTask_speech,running]
      exact ⟨unended,final'⟩
    · rw [(Orchestrator.cancelTask_stands _).task]
      exact speaks.awaited final running waits
    · rw [cancelTask_speech]
      exact .inr ⟨⟨final,running⟩,stopped⟩
  · exact speaks.past ended rfl (cancelTask_speech _)
      (fun f stopping => (Orchestrator.cancelTask_stands _).task.symm.trans stopping)
      (fun queued => speaks.final (.inl queued))

/-- A request to stop ends the worker by its `CancelledError`, and nothing else does; and the
numbers of the frames fit. -/
def tame (s : TurnSpeech) : Act → Bool
  | .worker wake =>
    decide (wake = .cancelled ↔ s.asked = true) && decide (s.streamId ≤ u64Max) &&
      decide (s.seq < u32Max)
  | _ => true

theorem speechEnds_follows {final : Bool} (failure : Option String) (speech : Speech)
    (speaks : Speaks s (o.turns t)) (running : (o.turns t).speech = .running final)
    (allowed : during act (.ends failure) = true)
    (taken : Orchestrator.speechEnds o t failure =
      some (o.modify t fun r => { r with speech := speech }))
    (shown : Shows u speech) (unrun : ∀ final, speech ≠ .running final)
    (stopped : (o.turns t).stopped = true → speech = .cancelled)
    (kept : none ∈ u.queue ∨ u.worker = .closing → u.finishing ≠ .idle) : Follows act t o u := by
  refine Speaks.moved (.ends failure) allowed taken ?_
  rw [Orchestrator.State.modify_same]
  refine ⟨shown,fun _ now => absurd now (unrun _),fun _ now => absurd now (unrun _),?_,kept⟩
  intro f stopping
  rcases speaks.stopping f stopping with cancelled | ⟨_,asked⟩
  · rw [running] at cancelled
    cases cancelled
  · exact .inl (stopped asked)

theorem worker_follows {wake : Wake} (speaks : Speaks s (o.turns t))
    (admitted : s.admits wake = true) (tamed : tame s (.worker wake) = true) :
    Follows (.worker wake) t o (s.resume wake).1 := by
  simp only [tame,Bool.and_eq_true,decide_eq_true_eq] at tamed
  obtain ⟨⟨delivered,stream⟩,seq⟩ := tamed
  rcases speaks.cases with ⟨final,running,unended,finished⟩ | ⟨-,ending,ended⟩
  · have same := speaks.asked final running
    cases wake with
    | cancelled =>
      have stopped : (o.turns t).stopped = true := same.trans (delivered.mp rfl)
      refine speechEnds_follows none .cancelled speaks running rfl ?_ rfl
        (by simp) (fun _ => rfl) ?_
      · simp [Orchestrator.speechEnds,running,stopped]
      · exact fun ends => speaks.final (.inl (by simpa [TurnSpeech.resume] using ends))
    | raises text =>
      have calm : s.asked = false := by
        by_contra asked
        cases delivered.mpr (by simpa using asked)
      have unstopped : (o.turns t).stopped = false := same.trans calm
      refine speechEnds_follows (some text) (.failed text) speaks running
        (by simp [during]) ?_ rfl (by simp) (by simp [unstopped]) ?_
      · simp [Orchestrator.speechEnds,running,unstopped]
      · exact fun ends => speaks.final (.inl (by simpa [TurnSpeech.resume] using ends))
    | returns =>
      have calm : s.asked = false := by
        by_contra asked
        cases delivered.mpr (by simpa using asked)
      have unstopped : (o.turns t).stopped = false := same.trans calm
      have goes : Goes { s with asked := false } (s.resume .returns).1 :=
        goesOn_goes unended speaks.final stream seq
      have kept : none ∈ (s.resume .returns).1.queue ∨ (s.resume .returns).1.worker = .closing →
          (s.resume .returns).1.finishing ≠ .idle := by
        rw [goes.finishing]
        rintro (queued | closing)
        · exact speaks.final (.inl (goes.queue queued))
        · exact goes.closing closing
      rcases goes.worker with goesOn | ⟨drained,finishing⟩
      · refine Speaks.follows ⟨?_,fun _ _ => ?_,?_,speaks.stopping,kept⟩
        · rw [running]
          exact ⟨goesOn,by rw [goes.finishing]; exact finished⟩
        · rw [goes.asked,unstopped]
        · rw [goes.finishing]
          exact speaks.awaited
      · obtain rfl : final = true := finished.mpr finishing
        refine speechEnds_follows none .drained speaks running rfl ?_
          drained (by simp) (by simp [unstopped]) kept
        simp [Orchestrator.speechEnds,running,unstopped]
  · cases wake <;> simp [TurnSpeech.admits,ended] at admitted

theorem feed_follows (speaks : Speaks s (o.turns t)) (delta : PyStr) :
    Follows (.feed delta) t o (s.feed delta) := by
  refine Speaks.follows ⟨?_,speaks.asked,speaks.awaited,speaks.stopping,?_⟩
  · have shown := speaks.worker
    cases speech : (o.turns t).speech <;> simp_all [Shows,TurnSpeech.feed]
  · simpa [TurnSpeech.feed] using speaks.final

/-- A caller that goes on has seen the end of the worker. -/
theorem calls_follow (speaks : Speaks s (o.turns t)) {ending : Voice.Ending}
    {finishing cancelling : Call} (ended : s.worker = .ended ending)
    (idle : finishing = .idle → s.finishing = .idle) :
    Follows act t o { s with finishing := finishing, cancelling := cancelling } := by
  rcases speaks.cases with ⟨_,_,unended,_⟩ | ⟨unrun,_⟩
  · exact absurd ended (unended ending)
  · have later : Speaks { s with finishing := finishing, cancelling := cancelling } (o.turns t) :=
      speaks.past unrun rfl rfl (fun _ => id) fun queued now => speaks.final (.inl queued) (idle now)
    exact later.follows

/-- Every label of the turn's speech is followed by a move that it accounts for. -/
theorem act_follows {sent : List Voice.Sent} (speaks : Speaks s (o.turns t))
    (taken : s.act act = some (u,sent)) (tamed : tame s act = true) : Follows act t o u := by
  cases act with
  | feed delta =>
    simp only [TurnSpeech.act] at taken
    split at taken <;> cases taken
    exact feed_follows speaks delta
  | finish =>
    simp only [TurnSpeech.act] at taken
    split at taken <;> cases taken
    exact finish_follows speaks
  | cancel =>
    simp only [TurnSpeech.act] at taken
    split at taken <;> cases taken
    exact cancel_follows speaks
  | interrupt =>
    simp only [TurnSpeech.act] at taken
    split at taken <;> cases taken
    next waits => exact interrupt_follows speaks waits
  | worker wake =>
    simp only [TurnSpeech.act] at taken
    split at taken
    case isFalse => cases taken
    next admitted =>
    have acted : s.resume wake = (u,sent) := Option.some.inj taken
    have followed := worker_follows speaks admitted tamed
    rwa [acted] at followed
  | finishResumes interrupted =>
    obtain ⟨w,resumed,same⟩ := Option.map_eq_some_iff.mp taken
    cases same
    simp only [TurnSpeech.finishResumes] at resumed
    split at resumed <;> cases resumed
    · next waits ended =>
      refine calls_follow speaks ended ?_
      cases interrupted <;> simp
    · next waits ended => exact calls_follow speaks ended (by simp)
  | cancelResumes interrupted =>
    obtain ⟨w,resumed,same⟩ := Option.map_eq_some_iff.mp taken
    cases same
    simp only [TurnSpeech.cancelResumes] at resumed
    split at resumed <;> cases resumed
    all_goals
      next ended => exact calls_follow speaks ended id

/-! ## Runs -/

/-- Which moves a label of all speeches may account for, for the one of a stream. -/
def accounts (k : Nat) : Voice.Op → SpeechOp → Bool
  | .create _ _,_ => false
  | .speech stream act,move => stream == k && during act move

def tameAt (k : Nat) (s : Voice.State) : Voice.Op → Bool
  | .create _ _ => true
  | .speech stream act => stream != k || (s.speeches k).all fun speech => tame speech act

/-- A run of all speeches in which the one of a stream is tame. -/
def Tame (k : Nat) : Voice.State → List Voice.Op → Bool
  | _,[] => true
  | s,op :: ops => tameAt k s op && (Voice.step s op).all fun s' => Tame k s' ops

/-- The turn has the speech of the stream. -/
def Voices (k : Nat) (view : TurnSpeech → Turn → Prop) (s : Voice.State) (r : Turn) : Prop :=
  ∃ speech, s.speeches k = some speech ∧ view speech r

/-- Along the run each label is followed by moves that it accounts for, after which the turn and
its speech agree. -/
def Followed (k t : Nat) : Voice.State → State → List Voice.Op → Prop
  | s,o,[] => Voices k Agrees s (o.turns t)
  | s,o,op :: ops => Voices k Agrees s (o.turns t) ∧ ∃ moves v s',
      Voice.step s op = some s' ∧ (∀ move ∈ moves, accounts k op move = true) ∧
        run (speechStep t) o moves = some v ∧ Followed k t s' v ops

variable {k : Nat} {m m' : Voice.State}

theorem step_follows {op : Voice.Op} (issued : k ≤ m.nextStreamId)
    (speaks : Voices k Speaks m (o.turns t)) (taken : Voice.step m op = some m')
    (tamed : tameAt k m op = true) : k ≤ m'.nextStreamId ∧ ∃ moves v,
      (∀ move ∈ moves, accounts k op move = true) ∧ run (speechStep t) o moves = some v ∧
        Voices k Speaks m' (v.turns t) := by
  obtain ⟨speech,made,speaks⟩ := speaks
  cases op with
  | create turnId tts =>
    cases taken
    refine ⟨by simp only [Voice.create]; omega,[],o,by simp,rfl,speech,?_,speaks⟩
    have other : k ≠ m.nextStreamId + 2 := by omega
    simpa [Voice.create,other] using made
  | speech stream act =>
    obtain ⟨⟨u,sent⟩,acted,rfl⟩ := Option.map_eq_some_iff.mp taken
    refine ⟨issued,?_⟩
    by_cases own : stream = k
    · subst own
      rw [made] at acted
      obtain ⟨moves,v,mays,moved,seen⟩ :=
        act_follows speaks acted (by simpa [tameAt,made] using tamed)
      refine ⟨moves,v,fun move mem => ?_,moved,u,by simp,seen⟩
      simp [accounts,mays move mem]
    · exact ⟨[],o,by simp,rfl,speech,by simpa [Ne.symm own] using made,speaks⟩

theorem run_followed {ops : List Voice.Op} (issued : k ≤ m.nextStreamId)
    (speaks : Voices k Speaks m (o.turns t)) (ran : run Voice.step m ops = some m')
    (tamed : Tame k m ops = true) : Followed k t m o ops := by
  have agrees : Voices k Agrees m (o.turns t) := by
    obtain ⟨speech,made,seen⟩ := speaks
    exact ⟨speech,made,seen.agrees⟩
  induction ops generalizing m o with
  | nil => exact agrees
  | cons op ops ih =>
    obtain ⟨n,taken,rest⟩ := run_cons_iff.mp ran
    simp only [Tame,taken,Option.all_some,Bool.and_eq_true] at tamed
    obtain ⟨later,moves,v,mays,moved,seen⟩ := step_follows issued speaks taken tamed.1
    refine ⟨agrees,moves,v,n,taken,mays,moved,ih later seen rest tamed.2 ?_⟩
    obtain ⟨speech,made,seen⟩ := seen
    exact ⟨speech,made,seen.agrees⟩

/-- From the opening of a turn's stream on, a run of all speeches in which the turn's own is tame
is followed, label by label, by the orchestrator's model of that speech; and whenever the turn's
task awaits the worker, it goes on when the caller of `finish` or `cancel` does, and with the
same. -/
theorem speech_followed (ops : List Voice.Op) (m m' : Voice.State) (o : State) (t : Nat)
    (tts : Voice.SynthClient) (spoken : o.tts = true) (calm : (o.turns t).stopped = false)
    (ran : run Voice.step (Voice.create m t tts) ops = some m')
    (tamed : Tame (m.nextStreamId + 2) (Voice.create m t tts) ops = true) :
    Followed (m.nextStreamId + 2) t (Voice.create m t tts) (Orchestrator.openStream o t) ops := by
  refine run_followed le_rfl ?_ ran tamed
  refine ⟨{ turnId := t, streamId := m.nextStreamId + 2, tts := tts },by simp [Voice.create],?_⟩
  simp only [Orchestrator.openStream,Orchestrator.State.modify_same,spoken,if_true]
  exact ⟨⟨by simp,by simp⟩,fun _ _ => calm,by simp,by simp,by simp⟩

/-- One turn is interrupted while it awaits its speech, and another turn speaks meanwhile. -/
def interruptedWhileSpeaking : List Voice.Op := [
  .speech 2 (.feed (PyStr.ofString "はい。そ")),
  .speech 2 (.worker .returns),
  .create 8 Voice.beeps,
  .speech 2 (.worker .returns),
  .speech 4 (.feed (PyStr.ofString "え？ あ")),
  .speech 2 .finish,
  .speech 4 (.worker .returns),
  .speech 2 (.worker .returns),
  .speech 2 .interrupt,
  .speech 4 .cancel,
  .speech 2 (.worker .cancelled),
  .speech 2 (.finishResumes true),
  .speech 2 .cancel,
  .speech 2 (.cancelResumes false)]

theorem interruptedWhileSpeaking_followed : Followed 2 7
    (Voice.create Voice.init 7 Voice.beeps)
    (Orchestrator.openStream (Orchestrator.init true Orchestrator.emptyStore) 7)
    interruptedWhileSpeaking := by
  have eval : ∃ m', run Voice.step (Voice.create Voice.init 7 Voice.beeps)
      interruptedWhileSpeaking = some m' ∧
      Tame 2 (Voice.create Voice.init 7 Voice.beeps) interruptedWhileSpeaking = true :=
    exists_of_eval (by decide +kernel)
  obtain ⟨m',ran,tamed⟩ := eval
  exact speech_followed interruptedWhileSpeaking Voice.init m'
    (Orchestrator.init true Orchestrator.emptyStore) 7 Voice.beeps rfl rfl ran tamed

end GhostRunner.ChatSpeech
