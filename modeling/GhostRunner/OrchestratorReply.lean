import GhostRunner.OrchestratorFinal

/-! What is streamed of a reply, and what is stored of it. The job hands over each delta before
it enters the record, so a job that is cancelled meanwhile has handed over one delta more
than the record holds; but then its future has no result, and the task never comes to its
done token. -/
namespace GhostRunner.Orchestrator

open Machine

/-- The tokens of the turn's stream that have been handed over. -/
def tokens (s : State) (t : Nat) : List Token := s.handed.filterMap (Envelope.token t)

/-- The replies of the turn among the messages stored after the first `old`. -/
def replies (old : Nat) (s : State) (t : Nat) : List String :=
  (s.store.messages.drop old).filterMap fun m =>
    if m.turn = t ∧ m.role = .assistant then some m.text else none

/-! ## One turn -/

variable {r r' : Turn} {sent : List Token} {stored : List String}

/-- The turn has not opened its stream. -/
structure Still (r : Turn) (sent : List Token) (stored : List String) : Prop where
  unopened : r.unopened = true
  job : r.job = .absent
  record : r.record = {}
  future : r.future = .pending
  sent : sent = []
  stored : stored = []

/-- How the deltas handed over relate to those in the record. -/
def Turn.carries (r : Turn) (deltas : List String) : Prop :=
  match r.job with
  | .sending delta => deltas = r.record.parts ++ [delta]
  | .ended => True
  | _ => deltas = r.record.parts

/-- No done token has been handed over. -/
structure Running (r : Turn) (sent : List Token) (stored : List String) : Prop where
  opened : r.unopened = false
  unclosed : r.task ≠ .closing
  seq : r.record.seq = r.record.parts.length
  deltas : ∃ deltas, sent = numbered deltas ∧ r.carries deltas ∧
    (r.future = .result → r.job = .ended ∧ deltas = r.record.parts)
  stored : stored = []

/-- The done token has been handed over; the reply may have been stored. -/
structure Shut (r : Turn) (sent : List Token) (stored : List String) : Prop where
  opened : r.unopened = false
  left : r.task ≠ .streaming
  job : r.job = .ended
  sent : sent = numbered r.record.parts ++ [⟨r.record.parts.length,"",true⟩]
  stored : stored = [] ∨ r.task ≠ .closing ∧ stored = [String.join r.record.parts]

def Spool (r : Turn) (sent : List Token) (stored : List String) : Prop :=
  Still r sent stored ∨ Running r sent stored ∨ Shut r sent stored

/-- A turn whose task, job and record stand still may lose its future to a cancellation. -/
theorem Spool.stand (spool : Spool r sent stored) (task : r'.task = r.task)
    (job : r'.job = r.job) (record : r'.record = r.record)
    (future : r'.future = r.future ∨ r.task = .streaming ∧ r'.future ≠ .result) :
    Spool r' sent stored := by
  have unopened : r'.unopened = r.unopened := by simp only [Turn.unopened,task]
  rcases spool with still | running | shut
  · refine .inl ⟨unopened.trans still.unopened,job.trans still.job,record.trans still.record,?_,
      still.sent,still.stored⟩
    rcases future with same | ⟨streaming,_⟩
    · exact same.trans still.future
    · have opened := still.unopened
      simp [Turn.unopened,streaming] at opened
  · obtain ⟨deltas,eq,carries,result⟩ := running.deltas
    refine .inr (.inl ⟨unopened.trans running.opened,task ▸ running.unclosed,
      by rw [record]; exact running.seq,⟨deltas,eq,?_,?_⟩,running.stored⟩)
    · simpa only [Turn.carries,job,record] using carries
    · rw [job,record]
      intro settled
      rcases future with same | ⟨_,other⟩
      · exact result (same ▸ settled)
      · exact absurd settled other
  · exact .inr (.inr ⟨unopened.trans shut.opened,task ▸ shut.left,job.trans shut.job,
      by rw [record]; exact shut.sent,by rw [task,record]; exact shut.stored⟩)

/-- The task has begun, and awaits neither its stream nor its done token. -/
def apart (r : Turn) : Bool :=
  match r.task with
  | .streaming | .closing => false
  | _ => !r.unopened

theorem apart_cases (apart : apart r = true) :
    r.unopened = false ∧ r.task ≠ .closing ∧ r.task ≠ .streaming := by
  cases task : r.task <;> simp_all [Orchestrator.apart]

theorem Spool.leave (spool : Spool r sent stored) (apart : apart r' = true)
    (job : r'.job = r.job) (record : r'.record = r.record) (future : r'.future = r.future) :
    Spool r' sent stored := by
  obtain ⟨opened,closing,streaming⟩ := apart_cases apart
  rcases spool with still | running | shut
  · refine .inr (.inl ⟨opened,closing,by rw [record,still.record]; rfl,⟨[],still.sent,?_,?_⟩,
      still.stored⟩)
    · simp [Turn.carries,job,still.job,record,still.record]
    · rw [future,still.future]; nofun
  · obtain ⟨deltas,eq,carries,result⟩ := running.deltas
    refine .inr (.inl ⟨opened,closing,by rw [record]; exact running.seq,⟨deltas,eq,?_,?_⟩,
      running.stored⟩)
    · simpa only [Turn.carries,job,record] using carries
    · rw [future,job,record]; exact result
  · refine .inr (.inr ⟨opened,streaming,job.trans shut.job,by rw [record]; exact shut.sent,?_⟩)
    rw [record]
    exact shut.stored.imp id fun both => ⟨closing,both.2⟩

/-- The job goes on without handing anything over, and a result only comes from a job that
has ended with all it sent in the record. -/
theorem Spool.advance (spool : Spool r sent stored) (task : r'.task = r.task)
    (record : r'.record = r.record) (busy : r.job ≠ .absent ∧ r.job ≠ .ended)
    (carries : ∀ deltas, r.carries deltas → r'.carries deltas)
    (result : ∀ deltas, r.carries deltas → r'.future = .result → r.future ≠ .result →
      r'.job = .ended ∧ deltas = r.record.parts) : Spool r' sent stored := by
  rcases spool with still | running | shut
  · exact (busy.1 still.job).elim
  · obtain ⟨deltas,eq,carried,settled⟩ := running.deltas
    refine .inr (.inl ⟨by simpa only [Turn.unopened,task] using running.opened,
      task ▸ running.unclosed,by rw [record]; exact running.seq,
      ⟨deltas,eq,carries deltas carried,fun now => ?_⟩,running.stored⟩)
    rw [record]
    apply result deltas carried now
    exact fun before => busy.2 (settled before).1
  · exact (busy.2 shut.job).elim

theorem Spool.cancelTask (spool : Spool r sent stored) : Spool r.cancelTask sent stored := by
  simp only [Turn.cancelTask]
  split
  · exact spool
  · exact spool
  · next streaming =>
    by_cases pending : r.future = .pending
    · exact spool.stand rfl rfl rfl (.inr ⟨streaming,by simp [pending]⟩)
    · exact spool.stand rfl rfl rfl (.inl (by simp [pending]))
  · split <;> exact spool.stand rfl rfl rfl (.inl rfl)
  · split <;> exact spool.stand rfl rfl rfl (.inl rfl)
  · exact spool.stand rfl rfl rfl (.inl rfl)

theorem Spool.removeJob (spool : Spool r sent stored) : Spool r.removeJob sent stored := by
  simp only [Turn.removeJob]
  split
  · exact spool
  · exact spool
  · next queued =>
    refine spool.advance rfl rfl (by simp [queued]) (fun _ _ => trivial) fun _ _ now before => ?_
    exact absurd now before
  · exact spool.stand rfl rfl rfl (.inl rfl)

theorem Spool.cancelJob (spool : Spool r sent stored) : Spool r.cancelJob sent stored := by
  simp only [Turn.cancelJob]
  split
  · next queued =>
    refine spool.advance rfl rfl (by simp [queued]) (fun _ _ => trivial) fun _ _ now before => ?_
    by_cases pending : r.future = .pending
    · simp [pending] at now
    · simp only [pending,if_false] at now
      exact absurd now before
  · exact spool.removeJob

theorem Spool.dispatch (spool : Spool r sent stored) (queued : r.job = .queued) :
    Spool { r with job := if r.future = .pending then .unstarted else .ended } sent stored := by
  refine spool.advance rfl rfl (by simp [queued]) (fun deltas carries => ?_)
    fun _ _ now before => absurd now before
  simp only [Turn.carries,queued] at carries
  by_cases pending : r.future = .pending <;> simp [Turn.carries,pending,carries]

/-! ## Steps that hand over no token and store no reply -/

variable {old : Nat} {s u : State}

theorem tokens_hand {t : Nat} {env : Envelope} (handed : u.handed = s.handed ++ [env]) :
    tokens u t = tokens s t ++ (env.token t).toList := by
  cases token : env.token t <;> simp [tokens,handed,token]

theorem tokens_silent {env : Envelope} (handed : u.handed = s.handed ++ [env])
    (silent : ∀ v, env.token v = none) (t : Nat) : tokens u t = tokens s t := by
  rw [tokens_hand handed,silent]
  simp

/-- No token is handed over, and no reply is stored. -/
structure Mute (s u : State) : Prop where
  tokens : ∀ v, tokens u v = tokens s v
  messages : ∀ old ≤ s.store.messages.length, old ≤ u.store.messages.length ∧
    ∀ v, replies old u v = replies old s v

theorem Mute.of_eq (handed : u.handed = s.handed)
    (messages : u.store.messages = s.store.messages) : Mute s u :=
  ⟨fun v => by simp only [Orchestrator.tokens,handed],
    fun old kept => ⟨messages ▸ kept,fun v => by simp only [replies,messages]⟩⟩

theorem Mute.hand {env : Envelope} (handed : u.handed = s.handed ++ [env])
    (silent : ∀ v, env.token v = none) (messages : u.store.messages = s.store.messages) : Mute s u :=
  ⟨tokens_silent handed silent,
    fun old kept => ⟨messages ▸ kept,fun v => by simp only [replies,messages]⟩⟩

theorem Mute.trans {w : State} (first : Mute s u) (second : Mute u w) : Mute s w :=
  ⟨fun v => (second.tokens v).trans (first.tokens v),fun old kept =>
    ⟨(second.messages old (first.messages old kept).1).1,fun v =>
      ((second.messages old (first.messages old kept).1).2 v).trans
        ((first.messages old kept).2 v)⟩⟩

theorem replies_append {m : Message}
    (messages : u.store.messages = s.store.messages ++ [m])
    (kept : old ≤ s.store.messages.length) (v : Nat) :
    replies old u v = replies old s v ++
      if m.turn = v ∧ m.role = .assistant then [m.text] else [] := by
  simp only [replies,messages,List.drop_append_of_le_length kept,List.filterMap_append]
  congr 1
  by_cases mine : m.turn = v ∧ m.role = .assistant <;> simp [mine]

/-- Apart from what it leaves mute, a step takes turn `t` to where `leave` says. -/
structure Follows (s u : State) (t : Nat) : Prop where
  mute : Mute s u
  spool : ∀ {sent stored}, Spool (s.turns t) sent stored → Spool (u.turns t) sent stored

theorem Follows.trans {w : State} {t : Nat} (first : Follows s u t) (second : Follows u w t) :
    Follows s w t :=
  ⟨first.mute.trans second.mute,fun spool => second.spool (first.spool spool)⟩

/-- The task moves on. -/
theorem Follows.leave {t : Nat} {r : Turn} (mute : Mute s u)
    (turns : u.turns = Function.update s.turns t r) (apart : apart r = true)
    (job : r.job = (s.turns t).job) (record : r.record = (s.turns t).record)
    (future : r.future = (s.turns t).future) : Follows s u t := by
  refine ⟨mute,fun spool => ?_⟩
  rw [turns,Function.update_self]
  exact spool.leave apart job record future

theorem showError_follows (s : State) (t : Nat) (message : String) :
    Follows s (showError s t message) t :=
  .leave (.hand rfl (fun _ => rfl) rfl) rfl rfl rfl rfl rfl

theorem handle_follows (s : State) (t : Nat) (failure : Option String) :
    Follows s (handle s t failure) t := by
  simp only [handle]
  split
  · exact .leave (.of_eq rfl rfl) rfl rfl rfl rfl rfl
  · exact .leave (.of_eq rfl rfl) rfl rfl rfl rfl rfl
  · cases failure with
    | none => exact .leave (.of_eq rfl rfl) rfl rfl rfl rfl rfl
    | some message => exact showError_follows s t message

theorem finish_follows (s : State) (t : Nat) (status : Status) (stored : Bool)
    {raised : State → State} (raises : ∀ u, Follows u (raised u) t) :
    Follows s (finish s t status stored raised) t := by
  have marked : Follows s (s.modify t fun r => { r with status := status }) t := by
    refine ⟨.of_eq rfl rfl,fun spool => ?_⟩
    rw [State.modify_same]
    exact spool.stand rfl rfl rfl (.inl rfl)
  simp only [finish]
  split
  · cases stored
    · exact marked.trans (raises _)
    · exact marked.trans (.leave (.hand rfl (fun _ => rfl) rfl) rfl rfl rfl rfl rfl)
  · exact .leave (.of_eq rfl rfl) rfl rfl rfl rfl rfl

theorem startTurn_follows {t : Nat} {text : String} (stored : Bool)
    (created : (s.turns t).unopened = true) : Follows s (startTurn s t text stored) t := by
  cases stored with
  | false => exact handle_follows s t _
  | true =>
    have written : Mute s { s with store := s.store.appendMessage t .user text } := by
      refine ⟨fun _ => rfl,fun old kept => ⟨?_,fun v => ?_⟩⟩
      · simp only [Store.appendMessage,List.length_append]; omega
      · rw [replies_append (m := ⟨t,.user,text⟩) rfl kept]; simp
    refine ⟨written.trans (.hand rfl (fun _ => rfl) rfl),fun spool => ?_⟩
    rcases spool with still | running | shut
    · left
      refine ⟨?_,?_,?_,?_,still.sent,still.stored⟩
      · simp [startTurn,Turn.unopened]
      · simpa [startTurn] using still.job
      · simpa [startTurn] using still.record
      · simpa [startTurn] using still.future
    · rw [running.opened] at created; cases created
    · rw [shut.opened] at created; cases created

/-- A new stream starts from an empty record, and nothing has been sent before. -/
theorem openStream_follows {t : Nat} (thinking : (s.turns t).task = .thinking) :
    Follows s (openStream s t) t := by
  refine ⟨.of_eq rfl rfl,fun spool => ?_⟩
  have unopened : (s.turns t).unopened = true := by simp [Turn.unopened,thinking]
  rcases spool with still | running | shut
  · refine .inr (.inl ⟨?_,?_,?_,⟨[],still.sent,?_,?_⟩,still.stored⟩)
    · simp [openStream,Turn.unopened]
    · simp [openStream]
    · simp [openStream]
    · simp [openStream,Turn.carries]
    · simp [openStream,still.future]
  · rw [running.opened] at unopened; cases unopened
  · rw [shut.opened] at unopened; cases unopened

/-! ## Steps of a turn's task -/

/-- Every turn's stream is as far as its task and its job have brought it. -/
def Spools (old : Nat) (s : State) : Prop :=
  old ≤ s.store.messages.length ∧ ∀ t, Spool (s.turns t) (tokens s t) (replies old s t)

/-- A step that changes one turn, with what it hands over and stores for that turn. -/
theorem Spools.update {t : Nat} (inv : Spools old s) (turns : ∀ v, v ≠ t → u.turns v = s.turns v)
    (kept : old ≤ u.store.messages.length)
    (others : ∀ v, v ≠ t → tokens u v = tokens s v ∧ replies old u v = replies old s v)
    (mine : Spool (u.turns t) (tokens u t) (replies old u t)) : Spools old u := by
  refine ⟨kept,fun v => ?_⟩
  by_cases own : v = t
  · subst v; exact mine
  · rw [turns v own,(others v own).1,(others v own).2]
    exact inv.2 v

theorem Spools.follows {t : Nat} (inv : Spools old s) (turns : ∀ v, v ≠ t → u.turns v = s.turns v)
    (follows : Follows s u t) : Spools old u := by
  obtain ⟨kept,same⟩ := follows.mute.messages old inv.1
  refine inv.update turns kept (fun v _ => ⟨follows.mute.tokens v,same v⟩) ?_
  rw [follows.mute.tokens t,same t]
  exact follows.spool (inv.2 t)

theorem doneToken_token (t v seq : Nat) :
    (doneToken t seq).token v = if t = v then some ⟨seq,"",true⟩ else none := by
  simp [doneToken,Envelope.token,streamId_inj]

/-- The future has a result, so all that was sent is in the record. -/
theorem closeStream_spools {t : Nat} (inv : Spools old s) (task : (s.turns t).task = .streaming)
    (result : (s.turns t).future = .result) : Spools old (closeStream s t) := by
  have handed : (closeStream s t).handed =
      s.handed ++ [doneToken t (s.turns t).record.seq] := rfl
  have messages : (closeStream s t).store.messages = s.store.messages := rfl
  refine inv.update (t := t) (fun v other => ?_) inv.1 (fun v other => ⟨?_,rfl⟩) ?_
  · simp [closeStream,other]
  · rw [tokens_hand handed,doneToken_token,if_neg (Ne.symm other)]
    simp
  · rcases inv.2 t with still | running | shut
    · have unopened := still.unopened
      simp [Turn.unopened,task] at unopened
    · obtain ⟨deltas,eq,_,settled⟩ := running.deltas
      obtain ⟨ended,rfl⟩ := settled result
      refine .inr (.inr ⟨?_,?_,?_,?_,.inl running.stored⟩)
      · simp [closeStream,Turn.unopened]
      · simp [closeStream]
      · simpa [closeStream] using ended
      · rw [tokens_hand handed,doneToken_token,if_pos rfl,eq,running.seq]
        simp [closeStream]
    · exact (shut.left task).elim

theorem storeReply_spools {t : Nat} (inv : Spools old s) (task : (s.turns t).task = .closing)
    (stored : Bool) : Spools old (storeReply s t stored) := by
  have cleared : Spools old { s with stream := none } := inv
  cases stored with
  | false =>
    exact cleared.follows (fun v other => (handle_alone _ t _).turns v other) (handle_follows _ t _)
  | true =>
    have written (u : State) (r : Turn) (turns : u.turns = Function.update s.turns t r)
        (handed : ∀ v, tokens u v = tokens s v)
        (messages : u.store.messages =
          s.store.messages ++ [⟨t,.assistant,String.join (s.turns t).record.parts⟩])
        (apart : apart r = true)
        (job : r.job = (s.turns t).job) (record : r.record = (s.turns t).record) :
        Spools old u := by
      have kept := inv.1
      obtain ⟨opened,closing,streaming⟩ := apart_cases apart
      refine inv.update (t := t) (fun v other => by simp [turns,other])
        (by rw [messages,List.length_append]; omega) (fun v other => ⟨handed v,?_⟩) ?_
      · rw [replies_append messages kept]
        simp [Ne.symm other]
      · rw [turns,Function.update_self]
        rcases inv.2 t with still | running | shut
        · have unopened := still.unopened
          simp [Turn.unopened,task] at unopened
        · exact (running.unclosed task).elim
        · refine .inr (.inr ⟨opened,streaming,job.trans shut.job,?_,.inr ⟨closing,?_⟩⟩)
          · rw [handed,record]; exact shut.sent
          · have none : replies old s t = [] := shut.stored.resolve_right fun both => both.1 task
            rw [replies_append messages kept,none,record]
            simp
    simp only [storeReply,if_true]
    split
    · exact written _ _ rfl (fun _ => rfl) rfl rfl rfl rfl
    · exact written _ _ rfl (tokens_silent rfl fun _ => rfl) rfl rfl rfl rfl
    · next speech =>
      simp only [onCancelled,handle,speech]
      exact written _ _ rfl (fun _ => rfl) rfl rfl rfl rfl
    · exact written _ _ rfl (tokens_silent rfl fun _ => rfl) rfl rfl rfl rfl

theorem resumeWith_spools {t : Nat} {wake : Wake} (inv : Spools old s)
    (woken : (s.turns t).wake = some wake) (stored : Bool) :
    Spools old (resumeWith s t stored wake) := by
  have alone := (resumeWith_alone s t stored wake).turns
  have removed : Follows s (s.modify t Turn.removeJob) t := by
    refine ⟨.of_eq rfl rfl,fun spool => ?_⟩
    rw [State.modify_same]
    exact spool.removeJob
  simp only [resumeWith] at alone ⊢
  split at alone
  · exact inv.follows alone (.leave (.of_eq rfl rfl) rfl rfl rfl rfl rfl)
  · next created _ => exact inv.follows alone (startTurn_follows stored (by simp [Turn.unopened,created]))
  · next thinking => exact inv.follows alone (openStream_follows thinking)
  · next streaming =>
    apply closeStream_spools inv streaming
    simp only [Turn.wake,streaming] at woken
    split at woken <;> cases woken
    assumption
  · exact inv.follows alone (removed.trans (handle_follows ..))
  · exact inv.follows alone (handle_follows ..)
  · exact inv.follows alone (handle_follows ..)
  · next closing => exact storeReply_spools inv closing stored
  · exact inv.follows alone (.leave (.hand rfl (fun _ => rfl) rfl) rfl rfl rfl rfl rfl)
  · exact inv.follows alone (showError_follows ..)
  · exact inv.follows alone (finish_follows s t _ stored fun u => handle_follows u t _)
  · exact inv.follows alone (.leave (.of_eq rfl rfl) rfl rfl rfl rfl rfl)
  · exact inv.follows alone (showError_follows ..)
  · exact inv.follows alone (finish_follows s t _ stored fun u =>
      .leave (.of_eq rfl rfl) rfl rfl rfl rfl rfl)
  · exact inv.follows alone (.leave (.of_eq rfl rfl) rfl rfl rfl rfl rfl)
  · exact inv.follows alone (.leave (.of_eq rfl rfl) rfl rfl rfl rfl rfl)
  · refine inv.follows alone ?_
    simp only [decay]
    split
    · exact .leave (.hand rfl (fun _ => rfl) rfl) rfl rfl rfl rfl rfl
    · exact .leave (.of_eq rfl rfl) rfl rfl rfl rfl rfl
  · exact inv.follows alone (.leave (.of_eq rfl rfl) rfl rfl rfl rfl rfl)
  · exact inv.follows alone (handle_follows ..)

/-! ## Steps of a turn's job -/

theorem sendDelta_spools {t : Nat} {delta : String} {job : Job} (inv : Spools old s)
    (now : (s.turns t).job = job) (idle : job = .fetching ∨ job = .responding delta) :
    Spools old (sendDelta s t delta) := by
  have handed : (sendDelta s t delta).handed =
      s.handed ++ [deltaToken t (s.turns t).record.seq delta] := rfl
  refine inv.update (t := t) (fun v other => ?_) inv.1 (fun v other => ⟨?_,rfl⟩) ?_
  · simp [sendDelta,other]
  · rw [tokens_hand handed,deltaToken_token,if_neg (Ne.symm other)]
    simp
  · have busy : (s.turns t).job ≠ .absent ∧ (s.turns t).job ≠ .ended := by
      rcases idle with rfl | rfl <;> simp [now]
    rcases inv.2 t with still | running | shut
    · exact (busy.1 still.job).elim
    · obtain ⟨deltas,eq,carries,result⟩ := running.deltas
      have same : deltas = (s.turns t).record.parts := by
        rcases idle with rfl | rfl <;> simpa [Turn.carries,now] using carries
      refine .inr (.inl ⟨?_,?_,?_,⟨deltas ++ [delta],?_,?_,?_⟩,running.stored⟩)
      · simpa [sendDelta,Turn.unopened] using running.opened
      · simpa [sendDelta] using running.unclosed
      · simpa [sendDelta] using running.seq
      · rw [tokens_hand handed,deltaToken_token,if_pos rfl,eq,running.seq,same]
        simp
      · simp [sendDelta,Turn.carries,same]
      · intro settled
        exact (busy.2 (result (by simpa [sendDelta] using settled)).1).elim
    · exact (busy.2 shut.job).elim

/-- A step of the job that hands over no token. -/
theorem Spools.job {t : Nat} {r : Turn} (inv : Spools old s) (mute : Mute s u)
    (turns : u.turns = Function.update s.turns t r)
    (spool : ∀ {sent stored}, Spool (s.turns t) sent stored → Spool r sent stored) :
    Spools old u :=
  inv.follows (t := t) (fun v other => by simp [turns,other])
    ⟨mute,fun before => by rw [turns,Function.update_self]; exact spool before⟩

theorem jobCancelled_spools {t : Nat} (inv : Spools old s)
    (busy : (s.turns t).job ≠ .absent ∧ (s.turns t).job ≠ .ended) :
    Spools old (jobCancelled s t) := by
  refine inv.job (.of_eq rfl rfl) rfl fun spool => ?_
  refine spool.advance rfl rfl busy (fun _ _ => trivial) fun _ _ now before => ?_
  by_cases pending : (s.turns t).future = .pending
  · simp [pending] at now
  · simp only [pending,if_false] at now
    exact absurd now before

/-- The delta that was handed over enters the record. -/
theorem Spool.landed {delta : String} (spool : Spool r sent stored) (job : r.job = .sending delta) :
    Spool { r with job := .fetching, record := ⟨r.record.parts ++ [delta],r.record.seq + 1⟩ }
      sent stored := by
  rcases spool with still | running | shut
  · have absent := still.job
    rw [job] at absent; cases absent
  · obtain ⟨deltas,eq,carries,result⟩ := running.deltas
    refine .inr (.inl ⟨?_,running.unclosed,?_,⟨deltas,eq,?_,?_⟩,running.stored⟩)
    · exact running.opened
    · simp [running.seq]
    · simpa only [Turn.carries,job] using carries
    · intro settled
      have ended := (result settled).1
      rw [job] at ended; cases ended
  · have ended := shut.job
    rw [job] at ended; cases ended

theorem jobResumes_spools {t : Nat} (inv : Spools old s) (taken : jobResumes s t = some u) :
    Spools old u := by
  simp only [jobResumes] at taken
  split at taken <;> cases taken
  · next job _ =>
    refine inv.job (.of_eq rfl rfl) rfl fun spool => ?_
    exact spool.advance rfl rfl (by simp [job]) (fun _ _ => trivial)
      fun _ _ now before => absurd now before
  · next job _ => exact jobCancelled_spools inv (by simp [job])
  · next job _ => exact jobCancelled_spools inv (by simp [job])
  · next job _ => exact jobCancelled_spools inv (by simp [job])
  · next job _ =>
    refine inv.job (.of_eq rfl rfl) rfl fun spool => ?_
    refine spool.advance rfl rfl (by simp [job]) (fun deltas carries => ?_)
      fun _ _ now before => absurd now before
    simpa [Turn.carries,job] using carries
  · next job _ => exact sendDelta_spools inv job (.inr rfl)
  · next delta job _ => exact inv.job (.of_eq rfl rfl) rfl fun spool => spool.landed job

theorem onDelta_spools {t : Nat} {delta : String} (inv : Spools old s)
    (fetching : (s.turns t).job = .fetching) : Spools old (onDelta s t delta) := by
  simp only [onDelta]
  split
  · exact inv
  split
  · refine inv.job (.hand rfl (fun _ => rfl) rfl) rfl fun spool => ?_
    refine spool.advance rfl rfl (by simp [fetching]) (fun deltas carries => ?_)
      fun _ _ now before => absurd now before
    simpa [Turn.carries,fetching] using carries
  · exact sendDelta_spools inv fetching (.inl rfl)

theorem llmEnds_spools {t : Nat} {outcome : Outcome} (inv : Spools old s)
    (fetching : (s.turns t).job = .fetching) : Spools old (llmEnds s t outcome) := by
  refine inv.job (.of_eq rfl rfl) rfl fun spool => ?_
  refine spool.advance rfl rfl (by simp [fetching]) (fun _ _ => trivial)
    fun deltas carries _ _ => ⟨rfl,?_⟩
  simpa [Turn.carries,fetching] using carries

/-! ## Commands -/

/-- A turn's cancellation reaches its task and its job. -/
theorem cancel_spools {t : Nat} (inv : Spools old s) (reason : String) (stored : Bool) :
    Spools old (cancel s t reason stored) := by
  cases stored with
  | false =>
    exact inv.job (.of_eq rfl rfl) rfl fun spool => spool.stand rfl rfl rfl (.inl rfl)
  | true =>
    refine inv.follows (t := t) (fun v other => by simp [cancel,other]) ⟨.hand rfl (fun _ => rfl) rfl,?_⟩
    intro sent stored spool
    have marked : Spool { s.turns t with status := .cancelled } sent stored :=
      spool.stand rfl rfl rfl (.inl rfl)
    simpa [cancel] using marked.cancelTask

theorem cancelJob_spools {t : Nat} (inv : Spools old s) : Spools old (s.modify t Turn.cancelJob) :=
  inv.job (.of_eq rfl rfl) rfl fun spool => spool.cancelJob

/-- Nothing has been sent or stored for the turn that is issued now. -/
theorem beginTurn_spools (inv : Spools old s) (unissued : Unissued s) (a owner : Nat) (text : String)
    (counted recorded : Bool) : Spools old (beginTurn s a owner text counted recorded) := by
  cases counted with
  | false => exact inv
  | true =>
    cases recorded with
    | false => exact inv
    | true =>
      refine inv.follows (t := s.store.counter + 1) (fun v other => ?_) ⟨.hand rfl (fun _ => rfl) rfl,?_⟩
      · simp [beginTurn,Store.nextTurnId,other]
      · intro sent stored spool
        have absent := unissued (s.store.counter + 1) (Nat.lt_succ_self _)
        have unopened : (s.turns (s.store.counter + 1)).unopened = true := by
          simp [Turn.unopened,absent]
        have fresh : (beginTurn s a owner text true true).turns (s.store.counter + 1) =
            { owner := owner } := by simp [beginTurn,Store.nextTurnId]
        rw [fresh]
        rcases spool with still | running | shut
        · exact .inl ⟨rfl,rfl,rfl,rfl,still.sent,still.stored⟩
        · rw [running.opened] at unopened; cases unopened
        · rw [shut.opened] at unopened; cases unopened

theorem step_spools {op : Op} (inv : Spools old s) (unissued : Unissued s) (starts : Starts s)
    (taken : step s op = some u) : Spools old u := by
  have startup : Mute s (setState s .idle none "") := .hand rfl (fun _ => rfl) rfl
  cases op with
  | startup =>
    cases taken
    exact inv.follows (t := 0) (fun _ _ => rfl) ⟨startup,id⟩
  | chatSend a owner text stored counted recorded =>
    obtain ⟨_,rfl⟩ := chatSend_taken taken
    rcases chatSend_cases s a owner text stored counted recorded with ⟨t,_,_,same⟩ | ⟨_,same⟩ <;>
      rw [same]
    · exact cancel_spools inv "superseded" stored
    · exact beginTurn_spools inv unissued a owner text counted recorded
  | turnCancel a session t stored =>
    obtain ⟨_,rfl⟩ := turnCancel_taken taken
    rcases turnCancel_cases s a session t stored with ⟨_,same⟩ | same <;> rw [same]
    · exact cancel_spools inv "user_cancel" stored
    · exact inv
  | commandResumes a counted recorded =>
    rcases commandResumes_taken taken with ⟨t,owner,text,waits,rfl⟩ | ⟨t,text,waits,rfl⟩ | ⟨t,waits,rfl⟩
    · have unissued' : Unissued (s.modify t Turn.cancelJob) := by
        intro v later
        rw [(cancelJob_stand s t v).task]
        exact unissued v later
      exact beginTurn_spools (cancelJob_spools inv) unissued' a owner text counted recorded
    · have absent := (starts.starting a t text waits).2
      refine inv.job (.of_eq rfl rfl) rfl fun spool => ?_
      have unopened : (s.turns t).unopened = true := by simp [Turn.unopened,absent]
      rcases spool with still | running | shut
      · exact .inl ⟨rfl,still.job,still.record,still.future,still.sent,still.stored⟩
      · rw [running.opened] at unopened; cases unopened
      · rw [shut.opened] at unopened; cases unopened
    · exact cancelJob_spools inv
  | taskResumes t stored =>
    obtain ⟨wake,woken,rfl⟩ := Option.map_eq_some_iff.mp taken
    exact resumeWith_spools inv woken stored
  | dispatch t =>
    obtain ⟨queued,rfl⟩ := dispatch_taken taken
    exact inv.job (.of_eq rfl rfl) rfl fun spool => spool.dispatch queued
  | jobResumes t => exact jobResumes_spools inv taken
  | delta t delta =>
    obtain ⟨fetching,_,rfl⟩ := delta_taken taken
    exact onDelta_spools inv fetching
  | llmEnds t outcome =>
    obtain ⟨fetching,_,_,rfl⟩ := llmEnds_taken taken
    exact llmEnds_spools inv fetching
  | speechEnds t failure =>
    obtain ⟨_,_,_,_,_,rfl⟩ := speechEnds_taken taken
    exact inv.job (.of_eq rfl rfl) rfl fun spool => spool.stand rfl rfl rfl (.inl rfl)

/-! ## Whole runs -/

/-- The deltas broadcast are numbered from 0, at most one done token with the next number
follows them, and the reply, stored at most once and only after it, is their
concatenation. -/
def StreamedAsStored (old : Nat) (s : State) (t : Nat) : Prop :=
  ∃ deltas, (tokens s t = numbered deltas ∧ replies old s t = []) ∨
    (tokens s t = numbered deltas ++ [⟨deltas.length,"",true⟩] ∧
      (replies old s t = [] ∨ replies old s t = [String.join deltas]))

theorem Spool.streamedAsStored {t : Nat} {r : Turn}
    (spool : Spool r (tokens s t) (replies old s t)) : StreamedAsStored old s t := by
  rcases spool with still | running | shut
  · exact ⟨[],.inl ⟨still.sent,still.stored⟩⟩
  · obtain ⟨deltas,eq,_⟩ := running.deltas
    exact ⟨deltas,.inl ⟨eq,running.stored⟩⟩
  · exact ⟨r.record.parts,.inr ⟨shut.sent,shut.stored.imp id And.right⟩⟩

theorem Spools.initial (tts : Bool) (store : Store) :
    Spools store.messages.length (init tts store) := by
  refine ⟨le_rfl,fun t => .inl ⟨rfl,rfl,rfl,rfl,rfl,?_⟩⟩
  simp [replies,init]

/-- Whatever the LLM yields and however turns are cancelled, what is streamed of a turn is
what is stored of it. -/
theorem streamed_as_stored (tts : Bool) (store : Store) (ops : List Op) (s : State)
    (reached : run step (init tts store) ops = some s) (t : Nat) :
    StreamedAsStored store.messages.length s t := by
  have keep : ∀ u op v, (Spools store.messages.length u ∧ Unissued u ∧ Starts u) →
      step u op = some v → Spools store.messages.length v ∧ Unissued v ∧ Starts v := by
    rintro u op v ⟨inv,unissued,starts⟩ taken
    exact ⟨step_spools inv unissued starts taken,unissued.step starts taken,starts.step taken⟩
  have start : Spools store.messages.length (init tts store) ∧ Unissued (init tts store) ∧
      Starts (init tts store) := ⟨.initial tts store,fun _ _ => rfl,.initial tts store⟩
  exact ((run_invariant keep start reached).1.2 t).streamedAsStored

/-- The first of two turns is streamed and stored, the second fails before its first delta. -/
theorem failedOnce_streamed :
    ∃ s, run step (init true emptyStore) failedOnce = some s ∧
      tokens s 1 = [⟨0,"Hi! Wait",false⟩,⟨1,"",true⟩] ∧ replies 0 s 1 = ["Hi! Wait"] ∧
      tokens s 2 = [] ∧ StreamedAsStored 0 s 1 := by
  have eval : ∃ s, run step (init true emptyStore) failedOnce = some s ∧
      (tokens s 1 = [⟨0,"Hi! Wait",false⟩,⟨1,"",true⟩] ∧ replies 0 s 1 = ["Hi! Wait"] ∧
        tokens s 2 = []) := exists_of_eval (by decide +kernel)
  obtain ⟨s,reached,tokens,replies,none⟩ := eval
  exact ⟨s,reached,tokens,replies,none,streamed_as_stored true emptyStore failedOnce s reached 1⟩

end GhostRunner.Orchestrator
