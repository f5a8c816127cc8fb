import GhostRunner.Machine
import GhostRunner.SandboxSteps

/-! Whether `run_skill` leaves its process behind. Only a timeout and an overflow of stdout lead
to `_reap`; any other exception, and a cancellation by the caller, goes straight out. -/
namespace GhostRunner.Skills

open Machine

/-- There is no process, or it has exited and been waited for. -/
def Proc.isSettled : Proc → Bool
  | .absent | .collected _ => true
  | .running | .exited _ => false

def Outcome.isSurvived (call : Call) : Outcome → Bool
  | .skillError message => message = call.survivedMessage
  | _ => false

/-- `run_skill` has not ended before its process, unless the process has survived its kill. -/
def Attended (call : Call) (s : State) : Prop :=
  match s.await with
  | .ended outcome => s.proc.isSettled = true ∨ outcome.isSurvived call = true
  | _ => True

/-- What the await gives goes out of `run_skill`: a cancellation that is not due to the timeout
around it, or the failure of a task that is not an overflow. -/
def escapes (s : State) : Bool :=
  match s.await, wake s with
  | .settling _, some .cancelled | .draining _, some (.failed _) => true
  | _, some .cancelled => !timesOut s
  | _, some (.failed failure) => failure ≠ .stdoutOverflow
  | _, _ => false

/-- Such a thing goes out while the process has not been waited for. -/
def Abandons (s : State) : Op → Prop
  | .resumes => s.proc.isSettled = false ∧ escapes s = true
  | _ => False

instance (call : Call) : DecidablePred (Attended call)
  | ⟨.ended _,_,_,_,_,_,_,_,_,_,_⟩ => inferInstanceAs (Decidable (_ ∨ _))
  | ⟨.spawning,_,_,_,_,_,_,_,_,_,_⟩ | ⟨.gathering,_,_,_,_,_,_,_,_,_,_⟩
  | ⟨.waiting,_,_,_,_,_,_,_,_,_,_⟩ | ⟨.settling _,_,_,_,_,_,_,_,_,_,_⟩
  | ⟨.draining _,_,_,_,_,_,_,_,_,_,_⟩ | ⟨.reaping _,_,_,_,_,_,_,_,_,_,_⟩ => instDecidableTrue

instance (s : State) : DecidablePred (Abandons s)
  | .resumes => inferInstanceAs (Decidable (_ ∧ _))
  | .spawned | .spawnFails _ | .cancel | .expires | .feedStarts | .feedReturns | .feedBreaks _
  | .feedStops | .reads .. | .readsEof _ | .readBreaks .. | .readStops _ | .exits _ | .collects
  | .closes _ => instDecidableFalse

variable {call : Call} {s u : State} {op : Op}

/-! ## Steps that `run_skill` does not take -/

/-- `run_skill` stands still, and a process that has been waited for stays so. -/
structure Stands (s u : State) : Prop where
  await : u.await = s.await
  proc : s.proc.isSettled = true → u.proc.isSettled = true

theorem Stands.of_eq (await : u.await = s.await) (proc : u.proc = s.proc) : Stands s u :=
  ⟨await,by rw [proc]; exact id⟩

theorem feedEnds_stands (s : State) (task : Task Feeding Unit) (ended : Gathered) :
    Stands s (feedEnds s task ended) := by
  rw [feedEnds_eq]
  exact .of_eq rfl rfl

theorem drainEnds_stands (s : State) (reader : Reader) (task : Task Reading (List UInt8))
    (ended : Gathered) : Stands s (drainEnds s reader task ended) := by
  rw [drainEnds_eq]
  exact .of_eq rfl rfl

theorem interrupt_stands (s : State) : Stands s (interrupt s) := by
  simp only [interrupt]
  split <;> exact .of_eq rfl rfl

/-- The start of the process fails or succeeds. -/
def Starts (s u : State) : Prop :=
  s.await = .spawning ∧ (u = spawned s ∨ ∃ outcome, u = end_ s outcome)

/-- After the start of the process only its own steps move `run_skill`. -/
theorem step_stands (taken : step call s op = some u) (other : op ≠ .resumes) :
    Stands s u ∨ Starts s u := by
  by_cases starting : Starts s u
  · exact .inr starting
  left
  cases op with
  | resumes => exact (other rfl).elim
  | spawned =>
    obtain ⟨spawning,rfl⟩ := spawned_taken taken
    exact (starting ⟨spawning,.inl rfl⟩).elim
  | spawnFails text =>
    obtain ⟨spawning,outcome,rfl⟩ := spawnFails_taken taken
    exact (starting ⟨spawning,.inr ⟨outcome,rfl⟩⟩).elim
  | cancel =>
    rw [cancel_taken taken]
    have stands := interrupt_stands { s with cancelled := true }
    exact ⟨stands.await,stands.proc⟩
  | expires =>
    rw [expires_taken taken]
    have stands := interrupt_stands { s with expired := true }
    exact ⟨stands.await,stands.proc⟩
  | feedStarts =>
    obtain ⟨_,rfl⟩ | ⟨_,rfl⟩ := feedStarts_taken taken
    · exact .of_eq rfl rfl
    · exact feedEnds_stands ..
  | feedReturns => rw [feedReturns_taken taken]; exact feedEnds_stands ..
  | feedBreaks text => rw [feedBreaks_taken taken]; exact feedEnds_stands ..
  | feedStops => rw [(feedStops_taken taken).2]; exact feedEnds_stands ..
  | reads reader chunk =>
    obtain ⟨_,_,_,⟨_,_,rfl⟩ | ⟨_,_,rfl⟩⟩ := reads_taken taken
    · exact .of_eq rfl rfl
    · exact drainEnds_stands ..
  | readsEof reader =>
    obtain ⟨_,_,rfl⟩ := readsEof_taken taken
    exact drainEnds_stands ..
  | readBreaks reader text => rw [readBreaks_taken taken]; exact drainEnds_stands ..
  | readStops reader =>
    obtain ⟨_,_,_,rfl⟩ := readStops_taken taken
    exact drainEnds_stands ..
  | exits code =>
    obtain ⟨running,rfl⟩ := exits_taken taken
    exact ⟨rfl,by simp [running,Proc.isSettled]⟩
  | collects =>
    obtain ⟨_,_,rfl⟩ := collects_taken taken
    exact ⟨rfl,fun _ => rfl⟩
  | closes pipe => cases taken; exact .of_eq rfl rfl

theorem Attended.stands (attended : Attended call s) (stands : Stands s u) : Attended call u := by
  simp only [Attended,stands.await] at attended ⊢
  split
  · next outcome ended =>
    rw [ended] at attended
    exact attended.imp stands.proc id
  · trivial

/-! ## Its own steps -/

theorem waited_settled (waited : s.waited = true) : s.proc.isSettled = true := by
  simp only [State.waited] at waited
  split at waited
  · next collected => rw [collected]; rfl
  · cases waited

theorem wait_given {wake : Wake}
    (woken : (if s.interrupted then some Wake.cancelled else if s.waited then some .returns
      else none) = some wake) : wake = .cancelled ∨ (wake = .returns ∧ s.waited = true) := by
  cases interrupted : s.interrupted
  · cases waited : s.waited
    · simp [interrupted,waited] at woken
    · exact .inr ⟨by simpa [interrupted,waited,eq_comm] using woken,rfl⟩
  · exact .inl (by simpa [interrupted,eq_comm] using woken)

theorem end_attended (outcome : Outcome) :
    Attended call (end_ s outcome) ↔
      s.proc.isSettled = true ∨ outcome.isSurvived call = true := Iff.rfl

/-- What `run_skill` does with what its await gives. -/
theorem resumeWith_attended_iff {wake : Wake} (woken : Skills.wake s = some wake) :
    Attended call (resumeWith call s wake) ↔ (escapes s = true → s.proc.isSettled = true) := by
  have goes (outcome : Outcome) (kept : outcome.isSurvived call = false) :
      Attended call (end_ s outcome) ↔ s.proc.isSettled = true := by
    rw [end_attended,kept]
    simp
  have stops : Attended call (end_ s call.survivedError) :=
    .inr (by simp [Call.survivedError,Outcome.isSurvived])
  cases await : s.await
  case spawning => simp [Skills.wake,await] at woken
  case ended outcome => simp [Skills.wake,await] at woken
  case gathering =>
    cases wake <;> simp only [escapes,await,woken,resumeWith]
    case returns => simp [Attended]
    case cancelled =>
      cases timesOut s with
      | true => exact iff_of_true trivial (by simp)
      | false => simpa using goes .cancelled rfl
    case failed failure =>
      cases failure with
      | stdoutOverflow => exact iff_of_true trivial (by simp)
      | unicodeEncode => simpa using goes (.raised .unicodeEncode) rfl
      | foreign text => simpa using goes (.raised (.foreign text)) rfl
  case waiting =>
    have given : wake = .cancelled ∨ (wake = .returns ∧ s.waited = true) := by
      simp only [Skills.wake,await] at woken
      exact wait_given woken
    rcases given with rfl | ⟨rfl,waited⟩ <;> simp only [escapes,await,woken,resumeWith]
    · cases timesOut s with
      | true => exact iff_of_true trivial (by simp)
      | false => simpa using goes .cancelled rfl
    · exact iff_of_true (.inl (waited_settled waited)) (by simp)
  case settling overflow =>
    simp only [Skills.wake,await] at woken
    split at woken <;> cases woken
    next ended =>
    cases interrupted : s.interrupted with
    | true =>
      have gives : Skills.wake s = some .cancelled := by simp [Skills.wake,await,ended,interrupted]
      simpa [escapes,await,gives,resumeWith] using goes .cancelled rfl
    | false =>
      have gives : Skills.wake s = some .returns := by simp [Skills.wake,await,ended,interrupted]
      exact iff_of_true (by simp [resumeWith,await,Attended,reap]) (by simp [escapes,await,gives])
  case draining overflow =>
    cases wake <;> simp only [escapes,await,woken,resumeWith]
    case returns => simp [Attended]
    case cancelled =>
      cases timesOut s with
      | true => exact iff_of_true stops (by simp)
      | false => simpa using goes .cancelled rfl
    case failed failure => simpa using goes (.raised failure) rfl
  case reaping overflow =>
    have given : wake = .cancelled ∨ (wake = .returns ∧ s.waited = true) := by
      simp only [Skills.wake,await] at woken
      exact wait_given woken
    rcases given with rfl | ⟨rfl,waited⟩ <;> simp only [escapes,await,woken,resumeWith]
    · cases timesOut s with
      | true => exact iff_of_true stops (by simp)
      | false => simpa using goes .cancelled rfl
    · exact iff_of_true (.inl (waited_settled waited)) (by simp)

/-! ## Runs -/

structure Reaping (call : Call) (s : State) : Prop where
  attended : Attended call s
  started : s.await = .spawning → s.proc.isSettled = true

theorem attended_iff_step (inv : Reaping call s) (taken : step call s op = some u) :
    Attended call u ↔ ¬Abandons s op := by
  by_cases resumed : op = .resumes
  · subst op
    obtain ⟨wake,woken,rfl⟩ := Option.map_eq_some_iff.mp taken
    rw [resumeWith_attended_iff woken]
    simp only [Abandons]
    cases s.proc.isSettled <;> simp
  · have kept : ¬Abandons s op := by
      cases op <;> first | exact (resumed rfl).elim | exact id
    refine iff_of_true ?_ kept
    rcases step_stands taken resumed with stands | ⟨spawning,rfl | ⟨outcome,rfl⟩⟩
    · exact inv.attended.stands stands
    · trivial
    · exact .inl (inv.started spawning)

theorem resumeWith_started {wake : Wake} (woken : Skills.wake s = some wake) :
    (resumeWith call s wake).await ≠ .spawning := by
  cases await : s.await
  case spawning => simp [Skills.wake,await] at woken
  case gathering =>
    cases wake with
    | failed failure => cases failure <;> simp [resumeWith,await,settle,end_]
    | returns => simp [resumeWith,await]
    | cancelled => cases timeout : timesOut s <;> simp [resumeWith,await,settle,end_,timeout]
  case waiting =>
    cases wake with
    | cancelled => cases timeout : timesOut s <;> simp [resumeWith,await,settle,end_,timeout]
    | _ => simp [resumeWith,await,end_]
  all_goals cases wake <;> simp [resumeWith,await,reap,end_]

theorem Reaping.step (inv : Reaping call s) (admitted : ¬Abandons s op)
    (taken : Skills.step call s op = some u) : Reaping call u := by
  refine ⟨(attended_iff_step inv taken).mpr admitted,fun spawning => ?_⟩
  by_cases resumed : op = .resumes
  · subst op
    obtain ⟨wake,woken,rfl⟩ := Option.map_eq_some_iff.mp taken
    exact (resumeWith_started woken spawning).elim
  · rcases step_stands taken resumed with stands | ⟨_,rfl | ⟨outcome,rfl⟩⟩
    · exact stands.proc (inv.started (stands.await ▸ spawning))
    · cases spawning
    · cases spawning

/-- `run_skill` does not end before its process has been waited for, for as long as nothing but
a timeout or an overflow of stdout makes it leave its awaits before that. -/
theorem attended_throughout_iff (call : Call) (ops : List Op) (s : State)
    (reached : run (step call) init ops = some s) :
    Throughout (step call) (Attended call) init ops ↔
      Meets (step call) (fun s op => ¬Abandons s op) init ops :=
  throughout_iff_meets (fun _ _ _ inv admitted taken => Reaping.step inv admitted taken)
    (fun _ inv => inv.attended)
    (fun _ _ _ inv taken abandons attended =>
      abandons ((attended_iff_step inv taken).mp attended))
    ⟨trivial,fun _ => rfl⟩ reached

/-- A hung skill: its time runs out, and `_reap` kills it and waits for it. -/
def hung : List Op := [
  .spawned,
  .feedStarts,
  .feedReturns,
  .reads (.task .stderr) [0x2e],
  .expires,
  .readStops (.task .stdout),
  .resumes,
  .readStops (.task .stderr),
  .resumes,
  .exits (-9),
  .closes .stdout,
  .closes .stderr,
  .readsEof (.reaper .stdout),
  .readsEof (.reaper .stderr),
  .resumes,
  .collects,
  .resumes]

/-- A call whose argument is one string. -/
def callWith (argument : PyStr) : Call where
  runtime := ⟨fun _ => .ok .null,fun _ => []⟩
  skill := ⟨"echo","5.0"⟩
  args := [(text "text",.str argument)]

def Await.isEnded : Await → Bool
  | .ended _ => true
  | _ => false

theorem hung_attended : ∃ s, run (step (callWith (text "Hi"))) init hung = some s ∧
    s.await.isEnded = true ∧
    Throughout (step (callWith (text "Hi"))) (Attended (callWith (text "Hi"))) init hung := by
  have eval : ∃ s, run (step (callWith (text "Hi"))) init hung = some s ∧
      s.await.isEnded = true := exists_of_eval (by decide +kernel)
  obtain ⟨s,reached,ended⟩ := eval
  exact ⟨s,reached,ended,
    (attended_throughout_iff (callWith (text "Hi")) hung s reached).mpr (by decide +kernel)⟩

/-- The argument has a lone surrogate, and `feed_stdin` cannot encode it. -/
theorem surrogate_abandons : ∃ s,
    run (step (callWith [0xd800])) init [.spawned,.feedStarts,.resumes] = some s ∧
      s.proc = .running ∧ ¬Attended (callWith [0xd800]) s :=
  exists_of_eval (by decide +kernel)

/-- A cancellation by the caller leaves the process behind as well. -/
example : ∃ s, run (step (callWith (text "Hi"))) init
    [.spawned,.feedStarts,.cancel,.feedStops,.resumes] = some s ∧
      s.proc = .running ∧ ¬Attended (callWith (text "Hi")) s :=
  exists_of_eval (by decide +kernel)

end GhostRunner.Skills
