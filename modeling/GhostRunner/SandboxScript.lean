import GhostRunner.Machine
import GhostRunner.SandboxSteps

/-! `run_skill` on a process that writes given streams and ends with a given code. Nothing is
timed out, cancelled or broken; how the streams are cut into chunks, and when each is read, is
open. -/
namespace GhostRunner.Skills

open Machine

/-- What a process writes to its pipes, and the code that it ends with if it is not killed. -/
structure Script where
  stdout : List UInt8
  stderr : List UInt8
  code : Int

def Script.stream (script : Script) : Pipe → List UInt8
  | .stdout => script.stdout
  | .stderr => script.stderr

/-- A call, with what its two tasks have not read yet. -/
structure Execution where
  state : State
  unread : Pipe → List UInt8

/-- What is left to read after the label, where the script allows it. `_reap` reads what it
finds. -/
def supply (script : Script) (x : Execution) : Op → Option (Pipe → List UInt8)
  | .reads (.task pipe) chunk =>
    if chunk <+: x.unread pipe then
      some (Function.update x.unread pipe ((x.unread pipe).drop chunk.length))
    else none
  | .readsEof (.task pipe) => if x.unread pipe = [] then some x.unread else none
  | .exits code => if x.state.killed = true ∨ code = script.code then some x.unread else none
  | .cancel | .expires | .spawnFails _ | .feedBreaks _ | .readBreaks .. => none
  | _ => some x.unread

def execute (call : Call) (script : Script) (x : Execution) (op : Op) : Option Execution :=
  (supply script x op).bind fun unread => (step call x.state op).map fun s => ⟨s,unread⟩

/-- The labels are those of a whole run of `run_skill`. -/
def Gives (call : Call) (script : Script) (ops : List Op) (outcome : Outcome) : Prop :=
  ∃ x, run (execute call script) ⟨init,script.stream⟩ ops = some x ∧
    x.state.await = .ended outcome

theorem execute_taken {call : Call} {script : Script} {x y : Execution} {op : Op}
    (taken : execute call script x op = some y) :
    supply script x op = some y.unread ∧ step call x.state op = some y.state := by
  obtain ⟨unread,supplied,made⟩ := Option.bind_eq_some_iff.mp taken
  obtain ⟨s,stepped,rfl⟩ := Option.map_eq_some_iff.mp made
  exact ⟨supplied,stepped⟩

/-! ## What `_drain` keeps -/

/-- Of a stream longer than the cap it keeps a part, however short: the chunk that goes beyond
the cap is dropped whole. -/
def Kept (pipe : Pipe) (stream kept : List UInt8) : Prop :=
  stream.length ≤ (Reader.task pipe).cap ∧ kept = stream ∨
    (Reader.task pipe).cap < stream.length ∧ pipe = .stderr ∧
      ∃ k, 0 < k ∧ k ≤ stderrCap ∧ kept = stream.take k

theorem Kept.empty (pipe : Pipe) : Kept pipe [] [] := .inl ⟨Nat.zero_le _,rfl⟩

theorem readChunk_le_cap (pipe : Pipe) : readChunk ≤ (Reader.task pipe).cap := by
  cases pipe <;> decide

/-- The chunk is kept. -/
theorem Kept.append {pipe : Pipe} {read kept chunk : List UInt8} (kept_is : Kept pipe read kept)
    (fits : read.length + chunk.length ≤ (Reader.task pipe).cap) :
    Kept pipe (read ++ chunk) (kept ++ chunk) := by
  rcases kept_is with ⟨_,rfl⟩ | ⟨longer,_⟩
  · exact .inl ⟨by rw [List.length_append]; exact fits,rfl⟩
  · omega

/-- The chunk is dropped. It is not the first one, which always fits. -/
theorem Kept.drop {read kept chunk : List UInt8} (kept_is : Kept .stderr read kept)
    (small : chunk.length ≤ readChunk)
    (exceeds : (Reader.task .stderr).cap < read.length + chunk.length) :
    Kept .stderr (read ++ chunk) kept := by
  have fits := readChunk_le_cap .stderr
  refine .inr ⟨by rw [List.length_append]; exact exceeds,rfl,?_⟩
  rcases kept_is with ⟨short,rfl⟩ | ⟨longer,_,k,positive,capped,rfl⟩
  · exact ⟨kept.length,by omega,short,List.take_left.symm⟩
  · have inside : k ≤ read.length := by simp only [Reader.cap] at longer; omega
    exact ⟨k,positive,capped,(List.take_append_of_le_length inside).symm⟩

/-- What a draining task has done with its stream. -/
def Drains (pipe : Pipe) (stream unread : List UInt8) : Task Reading (List UInt8) → Prop
  | .running reading => ∃ read, stream = read ++ unread ∧ reading.total = read.length ∧
      Kept pipe read reading.kept
  | .finished kept => Kept pipe stream kept
  | .failed failure =>
    failure = .stdoutOverflow ∧ pipe = .stdout ∧ maxResultBytes < stream.length
  | .absent | .cancelled => False

theorem Drains.reads {pipe : Pipe} {stream unread chunk : List UInt8} {reading : Reading}
    (drains : Drains pipe stream unread (.running reading)) (small : chunk.length ≤ readChunk)
    (supplied : chunk <+: unread) :
    Drains pipe stream (unread.drop chunk.length) ((Reader.task pipe).read reading chunk) := by
  obtain ⟨read,rfl,total,kept⟩ := drains
  obtain ⟨rest,rfl⟩ := supplied
  have dropped : (chunk ++ rest).drop chunk.length = rest := List.drop_left
  have next : read ++ (chunk ++ rest) = (read ++ chunk) ++ rest := by simp
  simp only [Reader.read,total,dropped]
  split
  · next fits => exact ⟨read ++ chunk,next,by simp,kept.append fits⟩
  · next exceeds =>
    cases pipe with
    | stdout =>
      refine ⟨rfl,rfl,?_⟩
      simp only [Reader.cap] at exceeds
      simp only [List.length_append]
      omega
    | stderr => exact ⟨read ++ chunk,next,by simp,kept.drop small (Nat.lt_of_not_le exceeds)⟩

theorem Drains.readsEof {pipe : Pipe} {stream : List UInt8} {reading : Reading}
    (drains : Drains pipe stream [] (.running reading)) : Kept pipe stream reading.kept := by
  obtain ⟨read,rfl,_,kept⟩ := drains
  rwa [List.append_nil]

/-! ## The phases of a run -/

section

variable (call : Call) (script : Script)

/-- What the current `gather` has come to. -/
def Gathers (s : State) : Prop :=
  match s.gathered with
  | none => ∀ failure, s.drains (.task .stdout) ≠ .failed failure
  | some .results => ∀ pipe, ∃ kept, s.drains (.task pipe) = .finished kept
  | some (.failed failure) => failure = .stdoutOverflow ∧ maxResultBytes < script.stdout.length
  | some .cancelled => False

structure Gathering (x : Execution) : Prop where
  asked : x.state.asked = false
  interrupted : x.state.interrupted = false
  killed : x.state.killed = false
  drains : ∀ pipe, Drains pipe (script.stream pipe) (x.unread pipe) (x.state.drains (.task pipe))
  gathers : Gathers script x.state

/-- Both streams have been read, and the process is waited for. -/
structure Waiting (s : State) : Prop where
  interrupted : s.interrupted = false
  killed : s.killed = false
  drained : ∀ pipe, ∃ kept, s.drains (.task pipe) = .finished kept ∧
    Kept pipe (script.stream pipe) kept

/-- An overflow of stdout is being handled. -/
structure Overflowing (overflow : Bool) (s : State) : Prop where
  overflow : overflow = true
  interrupted : s.interrupted = false
  longer : maxResultBytes < script.stdout.length

/-- The outcomes that are possible. -/
def Final (outcome : Outcome) : Prop :=
  outcome = call.cappedError ∧ maxResultBytes < script.stdout.length ∨
    script.stdout.length ≤ maxResultBytes ∧ ∃ kept, Kept .stderr script.stderr kept ∧
      outcome = call.conclude script.code script.stdout kept

def Phase (x : Execution) : Prop :=
  match x.state.await with
  | .spawning => x.state = { init with eof := x.state.eof } ∧ x.unread = script.stream
  | .gathering => Gathering script x
  | .waiting => Waiting script x.state
  | .settling overflow => Overflowing script overflow x.state
  | .draining overflow => Overflowing script overflow x.state ∧ x.state.asked = false ∧
      (x.state.gathered = none ∨ x.state.gathered = some .results)
  | .reaping overflow => Overflowing script overflow x.state
  | .ended outcome => Final call script outcome

/-- A process that has ended by itself has done so with its code. -/
def Exits (s : State) : Prop :=
  s.killed = true ∨ ∀ code, s.proc = .exited code ∨ s.proc = .collected code → code = script.code

structure Follows (x : Execution) : Prop where
  phase : Phase call script x
  exits : Exits script x.state

theorem Follows.initial : Follows call script ⟨init,script.stream⟩ := by
  refine ⟨⟨rfl,rfl⟩,.inr ?_⟩
  rintro code (exited | collected)
  · cases exited
  · cases collected

end

/-! ## Steps of the tasks -/

variable {call : Call} {script : Script}

theorem Exits.of_eq {s u : State} (exits : Exits script s) (killed : u.killed = s.killed)
    (proc : u.proc = s.proc) : Exits script u := by
  simpa only [Exits,killed,proc] using exits

/-- What leaves `run_skill` where it is. -/
structure Minor (script : Script) (s u : State) : Prop where
  await : u.await = s.await
  asked : u.asked = s.asked
  interrupted : u.interrupted = s.interrupted
  killed : u.killed = s.killed
  finished : ∀ pipe kept, s.drains (.task pipe) = .finished kept →
    u.drains (.task pipe) = .finished kept
  gathered : ∀ overflow, s.await = .draining overflow → s.asked = false →
    u.gathered = s.gathered ∨ u.gathered = some .results
  exits : Exits script s → Exits script u

theorem feedEnds_minor (s : State) (task : Task Feeding Unit) (ended : Gathered) :
    Minor script s (feedEnds s task ended) := by
  have same := feedEnds_eq s task ended
  refine ⟨?_,?_,?_,?_,?_,?_,?_⟩
  iterate 4 rw [same]
  · rw [same]; exact fun _ _ done => done
  · intro overflow draining _
    left
    simp only [feedEnds,draining]
  · exact fun exits => exits.of_eq (by rw [same]) (by rw [same])

theorem setDrain_task {s : State} {reader : Reader} {reading : Reading} {pipe : Pipe}
    {kept : List UInt8} (runs : s.drains reader = .running reading)
    (done : s.drains (.task pipe) = .finished kept) (task : Task Reading (List UInt8)) :
    (s.setDrain reader task).drains (.task pipe) = .finished kept := by
  have other : Reader.task pipe ≠ reader := by
    rintro rfl
    rw [done] at runs
    cases runs
  exact (Function.update_of_ne other ..).trans done

theorem drainEnds_minor {s : State} {reader : Reader} {reading : Reading}
    (runs : s.drains reader = .running reading) (task : Task Reading (List UInt8))
    {ended : Gathered} (fine : (∃ pipe, reader = .task pipe) ∨ s.asked = true ∨ ended = .results) :
    Minor script s (drainEnds s reader task ended) := by
  have same := drainEnds_eq s reader task ended
  refine ⟨?_,?_,?_,?_,?_,?_,?_⟩
  iterate 4 rw [same]; rfl
  · rw [same]; exact fun _ _ done => setDrain_task runs done task
  · intro overflow draining unasked
    cases reader with
    | task pipe => left; simp only [drainEnds,setDrain_await,draining]; rfl
    | reaper pipe =>
      have results : ended = .results := by
        rcases fine with ⟨_,task⟩ | asked | results
        · cases task
        · rw [unasked] at asked; cases asked
        · exact results
      simp only [drainEnds,setDrain_await,draining]
      have calm : ended ≠ .cancelled := by rw [results]; decide
      rcases gather_gathered (s.setDrain (.reaper pipe) task)
        (s.setDrain (.reaper pipe) task).reapersEnded unasked calm with
        ⟨kept,_⟩ | ⟨_,gathered,_⟩
      · exact .inl kept
      · exact .inr (gathered.trans (congrArg some results))
  · exact fun exits => exits.of_eq (by rw [same]; rfl) (by rw [same]; rfl)

theorem step_minor {x : Execution} {u : State} {op : Op} {unread : Pipe → List UInt8}
    (supplied : supply script x op = some unread) (taken : step call x.state op = some u)
    (started : op ≠ .spawned) (resumed : op ≠ .resumes) : Minor script x.state u := by
  cases op with
  | spawned => exact absurd rfl started
  | resumes => exact absurd rfl resumed
  | cancel | expires | spawnFails | feedBreaks | readBreaks => cases supplied
  | feedStarts =>
    obtain ⟨_,rfl⟩ | ⟨_,rfl⟩ := feedStarts_taken taken
    · exact ⟨rfl,rfl,rfl,rfl,fun _ _ => id,fun _ _ _ => .inl rfl,id⟩
    · exact feedEnds_minor ..
  | feedReturns => rw [feedReturns_taken taken]; exact feedEnds_minor ..
  | feedStops => rw [(feedStops_taken taken).2]; exact feedEnds_minor ..
  | reads reader chunk =>
    obtain ⟨reading,runs,_,⟨next,_,rfl⟩ | ⟨stdout,_,rfl⟩⟩ := reads_taken taken
    · exact ⟨rfl,rfl,rfl,rfl,fun _ _ done => setDrain_task runs done _,fun _ _ _ => .inl rfl,id⟩
    · exact drainEnds_minor runs _ (.inl ⟨.stdout,stdout⟩)
  | readsEof reader =>
    obtain ⟨reading,runs,rfl⟩ := readsEof_taken taken
    exact drainEnds_minor runs _ (.inr (.inr rfl))
  | readStops reader =>
    obtain ⟨reading,runs,asked,rfl⟩ := readStops_taken taken
    exact drainEnds_minor runs _ (.inr (.inl asked))
  | exits code =>
    obtain ⟨own,_⟩ := Option.ite_none_right_eq_some.mp supplied
    obtain ⟨_,rfl⟩ := exits_taken taken
    refine ⟨rfl,rfl,rfl,rfl,fun _ _ => id,fun _ _ _ => .inl rfl,fun _ => own.imp id ?_⟩
    rintro rfl other (exited | collected)
    · cases exited; rfl
    · cases collected
  | collects =>
    obtain ⟨code,exited,rfl⟩ := collects_taken taken
    refine ⟨rfl,rfl,rfl,rfl,fun _ _ => id,fun _ _ _ => .inl rfl,Or.imp id ?_⟩
    rintro own other (running | collected)
    · cases running
    · cases collected; exact own code (.inl exited)
  | closes pipe => cases taken; exact ⟨rfl,rfl,rfl,rfl,fun _ _ => id,fun _ _ _ => .inl rfl,id⟩

/-! ## What every step keeps -/

theorem Phase.minor {x y : Execution} (phase : Phase call script x)
    (minor : Minor script x.state y.state) (begun : x.state.await ≠ .spawning)
    (settled : x.state.await ≠ .gathering) : Phase call script y := by
  simp only [Phase] at phase
  simp only [Phase,minor.await]
  cases await : x.state.await with
  | spawning => exact absurd await begun
  | gathering => exact absurd await settled
  | ended outcome => rw [await] at phase; exact phase
  | waiting =>
    rw [await] at phase
    refine ⟨minor.interrupted.trans phase.interrupted,minor.killed.trans phase.killed,?_⟩
    intro pipe
    obtain ⟨kept,done,all⟩ := phase.drained pipe
    exact ⟨kept,minor.finished pipe kept done,all⟩
  | settling overflow | reaping overflow =>
    rw [await] at phase
    exact ⟨phase.overflow,minor.interrupted.trans phase.interrupted,phase.longer⟩
  | draining overflow =>
    rw [await] at phase
    obtain ⟨overflowing,asked,gathered⟩ := phase
    refine ⟨⟨overflowing.overflow,minor.interrupted.trans overflowing.interrupted,
      overflowing.longer⟩,minor.asked.trans asked,?_⟩
    rcases minor.gathered overflow await asked with same | results
    · rw [same]; exact gathered
    · exact .inr results

/-- Before the process has been started nothing moves but its pipes. -/
theorem Phase.spawning {x y : Execution} {op : Op} (phase : Phase call script x)
    (spawning : x.state.await = .spawning) (taken : execute call script x op = some y)
    (started : op ≠ .spawned) : Phase call script y := by
  simp only [Phase,spawning] at phase
  obtain ⟨same,unread⟩ := phase
  obtain ⟨supplied,taken⟩ := execute_taken taken
  rw [same] at taken
  cases op with
  | spawned => exact absurd rfl started
  | cancel | expires | spawnFails | feedBreaks | readBreaks => cases supplied
  | closes pipe =>
    have made := Option.some.inj taken
    simp only [Phase,← made]
    exact ⟨trivial,(Option.some.inj supplied).symm.trans unread⟩
  | _ => simp [step,init,wake,feedStarts,feedReturns,feedStops,reads,readsEof,readStops] at taken

theorem Gathering.phase {x : Execution} (gathering : x.state.await = .gathering)
    (inv : Gathering script x) : Phase call script x := by
  simp only [Phase,gathering]
  exact inv

theorem ended_finished {s : State} {unread : Pipe → List UInt8}
    (drains : ∀ pipe, Drains pipe (script.stream pipe) (unread pipe) (s.drains (.task pipe)))
    (fine : ∀ failure, s.drains (.task .stdout) ≠ .failed failure) (all : s.tasksEnded = true)
    (pipe : Pipe) : ∃ kept, s.drains (.task pipe) = .finished kept := by
  have drained := drains pipe
  simp only [State.tasksEnded,Bool.and_eq_true] at all
  cases task : s.drains (.task pipe) with
  | finished kept => exact ⟨kept,rfl⟩
  | absent | cancelled => rw [task] at drained; exact drained.elim
  | running reading => cases pipe <;> simp [task,Task.isEnded] at all
  | failed failure =>
    rw [task] at drained
    obtain ⟨_,rfl,_⟩ := drained
    exact absurd task (fine failure)

/-- A task of the first `gather` has ended, with its result or with an overflow. -/
theorem Gathers.gather {s : State} {unread : Pipe → List UInt8} {ended : Gathered}
    (drains : ∀ pipe, Drains pipe (script.stream pipe) (unread pipe) (s.drains (.task pipe)))
    (asked : s.asked = false) (before : s.gathered ≠ none → Gathers script s)
    (result : ended = .results ∧
        (s.gathered = none → ∀ failure, s.drains (.task .stdout) ≠ .failed failure) ∨
      ended = .failed .stdoutOverflow ∧ maxResultBytes < script.stdout.length) :
    Gathers script (gather s s.tasksEnded ended) := by
  have fine : ended ≠ .cancelled := by
    rcases result with ⟨rfl,_⟩ | ⟨rfl,_⟩ <;> simp
  have same : (Skills.gather s s.tasksEnded ended).drains = s.drains := by rw [gather_eq]
  simp only [Gathers,same]
  rcases gather_gathered s s.tasksEnded asked fine with ⟨kept,cause⟩ | ⟨none_yet,gathered,all⟩
  · rw [kept]
    by_cases none_yet : s.gathered = none
    · have results := cause.resolve_left fun other => other none_yet
      rw [none_yet]
      rcases result with ⟨_,unfailed⟩ | ⟨failed,_⟩
      · exact unfailed none_yet
      · rw [results] at failed; cases failed
    · exact before none_yet
  · rw [gathered]
    rcases result with ⟨rfl,unfailed⟩ | ⟨rfl,longer⟩
    · exact ended_finished drains (unfailed none_yet) (all rfl)
    · exact ⟨rfl,longer⟩

/-- A finished task reads no more. -/
theorem Gathers.running {s : State} {pipe : Pipe} {reading : Reading}
    (gathers : Gathers script s) (runs : s.drains (.task pipe) = .running reading)
    (some_yet : s.gathered ≠ none) :
    ∃ failure, s.gathered = some (.failed failure) ∧ failure = .stdoutOverflow ∧
      maxResultBytes < script.stdout.length := by
  simp only [Gathers] at gathers
  cases gathered : s.gathered with
  | none => exact absurd gathered some_yet
  | some ended =>
    rw [gathered] at gathers
    cases ended with
    | cancelled => exact gathers.elim
    | failed failure => exact ⟨failure,rfl,gathers⟩
    | results =>
      obtain ⟨kept,done⟩ := gathers pipe
      rw [done] at runs
      cases runs

theorem feedEnds_gathering {s : State} (gathering : s.await = .gathering)
    (task : Task Feeding Unit) (ended : Gathered) : feedEnds s task ended =
      gather { s with feed := task } { s with feed := task }.tasksEnded ended := by
  simp only [feedEnds]
  split
  · rfl
  · next other => exact absurd gathering other

theorem drainEnds_gathering {s : State} (gathering : s.await = .gathering) (pipe : Pipe)
    (task : Task Reading (List UInt8)) (ended : Gathered) :
    drainEnds s (.task pipe) task ended =
      gather (s.setDrain (.task pipe) task) (s.setDrain (.task pipe) task).tasksEnded ended := by
  simp only [drainEnds,setDrain_await,gathering]

theorem Gathering.feedEnds {x : Execution} (inv : Gathering script x)
    (gathering : x.state.await = .gathering) :
    Gathering script ⟨feedEnds x.state (.finished ()) .results,x.unread⟩ := by
  have same := feedEnds_eq x.state (.finished ()) .results
  refine ⟨by rw [same]; exact inv.asked,by rw [same]; exact inv.interrupted,
    by rw [same]; exact inv.killed,by rw [same]; exact inv.drains,?_⟩
  simp only [feedEnds_gathering gathering]
  refine Gathers.gather inv.drains inv.asked (fun _ => inv.gathers)
    (.inl ⟨rfl,fun none_yet => ?_⟩)
  have gathers := inv.gathers
  simp only [Gathers] at gathers
  rw [show x.state.gathered = none from none_yet] at gathers
  exact gathers

/-- One of the two streams is read on. -/
theorem setDrain_drains {x : Execution} (inv : Gathering script x) {pipe : Pipe}
    {task : Task Reading (List UInt8)} {left : List UInt8}
    (drained : Drains pipe (script.stream pipe) left task) (other : Pipe) :
    Drains other (script.stream other) (Function.update x.unread pipe left other)
      ((x.state.setDrain (.task pipe) task).drains (.task other)) := by
  by_cases same : other = pipe
  · subst other
    rw [Function.update_self,setDrain_update,Function.update_self]
    exact drained
  · have apart : Reader.task other ≠ .task pipe := fun h => same (Reader.task.inj h)
    rw [Function.update_of_ne same,setDrain_update,Function.update_of_ne apart]
    exact inv.drains other

theorem Gathering.setDrain {x : Execution} (inv : Gathering script x) {pipe : Pipe}
    {reading next : Reading} {left : List UInt8}
    (runs : x.state.drains (.task pipe) = .running reading)
    (drained : Drains pipe (script.stream pipe) left (.running next)) :
    Gathering script
      ⟨x.state.setDrain (.task pipe) (.running next),Function.update x.unread pipe left⟩ := by
  refine ⟨inv.asked,inv.interrupted,inv.killed,setDrain_drains inv drained,?_⟩
  by_cases none_yet : x.state.gathered = none
  · have gathers := inv.gathers
    simp only [Gathers,none_yet] at gathers
    simp only [Gathers,State.setDrain,none_yet]
    intro failure
    by_cases same : pipe = .stdout
    · subst pipe; rw [Function.update_self]; exact fun h => by cases h
    · rw [Function.update_of_ne (fun h => same (Reader.task.inj h).symm)]
      exact gathers failure
  · obtain ⟨failure,failed,overflow⟩ := inv.gathers.running runs none_yet
    simp only [Gathers,State.setDrain,failed]
    exact overflow

theorem Gathering.drainEnds {x : Execution} (inv : Gathering script x)
    (gathering : x.state.await = .gathering) {pipe : Pipe} {reading : Reading} {left : List UInt8}
    (runs : x.state.drains (.task pipe) = .running reading) {task : Task Reading (List UInt8)}
    {ended : Gathered} (drained : Drains pipe (script.stream pipe) left task)
    (result : (∃ kept, task = .finished kept) ∧ ended = .results ∨
      ended = .failed .stdoutOverflow ∧ maxResultBytes < script.stdout.length) :
    Gathering script
      ⟨drainEnds x.state (.task pipe) task ended,Function.update x.unread pipe left⟩ := by
  have same := drainEnds_eq x.state (.task pipe) task ended
  have drains := setDrain_drains inv drained
  refine ⟨by rw [same]; exact inv.asked,by rw [same]; exact inv.interrupted,
    by rw [same]; exact inv.killed,by rw [same]; exact drains,?_⟩
  simp only [drainEnds_gathering gathering]
  refine Gathers.gather drains inv.asked (fun some_yet => ?_) ?_
  · obtain ⟨failure,failed,overflow⟩ := inv.gathers.running runs some_yet
    simp only [Gathers,State.setDrain,failed]
    exact overflow
  · rcases result with ⟨⟨kept,rfl⟩,rfl⟩ | overflow
    · refine .inl ⟨rfl,fun none_yet => ?_⟩
      have gathers := inv.gathers
      simp only [Gathers] at gathers
      rw [show x.state.gathered = none from none_yet] at gathers
      intro failure
      rw [setDrain_update]
      by_cases same : pipe = .stdout
      · subst pipe; rw [Function.update_self]; exact fun h => by cases h
      · rw [Function.update_of_ne (fun h => same (Reader.task.inj h).symm)]
        exact gathers failure
    · exact .inr overflow

theorem Gathering.setReaper {x : Execution} (inv : Gathering script x) (pipe : Pipe)
    (task : Task Reading (List UInt8)) :
    Gathering script ⟨x.state.setDrain (.reaper pipe) task,x.unread⟩ := by
  have kept (other : Pipe) : (x.state.setDrain (.reaper pipe) task).drains (.task other) =
      x.state.drains (.task other) := by
    rw [setDrain_update,Function.update_of_ne (by simp)]
  refine ⟨inv.asked,inv.interrupted,inv.killed,?_,?_⟩
  · intro other
    rw [kept]
    exact inv.drains other
  · have gathers := inv.gathers
    simp only [Gathers] at gathers ⊢
    simp only [kept]
    exact gathers

theorem Gathering.reads {x : Execution} {u : State} {unread : Pipe → List UInt8} {pipe : Pipe}
    {chunk : List UInt8} (inv : Gathering script x) (gathering : x.state.await = .gathering)
    (supplied : supply script x (.reads (.task pipe) chunk) = some unread)
    (taken : Skills.reads x.state (.task pipe) chunk = some u) :
    Gathering script ⟨u,unread⟩ := by
  obtain ⟨within,made⟩ := Option.ite_none_right_eq_some.mp supplied
  cases made
  obtain ⟨reading,runs,small,result⟩ := reads_taken taken
  have drained := inv.drains pipe
  rw [runs] at drained
  have next_drained := drained.reads small within
  rcases result with ⟨next,kept,rfl⟩ | ⟨stdout,fails,rfl⟩
  · rw [kept] at next_drained
    exact inv.setDrain runs next_drained
  · rw [fails] at next_drained
    cases stdout
    exact inv.drainEnds gathering runs next_drained (.inr ⟨rfl,next_drained.2.2⟩)

theorem Gathering.readsEof {x : Execution} {u : State} {unread : Pipe → List UInt8} {pipe : Pipe}
    (inv : Gathering script x) (gathering : x.state.await = .gathering)
    (supplied : supply script x (.readsEof (.task pipe)) = some unread)
    (taken : Skills.readsEof x.state (.task pipe) = some u) : Gathering script ⟨u,unread⟩ := by
  obtain ⟨read_all,made⟩ := Option.ite_none_right_eq_some.mp supplied
  cases made
  obtain ⟨reading,runs,rfl⟩ := readsEof_taken taken
  have drained := inv.drains pipe
  rw [runs,read_all] at drained
  have finished : Drains pipe (script.stream pipe) (x.unread pipe) (.finished reading.kept) :=
    drained.readsEof
  have next := inv.drainEnds gathering runs finished (.inl ⟨⟨_,rfl⟩,rfl⟩)
  rwa [Function.update_eq_self] at next

/-- The tasks while they are gathered. A reader of `_reap` would not disturb them. -/
theorem Gathering.step {x y : Execution} {op : Op} (inv : Gathering script x)
    (gathering : x.state.await = .gathering) (encodes : (Json.obj call.args).encodes = true)
    (taken : execute call script x op = some y) (resumed : op ≠ .resumes) :
    Gathering script y := by
  obtain ⟨supplied,stepped⟩ := execute_taken taken
  clear taken
  obtain ⟨u,unread⟩ := y
  cases op with
  | resumes => exact absurd rfl resumed
  | cancel | expires | spawnFails | feedBreaks | readBreaks => cases supplied
  | spawned =>
    have spawning := (spawned_taken stepped).1
    rw [gathering] at spawning
    cases spawning
  | feedStops =>
    have asked := (feedStops_taken stepped).1
    rw [inv.asked] at asked
    cases asked
  | readStops reader =>
    obtain ⟨_,_,asked,_⟩ := readStops_taken stepped
    rw [inv.asked] at asked
    cases asked
  | feedStarts =>
    cases supplied
    obtain ⟨_,rfl⟩ | ⟨lone,_⟩ := feedStarts_taken stepped
    · exact ⟨inv.asked,inv.interrupted,inv.killed,inv.drains,inv.gathers⟩
    · rw [encodes] at lone
      cases lone
  | feedReturns =>
    cases supplied
    obtain rfl := feedReturns_taken stepped
    exact inv.feedEnds gathering
  | reads reader chunk =>
    cases reader with
    | task pipe => exact inv.reads gathering supplied stepped
    | reaper pipe =>
      cases supplied
      obtain ⟨reading,_,_,⟨next,_,rfl⟩ | ⟨stdout,_⟩⟩ := reads_taken stepped
      · exact inv.setReaper pipe _
      · cases stdout
  | readsEof reader =>
    cases reader with
    | task pipe => exact inv.readsEof gathering supplied stepped
    | reaper pipe =>
      cases supplied
      obtain ⟨reading,_,rfl⟩ := readsEof_taken stepped
      simp only [Skills.drainEnds,setDrain_await,gathering]
      exact inv.setReaper pipe _
  | exits code =>
    obtain ⟨_,made⟩ := Option.ite_none_right_eq_some.mp supplied
    cases made
    obtain ⟨_,rfl⟩ := exits_taken stepped
    exact ⟨inv.asked,inv.interrupted,inv.killed,inv.drains,inv.gathers⟩
  | collects =>
    cases supplied
    obtain ⟨_,_,rfl⟩ := collects_taken stepped
    exact ⟨inv.asked,inv.interrupted,inv.killed,inv.drains,inv.gathers⟩
  | closes pipe =>
    cases supplied
    cases stepped
    exact ⟨inv.asked,inv.interrupted,inv.killed,inv.drains,inv.gathers⟩

theorem Kept.stdout {stream kept : List UInt8} (kept_is : Kept .stdout stream kept) :
    stream.length ≤ maxResultBytes ∧ kept = stream :=
  kept_is.resolve_right fun ⟨_,other,_⟩ => by cases other

/-- `run_skill` goes on from the first `gather`. -/
theorem Gathering.resumes {x : Execution} {u : State} (inv : Gathering script x)
    (gathering : x.state.await = .gathering) (taken : Skills.step call x.state .resumes = some u) :
    Phase call script ⟨u,x.unread⟩ := by
  obtain ⟨woken,wakes,rfl⟩ := Option.map_eq_some_iff.mp taken
  have gathers := inv.gathers
  simp only [wake,gathering,inv.interrupted] at wakes
  simp only [Gathers] at gathers
  cases gathered : x.state.gathered with
  | none => rw [gathered] at wakes; cases wakes
  | some ended =>
    rw [gathered] at wakes gathers
    cases ended with
    | cancelled => exact gathers.elim
    | results =>
      cases wakes
      simp only [resumeWith,gathering,Phase]
      refine ⟨inv.interrupted,inv.killed,fun pipe => ?_⟩
      obtain ⟨kept,done⟩ := gathers pipe
      have drained := inv.drains pipe
      rw [done] at drained
      exact ⟨kept,done,drained⟩
    | failed failure =>
      cases wakes
      obtain ⟨rfl,longer⟩ := gathers
      simp only [resumeWith,gathering,Phase,settle]
      exact ⟨rfl,rfl,longer⟩

/-- The process has been waited for, and `run_skill` comes to its end. -/
theorem Waiting.resumes {x : Execution} {u : State} (inv : Waiting script x.state)
    (exits : Exits script x.state) (waiting : x.state.await = .waiting)
    (taken : Skills.step call x.state .resumes = some u) : Phase call script ⟨u,x.unread⟩ := by
  obtain ⟨woken,wakes,rfl⟩ := Option.map_eq_some_iff.mp taken
  simp only [wake,waiting,inv.interrupted,Bool.false_eq_true,if_false,State.waited] at wakes
  cases proc : x.state.proc with
  | absent | running | exited => simp [proc] at wakes
  | collected code =>
    simp only [proc,if_true,Option.some.injEq] at wakes
    subst woken
    have own : code = script.code := by
      rcases exits with killed | own
      · rw [inv.killed] at killed; cases killed
      · exact own code (.inr proc)
    obtain ⟨out,outDone,outKept⟩ := inv.drained .stdout
    obtain ⟨err,errDone,errKept⟩ := inv.drained .stderr
    obtain ⟨short,same⟩ := outKept.stdout
    simp only [resumeWith,waiting,Phase,end_,proc,exitCode,outDone,errDone,bytes]
    refine .inr ⟨short,err,errKept,?_⟩
    rw [own,same]
    rfl

theorem Follows.resumes {x : Execution} {u : State} (inv : Follows call script x)
    (taken : Skills.step call x.state .resumes = some u) : Phase call script ⟨u,x.unread⟩ := by
  have phase := inv.phase
  simp only [Phase] at phase
  cases await : x.state.await with
  | spawning | ended => simp [Skills.step,wake,await] at taken
  | gathering => rw [await] at phase; exact phase.resumes await taken
  | waiting => rw [await] at phase; exact phase.resumes inv.exits await taken
  | settling overflow =>
    rw [await] at phase
    obtain ⟨woken,wakes,rfl⟩ := Option.map_eq_some_iff.mp taken
    simp only [wake,await,phase.interrupted] at wakes
    split at wakes <;> cases wakes
    simp only [resumeWith,await,Phase,reap]
    exact ⟨⟨phase.overflow,rfl,phase.longer⟩,rfl,.inl rfl⟩
  | draining overflow =>
    rw [await] at phase
    obtain ⟨overflowing,_,gathered⟩ := phase
    obtain ⟨woken,wakes,rfl⟩ := Option.map_eq_some_iff.mp taken
    simp only [wake,await,overflowing.interrupted] at wakes
    rcases gathered with none_yet | results
    · rw [none_yet] at wakes; cases wakes
    · rw [results] at wakes
      cases wakes
      simp only [resumeWith,await,Phase]
      exact ⟨overflowing.overflow,overflowing.interrupted,overflowing.longer⟩
  | reaping overflow =>
    rw [await] at phase
    obtain ⟨woken,wakes,rfl⟩ := Option.map_eq_some_iff.mp taken
    simp only [wake,await,phase.interrupted,Bool.false_eq_true,if_false] at wakes
    split at wakes <;> cases wakes
    simp only [resumeWith,await,Phase,end_,phase.overflow,if_true]
    exact .inl ⟨rfl,phase.longer⟩

theorem Phase.spawned {x y : Execution} (phase : Phase call script x)
    (taken : execute call script x .spawned = some y) : Phase call script y := by
  obtain ⟨supplied,stepped⟩ := execute_taken taken
  obtain ⟨spawning,started⟩ := spawned_taken stepped
  simp only [Phase,spawning] at phase
  obtain ⟨same,unread⟩ := phase
  have left : y.unread = script.stream := (Option.some.inj supplied).symm.trans unread
  rw [same] at started
  refine Gathering.phase (by rw [started]; rfl) ⟨by rw [started]; rfl,by rw [started]; rfl,
    by rw [started]; rfl,?_,?_⟩
  · intro pipe
    rw [started,left]
    exact ⟨[],rfl,rfl,.empty pipe⟩
  · simp [Gathers,started,Skills.spawned,init]

theorem resumeWith_proc (s : State) (woken : Wake) :
    (resumeWith call s woken).proc = s.proc ∧
      ((resumeWith call s woken).killed = s.killed ∨ (resumeWith call s woken).killed = true) := by
  simp only [resumeWith]
  split
  case h_3 | h_4 => split <;> exact ⟨rfl,.inl rfl⟩
  case h_7 => exact ⟨rfl,.inr rfl⟩
  all_goals exact ⟨rfl,.inl rfl⟩

theorem Exits.step {x y : Execution} {op : Op} (exits : Exits script x.state)
    (taken : execute call script x op = some y) : Exits script y.state := by
  obtain ⟨supplied,stepped⟩ := execute_taken taken
  by_cases resumed : op = .resumes
  · subst op
    obtain ⟨woken,_,same⟩ := Option.map_eq_some_iff.mp stepped
    obtain ⟨proc,killed⟩ : (resumeWith call x.state woken).proc = _ ∧ _ :=
      resumeWith_proc x.state woken
    rw [← same]
    rcases killed with killed | killed
    · exact exits.of_eq killed proc
    · exact .inl killed
  · by_cases started : op = .spawned
    · subst op
      rw [(spawned_taken stepped).2]
      refine .inr ?_
      rintro code (exited | collected)
      · cases exited
      · cases collected
    · exact (step_minor supplied stepped started resumed).exits exits

theorem Follows.step {x y : Execution} {op : Op} (inv : Follows call script x)
    (encodes : (Json.obj call.args).encodes = true)
    (taken : execute call script x op = some y) : Follows call script y := by
  refine ⟨?_,inv.exits.step taken⟩
  obtain ⟨supplied,stepped⟩ := execute_taken taken
  by_cases resumed : op = .resumes
  · subst op
    have phase := inv.resumes stepped
    rwa [Option.some.inj supplied] at phase
  by_cases started : op = .spawned
  · subst op
    exact inv.phase.spawned taken
  by_cases begun : x.state.await = .spawning
  · exact inv.phase.spawning begun taken started
  have minor := step_minor supplied stepped started resumed
  by_cases gathering : x.state.await = .gathering
  · have phase := inv.phase
    simp only [Phase,gathering] at phase
    exact Gathering.phase (minor.await.trans gathering)
      (phase.step gathering encodes taken resumed)
  · exact inv.phase.minor minor begun gathering

/-- The outcome depends on the streams, and on how much of stderr has been kept. -/
theorem gives_final {ops : List Op} {outcome : Outcome}
    (encodes : (Json.obj call.args).encodes = true) (gives : Gives call script ops outcome) :
    Final call script outcome := by
  obtain ⟨x,reached,ended⟩ := gives
  have inv : Follows call script x := run_invariant
    (fun _ _ _ inv taken => inv.step encodes taken) (Follows.initial call script) reached
  have phase := inv.phase
  simp only [Phase,ended] at phase
  exact phase

end GhostRunner.Skills
