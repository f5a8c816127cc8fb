import GhostRunner.SandboxScript

/-! Whether the outcome of `run_skill` depends on how the pipes are read. `_drain` drops the chunk
that takes stderr beyond its cap, so that what it keeps of a longer stream is up to the chunks. -/
namespace GhostRunner.Skills

open Machine

/-! ## The law -/

/-- A result, or one of the two errors that `run_skill` is documented to raise. -/
def Outcome.isHandled : Outcome → Bool
  | .result _ | .skillError _ | .executionError _ => true
  | .raised _ | .cancelled => false

/-- However the pipes are read the outcome is the same, and a result is that of a complete run. -/
structure Indifferent (call : Call) (script : Script) : Prop where
  same : ∀ {ops other outcome result}, Gives call script ops outcome →
    Gives call script other result → outcome = result
  handled : ∀ {ops outcome}, Gives call script ops outcome → outcome.isHandled = true
  complete : ∀ {ops members}, Gives call script ops (.result members) →
    script.code = 0 ∧ script.stdout.length ≤ maxResultBytes ∧
      call.runtime.loads script.stdout = .ok (.obj members)

/-- The message blames the sandbox. -/
def Call.blames (call : Call) (stderr : List UInt8) : Bool :=
  text "bwrap:" <+: (call.runtime.decodeReplace stderr).strip

/-- What the message quotes of stderr. -/
def Call.excerpt (call : Call) (stderr : List UInt8) : PyStr :=
  let detail := (call.runtime.decodeReplace stderr).strip
  if detail = [] then text "(no stderr)" else detail.take stderrExcerpt

/-- The arguments can be encoded. Where stdout is within its cap, a skill that succeeds does not
nest it too deeply, and of one that fails stderr is within its cap too, or looks the same from
whatever length of it is kept. -/
def Steady (call : Call) (script : Script) : Prop :=
  (Json.obj call.args).encodes = true ∧ (script.stdout.length ≤ maxResultBytes →
    (script.code = 0 → ∀ message,
      call.runtime.loads script.stdout ≠ .error (.recursionError message)) ∧
    (script.code ≠ 0 → script.stderr.length ≤ stderrCap ∨ ∀ k, 0 < k → k ≤ stderrCap →
      call.blames (script.stderr.take k) = call.blames (script.stderr.take stderrCap) ∧
      call.excerpt (script.stderr.take k) = call.excerpt (script.stderr.take stderrCap)))

variable {call : Call} {script : Script}

/-! ## Messages -/

theorem conclude_failed {code : Int} (failed : code ≠ 0) (stdout stderr : List UInt8) :
    call.conclude code stdout stderr =
      if call.blames stderr then
        .skillError (text ("sandbox failed for skill " ++ call.skill.name ++ ": ") ++
          call.excerpt stderr)
      else
        .executionError (text ("skill " ++ call.skill.name ++ " exited " ++ toString code ++ ": ")
          ++ call.excerpt stderr) := by
  simp only [Call.conclude,failed,ne_eq,not_false_eq_true,if_true,Call.blames,Call.excerpt]
  by_cases blamed : text "bwrap:" <+: (call.runtime.decodeReplace stderr).strip
  · have some_detail : (call.runtime.decodeReplace stderr).strip ≠ [] := by
      intro empty
      rw [empty] at blamed
      exact absurd (List.prefix_nil.mp blamed) (by decide)
    simp [blamed,some_detail]
  · simp [blamed]

theorem conclude_eq_iff {code : Int} (failed : code ≠ 0) (stdout first second : List UInt8) :
    call.conclude code stdout first = call.conclude code stdout second ↔
      call.blames first = call.blames second ∧ call.excerpt first = call.excerpt second := by
  rw [conclude_failed failed,conclude_failed failed]
  cases call.blames first <;> cases call.blames second <;> simp

/-! ## Runs for given chunks -/

/-- Both pipes are being read, and the input has been taken. -/
def reading (tasks : Pipe → Task Reading (List UInt8)) : State where
  await := .gathering
  proc := .running
  killed := false
  eof := fun _ => false
  feed := .finished ()
  drains
    | .task pipe => tasks pipe
    | .reaper _ => .absent
  gathered := none
  asked := false
  interrupted := false
  expired := false
  cancelled := false

/-- `_drain` reads a chunk and does not fail. -/
def absorb (pipe : Pipe) (r : Reading) (chunk : List UInt8) : Reading :=
  let total := r.total + chunk.length
  if total ≤ (Reader.task pipe).cap then ⟨r.kept ++ chunk,total⟩ else ⟨r.kept,total⟩

theorem absorb_total (pipe : Pipe) (r : Reading) (chunk : List UInt8) :
    (absorb pipe r chunk).total = r.total + chunk.length := by
  simp only [absorb]
  split <;> rfl

theorem read_absorb {pipe : Pipe} {r : Reading} {chunk : List UInt8}
    (fits : pipe = .stdout → r.total + chunk.length ≤ maxResultBytes) :
    (Reader.task pipe).read r chunk = .running (absorb pipe r chunk) := by
  simp only [Reader.read,absorb]
  split
  · rfl
  · next exceeds =>
    cases pipe with
    | stdout => exact absurd (fits rfl) exceeds
    | stderr => rfl

theorem reading_setDrain (tasks : Pipe → Task Reading (List UInt8)) (pipe : Pipe)
    (task : Task Reading (List UInt8)) :
    (reading tasks).setDrain (.task pipe) task = reading (Function.update tasks pipe task) := by
  have drains : Function.update (reading tasks).drains (.task pipe) task =
      (reading (Function.update tasks pipe task)).drains := by
    funext reader
    cases reader with
    | task other => simp [reading,Function.update_apply]
    | reaper other => rfl
  simp only [State.setDrain,drains]
  rfl

theorem execute_read {tasks : Pipe → Task Reading (List UInt8)} {unread : Pipe → List UInt8}
    {pipe : Pipe} {r : Reading} {chunk rest : List UInt8} (runs : tasks pipe = .running r)
    (left : unread pipe = chunk ++ rest) (valid : chunk ≠ [] ∧ chunk.length ≤ readChunk)
    (fits : pipe = .stdout → r.total + chunk.length ≤ maxResultBytes) :
    execute call script ⟨reading tasks,unread⟩ (.reads (.task pipe) chunk) =
      some ⟨reading (Function.update tasks pipe (.running (absorb pipe r chunk))),
        Function.update unread pipe rest⟩ := by
  have supplied : supply script ⟨reading tasks,unread⟩ (.reads (.task pipe) chunk) =
      some (Function.update unread pipe rest) := by
    simp [supply,left]
  have stepped : step call (reading tasks) (.reads (.task pipe) chunk) =
      some (reading (Function.update tasks pipe (.running (absorb pipe r chunk)))) := by
    have runs : (reading tasks).drains (.task pipe) = .running r := runs
    simp only [step,reads,runs,if_pos valid,read_absorb fits,reading_setDrain]
  simp [execute,supplied,stepped]

/-- The stream of a pipe is read in the given chunks. -/
theorem run_reads (pipe : Pipe) {chunks : List (List UInt8)} {rest : List UInt8}
    (valid : ∀ chunk ∈ chunks, chunk ≠ [] ∧ chunk.length ≤ readChunk)
    {tasks : Pipe → Task Reading (List UInt8)} {unread : Pipe → List UInt8} {r : Reading}
    (runs : tasks pipe = .running r) (left : unread pipe = chunks.flatten ++ rest)
    (fits : pipe = .stdout → r.total + chunks.flatten.length ≤ maxResultBytes) :
    run (execute call script) ⟨reading tasks,unread⟩ (chunks.map (.reads (.task pipe))) =
      some ⟨reading (Function.update tasks pipe (.running (chunks.foldl (absorb pipe) r))),
        Function.update unread pipe rest⟩ := by
  induction chunks generalizing tasks unread r with
  | nil =>
    have same : unread pipe = rest := left
    simp [run,← runs,← same]
  | cons chunk chunks ih =>
    obtain ⟨first,others⟩ := List.forall_mem_cons.mp valid
    rw [List.flatten_cons,List.append_assoc] at left
    have room (stdout : pipe = .stdout) :
        r.total + chunk.length + chunks.flatten.length ≤ maxResultBytes := by
      have all := fits stdout
      rw [List.flatten_cons,List.length_append] at all
      omega
    have read : execute call script ⟨reading tasks,unread⟩ (.reads (.task pipe) chunk) = some _ :=
      execute_read runs left first fun stdout => by have all := room stdout; omega
    refine run_cons_iff.mpr ⟨_,read,?_⟩
    rw [ih others (Function.update_self ..) (Function.update_self ..)
      fun stdout => by rw [absorb_total]; exact room stdout]
    simp

/-- The labels of a run that reads both streams in the given chunks, and then ends. -/
def wholeRun (script : Script) (outs errs : List (List UInt8)) : List Op :=
  [.spawned,.feedStarts,.feedReturns] ++ (outs.map (.reads (.task .stdout)) ++
    (errs.map (.reads (.task .stderr)) ++
      [.closes .stdout,.closes .stderr,.readsEof (.task .stdout),.readsEof (.task .stderr),
        .resumes,.exits script.code,.collects,.resumes]))

theorem run_starts (encodes : (Json.obj call.args).encodes = true) :
    run (execute call script) ⟨init,script.stream⟩ [.spawned,.feedStarts,.feedReturns] =
      some ⟨reading fun _ => .running {},script.stream⟩ := by
  have fed : feedStarts call (spawned init) =
      some { spawned init with feed := .running .draining } :=
    if_pos (by rw [Json.written_encodes]; exact encodes)
  have starts : execute call script ⟨spawned init,script.stream⟩ .feedStarts =
      some ⟨{ spawned init with feed := .running .draining },script.stream⟩ :=
    congrArg (Option.map fun s => Execution.mk s script.stream) fed
  exact run_cons_iff.mpr ⟨_,rfl,run_cons_iff.mpr ⟨_,starts,rfl⟩⟩

theorem run_ends {out err : Reading} {unread : Pipe → List UInt8}
    {tasks : Pipe → Task Reading (List UInt8)} (outRuns : tasks .stdout = .running out)
    (errRuns : tasks .stderr = .running err) (outRead : unread .stdout = [])
    (errRead : unread .stderr = []) :
    ∃ x, run (execute call script) ⟨reading tasks,unread⟩
      [.closes .stdout,.closes .stderr,.readsEof (.task .stdout),.readsEof (.task .stderr),
        .resumes,.exits script.code,.collects,.resumes] = some x ∧
      x.state.await = .ended (call.conclude script.code out.kept err.kept) := by
  simp [run,execute,supply,step,readsEof,reading,outRuns,errRuns,outRead,errRead,drainEnds,gather,
    State.setDrain,State.tasksEnded,Task.isEnded,Reader.pipe,wake,resumeWith,State.waited,end_,
    exitCode,bytes]

/-- Any chunks of stdout and of stderr make a run, as long as stdout is within its cap. -/
theorem gives_wholeRun {outs errs : List (List UInt8)}
    (encodes : (Json.obj call.args).encodes = true)
    (outsValid : ∀ chunk ∈ outs, chunk ≠ [] ∧ chunk.length ≤ readChunk)
    (errsValid : ∀ chunk ∈ errs, chunk ≠ [] ∧ chunk.length ≤ readChunk)
    (outsMake : outs.flatten = script.stdout) (errsMake : errs.flatten = script.stderr)
    (short : script.stdout.length ≤ maxResultBytes) :
    Gives call script (wholeRun script outs errs) (call.conclude script.code
      (outs.foldl (absorb .stdout) {}).kept (errs.foldl (absorb .stderr) {}).kept) := by
  have fits : (0 : Nat) + outs.flatten.length ≤ maxResultBytes := by rw [outsMake]; omega
  let out := outs.foldl (absorb .stdout) {}
  let err := errs.foldl (absorb .stderr) {}
  let outEnds : Pipe → Task Reading (List UInt8) :=
    Function.update (fun _ => .running {}) .stdout (.running out)
  let bothEnd := Function.update outEnds .stderr (.running err)
  have outsRead : run (execute call script) ⟨reading fun _ => .running {},script.stream⟩
      (outs.map (.reads (.task .stdout))) =
      some ⟨reading outEnds,Function.update script.stream .stdout []⟩ :=
    run_reads .stdout outsValid rfl (by rw [outsMake,List.append_nil]; rfl) fun _ => fits
  have errsRead : run (execute call script)
      ⟨reading outEnds,Function.update script.stream .stdout []⟩
      (errs.map (.reads (.task .stderr))) =
      some ⟨reading bothEnd,
        Function.update (Function.update script.stream .stdout []) .stderr []⟩ :=
    run_reads .stderr errsValid rfl (by rw [errsMake,List.append_nil]; rfl)
      fun other => by cases other
  obtain ⟨x,ends,ended⟩ := @run_ends call script out err
    (Function.update (Function.update script.stream .stdout []) .stderr []) bothEnd rfl rfl rfl rfl
  refine ⟨x,?_,ended⟩
  rw [wholeRun,run_append (run_starts encodes),run_append outsRead,run_append errsRead]
  exact ends

/-! ## Two ways to cut a stream -/

/-- One byte at a time. -/
def bytewise (stream : List UInt8) : List (List UInt8) := stream.map fun byte => [byte]

theorem bytewise_flatten (stream : List UInt8) : (bytewise stream).flatten = stream := by
  induction stream with
  | nil => rfl
  | cons byte rest ih => simpa [bytewise] using ih

theorem bytewise_valid (stream : List UInt8) :
    ∀ chunk ∈ bytewise stream, chunk ≠ [] ∧ chunk.length ≤ readChunk := by
  intro chunk member
  obtain ⟨byte,_,rfl⟩ := List.mem_map.mp member
  exact ⟨by simp,(by decide : 1 ≤ readChunk)⟩

/-- A stream that stays within the cap is kept whole. -/
theorem absorb_within {pipe : Pipe} {chunks : List (List UInt8)} {r : Reading}
    (fits : r.total + chunks.flatten.length ≤ (Reader.task pipe).cap) :
    (chunks.foldl (absorb pipe) r).kept = r.kept ++ chunks.flatten := by
  induction chunks generalizing r with
  | nil => simp
  | cons chunk chunks ih =>
    rw [List.flatten_cons,List.length_append] at fits
    have room : r.total + chunk.length ≤ (Reader.task pipe).cap := by omega
    rw [List.foldl_cons,ih (by rw [absorb_total]; omega)]
    simp [absorb,room]

theorem absorb_whole {chunks : List (List UInt8)} {stream : List UInt8} (pipe : Pipe)
    (make : chunks.flatten = stream) (fits : stream.length ≤ (Reader.task pipe).cap) :
    (chunks.foldl (absorb pipe) {}).kept = stream := by
  rw [absorb_within (by rw [make]; simpa using fits),make]
  rfl

/-- Nothing more is kept once the cap has been passed. -/
theorem absorb_beyond {pipe : Pipe} {chunks : List (List UInt8)} {r : Reading}
    (beyond : (Reader.task pipe).cap < r.total) :
    (chunks.foldl (absorb pipe) r).kept = r.kept := by
  induction chunks generalizing r with
  | nil => rfl
  | cons chunk chunks ih =>
    have full : ¬r.total + chunk.length ≤ (Reader.task pipe).cap := by omega
    rw [List.foldl_cons,ih (by rw [absorb_total]; omega)]
    simp [absorb,full]

/-- The first chunk has the given length, and the second takes the stream beyond the cap. -/
def splitAfter (k : Nat) (stream : List UInt8) : List (List UInt8) :=
  stream.take k :: (stream.drop k).take readChunk :: bytewise (stream.drop (k + readChunk))

theorem splitAfter_flatten (k : Nat) (stream : List UInt8) :
    (splitAfter k stream).flatten = stream := by
  rw [splitAfter,List.flatten_cons,List.flatten_cons,bytewise_flatten,← List.drop_drop,
    List.take_append_drop,List.take_append_drop]

section

variable {k : Nat} {stream : List UInt8} (positive : 0 < k) (capped : k ≤ stderrCap)
    (longer : stderrCap < stream.length)
include positive capped longer

theorem splitAfter_valid :
    ∀ chunk ∈ splitAfter k stream, chunk ≠ [] ∧ chunk.length ≤ readChunk := by
  have same : readChunk = stderrCap := rfl
  intro chunk member
  rcases List.mem_cons.mp member with rfl | member
  · refine ⟨List.ne_nil_of_length_pos ?_,?_⟩ <;> rw [List.length_take] <;> omega
  rcases List.mem_cons.mp member with rfl | member
  · have one : 0 < readChunk := by decide
    refine ⟨List.ne_nil_of_length_pos ?_,?_⟩ <;>
      rw [List.length_take,List.length_drop] <;> omega
  · exact bytewise_valid _ chunk member

theorem splitAfter_kept :
    ((splitAfter k stream).foldl (absorb .stderr) {}).kept = stream.take k := by
  have same : readChunk = stderrCap := rfl
  have first : absorb .stderr {} (stream.take k) = ⟨stream.take k,k⟩ := by
    have length : (stream.take k).length = k := by rw [List.length_take]; omega
    simp [absorb,length,Reader.cap,capped]
  have crosses : stderrCap < k + ((stream.drop k).take readChunk).length := by
    rw [List.length_take,List.length_drop]
    omega
  have second : absorb .stderr ⟨stream.take k,k⟩ ((stream.drop k).take readChunk) =
      ⟨stream.take k,k + ((stream.drop k).take readChunk).length⟩ := by
    exact if_neg (Nat.not_le_of_lt crosses)
  rw [splitAfter,List.foldl_cons,List.foldl_cons,first,second]
  have full : (Reader.task .stderr).cap < k + ((stream.drop k).take readChunk).length := crosses
  exact absorb_beyond full

end

/-! ## When the law holds -/

theorem conclude_handled {code : Int} {stdout : List UInt8} (stderr : List UInt8)
    (nested : code = 0 → ∀ message, call.runtime.loads stdout ≠ .error (.recursionError message)) :
    (call.conclude code stdout stderr).isHandled = true := by
  by_cases succeeded : code = 0
  · have shallow := nested succeeded
    simp only [Call.conclude,succeeded,ne_eq,not_true_eq_false,if_false]
    split
    · rfl
    · rfl
    · next message deep => exact absurd deep (shallow message)
    · rfl
    · rfl
  · rw [conclude_failed succeeded]
    split <;> rfl

theorem conclude_result {code : Int} {stdout stderr : List UInt8} {members : List (PyStr × Json)}
    (result : call.conclude code stdout stderr = .result members) :
    code = 0 ∧ call.runtime.loads stdout = .ok (.obj members) := by
  by_cases succeeded : code = 0
  · simp only [Call.conclude,succeeded,ne_eq,not_true_eq_false,if_false] at result
    split at result <;> cases result
    next parsed => exact ⟨succeeded,parsed⟩
  · rw [conclude_failed succeeded] at result
    split at result <;> cases result

theorem Steady.same {first second : List UInt8} (steady : Steady call script)
    (short : script.stdout.length ≤ maxResultBytes) (kept : Kept .stderr script.stderr first)
    (also : Kept .stderr script.stderr second) :
    call.conclude script.code script.stdout first =
      call.conclude script.code script.stdout second := by
  by_cases succeeded : script.code = 0
  · -- On success stderr is not looked at.
    rw [succeeded]
    rfl
  · rw [conclude_eq_iff succeeded]
    rcases kept with ⟨fits,rfl⟩ | ⟨longer,_,k,positive,capped,rfl⟩
    · rcases also with ⟨_,rfl⟩ | ⟨longer,_⟩
      · exact ⟨rfl,rfl⟩
      · omega
    · rcases also with ⟨fits,_⟩ | ⟨_,_,j,later,within,rfl⟩
      · omega
      · have alike := ((steady.2 short).2 succeeded).resolve_left (Nat.not_le_of_lt longer)
        have left := alike k positive capped
        have right := alike j later within
        exact ⟨left.1.trans right.1.symm,left.2.trans right.2.symm⟩

theorem Steady.indifferent (steady : Steady call script) : Indifferent call script := by
  constructor
  · intro ops other outcome result gives also
    rcases gives_final steady.1 gives with ⟨rfl,longer⟩ | ⟨short,kept,all,rfl⟩
    · rcases gives_final steady.1 also with ⟨rfl,_⟩ | ⟨short,_⟩
      · rfl
      · omega
    · rcases gives_final steady.1 also with ⟨_,longer⟩ | ⟨_,other,all',rfl⟩
      · omega
      · exact steady.same short all all'
  · intro ops outcome gives
    rcases gives_final steady.1 gives with ⟨rfl,_⟩ | ⟨short,kept,_,rfl⟩
    · rfl
    · exact conclude_handled kept (steady.2 short).1
  · intro ops members gives
    rcases gives_final steady.1 gives with ⟨capped,_⟩ | ⟨short,kept,_,result⟩
    · cases capped
    · obtain ⟨succeeded,parsed⟩ := conclude_result result.symm
      exact ⟨succeeded,short,parsed⟩

/-- `feed_stdin` fails, and so does `run_skill`. -/
theorem gives_unencodable (lone : (Json.obj call.args).encodes = false) :
    Gives call script [.spawned,.feedStarts,.resumes] (.raised .unicodeEncode) := by
  simp [Gives,run,execute,supply,step,init,spawned,feedStarts,lone,feedEnds,gather,wake,resumeWith,
    end_]

section

variable (encodes : (Json.obj call.args).encodes = true)
    (short : script.stdout.length ≤ maxResultBytes)
include encodes short

theorem gives_bytewise (fits : script.stderr.length ≤ stderrCap) : ∃ ops,
    Gives call script ops (call.conclude script.code script.stdout script.stderr) := by
  have gives := gives_wholeRun encodes (bytewise_valid script.stdout)
    (bytewise_valid script.stderr) (bytewise_flatten _) (bytewise_flatten _) short
  rw [absorb_whole .stdout (bytewise_flatten _) short,
    absorb_whole .stderr (bytewise_flatten _) fits] at gives
  exact ⟨_,gives⟩

/-- What is kept of a long stderr can have any length. -/
theorem gives_splitAfter {k : Nat} (longer : stderrCap < script.stderr.length)
    (positive : 0 < k) (capped : k ≤ stderrCap) : ∃ ops,
    Gives call script ops (call.conclude script.code script.stdout (script.stderr.take k)) := by
  have gives := gives_wholeRun encodes (bytewise_valid script.stdout)
    (splitAfter_valid positive capped longer) (bytewise_flatten _) (splitAfter_flatten k _) short
  rw [absorb_whole .stdout (bytewise_flatten _) short,
    splitAfter_kept positive capped longer] at gives
  exact ⟨_,gives⟩

/-- Some run comes to its end. -/
theorem gives_some : ∃ ops kept,
    Gives call script ops (call.conclude script.code script.stdout kept) := by
  by_cases fits : script.stderr.length ≤ stderrCap
  · obtain ⟨ops,gives⟩ := gives_bytewise encodes short fits
    exact ⟨ops,_,gives⟩
  · obtain ⟨ops,gives⟩ := gives_splitAfter encodes short (Nat.lt_of_not_le fits)
      (Nat.zero_lt_one) (by decide)
    exact ⟨ops,_,gives⟩

end

theorem Indifferent.steady (law : Indifferent call script) : Steady call script := by
  have encodes : (Json.obj call.args).encodes = true := by
    by_contra lone
    have handled := law.handled (gives_unencodable (Bool.eq_false_iff.mpr lone))
    cases handled
  refine ⟨encodes,fun short => ⟨?_,?_⟩⟩
  · intro succeeded message deep
    obtain ⟨ops,kept,gives⟩ := gives_some encodes short
    have handled := law.handled gives
    simp only [Call.conclude,succeeded,ne_eq,not_true_eq_false,if_false,deep] at handled
    cases handled
  · intro failed
    by_cases fits : script.stderr.length ≤ stderrCap
    · exact .inl fits
    · have longer := Nat.lt_of_not_le fits
      refine .inr fun k positive capped => ?_
      obtain ⟨ops,gives⟩ := gives_splitAfter encodes short longer positive capped
      obtain ⟨other,also⟩ := gives_splitAfter encodes short longer (by decide) (le_refl stderrCap)
      exact (conclude_eq_iff failed script.stdout _ _).1 (law.same gives also)

/-- The outcome is independent of the reads exactly for these calls and scripts. -/
theorem indifferent_iff (call : Call) (script : Script) :
    Indifferent call script ↔ Steady call script :=
  ⟨Indifferent.steady,Steady.indifferent⟩

/-- A skill that fails, with more on stderr than is kept. -/
def floodScript : Script where
  stdout := []
  stderr := [0x62,0x77,0x72,0x61,0x70,0x3a] ++ List.replicate stderrCap 0x2e
  code := 1

/-- A call without arguments, on a runtime that reads ASCII. -/
def floodCall : Call where
  runtime := ⟨fun _ => .error (.jsonDecodeError "Expecting value: line 1 column 1 (char 0)"),
    fun bytes => bytes.map fun byte =>
      if byte < 0x80 then (Char.ofNat byte.toNat).codePoint else 0xfffd⟩
  skill := ⟨"echo","5.0"⟩
  args := []

/-- One byte of stderr is kept in the first run, and in the second the six of "bwrap:". -/
theorem flood_differs :
    (∃ ops message, Gives floodCall floodScript ops (.executionError message)) ∧
      (∃ ops message, Gives floodCall floodScript ops (.skillError message)) ∧
      ¬Indifferent floodCall floodScript := by
  have encodes : (Json.obj floodCall.args).encodes = true := rfl
  have short : floodScript.stdout.length ≤ maxResultBytes := Nat.zero_le _
  have failed : floodScript.code ≠ 0 := by decide
  have longer : stderrCap < floodScript.stderr.length := by
    rw [floodScript,List.length_append,List.length_replicate]
    exact Nat.lt_add_of_pos_left (by decide)
  obtain ⟨ops,gives⟩ := gives_splitAfter encodes short longer (k := 1) (by decide) (by decide)
  obtain ⟨other,also⟩ := gives_splitAfter encodes short longer (k := 6) (by decide) (by decide)
  have one : floodScript.stderr.take 1 = [0x62] := rfl
  have six : floodScript.stderr.take 6 = [0x62,0x77,0x72,0x61,0x70,0x3a] := rfl
  rw [one,conclude_failed failed,if_neg (by decide)] at gives
  rw [six,conclude_failed failed,if_pos (by decide)] at also
  exact ⟨⟨ops,_,gives⟩,⟨other,_,also⟩,fun law => by cases law.same gives also⟩

end GhostRunner.Skills
