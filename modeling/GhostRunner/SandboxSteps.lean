import GhostRunner.Sandbox

/-! What the steps of the pipe tasks and of the process do. -/
namespace GhostRunner.Skills

/-! ## Tasks that end -/

theorem gather_eq (s : State) (all : Bool) (ended : Gathered) :
    gather s all ended = { s with gathered := (gather s all ended).gathered } := by
  simp only [gather]
  split
  · rfl
  · split
    · split <;> rfl
    · rfl

theorem gather_gathered (s : State) (all : Bool) {ended : Gathered} (asked : s.asked = false)
    (fine : ended ≠ .cancelled) :
    (gather s all ended).gathered = s.gathered ∧ (s.gathered ≠ none ∨ ended = .results) ∨
      s.gathered = none ∧ (gather s all ended).gathered = some ended ∧
        (ended = .results → all = true) := by
  simp only [gather]
  split
  · next some_yet =>
    refine .inl ⟨rfl,.inl fun none_yet => ?_⟩
    rw [none_yet] at some_yet
    cases some_yet
  · next pending =>
    have none_yet : s.gathered = none := by simpa using pending
    cases ended with
    | results =>
      cases all
      · exact .inl ⟨rfl,.inr rfl⟩
      · exact .inr ⟨none_yet,by simp [asked],fun _ => rfl⟩
    | failed failure => exact .inr ⟨none_yet,rfl,fun same => by cases same⟩
    | cancelled => exact absurd rfl fine

@[simp] theorem setDrain_await (s : State) (reader : Reader)
    (task : Task Reading (List UInt8)) : (s.setDrain reader task).await = s.await := rfl

@[simp] theorem setDrain_update (s : State) (reader : Reader)
    (task : Task Reading (List UInt8)) :
    (s.setDrain reader task).drains = Function.update s.drains reader task := rfl

theorem feedEnds_eq (s : State) (task : Task Feeding Unit) (ended : Gathered) :
    feedEnds s task ended =
      { s with feed := task, gathered := (feedEnds s task ended).gathered } := by
  simp only [feedEnds]
  split
  · exact gather_eq ..
  · rfl

theorem drainEnds_eq (s : State) (reader : Reader) (task : Task Reading (List UInt8))
    (ended : Gathered) : drainEnds s reader task ended =
      { s.setDrain reader task with gathered := (drainEnds s reader task ended).gathered } := by
  simp only [drainEnds]
  split
  · exact gather_eq ..
  · exact gather_eq ..
  · rfl

/-- Only stdout can overflow. -/
theorem read_cases (reader : Reader) (reading : Reading) (chunk : List UInt8) :
    (∃ next, reader.read reading chunk = .running next) ∨
      reader = .task .stdout ∧ reader.read reading chunk = .failed .stdoutOverflow := by
  simp only [Reader.read]
  split
  · exact .inl ⟨_,rfl⟩
  · split
    · exact .inl ⟨_,rfl⟩
    · next keeps =>
      cases reader with
      | reaper pipe => exact absurd rfl keeps
      | task pipe =>
        cases pipe with
        | stdout => exact .inr ⟨rfl,rfl⟩
        | stderr => exact absurd rfl keeps

/-! ## What a step that was taken tells -/

variable {call : Call} {s u : State}

theorem spawned_taken (taken : step call s .spawned = some u) :
    s.await = .spawning ∧ u = spawned s := by
  simp only [step] at taken
  split at taken <;> cases taken
  next spawning => exact ⟨spawning,rfl⟩

theorem spawnFails_taken {text : String} (taken : step call s (.spawnFails text) = some u) :
    s.await = .spawning ∧ ∃ outcome, u = end_ s outcome := by
  simp only [step] at taken
  split at taken <;> cases taken
  next spawning => exact ⟨spawning,_,rfl⟩

theorem cancel_taken (taken : cancel s = some u) : u = interrupt { s with cancelled := true } := by
  simp only [cancel] at taken
  split at taken <;> cases taken
  rfl

theorem expires_taken (taken : expires s = some u) :
    u = interrupt { s with expired := true } := by
  simp only [expires] at taken
  split at taken
  case h_5 => cases taken
  all_goals
    split at taken <;> cases taken
    rfl

theorem feedStarts_taken (taken : feedStarts call s = some u) :
    (Json.obj call.args).encodes = true ∧ u = { s with feed := .running .draining } ∨
      (Json.obj call.args).encodes = false ∧
        u = feedEnds s (.failed .unicodeEncode) (.failed .unicodeEncode) := by
  simp only [feedStarts,Json.written_encodes] at taken
  split at taken
  · split at taken <;> cases taken
    · next encodes => exact .inl ⟨encodes,rfl⟩
    · next lone => exact .inr ⟨by simpa using lone,rfl⟩
  · cases taken

theorem feedReturns_taken (taken : feedReturns s = some u) :
    u = feedEnds s (.finished ()) .results := by
  simp only [feedReturns] at taken
  split at taken <;> cases taken
  rfl

theorem feedBreaks_taken {text : String} (taken : feedBreaks s text = some u) :
    u = feedEnds s (.failed (.foreign text)) (.failed (.foreign text)) := by
  simp only [feedBreaks] at taken
  split at taken <;> cases taken
  rfl

theorem feedStops_taken (taken : feedStops s = some u) :
    s.asked = true ∧ u = feedEnds s .cancelled .cancelled := by
  simp only [feedStops] at taken
  split at taken
  · split at taken <;> cases taken
    next asked => exact ⟨asked,rfl⟩
  · cases taken

theorem reads_taken {reader : Reader} {chunk : List UInt8}
    (taken : reads s reader chunk = some u) : ∃ reading,
      s.drains reader = .running reading ∧ chunk.length ≤ readChunk ∧
        ((∃ next, reader.read reading chunk = .running next ∧
            u = s.setDrain reader (.running next)) ∨
          reader = .task .stdout ∧ reader.read reading chunk = .failed .stdoutOverflow ∧
            u = drainEnds s reader (.failed .stdoutOverflow) (.failed .stdoutOverflow)) := by
  simp only [reads] at taken
  split at taken
  · next reading runs =>
    split at taken
    · next small =>
      refine ⟨reading,runs,small.2,?_⟩
      rcases read_cases reader reading chunk with ⟨next,kept⟩ | ⟨stdout,fails⟩
      · rw [kept] at taken
        exact .inl ⟨next,kept,(Option.some.inj taken).symm⟩
      · rw [fails] at taken
        exact .inr ⟨stdout,fails,(Option.some.inj taken).symm⟩
    · cases taken
  · cases taken

theorem readsEof_taken {reader : Reader} (taken : readsEof s reader = some u) :
    ∃ reading, s.drains reader = .running reading ∧
      u = drainEnds s reader (.finished reading.kept) .results := by
  simp only [readsEof] at taken
  split at taken
  · next reading runs =>
    split at taken <;> cases taken
    exact ⟨reading,runs,rfl⟩
  · cases taken

theorem readBreaks_taken {reader : Reader} {text : String}
    (taken : readBreaks s reader text = some u) :
    u = drainEnds s reader (.failed (.foreign text)) (.failed (.foreign text)) := by
  simp only [readBreaks] at taken
  split at taken <;> cases taken
  rfl

theorem readStops_taken {reader : Reader} (taken : readStops s reader = some u) :
    ∃ reading, s.drains reader = .running reading ∧ s.asked = true ∧
      u = drainEnds s reader .cancelled .cancelled := by
  simp only [readStops] at taken
  split at taken
  · next reading runs =>
    split at taken <;> cases taken
    next asked => exact ⟨reading,runs,asked,rfl⟩
  · cases taken

theorem exits_taken {code : Int} (taken : step call s (.exits code) = some u) :
    s.proc = .running ∧ u = { s with proc := .exited code } := by
  obtain ⟨running,made⟩ := Option.ite_none_right_eq_some.mp taken
  exact ⟨running,(Option.some.inj made).symm⟩

theorem collects_taken (taken : step call s .collects = some u) :
    ∃ code, s.proc = .exited code ∧ u = { s with proc := .collected code } := by
  simp only [step] at taken
  split at taken <;> cases taken
  next code exited => exact ⟨code,exited,rfl⟩

end GhostRunner.Skills
