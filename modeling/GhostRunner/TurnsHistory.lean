import Mathlib.Data.List.Range
import GhostRunner.OrchestratorFinal
import GhostRunner.OrchestratorLog

/-! The history of a turn, as it is broadcast and as it is stored. `finish_turn` overwrites
whatever status a row has; that it meets an active row only is due to `cancel` and `finish`,
which look at the current turn and let go of it before their first await. -/
namespace GhostRunner.Orchestrator

open Machine

/-- The turn event of an envelope: its turn, the event and the reason. -/
def turnEvent : Payload × Option Nat → Option (Nat × TurnEvent × Option String)
  | (.turn event _ _ reason, some t) => some (t,event,reason)
  | _ => none

def turnEvents (s : State) : List (Nat × TurnEvent × Option String) :=
  s.handed.filterMap fun env => turnEvent env.content

def eventsOf (s : State) (t : Nat) : List (TurnEvent × Option String) :=
  (turnEvents s).filterMap fun e => if e.1 = t then some e.2 else none

/-- The event that reports the status of a row. -/
def Row.report (row : Row) : List (TurnEvent × Option String) :=
  match row.status with
  | .active => []
  | .cancelled => [(.cancelled,row.reason)]
  | .done => [(.done,none)]
  | .error => [(.done,some "error")]

/-- Every turn of this process has been issued once, and what has been broadcast about it is
its start and then what its row says. Nothing is broadcast about other turns. -/
structure History (s : State) : Prop where
  issued : (turnEvents s).filterMap (fun e => if e.2.1 = .started then some e.1 else none) =
    List.range' (s.base + 1) (s.store.counter - s.base)
  events : ∀ t, s.base < t → t ≤ s.store.counter →
    ∃ row, s.store.rows t = some row ∧ eventsOf s t = (.started,none) :: row.report
  other : ∀ t, ¬(s.base < t ∧ t ≤ s.store.counter) → eventsOf s t = []

/-! ## What one step reports -/

theorem turnEvents_hand {s u : State} {env : Envelope} (handed : u.handed = s.handed ++ [env]) :
    turnEvents u = turnEvents s ++ (turnEvent env.content).toList := by
  cases event : turnEvent env.content <;> simp [turnEvents,handed,event]

theorem turnEvents_silent {s u : State} {env : Envelope} (handed : u.handed = s.handed ++ [env])
    (silent : turnEvent env.content = none) : turnEvents u = turnEvents s := by
  rw [turnEvents_hand handed,silent]
  simp

theorem turnEvents_eq {s u : State} (handed : u.handed = s.handed) :
    turnEvents u = turnEvents s := by
  simp only [turnEvents,handed]

/-- The current turn is ended with a status and a reason, or a new one is recorded, and either
is reported; or neither happens. -/
inductive Reports (s u : State) : Prop where
  | nothing (keeps : Keeps s u) (events : turnEvents u = turnEvents s)
  | ends (t : Nat) (status : Status) (reason : Option String) (closes : Closes s u t status)
      (rows : u.store.rows = (s.store.finishTurn t status reason).rows)
      (events : ∀ row : Row, turnEvents u = turnEvents s ++
        ({ row with status := status, reason := reason } : Row).report.map (t,·))
  | begins (owner : Nat) (records : Records s u owner)
      (events : turnEvents u = turnEvents s ++ [(u.store.counter,.started,none)])

theorem Reports.quiet {s u : State} (keeps : Keeps s u) (handed : u.handed = s.handed) :
    Reports s u := .nothing keeps (turnEvents_eq handed)

/-- A step reports what it reports after something that reports nothing. -/
theorem Reports.after {s u v : State} (keeps : Keeps s u) (events : turnEvents u = turnEvents s)
    (reports : Reports u v) : Reports s v := by
  cases reports with
  | nothing keeps' events' => exact .nothing (keeps.trans keeps') (events'.trans events)
  | ends t status reason closes rows events' =>
    refine .ends t status reason ⟨keeps.current.symm.trans closes.was,closes.terminal,
      closes.base.trans keeps.base,closes.current,⟨reason,?_⟩,closes.counter.trans keeps.counter⟩
      ?_ fun row => ?_
    · rw [rows]; simp only [Store.finishTurn,keeps.rows]
    · rw [rows]; simp only [Store.finishTurn,keeps.rows]
    · rw [events' row,events]
  | begins owner records events' =>
    refine .begins owner ⟨records.base.trans keeps.base,records.current,?_,?_,records.turns⟩ ?_
    · rw [records.rows,keeps.rows]
    · rw [records.counter,keeps.counter]
    · rw [events',events]

theorem handle_events (s : State) (t : Nat) (failure : Option String) :
    turnEvents (handle s t failure) = turnEvents s := by
  simp only [handle]
  split
  · rfl
  · rfl
  · cases failure with
    | none => rfl
    | some message => exact turnEvents_silent rfl rfl

theorem storeReply_events (s : State) (t : Nat) (stored : Bool) :
    turnEvents (storeReply s t stored) = turnEvents s := by
  simp only [storeReply]
  cases stored
  · exact handle_events _ t _
  · simp only [if_true]
    split
    · rfl
    · exact turnEvents_silent rfl rfl
    · exact handle_events _ t _
    · exact turnEvents_silent rfl rfl

/-- `finish` reports the status it writes. -/
theorem finish_reports {s : State} {t : Nat} {status : Status}
    (terminal : status = .done ∨ status = .error) (raised : State → State) :
    Reports s (finish s t status true raised) := by
  simp only [finish]
  split
  · next was =>
    refine .ends t status none ⟨was,?_,rfl,rfl,⟨none,rfl⟩,rfl⟩ rfl fun row => ?_
    · rcases terminal with rfl | rfl <;> simp
    · refine (turnEvents_hand rfl).trans ?_
      rcases terminal with rfl | rfl <;> rfl
  · exact .quiet (.modify ..) rfl

theorem resumeWith_reports (s : State) (t : Nat) (wake : Wake) :
    Reports s (resumeWith s t true wake) := by
  have removed : Keeps s (s.modify t Turn.removeJob) := .modify ..
  simp only [resumeWith]
  split
  · exact .quiet (.modify ..) rfl
  · exact .nothing (startTurn_keeps ..) (turnEvents_silent rfl rfl)
  · exact .quiet ⟨rfl,rfl,rfl,rfl⟩ rfl
  · exact .nothing ⟨rfl,rfl,rfl,rfl⟩ (turnEvents_silent rfl rfl)
  · exact .nothing (removed.trans (handle_keeps ..)) (handle_events ..)
  · exact .nothing (handle_keeps ..) (handle_events ..)
  · exact .nothing (handle_keeps ..) (handle_events ..)
  · exact .nothing (storeReply_keeps ..) (storeReply_events ..)
  · exact .nothing ⟨rfl,rfl,rfl,rfl⟩ (turnEvents_silent rfl rfl)
  · exact .nothing (showError_keeps ..) (turnEvents_silent rfl rfl)
  · exact finish_reports (.inl rfl) _
  · exact .quiet ⟨rfl,rfl,rfl,rfl⟩ rfl
  · exact .nothing (showError_keeps ..) (turnEvents_silent rfl rfl)
  · exact finish_reports (.inr rfl) _
  · exact .quiet (.modify ..) rfl
  · exact .quiet (.modify ..) rfl
  · refine .nothing (decay_keeps ..) ?_
    simp only [decay]
    split
    · exact turnEvents_silent rfl rfl
    · rfl
  · exact .quiet (.modify ..) rfl
  · exact .nothing (handle_keeps ..) (handle_events ..)

/-- `cancel` reports the reason it stores. -/
theorem cancel_reports {s u : State} {t : Nat} (was : s.current = some t) (reason : String)
    (same : u.store = (cancel s t reason true).store) (base : u.base = s.base)
    (current : u.current = none) (handed : u.handed = (cancel s t reason true).handed) :
    Reports s u := by
  refine .ends t .cancelled (some reason)
    ⟨was,nofun,base,current,⟨some reason,?_⟩,?_⟩ ?_ fun row => ?_
  · rw [same]; rfl
  · rw [same]; rfl
  · rw [same]; rfl
  · rw [turnEvents_eq handed]
    refine (turnEvents_hand (s := s) rfl).trans ?_
    rfl

theorem beginTurn_reports (s : State) (a owner : Nat) (text : String) :
    Reports s (beginTurn s a owner text true true) := by
  refine .begins owner ⟨rfl,rfl,rfl,rfl,?_⟩ ?_
  · simp [beginTurn,Store.nextTurnId,Store.recordTurn]
  · refine (turnEvents_hand (s := s) rfl).trans ?_
    rfl

theorem onDelta_events (s : State) (t : Nat) (delta : String) :
    turnEvents (onDelta s t delta) = turnEvents s := by
  simp only [onDelta]
  split
  · rfl
  · split
    · exact turnEvents_silent rfl rfl
    · exact turnEvents_silent rfl rfl

theorem jobResumes_events {s u : State} {t : Nat} (taken : jobResumes s t = some u) :
    turnEvents u = turnEvents s := by
  simp only [jobResumes] at taken
  split at taken <;> cases taken
  all_goals first | rfl | exact turnEvents_silent rfl rfl

theorem step_reports {s u : State} {op : Op} (stores : op.stores = true)
    (taken : step s op = some u) : Reports s u := by
  cases op with
  | startup => cases taken; exact .nothing ⟨rfl,rfl,rfl,rfl⟩ (turnEvents_silent rfl rfl)
  | chatSend a owner text stored counted recorded =>
    simp only [Op.stores,Bool.and_eq_true] at stores
    obtain ⟨⟨rfl,rfl⟩,rfl⟩ := stores
    obtain ⟨_,rfl⟩ := chatSend_taken taken
    rcases chatSend_cases s a owner text true true true with ⟨t,was,_,same⟩ | ⟨_,same⟩ <;> rw [same]
    · exact cancel_reports was "superseded" rfl rfl rfl rfl
    · exact beginTurn_reports s a owner text
  | turnCancel a session t stored =>
    obtain rfl : stored = true := stores
    obtain ⟨_,rfl⟩ := turnCancel_taken taken
    rcases turnCancel_cases s a session t true with ⟨was,same⟩ | same <;> rw [same]
    · exact cancel_reports was "user_cancel" rfl rfl rfl rfl
    · exact .quiet (.refl s) rfl
  | commandResumes a counted recorded =>
    simp only [Op.stores,Bool.and_eq_true] at stores
    obtain ⟨rfl,rfl⟩ := stores
    rcases commandResumes_taken taken with ⟨t,owner,text,waits,rfl⟩ | ⟨t,text,waits,rfl⟩ | ⟨t,waits,rfl⟩
    · exact .after (Keeps.modify s t Turn.cancelJob) rfl (beginTurn_reports _ a owner text)
    · exact .quiet ⟨rfl,rfl,rfl,rfl⟩ rfl
    · exact .quiet ⟨rfl,rfl,rfl,rfl⟩ rfl
  | taskResumes t stored =>
    obtain rfl : stored = true := stores
    obtain ⟨wake,_,rfl⟩ := Option.map_eq_some_iff.mp taken
    exact resumeWith_reports s t wake
  | dispatch t =>
    obtain ⟨_,rfl⟩ := dispatch_taken taken
    exact .quiet (.modify ..) rfl
  | jobResumes t => exact .nothing (jobResumes_keeps taken) (jobResumes_events taken)
  | delta t delta =>
    obtain ⟨_,_,rfl⟩ := delta_taken taken
    exact .nothing (onDelta_keeps s t delta) (onDelta_events s t delta)
  | llmEnds t outcome =>
    obtain ⟨_,_,_,rfl⟩ := llmEnds_taken taken
    exact .quiet (.modify ..) rfl
  | speechEnds t failure =>
    obtain ⟨_,_,_,_,_,rfl⟩ := speechEnds_taken taken
    exact .quiet (.modify ..) rfl

/-! ## The history along a run -/

theorem eventsOf_append {s u : State} {t : Nat} {added : List (TurnEvent × Option String)}
    (events : turnEvents u = turnEvents s ++ added.map (t,·)) (v : Nat) :
    eventsOf u v = eventsOf s v ++ if t = v then added else [] := by
  simp only [eventsOf,events,List.filterMap_append,List.filterMap_map]
  congr 1
  by_cases same : t = v <;> simp [same]

theorem Row.report_started (row : Row) (t : Nat) :
    (row.report.map (t,·)).filterMap (fun e => if e.2.1 = .started then some e.1 else none) = [] := by
  simp only [Row.report]
  split <;> simp

theorem History.initial (tts : Bool) (store : Store) : History (init tts store) := by
  refine ⟨?_,fun t ours known => ?_,fun _ _ => rfl⟩
  · simp [turnEvents,init]
  · simp only [init] at ours known
    omega

theorem History.quiet {s u : State} (inv : History s) (keeps : Keeps s u)
    (events : turnEvents u = turnEvents s) : History u := by
  have same (t : Nat) : eventsOf u t = eventsOf s t := by simp only [eventsOf,events]
  refine ⟨?_,fun t ours known => ?_,fun t other => ?_⟩
  · rw [events,keeps.base,keeps.counter]; exact inv.issued
  · rw [keeps.base] at ours
    rw [keeps.counter] at known
    rw [keeps.rows,same]
    exact inv.events t ours known
  · rw [keeps.base,keeps.counter] at other
    rw [same]
    exact inv.other t other

/-- The turn that is ended had reported its start only, since its row was active. -/
theorem History.ends {s u : State} {t : Nat} {status : Status} {reason : Option String}
    (inv : History s) (owned : Owned s) (closes : Closes s u t status)
    (rows : u.store.rows = (s.store.finishTurn t status reason).rows)
    (events : ∀ row : Row, turnEvents u = turnEvents s ++
      ({ row with status := status, reason := reason } : Row).report.map (t,·)) : History u := by
  obtain ⟨ours,active⟩ := owned.current t closes.was
  obtain ⟨row,found,active⟩ := Option.map_eq_some_iff.mp active
  have known : t ≤ s.store.counter := by
    by_contra later
    rw [s.store.fresh t (by omega)] at found
    cases found
  have after := events row
  refine ⟨?_,fun v ours known => ?_,fun v other => ?_⟩
  · rw [after,List.filterMap_append,Row.report_started,List.append_nil,closes.base,closes.counter]
    exact inv.issued
  · rw [closes.base] at ours
    rw [closes.counter] at known
    obtain ⟨old,stored,reported⟩ := inv.events v ours known
    rw [eventsOf_append after v,reported]
    by_cases same : t = v
    · subst v
      obtain rfl := Option.some.inj (found.symm.trans stored)
      refine ⟨{ row with status := status, reason := reason },?_,?_⟩
      · rw [rows]; simp [Store.finishTurn,found]
      · simp [Row.report,active]
    · refine ⟨old,?_,by simp [same]⟩
      rw [rows]
      simpa [Store.finishTurn,Ne.symm same] using stored
  · rw [closes.base,closes.counter] at other
    have elsewhere : t ≠ v := by rintro rfl; exact other ⟨ours,known⟩
    rw [eventsOf_append after v,inv.other v other]
    simp [elsewhere]

theorem History.begins {s u : State} {owner : Nat} (inv : History s) (owned : Owned s)
    (records : Records s u owner)
    (events : turnEvents u = turnEvents s ++ [(u.store.counter,.started,none)]) : History u := by
  have after (v : Nat) : eventsOf u v =
      eventsOf s v ++ if u.store.counter = v then [(.started,none)] else [] :=
    eventsOf_append events v
  have base := owned.base
  refine ⟨?_,fun v ours known => ?_,fun v other => ?_⟩
  · have longer : s.store.counter + 1 - s.base = s.store.counter - s.base + 1 := by omega
    rw [events,List.filterMap_append,inv.issued,records.base,records.counter,longer,
      List.range'_concat]
    simp
    omega
  · rw [records.base] at ours
    rw [records.rows,after v]
    by_cases new : v = u.store.counter
    · subst v
      have silent := inv.other u.store.counter (by rw [records.counter]; omega)
      refine ⟨_,Function.update_self ..,?_⟩
      rw [silent]
      simp [Row.report]
    · rw [records.counter] at known new
      obtain ⟨row,stored,reported⟩ := inv.events v ours (by omega)
      rw [records.counter] at *
      exact ⟨row,by simpa [new] using stored,by simp [reported,Ne.symm new]⟩
  · rw [records.base,records.counter] at other
    have elsewhere : u.store.counter ≠ v := by rw [records.counter]; omega
    rw [after v,inv.other v (by omega)]
    simp [elsewhere]

theorem History.reports {s u : State} (inv : History s) (owned : Owned s) (reports : Reports s u) :
    History u := by
  cases reports with
  | nothing keeps events => exact inv.quiet keeps events
  | ends t status reason closes rows events => exact inv.ends owned closes rows events
  | begins owner records events => exact inv.begins owned records events

/-- A row that is terminal is not written again. -/
theorem Reports.terminal {s u : State} (owned : Owned s) (reports : Reports s u) {t : Nat}
    {row : Row} (stored : s.store.rows t = some row) (terminal : row.status ≠ .active) :
    u.store.rows t = some row := by
  cases reports with
  | nothing keeps _ => rw [keeps.rows]; exact stored
  | ends v status reason closes rows _ =>
    have other : t ≠ v := by
      rintro rfl
      obtain ⟨_,active⟩ := owned.current t closes.was
      simp only [State.status,stored,Option.map_some] at active
      exact terminal (Option.some.inj active)
    rw [rows]
    simpa [Store.finishTurn,other] using stored
  | begins owner records _ =>
    have older : t ≠ u.store.counter := 
      records.older (show s.status t = some row.status by simp [State.status,stored])
    rw [records.rows]
    simpa [older] using stored

theorem turnEvent_durable (env : Envelope) (other : env.type.durable = false) :
    turnEvent env.content = none := by
  simp only [Envelope.type] at other
  cases payload : env.payload <;> simp [turnEvent,Envelope.content,payload]
  rw [payload] at other
  cases other

/-- Along every run in which the store works, the history of each turn is well formed, is what
the session log has published in the order of its numbers, and no terminal row changes. -/
theorem history_wellFormed (tts : Bool) (store : Store) (ops : List Op) (s : State)
    (stores : ∀ op ∈ ops, op.stores = true) (reached : run step (init tts store) ops = some s) :
    History s ∧
    (∀ log, Logs log s →
      (Ledger.after log).published.Pairwise (fun a b => a.seq < b.seq) ∧
        (Ledger.after log).published.filterMap (fun e => turnEvent e.env.content) =
          turnEvents s) ∧
    ∀ t u, Passes step (init tts store) ops t u → ∀ v row, t.store.rows v = some row →
      row.status ≠ .active → u.store.rows v = some row := by
  have whole : ∀ ops t u, (∀ op ∈ ops, op.stores = true) → Owned t → run step t ops = some u →
      Owned u ∧ (History t → History u) ∧
        ∀ v row, t.store.rows v = some row → row.status ≠ .active → u.store.rows v = some row := by
    intro ops t u stores owned reached
    induction ops generalizing t with
    | nil => cases reached; exact ⟨owned,id,fun _ _ stored _ => stored⟩
    | cons op ops ih =>
      obtain ⟨m,taken,reached⟩ := run_cons_iff.mp reached
      obtain ⟨works,stores⟩ := List.forall_mem_cons.mp stores
      have reports := step_reports works taken
      obtain ⟨owned',history,rows⟩ := ih m stores (owned.step taken) reached
      exact ⟨owned',fun inv => history (inv.reports owned reports),
        fun v row stored terminal => rows v row (reports.terminal owned stored terminal) terminal⟩
  have start := Owned.initial tts store
  obtain ⟨_,history,_⟩ := whole ops _ s stores start reached
  refine ⟨history (.initial tts store),fun log logs => ?_,?_⟩
  · exact ⟨(Ledger.after_valid log).tracks.increasing,logs.read turnEvent turnEvent_durable⟩
  · rintro t u ⟨first,middle,last,rfl,before,later⟩
    have early : ∀ op ∈ first, op.stores = true := fun op mem => stores op (by simp [mem])
    have between : ∀ op ∈ middle, op.stores = true := fun op mem => stores op (by simp [mem])
    exact (whole middle t u between (whole first _ t early start before).1 later).2.2

/-- One turn ends by itself, and the next one by an error of the LLM. -/
theorem failedOnce_history :
    ∃ s, run step (init true emptyStore) failedOnce = some s ∧
      eventsOf s 1 = [(.started,none),(.done,none)] ∧
      eventsOf s 2 = [(.started,none),(.done,some "error")] ∧ History s := by
  have eval : ∃ s, run step (init true emptyStore) failedOnce = some s ∧
      (eventsOf s 1 = [(.started,none),(.done,none)] ∧
        eventsOf s 2 = [(.started,none),(.done,some "error")]) := exists_of_eval (by decide +kernel)
  obtain ⟨s,reached,first,second⟩ := eval
  exact ⟨s,reached,first,second,
    (history_wellFormed true emptyStore failedOnce s (by decide) reached).1⟩

end GhostRunner.Orchestrator
