import Mathlib.Data.List.Basic
import GhostRunner.ServerLoops

/-! Durable notifications after a resume. The tail of the log is computed once and then
sent entry by entry, while the loops of earlier and of live broadcasts write to the same
connection; nothing but luck keeps the numbers in order. -/
namespace GhostRunner.Server

open Machine

def Frame.seq : Frame → Option Nat
  | .text env => env.seq
  | _ => none

/-- The sequence numbers written to a connection, in order. -/
def seqs (frames : List Frame) : List Nat := frames.filterMap Frame.seq

/-- The two kinds of loop that write numbered envelopes. -/
inductive Loop where
  | handler (c : Nat)
  | flight (b : Nat)
  deriving DecidableEq, Repr

/-- The numbers that a suspended loop has yet to write to connection `w`. -/
def owed (s : State) (w : Nat) : Loop → List Nat
  | .handler c =>
    if (s.handlers c).session.bind s.wsOf = some w then (s.handlers c).rest.map Entry.seq else []
  | .flight b =>
    match s.flights b with
    | some f => if ∃ S ∈ f.rest, s.wsOf S = some w then f.frame.seq.toList else []
    | none => []

def loops (s : State) : List Loop :=
  s.connections.map .handler ++ (List.range s.nextFlight).map .flight

/-- The numbered envelope that a label writes: the loop, the connection and the number. -/
def nextWrite (s : State) : Op → Option (Loop × Nat × Nat)
  | .handlerResumes c true =>
    match s.handlers c with
    | .replaying S _ (e :: _) => (s.wsOf S).map fun w => (.handler c, w, e.seq)
    | .replaying S _ [] =>
      if s.log.stateSnapshot.isSome then (s.wsOf S).map fun w => (.handler c, w, s.log.seq + 1)
      else none
    | _ => none
  | .broadcast env _ _ =>
    if env.type.durable then
      (nextTarget s s.sessions).map fun target =>
        (.flight s.nextFlight, target.2.1, s.log.seq + 1)
    else none
  | .flightResumes b ok =>
    match s.flights b with
    | some f =>
      let s := if ok then s else detach (s.markFailed f.via) f.session
      match nextTarget s f.rest, f.frame.seq with
      | some target, some n => some (.flight b, target.2.1, n)
      | _, _ => none
    | none => none
  | _ => none

/-- Whoever writes number `n` to `c`, no other loop owes `c` a number up to `n`. -/
def InTurn (c : Nat) (s : State) (op : Op) : Prop :=
  ∀ out ∈ nextWrite s op, out.2.1 = c → ∀ loop ∈ loops s, loop ≠ out.1 →
    ∀ n ∈ owed s c loop, out.2.2 < n

/-- No broadcast is cancelled while it owes `c` an entry after `since`. -/
def Uncut (c : Nat) (since : Int) (s : State) : Op → Prop
  | .flightCancelled b => ∀ n ∈ owed s c (.flight b), (n : Int) ≤ since
  | _ => True

def Yields (c : Nat) (since : Int) (s : State) (op : Op) : Prop :=
  InTurn c s op ∧ Uncut c since s op

instance (c : Nat) (since : Int) (s : State) (op : Op) : Decidable (Uncut c since s op) := by
  unfold Uncut; split <;> infer_instance

instance (c : Nat) (since : Int) (s : State) (op : Op) : Decidable (Yields c since s op) := by
  unfold Yields InTurn; infer_instance

/-- The connection is still the one that its session is bound to. -/
def Live (s : State) (c S : Nat) : Prop :=
  S ∈ s.sessions ∧ s.wsOf S = some c ∧ s.handlers c ≠ .ended

/-- The numbers on the wire increase, and every entry after `since` that no loop still owes
the connection is on it once. -/
structure Delivered (c S : Nat) (since : Int) (s : State) : Prop where
  ordered : (seqs (s.wire c)).Pairwise (· < ·)
  once : Live s c S → ∀ e ∈ s.published, since < e.seq → (∀ loop, e.seq ∉ owed s c loop) →
    (s.wire c).count (Frame.stamp S (.text e.env)) = 1

@[simp] theorem stamp_seq (S : Nat) (frame : Frame) : (frame.stamp S).seq = frame.seq := by
  cases frame <;> rfl

theorem seqs_append (first second : List Frame) :
    seqs (first ++ second) = seqs first ++ seqs second := List.filterMap_append

theorem seqs_singleton (frame : Frame) : seqs [frame] = frame.seq.toList := by
  cases shape : frame.seq <;> simp [seqs,shape]

/-! ## The numbers in circulation -/

structure Numbers (s : State) : Prop where
  loops : Loops s
  tracks : Tracks s.published s.log.replay
  published : ∀ e ∈ s.published, e.seq ≤ s.log.seq
  flights : ∀ b f n, s.flights b = some f → f.frame.seq = some n → n ≤ s.log.seq
  replays : ∀ c, (s.handlers c).rest.Pairwise (fun a b => a.seq < b.seq) ∧
    ∀ e ∈ (s.handlers c).rest, e.seq ≤ s.log.seq

theorem Numbers.initial : Numbers init := by
  refine ⟨Loops.initial,⟨⟨[],rfl,.inl ⟨rfl,rfl⟩⟩,rfl,List.Pairwise.nil⟩,?_,?_,?_⟩
  · intro e mem; cases mem
  · intro b f n found; cases found
  · intro c; exact ⟨List.Pairwise.nil,fun e mem => by cases mem⟩

theorem Numbers.serves {s t : State} {loss : Loss} (inv : Numbers s) (alters : Alters s t loss)
    (serves : Serves s t) : Numbers t where
  loops := inv.loops.serves alters serves
  tracks := by rw [serves.replay,serves.published]; exact inv.tracks
  published := by rw [serves.published]; exact fun e mem => (inv.published e mem).trans serves.seq
  flights b f n found numbered := by
    rw [serves.flights] at found
    exact (inv.flights b f n found numbered).trans serves.seq
  replays c := ⟨(inv.replays c).1.sublist (serves.rests c),
    fun e mem => ((inv.replays c).2 e ((serves.rests c).subset mem)).trans serves.seq⟩

theorem Numbers.arrives {s t : State} {c S : Nat} {tail : List Entry} (inv : Numbers s)
    (fresh : s.handlers c = .absent) (arrives : Arrives s t c S tail) : Numbers t where
  loops := inv.loops.arrives fresh arrives
  tracks := by rw [arrives.published]; exact arrives.tracks _ inv.tracks
  published := by rw [arrives.published,arrives.seq]; exact inv.published
  flights := by rw [arrives.flights,arrives.seq]; exact inv.flights
  replays d := by
    rw [arrives.seq]
    by_cases own : d = c
    · subst d
      have past := arrives.tail.trans inv.tracks.entries
      rw [arrives.handler]
      exact ⟨inv.tracks.increasing.sublist past,fun e mem => inv.published e (past.subset mem)⟩
    · rw [arrives.handlers d own]; exact inv.replays d

theorem fly_flights {s : State} {b : Nat} {frame : Frame} {delta : Option Nat} {todo : List Nat}
    {b' : Nat} {f : Flight} (found : (fly s b frame delta todo).flights b' = some f) :
    s.flights b' = some f ∨ f.frame = frame := by
  rcases fly_cases s b frame delta todo with ⟨_,eq⟩ | ⟨_,_,_,_,_,_,_,eq⟩ <;> rw [eq] at found
  · rw [(land_traffic _ delta).1] at found
    by_cases here : b' = b
    · subst b'; simp [State.setFlight] at found
    · exact .inl (by simpa [State.setFlight,here] using found)
  · by_cases here : b' = b
    · subst b'
      simp only [State.setFlight,Function.update_self,Option.some.injEq] at found
      exact .inr (by rw [← found])
    · exact .inl (by simpa [State.setFlight,State.write,here] using found)

theorem fly_keeps (s : State) (b : Nat) (frame : Frame) (delta : Option Nat) (todo : List Nat) :
    (fly s b frame delta todo).handlers = s.handlers ∧ (fly s b frame delta todo).log = s.log ∧
      (fly s b frame delta todo).published = s.published := by
  rcases fly_cases s b frame delta todo with ⟨_,eq⟩ | ⟨_,_,_,_,_,_,_,eq⟩ <;> rw [eq]
  · obtain ⟨_,_,_,log,handlers,published⟩ := land_traffic (s.setFlight b none) delta
    exact ⟨handlers,log,published⟩
  · exact ⟨rfl,rfl,rfl⟩

/-- A fan-out of a frame whose number, if it has one, has been given out. -/
theorem Numbers.fly {s : State} {b : Nat} {frame : Frame} {todo : List Nat} (inv : Numbers s)
    (known : b < s.nextFlight) (visits : Visits s todo) (delta : Option Nat)
    (numbered : ∀ n, frame.seq = some n → n ≤ s.log.seq) :
    Numbers (GhostRunner.Server.fly s b frame delta todo) := by
  obtain ⟨handlers,log,published⟩ := fly_keeps s b frame delta todo
  refine ⟨inv.loops.fly known visits frame delta,?_,?_,?_,?_⟩
  · rw [log,published]; exact inv.tracks
  · rw [log,published]; exact inv.published
  · intro b' f n found seq
    rw [log]
    rcases fly_flights found with old | same
    · exact inv.flights b' f n old seq
    · exact numbered n (by rw [← same]; exact seq)
  · rw [log,handlers]; exact inv.replays

theorem Numbers.launch {s : State} {frame : Frame} (inv : Numbers s) (delta : Option Nat)
    (numbered : ∀ n, frame.seq = some n → n ≤ s.log.seq) :
    Numbers (GhostRunner.Server.launch s frame delta) := by
  have counted : Numbers { s with nextFlight := s.nextFlight + 1 } :=
    ⟨inv.loops.count,inv.tracks,inv.published,inv.flights,inv.replays⟩
  exact counted.fly (Nat.lt_succ_self _) (Visits.sessions counted.loops.bindings) delta numbered

/-- The number of a published envelope is the newest one. -/
theorem publish_seq (log : SessionLog) {env : Envelope} (bare : env.seq = none) (stampMs pruneMs : Int)
    {n : Nat} (numbered : (log.publish env stampMs pruneMs).2.seq = some n) :
    n = log.seq + 1 ∧ env.type.durable = true := by
  simp only [SessionLog.publish] at numbered
  split at numbered
  · next durable => cases numbered; exact ⟨rfl,durable⟩
  · rw [bare] at numbered; cases numbered

theorem Numbers.publish {s : State} {env : Envelope} (inv : Numbers s) (stampMs pruneMs : Int) :
    Numbers { s with
      log := (s.log.publish env stampMs pruneMs).1
      published := if env.type.durable then s.published ++ [s.log.stamp env stampMs]
        else s.published } := by
  have loops := inv.loops.alters (log_calm s (s.log.publish env stampMs pruneMs).1
    (if env.type.durable then s.published ++ [s.log.stamp env stampMs] else s.published))
    rfl rfl fun _ _ => rfl
  refine ⟨loops,?_,?_,?_,?_⟩
  all_goals by_cases durable : env.type.durable = true
  all_goals simp only [SessionLog.publish,durable,if_true,if_false,Bool.false_eq_true]
  · exact inv.tracks.append _ pruneMs fun a mem => Nat.lt_succ_of_le (inv.published a mem)
  · exact inv.tracks
  · intro e mem
    rcases List.mem_append.mp mem with old | new
    · exact (inv.published e old).trans (Nat.le_succ _)
    · rw [List.mem_singleton.mp new]; exact le_rfl
  · exact inv.published
  · exact fun b f n found numbered => (inv.flights b f n found numbered).trans (Nat.le_succ _)
  · exact inv.flights
  · exact fun c => ⟨(inv.replays c).1,fun e mem => ((inv.replays c).2 e mem).trans (Nat.le_succ _)⟩
  · exact inv.replays

theorem Numbers.broadcast {s : State} {env : Envelope} (inv : Numbers s) (bare : env.seq = none)
    (stampMs pruneMs : Int) : Numbers (GhostRunner.Server.broadcast s env stampMs pruneMs) := by
  refine (inv.publish stampMs pruneMs).launch none ?_
  intro n numbered
  obtain ⟨rfl,durable⟩ := publish_seq s.log bare stampMs pruneMs numbered
  simp [SessionLog.publish,durable]

theorem Numbers.flightResumes {s : State} {b : Nat} {f : Flight} (inv : Numbers s)
    (found : s.flights b = some f) (ok : Bool) :
    Numbers (GhostRunner.Server.flightResumes s b f ok) := by
  have flies : ∀ u : State, Numbers u → u.flights b = some f →
      Numbers (GhostRunner.Server.fly u b f.frame f.delta f.rest) := by
    intro u numbers here
    exact numbers.fly (numbers.loops.flight_known here) (numbers.loops.visits b f here) f.delta
      fun n numbered => numbers.flights b f n here numbered
  cases ok with
  | true => exact flies s inv found
  | false =>
    have failed := inv.serves (markFailed_alters s f.via) (markFailed_serves s f.via)
    have detached := failed.serves (detach_alters _ f.session) (detach_serves _ f.session)
    have here := (congrFun (detach_traffic (s.markFailed f.via) f.session).1 b).trans found
    exact flies _ detached here

theorem flightCancelled_flights {s : State} {b b' : Nat} {f f' : Flight}
    (found : (flightCancelled s b f).flights b' = some f') :
    b' ≠ b ∧ s.flights b' = some f' := by
  have found : (s.setFlight b none).flights b' = some f' := by
    simp only [flightCancelled] at found
    split at found <;> exact found
  by_cases here : b' = b
  · subst b'; simp [State.setFlight] at found
  · exact ⟨here,by simpa [State.setFlight,here] using found⟩

theorem flightCancelled_keeps (s : State) (b : Nat) (f : Flight) :
    (flightCancelled s b f).handlers = s.handlers ∧ (flightCancelled s b f).log = s.log ∧
      (flightCancelled s b f).published = s.published ∧ (flightCancelled s b f).wire = s.wire ∧
      (flightCancelled s b f).nextFlight = s.nextFlight := by
  simp only [flightCancelled]
  split <;> exact ⟨rfl,rfl,rfl,rfl,rfl⟩

theorem Numbers.flightCancelled {s : State} (inv : Numbers s) (b : Nat) (f : Flight) :
    Numbers (GhostRunner.Server.flightCancelled s b f) := by
  have calm := flightCancelled_calm s b f
  obtain ⟨handlers,log,published,wire,nextFlight⟩ := flightCancelled_keeps s b f
  refine ⟨⟨inv.loops.bindings.alters calm,?_,?_,?_,?_⟩,?_,?_,?_,?_⟩
  · intro b' beyond
    rw [nextFlight] at beyond
    cases found : (GhostRunner.Server.flightCancelled s b f).flights b' with
    | none => rfl
    | some f' =>
      have old := (flightCancelled_flights found).2
      rw [inv.loops.fresh b' beyond] at old
      cases old
  · intro b' f' found
    exact (inv.loops.visits b' f' (flightCancelled_flights found).2).transfer calm.tokens
      calm.attached
  · rw [handlers,wire]; exact inv.loops.silent
  · rw [handlers,calm.connections]; exact inv.loops.known
  · rw [log,published]; exact inv.tracks
  · rw [log,published]; exact inv.published
  · intro b' f' n found
    rw [log]
    exact inv.flights b' f' n (flightCancelled_flights found).2
  · rw [log,handlers]; exact inv.replays

theorem Numbers.step {s t : State} {op : Op} (inv : Numbers s) (taken : step s op = some t) :
    Numbers t := by
  by_cases attaching : op.isAttach = true
  · obtain ⟨c,helloId,resume,nowMs,pruneMs,rfl,fresh,rfl⟩ := attach_taken taken attaching
    exact inv.arrives fresh (attach_arrives inv.loops.bindings fresh helloId resume nowMs pruneMs)
  obtain ⟨loss,alters,_⟩ := step_alters taken (by simpa using attaching)
  cases op with
  | attach => exact (attaching rfl).elim
  | handlerResumes c ok => exact inv.serves alters (handlerResumes_serves taken)
  | handlerEnds c => exact inv.serves alters (handlerEnds_serves taken)
  | reply c body =>
    simp only [GhostRunner.Server.step] at taken
    split at taken <;> cases taken
    exact inv.serves alters (sendReply_serves s c _ body)
  | streamSync c stream =>
    simp only [GhostRunner.Server.step] at taken
    split at taken <;> cases taken
    exact inv.serves alters (streamSync_serves s c _ stream)
  | broadcast env stampMs pruneMs =>
    simp only [GhostRunner.Server.step] at taken
    split at taken <;> cases taken
    next bare => exact inv.broadcast bare.2 stampMs pruneMs
  | broadcastBinary payload =>
    cases taken
    exact inv.launch none fun n numbered => by cases numbered
  | delta k d =>
    simp only [GhostRunner.Server.step] at taken
    split at taken <;> cases taken
    have streamed := inv.serves (setStream_calm s k { s.streams k with inFlight := some d })
      (setStream_serves s k _)
    exact streamed.launch (some k) fun n numbered => by cases numbered
  | flightResumes b ok =>
    simp only [GhostRunner.Server.step] at taken
    split at taken <;> cases taken
    next f found => exact inv.flightResumes found ok
  | flightCancelled b =>
    simp only [GhostRunner.Server.step] at taken
    split at taken <;> cases taken
    exact inv.flightCancelled b _
  | streamOpens k =>
    simp only [GhostRunner.Server.step] at taken
    split at taken <;> cases taken
    exact inv.serves alters ((setStream_serves s k _).trans (active_serves _ _))
  | streamStops k =>
    simp only [GhostRunner.Server.step] at taken
    split at taken <;> cases taken
    exact inv.serves alters (setStream_serves s k _)
  | streamCleared =>
    cases taken
    exact inv.serves alters (active_serves s none)

/-! ## What is owed to a connection -/

theorem mem_owed_handler {s : State} {w d n : Nat} : n ∈ owed s w (.handler d) ↔
    ∃ S, (s.handlers d).session = some S ∧ s.wsOf S = some w ∧
      ∃ e ∈ (s.handlers d).rest, e.seq = n := by
  simp only [owed]
  split
  · next bound =>
    obtain ⟨S,held,ws⟩ := Option.bind_eq_some_iff.mp bound
    simp [held,ws]
  · next free =>
    refine ⟨fun mem => (by cases mem),?_⟩
    rintro ⟨S,held,ws,_⟩
    exact (free (by rw [held]; exact ws)).elim

theorem mem_owed_flight {s : State} {w b n : Nat} : n ∈ owed s w (.flight b) ↔
    ∃ f S, s.flights b = some f ∧ f.frame.seq = some n ∧ S ∈ f.rest ∧ s.wsOf S = some w := by
  simp only [owed]
  split
  · next f found =>
    split
    · next due => simp [found,due]
    · next passed =>
      refine ⟨fun mem => (by cases mem),?_⟩
      rintro ⟨f',S,found',_,mem,ws⟩
      rw [found] at found'
      cases found'
      exact (passed ⟨S,mem,ws⟩).elim
  · next none =>
    refine ⟨fun mem => (by cases mem),?_⟩
    rintro ⟨f,S,found,_⟩
    rw [none] at found
    cases found

theorem owed_known {s : State} (inv : Loops s) {w n : Nat} {loop : Loop} (mem : n ∈ owed s w loop) :
    loop ∈ loops s := by
  cases loop with
  | handler d =>
    obtain ⟨S,held,_⟩ := mem_owed_handler.mp mem
    simp [loops,inv.known d S held]
  | flight b =>
    obtain ⟨f,_,found,_⟩ := mem_owed_flight.mp mem
    simp [loops,inv.flight_known found]

/-- Steps of handlers never make a loop owe more. -/
theorem Serves.owed {s t : State} {loss : Loss} (serves : Serves s t) (alters : Alters s t loss)
    {w n : Nat} {loop : Loop} (mem : n ∈ owed t w loop) : n ∈ GhostRunner.Server.owed s w loop := by
  cases loop with
  | flight b =>
    obtain ⟨f,S,found,numbered,todo,ws⟩ := mem_owed_flight.mp mem
    rw [serves.flights] at found
    exact mem_owed_flight.mpr ⟨f,S,found,numbered,todo,serves.sockets S w ws⟩
  | handler d =>
    obtain ⟨S,held,ws,e,rest,same⟩ := mem_owed_handler.mp mem
    refine mem_owed_handler.mpr
      ⟨S,?_,serves.sockets S w ws,e,(serves.rests d).subset rest,same⟩
    by_cases gone : loss.ended = some d
    · rw [alters.ended d gone] at held; cases held
    · rcases alters.others d gone with unchanged | ⟨S',before,after⟩
      · rw [← unchanged]; exact held
      · rw [after] at held; cases held; exact before

/-- The entry is still on its way to connection `c`. -/
def Coming (s : State) (c S : Nat) (e : Entry) : Prop :=
  (∃ b f, s.flights b = some f ∧ f.frame = .text e.env ∧ S ∈ f.rest) ∨ e ∈ (s.handlers c).rest

/-- Connection `c` has resumed session `S` after number `since`: what was written to it lies
below what is owed to it, and nothing after `since` is missing. -/
structure Resumed (c S : Nat) (since : Int) (s : State) : Prop where
  only : ∀ S', s.attached S' = some c → S' = S
  own : ∀ S', (s.handlers c).session = some S' → S' = S
  present : s.handlers c ≠ .absent
  ordered : (seqs (s.wire c)).Pairwise (· < ·)
  written : ∀ n ∈ seqs (s.wire c), n ≤ s.log.seq
  ahead : ∀ loop, ∀ n ∈ owed s c loop, ∀ m ∈ seqs (s.wire c), m < n
  once : Live s c S → ∀ e ∈ s.published, since < e.seq →
    Frame.stamp S (.text e.env) ∈ s.wire c ∨ Coming s c S e

theorem count_le_seqs (frames : List Frame) {frame : Frame} {n : Nat}
    (numbered : frame.seq = some n) : frames.count frame ≤ (seqs frames).count n := by
  induction frames with
  | nil => simp
  | cons first rest ih =>
    by_cases same : first = frame
    · subst first
      simp only [seqs,List.filterMap_cons,numbered,List.count_cons_self] at ih ⊢
      omega
    · rw [List.count_cons_of_ne (by simpa using same)]
      simp only [seqs,List.filterMap_cons] at ih ⊢
      split
      · exact ih
      · exact ih.trans (List.count_le_count_cons)

theorem rest_session {h : Handler} {e : Entry} (mem : e ∈ h.rest) : ∃ S, h.session = some S := by
  cases h with
  | replaying S via rest => exact ⟨S,rfl⟩
  | _ => cases mem

theorem Coming.owed {s : State} {c S : Nat} {since : Int} {e : Entry} (inv : Resumed c S since s)
    (live : Live s c S) (coming : Coming s c S e) :
    ∃ loop, e.seq ∈ GhostRunner.Server.owed s c loop := by
  rcases coming with ⟨b,f,found,shape,mem⟩ | mem
  · refine ⟨.flight b,mem_owed_flight.mpr ⟨f,S,found,?_,mem,live.2.1⟩⟩
    rw [shape]
    exact e.stamped
  · refine ⟨.handler c,mem_owed_handler.mpr ?_⟩
    obtain ⟨S',held⟩ := rest_session mem
    have same := inv.own S' held
    subst S'
    exact ⟨S,held,live.2.1,e,mem,rfl⟩

theorem Resumed.delivered {s : State} {c S : Nat} {since : Int} (inv : Resumed c S since s) :
    Delivered c S since s where
  ordered := inv.ordered
  once live e mem late settled := by
    have here : Frame.stamp S (.text e.env) ∈ s.wire c := by
      rcases inv.once live e mem late with here | coming
      · exact here
      · obtain ⟨loop,owes⟩ := coming.owed inv live
        exact (settled loop owes).elim
    have atLeast := List.count_pos_iff.mpr here
    have numbered : (Frame.stamp S (.text e.env)).seq = some e.seq := by
      rw [stamp_seq]; exact e.stamped
    have atMost := count_le_seqs (s.wire c) numbered
    have nodup : (seqs (s.wire c)).Nodup := inv.ordered.imp fun {a b} less => Nat.ne_of_lt less
    have single := List.nodup_iff_count_le_one.mp nodup e.seq
    omega

theorem Resumed.advance {s t : State} {c S : Nat} {since : Int} (new : List Frame)
    (inv : Resumed c S since s) (only : ∀ S', t.attached S' = some c → S' = S)
    (own : ∀ S', (t.handlers c).session = some S' → S' = S) (present : t.handlers c ≠ .absent)
    (wire : t.wire c = s.wire c ++ new) (short : (seqs new).Pairwise (· < ·))
    (grows : s.log.seq ≤ t.log.seq)
    (fits : ∀ n ∈ seqs new, n ≤ t.log.seq ∧ ∀ m ∈ seqs (s.wire c), m < n)
    (owes : ∀ loop, ∀ n ∈ owed t c loop, (∀ m ∈ seqs new, m < n) ∧
      (n ∈ owed s c loop ∨ s.log.seq < n))
    (once : Live t c S → ∀ e ∈ t.published, since < e.seq →
      Frame.stamp S (.text e.env) ∈ s.wire c ++ new ∨ Coming t c S e) : Resumed c S since t where
  only := only
  own := own
  present := present
  ordered := by
    rw [wire,seqs_append]
    exact List.pairwise_append.mpr ⟨inv.ordered,short,fun m old n now => (fits n now).2 m old⟩
  written n mem := by
    rw [wire,seqs_append] at mem
    rcases List.mem_append.mp mem with old | now
    · exact (inv.written n old).trans grows
    · exact (fits n now).1
  ahead loop n mem m before := by
    rw [wire,seqs_append] at before
    obtain ⟨above,source⟩ := owes loop n mem
    rcases List.mem_append.mp before with old | now
    · rcases source with owed | newest
      · exact inv.ahead loop n owed m old
      · exact (inv.written m old).trans_lt newest
    · exact above m now
  once := by rw [wire]; exact once

section
variable {s t : State} {c S : Nat} {since : Int}

/-- The step of a handler, with what it writes to `c`. -/
theorem Resumed.serves {loss : Loss} (new : List Frame) (inv : Resumed c S since s)
    (alters : Alters s t loss) (serves : Serves s t) (wire : t.wire c = s.wire c ++ new)
    (short : (seqs new).Pairwise (· < ·))
    (fits : ∀ n ∈ seqs new, n ≤ t.log.seq ∧ ∀ m ∈ seqs (s.wire c), m < n)
    (turn : ∀ loop, ∀ m ∈ owed t c loop, ∀ n ∈ seqs new, n < m)
    (kept : Live t c S → ∀ e ∈ (s.handlers c).rest,
      e ∈ (t.handlers c).rest ∨ Frame.stamp S (.text e.env) ∈ new) : Resumed c S since t := by
  refine inv.advance new ?_ ?_ ?_ wire short serves.seq fits ?_ ?_
  · rw [alters.attached]; exact inv.only
  · intro S' held
    by_cases gone : loss.ended = some c
    · rw [alters.ended c gone] at held; cases held
    · rcases alters.others c gone with same | ⟨S'',before,after⟩
      · exact inv.own S' (by rw [← same]; exact held)
      · rw [after] at held; cases held; exact inv.own S' before
  · intro absent
    by_cases gone : loss.ended = some c
    · rw [alters.ended c gone] at absent; cases absent
    · rcases alters.others c gone with same | ⟨_,_,after⟩
      · exact inv.present (same.symm.trans absent)
      · rw [absent] at after; cases after
  · intro loop n mem
    exact ⟨fun m now => turn loop n mem m now,.inl (serves.owed alters mem)⟩
  · intro live e mem late
    rw [serves.published] at mem
    have before : Live s c S := by
      refine ⟨by rw [← alters.sessions]; exact live.1,serves.sockets S c live.2.1,?_⟩
      intro finished
      by_cases gone : loss.ended = some c
      · exact live.2.2 (alters.ended c gone)
      · rcases alters.others c gone with same | ⟨_,held,_⟩
        · exact live.2.2 (same.trans finished)
        · rw [finished] at held; cases held
    rcases inv.once before e mem late with here | ⟨b,f,found,shape,todo⟩ | rest
    · exact .inl (List.mem_append_left _ here)
    · exact .inr (.inl ⟨b,f,by rw [serves.flights]; exact found,shape,todo⟩)
    · rcases kept live e rest with rest | now
      · exact .inr (.inr rest)
      · exact .inl (List.mem_append_right _ now)

/-- A step of handler `d` that writes no numbered envelope. -/
structure Speaks (s t : State) (d : Nat) : Prop where
  others : ∀ c, c ≠ d → t.handlers c = s.handlers c
  wire : ∀ c, ∃ new, t.wire c = s.wire c ++ new ∧ seqs new = []

theorem Resumed.speaks {d : Nat} {loss : Loss} (inv : Resumed c S since s)
    (alters : Alters s t loss) (serves : Serves s t) (speaks : Speaks s t d)
    (idle : (s.handlers d).rest = [] ∨ t.handlers d = .ended) : Resumed c S since t := by
  obtain ⟨new,wire,quiet⟩ := speaks.wire c
  refine inv.serves new alters serves wire (by rw [quiet]; exact List.Pairwise.nil)
    (by rw [quiet]; intro n mem; cases mem) (by rw [quiet]; intro _ _ _ n mem; cases mem) ?_
  intro live e mem
  by_cases own : c = d
  · subst d
    rcases idle with none | finished
    · rw [none] at mem; cases mem
    · exact (live.2.2 finished).elim
  · rw [speaks.others c own]; exact .inl mem

end

theorem Speaks.trans {s t u : State} {d : Nat} (first : Speaks s t d) (second : Speaks t u d) :
    Speaks s u d where
  others c other := (second.others c other).trans (first.others c other)
  wire c := by
    obtain ⟨early,wire,quiet⟩ := first.wire c
    obtain ⟨late,wire',quiet'⟩ := second.wire c
    exact ⟨early ++ late,by rw [wire',wire,List.append_assoc],by rw [seqs_append,quiet,quiet']; rfl⟩

theorem silent_speaks {s t : State} {d : Nat} (handlers : ∀ c, c ≠ d → t.handlers c = s.handlers c)
    (wire : t.wire = s.wire) : Speaks s t d :=
  ⟨handlers,fun c => ⟨[],by rw [wire,List.append_nil],rfl⟩⟩

theorem setHandler_speaks (s : State) (d : Nat) (h : Handler) : Speaks s (s.setHandler d h) d :=
  silent_speaks (fun c other => by simp [State.setHandler,other]) rfl

theorem nextSeq_speaks (s : State) (d : Nat) :
    Speaks s { s with log := s.log.nextSeqForResend.1 } d :=
  silent_speaks (fun _ _ => rfl) rfl

theorem write_speaks (s : State) (w d : Nat) {frame : Frame} (bare : frame.seq = none) :
    Speaks s (s.write w frame) d := by
  refine ⟨fun _ _ => rfl,fun c => ?_⟩
  by_cases own : c = w
  · subst c; exact ⟨[frame],by simp [State.write],by rw [seqs_singleton,bare]; rfl⟩
  · exact ⟨[],by simp [State.write,own],rfl⟩

theorem leave_speaks (s : State) (d S : Nat) : Speaks s (leave s d S) d := by
  obtain ⟨_,_,wire,_,_,handlers,_⟩ := detach_traffic s S
  exact (silent_speaks (fun c _ => congrFun handlers c) wire).trans (setHandler_speaks _ d _)

theorem resync_speaks (s : State) (d S : Nat) : Speaks s (resync s d S) d := by
  simp only [resync]
  split
  · exact setHandler_speaks s d _
  · split
    · simp only [attachSend]
      split
      · exact (write_speaks s _ d (by rw [stamp_seq]; rfl)).trans (setHandler_speaks _ d _)
      · exact setHandler_speaks s d _
    · exact setHandler_speaks s d _

theorem sendReply_speaks (s : State) (d S : Nat) (body : String) :
    Speaks s (sendReply s d S body) d := by
  simp only [sendReply]
  split
  · exact (write_speaks s _ d rfl).trans (setHandler_speaks _ d _)
  · exact leave_speaks s d S

theorem streamSync_speaks (s : State) (d S : Nat) (stream : String) :
    Speaks s (streamSync s d S stream) d := by
  simp only [streamSync]
  split
  · split
    · split
      · exact (write_speaks s _ d (by rw [stamp_seq]; rfl)).trans (setHandler_speaks _ d _)
      · exact sendReply_speaks s d S _
    · exact sendReply_speaks s d S _
  · exact sendReply_speaks s d S _

/-- Handler `d` writes number `n` for session `S'`, whose socket is `w`. -/
theorem Resumed.numbered {s t : State} {c S d S' w n : Nat} {since : Int} {loss : Loss}
    {frame : Frame} (inv : Resumed c S since s) (alters : Alters s t loss) (serves : Serves s t)
    (wire : t.wire = Function.update s.wire w (s.wire w ++ [frame]))
    (handlers : ∀ v, v ≠ d → t.handlers v = s.handlers v)
    (held : (s.handlers d).session = some S') (bound : s.wsOf S' = some w)
    (numbered : frame.seq = some n) (given : n ≤ t.log.seq)
    (above : w = c → ∀ m ∈ seqs (s.wire c), m < n)
    (turn : w = c → ∀ loop, loop ≠ .handler d → ∀ m ∈ owed s c loop, n < m)
    (later : ∀ e ∈ (t.handlers d).rest, n < e.seq)
    (kept : ∀ e ∈ (s.handlers d).rest,
      e ∈ (t.handlers d).rest ∨ frame = Frame.stamp S' (.text e.env)) : Resumed c S since t := by
  have number : seqs [frame] = [n] := by rw [seqs_singleton,numbered]; rfl
  by_cases here : w = c
  · subst w
    refine inv.serves [frame] alters serves (by rw [wire]; simp) ?_ ?_ ?_ ?_
    · rw [number]; exact List.pairwise_singleton _ _
    · intro m mem
      rw [number,List.mem_singleton] at mem
      subst m
      exact ⟨given,above rfl⟩
    · intro loop m owes k mem
      rw [number,List.mem_singleton] at mem
      subst k
      by_cases mine : loop = .handler d
      · subst loop
        obtain ⟨_,_,_,e,rest,rfl⟩ := mem_owed_handler.mp owes
        exact later e rest
      · exact turn rfl loop mine m (serves.owed alters owes)
    · intro _ e mem
      by_cases own : c = d
      · subst d
        have same := inv.own S' held
        subst S'
        rcases kept e mem with rest | now
        · exact .inl rest
        · exact .inr (by rw [now]; simp)
      · rw [handlers c own]; exact .inl mem
  · refine inv.serves [] alters serves ?_ List.Pairwise.nil
      (fun _ mem => by cases mem) (fun _ _ _ _ mem => by cases mem) ?_
    · rw [wire,Function.update_of_ne (Ne.symm here),List.append_nil]
    · intro live e mem
      by_cases own : c = d
      · subst d
        have same := inv.own S' held
        subst S'
        have ws := serves.sockets S c live.2.1
        rw [bound] at ws
        cases ws
        exact (here rfl).elim
      · rw [handlers c own]; exact .inl mem

/-- The next entry of the replay is sent. -/
theorem Resumed.replayEntry {s t : State} {c S d S' via : Nat} {since : Int} {e : Entry}
    {rest : List Entry} {loss : Loss} (inv : Resumed c S since s) (numbers : Numbers s)
    (at_ : s.handlers d = .replaying S' via (e :: rest))
    (turn : InTurn c s (.handlerResumes d true))
    (replayed : GhostRunner.Server.replay s d S' (e :: rest) = t) (alters : Alters s t loss)
    (serves : Serves s t) : Resumed c S since t := by
  have held : (s.handlers d).session = some S' := by rw [at_]; rfl
  simp only [GhostRunner.Server.replay,attachSend] at replayed
  cases bound : s.wsOf S' with
  | none =>
    simp only [bound] at replayed
    subst t
    exact inv.speaks alters serves (setHandler_speaks s d .ended)
      (.inr (by simp [crash,State.setHandler]))
  | some w =>
    simp only [bound] at replayed
    subst t
    obtain ⟨sorted,below⟩ := numbers.replays d
    rw [at_] at sorted below
    refine inv.numbered alters serves rfl ?_ held bound (by rw [stamp_seq]; exact e.stamped)
      (below e (by simp [Handler.rest])) ?_ ?_ ?_ ?_
    · intro v other; simp [State.setHandler,State.write,other]
    · rintro rfl
      exact inv.ahead (.handler d) e.seq
        (mem_owed_handler.mpr ⟨S',held,bound,e,by simp [at_,Handler.rest],rfl⟩)
    · rintro rfl loop other m owes
      exact turn (.handler d,w,e.seq) (by simp [nextWrite,at_,bound]) rfl loop
        (owed_known numbers.loops owes) other m owes
    · intro e' mem
      have mem : e' ∈ rest := by simpa [State.setHandler,Handler.rest] using mem
      exact (List.pairwise_cons.mp sorted).1 e' mem
    · intro e' mem
      rw [at_] at mem
      rcases List.mem_cons.mp mem with rfl | mem
      · exact .inr rfl
      · exact .inl (by simpa [State.setHandler,Handler.rest] using mem)

/-- After the replay the state is sent again, under a number of its own. -/
theorem Resumed.resend {s t : State} {c S d S' via : Nat} {since : Int} {loss : Loss}
    (inv : Resumed c S since s) (numbers : Numbers s) (at_ : s.handlers d = .replaying S' via [])
    (turn : InTurn c s (.handlerResumes d true)) (resent : GhostRunner.Server.resend s d S' = t)
    (alters : Alters s t loss) (serves : Serves s t) : Resumed c S since t := by
  have held : (s.handlers d).session = some S' := by rw [at_]; rfl
  have idle : (s.handlers d).rest = [] := by rw [at_]; rfl
  simp only [GhostRunner.Server.resend] at resent
  split at resent
  · subst t
    exact inv.speaks alters serves (resync_speaks s d S') (.inl idle)
  · next snapshot lasting =>
    simp only [attachSend] at resent
    cases bound : s.wsOf S' with
    | none =>
      simp only [show State.wsOf { s with log := s.log.nextSeqForResend.1 } S' = none
        from bound] at resent
      subst t
      exact inv.speaks alters serves
        ((nextSeq_speaks s d).trans (setHandler_speaks _ d .ended)) (.inl idle)
    | some w =>
      simp only [show State.wsOf { s with log := s.log.nextSeqForResend.1 } S' = some w
        from bound] at resent
      subst t
      refine inv.numbered (n := s.log.seq + 1) alters serves rfl ?_ held bound
        (by rw [stamp_seq]; rfl) le_rfl ?_ ?_ ?_ ?_
      · intro v other; simp [State.setHandler,State.write,other]
      · rintro rfl m mem
        exact Nat.lt_succ_of_le (inv.written m mem)
      · rintro rfl loop other m owes
        exact turn (.handler d,w,s.log.seq + 1) (by simp [nextWrite,at_,bound,lasting]) rfl loop
          (owed_known numbers.loops owes) other m owes
      · intro e mem
        simp [State.setHandler,Handler.rest] at mem
      · intro e mem
        rw [idle] at mem; cases mem

theorem Resumed.replay {s t : State} {c S d S' via : Nat} {since : Int} {rest : List Entry}
    {loss : Loss} (inv : Resumed c S since s) (numbers : Numbers s)
    (at_ : s.handlers d = .replaying S' via rest) (turn : InTurn c s (.handlerResumes d true))
    (replayed : GhostRunner.Server.replay s d S' rest = t) (alters : Alters s t loss)
    (serves : Serves s t) : Resumed c S since t := by
  cases rest with
  | cons e rest => exact inv.replayEntry numbers at_ turn replayed alters serves
  | nil => exact inv.resend numbers at_ turn replayed alters serves

theorem Resumed.handlerResumes {s t : State} {c S d : Nat} {since : Int} {ok : Bool} {loss : Loss}
    (inv : Resumed c S since s) (numbers : Numbers s) (turn : InTurn c s (.handlerResumes d ok))
    (taken : GhostRunner.Server.handlerResumes s d ok = some t) (alters : Alters s t loss) :
    Resumed c S since t := by
  have serves := handlerResumes_serves taken
  have failed : ∀ via, Speaks s (s.markFailed via) d := fun via => silent_speaks (fun _ _ => rfl) rfl
  simp only [GhostRunner.Server.handlerResumes] at taken
  cases at_ : s.handlers d with
  | absent | ended | serving => simp [at_] at taken
  | replaying S' via rest =>
    simp only [at_,Option.some.injEq] at taken
    cases ok with
    | true => exact inv.replay numbers at_ turn taken alters serves
    | false =>
      subst taken
      exact inv.speaks alters serves ((failed via).trans (setHandler_speaks _ d .ended))
        (.inr (by simp [crash,State.setHandler]))
  | resending S' via =>
    simp only [at_,Option.some.injEq] at taken
    subst taken
    refine inv.speaks alters serves ?_ (.inl (by rw [at_]; rfl))
    cases ok with
    | true => exact resync_speaks s d S'
    | false => exact (failed via).trans (setHandler_speaks _ d .ended)
  | resyncing S' via =>
    simp only [at_,Option.some.injEq] at taken
    subst taken
    refine inv.speaks alters serves ?_ (.inl (by rw [at_]; rfl))
    cases ok with
    | true => exact setHandler_speaks s d _
    | false => exact (failed via).trans (setHandler_speaks _ d .ended)
  | replying S' via =>
    simp only [at_,Option.some.injEq] at taken
    subst taken
    refine inv.speaks alters serves ?_ (.inl (by rw [at_]; rfl))
    cases ok with
    | true => exact setHandler_speaks s d _
    | false => exact (failed via).trans (leave_speaks _ d S')
  | syncing S' via =>
    simp only [at_,Option.some.injEq] at taken
    subst taken
    refine inv.speaks alters serves ?_ (.inl (by rw [at_]; rfl))
    cases ok with
    | true => exact sendReply_speaks s d S' _
    | false => exact (failed via).trans (sendReply_speaks _ d S' _)

theorem Resumed.handlerEnds {s t : State} {c S d : Nat} {since : Int} {loss : Loss}
    (inv : Resumed c S since s) (taken : GhostRunner.Server.handlerEnds s d = some t)
    (alters : Alters s t loss) : Resumed c S since t := by
  have serves := handlerEnds_serves taken
  have ended : t.handlers d = .ended := by
    simp only [GhostRunner.Server.handlerEnds] at taken
    split at taken <;> cases taken <;> simp [leave,crash,State.setHandler]
  refine inv.speaks alters serves ?_ (.inr ended)
  simp only [GhostRunner.Server.handlerEnds] at taken
  split at taken <;> cases taken
  · exact leave_speaks s d _
  · exact leave_speaks s d _
  · exact leave_speaks s d _
  · exact setHandler_speaks s d .ended

/-! ## Steps of fan-outs -/

theorem Calm.live {s t : State} (calm : Calm s t) (handlers : t.handlers = s.handlers) {c S : Nat} :
    Live t c S ↔ Live s c S := by
  have ws : t.wsOf S = s.wsOf S := by simpa using calm.ws S
  simp only [Live]
  rw [calm.sessions,ws,handlers]

/-- A loop that goes on leaves the others where they are. -/
theorem fly_others {s : State} {b b' : Nat} (frame : Frame) (delta : Option Nat) (todo : List Nat)
    (other : b' ≠ b) : (fly s b frame delta todo).flights b' = s.flights b' := by
  rcases fly_cases s b frame delta todo with ⟨_,eq⟩ | ⟨_,_,_,_,_,_,_,eq⟩ <;> rw [eq]
  · rw [(land_traffic _ delta).1]
    simp [State.setFlight,other]
  · simp [State.setFlight,State.write,other]

/-- What the other loops owe is what they owed before. -/
theorem fly_owed {s : State} {b c n : Nat} {frame : Frame} {delta : Option Nat} {todo : List Nat}
    {loop : Loop} (other : loop ≠ .flight b)
    (mem : n ∈ owed (fly s b frame delta todo) c loop) : n ∈ owed s c loop := by
  have ws : ∀ S, (fly s b frame delta todo).wsOf S = s.wsOf S :=
    fun S => by simpa using (fly_calm s b frame delta todo).ws S
  cases loop with
  | handler d =>
    obtain ⟨S,held,bound,rest⟩ := mem_owed_handler.mp mem
    rw [(fly_keeps s b frame delta todo).1] at held rest
    exact mem_owed_handler.mpr ⟨S,held,by rw [← ws S]; exact bound,rest⟩
  | flight b' =>
    obtain ⟨f,S,found,numbered,due,bound⟩ := mem_owed_flight.mp mem
    have here : b' ≠ b := by rintro rfl; exact other rfl
    rw [fly_others frame delta todo here] at found
    exact mem_owed_flight.mpr ⟨f,S,found,numbered,due,by rw [← ws S]; exact bound⟩

section
variable {s : State} {b c S : Nat} {since : Int} {f : Flight}

/-- A step of loop `b` that writes `new` to the connection. An entry that comes by another
loop still comes by it. -/
theorem Resumed.flown (new : List Frame) (inv : Resumed c S since s)
    (found : s.flights b = some f)
    (wire : (GhostRunner.Server.fly s b f.frame f.delta f.rest).wire c = s.wire c ++ new)
    (short : (seqs new).Pairwise (· < ·))
    (fits : ∀ n ∈ seqs new, n ≤ s.log.seq ∧ ∀ m ∈ seqs (s.wire c), m < n)
    (owes : ∀ loop, ∀ n ∈ owed (GhostRunner.Server.fly s b f.frame f.delta f.rest) c loop,
      (∀ m ∈ seqs new, m < n) ∧ n ∈ owed s c loop)
    (once : ∀ e, s.wsOf S = some c → f.frame = .text e.env → S ∈ f.rest →
      Frame.stamp S (.text e.env) ∈ s.wire c ++ new ∨
        Coming (GhostRunner.Server.fly s b f.frame f.delta f.rest) c S e) :
    Resumed c S since (GhostRunner.Server.fly s b f.frame f.delta f.rest) := by
  have calm := fly_calm s b f.frame f.delta f.rest
  obtain ⟨handlers,log,published⟩ := fly_keeps s b f.frame f.delta f.rest
  refine inv.advance new ?_ ?_ ?_ wire short ?_ ?_ ?_ ?_
  · rw [calm.attached]; exact inv.only
  · rw [handlers]; exact inv.own
  · rw [handlers]; exact inv.present
  · rw [log]
  · rw [log]; exact fits
  · intro loop n mem
    obtain ⟨above,before⟩ := owes loop n mem
    exact ⟨above,.inl before⟩
  · intro live e mem late
    rw [published] at mem
    have before := (calm.live handlers).mp live
    rcases inv.once before e mem late with here | ⟨b',f',found',shape,todo⟩ | waits
    · exact .inl (List.mem_append_left _ here)
    · by_cases mine : b' = b
      · subst b'
        rw [found] at found'
        cases found'
        exact once e before.2.1 shape todo
      · refine .inr (.inl ⟨b',f',?_,shape,todo⟩)
        rw [fly_others f.frame f.delta f.rest mine]
        exact found'
    · exact .inr (.inr (by rw [handlers]; exact waits))

/-- The loop finds no socket any more and ends. -/
theorem Resumed.flyLands (inv : Resumed c S since s) (found : s.flights b = some f)
    (finished : nextTarget s f.rest = none) (idle : ∀ S' ∈ f.rest, s.wsOf S' = none) :
    Resumed c S since (GhostRunner.Server.fly s b f.frame f.delta f.rest) := by
  have eq : GhostRunner.Server.fly s b f.frame f.delta f.rest = land (s.setFlight b none) f.delta :=
    by simp [GhostRunner.Server.fly,finished]
  refine inv.flown [] found ?_ List.Pairwise.nil (fun _ mem => by cases mem) ?_ ?_
  · rw [eq,(land_traffic _ f.delta).2.2.1,List.append_nil]; rfl
  · intro loop n mem
    refine ⟨fun _ now => (by cases now),?_⟩
    by_cases mine : loop = .flight b
    · subst loop
      obtain ⟨f',_,found',_⟩ := mem_owed_flight.mp mem
      rw [eq,(land_traffic _ f.delta).1] at found'
      simp [State.setFlight] at found'
    · exact fly_owed mine mem
  · intro e bound _ todo
    rw [idle S todo] at bound
    cases bound

variable {S' w : Nat} {skipped rest : List Nat}

/-- After a write the loop holds the rest of its snapshot. -/
theorem fly_remaining (target : nextTarget s f.rest = some (S',w,rest)) :
    (fly s b f.frame f.delta f.rest).flights b = some ⟨f.frame,S',w,rest,f.delta⟩ := by
  simp [fly,target,State.setFlight]

/-- The loop writes to the connection, in its turn. -/
theorem Resumed.flyHere (inv : Resumed c S since s) (numbers : Numbers s)
    (found : s.flights b = some f) (target : nextTarget s f.rest = some (S',c,rest))
    (split : f.rest = skipped ++ S' :: rest) (bound : s.wsOf S' = some c)
    (turn : ∀ n, f.frame.seq = some n → ∀ loop, loop ≠ .flight b → ∀ m ∈ owed s c loop, n < m) :
    Resumed c S since (GhostRunner.Server.fly s b f.frame f.delta f.rest) := by
  have same := inv.only S' (numbers.loops.bindings.bound S' c bound)
  subst S'
  have visits := numbers.loops.visits b f found
  rw [split] at visits
  have once : S ∉ rest := (List.nodup_cons.mp (List.nodup_append.mp visits.nodup).2.1).1
  have mine : ∀ n, f.frame.seq = some n → n ∈ owed s c (.flight b) := fun n numbered =>
    mem_owed_flight.mpr ⟨f,S,found,numbered,by simp [split],bound⟩
  refine inv.flown [f.frame.stamp S] found ?_ ?_ ?_ ?_ ?_
  · simp [GhostRunner.Server.fly,target,State.setFlight,State.write]
  · rw [seqs_singleton,stamp_seq]
    cases f.frame.seq <;> simp
  · intro n mem
    rw [seqs_singleton,stamp_seq,Option.mem_toList] at mem
    exact ⟨numbers.flights b f n found mem,inv.ahead (.flight b) n (mine n mem)⟩
  · intro loop n mem
    have other : loop ≠ .flight b := by
      rintro rfl
      obtain ⟨f',S',found',_,todo,bound'⟩ := mem_owed_flight.mp mem
      rw [fly_remaining target] at found'
      cases found'
      rw [(fly_calm ..).ws S'] at bound'
      have same := inv.only S' (numbers.loops.bindings.bound S' c (by simpa using bound'))
      subst S'
      exact once todo
    refine ⟨?_,fly_owed other mem⟩
    intro m now
    rw [seqs_singleton,stamp_seq,Option.mem_toList] at now
    exact turn m now loop other n (fly_owed other mem)
  · intro e _ shape _
    exact .inl (by rw [shape]; simp)

/-- The loop writes to another connection. -/
theorem Resumed.flyAway (inv : Resumed c S since s) (found : s.flights b = some f)
    (target : nextTarget s f.rest = some (S',w,rest)) (split : f.rest = skipped ++ S' :: rest)
    (idle : ∀ S'' ∈ skipped, s.wsOf S'' = none) (bound : s.wsOf S' = some w) (away : w ≠ c) :
    Resumed c S since (GhostRunner.Server.fly s b f.frame f.delta f.rest) := by
  refine inv.flown [] found ?_ List.Pairwise.nil (fun _ mem => by cases mem) ?_ ?_
  · simp [GhostRunner.Server.fly,target,State.setFlight,State.write,Ne.symm away]
  · intro loop n mem
    refine ⟨fun _ now => (by cases now),?_⟩
    by_cases mine : loop = .flight b
    · subst loop
      obtain ⟨f',S'',found',numbered,todo,bound'⟩ := mem_owed_flight.mp mem
      rw [fly_remaining target] at found'
      cases found'
      rw [(fly_calm ..).ws S''] at bound'
      exact mem_owed_flight.mpr
        ⟨f,S'',found,numbered,by simp [split,todo],by simpa using bound'⟩
    · exact fly_owed mine mem
  · intro e attached shape todo
    refine .inr (.inl ⟨b,_,fly_remaining target,shape,?_⟩)
    rw [split] at todo
    rcases List.mem_append.mp todo with passed | todo
    · rw [idle S passed] at attached
      cases attached
    · rcases List.mem_cons.mp todo with rfl | todo
      · rw [attached] at bound
        cases bound
        exact (away rfl).elim
      · exact todo

/-- A fan-out goes on to its next connection, if no other loop is to write there first. -/
theorem Resumed.fly (inv : Resumed c S since s) (numbers : Numbers s) (found : s.flights b = some f)
    (turn : ∀ S' rest n, nextTarget s f.rest = some (S',c,rest) → f.frame.seq = some n →
      ∀ loop, loop ≠ .flight b → ∀ m ∈ owed s c loop, n < m) :
    Resumed c S since (GhostRunner.Server.fly s b f.frame f.delta f.rest) := by
  rcases nextTarget_cases s f.rest with
    ⟨finished,idle⟩ | ⟨skipped,S',w,rest,target,split,idle,bound⟩
  · exact inv.flyLands found finished idle
  · by_cases here : w = c
    · subst w
      exact inv.flyHere numbers found target split bound fun n => turn S' rest n target
    · exact inv.flyAway found target split idle bound here

end

theorem Numbers.setFlight {s : State} {b : Nat} {flight : Option Flight} (inv : Numbers s)
    (known : b < s.nextFlight) (visits : ∀ f ∈ flight, Visits s f.rest)
    (numbered : ∀ f ∈ flight, ∀ n, f.frame.seq = some n → n ≤ s.log.seq) :
    Numbers (s.setFlight b flight) := by
  refine ⟨inv.loops.setFlight known visits,inv.tracks,inv.published,?_,inv.replays⟩
  intro b' f n found seq
  by_cases here : b' = b
  · subst b'; exact numbered f (by simpa [State.setFlight] using found) n seq
  · exact inv.flights b' f n (by simpa [State.setFlight,here] using found) seq

/-- A fan-out about to start, over `u`, where something may just have been published. -/
def poised (u : State) (frame : Frame) (delta : Option Nat) : State :=
  ({ u with nextFlight := u.nextFlight + 1 } : State).setFlight u.nextFlight
    (some ⟨frame,0,0,u.sessions,delta⟩)

theorem launch_poised (u : State) (frame : Frame) (delta : Option Nat) :
    launch u frame delta = fly (poised u frame delta) u.nextFlight frame delta u.sessions := by
  simp only [poised,launch]
  rw [fly_setFlight]

theorem Numbers.poised {u : State} {frame : Frame} {delta : Option Nat} (inv : Numbers u)
    (numbered : ∀ n, frame.seq = some n → n ≤ u.log.seq) :
    Numbers (GhostRunner.Server.poised u frame delta) := by
  have counted : Numbers { u with nextFlight := u.nextFlight + 1 } :=
    ⟨inv.loops.count,inv.tracks,inv.published,inv.flights,inv.replays⟩
  refine counted.setFlight (Nat.lt_succ_self _) ?_ ?_
  · intro f mem
    cases Option.mem_some.mp mem
    exact Visits.sessions counted.loops.bindings
  · intro f mem
    cases Option.mem_some.mp mem
    exact numbered

/-- What has just been published is owed to every connected session. -/
theorem Resumed.poised {s u : State} {c S : Nat} {since : Int} {frame : Frame}
    {delta : Option Nat} (inv : Resumed c S since s) (fresh : s.flights s.nextFlight = none)
    (calm : Calm s u) (handlers : u.handlers = s.handlers) (wire : u.wire = s.wire)
    (flights : u.flights = s.flights) (nextFlight : u.nextFlight = s.nextFlight)
    (grows : s.log.seq ≤ u.log.seq) (newer : ∀ n, frame.seq = some n → s.log.seq < n)
    (published : ∀ e ∈ u.published, e ∈ s.published ∨ frame = .text e.env) :
    Resumed c S since (GhostRunner.Server.poised u frame delta) := by
  have ws : ∀ S', u.wsOf S' = s.wsOf S' := fun S' => by simpa using calm.ws S'
  have started : (GhostRunner.Server.poised u frame delta).flights s.nextFlight =
      some ⟨frame,0,0,u.sessions,delta⟩ := by
    simp [GhostRunner.Server.poised,State.setFlight,nextFlight]
  have others : ∀ b, b ≠ s.nextFlight →
      (GhostRunner.Server.poised u frame delta).flights b = s.flights b := by
    intro b other
    simp [GhostRunner.Server.poised,State.setFlight,nextFlight,other,flights]
  refine inv.advance [] ?_ ?_ ?_ ?_ List.Pairwise.nil grows (fun _ mem => by cases mem) ?_ ?_
  · intro S' was
    exact inv.only S' (by rw [← calm.attached]; exact was)
  · intro S' held
    exact inv.own S' (by rw [← handlers]; exact held)
  · intro absent
    exact inv.present (by rw [← handlers]; exact absent)
  · rw [List.append_nil,← wire]; rfl
  · intro loop n mem
    refine ⟨fun _ now => (by cases now),?_⟩
    cases loop with
    | handler d =>
      obtain ⟨S',held,bound,rest⟩ := mem_owed_handler.mp mem
      refine .inl (mem_owed_handler.mpr ⟨S',?_,by rw [← ws S']; exact bound,?_⟩)
      · rw [← handlers]; exact held
      · rw [← handlers]; exact rest
    | flight b =>
      obtain ⟨f,S',found,numbered,todo,bound⟩ := mem_owed_flight.mp mem
      by_cases new : b = s.nextFlight
      · subst b
        rw [started] at found
        cases found
        exact .inr (newer n numbered)
      · rw [others b new] at found
        exact .inl (mem_owed_flight.mpr ⟨f,S',found,numbered,todo,by rw [← ws S']; exact bound⟩)
  · intro live e mem late
    have before : Live s c S := by
      refine ⟨by rw [← calm.sessions]; exact live.1,by rw [← ws S]; exact live.2.1,?_⟩
      rw [← handlers]; exact live.2.2
    rcases published e mem with old | new
    · rcases inv.once before e old late with here | ⟨b,f,found,shape,todo⟩ | waits
      · exact .inl (List.mem_append_left _ here)
      · have other : b ≠ s.nextFlight := by rintro rfl; rw [fresh] at found; cases found
        exact .inr (.inl ⟨b,f,by rw [others b other]; exact found,shape,todo⟩)
      · refine .inr (.inr ?_)
        rw [← handlers] at waits
        exact waits
    · exact .inr (.inl ⟨s.nextFlight,_,started,new,live.1⟩)

theorem Resumed.launch {s u : State} {c S : Nat} {since : Int} {frame : Frame}
    {delta : Option Nat} (inv : Resumed c S since s) (numbers : Numbers u)
    (fresh : s.flights s.nextFlight = none) (calm : Calm s u) (handlers : u.handlers = s.handlers)
    (wire : u.wire = s.wire) (flights : u.flights = s.flights)
    (nextFlight : u.nextFlight = s.nextFlight) (grows : s.log.seq ≤ u.log.seq)
    (numbered : ∀ n, frame.seq = some n → s.log.seq < n ∧ n ≤ u.log.seq)
    (published : ∀ e ∈ u.published, e ∈ s.published ∨ frame = .text e.env)
    (turn : ∀ S' rest n, nextTarget s s.sessions = some (S',c,rest) → frame.seq = some n →
      ∀ loop, loop ≠ .flight s.nextFlight → ∀ m ∈ owed s c loop, n < m) :
    Resumed c S since (GhostRunner.Server.launch u frame delta) := by
  have poised : Resumed c S since (GhostRunner.Server.poised u frame delta) :=
    inv.poised fresh calm handlers wire flights nextFlight grows
      (fun n seq => (numbered n seq).1) published
  have ws : ∀ S', (GhostRunner.Server.poised u frame delta).wsOf S' = s.wsOf S' :=
    fun S' => (by simpa using calm.ws S' : u.wsOf S' = s.wsOf S')
  have found : (GhostRunner.Server.poised u frame delta).flights u.nextFlight =
      some ⟨frame,0,0,u.sessions,delta⟩ := by simp [GhostRunner.Server.poised,State.setFlight]
  rw [launch_poised]
  refine poised.fly (numbers.poised fun n seq => (numbered n seq).2) found ?_
  intro S' rest n target seq loop other m owes
  rw [nextTarget_congr ws,calm.sessions] at target
  rw [nextFlight] at other
  refine turn S' rest n target seq loop other m ?_
  cases loop with
  | handler d =>
    obtain ⟨S'',held,bound,rest⟩ := mem_owed_handler.mp owes
    refine mem_owed_handler.mpr ⟨S'',?_,by rw [← ws S'']; exact bound,?_⟩
    · rw [← handlers]; exact held
    · rw [← handlers]; exact rest
  | flight b =>
    obtain ⟨f,S'',found',seq',todo,bound⟩ := mem_owed_flight.mp owes
    have old : b ≠ u.nextFlight := by rw [nextFlight]; rintro rfl; exact other rfl
    refine mem_owed_flight.mpr ⟨f,S'',?_,seq',todo,by rw [← ws S'']; exact bound⟩
    simpa [GhostRunner.Server.poised,State.setFlight,old,flights] using found'

theorem Resumed.broadcast {s : State} {c S : Nat} {since : Int} {env : Envelope}
    {stampMs pruneMs : Int} (inv : Resumed c S since s) (numbers : Numbers s)
    (bare : env.seq = none) (turn : InTurn c s (.broadcast env stampMs pruneMs)) :
    Resumed c S since (GhostRunner.Server.broadcast s env stampMs pruneMs) := by
  simp only [GhostRunner.Server.broadcast]
  refine inv.launch (numbers.publish stampMs pruneMs) (numbers.loops.fresh _ le_rfl)
    (log_calm s _ _) rfl rfl rfl rfl ?_ ?_ ?_ ?_
  · simp only [SessionLog.publish]
    split
    · exact Nat.le_succ _
    · exact le_rfl
  · intro n seq
    obtain ⟨rfl,durable⟩ := publish_seq s.log bare stampMs pruneMs seq
    simp [SessionLog.publish,durable]
  · intro e mem
    simp only [SessionLog.publish] at mem ⊢
    split at mem
    · next durable =>
      rw [if_pos durable]
      rcases List.mem_append.mp mem with old | new
      · exact .inl old
      · rw [List.mem_singleton.mp new]; exact .inr rfl
    · exact .inl mem
  · intro S' rest n target seq loop other m owes
    obtain ⟨rfl,durable⟩ := publish_seq s.log bare stampMs pruneMs seq
    exact turn (.flight s.nextFlight,c,s.log.seq + 1) (by simp [nextWrite,durable,target]) rfl loop
      (owed_known numbers.loops owes) other m owes

/-- Bindings change, but no handler moves and nothing is written. -/
theorem Resumed.still {s t : State} {c S : Nat} {since : Int} {loss : Loss}
    (inv : Resumed c S since s) (alters : Alters s t loss) (serves : Serves s t)
    (handlers : t.handlers = s.handlers) (wire : t.wire = s.wire) : Resumed c S since t :=
  inv.serves [] alters serves (by rw [wire,List.append_nil]) List.Pairwise.nil
    (fun _ mem => by cases mem) (fun _ _ _ _ mem => by cases mem)
    fun _ e mem => .inl (by rw [handlers]; exact mem)

theorem Resumed.flightResumes {s : State} {c S b : Nat} {since : Int} {f : Flight} {ok : Bool}
    (inv : Resumed c S since s) (numbers : Numbers s) (found : s.flights b = some f)
    (turn : InTurn c s (.flightResumes b ok)) :
    Resumed c S since (GhostRunner.Server.flightResumes s b f ok) := by
  cases ok with
  | true =>
    refine inv.fly numbers found ?_
    intro S' rest n target seq loop other m owes
    exact turn (.flight b,c,n) (by simp [nextWrite,found,target,seq]) rfl loop
      (owed_known numbers.loops owes) other m owes
  | false =>
    have failing := markFailed_alters s f.via
    have failing' := markFailed_serves s f.via
    have detaching := detach_alters (s.markFailed f.via) f.session
    have detaching' := detach_serves (s.markFailed f.via) f.session
    obtain ⟨flights,_,wire,_,_,handlers,_⟩ := detach_traffic (s.markFailed f.via) f.session
    have numbers' := (numbers.serves failing failing').serves detaching detaching'
    have resumed := (inv.still failing failing' rfl rfl).still detaching detaching' handlers wire
    refine resumed.fly numbers' ((congrFun flights b).trans found) ?_
    intro S' rest n target seq loop other m owes
    have before := failing'.owed failing (detaching'.owed detaching owes)
    exact turn (.flight b,c,n) (by simp [nextWrite,found,target,seq]) rfl loop
      (owed_known numbers.loops before) other m before

theorem Resumed.flightCancelled {s : State} {c S b : Nat} {since : Int} (inv : Resumed c S since s)
    (f : Flight) (uncut : ∀ n ∈ owed s c (.flight b), (n : Int) ≤ since) :
    Resumed c S since (GhostRunner.Server.flightCancelled s b f) := by
  have calm := flightCancelled_calm s b f
  obtain ⟨handlers,log,published,wire,_⟩ := flightCancelled_keeps s b f
  have ws : ∀ S', (GhostRunner.Server.flightCancelled s b f).wsOf S' = s.wsOf S' :=
    fun S' => by simpa using calm.ws S'
  have kept : ∀ b' f', b' ≠ b → s.flights b' = some f' →
      (GhostRunner.Server.flightCancelled s b f).flights b' = some f' := by
    intro b' f' other found'
    unfold GhostRunner.Server.flightCancelled
    dsimp only
    split <;> simpa [State.setFlight,State.setStream,other] using found'
  refine inv.advance [] ?_ ?_ ?_ ?_ List.Pairwise.nil (by rw [log])
    (fun _ mem => by cases mem) ?_ ?_
  · rw [calm.attached]; exact inv.only
  · rw [handlers]; exact inv.own
  · rw [handlers]; exact inv.present
  · rw [wire,List.append_nil]
  · intro loop n mem
    refine ⟨fun _ now => (by cases now),.inl ?_⟩
    cases loop with
    | handler d =>
      obtain ⟨S',held,bound,rest⟩ := mem_owed_handler.mp mem
      rw [handlers] at held rest
      exact mem_owed_handler.mpr ⟨S',held,by rw [← ws S']; exact bound,rest⟩
    | flight b' =>
      obtain ⟨f',S',found',seq,todo,bound⟩ := mem_owed_flight.mp mem
      exact mem_owed_flight.mpr ⟨f',S',(flightCancelled_flights found').2,seq,todo,
        by rw [← ws S']; exact bound⟩
  · intro live e mem late
    rw [published] at mem
    have before := (calm.live handlers).mp live
    rcases inv.once before e mem late with here | ⟨b',f',found',shape,todo⟩ | waits
    · exact .inl (List.mem_append_left _ here)
    · by_cases mine : b' = b
      · subst b'
        have owes : e.seq ∈ owed s c (.flight b) :=
          mem_owed_flight.mpr ⟨f',S,found',by rw [shape]; exact e.stamped,todo,before.2.1⟩
        have := uncut e.seq owes
        omega
      · exact .inr (.inl ⟨b',f',kept b' f' mine found',shape,todo⟩)
    · exact .inr (.inr (by rw [handlers]; exact waits))

/-- Another connection attaches. If it takes the session over, `c` is live no longer. -/
theorem Resumed.arrives {s t : State} {c S d S' : Nat} {since : Int} {tail : List Entry}
    (inv : Resumed c S since s) (numbers : Numbers s) (fresh : s.handlers d = .absent)
    (arrives : Arrives s t d S' tail) : Resumed c S since t := by
  have other : c ≠ d := by rintro rfl; exact inv.present fresh
  have bindings := numbers.loops.bindings.arrives fresh arrives
  have same := arrives.handlers c other
  refine inv.advance [] ?_ ?_ ?_ ?_ List.Pairwise.nil (by rw [arrives.seq])
    (fun _ mem => by cases mem) ?_ ?_
  · intro S'' was
    exact inv.only S'' (arrives.elsewhere other was).1
  · rw [same]; exact inv.own
  · rw [same]; exact inv.present
  · rw [arrives.wires c other,List.append_nil]
  · intro loop n mem
    refine ⟨fun _ now => (by cases now),.inl ?_⟩
    cases loop with
    | handler v =>
      obtain ⟨S'',held,bound,rest⟩ := mem_owed_handler.mp mem
      by_cases own : v = d
      · subst v
        rw [arrives.handler] at held
        cases held
        rw [arrives.attaches.bound] at bound
        cases bound
        exact (other rfl).elim
      · rw [arrives.handlers v own] at held rest
        exact mem_owed_handler.mpr ⟨S'',held,arrives.socket other bound,rest⟩
    | flight b =>
      obtain ⟨f,S'',found,seq,todo,bound⟩ := mem_owed_flight.mp mem
      rw [arrives.flights] at found
      exact mem_owed_flight.mpr ⟨f,S'',found,seq,todo,arrives.socket other bound⟩
  · intro live e mem late
    rw [arrives.published] at mem
    have before : Live s c S := by
      refine ⟨arrives.older other live.1 (bindings.bound S c live.2.1),
        arrives.socket other live.2.1,?_⟩
      rw [← same]; exact live.2.2
    rcases inv.once before e mem late with here | ⟨b,f,found,shape,todo⟩ | waits
    · exact .inl (List.mem_append_left _ here)
    · exact .inr (.inl ⟨b,f,by rw [arrives.flights]; exact found,shape,todo⟩)
    · exact .inr (.inr (by rw [same]; exact waits))

theorem Resumed.step {s t : State} {c S : Nat} {since : Int} {op : Op} (inv : Resumed c S since s)
    (numbers : Numbers s) (yields : Yields c since s op) (taken : step s op = some t) :
    Resumed c S since t := by
  by_cases attaching : op.isAttach = true
  · obtain ⟨d,helloId,resume,nowMs,pruneMs,rfl,fresh,rfl⟩ := attach_taken taken attaching
    exact inv.arrives numbers fresh
      (attach_arrives numbers.loops.bindings fresh helloId resume nowMs pruneMs)
  obtain ⟨loss,alters,_⟩ := step_alters taken (by simpa using attaching)
  obtain ⟨turn,uncut⟩ := yields
  have fresh := numbers.loops.fresh s.nextFlight le_rfl
  cases op with
  | attach => exact (attaching rfl).elim
  | handlerResumes d ok => exact inv.handlerResumes numbers turn taken alters
  | handlerEnds d => exact inv.handlerEnds taken alters
  | reply d body =>
    simp only [GhostRunner.Server.step] at taken
    split at taken <;> cases taken
    next S' at_ =>
      exact inv.speaks alters (sendReply_serves s d S' body) (sendReply_speaks s d S' body)
        (.inl (by rw [at_]; rfl))
  | streamSync d stream =>
    simp only [GhostRunner.Server.step] at taken
    split at taken <;> cases taken
    next S' at_ =>
      exact inv.speaks alters (streamSync_serves s d S' stream) (streamSync_speaks s d S' stream)
        (.inl (by rw [at_]; rfl))
  | broadcast env stampMs pruneMs =>
    simp only [GhostRunner.Server.step] at taken
    split at taken <;> cases taken
    next bare => exact inv.broadcast numbers bare.2 turn
  | broadcastBinary payload =>
    cases taken
    exact inv.launch numbers fresh (Calm.refl s) rfl rfl rfl rfl le_rfl
      (fun n seq => by cases seq) (fun e mem => .inl mem) (fun _ _ _ _ seq => by cases seq)
  | delta k d =>
    simp only [GhostRunner.Server.step] at taken
    split at taken <;> cases taken
    have calm := setStream_calm s k { s.streams k with inFlight := some d }
    have serves := setStream_serves s k { s.streams k with inFlight := some d }
    exact inv.launch (numbers.serves calm serves) fresh calm rfl rfl rfl rfl le_rfl
      (fun n seq => by cases seq) (fun e mem => .inl mem) (fun _ _ _ _ seq => by cases seq)
  | flightResumes b ok =>
    simp only [GhostRunner.Server.step] at taken
    split at taken <;> cases taken
    next f found => exact inv.flightResumes numbers found turn
  | flightCancelled b =>
    simp only [GhostRunner.Server.step] at taken
    split at taken <;> cases taken
    exact inv.flightCancelled _ uncut
  | streamOpens k =>
    simp only [GhostRunner.Server.step] at taken
    split at taken <;> cases taken
    exact inv.still alters ((setStream_serves s k _).trans (active_serves _ _)) rfl rfl
  | streamStops k =>
    simp only [GhostRunner.Server.step] at taken
    split at taken <;> cases taken
    exact inv.still alters (setStream_serves s k _) rfl rfl
  | streamCleared =>
    cases taken
    exact inv.still alters (active_serves s none) rfl rfl

/-- The tail that `_attach` is about to send is everything after `since`. -/
theorem Resumed.accepted {s : State} {c S key : Nat} {since nowMs pruneMs : Int}
    {entries : List Entry} (helloId : Option String) (numbers : Numbers s)
    (fresh : s.handlers c = .absent)
    (accepted : (bindSession s c (some (key,since)) nowMs pruneMs).2 = (S,some entries)) :
    Resumed c S since (attach s c helloId (some (key,since)) nowMs pruneMs) := by
  have bindings := numbers.loops.bindings
  have arrives := attach_arrives bindings fresh helloId (some (key,since)) nowMs pruneMs
  have asking : (bindSession s c (some (key,since)) nowMs pruneMs).2.2 = some entries :=
    congrArg Prod.snd accepted
  obtain ⟨_,_,S',asked,_,tail,bound⟩ :=
    bindSession_resumed bindings asking
  cases asked
  have same : S' = S ∧ entries = entries := by
    rw [bound] at accepted
    exact ⟨congrArg Prod.fst accepted,rfl⟩
  obtain ⟨rfl,_⟩ := same
  have attached : (attach s c helloId (some (key,since)) nowMs pruneMs).attached =
      Function.update s.attached S' (some c) := by
    change (bindSession s c (some (key,since)) nowMs pruneMs).1.attached = _
    rw [bound]
    rfl
  have handler := arrives.handler
  rw [accepted] at handler
  simp only [Option.getD_some] at handler
  obtain ⟨_,_,_,acked⟩ := arrives.acked
  rw [numbers.loops.silent c fresh,List.nil_append] at acked
  have nothing : seqs ((attach s c helloId (some (key,since)) nowMs pruneMs).wire c) = [] := by
    rw [acked]; rfl
  have whole := numbers.tracks.tail since pruneMs
  rw [tail] at whole
  refine ⟨?_,?_,?_,?_,?_,?_,?_⟩
  · intro S'' was
    rw [attached] at was
    by_contra other
    rw [Function.update_of_ne other] at was
    exact bindings.present S'' c was fresh
  · intro S'' held
    rw [handler] at held
    cases held
    rfl
  · rw [handler]; simp
  · rw [nothing]; exact List.Pairwise.nil
  · rw [nothing]; intro n mem; cases mem
  · rw [nothing]; intro _ _ _ m mem; cases mem
  · intro _ e mem late
    rw [arrives.published] at mem
    refine .inr (.inr ?_)
    rw [handler]
    change e ∈ entries
    rw [whole]
    exact List.mem_filter.mpr ⟨mem,by simpa using late⟩

/-- A connection whose resume is accepted gets every entry after `since` once and in order,
as long as no loop writes to it ahead of another and no broadcast is cut short. -/
theorem resumed_delivered (before after : List Op) (s t : State) (c S key : Nat)
    (since nowMs pruneMs : Int) (helloId : Option String) (entries : List Entry)
    (reached : run step init before = some s)
    (accepted : (bindSession s c (some (key,since)) nowMs pruneMs).2 = (S,some entries))
    (attached : step s (.attach c helloId (some (key,since)) nowMs pruneMs) = some t)
    (yields : Meets step (Yields c since) t after) :
    Throughout step (Delivered c S since) t after := by
  have numbers : Numbers s := run_invariant (fun _ _ _ inv taken => inv.step taken)
    Numbers.initial reached
  obtain ⟨_,_,_,_,_,same,fresh,rfl⟩ := attach_taken attached rfl
  cases same
  have start := Resumed.accepted helloId numbers fresh accepted
  have whole : ∀ (ops : List Op) (u : State), Numbers u → Resumed c S since u →
      Meets step (Yields c since) u ops → Throughout step (Delivered c S since) u ops := by
    intro ops
    induction ops with
    | nil => exact fun u _ resumed _ => resumed.delivered
    | cons op rest ih =>
      intro u numbers resumed yields
      refine ⟨resumed.delivered,?_⟩
      split
      · next v taken =>
        obtain ⟨now,later⟩ := (meets_cons_iff taken).mp yields
        exact ih v (numbers.step taken) (resumed.step numbers now taken) later
      · trivial
  exact whole after _ (numbers.step attached) start yields

def startedEvent (turn : Nat) : Envelope where
  payload := .turn .started .balloon 0 none
  turn := some turn

/-- The entry that a started event leaves in the log. -/
def startedEntry (turn seq : Nat) : Entry where
  env := { startedEvent turn with seq := some seq, ts := some 0 }
  seq := seq
  stamped := rfl

/-- Two turns start while the only client is away. -/
def missedTwo : List Op := [
  .attach 0 none none 0 0,
  .handlerResumes 0 true,
  .handlerEnds 0,
  .broadcast (startedEvent 7) 0 0,
  .broadcast (startedEvent 8) 0 0]

def clientReturns : Op := .attach 1 none (some (1,0)) 0 0

/-- A third turn starts while the replay of the first is suspended. -/
def startedDuringReplay : List Op := [
  .handlerResumes 1 true,
  .broadcast (startedEvent 9) 0 0,
  .handlerResumes 1 true]

theorem startedDuringReplay_outOfOrder :
    ∃ s t u, run step init missedTwo = some s ∧
      (bindSession s 1 (some (1,0)) 0 0).2 = (0,some [startedEntry 7 1,startedEntry 8 2]) ∧
      step s clientReturns = some t ∧ run step t startedDuringReplay = some u ∧
      seqs (u.wire 1) = [1,3,2] ∧ ¬Throughout step (Delivered 1 0 0) t startedDuringReplay := by
  have missed : ∃ s, run step init missedTwo = some s ∧
      ((bindSession s 1 (some (1,0)) 0 0).2 = (0,some [startedEntry 7 1,startedEntry 8 2]) ∧
        (run step s (clientReturns :: startedDuringReplay)).map
          (fun u => decide (seqs (u.wire 1) = [1,3,2])) = some true) :=
    exists_of_eval (by decide +kernel)
  obtain ⟨s,reached,accepted,eval⟩ := missed
  obtain ⟨u,later,order⟩ := exists_of_eval eval
  obtain ⟨t,attached,later⟩ := run_cons_iff.mp later
  refine ⟨s,t,u,reached,accepted,attached,later,order,?_⟩
  intro delivered
  have final := throughout_iff_prefix.mp delivered startedDuringReplay [] u
    (List.append_nil _).symm later
  have increasing := final.ordered
  rw [order] at increasing
  exact absurd increasing (by decide)

/-- The third turn starts when the replay has been sent. -/
def startedAfterReplay : List Op := [
  .handlerResumes 1 true,
  .handlerResumes 1 true,
  .handlerResumes 1 true,
  .broadcast (startedEvent 9) 0 0,
  .flightResumes 0 true]

theorem startedAfterReplay_delivered :
    ∃ s t, run step init missedTwo = some s ∧ step s clientReturns = some t ∧
      Throughout step (Delivered 1 0 0) t startedAfterReplay := by
  have missed : ∃ s, run step init missedTwo = some s ∧
      ((bindSession s 1 (some (1,0)) 0 0).2 = (0,some [startedEntry 7 1,startedEntry 8 2]) ∧
        (run step s [clientReturns]).map
          (fun t => decide (Meets step (Yields 1 0) t startedAfterReplay)) = some true) :=
    exists_of_eval (by decide +kernel)
  obtain ⟨s,reached,accepted,eval⟩ := missed
  obtain ⟨t,attached,yields⟩ := exists_of_eval eval
  obtain ⟨_,attached,last⟩ := run_cons_iff.mp attached
  cases last
  exact ⟨s,_,reached,attached,resumed_delivered missedTwo startedAfterReplay s _ 1 0 1 0 0 0 none _
    reached accepted attached yields⟩

end GhostRunner.Server
