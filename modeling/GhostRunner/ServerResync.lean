import Mathlib.Data.List.Infix
import GhostRunner.ServerLoops

/-! Token streams as a connection sees them. A delta is broadcast before `parts` and `seq`
take it in, so a snapshot sent while that broadcast is suspended lacks the delta, which
the connection may already have passed. -/
namespace GhostRunner

/-- The text and the number of a delta token of turn `k`'s stream. -/
def Payload.delta (k : Nat) : Payload → Option (String × Nat)
  | .token stream seq delta false _ none => if stream = streamId k then some (delta,seq) else none
  | _ => none

/-- The snapshot in a token of turn `k`'s stream. -/
def Payload.snapshot (k : Nat) : Payload → Option Snapshot
  | .token stream _ _ false _ (some snap) => if stream = streamId k then some snap else none
  | _ => none

namespace Server

open Machine

def Frame.delta (k : Nat) : Frame → Option (String × Nat)
  | .text env => env.payload.delta k
  | _ => none

def Frame.snapshot (k : Nat) : Frame → Option Snapshot
  | .text env => env.payload.snapshot k
  | _ => none

def Frame.midStream : Frame → Bool
  | .text env => Envelope.midStream env
  | _ => false

@[simp] theorem stamp_delta (S k : Nat) (frame : Frame) :
    (frame.stamp S).delta k = frame.delta k := by
  cases frame <;> rfl

@[simp] theorem stamp_snapshot (S k : Nat) (frame : Frame) :
    (frame.stamp S).snapshot k = frame.snapshot k := by
  cases frame <;> rfl

@[simp] theorem stamp_midStream (S : Nat) (frame : Frame) :
    (frame.stamp S).midStream = frame.midStream := by
  cases frame <;> rfl

theorem quiet_delta {frame : Frame} (quiet : frame.midStream = false) (k : Nat) :
    frame.delta k = none := by
  cases frame with
  | text env =>
    simp only [Frame.midStream,Envelope.midStream] at quiet
    simp only [Frame.delta]
    simp only [Payload.delta]
    split
    · next shape => rw [shape] at quiet; cases quiet
    · rfl
  | reply | binary => rfl

theorem quiet_snapshot {frame : Frame} (quiet : frame.midStream = false) (k : Nat) :
    frame.snapshot k = none := by
  cases frame with
  | text env =>
    simp only [Frame.midStream,Envelope.midStream] at quiet
    simp only [Frame.snapshot]
    simp only [Payload.snapshot]
    split
    · next shape => rw [shape] at quiet; cases quiet
    · rfl
  | reply | binary => rfl

/-- The delta tokens of a stream from number `base` on, as they were written. -/
def tokensFrom (k base : Nat) (frames : List Frame) : List (String × Nat) :=
  (frames.filterMap (Frame.delta k)).filter fun token => base ≤ token.2

theorem tokensFrom_none {k base : Nat} {frame : Frame} (frames : List Frame)
    (other : frame.delta k = none) :
    tokensFrom k base (frames ++ [frame]) = tokensFrom k base frames := by
  simp [tokensFrom,other]

theorem tokensFrom_delta {k base n : Nat} {text : String} {frame : Frame} (frames : List Frame)
    (token : frame.delta k = some (text,n)) (late : base ≤ n) :
    tokensFrom k base (frames ++ [frame]) = tokensFrom k base frames ++ [(text,n)] := by
  simp [tokensFrom,token,late]

/-- Every delta handed to broadcast so far. -/
def StreamRecord.deltas (r : StreamRecord) : List String := r.parts ++ r.inFlight.toList

/-- A delta of turn `k` is being broadcast and has yet to reach connection `w`. -/
def Due (s : State) (k w : Nat) : Prop :=
  ∃ b f, s.flights b = some f ∧ f.delta = some k ∧ ∃ S ∈ f.rest, s.wsOf S = some w

def Attached (s : State) (w : Nat) : Prop := ∃ S ∈ s.sessions, s.wsOf S = some w

/-- The snapshot holds the deltas below its base; the tokens written after it go on from
there in order; and they are complete for a connection that is still attached, but for
the delta that is due to it. -/
structure Follows (s : State) (k w : Nat) (snap : Snapshot) (after : List Frame) : Prop where
  within : snap.seqBase ≤ (s.streams k).parts.length
  text : snap.text = String.join ((s.streams k).parts.take snap.seqBase)
  order : tokensFrom k snap.seqBase after <+: (s.streams k).deltas.zipIdx.drop snap.seqBase
  due : Due s k w →
    tokensFrom k snap.seqBase after = (s.streams k).parts.zipIdx.drop snap.seqBase
  current : Attached s w → ¬Due s k w → (s.streams k).phase = .running →
    tokensFrom k snap.seqBase after = (s.streams k).deltas.zipIdx.drop snap.seqBase

/-- Wherever a snapshot stands on a connection, what follows it leaves no gap. -/
def NoGap (s : State) : Prop :=
  ∀ k w before frame after snap, s.wire w = before ++ frame :: after →
    frame.snapshot k = some snap → Follows s k w snap after

theorem Follows.transfer {s t : State} {k w : Nat} {snap : Snapshot} {before after : List Frame}
    (follows : Follows s k w snap before) (stream : t.streams k = s.streams k)
    (tokens : tokensFrom k snap.seqBase after = tokensFrom k snap.seqBase before)
    (due : Due t k w → Due s k w)
    (current : Attached t w → ¬Due t k w → Attached s w ∧ ¬Due s k w) :
    Follows t k w snap after where
  within := by rw [stream]; exact follows.within
  text := by rw [stream]; exact follows.text
  order := by rw [stream,tokens]; exact follows.order
  due owed := by rw [stream,tokens]; exact follows.due (due owed)
  current here passed runs := by
    rw [stream] at runs ⊢
    rw [tokens]
    exact follows.current (current here passed).1 (current here passed).2 runs

/-- The delta in flight, if there was one, has been taken into the record or is dropped. -/
theorem Follows.settle {s t : State} {k w : Nat} {snap : Snapshot} {after : List Frame}
    (follows : Follows s k w snap after) (parts : (s.streams k).parts <+: (t.streams k).parts)
    (deltas : (t.streams k).deltas = (s.streams k).deltas) (gone : ¬Due t k w)
    (passed : (t.streams k).phase = .running → Attached t w →
      (Attached s w ∧ ¬Due s k w ∧ (s.streams k).phase = .running) ∨ (s.streams k).deltas = []) :
    Follows t k w snap after where
  within := follows.within.trans parts.length_le
  text := by
    obtain ⟨more,split⟩ := parts
    rw [← split,List.take_append_of_le_length follows.within]
    exact follows.text
  order := by rw [deltas]; exact follows.order
  due owed := (gone owed).elim
  current here _ runs := by
    rw [deltas]
    rcases passed runs here with ⟨attached,notDue,ran⟩ | nothing
    · exact follows.current attached notDue ran
    · have order := follows.order
      rw [nothing] at order ⊢
      simpa using order

/-- What a written frame adds to the snapshots of a connection. -/
theorem snoc_split {frames before after : List Frame} {new frame : Frame}
    (split : frames ++ [new] = before ++ frame :: after) :
    (before = frames ∧ frame = new ∧ after = []) ∨
      ∃ rest, after = rest ++ [new] ∧ frames = before ++ frame :: rest := by
  rcases List.eq_nil_or_concat after with rfl | ⟨rest,last,rfl⟩
  · obtain ⟨rfl,same⟩ := List.append_inj' split rfl
    cases same
    exact .inl ⟨rfl,rfl,rfl⟩
  · have regroup : frames ++ [new] = (before ++ frame :: rest) ++ [last] := by
      rw [split]; simp
    obtain ⟨rfl,same⟩ := List.append_inj' regroup rfl
    cases same
    exact .inr ⟨rest,by simp,rfl⟩

/-! ## The invariant -/

structure Traffic (s : State) : Prop where
  loops : Loops s
  seq : ∀ k, (s.streams k).seq = (s.streams k).parts.length
  unopened : ∀ k, (s.streams k).phase = .unopened → (s.streams k).deltas = []
  flight : ∀ b f k, s.flights b = some f → f.delta = some k → (s.streams k).phase = .running ∧
    ∃ d, (s.streams k).inFlight = some d ∧
      f.frame = .text (deltaToken k (s.streams k).parts.length d)
  airborne : ∀ k d, (s.streams k).phase = .running → (s.streams k).inFlight = some d →
    ∃ b f, s.flights b = some f ∧ f.delta = some k
  one : ∀ b b' f f' k, s.flights b = some f → s.flights b' = some f' → f.delta = some k →
    f'.delta = some k → b = b'
  other : ∀ b f, s.flights b = some f → f.delta = none → f.frame.midStream = false
  entries : ∀ e ∈ s.log.replay.entries, Envelope.midStream e.env = false
  stateSnapshot : ∀ env ∈ s.log.stateSnapshot, Envelope.midStream env = false
  replays : ∀ c S via rest, s.handlers c = .replaying S via rest →
    ∀ e ∈ rest, Envelope.midStream e.env = false
  noGap : NoGap s

theorem Alters.due {s t : State} {loss : Loss} (alters : Alters s t loss)
    (flights : t.flights = s.flights) {k w : Nat} (owed : Due t k w) : Due s k w := by
  obtain ⟨b,f,found,own,S,mem,held⟩ := owed
  exact ⟨b,f,by rw [← flights]; exact found,own,S,mem,alters.wsOf_some held⟩

/-- A socket that is taken away from one session is bound to no other. -/
theorem Alters.current {s t : State} {loss : Loss} (inv : Bindings s) (alters : Alters s t loss)
    (flights : t.flights = s.flights) {k w : Nat} (here : Attached t w) (passed : ¬Due t k w) :
    Attached s w ∧ ¬Due s k w := by
  obtain ⟨S',mem',held'⟩ := here
  rw [alters.sessions] at mem'
  refine ⟨⟨S',mem',alters.wsOf_some held'⟩,?_⟩
  rintro ⟨b,f,found,own,S,mem,held⟩
  apply passed
  refine ⟨b,f,by rw [flights]; exact found,own,S,mem,?_⟩
  rw [alters.ws S]
  split
  · next taken =>
    have same := inv.single S taken.2 S' mem' w (inv.bound S w held)
      (inv.bound S' w (alters.wsOf_some held'))
    subst S'
    rw [alters.ws S,if_pos taken] at held'
    cases held'
  · exact held

/-- Steps of handlers that write nothing. -/
theorem Traffic.alters {s t : State} {loss : Loss} (inv : Traffic s) (alters : Alters s t loss)
    (flights : t.flights = s.flights) (nextFlight : t.nextFlight = s.nextFlight)
    (streams : t.streams = s.streams) (wire : t.wire = s.wire) (log : t.log.replay = s.log.replay)
    (stateSnapshot : t.log.stateSnapshot = s.log.stateSnapshot)
    (replays : ∀ c S via rest, t.handlers c = .replaying S via rest →
      ∀ e ∈ rest, Envelope.midStream e.env = false) : Traffic t where
  loops := inv.loops.alters alters flights nextFlight fun c _ => congrFun wire c
  seq := by rw [streams]; exact inv.seq
  unopened := by rw [streams]; exact inv.unopened
  flight := by rw [streams,flights]; exact inv.flight
  airborne := by rw [streams,flights]; exact inv.airborne
  one := by rw [flights]; exact inv.one
  other := by rw [flights]; exact inv.other
  entries := by rw [log]; exact inv.entries
  stateSnapshot := by rw [stateSnapshot]; exact inv.stateSnapshot
  replays := replays
  noGap k w before frame after snap split shape := by
    rw [wire] at split
    exact (inv.noGap k w before frame after snap split shape).transfer (by rw [streams]) rfl
      (alters.due flights) (alters.current inv.loops.bindings flights)

theorem Traffic.setHandler {s : State} {c S : Nat} {h : Handler} (inv : Traffic s)
    (held : (s.handlers c).session = some S) (kept : h.session = some S)
    (quiet : ∀ S via rest, h = .replaying S via rest → ∀ e ∈ rest, Envelope.midStream e.env = false) :
    Traffic (s.setHandler c h) := by
  refine inv.alters (setHandler_calm held kept) rfl rfl rfl rfl rfl rfl ?_
  intro d S' via rest at_
  by_cases own : d = c
  · subst d
    exact quiet S' via rest (by simpa [State.setHandler] using at_)
  · exact inv.replays d S' via rest (by simpa [State.setHandler,own] using at_)

theorem Traffic.crash {s : State} (inv : Traffic s) (c : Nat) :
    Traffic (GhostRunner.Server.crash s c) := by
  refine inv.alters (crash_alters s c) rfl rfl rfl rfl rfl rfl ?_
  intro d S via rest at_
  by_cases own : d = c
  · subst d; simp [GhostRunner.Server.crash,State.setHandler] at at_
  · exact inv.replays d S via rest (by simpa [GhostRunner.Server.crash,State.setHandler,own] using at_)

theorem Traffic.detach {s : State} (inv : Traffic s) (S : Nat) :
    Traffic (GhostRunner.Server.detach s S) := by
  obtain ⟨flights,nextFlight,wire,streams,log,handlers,_⟩ := detach_traffic s S
  exact inv.alters (detach_alters s S) flights nextFlight streams wire (by rw [log]) (by rw [log])
    (by rw [handlers]; exact inv.replays)

theorem Traffic.leave {s : State} (inv : Traffic s) (c S : Nat) :
    Traffic (GhostRunner.Server.leave s c S) :=
  (inv.detach S).crash c

theorem Traffic.markFailed {s : State} (inv : Traffic s) (w : Nat) : Traffic (s.markFailed w) :=
  inv.alters (markFailed_alters s w) rfl rfl rfl rfl rfl rfl inv.replays

theorem Traffic.nextSeq {s : State} (inv : Traffic s) :
    Traffic { s with log := s.log.nextSeqForResend.1 } :=
  inv.alters (log_calm s s.log.nextSeqForResend.1 s.published) rfl rfl rfl rfl rfl rfl inv.replays

/-- A frame that is no delta token. Where it is a snapshot, nothing follows it yet. -/
theorem Traffic.write {s : State} {w : Nat} {frame : Frame} (inv : Traffic s)
    (here : s.handlers w ≠ .absent) (plain : ∀ k, frame.delta k = none)
    (new : ∀ k snap, frame.snapshot k = some snap → Follows s k w snap []) :
    Traffic (s.write w frame) where
  loops := inv.loops.write here frame
  seq := inv.seq
  unopened := inv.unopened
  flight := inv.flight
  airborne := inv.airborne
  one := inv.one
  other := inv.other
  entries := inv.entries
  stateSnapshot := inv.stateSnapshot
  replays := inv.replays
  noGap k v before frame' after snap split shape := by
    by_cases same : v = w
    · subst v
      simp only [State.write,Function.update_self] at split
      rcases snoc_split split with ⟨_,rfl,rfl⟩ | ⟨rest,rfl,old⟩
      · exact (new k snap shape).transfer rfl rfl id fun here passed => ⟨here,passed⟩
      · exact (inv.noGap k w before frame' rest snap old shape).transfer rfl
          (tokensFrom_none rest (plain k)) id fun here passed => ⟨here,passed⟩
    · simp only [State.write,Function.update_of_ne same] at split
      exact (inv.noGap k v before frame' after snap split shape).transfer rfl rfl id
        fun here passed => ⟨here,passed⟩

theorem Traffic.writeQuiet {s : State} {S w : Nat} {frame : Frame} (inv : Traffic s)
    (held : s.wsOf S = some w) (quiet : frame.midStream = false) : Traffic (s.write w frame) :=
  inv.write (inv.loops.bound_present held) (quiet_delta quiet)
    fun k snap shape => by rw [quiet_snapshot quiet k] at shape; cases shape

/-- Flights that carry no delta come and go. -/
theorem Traffic.setFlight {s : State} {b : Nat} {flight : Option Flight} (inv : Traffic s)
    (known : b < s.nextFlight) (was : ∀ f ∈ s.flights b, f.delta = none)
    (now : ∀ f ∈ flight, f.delta = none ∧ f.frame.midStream = false ∧ Visits s f.rest) :
    Traffic (s.setFlight b flight) := by
  have same : ∀ b' f k, f.delta = some k →
      ((s.setFlight b flight).flights b' = some f ↔ s.flights b' = some f) := by
    intro b' f k own
    by_cases here : b' = b
    · subst b'
      simp only [State.setFlight,Function.update_self]
      constructor
      · intro found; have := (now f found).1; rw [own] at this; cases this
      · intro found; have := was f found; rw [own] at this; cases this
    · simp [State.setFlight,here]
  refine ⟨inv.loops.setFlight known fun f mem => (now f mem).2.2,inv.seq,inv.unopened,?_,?_,?_,?_,
    inv.entries,inv.stateSnapshot,inv.replays,?_⟩
  · intro b' f k found own
    exact inv.flight b' f k ((same b' f k own).mp found) own
  · intro k d runs inFlight
    obtain ⟨b',f,found,own⟩ := inv.airborne k d runs inFlight
    exact ⟨b',f,(same b' f k own).mpr found,own⟩
  · intro b' b'' f f' k found found' own own'
    exact inv.one b' b'' f f' k ((same b' f k own).mp found) ((same b'' f' k own').mp found')
      own own'
  · intro b' f found own
    by_cases here : b' = b
    · subst b'; exact (now f (by simpa [State.setFlight] using found)).2.1
    · exact inv.other b' f (by simpa [State.setFlight,here] using found) own
  · intro k w before frame after snap split shape
    have due : Due (s.setFlight b flight) k w ↔ Due s k w := by
      constructor
      · rintro ⟨b',f,found,own,rest⟩; exact ⟨b',f,(same b' f k own).mp found,own,rest⟩
      · rintro ⟨b',f,found,own,rest⟩; exact ⟨b',f,(same b' f k own).mpr found,own,rest⟩
    exact (inv.noGap k w before frame after snap split shape).transfer rfl rfl due.mp
      fun here passed => ⟨here,fun owed => passed (due.mpr owed)⟩

theorem Traffic.flyQuiet {s : State} {b : Nat} {frame : Frame} {todo : List Nat} (inv : Traffic s)
    (known : b < s.nextFlight) (was : ∀ f ∈ s.flights b, f.delta = none)
    (quiet : frame.midStream = false) (visits : Visits s todo) :
    Traffic (fly s b frame none todo) := by
  rcases fly_cases s b frame none todo with ⟨_,eq⟩ | ⟨skipped,S,w,rest,split,_,held,eq⟩ <;> rw [eq]
  · exact inv.setFlight known was (by intro f mem; cases mem)
  · have wrote : Traffic (s.write w (frame.stamp S)) := inv.writeQuiet held (by simpa using quiet)
    refine wrote.setFlight known was ?_
    intro f mem
    cases Option.mem_some.mp mem
    rw [split] at visits
    exact ⟨rfl,quiet,visits.tail.transfer rfl rfl⟩

theorem Traffic.count {s : State} (inv : Traffic s) :
    Traffic { s with nextFlight := s.nextFlight + 1 } :=
  { inv with
    loops := inv.loops.count
    noGap := fun k w before frame after snap split shape =>
      (inv.noGap k w before frame after snap split shape).transfer rfl rfl id
        fun here passed => ⟨here,passed⟩ }

theorem Traffic.launchQuiet {s : State} {frame : Frame} (inv : Traffic s)
    (quiet : frame.midStream = false) : Traffic (launch s frame none) := by
  refine inv.count.flyQuiet (Nat.lt_succ_self _) ?_ quiet (Visits.sessions inv.count.loops.bindings)
  intro f found
  have none := inv.loops.fresh s.nextFlight le_rfl
  rw [show s.flights s.nextFlight = some f from found] at none
  cases none

/-! ## The broadcast of a delta -/

theorem deltaToken_delta (k k' n : Nat) (d : String) :
    (Frame.text (deltaToken k n d)).delta k' = if k' = k then some (d,n) else none := by
  by_cases same : k' = k
  · simp [Frame.delta,Payload.delta,deltaToken,same]
  · simp [Frame.delta,Payload.delta,deltaToken,streamId_inj,same,Ne.symm same]

theorem due_own {s : State} {b k v : Nat} {f : Flight} (inv : Traffic s)
    (found : s.flights b = some f) (own : f.delta = some k) :
    Due s k v ↔ ∃ S ∈ f.rest, s.wsOf S = some v := by
  constructor
  · rintro ⟨b',f',found',own',rest⟩
    have same := inv.one b' b f' f k found' found own' own
    subst b'
    rw [found] at found'
    cases found'
    exact rest
  · exact fun rest => ⟨b,f,found,own,rest⟩

theorem drop_zipIdx_snoc {parts : List String} {base : Nat} (d : String)
    (within : base ≤ parts.length) :
    (parts ++ [d]).zipIdx.drop base = parts.zipIdx.drop base ++ [(d,parts.length)] := by
  rw [List.zipIdx_append,List.drop_append_of_le_length (by simpa using within)]
  simp

/-- The broadcast `b` of a delta is over, if there was one, and the record is now `r`. Unless
the stream has stopped, the broadcast must have reached every connection. -/
theorem Traffic.settle {s : State} {b k : Nat} {r : StreamRecord} (inv : Traffic s)
    (loops : Loops (s.setFlight b none)) (own : ∀ f ∈ s.flights b, f.delta = some k)
    (only : ∀ b' f, s.flights b' = some f → f.delta = some k → b' = b)
    (seq : r.seq = r.parts.length) (open_ : r.phase ≠ .unopened)
    (parts : (s.streams k).parts <+: r.parts) (deltas : r.deltas = (s.streams k).deltas)
    (landed : r.phase = .running → r.inFlight = none)
    (passed : r.phase = .running → (∀ w, ¬Due s k w) ∧
      ((s.streams k).phase = .running ∨ (s.streams k).deltas = [])) :
    Traffic ((s.setFlight b none).setStream k r) := by
  have rest : ∀ b' f, ((s.setFlight b none).setStream k r).flights b' = some f →
      b' ≠ b ∧ s.flights b' = some f := by
    intro b' f found
    by_cases here : b' = b
    · subst b'; simp [State.setFlight,State.setStream] at found
    · exact ⟨here,by simpa [State.setFlight,State.setStream,here] using found⟩
  have kept : ∀ b' f k', k' ≠ k → s.flights b' = some f → f.delta = some k' →
      ((s.setFlight b none).setStream k r).flights b' = some f := by
    intro b' f k' same found own'
    have other : b' ≠ b := by
      rintro rfl
      rw [own f found] at own'
      cases own'
      exact same rfl
    simpa [State.setFlight,State.setStream,other] using found
  refine ⟨loops.alters (setStream_calm _ k r) rfl rfl fun _ _ => rfl,?_,?_,?_,?_,?_,?_,inv.entries,
    inv.stateSnapshot,inv.replays,?_⟩
  · intro k'
    by_cases same : k' = k
    · subst k'; simpa [State.setStream] using seq
    · simpa [State.setStream,State.setFlight,same] using inv.seq k'
  · intro k' closed
    by_cases same : k' = k
    · subst k'; simp [State.setStream,open_] at closed
    · simp only [State.setStream,Function.update_of_ne same] at closed ⊢
      exact inv.unopened k' closed
  · intro b' f k' found own'
    obtain ⟨other,old⟩ := rest b' f found
    have same : k' ≠ k := by rintro rfl; exact other (only b' f old own')
    simp only [State.setStream,Function.update_of_ne same]
    exact inv.flight b' f k' old own'
  · intro k' d runs inFlight
    by_cases same : k' = k
    · subst k'
      simp only [State.setStream,Function.update_self] at runs inFlight
      rw [landed runs] at inFlight
      cases inFlight
    · simp only [State.setStream,Function.update_of_ne same] at runs inFlight
      obtain ⟨b',f,found,own'⟩ := inv.airborne k' d runs inFlight
      exact ⟨b',f,kept b' f k' same found own',own'⟩
  · intro b₁ b₂ f₁ f₂ k' found₁ found₂
    exact inv.one b₁ b₂ f₁ f₂ k' (rest b₁ f₁ found₁).2 (rest b₂ f₂ found₂).2
  · intro b' f found
    exact inv.other b' f (rest b' f found).2
  · intro k' w before frame after snap split shape
    have follows := inv.noGap k' w before frame after snap split shape
    by_cases same : k' = k
    · subst k'
      refine follows.settle (by simpa [State.setStream] using parts)
        (by simpa [State.setStream] using deltas) ?_ fun runs here => ?_
      · rintro ⟨b',f,found,own',_⟩
        exact (rest b' f found).1 (only b' f (rest b' f found).2 own')
      · simp only [State.setStream,Function.update_self] at runs
        obtain ⟨notDue,ran⟩ := passed runs
        exact ran.imp (fun ran => ⟨here,notDue w,ran⟩) id
    · refine follows.transfer (by simp [State.setStream,State.setFlight,same]) rfl ?_ ?_
      · rintro ⟨b',f,found,owed⟩
        exact ⟨b',f,(rest b' f found).2,owed⟩
      · refine fun here passed => ⟨here,?_⟩
        rintro ⟨b',f,found,own',owed⟩
        exact passed ⟨b',f,kept b' f k' same found own',own',owed⟩

/-- The broadcast of a delta has reached every connection: the record takes the delta in. -/
theorem Traffic.landDelta {s : State} {b k : Nat} {f : Flight} (inv : Traffic s)
    (found : s.flights b = some f) (own : f.delta = some k) (idle : ∀ S ∈ f.rest, s.wsOf S = none) :
    Traffic (land (s.setFlight b none) (some k)) := by
  obtain ⟨runs,d,inFlight,_⟩ := inv.flight b f k found own
  have landed : land (s.setFlight b none) (some k) = (s.setFlight b none).setStream k
      { s.streams k with
        parts := (s.streams k).parts ++ [d], seq := (s.streams k).seq + 1, inFlight := none } := by
    simp [land,State.setFlight,inFlight]
  rw [landed]
  refine inv.settle (inv.loops.setFlight (inv.loops.flight_known found)
    fun _ mem => by cases mem) ?_ ?_ ?_ ?_ ?_ ?_ (fun _ => rfl) ?_
  · intro f' found'
    rw [Option.mem_def,found] at found'
    cases found'
    exact own
  · intro b' f' found' own'
    exact inv.one b' b f' f k found' found own' own
  · simp [inv.seq k]
  · simp [runs]
  · exact List.prefix_append _ _
  · simp [StreamRecord.deltas,inFlight]
  · refine fun _ => ⟨?_,.inl runs⟩
    intro w owed
    obtain ⟨S,mem,held⟩ := (due_own inv found own).mp owed
    rw [idle S mem] at held
    cases held

/-- Between two deltas no fan-out carries one. -/
theorem Traffic.untouched {s : State} {k b : Nat} {f : Flight} (inv : Traffic s)
    (between : (s.streams k).inFlight = none) (found : s.flights b = some f) :
    f.delta ≠ some k := by
  intro own
  obtain ⟨_,d,inFlight,_⟩ := inv.flight b f k found own
  rw [between] at inFlight
  cases inFlight

theorem Traffic.notDue {s : State} {k : Nat} (inv : Traffic s)
    (between : (s.streams k).inFlight = none) (w : Nat) : ¬Due s k w := by
  rintro ⟨b,f,found,own,_⟩
  exact inv.untouched between found own

/-- A stream opens or stops while none of its deltas is being broadcast. -/
theorem Traffic.setPhase {s : State} {k : Nat} {r : StreamRecord} (inv : Traffic s)
    (between : (s.streams k).inFlight = none) (seq : r.seq = (s.streams k).seq)
    (open_ : r.phase ≠ .unopened) (parts : r.parts = (s.streams k).parts)
    (landed : r.inFlight = none) (runs : r.phase = .running → (s.streams k).deltas = []) :
    Traffic (s.setStream k r) := by
  have fresh := inv.loops.fresh s.nextFlight le_rfl
  have same : s.setFlight s.nextFlight none = s := by
    simp only [State.setFlight]
    rw [← fresh,Function.update_eq_self]
  have settled : Traffic ((s.setFlight s.nextFlight none).setStream k r) := by
    refine inv.settle (by rw [same]; exact inv.loops) ?_ ?_ ?_ open_ ?_ ?_ (fun _ => landed) ?_
    · intro f found; rw [fresh] at found; cases found
    · intro b f found own; exact (inv.untouched between found own).elim
    · rw [seq,parts]; exact inv.seq k
    · rw [parts]
    · simp [StreamRecord.deltas,parts,landed,between]
    · exact fun running => ⟨inv.notDue between,.inr (runs running)⟩
  rwa [same] at settled

section
variable {s : State} {b k S w : Nat} {f : Flight} {skipped rest : List Nat}

/-- The broadcast has written its frame for session `S`, and has yet to visit `rest`. -/
def written (s : State) (b S w : Nat) (f : Flight) (rest : List Nat) : State :=
  (s.write w (f.frame.stamp S)).setFlight b (some ⟨f.frame,S,w,rest,f.delta⟩)

@[simp] theorem written_self : (written s b S w f rest).flights b =
    some ⟨f.frame,S,w,rest,f.delta⟩ := by
  simp [written,State.setFlight]

@[simp] theorem written_other {b' : Nat} (other : b' ≠ b) :
    (written s b S w f rest).flights b' = s.flights b' := by
  simp [written,State.setFlight,State.write,other]

/-- Every flight is an old one, but for `b`, which has the same delta and fewer to visit. -/
theorem written_flights {b' : Nat} {f' : Flight}
    (found : (written s b S w f rest).flights b' = some f') :
    (b' ≠ b ∧ s.flights b' = some f') ∨ (b' = b ∧ f' = ⟨f.frame,S,w,rest,f.delta⟩) := by
  by_cases same : b' = b
  · subst b'
    exact .inr ⟨rfl,by simpa [eq_comm] using found⟩
  · exact .inl ⟨same,by simpa [same] using found⟩

theorem written_kept (found : s.flights b = some f) {b' : Nat} {f' : Flight}
    (old : s.flights b' = some f') :
    ∃ f'', (written s b S w f rest).flights b' = some f'' ∧ f''.delta = f'.delta := by
  by_cases same : b' = b
  · subst b'
    rw [found] at old
    cases old
    exact ⟨_,written_self,rfl⟩
  · exact ⟨f',by rw [written_other same]; exact old,rfl⟩

/-- The delta is still due to those that are left to visit. -/
theorem Traffic.written_due (inv : Traffic s) (found : s.flights b = some f)
    (own : f.delta = some k) {v : Nat} :
    Due (written s b S w f rest) k v ↔ ∃ S' ∈ rest, s.wsOf S' = some v := by
  constructor
  · rintro ⟨b',f',found',own',owed⟩
    rcases written_flights found' with ⟨other,old⟩ | ⟨_,rfl⟩
    · exact (other (inv.one b' b f' f k old found own' own)).elim
    · exact owed
  · exact fun owed => ⟨b,_,written_self,own,owed⟩

theorem written_due_other (found : s.flights b = some f) (own : f.delta = some k) {k' v : Nat}
    (other : k' ≠ k) : Due (written s b S w f rest) k' v ↔ Due s k' v := by
  have differs : f.delta ≠ some k' := by
    rw [own]
    rintro same
    cases same
    exact other rfl
  constructor
  · rintro ⟨b',f',found',own',owed⟩
    rcases written_flights found' with ⟨_,old⟩ | ⟨_,rfl⟩
    · exact ⟨b',f',old,own',owed⟩
    · exact (differs own').elim
  · rintro ⟨b',f',old,own',owed⟩
    have here : b' ≠ b := by
      rintro rfl
      rw [found] at old
      cases old
      exact differs own'
    exact ⟨b',f',by rw [written_other here]; exact old,own',owed⟩

/-- The delta goes on from the tokens of the connection it is written to, and is not due
there again. -/
theorem Traffic.written_follows (inv : Traffic s) (found : s.flights b = some f)
    (own : f.delta = some k) (split : f.rest = skipped ++ S :: rest) (held : s.wsOf S = some w)
    {snap : Snapshot} {after : List Frame} (follows : Follows s k w snap after) :
    Follows (written s b S w f rest) k w snap (after ++ [f.frame.stamp S]) := by
  obtain ⟨_,d,inFlight,shape⟩ := inv.flight b f k found own
  have visits := inv.loops.visits b f found
  rw [split] at visits
  have owed : Due s k w := (due_own inv found own).mpr ⟨S,by simp [split],held⟩
  have token : (f.frame.stamp S).delta k = some (d,(s.streams k).parts.length) := by
    rw [stamp_delta,shape,deltaToken_delta,if_pos rfl]
  have streamed : (s.streams k).deltas = (s.streams k).parts ++ [d] := by
    simp [StreamRecord.deltas,inFlight]
  have complete : tokensFrom k snap.seqBase (after ++ [f.frame.stamp S]) =
      (s.streams k).deltas.zipIdx.drop snap.seqBase := by
    rw [tokensFrom_delta after token follows.within,follows.due owed,streamed,
      drop_zipIdx_snoc d follows.within]
  refine ⟨follows.within,follows.text,?_,?_,fun _ _ _ => complete⟩
  · rw [complete]; exact List.prefix_rfl
  · intro again
    obtain ⟨S',mem,held'⟩ := (inv.written_due found own).mp again
    have same := visits.single S (by simp) S' (by simp [mem]) w
      (inv.loops.bindings.bound S w held) (inv.loops.bindings.bound S' w held')
    subst S'
    have nodup := (List.nodup_append.mp visits.nodup).2.1
    exact ((List.nodup_cons.mp nodup).1 mem).elim

/-- To the other connections the delta is due as before. -/
theorem Traffic.written_still (inv : Traffic s) (found : s.flights b = some f)
    (own : f.delta = some k) (split : f.rest = skipped ++ S :: rest)
    (idle : ∀ S' ∈ skipped, s.wsOf S' = none) (held : s.wsOf S = some w) {v : Nat}
    (there : v ≠ w) : Due (written s b S w f rest) k v ↔ Due s k v := by
  rw [inv.written_due found own,due_own inv found own,split]
  constructor
  · rintro ⟨S',mem,held'⟩; exact ⟨S',by simp [mem],held'⟩
  · rintro ⟨S',mem,held'⟩
    rcases List.mem_append.mp mem with passed | mem
    · rw [idle S' passed] at held'; cases held'
    · rcases List.mem_cons.mp mem with rfl | mem
      · rw [held] at held'; cases held'; exact (there rfl).elim
      · exact ⟨S',mem,held'⟩

theorem Traffic.written_noGap (inv : Traffic s) (found : s.flights b = some f)
    (own : f.delta = some k) (split : f.rest = skipped ++ S :: rest)
    (idle : ∀ S' ∈ skipped, s.wsOf S' = none) (held : s.wsOf S = some w) :
    NoGap (written s b S w f rest) := by
  obtain ⟨_,d,_,shape⟩ := inv.flight b f k found own
  intro k' v before frame after snap split' shape'
  by_cases there : v = w
  · subst v
    simp only [written,State.setFlight,State.write,Function.update_self] at split'
    rcases snoc_split split' with ⟨_,rfl,_⟩ | ⟨after,rfl,old⟩
    · rw [stamp_snapshot,shape] at shape'; cases shape'
    · have follows := inv.noGap k' w before frame after snap old shape'
      by_cases same : k' = k
      · subst k'; exact inv.written_follows found own split held follows
      · have plain : (f.frame.stamp S).delta k' = none := by
          rw [stamp_delta,shape,deltaToken_delta,if_neg same]
        have due : Due (written s b S w f rest) k' w ↔ Due s k' w :=
          written_due_other found own same
        exact follows.transfer rfl (tokensFrom_none after plain) due.mp
          fun attached passed => ⟨attached,fun owed => passed (due.mpr owed)⟩
  · simp only [written,State.setFlight,State.write,Function.update_of_ne there] at split'
    have follows := inv.noGap k' v before frame after snap split' shape'
    have due : Due (written s b S w f rest) k' v ↔ Due s k' v := by
      by_cases same : k' = k
      · subst k'; exact inv.written_still found own split idle held there
      · exact written_due_other found own same
    exact follows.transfer rfl rfl due.mp
      fun attached passed => ⟨attached,fun owed => passed (due.mpr owed)⟩

/-- The delta is written to the next connection it is due to. -/
theorem Traffic.writeDelta (inv : Traffic s) (found : s.flights b = some f)
    (own : f.delta = some k) (split : f.rest = skipped ++ S :: rest)
    (idle : ∀ S' ∈ skipped, s.wsOf S' = none) (held : s.wsOf S = some w) :
    Traffic (written s b S w f rest) := by
  have loops : Loops (written s b S w f rest) := by
    refine (inv.loops.write (inv.loops.bound_present held) _).setFlight
      (inv.loops.flight_known found) ?_
    intro f' mem
    cases Option.mem_some.mp mem
    have visits := inv.loops.visits b f found
    rw [split] at visits
    exact visits.tail.transfer rfl rfl
  refine ⟨loops,inv.seq,inv.unopened,?_,?_,?_,?_,inv.entries,inv.stateSnapshot,inv.replays,
    inv.written_noGap found own split idle held⟩
  · intro b' f' k' found' own'
    rcases written_flights found' with ⟨_,old⟩ | ⟨_,rfl⟩
    · exact inv.flight b' f' k' old own'
    · exact inv.flight b f k' found own'
  · intro k' d' runs' inFlight'
    obtain ⟨b',f',old,own'⟩ := inv.airborne k' d' runs' inFlight'
    obtain ⟨f'',found',same⟩ := written_kept found old
    exact ⟨b',f'',found',same.trans own'⟩
  · intro b₁ b₂ f₁ f₂ k' found₁ found₂ own₁ own₂
    rcases written_flights found₁ with ⟨_,old₁⟩ | ⟨rfl,rfl⟩ <;>
      rcases written_flights found₂ with ⟨_,old₂⟩ | ⟨rfl,rfl⟩
    · exact inv.one b₁ b₂ f₁ f₂ k' old₁ old₂ own₁ own₂
    · exact inv.one b₁ b₂ f₁ f k' old₁ found own₁ own₂
    · exact inv.one b₁ b₂ f f₂ k' found old₂ own₁ own₂
    · rfl
  · intro b' f' found' quiet
    rcases written_flights found' with ⟨_,old⟩ | ⟨_,rfl⟩
    · exact inv.other b' f' old quiet
    · exact inv.other b f found quiet

end

theorem Traffic.flyDelta {s : State} {b k : Nat} {f : Flight} (inv : Traffic s)
    (found : s.flights b = some f) (own : f.delta = some k) :
    Traffic (fly s b f.frame (some k) f.rest) := by
  rcases fly_cases s b f.frame (some k) f.rest with
    ⟨idle,eq⟩ | ⟨skipped,S,w,rest,split,idle,held,eq⟩ <;> rw [eq]
  · exact inv.landDelta found own idle
  · rw [← own]
    exact inv.writeDelta found own split idle held

section
variable {s : State} {k : Nat} {d : String}

/-- The fan-out of a delta before its first write. -/
def deltaFlight (s : State) (k : Nat) (d : String) : Flight :=
  ⟨.text (deltaToken k (s.streams k).seq d),0,0,s.sessions,some k⟩

/-- The delta is in flight, and its fan-out has yet to visit every session. -/
def started (s : State) (k : Nat) (d : String) : State :=
  ({ s.setStream k { s.streams k with inFlight := some d } with
    nextFlight := s.nextFlight + 1 } : State).setFlight s.nextFlight (some (deltaFlight s k d))

@[simp] theorem started_own : (started s k d).streams k = { s.streams k with inFlight := some d } := by
  simp [started,State.setFlight,State.setStream]

@[simp] theorem started_streams {k' : Nat} (other : k' ≠ k) :
    (started s k d).streams k' = s.streams k' := by
  simp [started,State.setFlight,State.setStream,other]

@[simp] theorem started_self : (started s k d).flights s.nextFlight = some (deltaFlight s k d) := by
  simp [started,State.setFlight]

theorem started_flights {b : Nat} {f : Flight} (found : (started s k d).flights b = some f) :
    s.flights b = some f ∨ b = s.nextFlight ∧ f = deltaFlight s k d := by
  by_cases new : b = s.nextFlight
  · subst b
    exact .inr ⟨rfl,by simpa [eq_comm] using found⟩
  · exact .inl (by simpa [started,State.setFlight,State.setStream,new] using found)

theorem Traffic.started_kept (inv : Traffic s) {b : Nat} {f : Flight}
    (found : s.flights b = some f) : (started s k d).flights b = some f := by
  have old : b ≠ s.nextFlight := by
    rintro rfl
    rw [inv.loops.fresh s.nextFlight le_rfl] at found
    cases found
  simpa [started,State.setFlight,State.setStream,old] using found

theorem Traffic.started_due (inv : Traffic s) (between : (s.streams k).inFlight = none) {w : Nat} :
    Due (started s k d) k w ↔ Attached s w := by
  constructor
  · rintro ⟨b,f,found,own,S,mem,held⟩
    rcases started_flights found with old | ⟨_,rfl⟩
    · exact (inv.untouched between old own).elim
    · exact ⟨S,mem,held⟩
  · rintro ⟨S,mem,held⟩
    exact ⟨s.nextFlight,_,started_self,rfl,S,mem,held⟩

theorem Traffic.started_due_other (inv : Traffic s) {k' w : Nat} (other : k' ≠ k) :
    Due (started s k d) k' w ↔ Due s k' w := by
  constructor
  · rintro ⟨b,f,found,own,owed⟩
    rcases started_flights found with old | ⟨_,rfl⟩
    · exact ⟨b,f,old,own,owed⟩
    · cases own; exact (other rfl).elim
  · rintro ⟨b,f,found,owed⟩
    exact ⟨b,f,inv.started_kept found,owed⟩

theorem Traffic.started_noGap (inv : Traffic s) (runs : (s.streams k).phase = .running)
    (between : (s.streams k).inFlight = none) : NoGap (started s k d) := by
  intro k' w before frame after snap split shape
  have follows := inv.noGap k' w before frame after snap split shape
  by_cases own : k' = k
  · subst k'
    have handed : (s.streams k).deltas = (s.streams k).parts := by
      simp [StreamRecord.deltas,between]
    have longer : ((started s k d).streams k).deltas = (s.streams k).parts ++ [d] := by
      simp [StreamRecord.deltas]
    refine ⟨?_,?_,?_,?_,?_⟩
    · rw [started_own]; exact follows.within
    · rw [started_own]; exact follows.text
    · have order := follows.order
      rw [handed] at order
      rw [longer,drop_zipIdx_snoc d follows.within]
      exact order.trans (List.prefix_append _ _)
    · intro owed
      have complete := follows.current ((inv.started_due between).mp owed) (inv.notDue between w) runs
      rw [started_own]
      rw [handed] at complete
      exact complete
    · intro here passed
      exact (passed ((inv.started_due between).mpr here)).elim
  · have due : Due (started s k d) k' w ↔ Due s k' w := inv.started_due_other own
    exact follows.transfer (started_streams own) rfl due.mp
      fun here passed => ⟨here,fun owed => passed (due.mpr owed)⟩

/-- A delta that is about to be broadcast is due to every attached connection. -/
theorem Traffic.startDelta (inv : Traffic s) (runs : (s.streams k).phase = .running)
    (between : (s.streams k).inFlight = none) : Traffic (started s k d) := by
  have loops : Loops (started s k d) := by
    have opened := inv.loops.alters (setStream_calm s k { s.streams k with inFlight := some d })
      rfl rfl fun _ _ => rfl
    refine opened.count.setFlight (Nat.lt_succ_self _) ?_
    intro f mem
    cases Option.mem_some.mp mem
    exact Visits.sessions opened.count.bindings
  refine ⟨loops,?_,?_,?_,?_,?_,?_,inv.entries,inv.stateSnapshot,inv.replays,
    inv.started_noGap runs between⟩
  · intro k'
    by_cases own : k' = k
    · subst k'; rw [started_own]; exact inv.seq k
    · rw [started_streams own]; exact inv.seq k'
  · intro k' closed
    by_cases own : k' = k
    · subst k'; rw [started_own,runs] at closed; cases closed
    · rw [started_streams own] at closed ⊢; exact inv.unopened k' closed
  · intro b f k' found own
    rcases started_flights found with old | ⟨_,rfl⟩
    · have other : k' ≠ k := by rintro rfl; exact inv.untouched between old own
      rw [started_streams other]
      exact inv.flight b f k' old own
    · cases own
      rw [started_own]
      exact ⟨runs,d,rfl,by rw [← inv.seq k]; rfl⟩
  · intro k' d' runs' inFlight'
    by_cases own : k' = k
    · subst k'; exact ⟨s.nextFlight,_,started_self,rfl⟩
    · rw [started_streams own] at runs' inFlight'
      obtain ⟨b,f,found,turn⟩ := inv.airborne k' d' runs' inFlight'
      exact ⟨b,f,inv.started_kept found,turn⟩
  · intro b₁ b₂ f₁ f₂ k' found₁ found₂ own₁ own₂
    rcases started_flights found₁ with old₁ | ⟨new₁,rfl⟩ <;>
      rcases started_flights found₂ with old₂ | ⟨new₂,rfl⟩
    · exact inv.one b₁ b₂ f₁ f₂ k' old₁ old₂ own₁ own₂
    · cases own₂; exact (inv.untouched between old₁ own₁).elim
    · cases own₁; exact (inv.untouched between old₂ own₂).elim
    · exact new₁.trans new₂.symm
  · intro b f found quiet
    rcases started_flights found with old | ⟨_,rfl⟩
    · exact inv.other b f old quiet
    · cases quiet

theorem Traffic.onDelta (inv : Traffic s) (d : String) (runs : (s.streams k).phase = .running)
    (between : (s.streams k).inFlight = none) : Traffic (GhostRunner.Server.onDelta s k d) := by
  have flown := (inv.startDelta (d := d) runs between).flyDelta started_self rfl
  simp only [started] at flown
  rw [fly_setFlight] at flown
  exact flown

end

theorem Traffic.flightResumes {s : State} {b : Nat} {f : Flight} (inv : Traffic s)
    (found : s.flights b = some f) (ok : Bool) :
    Traffic (GhostRunner.Server.flightResumes s b f ok) := by
  have flies : ∀ u : State, Traffic u → u.flights = s.flights → u.nextFlight = s.nextFlight →
      Traffic (fly u b f.frame f.delta f.rest) := by
    intro u traffic flights nextFlight
    have here : u.flights b = some f := by rw [flights]; exact found
    cases own : f.delta with
    | some k => exact traffic.flyDelta here own
    | none =>
      refine traffic.flyQuiet (traffic.loops.flight_known here) ?_ (inv.other b f found own)
        (traffic.loops.visits b f here)
      · intro f' mem
        rw [Option.mem_def,here] at mem
        cases mem
        exact own
  cases ok with
  | true => exact flies s inv rfl rfl
  | false =>
    have kept : ∀ u : State, (GhostRunner.Server.detach u f.session).flights = u.flights ∧
        (GhostRunner.Server.detach u f.session).nextFlight = u.nextFlight := by
      intro u
      simp only [GhostRunner.Server.detach]
      split <;> exact ⟨rfl,rfl⟩
    exact flies _ ((inv.markFailed f.via).detach f.session) (kept _).1 (kept _).2

theorem Traffic.flightCancelled {s : State} {b : Nat} {f : Flight} (inv : Traffic s)
    (found : s.flights b = some f) : Traffic (GhostRunner.Server.flightCancelled s b f) := by
  simp only [GhostRunner.Server.flightCancelled]
  cases own : f.delta with
  | some k =>
    refine inv.settle (inv.loops.setFlight (inv.loops.flight_known found)
      fun _ mem => by cases mem) ?_ ?_ (inv.seq k) (by simp) List.prefix_rfl rfl
      (fun runs => by cases runs) (fun runs => by cases runs)
    · intro f' found'
      rw [Option.mem_def,found] at found'
      cases found'
      exact own
    · intro b' f' found' own'
      exact inv.one b' b f' f k found' found own' own
  | none =>
    refine inv.setFlight (inv.loops.flight_known found) ?_ (fun f' mem => by cases mem)
    intro f' found'
    rw [Option.mem_def,found] at found'
    cases found'
    exact own

/-! ## Snapshots -/

/-- The connection to which a label sends the snapshot of the active stream. -/
def snapshotTo (s : State) : Op → Option Nat
  | .handlerResumes c true =>
    match s.handlers c with
    | .replaying S _ [] =>
      if s.log.stateSnapshot = none ∧ S ∈ s.sessions then s.wsOf S else none
    | .resending S _ => if S ∈ s.sessions then s.wsOf S else none
    | _ => none
  | .streamSync c stream =>
    match s.handlers c with
    | .serving S =>
      if s.active.map streamId = some stream ∧ S ∈ s.sessions then s.wsOf S else none
    | _ => none
  | _ => none

/-- No delta of the active stream is being broadcast, unless it is still due to `w`. -/
def Between (s : State) (w : Nat) : Prop :=
  ∀ k ∈ s.active, ∀ b < s.nextFlight, ∀ f ∈ s.flights b, f.delta = some k →
    ∃ S ∈ f.rest, s.wsOf S = some w

def SyncsBetween (s : State) (op : Op) : Prop := ∀ w ∈ snapshotTo s op, Between s w

instance (s : State) (w : Nat) : Decidable (Between s w) := by unfold Between; infer_instance

instance (s : State) (op : Op) : Decidable (SyncsBetween s op) := by
  unfold SyncsBetween; infer_instance

theorem snapshotToken_snapshot (s : State) (k k' : Nat) (snap : Snapshot)
    (shape : (Frame.text (snapshotToken s k)).snapshot k' = some snap) :
    k' = k ∧ snap = ⟨(s.streams k).seq,String.join (s.streams k).parts⟩ := by
  simp only [Frame.snapshot,Payload.snapshot,snapshotToken,streamId_inj] at shape
  split at shape
  · next same => cases shape; exact ⟨same.symm,rfl⟩
  · cases shape

theorem snapshotToken_delta (s : State) (k k' : Nat) :
    (Frame.text (snapshotToken s k)).delta k' = none := rfl

/-- A snapshot taken between two deltas is the whole text, and so is one taken before the
current delta has reached the connection. -/
theorem Traffic.snapshot_follows {s : State} {k w : Nat} (inv : Traffic s)
    (active : s.active = some k) (between : Between s w) :
    Follows s k w ⟨(s.streams k).seq,String.join (s.streams k).parts⟩ [] := by
  have base := inv.seq k
  refine ⟨base.le,?_,List.nil_prefix,?_,?_⟩
  · simp only
    rw [base,List.take_length]
  · intro _
    simp only
    rw [base]
    simp [tokensFrom]
  · intro _ passed runs
    have landed : (s.streams k).inFlight = none := by
      cases inFlight : (s.streams k).inFlight with
      | none => rfl
      | some d =>
        obtain ⟨b,f,found,own⟩ := inv.airborne k d runs inFlight
        have owed := between k active b (inv.loops.flight_known found) f found own
        exact (passed ((due_own inv found own).mpr owed)).elim
    simp only [StreamRecord.deltas,landed]
    rw [base]
    simp [tokensFrom]

/-! ## Steps of a handler -/

theorem Traffic.attachSend {s : State} {c S : Nat} {env : Envelope} {next : Nat → Handler}
    (inv : Traffic s) (held : (s.handlers c).session = some S)
    (kept : ∀ w, (next w).session = some S)
    (quiet : ∀ w S via rest, next w = .replaying S via rest →
      ∀ e ∈ rest, Envelope.midStream e.env = false)
    (plain : ∀ k, (Frame.text env).delta k = none)
    (new : ∀ w, s.wsOf S = some w → ∀ k snap, (Frame.text env).snapshot k = some snap →
      Follows s k w snap []) :
    Traffic (GhostRunner.Server.attachSend s c S env next) := by
  simp only [GhostRunner.Server.attachSend]
  split
  · next w bound =>
    have wrote : Traffic (s.write w (Frame.stamp S (.text env))) :=
      inv.write (inv.loops.bound_present bound) (by simpa using plain)
        (by simpa using new w bound)
    exact wrote.setHandler held (kept w) (quiet w)
  · exact inv.crash c

theorem Traffic.attachSendQuiet {s : State} {c S : Nat} {env : Envelope} {next : Nat → Handler}
    (inv : Traffic s) (held : (s.handlers c).session = some S)
    (kept : ∀ w, (next w).session = some S)
    (quietNext : ∀ w S via rest, next w = .replaying S via rest →
      ∀ e ∈ rest, Envelope.midStream e.env = false)
    (quiet : Envelope.midStream env = false) :
    Traffic (GhostRunner.Server.attachSend s c S env next) := by
  have frame : (Frame.text env).midStream = false := quiet
  refine inv.attachSend held kept quietNext (quiet_delta frame) fun _ _ k snap shape => ?_
  rw [quiet_snapshot frame k] at shape
  cases shape

theorem Traffic.resync {s : State} {c S : Nat} (inv : Traffic s)
    (held : (s.handlers c).session = some S)
    (between : ∀ w, S ∈ s.sessions → s.wsOf S = some w → Between s w) :
    Traffic (GhostRunner.Server.resync s c S) := by
  simp only [GhostRunner.Server.resync]
  split
  · exact inv.setHandler held rfl (fun _ _ _ shape => by cases shape)
  · next k active =>
    split
    · next known =>
      refine inv.attachSend held (fun _ => rfl) (fun _ _ _ _ shape => by cases shape)
        (snapshotToken_delta s k) ?_
      intro w bound k' snap shape
      obtain ⟨rfl,rfl⟩ := snapshotToken_snapshot s k k' snap shape
      exact inv.snapshot_follows active (between w known bound)
    · exact inv.crash c

theorem Traffic.replay {s : State} {c S via : Nat} {rest : List Entry} (inv : Traffic s)
    (at_ : s.handlers c = .replaying S via rest)
    (between : ∀ w, rest = [] → s.log.stateSnapshot = none → S ∈ s.sessions →
      s.wsOf S = some w → Between s w) :
    Traffic (GhostRunner.Server.replay s c S rest) := by
  have held : (s.handlers c).session = some S := by rw [at_]; rfl
  have quiet := inv.replays c S via rest at_
  cases rest with
  | cons e rest =>
    refine inv.attachSendQuiet held (fun _ => rfl) ?_ (quiet e (by simp))
    intro w S' via' rest' shape e' mem
    cases shape
    exact quiet e' (by simp [mem])
  | nil =>
    change Traffic (resend s c S)
    simp only [resend]
    split
    · next stateless => exact inv.resync held fun w => between w rfl stateless
    · next snapshot lasting =>
      refine @Traffic.attachSendQuiet _ c S _ (.resending S) inv.nextSeq held (fun _ => rfl)
        (fun _ _ _ _ shape => by cases shape) ?_
      exact inv.stateSnapshot snapshot lasting

theorem Traffic.sendReply {s : State} {c S : Nat} (inv : Traffic s)
    (held : (s.handlers c).session = some S) (body : String) :
    Traffic (GhostRunner.Server.sendReply s c S body) := by
  simp only [GhostRunner.Server.sendReply]
  split
  · next w bound =>
    exact (inv.writeQuiet bound rfl).setHandler held rfl (fun _ _ _ shape => by cases shape)
  · exact inv.leave c S

theorem Traffic.streamSync {s : State} {c S : Nat} {stream : String} (inv : Traffic s)
    (at_ : s.handlers c = .serving S) (between : SyncsBetween s (.streamSync c stream)) :
    Traffic (GhostRunner.Server.streamSync s c S stream) := by
  have held : (s.handlers c).session = some S := by rw [at_]; rfl
  simp only [GhostRunner.Server.streamSync]
  split
  · next k active =>
    split
    · next same =>
      split
      · next w bound =>
        split at bound
        · next known =>
          have sent : snapshotTo s (.streamSync c stream) = some w := by
            simp [snapshotTo,at_,active,same,known,bound]
          have wrote : Traffic (s.write w (Frame.stamp S (.text (snapshotToken s k)))) := inv.write
            (inv.loops.bound_present bound)
            (fun k' => by rw [stamp_delta]; exact snapshotToken_delta s k k') (by
              intro k' snap shape
              rw [stamp_snapshot] at shape
              obtain ⟨rfl,rfl⟩ := snapshotToken_snapshot s k k' snap shape
              exact inv.snapshot_follows active (between w sent))
          exact wrote.setHandler held rfl (fun _ _ _ shape => by cases shape)
        · cases bound
      · exact inv.sendReply held _
    · exact inv.sendReply held _
  · exact inv.sendReply held _

theorem Traffic.handlerResumes {s t : State} {c : Nat} {ok : Bool} (inv : Traffic s)
    (between : SyncsBetween s (.handlerResumes c ok))
    (taken : GhostRunner.Server.handlerResumes s c ok = some t) : Traffic t := by
  simp only [GhostRunner.Server.handlerResumes] at taken
  cases at_ : s.handlers c with
  | absent | ended => simp [at_] at taken
  | serving S => simp [at_] at taken
  | replaying S via rest =>
    simp only [at_,Option.some.injEq] at taken
    subst taken
    cases ok with
    | false => exact (inv.markFailed via).crash c
    | true =>
      refine inv.replay at_ ?_
      rintro w rfl none known bound
      exact between w (by simp [snapshotTo,at_,none,known,bound])
  | resending S via =>
    simp only [at_,Option.some.injEq] at taken
    subst taken
    cases ok with
    | false => exact (inv.markFailed via).crash c
    | true =>
      refine inv.resync (by rw [at_]; rfl) ?_
      intro w known bound
      exact between w (by simp [snapshotTo,at_,known,bound])
  | resyncing S via =>
    simp only [at_,Option.some.injEq] at taken
    subst taken
    cases ok with
    | false => exact (inv.markFailed via).crash c
    | true => exact inv.setHandler (by rw [at_]; rfl) rfl (fun _ _ _ shape => by cases shape)
  | replying S via =>
    simp only [at_,Option.some.injEq] at taken
    subst taken
    cases ok with
    | false => exact (inv.markFailed via).leave c S
    | true => exact inv.setHandler (by rw [at_]; rfl) rfl (fun _ _ _ shape => by cases shape)
  | syncing S via =>
    simp only [at_,Option.some.injEq] at taken
    subst taken
    have held : (s.handlers c).session = some S := by rw [at_]; rfl
    cases ok with
    | false => exact (inv.markFailed via).sendReply held _
    | true => exact inv.sendReply held _

theorem Traffic.handlerEnds {s t : State} {c : Nat} (inv : Traffic s)
    (taken : GhostRunner.Server.handlerEnds s c = some t) : Traffic t := by
  simp only [GhostRunner.Server.handlerEnds] at taken
  split at taken
  · cases taken
  · cases taken; exact inv.leave c _
  · cases taken; exact inv.leave c _
  · cases taken; exact inv.leave c _
  · cases taken; exact inv.crash c

/-! ## Broadcasts and attachments -/

theorem Traffic.setLog {s : State} {log : SessionLog} {published : List Entry} (inv : Traffic s)
    (entries : ∀ e ∈ log.replay.entries, Envelope.midStream e.env = false)
    (stateSnapshot : ∀ env ∈ log.stateSnapshot, Envelope.midStream env = false) :
    Traffic { s with log := log, published := published } :=
  { inv with
    loops := inv.loops.alters (log_calm s log published) rfl rfl fun _ _ => rfl
    entries := entries
    stateSnapshot := stateSnapshot
    noGap := fun k w before frame after snap split shape =>
      (inv.noGap k w before frame after snap split shape).transfer rfl rfl id
        fun here passed => ⟨here,passed⟩ }

theorem Traffic.broadcast {s : State} {env : Envelope} (inv : Traffic s)
    (quiet : Envelope.midStream env = false) (stampMs pruneMs : Int) :
    Traffic (GhostRunner.Server.broadcast s env stampMs pruneMs) := by
  have stamped : Envelope.midStream (s.log.stamp env stampMs).env = false := quiet
  simp only [GhostRunner.Server.broadcast]
  refine (inv.setLog ?_ ?_).launchQuiet ?_
  · intro e mem
    simp only [SessionLog.publish] at mem
    split at mem
    · rcases List.mem_append.mp ((ReplayLog.prune_sublist _ _).subset mem) with old | new
      · exact inv.entries e old
      · rw [List.mem_singleton.mp new]; exact stamped
    · exact inv.entries e mem
  · intro env' mem
    simp only [SessionLog.publish] at mem
    split at mem
    · dsimp only at mem
      split at mem
      · cases mem; exact stamped
      · exact inv.stateSnapshot env' mem
    · exact inv.stateSnapshot env' mem
  · simp only [SessionLog.publish]
    split
    · exact stamped
    · exact quiet

theorem Traffic.arrives {s t : State} {c S : Nat} {tail : List Entry} (inv : Traffic s)
    (fresh : s.handlers c = .absent) (arrives : Arrives s t c S tail) : Traffic t := by
  refine ⟨inv.loops.arrives fresh arrives,?_,?_,?_,?_,?_,?_,?_,?_,?_,?_⟩
  · rw [arrives.streams]; exact inv.seq
  · rw [arrives.streams]; exact inv.unopened
  · rw [arrives.streams,arrives.flights]; exact inv.flight
  · rw [arrives.streams,arrives.flights]; exact inv.airborne
  · rw [arrives.flights]; exact inv.one
  · rw [arrives.flights]; exact inv.other
  · exact fun e mem => inv.entries e (arrives.entries e mem)
  · rw [arrives.stateSnapshot]; exact inv.stateSnapshot
  · intro d S' via rest at_
    by_cases own : d = c
    · subst d
      rw [arrives.handler] at at_
      cases at_
      exact fun e mem => inv.entries e (arrives.tail.subset mem)
    · rw [arrives.handlers d own] at at_
      exact inv.replays d S' via rest at_
  · intro k w before frame after snap split shape
    by_cases own : w = c
    · -- Nothing but the ack has been written to the new connection.
      subst w
      obtain ⟨key,replay,id,acked⟩ := arrives.acked
      rw [acked,inv.loops.silent c fresh] at split
      rcases snoc_split split with ⟨_,rfl,_⟩ | ⟨_,_,impossible⟩
      · rw [quiet_snapshot rfl k] at shape; cases shape
      · simp at impossible
    · rw [arrives.wires w own] at split
      refine (inv.noGap k w before frame after snap split shape).transfer
        (by rw [arrives.streams]) rfl ?_ ?_
      · rintro ⟨b,f,found,turn,S',mem,held⟩
        rw [arrives.flights] at found
        exact ⟨b,f,found,turn,S',mem,arrives.socket own held⟩
      · rintro ⟨S',mem',held'⟩ passed
        have was' := arrives.socket own held'
        have now := (inv.loops.bindings.arrives fresh arrives).bound S' w held'
        have mem' := arrives.older own mem' now
        refine ⟨⟨S',mem',was'⟩,?_⟩
        rintro ⟨b,f,found,turn,S'',mem,held⟩
        by_cases moved : t.wsOf S'' = s.wsOf S''
        · exact passed ⟨b,f,by rw [arrives.flights]; exact found,turn,S'',mem,moved.trans held⟩
        · have known := arrives.attaches.moved S'' moved
            ((inv.loops.visits b f found).below S'' mem)
          have twin := inv.loops.bindings.single S'' known S' mem' w
            (inv.loops.bindings.bound S'' w held) (inv.loops.bindings.bound S' w was')
          subst S''
          exact moved (held'.trans was'.symm)

theorem Traffic.setActive {s : State} (inv : Traffic s) (active : Option Nat) :
    Traffic { s with active := active } :=
  inv.alters (active_calm s active) rfl rfl rfl rfl rfl rfl inv.replays

theorem syncsBetween_keeps {s t : State} {op : Op} (inv : Traffic s) (between : SyncsBetween s op)
    (taken : step s op = some t) : Traffic t := by
  cases op with
  | attach c helloId resume nowMs pruneMs =>
    simp only [step] at taken
    split at taken
    · next fresh =>
      cases taken
      exact inv.arrives fresh (attach_arrives inv.loops.bindings fresh helloId resume nowMs pruneMs)
    · cases taken
  | handlerResumes c ok => exact inv.handlerResumes between taken
  | handlerEnds c => exact inv.handlerEnds taken
  | reply c body =>
    simp only [step] at taken
    split at taken
    · next S at_ => cases taken; exact inv.sendReply (by rw [at_]; rfl) body
    · cases taken
  | streamSync c stream =>
    simp only [step] at taken
    split at taken
    · next S at_ => cases taken; exact inv.streamSync at_ between
    · cases taken
  | broadcast env stampMs pruneMs =>
    simp only [step] at taken
    split at taken
    · next quiet => cases taken; exact inv.broadcast quiet.1 stampMs pruneMs
    · cases taken
  | broadcastBinary payload => cases taken; exact inv.launchQuiet rfl
  | delta k d =>
    simp only [step] at taken
    split at taken
    · next ready => cases taken; exact inv.onDelta d ready.1 ready.2
    · cases taken
  | flightResumes b ok =>
    simp only [step] at taken
    split at taken
    · next f found => cases taken; exact inv.flightResumes found ok
    · cases taken
  | flightCancelled b =>
    simp only [step] at taken
    split at taken
    · next f found => cases taken; exact inv.flightCancelled found
    · cases taken
  | streamOpens k =>
    simp only [step] at taken
    split at taken
    · next closed =>
      cases taken
      have nothing := inv.unopened k closed
      obtain ⟨parts,inFlight⟩ := List.append_eq_nil_iff.mp nothing
      have opened : Traffic (s.setStream k { phase := .running }) :=
        inv.setPhase (by simpa using inFlight) (by rw [inv.seq k,parts]; rfl) (by simp)
          parts.symm rfl (fun _ => nothing)
      exact opened.setActive (some k)
    · cases taken
  | streamStops k =>
    simp only [step] at taken
    split at taken
    · next ready =>
      cases taken
      exact inv.setPhase ready.2 rfl (by simp) rfl ready.2 (fun runs => by cases runs)
    · cases taken
  | streamCleared => cases taken; exact inv.setActive none

theorem snapshotTo_sends {s t : State} {op : Op} {w k : Nat} (sends : snapshotTo s op = some w)
    (active : s.active = some k) (taken : step s op = some t) :
    ∃ c S h, S ∈ s.sessions ∧ s.wsOf S = some w ∧
      t = (s.write w (Frame.stamp S (.text (snapshotToken s k)))).setHandler c h := by
  have resynced : ∀ c S, S ∈ s.sessions → s.wsOf S = some w →
      resync s c S = (s.write w (Frame.stamp S (.text (snapshotToken s k)))).setHandler c
        (.resyncing S w) := by
    intro c S known bound
    simp [resync,active,known,attachSend,bound]
  cases op with
  | handlerResumes c ok =>
    cases ok with
    | false => cases sends
    | true =>
      simp only [step,handlerResumes] at taken
      simp only [snapshotTo] at sends
      split at sends
      · next S via at_ =>
        split at sends
        · next lasting =>
          have replayed : resync s c S = t := by
            simpa [at_,replay,resend,lasting.1] using taken
          exact ⟨c,S,_,lasting.2,sends,by rw [← replayed,resynced c S lasting.2 sends]⟩
        · cases sends
      · next S via at_ =>
        split at sends
        · next known =>
          have replayed : resync s c S = t := by simpa [at_] using taken
          exact ⟨c,S,_,known,sends,by rw [← replayed,resynced c S known sends]⟩
        · cases sends
      · cases sends
  | streamSync c stream =>
    simp only [step] at taken
    simp only [snapshotTo] at sends
    split at sends
    · next S at_ =>
      split at sends
      · next ready =>
        have same : streamId k = stream := by simpa [active] using ready.1
        refine ⟨c,S,.syncing S w,ready.2,sends,?_⟩
        simpa [at_,streamSync,active,same,ready.2,sends,eq_comm] using taken
      · cases sends
    · cases sends
  | _ => cases sends

/-- A snapshot sent while a delta is past the connection lacks that delta at once. -/
theorem snapshotDuring_breaks {s t : State} {op : Op} (inv : Traffic s)
    (taken : step s op = some t) (during : ¬SyncsBetween s op) : ¬NoGap t := by
  intro noGap
  simp only [SyncsBetween,Between,not_forall] at during
  obtain ⟨w,sends,k,active,b,_,f,found,own,passed⟩ := during
  obtain ⟨c,S,h,known,bound,rfl⟩ := snapshotTo_sends sends active taken
  obtain ⟨runs,d,inFlight,_⟩ := inv.flight b f k found own
  have follows := noGap k w (s.wire w) (Frame.stamp S (.text (snapshotToken s k))) []
    ⟨(s.streams k).seq,String.join (s.streams k).parts⟩
    (by simp [State.setHandler,State.write])
    (by simp [Frame.stamp,Frame.snapshot,Payload.snapshot,snapshotToken])
  have missing : tokensFrom k (s.streams k).seq [] =
      (s.streams k).deltas.zipIdx.drop (s.streams k).seq := by
    refine follows.current ⟨S,known,bound⟩ ?_ runs
    intro owed
    have owed : Due s k w := owed
    exact passed ((due_own inv found own).mp owed)
  rw [show (s.streams k).deltas = (s.streams k).parts ++ [d] by simp [StreamRecord.deltas,inFlight],
    inv.seq k,drop_zipIdx_snoc d le_rfl] at missing
  simp [tokensFrom] at missing

theorem Traffic.initial : Traffic init := by
  refine ⟨Loops.initial,?_,?_,?_,?_,?_,?_,?_,?_,?_,?_⟩
  case refine_10 =>
    intro k w before frame after snap split
    simp [init] at split
  all_goals intros; simp_all [init,StreamRecord.deltas]

/-- A resync leaves no gap in exactly the runs that take each snapshot between two deltas,
or before the current delta has reached the connection. -/
theorem noGap_throughout_iff (ops : List Op) (s : State) (reached : run step init ops = some s) :
    Throughout step NoGap init ops ↔ Meets step SyncsBetween init ops :=
  throughout_iff_meets
    (fun _ _ _ inv between taken => syncsBetween_keeps inv between taken)
    (fun _ inv => inv.noGap)
    (fun _ _ _ inv taken during => snapshotDuring_breaks inv taken during)
    Traffic.initial reached

/-- The broadcast of the first delta is suspended at the only client when a second one
connects. -/
def attachedDuringDelta : List Op := [
  .attach 0 none none 0 0,
  .handlerResumes 0 true,
  .streamOpens 7,
  .delta 7 "Hel",
  .attach 1 none none 0 0,
  .handlerResumes 1 true,
  .handlerResumes 1 true,
  .flightResumes 0 true,
  .delta 7 "lo",
  .flightResumes 1 true]

/-- An empty snapshot, and the second delta: the first is missing. -/
def gapped : List Frame := [
  .text { payload := .token "t7" 0 "" false none (some ⟨0,""⟩), turn := some 7, session := some 2 },
  .text { payload := .token "t7" 1 "lo" false none none, turn := some 7, session := some 2 }]

theorem attachedDuringDelta_leavesGap :
    ∃ s, run step init attachedDuringDelta = some s ∧ s.handlers 1 = .serving 2 ∧
      s.wsOf 2 = some 1 ∧ (s.streams 7).parts = ["Hel"] ∧ (s.streams 7).inFlight = some "lo" ∧
      (s.wire 1).drop 1 = gapped ∧ ¬NoGap s := by
  have lost : ∃ s, run step init attachedDuringDelta = some s ∧ (s.handlers 1 = .serving 2 ∧
      s.wsOf 2 = some 1 ∧ (s.streams 7).parts = ["Hel"] ∧ (s.streams 7).inFlight = some "lo" ∧
      (s.wire 1).drop 1 = gapped) := exists_of_eval (by decide +kernel)
  obtain ⟨s,reached,serves,bound,parts,inFlight,wire⟩ := lost
  refine ⟨s,reached,serves,bound,parts,inFlight,wire,?_⟩
  intro noGap
  have split : s.wire 1 = (s.wire 1).take 1 ++ gapped := by rw [← wire,List.take_append_drop]
  have follows := noGap 7 1 _ _ _ ⟨0,""⟩ split (by decide +kernel)
  have order := follows.order
  simp only [StreamRecord.deltas,parts,inFlight] at order
  exact absurd order (by decide +kernel)

/-- One client connects between two deltas, and one while a delta is still due to it. -/
def attachedBetweenDeltas : List Op := [
  .attach 0 none none 0 0,
  .handlerResumes 0 true,
  .streamOpens 7,
  .delta 7 "Hel",
  .flightResumes 0 true,
  .attach 1 none none 0 0,
  .handlerResumes 1 true,
  .handlerResumes 1 true,
  .delta 7 "lo",
  .streamSync 1 "t7",
  .handlerResumes 1 true,
  .flightResumes 1 true,
  .flightResumes 1 true]

theorem attachedBetweenDeltas_noGap : Throughout step NoGap init attachedBetweenDeltas := by
  have completes : ∃ s, run step init attachedBetweenDeltas = some s ∧ True :=
    exists_of_eval (by decide +kernel)
  obtain ⟨s,reached,_⟩ := completes
  exact (noGap_throughout_iff attachedBetweenDeltas s reached).mpr (by decide +kernel)

end Server
end GhostRunner
