import Mathlib.Data.List.Nodup
import GhostRunner.ServerBinding

/-! The suspended loops of the fan-outs, in every reachable state: each has its own number,
visits no session twice, and writes to attached connections only. -/
namespace GhostRunner.Server

open Machine

/-- The loop of a fan-out visits each session once, and no two through one connection. -/
structure Visits (s : State) (todo : List Nat) : Prop where
  nodup : todo.Nodup
  below : ∀ S ∈ todo, S < s.tokens
  single : ∀ S ∈ todo, ∀ S' ∈ todo, ∀ c, s.attached S = some c → s.attached S' = some c → S = S'

structure Loops (s : State) : Prop where
  bindings : Bindings s
  fresh : ∀ b, s.nextFlight ≤ b → s.flights b = none
  visits : ∀ b f, s.flights b = some f → Visits s f.rest
  silent : ∀ c, s.handlers c = .absent → s.wire c = []
  known : ∀ c S, (s.handlers c).session = some S → c ∈ s.connections

theorem Visits.sessions {s : State} (inv : Bindings s) : Visits s s.sessions :=
  ⟨inv.nodup,inv.below,inv.single⟩

theorem Visits.tail {s : State} {skipped rest : List Nat} {S : Nat}
    (visits : Visits s (skipped ++ S :: rest)) : Visits s rest where
  nodup := ((List.nodup_append.mp visits.nodup).2.1).of_cons
  below S' mem := visits.below S' (by simp [mem])
  single S₁ mem₁ S₂ mem₂ := visits.single S₁ (by simp [mem₁]) S₂ (by simp [mem₂])

theorem Visits.transfer {s t : State} {todo : List Nat} (visits : Visits s todo)
    (tokens : t.tokens = s.tokens) (attached : t.attached = s.attached) : Visits t todo :=
  ⟨visits.nodup,by rw [tokens]; exact visits.below,by rw [attached]; exact visits.single⟩

theorem Alters.wsOf_some {s t : State} {loss : Loss} (alters : Alters s t loss) {S w : Nat}
    (held : t.wsOf S = some w) : s.wsOf S = some w := by
  rw [alters.ws S] at held
  split at held
  · cases held
  · exact held

theorem Loops.initial : Loops init := by
  refine ⟨Bindings.initial,?_,?_,?_,?_⟩
  all_goals intros; simp_all [init,Handler.session]

theorem Loops.bound_present {s : State} {S w : Nat} (inv : Loops s) (held : s.wsOf S = some w) :
    s.handlers w ≠ .absent :=
  inv.bindings.present S w (inv.bindings.bound S w held)

theorem Loops.flight_known {s : State} {b : Nat} {f : Flight} (inv : Loops s)
    (found : s.flights b = some f) : b < s.nextFlight := by
  by_contra beyond
  rw [inv.fresh b (by omega)] at found
  cases found

theorem Loops.alters {s t : State} {loss : Loss} (inv : Loops s) (alters : Alters s t loss)
    (flights : t.flights = s.flights) (nextFlight : t.nextFlight = s.nextFlight)
    (wire : ∀ c, s.handlers c = .absent → t.wire c = s.wire c) : Loops t where
  bindings := inv.bindings.alters alters
  fresh := by rw [flights,nextFlight]; exact inv.fresh
  visits b f found := by
    rw [flights] at found
    exact (inv.visits b f found).transfer alters.tokens alters.attached
  silent c absent := by
    have unseen : s.handlers c = .absent := by
      by_cases gone : loss.ended = some c
      · rw [alters.ended c gone] at absent; cases absent
      · rcases alters.others c gone with same | ⟨S,_,kept⟩
        · exact same.symm.trans absent
        · rw [absent] at kept; cases kept
    rw [wire c unseen]
    exact inv.silent c unseen
  known c S held := by
    rw [alters.connections]
    by_cases gone : loss.ended = some c
    · rw [alters.ended c gone] at held; cases held
    · rcases alters.others c gone with same | ⟨S',before,_⟩
      · rw [same] at held; exact inv.known c S held
      · exact inv.known c S' before

theorem Loops.write {s : State} {w : Nat} (inv : Loops s) (here : s.handlers w ≠ .absent)
    (frame : Frame) : Loops (s.write w frame) where
  bindings := inv.bindings.alters (write_calm s w frame)
  fresh := inv.fresh
  visits b f found := (inv.visits b f found).transfer rfl rfl
  silent c absent := by
    have other : c ≠ w := by rintro rfl; exact here absent
    simpa [State.write,other] using inv.silent c absent
  known := inv.known

theorem Loops.setFlight {s : State} {b : Nat} {flight : Option Flight} (inv : Loops s)
    (known : b < s.nextFlight) (visits : ∀ f ∈ flight, Visits s f.rest) :
    Loops (s.setFlight b flight) where
  bindings := inv.bindings.alters (setFlight_calm s b flight)
  fresh b' beyond := by
    have other : b' ≠ b := by
      have beyond : s.nextFlight ≤ b' := beyond
      omega
    simpa [State.setFlight,other] using inv.fresh b' beyond
  visits b' f found := by
    by_cases here : b' = b
    · subst b'
      exact (visits f (by simpa [State.setFlight] using found)).transfer rfl rfl
    · exact (inv.visits b' f (by simpa [State.setFlight,here] using found)).transfer rfl rfl
  silent := inv.silent
  known := inv.known

theorem Loops.count {s : State} (inv : Loops s) :
    Loops { s with nextFlight := s.nextFlight + 1 } where
  bindings := inv.bindings.alters (count_calm s)
  fresh b beyond := inv.fresh b (Nat.le_of_succ_le beyond)
  visits b f found := (inv.visits b f found).transfer rfl rfl
  silent := inv.silent
  known := inv.known

theorem detach_traffic (s : State) (S : Nat) :
    (detach s S).flights = s.flights ∧ (detach s S).nextFlight = s.nextFlight ∧
      (detach s S).wire = s.wire ∧ (detach s S).streams = s.streams ∧ (detach s S).log = s.log ∧
      (detach s S).handlers = s.handlers ∧ (detach s S).published = s.published := by
  simp only [detach]
  split <;> exact ⟨rfl,rfl,rfl,rfl,rfl,rfl,rfl⟩

theorem land_traffic (s : State) (delta : Option Nat) :
    (land s delta).flights = s.flights ∧ (land s delta).nextFlight = s.nextFlight ∧
      (land s delta).wire = s.wire ∧ (land s delta).log = s.log ∧
      (land s delta).handlers = s.handlers ∧ (land s delta).published = s.published := by
  simp only [land]
  split
  · exact ⟨rfl,rfl,rfl,rfl,rfl,rfl⟩
  · split <;> exact ⟨rfl,rfl,rfl,rfl,rfl,rfl⟩

theorem Loops.land {s : State} (inv : Loops s) (delta : Option Nat) :
    Loops (GhostRunner.Server.land s delta) := by
  have same := land_traffic s delta
  exact inv.alters (land_calm s delta) same.1 same.2.1 fun c _ => congrFun same.2.2.1 c

theorem Loops.fly {s : State} {b : Nat} {todo : List Nat} (inv : Loops s)
    (known : b < s.nextFlight) (visits : Visits s todo) (frame : Frame) (delta : Option Nat) :
    Loops (GhostRunner.Server.fly s b frame delta todo) := by
  rcases fly_cases s b frame delta todo with
    ⟨_,eq⟩ | ⟨skipped,S,w,rest,split,_,held,eq⟩ <;> rw [eq]
  · exact (inv.setFlight known fun _ mem => by cases mem).land delta
  · rw [split] at visits
    refine (inv.write (inv.bound_present held) _).setFlight known ?_
    intro f mem
    cases Option.mem_some.mp mem
    exact visits.tail.transfer rfl rfl

/-- No suspended loop knows the new connection under two sessions. -/
theorem Loops.arrives {s t : State} {c S : Nat} {tail : List Entry} (inv : Loops s)
    (fresh : s.handlers c = .absent) (arrives : Arrives s t c S tail) : Loops t := by
  refine ⟨inv.bindings.arrives fresh arrives,?_,?_,?_,?_⟩
  · rw [arrives.flights,arrives.nextFlight]; exact inv.fresh
  · intro b f found
    rw [arrives.flights] at found
    obtain ⟨nodup,below,single⟩ := inv.visits b f found
    refine ⟨nodup,fun S' mem => (below S' mem).trans_le arrives.attaches.tokens,?_⟩
    intro S₁ mem₁ S₂ mem₂ d was₁ was₂
    by_cases own : d = c
    · subst d; exact arrives.attaches.older S₁ S₂ (below S₁ mem₁) (below S₂ mem₂) was₁ was₂
    · exact single S₁ mem₁ S₂ mem₂ d (arrives.elsewhere own was₁).1 (arrives.elsewhere own was₂).1
  · intro d absent
    have own : d ≠ c := by
      rintro rfl
      rw [arrives.handler] at absent
      cases absent
    rw [arrives.handlers d own] at absent
    rw [arrives.wires d own]
    exact inv.silent d absent
  · intro d S' held
    rw [arrives.connections]
    by_cases own : d = c
    · simp [own]
    · rw [arrives.handlers d own] at held
      simp [inv.known d S' held]

theorem nextTarget_congr {s t : State} (same : ∀ S, t.wsOf S = s.wsOf S) (todo : List Nat) :
    nextTarget t todo = nextTarget s todo := by
  induction todo with
  | nil => rfl
  | cons S rest ih => simp only [nextTarget,same,ih]

/-- A fan-out overwrites its own flight, so it may as well have one before it starts. -/
theorem fly_setFlight (s : State) (b : Nat) (f : Option Flight) (frame : Frame)
    (delta : Option Nat) (todo : List Nat) :
    fly (s.setFlight b f) b frame delta todo = fly s b frame delta todo := by
  have same : nextTarget (s.setFlight b f) todo = nextTarget s todo :=
    nextTarget_congr (s := s) (t := s.setFlight b f) (fun _ => rfl) todo
  simp only [fly]
  rw [same]
  split <;> simp [State.setFlight,State.write]

/-! ## Steps of handlers -/

/-- The entries that a handler has yet to replay. -/
def Handler.rest : Handler → List Entry
  | .replaying _ _ rest => rest
  | _ => []

/-- What the step of a handler can do to the traffic: it publishes nothing and starts no
fan-out, writes where a session is bound, and may shorten a tail. -/
structure Serves (s t : State) : Prop where
  flights : t.flights = s.flights
  nextFlight : t.nextFlight = s.nextFlight
  replay : t.log.replay = s.log.replay
  published : t.published = s.published
  seq : s.log.seq ≤ t.log.seq
  sockets : ∀ S c, t.wsOf S = some c → s.wsOf S = some c
  wire : ∀ c, (∀ S, s.wsOf S ≠ some c) → t.wire c = s.wire c
  rests : ∀ c, (t.handlers c).rest.Sublist (s.handlers c).rest

theorem Serves.trans {s t u : State} (first : Serves s t) (second : Serves t u) : Serves s u where
  flights := second.flights.trans first.flights
  nextFlight := second.nextFlight.trans first.nextFlight
  replay := second.replay.trans first.replay
  published := second.published.trans first.published
  seq := first.seq.trans second.seq
  sockets S c held := first.sockets S c (second.sockets S c held)
  wire c free := (second.wire c fun S held => free S (first.sockets S c held)).trans
    (first.wire c free)
  rests c := (second.rests c).trans (first.rests c)

theorem write_serves {s : State} {S w : Nat} (held : s.wsOf S = some w) (frame : Frame) :
    Serves s (s.write w frame) where
  flights := rfl
  nextFlight := rfl
  replay := rfl
  published := rfl
  seq := le_rfl
  sockets _ _ held := held
  wire c free := by
    have other : c ≠ w := by rintro rfl; exact free S held
    simp [State.write,other]
  rests _ := List.Sublist.refl _

theorem setHandler_serves {s : State} {c : Nat} {h : Handler}
    (rest : h.rest.Sublist (s.handlers c).rest) : Serves s (s.setHandler c h) where
  flights := rfl
  nextFlight := rfl
  replay := rfl
  published := rfl
  seq := le_rfl
  sockets _ _ held := held
  wire _ _ := rfl
  rests d := by
    by_cases own : d = c
    · subst d; simpa [State.setHandler] using rest
    · simp [State.setHandler,own]

theorem crash_serves (s : State) (c : Nat) : Serves s (crash s c) :=
  setHandler_serves (List.nil_sublist _)

theorem detach_serves (s : State) (S : Nat) : Serves s (detach s S) := by
  obtain ⟨flights,nextFlight,wire,_,log,handlers,published⟩ := detach_traffic s S
  exact ⟨flights,nextFlight,by rw [log],published,by rw [log],
    fun S' c held => (detach_alters s S).wsOf_some held,fun c _ => congrFun wire c,
    fun c => by rw [handlers]⟩

theorem leave_serves (s : State) (c S : Nat) : Serves s (leave s c S) :=
  (detach_serves s S).trans (crash_serves _ c)

theorem markFailed_serves (s : State) (w : Nat) : Serves s (s.markFailed w) :=
  ⟨rfl,rfl,rfl,rfl,le_rfl,fun _ _ held => held,fun _ _ => rfl,fun _ => List.Sublist.refl _⟩

theorem nextSeq_serves (s : State) : Serves s { s with log := s.log.nextSeqForResend.1 } :=
  ⟨rfl,rfl,rfl,rfl,Nat.le_succ _,fun _ _ held => held,fun _ _ => rfl,fun _ => List.Sublist.refl _⟩

theorem setStream_serves (s : State) (k : Nat) (r : StreamRecord) : Serves s (s.setStream k r) :=
  ⟨rfl,rfl,rfl,rfl,le_rfl,fun _ _ held => held,fun _ _ => rfl,fun _ => List.Sublist.refl _⟩

theorem active_serves (s : State) (active : Option Nat) : Serves s { s with active := active } :=
  ⟨rfl,rfl,rfl,rfl,le_rfl,fun _ _ held => held,fun _ _ => rfl,fun _ => List.Sublist.refl _⟩

theorem attachSend_serves {s : State} {c S : Nat} (next : Nat → Handler) (env : Envelope)
    (rest : ∀ w, (next w).rest.Sublist (s.handlers c).rest) :
    Serves s (attachSend s c S env next) := by
  simp only [attachSend]
  split
  · next w held => exact (write_serves held _).trans (setHandler_serves (rest w))
  · exact crash_serves s c

theorem resync_serves (s : State) (c S : Nat) : Serves s (resync s c S) := by
  simp only [resync]
  split
  · exact setHandler_serves (List.nil_sublist _)
  · split
    · exact attachSend_serves _ _ fun _ => List.nil_sublist _
    · exact crash_serves s c

theorem replay_serves {s : State} {c : Nat} {rest : List Entry} (S : Nat)
    (tail : rest.Sublist (s.handlers c).rest) : Serves s (replay s c S rest) := by
  cases rest with
  | cons e rest => exact attachSend_serves _ _ fun _ => (List.sublist_cons_self e rest).trans tail
  | nil =>
    change Serves s (resend s c S)
    simp only [resend]
    split
    · exact resync_serves s c S
    · exact (nextSeq_serves s).trans
        (attachSend_serves (.resending S) _ fun _ => List.nil_sublist _)

theorem sendReply_serves (s : State) (c S : Nat) (body : String) :
    Serves s (sendReply s c S body) := by
  simp only [sendReply]
  split
  · next w held => exact (write_serves held _).trans (setHandler_serves (List.nil_sublist _))
  · exact leave_serves s c S

theorem streamSync_serves (s : State) (c S : Nat) (stream : String) :
    Serves s (streamSync s c S stream) := by
  simp only [streamSync]
  split
  · split
    · split
      · next w held =>
        split at held
        · exact (write_serves held _).trans (setHandler_serves (List.nil_sublist _))
        · cases held
      · exact sendReply_serves s c S _
    · exact sendReply_serves s c S _
  · exact sendReply_serves s c S _

theorem handlerResumes_serves {s t : State} {c : Nat} {ok : Bool}
    (taken : handlerResumes s c ok = some t) : Serves s t := by
  simp only [handlerResumes] at taken
  split at taken <;> cases taken
  · next S via rest at_ =>
    split
    · exact replay_serves S (by rw [at_]; exact List.Sublist.refl _)
    · exact (markFailed_serves s via).trans (crash_serves _ c)
  · next via _ =>
    split
    · exact resync_serves s c _
    · exact (markFailed_serves s via).trans (crash_serves _ c)
  · next via _ =>
    split
    · exact setHandler_serves (List.nil_sublist _)
    · exact (markFailed_serves s via).trans (crash_serves _ c)
  · next via _ =>
    split
    · exact setHandler_serves (List.nil_sublist _)
    · exact (markFailed_serves s via).trans (leave_serves _ c _)
  · next via _ =>
    split
    · exact sendReply_serves s c _ _
    · exact (markFailed_serves s via).trans (sendReply_serves _ c _ _)

theorem handlerEnds_serves {s t : State} {c : Nat} (taken : handlerEnds s c = some t) :
    Serves s t := by
  simp only [handlerEnds] at taken
  split at taken <;> cases taken
  · exact leave_serves s c _
  · exact leave_serves s c _
  · exact leave_serves s c _
  · exact crash_serves s c

theorem Loops.serves {s t : State} {loss : Loss} (inv : Loops s) (alters : Alters s t loss)
    (serves : Serves s t) : Loops t :=
  inv.alters alters serves.flights serves.nextFlight fun c absent =>
    serves.wire c fun _ held => inv.bound_present held absent

end GhostRunner.Server
