import Mathlib.Data.List.Nodup
import GhostRunner.Server

/-! What one step of the server machine can do to its bindings. Every label other than
`attach` ends at most one handler, detaches at most one session and learns of at most one
failed connection; everything else it does is a write. -/
namespace GhostRunner.Server

/-- The session that a handler serves or is about to serve. -/
def Handler.session : Handler → Option Nat
  | .replaying S _ _ | .resending S _ | .resyncing S _ => some S
  | .serving S | .replying S _ | .syncing S _ => some S
  | .absent | .ended => none

structure Loss where
  ended : Option Nat := none
  unbound : Option Nat := none
  failing : Option Nat := none

/-- From `s` to `t` the bindings change by `loss` alone. -/
structure Alters (s t : State) (loss : Loss) : Prop where
  sessions : t.sessions = s.sessions
  byResumeKey : t.byResumeKey = s.byResumeKey
  tokens : t.tokens = s.tokens
  attached : t.attached = s.attached
  connections : t.connections = s.connections
  key : ∀ S, (t.session S).resumeKey = (s.session S).resumeKey
  ws : ∀ S, t.wsOf S = if loss.unbound = some S ∧ S ∈ s.sessions then none else s.wsOf S
  ended : ∀ c, loss.ended = some c → t.handlers c = .ended
  others : ∀ c, loss.ended ≠ some c → t.handlers c = s.handlers c ∨
    ∃ S, (s.handlers c).session = some S ∧ (t.handlers c).session = some S
  failed : ∀ c, t.failed c = true ↔ s.failed c = true ∨ loss.failing = some c

def Calm (s t : State) : Prop := Alters s t {}

theorem Calm.refl (s : State) : Calm s s :=
  ⟨rfl,rfl,rfl,rfl,rfl,fun _ => rfl,fun _ => by simp,by simp,fun _ _ => .inl rfl,by simp⟩

theorem Alters.andCalm {s t u : State} {loss : Loss} (first : Alters s t loss)
    (second : Calm t u) : Alters s u loss where
  sessions := second.sessions.trans first.sessions
  byResumeKey := second.byResumeKey.trans first.byResumeKey
  tokens := second.tokens.trans first.tokens
  attached := second.attached.trans first.attached
  connections := second.connections.trans first.connections
  key S := (second.key S).trans (first.key S)
  ws S := by simpa using (second.ws S).trans (first.ws S)
  ended c gone := by
    have before := first.ended c gone
    rcases second.others c (by simp) with same | ⟨S,held,_⟩
    · exact same.trans before
    · simp [before,Handler.session] at held
  others c stays := by
    rcases first.others c stays with same | ⟨S,held,kept⟩ <;>
      rcases second.others c (by simp) with same' | ⟨S',held',kept'⟩
    · exact .inl (same'.trans same)
    · exact .inr ⟨S',by rw [← same]; exact held',kept'⟩
    · exact .inr ⟨S,held,by rw [same']; exact kept⟩
    · rw [kept] at held'
      exact .inr ⟨S,held,by rw [kept']; exact held'.symm⟩
  failed c := by rw [second.failed c,first.failed c]; simp

theorem Calm.trans {s t u : State} (first : Calm s t) (second : Calm t u) : Calm s u :=
  Alters.andCalm first second

theorem Calm.andAlters {s t u : State} {loss : Loss} (first : Calm s t)
    (second : Alters t u loss) : Alters s u loss where
  sessions := second.sessions.trans first.sessions
  byResumeKey := second.byResumeKey.trans first.byResumeKey
  tokens := second.tokens.trans first.tokens
  attached := second.attached.trans first.attached
  connections := second.connections.trans first.connections
  key S := (second.key S).trans (first.key S)
  ws S := by rw [second.ws S,first.sessions,first.ws S]; simp
  ended := second.ended
  others c stays := by
    rcases first.others c (by simp) with same | ⟨S,held,kept⟩ <;>
      rcases second.others c stays with same' | ⟨S',held',kept'⟩
    · exact .inl (same'.trans same)
    · exact .inr ⟨S',by rw [← same]; exact held',kept'⟩
    · exact .inr ⟨S,held,by rw [same']; exact kept⟩
    · rw [kept] at held'
      exact .inr ⟨S,held,by rw [kept']; exact held'.symm⟩
  failed c := by rw [second.failed c,first.failed c]; simp

/-! ## Writes, flights and streams leave the bindings alone -/

theorem write_calm (s : State) (w : Nat) (frame : Frame) : Calm s (s.write w frame) :=
  ⟨rfl,rfl,rfl,rfl,rfl,fun _ => rfl,fun _ => by simp [State.write,State.wsOf],by simp,
    fun _ _ => .inl rfl,by simp [State.write]⟩

theorem setFlight_calm (s : State) (b : Nat) (f : Option Flight) : Calm s (s.setFlight b f) :=
  ⟨rfl,rfl,rfl,rfl,rfl,fun _ => rfl,fun _ => by simp [State.setFlight,State.wsOf],by simp,
    fun _ _ => .inl rfl,by simp [State.setFlight]⟩

theorem setStream_calm (s : State) (t : Nat) (r : StreamRecord) : Calm s (s.setStream t r) :=
  ⟨rfl,rfl,rfl,rfl,rfl,fun _ => rfl,fun _ => by simp [State.setStream,State.wsOf],by simp,
    fun _ _ => .inl rfl,by simp [State.setStream]⟩

theorem setHandler_calm {s : State} {c S : Nat} {h : Handler}
    (held : (s.handlers c).session = some S) (kept : h.session = some S) :
    Calm s (s.setHandler c h) := by
  refine ⟨rfl,rfl,rfl,rfl,rfl,fun _ => rfl,fun _ => by simp [State.setHandler,State.wsOf],by simp,
    ?_,by simp [State.setHandler]⟩
  intro d _
  by_cases same : d = c
  · subst d; exact .inr ⟨S,held,by simpa [State.setHandler] using kept⟩
  · exact .inl (by simp [State.setHandler,same])

theorem markFailed_alters (s : State) (w : Nat) :
    Alters s (s.markFailed w) { failing := some w } := by
  refine ⟨rfl,rfl,rfl,rfl,rfl,fun _ => rfl,fun _ => by simp [State.markFailed,State.wsOf],by simp,
    fun _ _ => .inl rfl,?_⟩
  intro c
  by_cases same : c = w
  · subst c; simp [State.markFailed]
  · simp [State.markFailed,same,Ne.symm same]

theorem land_calm (s : State) (delta : Option Nat) : Calm s (land s delta) := by
  simp only [land]
  split
  · exact Calm.refl s
  · split
    · exact setStream_calm _ _ _
    · exact Calm.refl s

/-- Where the loop of a fan-out stops next: sessions without a socket are passed over. -/
theorem nextTarget_cases (s : State) (todo : List Nat) :
    (nextTarget s todo = none ∧ ∀ S ∈ todo, s.wsOf S = none) ∨
    ∃ skipped S w rest, nextTarget s todo = some (S,w,rest) ∧ todo = skipped ++ S :: rest ∧
      (∀ S' ∈ skipped, s.wsOf S' = none) ∧ s.wsOf S = some w := by
  induction todo with
  | nil => exact .inl ⟨rfl,by simp⟩
  | cons S rest ih =>
    cases bound : s.wsOf S with
    | some w => exact .inr ⟨[],S,w,rest,by simp [nextTarget,bound],rfl,by simp,bound⟩
    | none =>
      have skip : nextTarget s (S :: rest) = nextTarget s rest := by simp [nextTarget,bound]
      rw [skip]
      rcases ih with ⟨finished,idle⟩ | ⟨skipped,S',w,rest',found,split,idle,bound'⟩
      · exact .inl ⟨finished,by simpa [bound] using idle⟩
      · exact .inr ⟨S :: skipped,S',w,rest',found,by rw [split]; rfl,by simpa [bound] using idle,
          bound'⟩

theorem fly_cases (s : State) (b : Nat) (frame : Frame) (delta : Option Nat) (todo : List Nat) :
    ((∀ S ∈ todo, s.wsOf S = none) ∧ fly s b frame delta todo = land (s.setFlight b none) delta) ∨
    ∃ skipped S w rest, todo = skipped ++ S :: rest ∧ (∀ S' ∈ skipped, s.wsOf S' = none) ∧
      s.wsOf S = some w ∧ fly s b frame delta todo =
        (s.write w (frame.stamp S)).setFlight b (some ⟨frame,S,w,rest,delta⟩) := by
  rcases nextTarget_cases s todo with ⟨finished,idle⟩ | ⟨skipped,S,w,rest,found,split,idle,bound⟩
  · exact .inl ⟨idle,by simp [fly,finished]⟩
  · exact .inr ⟨skipped,S,w,rest,split,idle,bound,by simp [fly,found]⟩

theorem fly_calm (s : State) (b : Nat) (frame : Frame) (delta : Option Nat) (todo : List Nat) :
    Calm s (fly s b frame delta todo) := by
  rcases fly_cases s b frame delta todo with ⟨_,eq⟩ | ⟨_,_,_,_,_,_,_,eq⟩ <;> rw [eq]
  · exact (setFlight_calm _ _ _).trans (land_calm _ _)
  · exact (write_calm _ _ _).trans (setFlight_calm _ _ _)

theorem count_calm (s : State) : Calm s { s with nextFlight := s.nextFlight + 1 } :=
  ⟨rfl,rfl,rfl,rfl,rfl,fun _ => rfl,fun _ => by simp [State.wsOf],by simp,fun _ _ => .inl rfl,by simp⟩

theorem launch_calm (s : State) (frame : Frame) (delta : Option Nat) :
    Calm s (launch s frame delta) :=
  (count_calm s).trans (fly_calm _ _ _ _ _)

theorem flightCancelled_calm (s : State) (b : Nat) (f : Flight) :
    Calm s (flightCancelled s b f) := by
  simp only [flightCancelled]
  split
  · exact (setFlight_calm _ _ _).trans (setStream_calm _ _ _)
  · exact setFlight_calm _ _ _

/-- The log and the list of what was published are no part of the bindings. -/
theorem log_calm (s : State) (log : SessionLog) (published : List Entry) :
    Calm s { s with log := log, published := published } :=
  ⟨rfl,rfl,rfl,rfl,rfl,fun _ => rfl,fun _ => by simp [State.wsOf],by simp,fun _ _ => .inl rfl,by simp⟩

theorem active_calm (s : State) (t : Option Nat) : Calm s { s with active := t } :=
  ⟨rfl,rfl,rfl,rfl,rfl,fun _ => rfl,fun _ => by simp [State.wsOf],by simp,fun _ _ => .inl rfl,by simp⟩

theorem detach_alters (s : State) (S : Nat) : Alters s (detach s S) { unbound := some S } := by
  by_cases known : S ∈ s.sessions
  · rw [detach,if_pos known]
    refine ⟨rfl,rfl,rfl,rfl,rfl,?_,?_,by simp,fun _ _ => .inl rfl,by simp [State.setWs]⟩
    · intro S'
      by_cases same : S' = S
      · subst S'; simp [State.setWs]
      · simp [State.setWs,same]
    · intro S'
      by_cases same : S' = S
      · subst S'; simp [State.setWs,State.wsOf,known]
      · simp [State.setWs,State.wsOf,same,Ne.symm same]
  · rw [detach,if_neg known]
    refine ⟨rfl,rfl,rfl,rfl,rfl,fun _ => rfl,?_,by simp,fun _ _ => .inl rfl,by simp⟩
    intro S'
    rw [if_neg]
    rintro ⟨same,mem⟩
    cases same
    exact known mem

theorem crash_alters (s : State) (c : Nat) : Alters s (crash s c) { ended := some c } := by
  refine ⟨rfl,rfl,rfl,rfl,rfl,fun _ => rfl,fun _ => by simp [crash,State.setHandler,State.wsOf],?_,?_,
    by simp [crash,State.setHandler]⟩
  · rintro _ ⟨⟩; simp [crash,State.setHandler]
  · intro d stays
    have other : d ≠ c := by rintro rfl; exact stays rfl
    exact .inl (by simp [crash,State.setHandler,other])

theorem leave_alters (s : State) (c S : Nat) :
    Alters s (leave s c S) { ended := some c, unbound := some S } := by
  have detached := detach_alters s S
  have gone := crash_alters (detach s S) c
  refine ⟨gone.sessions.trans detached.sessions,gone.byResumeKey.trans detached.byResumeKey,
    gone.tokens.trans detached.tokens,gone.attached.trans detached.attached,
    gone.connections.trans detached.connections,fun S' => (gone.key S').trans (detached.key S'),?_,gone.ended,?_,?_⟩
  · intro S'
    exact (gone.ws S').trans (by simpa using detached.ws S')
  · intro d stays
    have kept : (detach s S).handlers = s.handlers := by unfold detach; split <;> rfl
    have settled := gone.others d stays
    rw [kept] at settled
    exact settled
  · intro d
    rw [show (leave s c S).failed d = (crash (detach s S) c).failed d from rfl,gone.failed,
      detached.failed]
    simp

/-- A handler whose session has no socket leaves the sockets as they are. -/
theorem leave_unheld {s : State} {S : Nat} (c : Nat) (idle : s.wsOf S = none) :
    Alters s (leave s c S) { ended := some c } := by
  have all := leave_alters s c S
  refine ⟨all.sessions,all.byResumeKey,all.tokens,all.attached,all.connections,all.key,?_,all.ended,all.others,
    all.failed⟩
  intro S'
  rw [all.ws S']
  by_cases same : S' = S
  · subst S'; simp [idle]
  · simp [Ne.symm same]

theorem markFailed_andAlters {s t : State} {w : Nat} {loss : Loss}
    (second : Alters (s.markFailed w) t loss) (quiet : loss.failing = none) :
    Alters s t { loss with failing := some w } where
  sessions := second.sessions
  byResumeKey := second.byResumeKey
  tokens := second.tokens
  attached := second.attached
  connections := second.connections
  key := second.key
  ws := second.ws
  ended := second.ended
  others := second.others
  failed c := by
    rw [second.failed c,(markFailed_alters s w).failed c]
    simp [quiet]

/-! ## The handler's own progress -/

/-- The session of a handler that cannot send: nothing is bound to its connection. -/
def Unheld (s : State) (S : Nat) : Prop := s.wsOf S = none ∨ S ∉ s.sessions

theorem attachSend_alters {s : State} {c S : Nat} {next : Nat → Handler} (env : Envelope)
    (held : (s.handlers c).session = some S) (kept : ∀ w, (next w).session = some S) :
    Calm s (attachSend s c S env next) ∨
      Unheld s S ∧ Alters s (attachSend s c S env next) { ended := some c } := by
  simp only [attachSend]
  split
  · exact .inl ((write_calm _ _ _).trans (setHandler_calm held (kept _)))
  · next idle => exact .inr ⟨.inl idle,crash_alters s c⟩

theorem resync_alters {s : State} {c S : Nat} (held : (s.handlers c).session = some S) :
    Calm s (resync s c S) ∨ Unheld s S ∧ Alters s (resync s c S) { ended := some c } := by
  simp only [resync]
  split
  · exact .inl (setHandler_calm held rfl)
  · split
    · exact attachSend_alters _ held fun _ => rfl
    · next gone => exact .inr ⟨.inr gone,crash_alters s c⟩

theorem resend_alters {s : State} {c S : Nat} (held : (s.handlers c).session = some S) :
    Calm s (resend s c S) ∨ Unheld s S ∧ Alters s (resend s c S) { ended := some c } := by
  simp only [resend]
  split
  · exact resync_alters held
  · have numbered := log_calm s s.log.nextSeqForResend.1 s.published
    rcases @attachSend_alters { s with log := s.log.nextSeqForResend.1 } c S (.resending S) _ held
      (fun _ => rfl) with calm | ⟨idle,gone⟩
    · exact .inl (numbered.trans calm)
    · exact .inr ⟨idle,numbered.andAlters gone⟩

theorem replay_alters {s : State} {c S : Nat} (rest : List Entry)
    (held : (s.handlers c).session = some S) :
    Calm s (replay s c S rest) ∨ Unheld s S ∧ Alters s (replay s c S rest) { ended := some c } := by
  cases rest with
  | nil => exact resend_alters held
  | cons e rest => exact attachSend_alters _ held fun _ => rfl

theorem sendReply_alters {s : State} {c S : Nat} (body : String)
    (held : (s.handlers c).session = some S) :
    Calm s (sendReply s c S body) ∨
      Unheld s S ∧ Alters s (sendReply s c S body) { ended := some c } := by
  simp only [sendReply]
  split
  · exact .inl ((write_calm _ _ _).trans (setHandler_calm held rfl))
  · next idle => exact .inr ⟨.inl idle,leave_unheld c idle⟩

theorem streamSync_alters {s : State} {c S : Nat} (stream : String)
    (held : (s.handlers c).session = some S) :
    Calm s (streamSync s c S stream) ∨
      Unheld s S ∧ Alters s (streamSync s c S stream) { ended := some c } := by
  simp only [streamSync]
  split
  · split
    · split
      · exact .inl ((write_calm _ _ _).trans (setHandler_calm held rfl))
      · exact sendReply_alters _ held
    · exact sendReply_alters _ held
  · exact sendReply_alters _ held

/-! ## The step lemma -/

/-- The handler that a label ends, the session it detaches by id, and the connection whose
failure it learns of. A handler that ends inside `_handshake` detaches nothing. -/
def lossOf (s : State) : Op → Loss
  | .handlerResumes c false =>
    match s.handlers c with
    | .replaying _ via _ | .resending _ via | .resyncing _ via =>
      { ended := some c, failing := some via }
    | .replying S via => ⟨some c,some S,some via⟩
    | .syncing _ via => { failing := some via }
    | _ => {}
  | .handlerEnds c =>
    match s.handlers c with
    | .serving S | .replying S _ | .syncing S _ => { ended := some c, unbound := some S }
    | _ => { ended := some c }
  | .flightResumes b false =>
    match s.flights b with
    | some f => { unbound := some f.session, failing := some f.via }
    | none => {}
  | _ => {}

/-- Beyond its own loss, a step may end a handler that has nothing to lose. -/
def Loses (s : State) (loss : Loss) (op : Op) : Prop :=
  loss = lossOf s op ∨
    ∃ c S, (s.handlers c).session = some S ∧ Unheld s S ∧ (lossOf s op).ended = none ∧
      (lossOf s op).unbound = none ∧ loss = { lossOf s op with ended := some c }

def Op.isAttach : Op → Bool
  | .attach .. => true
  | _ => false

theorem calm_loses {s t : State} {op : Op} {c S : Nat} (held : (s.handlers c).session = some S)
    (nothing : lossOf s op = {})
    (done : Calm s t ∨ Unheld s S ∧ Alters s t { ended := some c }) :
    ∃ loss, Alters s t loss ∧ Loses s loss op := by
  rcases done with calm | ⟨idle,gone⟩
  · exact ⟨_,calm,.inl nothing.symm⟩
  · exact ⟨_,gone,.inr ⟨c,S,held,idle,by rw [nothing],by rw [nothing],by rw [nothing]⟩⟩

theorem handlerResumes_alters {s t : State} {c : Nat} {ok : Bool}
    (taken : handlerResumes s c ok = some t) :
    ∃ loss, Alters s t loss ∧ Loses s loss (.handlerResumes c ok) := by
  simp only [handlerResumes] at taken
  cases at_ : s.handlers c with
  | absent => simp [at_] at taken
  | ended => simp [at_] at taken
  | serving S => simp [at_] at taken
  | replaying S via rest =>
    simp only [at_,Option.some.injEq] at taken
    subst taken
    cases ok with
    | true => exact calm_loses (by rw [at_]; rfl) rfl (replay_alters rest (by rw [at_]; rfl))
    | false =>
      exact ⟨_,markFailed_andAlters (crash_alters _ c) rfl,.inl (by simp [lossOf,at_])⟩
  | resending S via =>
    simp only [at_,Option.some.injEq] at taken
    subst taken
    cases ok with
    | true => exact calm_loses (by rw [at_]; rfl) rfl (resync_alters (by rw [at_]; rfl))
    | false =>
      exact ⟨_,markFailed_andAlters (crash_alters _ c) rfl,.inl (by simp [lossOf,at_])⟩
  | resyncing S via =>
    simp only [at_,Option.some.injEq] at taken
    subst taken
    cases ok with
    | true => exact ⟨_,setHandler_calm (by rw [at_]; rfl) rfl,.inl rfl⟩
    | false =>
      exact ⟨_,markFailed_andAlters (crash_alters _ c) rfl,.inl (by simp [lossOf,at_])⟩
  | replying S via =>
    simp only [at_,Option.some.injEq] at taken
    subst taken
    cases ok with
    | true => exact ⟨_,setHandler_calm (by rw [at_]; rfl) rfl,.inl rfl⟩
    | false =>
      exact ⟨_,markFailed_andAlters (leave_alters _ c S) rfl,.inl (by simp [lossOf,at_])⟩
  | syncing S via =>
    simp only [at_,Option.some.injEq] at taken
    subst taken
    cases ok with
    | true => exact calm_loses (by rw [at_]; rfl) rfl (sendReply_alters _ (by rw [at_]; rfl))
    | false =>
      have held : ((s.markFailed via).handlers c).session = some S := by
        change (s.handlers c).session = some S
        rw [at_]; rfl
      rcases sendReply_alters "error" held with calm | ⟨idle,gone⟩
      · exact ⟨_,markFailed_andAlters calm rfl,.inl (by simp [lossOf,at_])⟩
      · exact ⟨_,markFailed_andAlters gone rfl,
          .inr ⟨c,S,held,idle,by simp [lossOf,at_],by simp [lossOf,at_],by simp [lossOf,at_]⟩⟩

theorem handlerEnds_alters {s t : State} {c : Nat} (taken : handlerEnds s c = some t) :
    Alters s t (lossOf s (.handlerEnds c)) := by
  simp only [handlerEnds] at taken
  cases at_ : s.handlers c with
  | ended => simp [at_] at taken
  | serving S | replying S _ | syncing S _ =>
    simp only [at_,Option.some.injEq] at taken
    subst taken
    simpa [lossOf,at_] using leave_alters s c S
  | absent | replaying _ _ _ | resending _ _ | resyncing _ _ =>
    simp only [at_,Option.some.injEq] at taken
    subst taken
    simpa [lossOf,at_] using crash_alters s c

theorem step_alters {s t : State} {op : Op} (taken : step s op = some t)
    (other : op.isAttach = false) : ∃ loss, Alters s t loss ∧ Loses s loss op := by
  cases op with
  | attach => cases other
  | handlerResumes c ok => exact handlerResumes_alters taken
  | handlerEnds c => exact ⟨_,handlerEnds_alters taken,.inl rfl⟩
  | reply c body =>
    simp only [step] at taken
    split at taken
    · next S at_ =>
      cases taken
      exact calm_loses (by rw [at_]; rfl) rfl (sendReply_alters body (by rw [at_]; rfl))
    · cases taken
  | streamSync c stream =>
    simp only [step] at taken
    split at taken
    · next S at_ =>
      cases taken
      exact calm_loses (by rw [at_]; rfl) rfl (streamSync_alters stream (by rw [at_]; rfl))
    · cases taken
  | broadcast env stampMs pruneMs =>
    simp only [step] at taken
    split at taken
    · cases taken
      exact ⟨_,(log_calm _ _ _).trans (launch_calm _ _ _),.inl rfl⟩
    · cases taken
  | broadcastBinary payload =>
    cases taken
    exact ⟨_,launch_calm _ _ _,.inl rfl⟩
  | delta t delta =>
    simp only [step] at taken
    split at taken
    · cases taken
      exact ⟨_,(setStream_calm _ _ _).trans (launch_calm _ _ _),.inl rfl⟩
    · cases taken
  | flightResumes b ok =>
    simp only [step] at taken
    split at taken
    · next f found =>
      cases taken
      cases ok with
      | true => exact ⟨_,fly_calm _ _ _ _ _,.inl rfl⟩
      | false =>
        have detached := (detach_alters (s.markFailed f.via) f.session).andCalm
          (fly_calm _ b f.frame f.delta f.rest)
        exact ⟨_,markFailed_andAlters detached rfl,.inl (by simp [lossOf,found])⟩
    · cases taken
  | flightCancelled b =>
    simp only [step] at taken
    split at taken
    · next f found =>
      cases taken
      exact ⟨_,flightCancelled_calm s b f,.inl rfl⟩
    · cases taken
  | streamOpens t =>
    simp only [step] at taken
    split at taken
    · cases taken
      exact ⟨_,(setStream_calm s t _).trans (active_calm _ _),.inl rfl⟩
    · cases taken
  | streamStops t =>
    simp only [step] at taken
    split at taken
    · cases taken
      exact ⟨_,setStream_calm s t _,.inl rfl⟩
    · cases taken
  | streamCleared =>
    cases taken
    exact ⟨_,active_calm s none,.inl rfl⟩

end GhostRunner.Server
