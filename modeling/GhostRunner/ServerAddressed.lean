import GhostRunner.ServerBinding

/-! To whom the frames on a connection are addressed. A session's frames come to the connection
that it was created for, and else only to one that has presented its resume key. -/
namespace GhostRunner.Server

open Machine

/-! ## What a step writes -/

/-- At most one frame is written, to the socket of the session that it is addressed to. -/
def Writes (s t : State) : Prop :=
  t.wire = s.wire ∨ ∃ S w frame, s.wsOf S = some w ∧
    t.wire = Function.update s.wire w (s.wire w ++ [Frame.stamp S frame])

theorem Writes.after {s u t : State} (wire : u.wire = s.wire)
    (ws : ∀ S w, u.wsOf S = some w → s.wsOf S = some w) (writes : Writes u t) : Writes s t := by
  rcases writes with same | ⟨S,w,frame,held,written⟩
  · exact .inl (same.trans wire)
  · exact .inr ⟨S,w,frame,ws S w held,by rw [written,wire]⟩

theorem detach_ws {s : State} {S S' w : Nat} (held : (detach s S).wsOf S' = some w) :
    s.wsOf S' = some w := by
  have alters := (detach_alters s S).ws S'
  rw [held] at alters
  split at alters
  · cases alters
  · exact alters.symm

theorem detach_wire (s : State) (S : Nat) : (detach s S).wire = s.wire := by
  simp only [detach]
  split <;> rfl

theorem land_wire (s : State) (delta : Option Nat) : (land s delta).wire = s.wire := by
  simp only [land]
  split
  · rfl
  · split <;> rfl

theorem fly_writes (s : State) (b : Nat) (frame : Frame) (delta : Option Nat) (todo : List Nat) :
    Writes s (fly s b frame delta todo) := by
  rcases fly_cases s b frame delta todo with ⟨_,eq⟩ | ⟨_,S,w,rest,_,_,held,eq⟩
  · rw [eq]
    exact .inl (land_wire _ delta)
  · rw [eq]
    exact .inr ⟨S,w,frame,held,rfl⟩

theorem launch_writes (s : State) (frame : Frame) (delta : Option Nat) :
    Writes s (launch s frame delta) := fly_writes _ _ _ _ _

theorem attachSend_writes (s : State) (c S : Nat) (env : Envelope) (next : Nat → Handler) :
    Writes s (attachSend s c S env next) := by
  simp only [attachSend]
  split
  · next w held => exact .inr ⟨S,w,.text env,held,rfl⟩
  · exact .inl rfl

theorem resync_writes (s : State) (c S : Nat) : Writes s (resync s c S) := by
  simp only [resync]
  split
  · exact .inl rfl
  · split
    · exact attachSend_writes ..
    · exact .inl rfl

theorem replay_writes (s : State) (c S : Nat) (rest : List Entry) :
    Writes s (replay s c S rest) := by
  cases rest with
  | cons e rest => exact attachSend_writes ..
  | nil =>
    simp only [replay,resend]
    split
    · exact resync_writes ..
    · exact (attachSend_writes ..).after rfl fun _ _ held => held

theorem leave_wire (s : State) (c S : Nat) : (leave s c S).wire = s.wire := detach_wire s S

theorem sendReply_writes (s : State) (c S : Nat) (body : String) :
    Writes s (sendReply s c S body) := by
  simp only [sendReply]
  split
  · next w held => exact .inr ⟨S,w,.reply body,held,rfl⟩
  · exact .inl (leave_wire s c S)

theorem streamSync_writes (s : State) (c S : Nat) (stream : String) :
    Writes s (streamSync s c S stream) := by
  simp only [streamSync]
  split
  · next t _ =>
    split
    · split
      · next w held =>
        have held : s.wsOf S = some w := by
          split at held
          · exact held
          · cases held
        exact .inr ⟨S,w,.text (snapshotToken s t),held,rfl⟩
      · exact sendReply_writes ..
    · exact sendReply_writes ..
  · exact sendReply_writes ..

theorem handlerResumes_writes {s t : State} {c : Nat} {ok : Bool}
    (taken : handlerResumes s c ok = some t) : Writes s t := by
  simp only [handlerResumes] at taken
  split at taken
  · cases taken
    cases ok
    · exact .inl rfl
    · exact replay_writes ..
  · cases taken
    cases ok
    · exact .inl rfl
    · exact resync_writes ..
  · cases taken
    cases ok <;> exact .inl rfl
  · cases taken
    cases ok
    · exact .inl (leave_wire _ _ _)
    · exact .inl rfl
  · next S via _ =>
    cases taken
    cases ok
    · exact (sendReply_writes (s.markFailed via) c S "error").after rfl fun _ _ held => held
    · exact sendReply_writes ..
  · cases taken

theorem handlerEnds_writes {s t : State} {c : Nat} (taken : handlerEnds s c = some t) :
    t.wire = s.wire := by
  simp only [handlerEnds] at taken
  split at taken <;> cases taken
  all_goals first | rfl | exact leave_wire ..

theorem step_writes {s t : State} {op : Op} (taken : step s op = some t)
    (other : op.isAttach = false) : Writes s t := by
  cases op with
  | attach => cases other
  | handlerResumes c ok => exact handlerResumes_writes taken
  | handlerEnds c => exact .inl (handlerEnds_writes taken)
  | reply c body =>
    simp only [step] at taken
    split at taken <;> cases taken
    exact sendReply_writes ..
  | streamSync c stream =>
    simp only [step] at taken
    split at taken <;> cases taken
    exact streamSync_writes ..
  | broadcast env stampMs pruneMs =>
    simp only [step] at taken
    split at taken <;> cases taken
    exact (launch_writes ..).after rfl fun _ _ held => held
  | broadcastBinary payload =>
    cases taken
    exact launch_writes ..
  | delta t delta =>
    simp only [step] at taken
    split at taken <;> cases taken
    exact (launch_writes ..).after rfl fun _ _ held => held
  | flightResumes b ok =>
    simp only [step] at taken
    split at taken <;> cases taken
    next f _ =>
    cases ok with
    | true => exact fly_writes ..
    | false =>
      exact (fly_writes (detach (s.markFailed f.via) f.session) b f.frame f.delta f.rest).after
        (detach_wire (s.markFailed f.via) f.session) fun _ _ held =>
          detach_ws (s := s.markFailed f.via) held
  | flightCancelled b =>
    simp only [step] at taken
    split at taken <;> cases taken
    simp only [flightCancelled]
    split <;> exact .inl rfl
  | streamOpens t =>
    simp only [step] at taken
    split at taken <;> cases taken
    exact .inl rfl
  | streamStops t =>
    simp only [step] at taken
    split at taken <;> cases taken
    exact .inl rfl
  | streamCleared =>
    cases taken
    exact .inl rfl

/-! ## Whom an attaching connection gets -/

/-- The client asks for a session of the manager, by its key. -/
def Shown (s : State) (S : Nat) (resume : Option (Nat × Int)) : Prop :=
  S ∈ s.sessions ∧ ∃ since, resume = some ((s.session S).resumeKey,since)

/-- Before a session is created for `c`, the one that it asks for may have been bound to it. -/
structure Asks (s x : State) (c : Nat) (resume : Option (Nat × Int)) : Prop where
  tokens : x.tokens = s.tokens
  keys : ∀ S, (x.session S).resumeKey = (s.session S).resumeKey
  attached : ∀ S, x.attached S = s.attached S ∨
    x.attached S = some c ∧ Shown s S resume

theorem Asks.refl (s : State) (c : Nat) (resume : Option (Nat × Int)) : Asks s s c resume :=
  ⟨rfl,fun _ => rfl,fun _ => .inl rfl⟩

theorem Asks.drop {s x : State} {c : Nat} {resume : Option (Nat × Int)} (asks : Asks s x c resume)
    (S : Nat) : Asks s (dropSession x S) c resume := by
  obtain ⟨session,attached,tokens,-⟩ := dropSession_keeps x S
  refine ⟨tokens.trans asks.tokens,fun S' => ?_,fun S' => ?_⟩
  · rw [session]
    exact asks.keys S'
  · rw [attached]
    exact asks.attached S'

theorem bind_asks {s : State} {c S key : Nat} {since : Int} (inv : Bindings s)
    (found : s.byResumeKey key = some S) (log : SessionLog) :
    Asks s { bind s S c with log := log } c (some (key,since)) := by
  obtain ⟨member,own⟩ := inv.keys key S found
  refine ⟨rfl,fun S' => ?_,fun S' => ?_⟩
  · by_cases same : S' = S
    · subst S'
      simp [bind,State.setWs]
    · simp [bind,State.setWs,same]
  · by_cases same : S' = S
    · subst S'
      exact .inr ⟨by simp [bind],member,since,by rw [own]⟩
    · exact .inl (by simp [bind,same])

/-- The session is one that was asked for by its key, or a new one. -/
theorem bindSession_asks {s : State} (inv : Bindings s) (c : Nat) (resume : Option (Nat × Int))
    (nowMs pruneMs : Int) : ∃ x, Asks s x c resume ∧
      (((bindSession s c resume nowMs pruneMs).1 = x ∧
          Shown s (bindSession s c resume nowMs pruneMs).2.1 resume) ∨
        ((bindSession s c resume nowMs pruneMs).1 = (createSession x c nowMs).1 ∧
          (bindSession s c resume nowMs pruneMs).2.1 = s.tokens)) := by
  simp only [bindSession]
  cases resume with
  | none => exact ⟨s,.refl s c _,.inr ⟨rfl,rfl⟩⟩
  | some asked =>
    obtain ⟨key,since⟩ := asked
    dsimp only
    rcases resumeSession_cases inv key c nowMs with ⟨S,found,-,eq⟩ | eq | ⟨S,eq⟩ <;> rw [eq]
    · dsimp only
      have asks : Asks s _ c (some (key,since)) := bind_asks inv found
        { s.log with replay := (s.log.replay.tail since pruneMs).1 }
      cases answer : ((bind s S c).log.replay.tail since pruneMs).2 with
      | some entries =>
        obtain ⟨member,own⟩ := inv.keys key S found
        exact ⟨_,asks,.inl ⟨rfl,member,since,by rw [own]⟩⟩
      | none => exact ⟨_,asks.drop S,.inr ⟨rfl,(asks.drop S).tokens⟩⟩
    · exact ⟨s,.refl s c _,.inr ⟨rfl,rfl⟩⟩
    · have asks := (Asks.refl s c (some (key,since))).drop S
      exact ⟨_,asks,.inr ⟨rfl,asks.tokens⟩⟩

/-! ## The mail of a connection -/

/-- A frame for the session has been written to the connection. -/
def Carries (s : State) (c S : Nat) : Prop := ∃ env, .text env ∈ s.wire c ∧ env.session = some S

def Reaches (s : State) (c S : Nat) : Prop := s.attached S = some c ∨ Carries s c S

def ackOf (S : Nat) (replay : Bool) (id : Option String) : Frame :=
  .text { payload := .helloAck S (S + 1) replay, id := id, session := some S }

/-- `shown c key` says that the connection has presented the key. The key of a session is the
token after it. -/
structure Mail (shown : Nat → Nat → Prop) (s : State) : Prop where
  blank : ∀ c, s.handlers c = .absent → s.wire c = []
  opened : ∀ S c, s.attached S = some c → s.wire c ≠ []
  acked : ∀ c, s.wire c = [] ∨ ∃ S replay id rest, s.wire c = ackOf S replay id :: rest
  text : ∀ c env, .text env ∈ s.wire c → env.session ≠ none
  known : ∀ S, (S ∈ s.sessions ∨ ∃ c, Reaches s c S) →
    S < s.tokens ∧ (s.session S).resumeKey = S + 1
  entitled : ∀ S, ∃ first, ∀ c, Reaches s c S → c = first ∨ shown c (S + 1)

variable {shown : Nat → Nat → Prop}

theorem Mail.initial : Mail shown init := by
  refine ⟨fun _ _ => rfl,?_,fun _ => .inl rfl,?_,?_,fun S => ⟨0,?_⟩⟩
  all_goals simp [init,Reaches,Carries]

theorem Frame.stamp_text {S : Nat} {frame : Frame} {env : Envelope}
    (same : Frame.stamp S frame = .text env) : env.session = some S := by
  cases frame with
  | text env' => cases same; rfl
  | reply body => cases same
  | binary payload => cases same

/-- A step that attaches nobody adds nothing but frames for whom the connection is attached to. -/
theorem writes_reaches {s t : State} {loss : Loss} (inv : Bindings s) (writes : Writes s t)
    (alters : Alters s t loss) {c S : Nat} (reaches : Reaches t c S) : Reaches s c S := by
  rcases reaches with attached | ⟨env,among,own⟩
  · rw [alters.attached] at attached
    exact .inl attached
  · rcases writes with same | ⟨S',w,frame,held,written⟩
    · rw [same] at among
      exact .inr ⟨env,among,own⟩
    · rw [written] at among
      by_cases here : c = w
      · subst c
        rw [Function.update_self,List.mem_append,List.mem_singleton] at among
        rcases among with among | new
        · exact .inr ⟨env,among,own⟩
        · have same := Frame.stamp_text new.symm
          rw [own,Option.some.injEq] at same
          exact .inl (same ▸ inv.bound S' w held)
      · rw [Function.update_of_ne here] at among
        exact .inr ⟨env,among,own⟩

theorem Alters.absent {s t : State} {loss : Loss} (alters : Alters s t loss) {c : Nat}
    (absent : t.handlers c = .absent) : s.handlers c = .absent := by
  by_cases gone : loss.ended = some c
  · rw [alters.ended c gone] at absent
    cases absent
  · rcases alters.others c gone with same | ⟨S,_,kept⟩
    · rw [← same]
      exact absent
    · rw [absent] at kept
      cases kept

theorem Mail.serves {s t : State} {loss : Loss} (mail : Mail shown s) (inv : Bindings s)
    (writes : Writes s t) (alters : Alters s t loss) : Mail shown t := by
  have older {c S : Nat} (reaches : Reaches t c S) : Reaches s c S :=
    writes_reaches inv writes alters reaches
  have grows (c : Nat) : t.wire c = s.wire c ∨ s.wire c ≠ [] ∧ ∃ S frame, t.wire c =
      s.wire c ++ [Frame.stamp S frame] := by
    rcases writes with same | ⟨S,w,frame,held,written⟩
    · exact .inl (by rw [same])
    · by_cases here : c = w
      · subst c
        exact .inr ⟨mail.opened S w (inv.bound S w held),S,frame,by rw [written,Function.update_self]⟩
      · exact .inl (by rw [written,Function.update_of_ne here])
  refine ⟨fun c absent => ?_,fun S c attached => ?_,fun c => ?_,fun c env among => ?_,
    fun S known => ?_,fun S => ?_⟩
  · have empty := mail.blank c (alters.absent absent)
    rcases grows c with same | ⟨proper,-⟩
    · rw [same,empty]
    · exact absurd empty proper
  · rw [alters.attached] at attached
    have proper := mail.opened S c attached
    rcases grows c with same | ⟨-,S',frame,more⟩
    · rw [same]
      exact proper
    · rw [more]
      simp
  · rcases grows c with same | ⟨proper,S',frame,more⟩
    · rw [same]
      exact mail.acked c
    · obtain ⟨S,replay,id,rest,first⟩ := (mail.acked c).resolve_left proper
      exact .inr ⟨S,replay,id,rest ++ [Frame.stamp S' frame],by rw [more,first]; rfl⟩
  · rcases grows c with same | ⟨-,S',frame,more⟩
    · rw [same] at among
      exact mail.text c env among
    · rw [more,List.mem_append,List.mem_singleton] at among
      rcases among with among | new
      · exact mail.text c env among
      · rw [Frame.stamp_text new.symm]
        simp
  · rw [alters.tokens,alters.key S]
    refine mail.known S ?_
    rcases known with member | ⟨c,reaches⟩
    · exact .inl (alters.sessions ▸ member)
    · exact .inr ⟨c,older reaches⟩
  · obtain ⟨first,entitled⟩ := mail.entitled S
    exact ⟨first,fun c reaches => entitled c (older reaches)⟩

/-- What `_attach` does to the sessions: one is created, or one is bound that was asked for. -/
structure Admits (s t : State) (c S : Nat) (resume : Option (Nat × Int)) : Prop where
  member : ∀ S' ∈ t.sessions, S' ∈ s.sessions ∨ S' = S
  tokens : s.tokens ≤ t.tokens
  keys : ∀ S', S' ≠ s.tokens → (t.session S').resumeKey = (s.session S').resumeKey
  attached : ∀ S', t.attached S' = s.attached S' ∨ t.attached S' = some c ∧ (S' = S ∨ Shown s S' resume)
  given : Shown s S resume ∨
    S = s.tokens ∧ t.tokens = s.tokens + 2 ∧ (t.session S).resumeKey = S + 1

theorem bindSession_admits {s : State} {c : Nat} (inv : Bindings s)
    (unseen : ∀ S, s.attached S ≠ some c) (resume : Option (Nat × Int)) (nowMs pruneMs : Int) :
    Admits s (bindSession s c resume nowMs pruneMs).1 c
      (bindSession s c resume nowMs pruneMs).2.1 resume := by
  have attaches := bindSession_attaches inv unseen resume nowMs pruneMs
  have member : ∀ S' ∈ (bindSession s c resume nowMs pruneMs).1.sessions,
      S' ∈ s.sessions ∨ S' = (bindSession s c resume nowMs pruneMs).2.1 := by
    intro S' member
    by_cases same : S' = (bindSession s c resume nowMs pruneMs).2.1
    · exact .inr same
    · exact .inl (attaches.others S' member same).1
  obtain ⟨x,asks,⟨eq,asked⟩ | ⟨eq,own⟩⟩ := bindSession_asks inv c resume nowMs pruneMs
  · refine ⟨member,attaches.tokens,fun S' _ => by rw [eq]; exact asks.keys S',fun S' => ?_,
      .inl asked⟩
    rw [eq]
    exact (asks.attached S').imp_right fun both => ⟨both.1,.inr both.2⟩
  · have tokens := asks.tokens
    refine ⟨member,attaches.tokens,fun S' other => ?_,fun S' => ?_,.inr ⟨own,?_,?_⟩⟩
    · rw [eq]
      simpa [createSession,tokens,other] using asks.keys S'
    · by_cases same : S' = s.tokens
      · exact .inr ⟨by rw [eq,same,← tokens]; simp [createSession],.inl (same.trans own.symm)⟩
      · rw [eq]
        rcases asks.attached S' with kept | both
        · exact .inl (by simpa [createSession,tokens,same] using kept)
        · exact .inr ⟨by simpa [createSession,tokens,same] using both.1,.inr both.2⟩
    · rw [eq]
      simp [createSession,tokens]
    · rw [eq,own]
      simp [createSession,tokens]

section
variable {s : State} {c : Nat} {resume : Option (Nat × Int)} {nowMs pruneMs : Int}
  {helloId : Option String}

/-- The connection that attaches gets nothing but the frames of the session that it is given, or
has asked for. -/
theorem attach_reaches {d S : Nat} (mail : Mail shown s) (inv : Bindings s)
    (fresh : s.handlers c = .absent)
    (reaches : Reaches (attach s c helloId resume nowMs pruneMs) d S) :
    Reaches s d S ∨
      d = c ∧ (S = (bindSession s c resume nowMs pruneMs).2.1 ∨ Shown s S resume) := by
  have unseen : ∀ S, s.attached S ≠ some c := fun S was => inv.present S c was fresh
  have admits := bindSession_admits inv unseen resume nowMs pruneMs
  have traffic := bindSession_traffic s c resume nowMs pruneMs
  rcases reaches with attached | ⟨env,among,own⟩
  · have attached : (bindSession s c resume nowMs pruneMs).1.attached S = some d := attached
    rcases admits.attached S with kept | ⟨here,which⟩
    · exact .inl (.inl (kept.symm.trans attached))
    · cases here.symm.trans attached
      exact .inr ⟨rfl,which⟩
  · by_cases here : d = c
    · subst d
      have acked := (attach_arrives inv fresh helloId resume nowMs pruneMs).acked
      obtain ⟨key,replay,id,written⟩ := acked
      rw [written,mail.blank c fresh,List.nil_append,List.mem_singleton] at among
      cases among
      cases own
      exact .inr ⟨rfl,.inl rfl⟩
    · rw [(attach_arrives inv fresh helloId resume nowMs pruneMs).wires d here] at among
      exact .inl (.inr ⟨env,among,own⟩)

theorem attach_known {S : Nat} (mail : Mail shown s) (inv : Bindings s)
    (fresh : s.handlers c = .absent)
    (known : S ∈ (attach s c helloId resume nowMs pruneMs).sessions ∨
      ∃ d, Reaches (attach s c helloId resume nowMs pruneMs) d S) :
    S < (attach s c helloId resume nowMs pruneMs).tokens ∧
      ((attach s c helloId resume nowMs pruneMs).session S).resumeKey = S + 1 := by
  have unseen : ∀ S, s.attached S ≠ some c := fun S was => inv.present S c was fresh
  have admits := bindSession_admits inv unseen resume nowMs pruneMs
  have old (before : S ∈ s.sessions ∨ ∃ d, Reaches s d S) :
      S < (attach s c helloId resume nowMs pruneMs).tokens ∧
        ((attach s c helloId resume nowMs pruneMs).session S).resumeKey = S + 1 := by
    obtain ⟨below,key⟩ := mail.known S before
    exact ⟨below.trans_le admits.tokens,(admits.keys S below.ne).trans key⟩
  have given (same : S = (bindSession s c resume nowMs pruneMs).2.1) :
      S < (attach s c helloId resume nowMs pruneMs).tokens ∧
        ((attach s c helloId resume nowMs pruneMs).session S).resumeKey = S + 1 := by
    rcases admits.given with asked | ⟨new,tokens,key⟩
    · rw [← same] at asked
      exact old (.inl asked.1)
    · rw [← same] at new key
      have tokens : (attach s c helloId resume nowMs pruneMs).tokens = s.tokens + 2 := tokens
      exact ⟨by omega,key⟩
  rcases known with member | ⟨d,reaches⟩
  · exact (admits.member S member).elim (fun before => old (.inl before)) given
  · rcases attach_reaches mail inv fresh reaches with before | ⟨-,same | asked⟩
    · exact old (.inr ⟨d,before⟩)
    · exact given same
    · exact old (.inl asked.1)

theorem Mail.attach (mail : Mail shown s) (inv : Bindings s) (fresh : s.handlers c = .absent)
    (shows : ∀ key since, resume = some (key,since) → shown c key) :
    Mail shown (attach s c helloId resume nowMs pruneMs) := by
  have arrives := attach_arrives inv fresh helloId resume nowMs pruneMs
  have unseen : ∀ S, s.attached S ≠ some c := fun S was => inv.present S c was fresh
  have admits := bindSession_admits inv unseen resume nowMs pruneMs
  have empty := mail.blank c fresh
  obtain ⟨replay,id,written⟩ : ∃ replay id,
      (Server.attach s c helloId resume nowMs pruneMs).wire c =
        [ackOf (bindSession s c resume nowMs pruneMs).2.1 replay id] := by
    have known : ((Server.attach s c helloId resume nowMs pruneMs).session _).resumeKey = _ :=
      (attach_known mail inv fresh (.inl arrives.attaches.member)).2
    refine ⟨(bindSession s c resume nowMs pruneMs).2.2.isSome,helloId,?_⟩
    have same := (bindSession_traffic s c resume nowMs pruneMs).wire
    have known : ((bindSession s c resume nowMs pruneMs).1.session
      (bindSession s c resume nowMs pruneMs).2.1).resumeKey = _ := known
    simp [Server.attach,State.setHandler,State.write,same,empty,ackOf,known]
  refine ⟨fun d absent => ?_,fun S d attached => ?_,fun d => ?_,fun d env among => ?_,
    fun S known => attach_known mail inv fresh known,fun S => ?_⟩
  · have other : d ≠ c := by
      rintro rfl
      rw [arrives.handler] at absent
      cases absent
    rw [arrives.handlers d other] at absent
    rw [arrives.wires d other]
    exact mail.blank d absent
  · by_cases here : d = c
    · subst d
      rw [written]
      simp
    · rw [arrives.wires d here]
      exact mail.opened S d (arrives.elsewhere here attached).1
  · by_cases here : d = c
    · subst d
      exact .inr ⟨_,replay,id,[],written⟩
    · rw [arrives.wires d here]
      exact mail.acked d
  · by_cases here : d = c
    · subst d
      rw [written,List.mem_singleton] at among
      cases among
      simp
    · rw [arrives.wires d here] at among
      exact mail.text d env among
  · have asked (S' : Nat) (asks : Shown s S' resume) : shown c (S' + 1) := by
      obtain ⟨member,since,same⟩ := asks
      rw [← (mail.known S' (.inl member)).2]
      exact shows _ since same
    by_cases new : S = s.tokens
    · refine ⟨c,fun d reaches => ?_⟩
      rcases attach_reaches mail inv fresh reaches with before | ⟨here,-⟩
      · exact absurd (mail.known S (.inr ⟨d,before⟩)).1 (by omega)
      · exact .inl here
    · obtain ⟨first,entitled⟩ := mail.entitled S
      refine ⟨first,fun d reaches => ?_⟩
      rcases attach_reaches mail inv fresh reaches with before | ⟨rfl,same | asks⟩
      · exact entitled d before
      · rcases admits.given with asks | ⟨made,-⟩
        · exact .inr (asked S (same ▸ asks))
        · exact absurd (same.trans made) new
      · exact .inr (asked S asks)

end

/-- The connection has presented the key in its `hello`. -/
def Presented (ops : List Op) (c key : Nat) : Prop :=
  ∃ helloId since nowMs pruneMs, Op.attach c helloId (some (key,since)) nowMs pruneMs ∈ ops

theorem Mail.step {s t : State} {op : Op} (mail : Mail shown s) (inv : Bindings s)
    (taken : step s op = some t) (shows : ∀ c helloId key since nowMs pruneMs,
      op = .attach c helloId (some (key,since)) nowMs pruneMs → shown c key) : Mail shown t := by
  by_cases attaching : op.isAttach = true
  · obtain ⟨c,helloId,resume,nowMs,pruneMs,rfl,fresh,rfl⟩ := attach_taken taken attaching
    exact mail.attach inv fresh fun key since same => shows c helloId key since nowMs pruneMs
      (by rw [same])
  · have other : op.isAttach = false := by simpa using attaching
    obtain ⟨loss,alters,-⟩ := step_alters taken other
    exact mail.serves inv (step_writes taken other) alters

/-- The connection has presented the text of a key. -/
def PresentedText (secret : Nat → String) (ops : List Op) (c : Nat) (text : String) : Prop :=
  ∃ key, secret key = text ∧ Presented ops c key

/-- A connection that is attached begins with a `hello_ack`, with a session and its resume key.
Every notice on it is addressed to a session. No two of these sessions share the text of a key, as
`secrets` does not give one twice; and of the connections on which notices for a session are
written, all but one have presented that text. -/
theorem sessions_kept_apart (secret : Nat → String) (distinct : Function.Injective secret)
    (ops : List Op) (s : State) (reached : run step init ops = some s) :
    (∀ c, s.wire c = [] ∨ ∃ S replay id rest, s.wire c =
      .text { payload := .helloAck S (s.session S).resumeKey replay, id := id,
              session := some S } :: rest) ∧
    (∀ c env, .text env ∈ s.wire c → env.session ≠ none) ∧
    (∀ c d S S', Carries s c S → Carries s d S' →
      secret (s.session S).resumeKey = secret (s.session S').resumeKey → S = S') ∧
    ∀ S, ∃ first, ∀ c, Carries s c S →
      c = first ∨ PresentedText secret ops c (secret (s.session S).resumeKey) := by
  have keep (u : State) (op : Op) (v : State) (inv : Bindings u ∧ Mail (Presented ops) u)
      (among : op ∈ ops) (taken : step u op = some v) : Bindings v ∧ Mail (Presented ops) v := by
    refine ⟨inv.1.step taken,inv.2.step inv.1 taken fun c helloId key since nowMs pruneMs same => ?_⟩
    exact ⟨helloId,since,nowMs,pruneMs,same ▸ among⟩
  have among : Meets step (fun _ op => op ∈ ops) init ops := by
    refine meets_of_steps reached fun first a rest t v split _ _ => ?_
    rw [split]
    simp
  obtain ⟨-,mail⟩ := among.invariant keep ⟨.initial,.initial⟩ reached
  have key {c S : Nat} (carries : Carries s c S) : (s.session S).resumeKey = S + 1 :=
    (mail.known S (.inr ⟨c,.inr carries⟩)).2
  refine ⟨fun c => ?_,mail.text,fun c d S S' first second same => ?_,fun S => ?_⟩
  · refine (mail.acked c).imp_right fun ⟨S,replay,id,rest,first⟩ => ⟨S,replay,id,rest,?_⟩
    have carries : Carries s c S := ⟨_,by rw [first]; exact List.mem_cons_self,rfl⟩
    rw [key carries]
    exact first
  · have same := distinct same
    rw [key first,key second] at same
    exact Nat.succ_injective same
  · obtain ⟨first,entitled⟩ := mail.entitled S
    refine ⟨first,fun c carries => ?_⟩
    rw [key carries]
    exact (entitled c (.inr carries)).imp_right fun presented => ⟨S + 1,rfl,presented⟩

/-- A client comes back on another connection, with the key that it was given on the first. -/
def comesBack : List Op :=
  [.attach 0 (some "h") none 0 0,.handlerResumes 0 true,.attach 1 none (some (1,0)) 0 0]

theorem comesBack_keptApart : ∃ s, run step init comesBack = some s ∧
    (s.wire 0).length = 1 ∧ (s.wire 1).length = 1 ∧
    (∀ c, s.wire c = [] ∨ ∃ S replay id rest, s.wire c =
      .text { payload := .helloAck S (s.session S).resumeKey replay, id := id,
              session := some S } :: rest) ∧
    ∃ first, ∀ c, Carries s c 0 →
      c = first ∨ PresentedText streamId comesBack c (streamId (s.session 0).resumeKey) := by
  have completes : ∃ s, run step init comesBack = some s ∧
      (s.wire 0).length = 1 ∧ (s.wire 1).length = 1 := exists_of_eval (by decide)
  obtain ⟨s,reached,first,second⟩ := completes
  obtain ⟨acked,-,-,entitled⟩ :=
    sessions_kept_apart streamId (fun _ _ => streamId_inj.mp) comesBack s reached
  exact ⟨s,reached,first,second,acked,entitled 0⟩

end GhostRunner.Server
