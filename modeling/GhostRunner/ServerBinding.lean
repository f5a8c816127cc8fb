import Mathlib.Data.List.Basic
import GhostRunner.ServerSteps

/-! Which socket a session is bound to. `Bindings` holds in every reachable state. That a
session stays bound to its live socket does not: the three callers of `detach` name a
session, not a socket, and a handler that ends inside `_handshake` calls none of them. -/
namespace GhostRunner.Server

open Machine

structure Bindings (s : State) : Prop where
  nodup : s.sessions.Nodup
  below : ∀ S ∈ s.sessions, S < s.tokens
  keys : ∀ key S, s.byResumeKey key = some S → S ∈ s.sessions ∧ (s.session S).resumeKey = key
  bound : ∀ S c, s.wsOf S = some c → s.attached S = some c
  present : ∀ S c, s.attached S = some c → s.handlers c ≠ .absent
  owner : ∀ S ∈ s.sessions, ∀ c, s.attached S = some c →
    s.handlers c = .ended ∨ (s.handlers c).session = some S
  single : ∀ S ∈ s.sessions, ∀ S' ∈ s.sessions, ∀ c, s.attached S = some c →
    s.attached S' = some c → S = S'

theorem Bindings.initial : Bindings init := by
  refine ⟨List.nodup_nil,?_,?_,?_,?_,?_,?_⟩
  all_goals intros; simp_all [init,State.wsOf]

theorem Bindings.alters {s t : State} {loss : Loss} (inv : Bindings s) (alters : Alters s t loss) :
    Bindings t where
  nodup := by rw [alters.sessions]; exact inv.nodup
  below := by rw [alters.sessions,alters.tokens]; exact inv.below
  keys key S found := by
    rw [alters.byResumeKey] at found
    rw [alters.sessions,alters.key S]
    exact inv.keys key S found
  bound S c held := by
    rw [alters.ws S] at held
    rw [alters.attached]
    split at held
    · cases held
    · exact inv.bound S c held
  present S c was := by
    rw [alters.attached] at was
    by_cases gone : loss.ended = some c
    · rw [alters.ended c gone]; simp
    · rcases alters.others c gone with same | ⟨S',_,kept⟩
      · rw [same]; exact inv.present S c was
      · intro absent; rw [absent] at kept; cases kept
  owner S mem c was := by
    rw [alters.sessions] at mem
    rw [alters.attached] at was
    by_cases gone : loss.ended = some c
    · exact .inl (alters.ended c gone)
    · rcases alters.others c gone with same | ⟨S',held,kept⟩
      · rw [same]; exact inv.owner S mem c was
      · rcases inv.owner S mem c was with finished | here
        · rw [finished] at held; cases held
        · rw [here] at held; cases held; exact .inr kept
  single := by
    rw [alters.sessions,alters.attached]
    exact inv.single

/-! ## Attaching a connection -/

/-- The fields that `bindSession` does not write, but for the pruning of the replay log. -/
structure SameTraffic (s u : State) : Prop where
  handlers : u.handlers = s.handlers
  failed : u.failed = s.failed
  flights : u.flights = s.flights
  nextFlight : u.nextFlight = s.nextFlight
  streams : u.streams = s.streams
  active : u.active = s.active
  wire : u.wire = s.wire
  published : u.published = s.published
  connections : u.connections = s.connections
  seq : u.log.seq = s.log.seq
  stateSnapshot : u.log.stateSnapshot = s.log.stateSnapshot
  entries : ∀ e ∈ u.log.replay.entries, e ∈ s.log.replay.entries
  tracks : ∀ published, Tracks published s.log.replay → Tracks published u.log.replay

/-- Connection `c`, not seen before, is now attached to session `S`. A session dropped on
the way may still name `c`, but the manager no longer has it. -/
structure Attaches (s u : State) (c S : Nat) : Prop where
  member : S ∈ u.sessions
  bound : u.wsOf S = some c
  attached : u.attached S = some c
  others : ∀ S' ∈ u.sessions, S' ≠ S → S' ∈ s.sessions ∧ u.attached S' = s.attached S'
  sockets : ∀ S', u.wsOf S' = s.wsOf S' ∧ u.attached S' = s.attached S' ∨
    u.wsOf S' = some c ∧ u.attached S' = some c
  moved : ∀ S', u.wsOf S' ≠ s.wsOf S' → S' < s.tokens → S' ∈ s.sessions
  older : ∀ S₁ S₂, S₁ < s.tokens → S₂ < s.tokens → u.attached S₁ = some c →
    u.attached S₂ = some c → S₁ = S₂
  nodup : u.sessions.Nodup
  below : ∀ S' ∈ u.sessions, S' < u.tokens
  keys : ∀ key S, u.byResumeKey key = some S → S ∈ u.sessions ∧ (u.session S).resumeKey = key
  tokens : s.tokens ≤ u.tokens

theorem SameTraffic.refl (s : State) : SameTraffic s s :=
  ⟨rfl,rfl,rfl,rfl,rfl,rfl,rfl,rfl,rfl,rfl,rfl,fun _ mem => mem,fun _ kept => kept⟩

theorem dropSession_traffic {s u : State} (S : Nat) (traffic : SameTraffic s u) :
    SameTraffic s (dropSession u S) := by
  simp only [dropSession]
  split
  · exact ⟨traffic.handlers,traffic.failed,traffic.flights,traffic.nextFlight,traffic.streams,
      traffic.active,traffic.wire,traffic.published,traffic.connections,traffic.seq,
      traffic.stateSnapshot,traffic.entries,traffic.tracks⟩
  · exact traffic

theorem createSession_traffic {s u : State} (c : Nat) (nowMs : Int) (traffic : SameTraffic s u) :
    SameTraffic s (createSession u c nowMs).1 :=
  ⟨traffic.handlers,traffic.failed,traffic.flights,traffic.nextFlight,traffic.streams,
    traffic.active,traffic.wire,traffic.published,traffic.connections,traffic.seq,
    traffic.stateSnapshot,traffic.entries,traffic.tracks⟩

theorem resumeSession_traffic (s : State) (key c : Nat) (nowMs : Int) :
    SameTraffic s (resumeSession s key c nowMs).1 := by
  simp only [resumeSession]
  split
  · exact SameTraffic.refl s
  · split
    · exact dropSession_traffic _ (SameTraffic.refl s)
    · exact ⟨rfl,rfl,rfl,rfl,rfl,rfl,rfl,rfl,rfl,rfl,rfl,fun _ mem => mem,fun _ kept => kept⟩

theorem bindSession_traffic (s : State) (c : Nat) (resume : Option (Nat × Int))
    (nowMs pruneMs : Int) : SameTraffic s (bindSession s c resume nowMs pruneMs).1 := by
  simp only [bindSession]
  cases resume with
  | none => exact createSession_traffic c nowMs (SameTraffic.refl s)
  | some asked =>
    have resumed := resumeSession_traffic s asked.1 c nowMs
    dsimp only
    generalize resumeSession s asked.1 c nowMs = result at resumed
    obtain ⟨u,found⟩ := result
    cases found with
    | none => exact createSession_traffic c nowMs resumed
    | some S =>
      have asked' : SameTraffic s
          { u with log := { u.log with replay := (u.log.replay.tail asked.2 pruneMs).1 } } := by
        refine ⟨resumed.handlers,resumed.failed,resumed.flights,resumed.nextFlight,
          resumed.streams,resumed.active,resumed.wire,resumed.published,resumed.connections,
          resumed.seq,resumed.stateSnapshot,?_,?_⟩
        · intro e mem
          rw [ReplayLog.tail_log] at mem
          exact resumed.entries e ((u.log.replay.prune_sublist pruneMs).subset mem)
        · intro published kept
          rw [ReplayLog.tail_log]
          exact (resumed.tracks published kept).prune pruneMs
      dsimp only
      split
      · exact asked'
      · exact createSession_traffic c nowMs (dropSession_traffic S asked')

theorem dropSession_keeps (s : State) (S : Nat) :
    (dropSession s S).session = s.session ∧ (dropSession s S).attached = s.attached ∧
      (dropSession s S).tokens = s.tokens ∧
      (dropSession s S).sessions.Sublist s.sessions := by
  simp only [dropSession]
  split
  · exact ⟨rfl,rfl,rfl,List.erase_sublist⟩
  · exact ⟨rfl,rfl,rfl,List.Sublist.refl _⟩

theorem dropSession_keys {s : State} (S : Nat)
    (keys : ∀ key S, s.byResumeKey key = some S → S ∈ s.sessions ∧ (s.session S).resumeKey = key) :
    ∀ key S', (dropSession s S).byResumeKey key = some S' → S' ∈ (dropSession s S).sessions ∧
      ((dropSession s S).session S').resumeKey = key := by
  intro key S' found
  simp only [dropSession] at *
  split at found
  · next known =>
    rw [if_pos known]
    by_cases own : key = (s.session S).resumeKey
    · subst key; simp at found
    · simp only [Function.update_of_ne own] at found
      obtain ⟨mem,same⟩ := keys key S' found
      have other : S' ≠ S := by rintro rfl; exact own same.symm
      exact ⟨(List.mem_erase_of_ne other).mpr mem,same⟩
  · next unknown =>
    rw [if_neg unknown]
    exact keys key S' found

/-- A fresh session, created after some of the old ones may have been dropped. -/
theorem createSession_attaches {s x : State} {c : Nat} (nowMs : Int) (inv : Bindings s)
    (fewer : x.sessions.Sublist s.sessions)
    (tokens : x.tokens = s.tokens)
    (keys : ∀ key S, x.byResumeKey key = some S → S ∈ x.sessions ∧ (x.session S).resumeKey = key)
    (dropped : ∀ S, x.wsOf S = s.wsOf S ∧ x.attached S = s.attached S ∨
      S ∈ s.sessions ∧ S ∉ x.sessions ∧ x.wsOf S = some c ∧ x.attached S = some c)
    (atMostOne : ∀ S₁ S₂, x.attached S₁ = some c → x.attached S₂ = some c → S₁ = S₂) :
    Attaches s (createSession x c nowMs).1 c (createSession x c nowMs).2 := by
  have older : ∀ S ∈ x.sessions, S < s.tokens := fun S mem => inv.below S (fewer.subset mem)
  have new : ∀ S ∈ x.sessions, S ≠ x.tokens := fun S mem => by
    have := older S mem
    omega
  refine ⟨?_,?_,?_,?_,?_,?_,?_,?_,?_,?_,?_⟩
  · simp [createSession]
  · simp [createSession,State.wsOf]
  · simp [createSession]
  · intro S mem other
    have mem : S ∈ x.sessions := by simpa [createSession,show S ≠ x.tokens from other] using mem
    refine ⟨fewer.subset mem,?_⟩
    rcases dropped S with ⟨_,same⟩ | ⟨_,gone,_⟩
    · simpa [createSession,new S mem] using same
    · exact (gone mem).elim
  · intro S
    by_cases same : S = x.tokens
    · subst S; simp [createSession,State.wsOf]
    · rcases dropped S with kept | ⟨_,_,bound⟩
      · exact .inl (by simpa [createSession,State.wsOf,same] using kept)
      · exact .inr (by simpa [createSession,State.wsOf,same] using bound)
  · intro S changed old
    rcases dropped S with ⟨kept,_⟩ | ⟨mem,_⟩
    · refine (changed ?_).elim
      rw [← kept]
      simp [createSession,State.wsOf,show S ≠ x.tokens by omega]
    · exact mem
  · intro S₁ S₂ old₁ old₂ here₁ here₂
    apply atMostOne
    · simpa [createSession,show S₁ ≠ x.tokens by omega] using here₁
    · simpa [createSession,show S₂ ≠ x.tokens by omega] using here₂
  · refine List.nodup_append.mpr ⟨inv.nodup.sublist fewer,by simp,?_⟩
    intro S mem S' here
    rw [List.mem_singleton.mp here]
    exact new S mem
  · intro S mem
    rcases List.mem_append.mp mem with old | here
    · have := older S old
      simp only [createSession]
      omega
    · simp only [createSession,List.mem_singleton] at here ⊢
      omega
  · intro key S found
    simp only [createSession] at found ⊢
    by_cases own : key = x.tokens + 1
    · subst key
      simp only [Function.update_self,Option.some.injEq] at found
      subst S
      simp
    · rw [Function.update_of_ne own] at found
      obtain ⟨mem,same⟩ := keys key S found
      simpa [mem,new S mem] using same
  · simp only [createSession]; omega

theorem bind_attaches {s : State} {c S : Nat} (inv : Bindings s)
    (unseen : ∀ S, s.attached S ≠ some c) (member : S ∈ s.sessions) (replay : ReplayLog) :
    Attaches s { bind s S c with log := { s.log with replay := replay } } c S := by
  refine ⟨member,by simp [bind,State.setWs,State.wsOf],by simp [bind],?_,?_,?_,?_,inv.nodup,
    inv.below,?_,le_rfl⟩
  · intro S' mem other
    exact ⟨mem,by simp [bind,other]⟩
  · intro S'
    by_cases same : S' = S
    · subst S'; simp [bind,State.setWs,State.wsOf]
    · simp [bind,State.setWs,State.wsOf,same]
  · intro S' changed _
    by_cases same : S' = S
    · rw [same]; exact member
    · exact (changed (by simp [bind,State.setWs,State.wsOf,same])).elim
  · have here : ∀ S', (bind s S c).attached S' = some c → S' = S := by
      intro S' now
      by_cases same : S' = S
      · exact same
      · exact (unseen S' (by simpa [bind,same] using now)).elim
    intro S₁ S₂ _ _ here₁ here₂
    exact (here S₁ here₁).trans (here S₂ here₂).symm
  · intro key S' found
    obtain ⟨mem,same⟩ := inv.keys key S' found
    refine ⟨mem,?_⟩
    by_cases own : S' = S
    · subst S'; simpa [bind,State.setWs] using same
    · simpa [bind,State.setWs,own] using same

/-- The resumed session was found, so `self._sessions[session_id]` never fails. -/
theorem resumeSession_cases {s : State} (inv : Bindings s) (key c : Nat) (nowMs : Int) :
    (∃ S, s.byResumeKey key = some S ∧ S ∈ s.sessions ∧
      resumeSession s key c nowMs = (bind s S c,some S)) ∨
    resumeSession s key c nowMs = (s,none) ∨
    ∃ S, resumeSession s key c nowMs = (dropSession s S,none) := by
  simp only [resumeSession]
  split
  · exact .inr (.inl rfl)
  · next S found =>
    split
    · exact .inr (.inr ⟨S,rfl⟩)
    · exact .inl ⟨S,found,(inv.keys key S found).1,rfl⟩

theorem created_attaches {s : State} {c : Nat} (inv : Bindings s)
    (unseen : ∀ S, s.attached S ≠ some c) (nowMs : Int) :
    Attaches s (createSession s c nowMs).1 c (createSession s c nowMs).2 :=
  createSession_attaches nowMs inv (List.Sublist.refl _) rfl inv.keys
    (fun _ => .inl ⟨rfl,rfl⟩) (fun S₁ _ here => (unseen S₁ here).elim)

theorem expired_attaches {s : State} {c : Nat} (inv : Bindings s)
    (unseen : ∀ S, s.attached S ≠ some c) (S : Nat) (nowMs : Int) :
    Attaches s (createSession (dropSession s S) c nowMs).1 c
      (createSession (dropSession s S) c nowMs).2 := by
  obtain ⟨session,attached,tokens,fewer⟩ := dropSession_keeps s S
  refine createSession_attaches nowMs inv fewer tokens (dropSession_keys S inv.keys) ?_ ?_
  · intro S'
    exact .inl ⟨by rw [State.wsOf,session]; rfl,by rw [attached]⟩
  · intro S₁ _ here
    rw [attached] at here
    exact (unseen S₁ here).elim

/-- A refused resume has already bound the session that it drops. -/
theorem refused_attaches {s : State} {c S : Nat} {replay : ReplayLog} (inv : Bindings s)
    (unseen : ∀ S, s.attached S ≠ some c) (member : S ∈ s.sessions) (nowMs : Int) :
    Attaches s
      (createSession (dropSession { bind s S c with log := { s.log with replay := replay } } S)
        c nowMs).1 c
      (createSession (dropSession { bind s S c with log := { s.log with replay := replay } } S)
        c nowMs).2 := by
  have bound := bind_attaches inv unseen member replay
  have elsewhere : ∀ S', S' ≠ S → (bind s S c).session S' = s.session S' ∧
      (bind s S c).attached S' = s.attached S' := by
    intro S' other
    simp [bind,State.setWs,other]
  obtain ⟨session,attached,tokens,fewer⟩ :=
    dropSession_keeps { bind s S c with log := { s.log with replay := replay } } S
  refine createSession_attaches nowMs inv fewer tokens (dropSession_keys S bound.keys) ?_ ?_
  · intro S'
    rw [State.wsOf,session,attached]
    by_cases same : S' = S
    · subst S'
      refine .inr ⟨member,?_,bound.bound,bound.attached⟩
      rw [dropSession,if_pos (show S ∈ (bind s S c).sessions from member)]
      exact inv.nodup.not_mem_erase
    · obtain ⟨ws,kept⟩ := elsewhere S' same
      exact .inl ⟨congrArg ClientSession.ws ws,kept⟩
  · rw [attached]
    have here : ∀ S', (bind s S c).attached S' = some c → S' = S := by
      intro S' now
      by_contra other
      rw [(elsewhere S' other).2] at now
      exact unseen S' now
    intro S₁ S₂ here₁ here₂
    exact (here S₁ here₁).trans (here S₂ here₂).symm

theorem bindSession_attaches {s : State} {c : Nat} (inv : Bindings s)
    (unseen : ∀ S, s.attached S ≠ some c) (resume : Option (Nat × Int)) (nowMs pruneMs : Int) :
    Attaches s (bindSession s c resume nowMs pruneMs).1 c
      (bindSession s c resume nowMs pruneMs).2.1 := by
  simp only [bindSession]
  cases resume with
  | none => exact created_attaches inv unseen nowMs
  | some asked =>
    obtain ⟨key,lastSeen⟩ := asked
    dsimp only
    rcases resumeSession_cases inv key c nowMs with ⟨S,_,member,eq⟩ | eq | ⟨S,eq⟩ <;> rw [eq]
    · dsimp only
      cases answer : ((bind s S c).log.replay.tail lastSeen pruneMs).2 with
      | some entries => exact bind_attaches inv unseen member _
      | none => exact refused_attaches inv unseen member nowMs
    · exact created_attaches inv unseen nowMs
    · exact expired_attaches inv unseen S nowMs

/-- A tail to replay comes with the session that the client asked for, and with no other. -/
theorem bindSession_resumed {s : State} {c : Nat} {resume : Option (Nat × Int)}
    {nowMs pruneMs : Int} {entries : List Entry} (inv : Bindings s)
    (answer : (bindSession s c resume nowMs pruneMs).2.2 = some entries) :
    ∃ key since S, resume = some (key,since) ∧ S ∈ s.sessions ∧
      (s.log.replay.tail since pruneMs).2 = some entries ∧
      bindSession s c resume nowMs pruneMs =
        ({ bind s S c with
            log := { s.log with replay := (s.log.replay.tail since pruneMs).1 } },
          S,some entries) := by
  simp only [bindSession] at answer ⊢
  cases resume with
  | none => cases answer
  | some asked =>
    obtain ⟨key,since⟩ := asked
    dsimp only at answer ⊢
    rcases resumeSession_cases inv key c nowMs with ⟨S,_,member,eq⟩ | eq | ⟨S,eq⟩ <;>
      rw [eq] at answer ⊢
    · dsimp only at answer ⊢
      split at answer
      · next entries' accepted =>
        cases answer
        exact ⟨key,since,S,rfl,member,accepted,rfl⟩
      · cases answer
    · cases answer
    · cases answer

/-- What `_attach` has done by the time it awaits the send of `hello_ack`. -/
structure Arrives (s t : State) (c S : Nat) (tail : List Entry) : Prop where
  attaches : Attaches s t c S
  handler : t.handlers c = .replaying S c tail
  handlers : ∀ d, d ≠ c → t.handlers d = s.handlers d
  acked : ∃ key replay id, t.wire c =
    s.wire c ++ [.text { payload := .helloAck S key replay, id := id, session := some S }]
  wires : ∀ w, w ≠ c → t.wire w = s.wire w
  failed : t.failed = s.failed
  flights : t.flights = s.flights
  nextFlight : t.nextFlight = s.nextFlight
  streams : t.streams = s.streams
  published : t.published = s.published
  connections : t.connections = s.connections ++ [c]
  seq : t.log.seq = s.log.seq
  stateSnapshot : t.log.stateSnapshot = s.log.stateSnapshot
  entries : ∀ e ∈ t.log.replay.entries, e ∈ s.log.replay.entries
  tracks : ∀ published, Tracks published s.log.replay → Tracks published t.log.replay
  tail : tail.Sublist s.log.replay.entries

theorem attach_arrives {s : State} {c : Nat} (inv : Bindings s) (fresh : s.handlers c = .absent)
    (helloId : Option String) (resume : Option (Nat × Int)) (nowMs pruneMs : Int) :
    Arrives s (attach s c helloId resume nowMs pruneMs) c
      (bindSession s c resume nowMs pruneMs).2.1
      ((bindSession s c resume nowMs pruneMs).2.2.getD []) := by
  have unseen : ∀ S, s.attached S ≠ some c := fun S was => inv.present S c was fresh
  have traffic := bindSession_traffic s c resume nowMs pruneMs
  obtain ⟨member,bound,attached,others,sockets,moved,older,nodup,below,keys,tokens⟩ :=
    bindSession_attaches inv unseen resume nowMs pruneMs
  refine ⟨⟨member,bound,attached,others,sockets,moved,older,nodup,below,keys,tokens⟩,?_,?_,?_,?_,
    traffic.failed,traffic.flights,traffic.nextFlight,traffic.streams,traffic.published,?_,
    traffic.seq,traffic.stateSnapshot,traffic.entries,traffic.tracks,?_⟩
  · simp [attach,State.setHandler]
  · intro d other
    simp [attach,State.setHandler,State.write,other,traffic.handlers]
  · refine ⟨((bindSession s c resume nowMs pruneMs).1.session
      (bindSession s c resume nowMs pruneMs).2.1).resumeKey,
      (bindSession s c resume nowMs pruneMs).2.2.isSome,helloId,?_⟩
    simp [attach,State.setHandler,State.write,traffic.wire]
  · intro w other
    simp [attach,State.setHandler,State.write,other,traffic.wire]
  · simp [attach,State.setHandler,State.write,traffic.connections]
  · cases answer : (bindSession s c resume nowMs pruneMs).2.2 with
    | none => simp
    | some entries =>
      obtain ⟨_,_,_,_,_,accepted,_⟩ := bindSession_resumed inv answer
      exact ReplayLog.tail_sublist accepted

section
variable {s t : State} {c S : Nat} {tail : List Entry}

theorem Arrives.elsewhere (arrives : Arrives s t c S tail) {S' d : Nat} (other : d ≠ c)
    (was : t.attached S' = some d) : s.attached S' = some d ∧ t.wsOf S' = s.wsOf S' := by
  rcases arrives.attaches.sockets S' with ⟨ws,same⟩ | ⟨_,here⟩
  · exact ⟨by rw [← same]; exact was,ws⟩
  · rw [here] at was; cases was; exact (other rfl).elim

theorem Arrives.socket (arrives : Arrives s t c S tail) {S' w : Nat} (other : w ≠ c)
    (held : t.wsOf S' = some w) : s.wsOf S' = some w := by
  rcases arrives.attaches.sockets S' with ⟨ws,_⟩ | ⟨here,_⟩
  · rw [← ws]; exact held
  · rw [here] at held; cases held; exact (other rfl).elim

theorem Arrives.only (arrives : Arrives s t c S tail) (unseen : ∀ S, s.attached S ≠ some c)
    {S' : Nat} (mem : S' ∈ t.sessions) (here : t.attached S' = some c) : S' = S := by
  by_contra other
  obtain ⟨_,kept⟩ := arrives.attaches.others S' mem other
  exact unseen S' (by rw [← kept]; exact here)

theorem Arrives.older (arrives : Arrives s t c S tail) {S' d : Nat} (other : d ≠ c)
    (mem : S' ∈ t.sessions) (was : t.attached S' = some d) : S' ∈ s.sessions := by
  refine (arrives.attaches.others S' mem ?_).1
  rintro rfl
  exact other (Option.some.inj (was.symm.trans arrives.attaches.attached))

/-- An attached connection is served by its own handler, and no other one. -/
theorem Bindings.arrives (inv : Bindings s) (fresh : s.handlers c = .absent)
    (arrives : Arrives s t c S tail) : Bindings t := by
  have unseen : ∀ S, s.attached S ≠ some c := fun S was => inv.present S c was fresh
  refine ⟨arrives.attaches.nodup,arrives.attaches.below,arrives.attaches.keys,?_,?_,?_,?_⟩
  · intro S' d held
    rcases arrives.attaches.sockets S' with ⟨ws,kept⟩ | ⟨ws,here⟩
    · rw [kept]; exact inv.bound S' d (by rw [← ws]; exact held)
    · rw [here,← ws]; exact held
  · intro S' d was
    by_cases own : d = c
    · subst d; rw [arrives.handler]; simp
    · rw [arrives.handlers d own]
      exact inv.present S' d (arrives.elsewhere own was).1
  · intro S' mem d was
    by_cases own : d = c
    · subst d
      rw [arrives.only unseen mem was,arrives.handler]
      exact .inr rfl
    · rw [arrives.handlers d own]
      exact inv.owner S' (arrives.older own mem was) d (arrives.elsewhere own was).1
  · intro S₁ mem₁ S₂ mem₂ d was₁ was₂
    by_cases own : d = c
    · subst d; exact (arrives.only unseen mem₁ was₁).trans (arrives.only unseen mem₂ was₂).symm
    · exact inv.single S₁ (arrives.older own mem₁ was₁) S₂ (arrives.older own mem₂ was₂) d
        (arrives.elsewhere own was₁).1 (arrives.elsewhere own was₂).1

end

theorem attach_taken {s t : State} {op : Op} (taken : step s op = some t)
    (attaching : op.isAttach = true) : ∃ c helloId resume nowMs pruneMs,
      op = .attach c helloId resume nowMs pruneMs ∧ s.handlers c = .absent ∧
      t = attach s c helloId resume nowMs pruneMs := by
  cases op with
  | attach c helloId resume nowMs pruneMs =>
    simp only [step] at taken
    split at taken
    · next fresh => cases taken; exact ⟨c,helloId,resume,nowMs,pruneMs,rfl,fresh,rfl⟩
    · cases taken
  | _ => cases attaching

theorem Bindings.step {s t : State} {op : Op} (inv : Bindings s) (taken : step s op = some t) :
    Bindings t := by
  by_cases attaching : op.isAttach = true
  · obtain ⟨c,helloId,resume,nowMs,pruneMs,rfl,fresh,rfl⟩ := attach_taken taken attaching
    exact inv.arrives fresh (attach_arrives inv fresh helloId resume nowMs pruneMs)
  · obtain ⟨loss,alters,_⟩ := step_alters taken (by simpa using attaching)
    exact inv.alters alters

/-! ## Live sockets -/

/-- The connection last attached to a session, while its handler runs and no send to it
has failed, is the session's socket; and no socket outlives its handler. -/
structure BoundToLive (s : State) : Prop where
  live : ∀ S ∈ s.sessions, ∀ c, s.attached S = some c → s.handlers c ≠ .ended →
    s.failed c = false → s.wsOf S = some c
  dead : ∀ c, s.handlers c = .ended → ∀ S ∈ s.sessions, s.wsOf S ≠ some c

/-- A session is detached only on account of the socket it has at that moment, and a
handler that ends detaches the session its connection is bound to. -/
def DetachesOwn (s : State) (op : Op) : Prop :=
  (∀ S ∈ s.sessions, (lossOf s op).unbound = some S → ∀ c ∈ s.wsOf S,
    (lossOf s op).ended = some c ∨ (lossOf s op).failing = some c ∨ s.failed c = true) ∧
  ∀ c ∈ (lossOf s op).ended, ∀ S ∈ s.sessions, s.wsOf S = some c → (lossOf s op).unbound = some S

instance (s : State) (op : Op) : Decidable (DetachesOwn s op) := by
  unfold DetachesOwn; infer_instance

theorem BoundToLive.alters {s t : State} {loss : Loss} {op : Op} (inv : Bindings s)
    (bound : BoundToLive s) (alters : Alters s t loss) (loses : Loses s loss op)
    (own : DetachesOwn s op) : BoundToLive t where
  live S mem c was runs sound := by
    rw [alters.sessions] at mem
    rw [alters.attached] at was
    have stays : loss.ended ≠ some c := fun gone => runs (alters.ended c gone)
    have ran : s.handlers c ≠ .ended := by
      intro finished
      rcases alters.others c stays with same | ⟨S',held,_⟩
      · exact runs (same.trans finished)
      · rw [finished] at held; cases held
    have unfailed : ¬(s.failed c = true ∨ loss.failing = some c) := by
      rw [← alters.failed c,sound]; simp
    have here := bound.live S mem c was ran (by simpa using (not_or.mp unfailed).1)
    rw [alters.ws S,if_neg,here]
    rintro ⟨detached,_⟩
    rcases loses with rfl | ⟨_,_,_,_,_,none,rfl⟩
    · rcases own.1 S mem detached c here with gone | failing | failed
      · exact stays gone
      · exact unfailed (.inr failing)
      · exact unfailed (.inl failed)
    · rw [none] at detached; cases detached
  dead c finished S mem here := by
    rw [alters.sessions] at mem
    rw [alters.ws S] at here
    split at here
    · cases here
    · next kept =>
      by_cases gone : loss.ended = some c
      · rcases loses with rfl | ⟨d,S',held,idle,_,_,rfl⟩
        · exact kept ⟨own.2 c gone S mem here,mem⟩
        · cases gone
          rcases inv.owner S mem c (inv.bound S c here) with already | serves
          · rw [already] at held; cases held
          · rw [serves] at held
            cases held
            rcases idle with none | dropped
            · rw [none] at here; cases here
            · exact dropped mem
      · rcases alters.others c gone with same | ⟨_,_,stays⟩
        · exact bound.dead c (same.symm.trans finished) S mem here
        · rw [finished] at stays; cases stays

theorem BoundToLive.arrives {s t : State} {c S : Nat} {tail : List Entry} (inv : Bindings s)
    (bound : BoundToLive s) (fresh : s.handlers c = .absent) (arrives : Arrives s t c S tail) :
    BoundToLive t := by
  have unseen : ∀ S, s.attached S ≠ some c := fun S was => inv.present S c was fresh
  constructor
  · intro S' mem d was runs sound
    by_cases own : d = c
    · subst d
      rw [arrives.only unseen mem was]
      exact arrives.attaches.bound
    · obtain ⟨before,ws⟩ := arrives.elsewhere own was
      rw [arrives.handlers d own] at runs
      rw [arrives.failed] at sound
      rw [ws]
      exact bound.live S' (arrives.older own mem was) d before runs sound
  · intro d finished S' mem here
    have own : d ≠ c := by
      rintro rfl
      rw [arrives.handler] at finished
      cases finished
    have was := (inv.arrives fresh arrives).bound S' d here
    rw [arrives.handlers d own] at finished
    exact bound.dead d finished S' (arrives.older own mem was) (arrives.socket own here)

theorem detachesOwn_keeps {s t : State} {op : Op} (inv : Bindings s ∧ BoundToLive s)
    (own : DetachesOwn s op) (taken : step s op = some t) : Bindings t ∧ BoundToLive t := by
  refine ⟨inv.1.step taken,?_⟩
  by_cases attaching : op.isAttach = true
  · obtain ⟨c,helloId,resume,nowMs,pruneMs,rfl,fresh,rfl⟩ := attach_taken taken attaching
    exact inv.2.arrives inv.1 fresh (attach_arrives inv.1 fresh helloId resume nowMs pruneMs)
  · obtain ⟨loss,alters,loses⟩ := step_alters taken (by simpa using attaching)
    exact inv.2.alters inv.1 alters loses own

/-- A detach on another socket's account takes a live socket away at once, and so does a
handler that ends without detaching leave its socket behind at once. -/
theorem foreignDetach_breaks {s t : State} {op : Op} (inv : Bindings s ∧ BoundToLive s)
    (taken : step s op = some t) (foreign : ¬DetachesOwn s op) : ¬BoundToLive t := by
  intro after
  have other : op.isAttach = false := by
    by_contra attaching
    obtain ⟨c,helloId,resume,nowMs,pruneMs,rfl,_⟩ := attach_taken taken (by simpa using attaching)
    exact foreign ⟨fun _ _ detached => (nomatch detached),fun _ gone => (nomatch gone)⟩
  obtain ⟨loss,alters,loses⟩ := step_alters taken other
  rcases not_and_or.mp foreign with taking | leaving
  · simp only [not_forall,not_or] at taking
    obtain ⟨S,mem,detached,c,here,notEnded,notFailing,unfailed⟩ := taking
    rcases loses with rfl | ⟨_,_,_,_,_,none,_⟩
    · have runs : t.handlers c ≠ .ended := by
        rcases alters.others c notEnded with same | ⟨_,_,stays⟩
        · rw [same]; exact fun finished => inv.2.dead c finished S mem here
        · intro finished; rw [finished] at stays; cases stays
      have sound : t.failed c = false := by
        by_contra failed
        rcases (alters.failed c).mp (by simpa using failed) with before | now
        · exact unfailed before
        · exact notFailing now
      have still := after.live S (by rw [alters.sessions]; exact mem) c
        (by rw [alters.attached]; exact inv.1.bound S c here) runs sound
      rw [alters.ws S,if_pos ⟨detached,mem⟩] at still
      cases still
    · rw [none] at detached; cases detached
  · simp only [not_forall] at leaving
    obtain ⟨c,gone,S,mem,here,kept⟩ := leaving
    rcases loses with rfl | ⟨_,_,_,_,none,_,_⟩
    · refine after.dead c (alters.ended c gone) S (by rw [alters.sessions]; exact mem) ?_
      rw [alters.ws S,if_neg fun detached => kept detached.1]
      exact here
    · rw [Option.mem_def,none] at gone; cases gone

/-- Sessions stay bound to their live sockets in exactly the runs that detach a session
only for the socket it has. -/
theorem boundToLive_throughout_iff (ops : List Op) (s : State)
    (reached : run step init ops = some s) :
    Throughout step BoundToLive init ops ↔ Meets step DetachesOwn init ops := by
  have start : Bindings init ∧ BoundToLive init :=
    ⟨Bindings.initial,⟨fun _ mem => (nomatch mem),fun _ _ _ mem => (nomatch mem)⟩⟩
  exact throughout_iff_meets
    (fun _ _ _ inv own taken => detachesOwn_keeps inv own taken)
    (fun _ inv => inv.2)
    (fun _ _ _ inv taken foreign => foreignDetach_breaks inv taken foreign)
    start reached

/-- A client reconnects before its old socket is noticed to be closed; then the old
socket's handler runs its `finally`. -/
def displacedThenClosed : List Op := [
  .attach 0 none none 0 0,
  .handlerResumes 0 true,
  .attach 1 none (some (1,0)) 10 10,
  .handlerResumes 1 true,
  .handlerEnds 0]

/-- The new socket is served and sound, but the session has lost it. -/
theorem displacedThenClosed_unbinds :
    ∃ s, run step init displacedThenClosed = some s ∧ s.sessions = [0] ∧
      s.attached 0 = some 1 ∧ s.handlers 1 = .serving 0 ∧ s.failed 1 = false ∧
      s.wsOf 0 = none ∧ ¬BoundToLive s := by
  have lost : ∃ s, run step init displacedThenClosed = some s ∧ (s.sessions = [0] ∧
      s.attached 0 = some 1 ∧ s.handlers 1 = .serving 0 ∧ s.failed 1 = false ∧
      s.wsOf 0 = none) := exists_of_eval (by decide +kernel)
  obtain ⟨s,reached,sessions,attached,serves,sound,unbound⟩ := lost
  refine ⟨s,reached,sessions,attached,serves,sound,unbound,?_⟩
  intro bound
  have still := bound.live 0 (by simp [sessions]) 1 attached (by simp [serves]) sound
  rw [unbound] at still
  cases still

/-- The old socket's handler is gone before the resume, and a failed send ends the new
one. -/
def closedThenResumed : List Op := [
  .attach 0 none none 0 0,
  .handlerResumes 0 true,
  .handlerEnds 0,
  .attach 1 none (some (1,0)) 10 10,
  .handlerResumes 1 true,
  .broadcastBinary [1],
  .flightResumes 0 false,
  .handlerEnds 1]

theorem closedThenResumed_bound : Throughout step BoundToLive init closedThenResumed := by
  have completes : ∃ s, run step init closedThenResumed = some s ∧ True :=
    exists_of_eval (by decide +kernel)
  obtain ⟨s,reached,_⟩ := completes
  exact (boundToLive_throughout_iff closedThenResumed s reached).mpr (by decide +kernel)

end GhostRunner.Server
