import GhostRunner.TurnManager

/-! Who may end a turn, and that a turn which is over stays over, whoever calls `TurnManager` and
whatever fails. -/
namespace GhostRunner.TurnManager

open Machine
open Orchestrator (Row Status Store)

/-- `is_obsolete` -/
def isObsolete (s : State) (t : Nat) : Bool := s.current ≠ some t

/-- The call may end the turn `t` as its row says. A session cancels its own turn, or a proactive
one; the core any. -/
def Ends (t : Nat) (row : Row) : Op → Prop
  | .beginTurn .. => row.status = .cancelled ∧ row.reason = some "superseded"
  | .cancel _ v reason bySession _ => v = t ∧ row.status = .cancelled ∧ row.reason = some reason ∧
      (bySession = none ∨ bySession = some row.owner ∨ row.origin = .proactive)
  | .finish _ v status _ => v = t ∧ terminal status = some row.status ∧ row.reason = none
  | _ => False

/-- The row that `finish_turn` leaves of an active turn. -/
def Turn.row (r : Turn) (status : Status) (reason : Option String) : Row :=
  ⟨r.origin,r.owner,status,reason⟩

theorem finishTurn_same (store : Store) (t : Nat) (status : Status) (reason : Option String) :
    (store.finishTurn t status reason).rows t =
      (store.rows t).map fun row => { row with status := status, reason := reason } :=
  Function.update_self ..

theorem finishTurn_other {store : Store} {t v : Nat} {status : Status} {reason : Option String}
    (other : v ≠ t) : (store.finishTurn t status reason).rows v = store.rows v :=
  Function.update_of_ne other ..

/-- Everything a step may do to the current turn and to the store. -/
inductive Changes (s u : State) (op : Op) : Prop where
  | keeps (rows : u.store.rows = s.store.rows) (counter : s.store.counter ≤ u.store.counter)
      (current : u.current = s.current)
      (turns : ∀ t, (u.turns t).origin = (s.turns t).origin ∧ (u.turns t).owner = (s.turns t).owner)
  | ends (t : Nat) (status : Status) (reason : Option String) (was : s.current = some t)
      (free : u.current = none) (store : u.store = s.store.finishTurn t status reason)
      (right : Ends t ((s.turns t).row status reason) op)
  | begins (t : Nat) (next : t = s.store.counter + 1) (counter : u.store.counter = t)
      (current : u.current = some t)
      (rows : u.store.rows = Function.update s.store.rows t
        (some ⟨(u.turns t).origin,(u.turns t).owner,.active,none⟩))

theorem Changes.quiet {s u : State} {op : Op} (store : u.store = s.store)
    (current : u.current = s.current) (turns : u.turns = s.turns) : Changes s u op :=
  .keeps (by rw [store]) (by rw [store]) current fun t => by rw [turns]; exact ⟨rfl,rfl⟩

theorem Changes.modify {s u : State} {op : Op} (t : Nat) (change : Turn → Turn)
    (store : u.store = s.store) (current : u.current = s.current)
    (turns : u.turns = (s.modify t change).turns) (origin : ∀ r, (change r).origin = r.origin)
    (owner : ∀ r, (change r).owner = r.owner) : Changes s u op := by
  refine .keeps (by rw [store]) (by rw [store]) current fun v => ?_
  rw [turns]
  by_cases same : v = t
  · subst v
    simp [State.modify,origin,owner]
  · simp [State.modify,same]

theorem start_changes (s : State) (a : Nat) (origin : Origin) (owner : Nat)
    (counted recorded : Bool) (op : Op) : Changes s (start s a origin owner counted recorded) op := by
  cases counted with
  | false => exact .quiet rfl rfl rfl
  | true =>
    cases recorded with
    | false => exact .keeps rfl (Nat.le_succ _) rfl fun t => ⟨rfl,rfl⟩
    | true =>
      refine .begins (s.store.counter + 1) rfl rfl rfl ?_
      simp [start,Store.nextTurnId,Store.recordTurn,State.notify,State.setCall]

/-- What `cancel` does before its notification. -/
theorem cancel_changes (s : State) (t : Nat) (reason : String) (bySession : Option Nat)
    (stored : Bool) (op : Op)
    (right : (s.turns t).mayCancel bySession = true →
      Ends t ((s.turns t).row .cancelled (some reason)) op) :
    Changes s (cancel s t reason bySession stored).1 op := by
  simp only [cancel]
  split
  · exact .quiet rfl rfl rfl
  · next current =>
    split
    · exact .quiet rfl rfl rfl
    · next allowed =>
      have was : s.current = some t := not_not.mp current
      have right := right (Bool.not_eq_false _ ▸ allowed)
      cases stored with
      | false =>
        exact .modify t (fun r => { r with status := "cancelled" }) rfl rfl rfl (fun _ => rfl)
          fun _ => rfl
      | true => exact .ends t .cancelled (some reason) was rfl rfl right

theorem Changes.setCall {s u : State} {op : Op} (changes : Changes s u op) (a : Nat) (call : Call) :
    Changes s (u.setCall a call) op := by
  cases changes with
  | keeps rows counter current turns => exact .keeps rows counter current turns
  | ends t status reason was free store right => exact .ends t status reason was free store right
  | begins t next counter current rows => exact .begins t next counter current rows

theorem cancelTurn_changes (s : State) (a t : Nat) (reason : String) (bySession : Option Nat)
    (stored : Bool) : Changes s (cancelTurn s a t reason bySession stored)
      (.cancel a t reason bySession stored) := by
  have changes := cancel_changes s t reason bySession stored
    (.cancel a t reason bySession stored) (fun allowed => by
      refine ⟨rfl,rfl,rfl,?_⟩
      cases bySession with
      | none => exact .inl rfl
      | some session =>
        have allowed : session = (s.turns t).owner ∨ (s.turns t).origin = .proactive := by
          simpa [Turn.mayCancel] using allowed
        exact .inr (allowed.imp_left (congrArg some)))
  simp only [cancelTurn]
  split
  all_goals
    next same =>
    rw [same] at changes
    exact changes.setCall a _

theorem beginTurn_changes (s : State) (a : Nat) (origin : Origin) (owner : Nat)
    (stored counted recorded : Bool) : Changes s (beginTurn s a origin owner stored counted recorded)
      (.beginTurn a origin owner stored counted recorded) := by
  simp only [beginTurn]
  split
  · exact start_changes ..
  · next t current =>
    split
    · have changes := cancel_changes s t "superseded" none stored
        (.beginTurn a origin owner stored counted recorded) fun _ => ⟨rfl,rfl⟩
      split
      · next same =>
        rw [same] at changes
        exact changes.setCall a _
      · next same =>
        rcases cancel_cases s t "superseded" none stored with ⟨_,kept⟩ | ⟨_,failed⟩ | ⟨-,done⟩
        · cases kept.symm.trans same
          exact start_changes ..
        · cases failed.symm.trans same
        · cases done.symm.trans (congrArg Prod.snd same)
      · next same =>
        rw [same] at changes
        exact changes.setCall a _
    · exact start_changes ..

theorem finish_changes (s : State) (a t : Nat) (status : String) (stored : Bool) :
    Changes s (finish s a t status stored) (.finish a t status stored) := by
  simp only [finish]
  split
  · exact .quiet rfl rfl rfl
  · next current =>
    have was : s.current = some t := not_not.mp current
    simp only [finishTurn]
    have marked (error : Error) : Changes s ((s.modify t fun r => { r with status := status }).setCall
        a (.raised error)) (.finish a t status stored) :=
      .modify t (fun r => { r with status := status }) rfl rfl rfl (fun _ => rfl) fun _ => rfl
    cases known : terminal status with
    | none => exact marked .valueError
    | some last =>
      cases stored with
      | false => exact marked .operationalError
      | true => exact .ends t last none was rfl rfl ⟨rfl,known,rfl⟩

theorem resumes_changes {s u : State} {a : Nat} {counted recorded : Bool}
    (taken : resumes s a counted recorded = some u) :
    Changes s u (.resumes a counted recorded) := by
  simp only [resumes] at taken
  split at taken <;> cases taken
  · exact start_changes ..
  all_goals exact .quiet rfl rfl rfl

theorem step_changes {s u : State} {op : Op} (taken : step s op = some u) : Changes s u op := by
  cases op with
  | beginTurn a origin owner stored counted recorded =>
    obtain ⟨_,made⟩ := Option.ite_none_right_eq_some.mp taken
    cases made
    exact beginTurn_changes ..
  | cancel a t reason bySession stored =>
    obtain ⟨_,made⟩ := Option.ite_none_right_eq_some.mp taken
    cases made
    exact cancelTurn_changes ..
  | finish a t status stored =>
    obtain ⟨_,made⟩ := Option.ite_none_right_eq_some.mp taken
    cases made
    exact finish_changes ..
  | resumes a counted recorded => exact resumes_changes taken
  | notifyRaises a =>
    obtain ⟨_,made⟩ := Option.ite_none_left_eq_some.mp taken
    cases made
    exact .quiet rfl rfl rfl
  | task t task =>
    cases taken
    exact .modify t (fun r => { r with task := task }) rfl rfl rfl (fun _ => rfl) fun _ => rfl

/-! ## The row of the current turn says whose it is -/

/-- The current turn has a row, and the two name one origin and one owner. -/
def Matches (s : State) : Prop :=
  ∀ t, s.current = some t → ∃ row, s.store.rows t = some row ∧
    row.origin = (s.turns t).origin ∧ row.owner = (s.turns t).owner

theorem Matches.initial (store : Store) : Matches (init store) := by
  intro t current
  cases current

theorem Matches.step {s u : State} {op : Op} (inv : Matches s) (taken : step s op = some u) :
    Matches u := by
  intro t current
  cases step_changes taken with
  | keeps rows counter same turns =>
    obtain ⟨row,found,origin,owner⟩ := inv t (same.symm.trans current)
    exact ⟨row,by rw [rows,found],origin.trans (turns t).1.symm,owner.trans (turns t).2.symm⟩
  | ends v status reason was free store right => cases free.symm.trans current
  | begins v next counter begun rows =>
    cases begun.symm.trans current
    exact ⟨_,by rw [rows,Function.update_self],rfl,rfl⟩

theorem Matches.reached {store : Store} {ops : List Op} {s : State}
    (reached : run TurnManager.step (init store) ops = some s) : Matches s :=
  run_invariant (fun _ _ _ inv taken => inv.step taken) (.initial store) reached

/-- A turn that is over was ended by a call that may end it, while it was the current one; what its
row says is what that call gave. -/
theorem ended_by_right (store : Store) (ops : List Op) (s : State) (t : Nat) (row : Row)
    (reached : run step (init store) ops = some s) (ours : store.counter < t)
    (found : s.store.rows t = some row) (gone : row.status ≠ .active) :
    ∃ first op rest u, ops = first ++ op :: rest ∧ run step (init store) first = some u ∧
      u.current = some t ∧ Ends t row op := by
  have fresh : ¬(init store).store.rows t = some row := by
    have none : (init store).store.rows t = none := store.fresh t ours
    simp [none]
  obtain ⟨first,op,rest,u,v,split,before,taken,unset,set⟩ :=
    run_crosses (p := fun s => s.store.rows t = some row) fresh reached found
  refine ⟨first,op,rest,u,split,before,?_⟩
  cases step_changes taken with
  | keeps rows counter current turns => exact absurd (by rw [← set,rows]) unset
  | begins w next counter current rows =>
    rw [rows] at set
    by_cases same : t = w
    · subst same
      rw [Function.update_self,Option.some.injEq] at set
      exact absurd (by rw [← set]) gone
    · rw [Function.update_of_ne same] at set
      exact absurd set unset
  | ends w status reason was free stored right =>
    rw [stored] at set
    by_cases same : t = w
    · subst same
      obtain ⟨old,had,origin,owner⟩ := Matches.reached before t was
      rw [finishTurn_same,had,Option.map_some,Option.some.injEq] at set
      have whole : row = (u.turns t).row status reason := by
        rw [← set,Turn.row,← origin,← owner]
      exact ⟨was,whole ▸ right⟩
    · rw [finishTurn_other same] at set
      exact absurd set unset

/-- A session cancels the turn that it has begun. -/
def ownCancel : List Op :=
  [.beginTurn 0 .balloon 7 true true true,.resumes 0 true true,
    .cancel 0 1 "user_cancel" (some 7) true]

theorem ownCancel_by_right : ∃ s row, run step (init Orchestrator.emptyStore) ownCancel = some s ∧
    s.store.rows 1 = some row ∧ row.status ≠ .active ∧
    ∃ first op rest u, ownCancel = first ++ op :: rest ∧
      run step (init Orchestrator.emptyStore) first = some u ∧ u.current = some 1 ∧
      Ends 1 row op := by
  have completes : ∃ s, run step (init Orchestrator.emptyStore) ownCancel = some s ∧
      s.store.rows 1 = some ⟨.balloon,7,.cancelled,some "user_cancel"⟩ :=
    exists_of_eval (by decide)
  obtain ⟨s,reached,found⟩ := completes
  exact ⟨s,_,reached,found,by decide,
    ended_by_right Orchestrator.emptyStore ownCancel s 1 _ reached (by decide) found (by decide)⟩

/-- Once an issued turn is obsolete it is so for good, and its row is never written again. -/
theorem obsolete_forever (ops : List Op) (s u : State) (t : Nat)
    (later : run step s ops = some u) (issued : t ≤ s.store.counter)
    (obsolete : isObsolete s t = true) :
    isObsolete u t = true ∧ u.store.rows t = s.store.rows t := by
  have keep (v : State) (op : Op) (w : State)
      (inv : t ≤ v.store.counter ∧ v.current ≠ some t ∧ v.store.rows t = s.store.rows t)
      (taken : step v op = some w) :
      t ≤ w.store.counter ∧ w.current ≠ some t ∧ w.store.rows t = s.store.rows t := by
    obtain ⟨issued,obsolete,same⟩ := inv
    cases step_changes taken with
    | keeps rows counter current turns =>
      exact ⟨issued.trans counter,by rw [current]; exact obsolete,by rw [rows,same]⟩
    | ends x status reason was free stored right =>
      have other : t ≠ x := by
        rintro rfl
        exact obsolete was
      refine ⟨by rw [stored]; exact issued,by simp [free],?_⟩
      rw [stored,finishTurn_other other,same]
    | begins x next counter current rows =>
      have other : t ≠ x := by omega
      refine ⟨by omega,?_,by rw [rows,Function.update_of_ne other,same]⟩
      rw [current]
      exact fun same => other (Option.some.inj same).symm
  have start : t ≤ s.store.counter ∧ s.current ≠ some t ∧ s.store.rows t = s.store.rows t :=
    ⟨issued,by simpa [isObsolete] using obsolete,rfl⟩
  have last := run_invariant keep start later
  exact ⟨by simpa [isObsolete] using last.2.1,last.2.2⟩

/-- After the own cancellation another session begins a turn, and the task of the first finishes
late. -/
def lateFinish : List Op :=
  [.resumes 0 true true,.beginTurn 1 .voice 8 true true true,.finish 0 1 "done" true]

theorem lateFinish_obsolete : ∃ s u, run step (init Orchestrator.emptyStore) ownCancel = some s ∧
    run step s lateFinish = some u ∧ isObsolete u 1 = true ∧
    u.store.rows 1 = s.store.rows 1 := by
  have completes : ∃ u, run step (init Orchestrator.emptyStore) (ownCancel ++ lateFinish) = some u ∧
      True := exists_of_eval (by decide)
  have first : ∃ s, run step (init Orchestrator.emptyStore) ownCancel = some s ∧
      1 ≤ s.store.counter ∧ isObsolete s 1 = true := exists_of_eval (by decide)
  obtain ⟨s,reached,issued,obsolete⟩ := first
  obtain ⟨u,later,-⟩ := completes
  rw [run_append reached] at later
  exact ⟨s,u,reached,later,obsolete_forever lateFinish s u 1 later issued obsolete⟩

end GhostRunner.TurnManager
