import GhostRunner.OrchestratorSteps

/-! One foreground turn. `begin` looks at the current turn once, before its supersede-cancel
suspends; what has become current meanwhile is overwritten. -/
namespace GhostRunner.Orchestrator

open Machine

/-- Of the turns of this process, only the current one has an active row. -/
structure Foreground (s : State) : Prop where
  active : ∀ t, s.base < t → s.status t = some .active → s.current = some t
  single : ∀ t v, s.base < t → s.base < v → s.status t = some .active →
    s.status v = some .active → t = v
  replaced : ∀ t status, s.base < t → s.current ≠ some t → s.status t = some status →
    status ≠ .active

theorem Foreground.of_active {s : State}
    (active : ∀ t, s.base < t → s.status t = some .active → s.current = some t) : Foreground s where
  active := active
  single t v ours ours' first second :=
    Option.some.inj ((active t ours first).symm.trans (active v ours' second))
  replaced t status ours other row := by
    rintro rfl
    exact other (active t ours row)

/-- `begin` records its turn only while no turn is current. -/
def BeginsAlone (s : State) (op : Op) : Prop := begins s op = true → s.current = none

instance (s : State) (op : Op) : Decidable (BeginsAlone s op) := by
  unfold BeginsAlone; infer_instance

/-- The current turn is one of this process, and its row is active. -/
structure Owned (s : State) : Prop where
  base : s.base ≤ s.store.counter
  current : ∀ t, s.current = some t → s.base < t ∧ s.status t = some .active

theorem Owned.initial (tts : Bool) (store : Store) : Owned (init tts store) :=
  ⟨le_rfl,fun t none => by cases none⟩

theorem Keeps.status {s u : State} (keeps : Keeps s u) (t : Nat) : u.status t = s.status t := by
  simp only [State.status,keeps.rows]

theorem Skips.status {s u : State} (skips : Skips s u) (t : Nat) : u.status t = s.status t := by
  simp only [State.status,skips.rows]

theorem Closes.status_other {s u : State} {t v : Nat} {status : Status}
    (closes : Closes s u t status) (other : v ≠ t) : u.status v = s.status v := by
  obtain ⟨reason,rows⟩ := closes.rows
  simp only [State.status,rows,Store.finishTurn,Function.update_of_ne other]

theorem Closes.status_same {s u : State} {t : Nat} {status : Status} (closes : Closes s u t status) :
    u.status t = (s.status t).map fun _ => status := by
  obtain ⟨reason,rows⟩ := closes.rows
  simp only [State.status,rows,Store.finishTurn,Function.update_self]
  cases s.store.rows t <;> rfl

theorem Records.status_same {s u : State} {owner : Nat} (records : Records s u owner) :
    u.status u.store.counter = some .active := by
  simp only [State.status,records.rows,Function.update_self]
  rfl

theorem Records.status_other {s u : State} {owner v : Nat} (records : Records s u owner)
    (other : v ≠ u.store.counter) : u.status v = s.status v := by
  simp only [State.status,records.rows,Function.update_of_ne other]

/-- A turn that has a row is not the one that is recorded now. -/
theorem Records.older {s u : State} {owner v : Nat} {status : Status} (records : Records s u owner)
    (row : s.status v = some status) : v ≠ u.store.counter := by
  rintro rfl
  have none := s.store.fresh u.store.counter (by rw [records.counter]; omega)
  simp [State.status,none] at row

theorem Owned.foregrounds {s u : State} (inv : Owned s) (change : Foregrounds s u) : Owned u := by
  rcases change with keeps | skips | ⟨t,status,closes⟩
  · refine ⟨by rw [keeps.base,keeps.counter]; exact inv.base,fun v current => ?_⟩
    rw [keeps.base,keeps.status]
    exact inv.current v (keeps.current.symm.trans current)
  · refine ⟨by rw [skips.base,skips.counter]; exact inv.base.trans (Nat.le_succ _),
      fun v current => ?_⟩
    rw [skips.base,skips.status]
    exact inv.current v (skips.current.symm.trans current)
  · refine ⟨by rw [closes.base,closes.counter]; exact inv.base,fun v current => ?_⟩
    rw [closes.current] at current
    cases current

theorem Owned.records {s u : State} {owner : Nat} (inv : Owned s) (records : Records s u owner) :
    Owned u := by
  have later : s.base < u.store.counter := by
    rw [records.counter]; exact Nat.lt_succ_of_le inv.base
  refine ⟨by rw [records.base]; exact later.le,fun v current => ?_⟩
  rw [records.current] at current
  cases current
  exact ⟨by rw [records.base]; exact later,records.status_same⟩

theorem Owned.step {s u : State} {op : Op} (inv : Owned s) (taken : step s op = some u) :
    Owned u := by
  have change := step_foreground taken
  split at change
  · obtain ⟨owner,records⟩ := change
    exact inv.records records
  · exact inv.foregrounds change

theorem Foreground.foregrounds {s u : State} (fore : Foreground s) (change : Foregrounds s u) :
    Foreground u := by
  apply Foreground.of_active
  intro v ours row
  rcases change with keeps | skips | ⟨t,status,closes⟩
  · rw [keeps.base] at ours
    rw [keeps.status] at row
    exact keeps.current.trans (fore.active v ours row)
  · rw [skips.base] at ours
    rw [skips.status] at row
    exact skips.current.trans (fore.active v ours row)
  · rw [closes.base] at ours
    by_cases same : v = t
    · subst v
      rw [closes.status_same] at row
      obtain ⟨_,_,ended⟩ := Option.map_eq_some_iff.mp row
      exact (closes.terminal ended).elim
    · rw [closes.status_other same] at row
      have current := fore.active v ours row
      rw [closes.was] at current
      exact (same (Option.some.inj current).symm).elim

/-- Nothing was current, so no row but the new one can be active. -/
theorem Foreground.records {s u : State} {owner : Nat} (fore : Foreground s)
    (free : s.current = none) (records : Records s u owner) : Foreground u := by
  apply Foreground.of_active
  intro v ours row
  by_cases same : v = u.store.counter
  · rw [same]; exact records.current
  · rw [records.base] at ours
    rw [records.status_other same] at row
    have current := fore.active v ours row
    rw [free] at current
    cases current

/-- The overwritten turn keeps its active row. -/
theorem overwritten_breaks {s u : State} {op : Op} (inv : Owned s) (taken : step s op = some u)
    (bad : ¬BeginsAlone s op) : ¬Foreground u := by
  obtain ⟨recording,busy⟩ := Classical.not_imp.mp bad
  have change := step_foreground taken
  rw [if_pos recording] at change
  obtain ⟨owner,records⟩ := change
  obtain ⟨v,current⟩ := Option.ne_none_iff_exists'.mp busy
  obtain ⟨ours,row⟩ := inv.current v current
  have older := records.older row
  intro fore
  have still := fore.active v (by rw [records.base]; exact ours)
    (by rw [records.status_other older]; exact row)
  rw [records.current] at still
  exact older (Option.some.inj still).symm

theorem foreground_throughout_iff (tts : Bool) (store : Store) (ops : List Op) (s : State)
    (reached : run step (init tts store) ops = some s) :
    Throughout step Foreground (init tts store) ops ↔
      Meets step BeginsAlone (init tts store) ops := by
  have start : Owned (init tts store) ∧ Foreground (init tts store) := by
    refine ⟨Owned.initial tts store,Foreground.of_active fun t ours row => ?_⟩
    have none : store.rows t = none := store.fresh t ours
    simp [State.status,init,none] at row
  have keep : ∀ u op v, Owned u ∧ Foreground u → BeginsAlone u op → step u op = some v →
      Owned v ∧ Foreground v := by
    intro u op v inv alone taken
    refine ⟨inv.1.step taken,?_⟩
    have change := step_foreground taken
    split at change
    · next recording =>
      obtain ⟨owner,records⟩ := change
      exact inv.2.records (alone recording) records
    · exact inv.2.foregrounds change
  exact throughout_iff_meets keep (fun _ inv => inv.2)
    (fun _ _ _ inv taken bad => overwritten_breaks inv.1 taken bad) start reached

/-- A second message is sent while the cancellation of the first turn is being broadcast,
and a third before that broadcast returns. -/
def overtakenBegin : List Op := [
  .chatSend 0 1 "a" true true true,
  .commandResumes 0 true true,
  .chatSend 1 2 "b" true true true,
  .chatSend 2 3 "c" true true true,
  .commandResumes 1 true true]

theorem overtakenBegin_twoActive :
    ∃ s, run step (init false emptyStore) overtakenBegin = some s ∧ s.current = some 3 ∧
      s.status 2 = some .active ∧ s.status 3 = some .active ∧ ¬Foreground s := by
  have lost : ∃ s, run step (init false emptyStore) overtakenBegin = some s ∧
      (s.base = 0 ∧ s.current = some 3 ∧ s.status 2 = some .active ∧ s.status 3 = some .active) :=
    exists_of_eval (by decide +kernel)
  obtain ⟨s,reached,base,current,second,third⟩ := lost
  refine ⟨s,reached,current,second,third,?_⟩
  intro fore
  have same := fore.single 2 3 (by simp [base]) (by simp [base]) second third
  cases same

/-- The second message waits until the first turn has been replaced; then a turn is
cancelled by its owner. -/
def orderlyBegin : List Op := [
  .chatSend 0 1 "a" true true true,
  .commandResumes 0 true true,
  .chatSend 1 2 "b" true true true,
  .commandResumes 1 true true,
  .turnCancel 2 2 2 true,
  .commandResumes 1 true true,
  .chatSend 3 3 "c" true true true]

theorem orderlyBegin_foreground :
    Throughout step Foreground (init false emptyStore) orderlyBegin := by
  have completes : ∃ s, run step (init false emptyStore) orderlyBegin = some s ∧ True :=
    exists_of_eval (by decide +kernel)
  obtain ⟨s,reached,_⟩ := completes
  exact (foreground_throughout_iff false emptyStore orderlyBegin s reached).mpr (by decide +kernel)

end GhostRunner.Orchestrator
