import GhostRunner.SchedulerOnce

/-! The order in which a dispatch takes jobs out of the queue. The sort key does not change
during a dispatch, and neither does the order of the jobs that are left. -/
namespace GhostRunner.Scheduler

variable {cfg : Config} {s t : State} {now : ℚ}

/-! ## The sort key -/

theorem precedes_refl (i : Nat) : precedes cfg now s i i := .inr ⟨rfl,le_rfl⟩

instance precedesTotal : Std.Total (precedes cfg now s) where
  total i j := by
    simp only [precedes]
    omega

instance precedesTrans : IsTrans Nat (precedes cfg now s) where
  trans i j k first second := by
    simp only [precedes] at first second ⊢
    omega

instance precedesAntisymm : Std.Antisymm (precedes cfg now s) where
  antisymm i j first second := by
    simp only [precedes] at first second
    omega

theorem precedes_of_jobs (same : t.jobs = s.jobs) : precedes cfg now t = precedes cfg now s := by
  funext i j
  simp only [precedes,same]

/-- No job has a smaller key than one that precedes it. -/
theorem precedes_iff {i j : Nat} : precedes cfg now s i j ↔
    ¬((s.jobs j).effectivePrio now cfg.agingS < (s.jobs i).effectivePrio now cfg.agingS ∨
      (s.jobs j).effectivePrio now cfg.agingS = (s.jobs i).effectivePrio now cfg.agingS ∧
        j < i) := by
  simp only [precedes]
  omega

theorem candidates_sorted : (candidates cfg now s).Pairwise (precedes cfg now s) :=
  List.pairwise_insertionSort _ _

theorem candidates_perm : (candidates cfg now s).Perm s.queue := List.perm_insertionSort _ _

/-- The head of the candidates precedes all that are queued. -/
theorem candidates_head {j : Nat} {rest : List Nat} (split : candidates cfg now s = j :: rest) :
    ∀ i ∈ s.queue, precedes cfg now s j i := by
  intro i queued
  have sorted := @candidates_sorted cfg s now
  rw [split] at sorted
  have cand : i ∈ candidates cfg now s := mem_candidates.mpr queued
  rw [split] at cand
  rcases List.mem_cons.mp cand with rfl | later
  · exact precedes_refl i
  · exact List.rel_of_pairwise_cons sorted later

theorem candidates_take (s : State) (j : Nat) :
    candidates cfg now (take s j) = (candidates cfg now s).erase j := by
  have same := @precedes_of_jobs cfg s (take s j) now (take_jobs s j)
  have perm : (candidates cfg now (take s j)).Perm ((candidates cfg now s).erase j) := by
    have left := @candidates_perm cfg (take s j) now
    rw [take_queue] at left
    exact left.trans (candidates_perm.symm.erase j)
  have sorted := @candidates_sorted cfg (take s j) now
  rw [same] at sorted
  exact perm.eq_of_pairwise' sorted (candidates_sorted.sublist List.erase_sublist)

/-! ## The choice by the number of free slots -/

/-- With a slot that any job may take, the first candidate takes it. -/
theorem choose_shared (shared : (cfg.reserved : Int) < free cfg s) (j : Nat) (rest : List Nat) :
    choose cfg s (j :: rest) = .start j := by
  have slot : 1 ≤ free cfg s := by omega
  cases chat : (s.jobs j).interactive <;> simp [choose,chat,shared,slot]

/-- With none but reserved slots, the first chat job takes one. -/
theorem choose_kept (slot : 1 ≤ free cfg s) (kept : free cfg s ≤ cfg.reserved) (cands : List Nat) :
    choose cfg s cands = match cands.filter fun j => (s.jobs j).interactive with
      | [] => .nothing
      | j :: _ => .start j := by
  induction cands with
  | nil => rfl
  | cons cand rest ih =>
    have noShare : ¬(cfg.reserved : Int) < free cfg s := by omega
    have noVictim : ¬free cfg s < 1 := by omega
    cases chat : (s.jobs cand).interactive
    · simpa [choose,chat,noShare,noVictim] using ih
    · simp [choose,chat,slot]

/-- With none at all, a chat job that waits asks for a victim. -/
theorem choose_full (none : free cfg s < 1) (cands : List Nat) :
    choose cfg s cands = match cands.filter (fun j => (s.jobs j).interactive),(victims s).head? with
      | _ :: _,some victim => .preempt victim
      | _,_ => .nothing := by
  induction cands with
  | nil => rfl
  | cons cand rest ih =>
    have noSlot : ¬1 ≤ free cfg s := by omega
    have noShare : ¬(cfg.reserved : Int) < free cfg s := by omega
    cases chat : (s.jobs cand).interactive
    · simpa [choose,chat,noSlot,noShare] using ih
    · cases found : (victims s).head? with
      | some victim => simp [choose,chat,noSlot,noShare,none,found]
      | none =>
        -- without a victim the scan goes on, and finds none for the others either
        rw [found] at ih
        have after : choose cfg s rest = .nothing := by
          rw [ih]
          split
          · next impossible => cases impossible
          · rfl
        simp [choose,chat,noSlot,noShare,none,found,after]

/-- The job that a dispatch takes is the first of all candidates, or the first chat job when only
reserved slots are left. -/
theorem chosen_cases {j : Nat} (chosen : choose cfg s (candidates cfg now s) = .start j) :
    ((cfg.reserved : Int) < free cfg s ∧ ∃ rest, candidates cfg now s = j :: rest) ∨
    (1 ≤ free cfg s ∧ free cfg s ≤ cfg.reserved ∧
      ∃ rest, (candidates cfg now s).filter (fun i => (s.jobs i).interactive) = j :: rest) := by
  by_cases shared : (cfg.reserved : Int) < free cfg s
  · left
    cases cands : candidates cfg now s with
    | nil => simp [cands,choose] at chosen
    | cons first rest =>
      rw [cands,choose_shared shared] at chosen
      cases chosen
      exact ⟨shared,rest,rfl⟩
  · right
    have slot : 1 ≤ free cfg s := by
      rcases (choose_start chosen).2 with ⟨_,slot⟩ | ⟨_,more⟩
      · exact slot
      · exact absurd more shared
    have kept : free cfg s ≤ cfg.reserved := by omega
    rw [choose_kept slot kept] at chosen
    split at chosen
    · cases chosen
    · next first rest chats =>
      cases chosen
      exact ⟨slot,kept,rest,chats⟩

/-- A background job is taken only before all that are queued. -/
theorem chosen_precedes {j : Nat} (chosen : choose cfg s (candidates cfg now s) = .start j)
    (background : (s.jobs j).interactive = false) : ∀ i ∈ s.queue, precedes cfg now s j i := by
  rcases chosen_cases chosen with ⟨_,rest,cands⟩ | ⟨_,_,rest,chats⟩
  · exact candidates_head cands
  · have mem : j ∈ (candidates cfg now s).filter fun i => (s.jobs i).interactive := by
      rw [chats]
      exact List.mem_cons_self
    rw [(List.mem_filter.mp mem).2] at background
    cases background

end GhostRunner.Scheduler
