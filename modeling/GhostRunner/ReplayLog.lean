import Mathlib.Order.Nat
import GhostRunner.Envelope

/-! The replay log and the sequence numbers of `SessionManager` (`server/session.py`).
Clock readings are parameters of the operations, so that a clock that jumps or runs
backwards is covered. -/
namespace GhostRunner

def replayMaxEntries : Nat := 500
def replayMaxAgeMs : Int := 24 * 3600 * 1000

/-- An envelope of the log with the sequence number it bears. -/
structure Entry where
  env : Envelope
  seq : Nat
  stamped : env.seq = some seq
  deriving DecidableEq

/-- `self._entries[0].ts or 0`. -/
def Entry.ts (e : Entry) : Int := e.env.ts.getD 0

structure ReplayLog where
  entries : List Entry := []
  lastSeq : Nat := 0
  prunedBelow : Nat := 0

namespace ReplayLog

/-- The loop of `_prune`, over the entries and the pruned horizon. -/
def pruneLoop (cutoff : Int) : List Entry → Nat → List Entry × Nat
  | [], below => ([], below)
  | e :: rest, below =>
    if replayMaxEntries < (e :: rest).length ∨ e.ts < cutoff then pruneLoop cutoff rest e.seq
    else (e :: rest, below)

def prune (log : ReplayLog) (nowMs : Int) : ReplayLog :=
  let pruned := pruneLoop (nowMs - replayMaxAgeMs) log.entries log.prunedBelow
  { log with entries := pruned.1, prunedBelow := pruned.2 }

def append (log : ReplayLog) (e : Entry) (nowMs : Int) : ReplayLog :=
  ({ log with lastSeq := e.seq, entries := log.entries ++ [e] }).prune nowMs

/-- `tail` prunes first; `none` refuses a client older than the pruned horizon. -/
def tail (log : ReplayLog) (since nowMs : Int) : ReplayLog × Option (List Entry) :=
  let log := log.prune nowMs
  if log.lastSeq ≤ since then (log, some [])
  else if since < log.prunedBelow then (log, none)
  else (log, some (log.entries.filter fun e => since < e.seq))

end ReplayLog

/-- What `broadcast` reads and writes before its first await. -/
structure SessionLog where
  seq : Nat := 0
  replay : ReplayLog := {}
  stateSnapshot : Option Envelope := none

namespace SessionLog

/-- A durable envelope takes the next number and a timestamp if it has none. -/
def stamp (log : SessionLog) (env : Envelope) (stampMs : Int) : Entry where
  env := { env with seq := some (log.seq + 1), ts := some (env.ts.getD stampMs) }
  seq := log.seq + 1
  stamped := rfl

def publish (log : SessionLog) (env : Envelope) (stampMs pruneMs : Int) :
    SessionLog × Envelope :=
  if env.type.durable then
    let entry := log.stamp env stampMs
    ({ seq := log.seq + 1
       replay := log.replay.append entry pruneMs
       stateSnapshot := if env.lastingState then some entry.env else log.stateSnapshot },
      entry.env)
  else (log, env)

def nextSeqForResend (log : SessionLog) : SessionLog × Nat :=
  ({ log with seq := log.seq + 1 }, log.seq + 1)

end SessionLog

/-! ## Runs of the log -/

inductive LogOp where
  | broadcast (env : Envelope) (stampMs pruneMs : Int)
  | resend
  | tail (since nowMs : Int)

/-- The log together with what an observer notes: every durable envelope in broadcast
order, and the numbers given out for resends. -/
structure Ledger where
  log : SessionLog := {}
  published : List Entry := []
  resent : List Nat := []

def Ledger.step (l : Ledger) : LogOp → Ledger
  | .broadcast env stampMs pruneMs =>
    { l with
      log := (l.log.publish env stampMs pruneMs).1
      published := if env.type.durable then l.published ++ [l.log.stamp env stampMs]
        else l.published }
  | .resend =>
    { l with log := l.log.nextSeqForResend.1, resent := l.resent ++ [l.log.nextSeqForResend.2] }
  | .tail since nowMs =>
    { l with log := { l.log with replay := (l.log.replay.tail since nowMs).1 } }

def Ledger.after (ops : List LogOp) : Ledger := ops.foldl Ledger.step {}

/-- The log holds an end of what was published, and the horizon is the number of the last
entry it has dropped. -/
structure Tracks (published : List Entry) (log : ReplayLog) : Prop where
  split : ∃ pruned, published = pruned ++ log.entries ∧
    ((pruned = [] ∧ log.prunedBelow = 0) ∨
      ∃ before last, pruned = before ++ [last] ∧ log.prunedBelow = last.seq)
  last : log.lastSeq = (published.getLast?.map Entry.seq).getD 0
  increasing : published.Pairwise (fun a b => a.seq < b.seq)

theorem pruneLoop_split (cutoff : Int) (entries : List Entry) (below : Nat) :
    ∃ dropped, entries = dropped ++ (ReplayLog.pruneLoop cutoff entries below).1 ∧
      ((dropped = [] ∧ (ReplayLog.pruneLoop cutoff entries below).2 = below) ∨
        ∃ before last, dropped = before ++ [last] ∧
          (ReplayLog.pruneLoop cutoff entries below).2 = last.seq) := by
  induction entries generalizing below with
  | nil => exact ⟨[],rfl,.inl ⟨rfl,rfl⟩⟩
  | cons e rest ih =>
    simp only [ReplayLog.pruneLoop]
    split
    · obtain ⟨dropped,split,horizon⟩ := ih e.seq
      refine ⟨e :: dropped,congrArg (e :: ·) split,.inr ?_⟩
      rcases horizon with ⟨rfl,same⟩ | ⟨before,last,rfl,same⟩
      · exact ⟨[],e,rfl,same⟩
      · exact ⟨e :: before,last,rfl,same⟩
    · exact ⟨[],rfl,.inl ⟨rfl,rfl⟩⟩

theorem ReplayLog.prune_sublist (log : ReplayLog) (nowMs : Int) :
    (log.prune nowMs).entries.Sublist log.entries := by
  obtain ⟨dropped,split,_⟩ :=
    pruneLoop_split (nowMs - replayMaxAgeMs) log.entries log.prunedBelow
  rw [split]
  exact List.sublist_append_right _ _

theorem Tracks.prune {published : List Entry} {log : ReplayLog} (inv : Tracks published log)
    (nowMs : Int) : Tracks published (log.prune nowMs) := by
  obtain ⟨pruned,whole,horizon⟩ := inv.split
  obtain ⟨dropped,rest,step⟩ :=
    pruneLoop_split (nowMs - replayMaxAgeMs) log.entries log.prunedBelow
  refine ⟨⟨pruned ++ dropped,?_,?_⟩,inv.last,inv.increasing⟩
  · rw [whole,List.append_assoc]
    exact congrArg (pruned ++ ·) rest
  · rcases step with ⟨rfl,same⟩ | ⟨before,last,rfl,same⟩
    · simpa [ReplayLog.prune,same] using horizon
    · exact .inr ⟨pruned ++ before,last,by simp,same⟩

theorem Tracks.append {published : List Entry} {log : ReplayLog} (inv : Tracks published log)
    (e : Entry) (nowMs : Int) (above : ∀ a ∈ published, a.seq < e.seq) :
    Tracks (published ++ [e]) (log.append e nowMs) := by
  apply Tracks.prune
  obtain ⟨pruned,whole,horizon⟩ := inv.split
  refine ⟨⟨pruned,by simp [whole],horizon⟩,by simp,?_⟩
  apply List.pairwise_append.mpr
  refine ⟨inv.increasing,List.pairwise_singleton _ _,?_⟩
  intro a old b new
  rw [List.mem_singleton.mp new]
  exact above a old

theorem Tracks.entries {published : List Entry} {log : ReplayLog} (inv : Tracks published log) :
    log.entries.Sublist published := by
  obtain ⟨pruned,whole,_⟩ := inv.split
  rw [whole]
  exact List.sublist_append_right _ _

/-- Everything dropped is at or below the horizon. -/
theorem Tracks.dropped_le {published pruned : List Entry} {log : ReplayLog}
    (inv : Tracks published log) (whole : published = pruned ++ log.entries)
    (horizon : (pruned = [] ∧ log.prunedBelow = 0) ∨
      ∃ before last, pruned = before ++ [last] ∧ log.prunedBelow = last.seq) :
    ∀ e ∈ pruned, e.seq ≤ log.prunedBelow := by
  intro e mem
  rcases horizon with ⟨rfl,_⟩ | ⟨before,last,rfl,below⟩
  · cases mem
  · rw [below]
    rcases List.mem_append.mp mem with early | final
    · have ordered := inv.increasing
      rw [whole,List.append_assoc] at ordered
      exact ((List.pairwise_append.mp ordered).2.2 e early last (by simp)).le
    · rw [List.mem_singleton.mp final]

theorem Tracks.le_last {published : List Entry} {log : ReplayLog} (inv : Tracks published log) :
    ∀ e ∈ published, e.seq ≤ log.lastSeq := by
  intro e mem
  obtain ⟨before,last,rfl⟩ : ∃ before last, published = before ++ [last] :=
    ⟨_,_,(List.dropLast_append_getLast (List.ne_nil_of_mem mem)).symm⟩
  rw [inv.last]
  rcases List.mem_append.mp mem with early | final
  · simpa using ((List.pairwise_append.mp inv.increasing).2.2 e early last (by simp)).le
  · simp [List.mem_singleton.mp final]

/-- The three answers of `tail`, each with the comparison that leads to it. -/
theorem ReplayLog.tail_cases (log : ReplayLog) (since nowMs : Int) :
    let pruned := log.prune nowMs
    (pruned.lastSeq ≤ since ∧ log.tail since nowMs = (pruned,some [])) ∨
    (since < pruned.lastSeq ∧ since < pruned.prunedBelow ∧ log.tail since nowMs = (pruned,none)) ∨
    (pruned.prunedBelow ≤ since ∧
      log.tail since nowMs = (pruned,some (pruned.entries.filter fun e => since < e.seq))) := by
  unfold ReplayLog.tail
  dsimp only
  by_cases current : ((log.prune nowMs).lastSeq : Int) ≤ since
  · exact .inl ⟨current,if_pos current⟩
  · rw [if_neg current]
    by_cases old : since < (log.prune nowMs).prunedBelow
    · exact .inr (.inl ⟨by omega,old,if_pos old⟩)
    · exact .inr (.inr ⟨by omega,if_neg old⟩)

theorem ReplayLog.tail_log (log : ReplayLog) (since nowMs : Int) :
    (log.tail since nowMs).1 = log.prune nowMs := by
  rcases log.tail_cases since nowMs with ⟨_,eq⟩ | ⟨_,_,eq⟩ | ⟨_,eq⟩ <;> rw [eq]

theorem ReplayLog.tail_sublist {log : ReplayLog} {since nowMs : Int} {entries : List Entry}
    (answer : (log.tail since nowMs).2 = some entries) : entries.Sublist log.entries := by
  rcases log.tail_cases since nowMs with ⟨_,eq⟩ | ⟨_,_,eq⟩ | ⟨_,eq⟩ <;> rw [eq] at answer
  · cases answer; exact List.nil_sublist _
  · cases answer
  · cases answer; exact List.filter_sublist.trans (log.prune_sublist nowMs)

/-- A list from `tail` is everything published after `since`; a refusal comes only below
the horizon, where something the client lacks is gone. -/
theorem Tracks.tail {published : List Entry} {log : ReplayLog} (inv : Tracks published log)
    (since nowMs : Int) :
    match (log.tail since nowMs).2 with
    | some entries => entries = published.filter (fun e => since < e.seq)
    | none => since < 0 ∨ ∃ e ∈ published, since < e.seq ∧ e ∉ (log.tail since nowMs).1.entries := by
  have kept := inv.prune nowMs
  obtain ⟨pruned,whole,horizon⟩ := kept.split
  have bound := kept.dropped_le whole horizon
  rcases log.tail_cases since nowMs with ⟨current,eq⟩ | ⟨_,old,eq⟩ | ⟨recent,eq⟩ <;> rw [eq]
  · apply Eq.symm
    apply List.filter_eq_nil_iff.mpr
    intro e mem
    have := kept.le_last e mem
    simp only [decide_eq_true_eq]
    omega
  · rcases horizon with ⟨_,zero⟩ | ⟨before,last,rfl,below⟩
    · left; omega
    · right
      have mem : last ∈ published := by rw [whole]; simp
      refine ⟨last,mem,by omega,?_⟩
      intro again
      have ordered := kept.increasing
      rw [whole] at ordered
      exact Nat.lt_irrefl _ ((List.pairwise_append.mp ordered).2.2 last (by simp) last again)
  · have none : pruned.filter (fun e => decide (since < e.seq)) = [] := by
      apply List.filter_eq_nil_iff.mpr
      intro e mem
      have := bound e mem
      simp only [decide_eq_true_eq]
      omega
    change _ = published.filter _
    rw [whole,List.filter_append,none,List.nil_append]

/-- The log tracks what was published, below the counter, and apart from resent numbers. -/
structure Ledger.Valid (l : Ledger) : Prop where
  tracks : Tracks l.published l.log.replay
  published : ∀ e ∈ l.published, e.seq ≤ l.log.seq
  resent : ∀ n ∈ l.resent, n ≤ l.log.seq
  apart : ∀ e ∈ l.published, e.seq ∉ l.resent

theorem Ledger.step_valid {l : Ledger} (inv : l.Valid) (op : LogOp) : (l.step op).Valid := by
  cases op with
  | broadcast env stampMs pruneMs =>
    by_cases durable : env.type.durable = true
    · have above : ∀ a ∈ l.published, a.seq < (l.log.stamp env stampMs).seq :=
        fun a mem => Nat.lt_succ_of_le (inv.published a mem)
      simp only [Ledger.step,SessionLog.publish,durable,if_true]
      refine ⟨inv.tracks.append _ pruneMs above,?_,?_,?_⟩
      · intro e mem
        rcases List.mem_append.mp mem with old | new
        · exact (inv.published e old).trans (Nat.le_succ _)
        · rw [List.mem_singleton.mp new]; exact le_rfl
      · exact fun n mem => (inv.resent n mem).trans (Nat.le_succ _)
      · intro e mem
        rcases List.mem_append.mp mem with old | new
        · exact inv.apart e old
        · rw [List.mem_singleton.mp new]
          intro again
          exact absurd (inv.resent _ again) (by simp [SessionLog.stamp])
    · simpa [Ledger.step,SessionLog.publish,durable] using inv
  | resend =>
    refine ⟨inv.tracks,fun e mem => (inv.published e mem).trans (Nat.le_succ _),?_,?_⟩
    · intro n mem
      rcases List.mem_append.mp mem with old | new
      · exact (inv.resent n old).trans (Nat.le_succ _)
      · rw [List.mem_singleton.mp new]; exact le_rfl
    · intro e mem again
      rcases List.mem_append.mp again with old | new
      · exact inv.apart e mem old
      · have := inv.published e mem
        rw [List.mem_singleton.mp new] at this
        exact absurd this (Nat.not_succ_le_self _)
  | tail since nowMs =>
    have kept : Tracks l.published (l.log.replay.tail since nowMs).1 := by
      rw [ReplayLog.tail_log]; exact inv.tracks.prune nowMs
    exact ⟨kept,inv.published,inv.resent,inv.apart⟩

theorem Ledger.after_valid (ops : List LogOp) : (Ledger.after ops).Valid := by
  have whole (ops : List LogOp) (l : Ledger) (inv : l.Valid) : (ops.foldl Ledger.step l).Valid := by
    induction ops generalizing l with
    | nil => exact inv
    | cons op rest ih => exact ih _ (Ledger.step_valid inv op)
  refine whole ops {} ⟨⟨⟨[],rfl,.inl ⟨rfl,rfl⟩⟩,rfl,List.Pairwise.nil⟩,?_,?_,?_⟩
  all_goals intro _ mem; cases mem

/-- The replay log never hides a gap, after any order of broadcasts, resends and tails. -/
theorem replay_log_hides_no_gap (ops : List LogOp) (since nowMs : Int) :
    (match ((Ledger.after ops).log.replay.tail since nowMs).2 with
      | some entries => entries = (Ledger.after ops).published.filter (fun e => since < e.seq)
      | none => since < 0 ∨ ∃ e ∈ (Ledger.after ops).published, since < e.seq ∧
          e ∉ ((Ledger.after ops).log.replay.tail since nowMs).1.entries) ∧
    (Ledger.after ops).published.Pairwise (fun a b => a.seq < b.seq) ∧
    ∀ e ∈ (Ledger.after ops).published, e.seq ∉ (Ledger.after ops).resent := by
  have valid := Ledger.after_valid ops
  exact ⟨valid.tracks.tail since nowMs,valid.tracks.increasing,valid.apart⟩

end GhostRunner
