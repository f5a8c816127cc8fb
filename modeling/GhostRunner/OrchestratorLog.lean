import Mathlib.Data.List.Induction
import GhostRunner.Orchestrator
import GhostRunner.ReplayLog

/-! What the session manager keeps of the envelopes that the orchestrator hands to it. The
numbers it gives out for resends, the resumes it answers, and the envelopes that are not
durable may fall anywhere in between. -/
namespace GhostRunner

/-- The durable envelopes that the operations broadcast, in order. -/
def broadcasts (log : List LogOp) : List Envelope :=
  log.filterMap fun
    | .broadcast env _ _ => if env.type.durable then some env else none
    | .resend | .tail .. => none

/-- What numbering and time-stamping leave of an envelope. -/
def Envelope.content (env : Envelope) : Payload × Option Nat := (env.payload,env.turn)

theorem broadcasts_append (log : List LogOp) (op : LogOp) :
    broadcasts (log ++ [op]) = broadcasts log ++ broadcasts [op] := by
  simp [broadcasts]

theorem after_append (log : List LogOp) (op : LogOp) :
    Ledger.after (log ++ [op]) = (Ledger.after log).step op := by
  simp [Ledger.after]

/-- Every durable envelope is published, in the order of the calls. -/
theorem published_content (log : List LogOp) :
    (Ledger.after log).published.map (fun e => e.env.content) =
      (broadcasts log).map Envelope.content := by
  induction log using List.reverseRecOn with
  | nil => rfl
  | append_singleton log op ih =>
    rw [after_append,broadcasts_append,List.map_append,← ih]
    cases op with
    | broadcast env stampMs pruneMs =>
      by_cases durable : env.type.durable = true
      · simp [Ledger.step,broadcasts,durable,SessionLog.stamp,Envelope.content]
      · simp [Ledger.step,broadcasts,durable]
    | resend => simp [Ledger.step,broadcasts]
    | tail since nowMs => simp [Ledger.step,broadcasts]

/-- The snapshot is the last durable state that is not transient. -/
theorem snapshot_content (log : List LogOp) :
    (Ledger.after log).log.stateSnapshot.map Envelope.content =
      ((broadcasts log).filter Envelope.lastingState).getLast?.map Envelope.content := by
  induction log using List.reverseRecOn with
  | nil => rfl
  | append_singleton log op ih =>
    rw [after_append,broadcasts_append,List.filter_append]
    cases op with
    | broadcast env stampMs pruneMs =>
      by_cases durable : env.type.durable = true
      · by_cases lasting : env.lastingState = true
        · simp [Ledger.step,SessionLog.publish,broadcasts,durable,lasting,SessionLog.stamp,
            Envelope.content]
        · simpa [Ledger.step,SessionLog.publish,broadcasts,durable,lasting] using ih
      · simpa [Ledger.step,SessionLog.publish,broadcasts,durable] using ih
    | resend => simpa [Ledger.step,SessionLog.nextSeqForResend,broadcasts] using ih
    | tail since nowMs => simpa [Ledger.step,broadcasts] using ih

namespace Orchestrator

/-- The operations broadcast the durable envelopes that have been handed over, and no other. -/
def Logs (log : List LogOp) (s : State) : Prop :=
  broadcasts log = s.handed.filter fun env => env.type.durable

/-- What can be read off the content of durable envelopes is read off the log in the order
of the sequence numbers. -/
theorem Logs.read {log : List LogOp} {s : State} {α : Type} (logs : Logs log s)
    (view : Payload × Option Nat → Option α)
    (durable : ∀ env : Envelope, env.type.durable = false → view env.content = none) :
    (Ledger.after log).published.filterMap (fun e => view e.env.content) =
      s.handed.filterMap (fun env => view env.content) := by
  have kept : (s.handed.filter fun env => env.type.durable).filterMap (fun env => view env.content) =
      s.handed.filterMap (fun env => view env.content) := by
    rw [List.filterMap_filter]
    apply List.filterMap_congr
    intro env _
    cases lasts : env.type.durable with
    | true => rfl
    | false => exact (durable env lasts).symm
  calc (Ledger.after log).published.filterMap (fun e => view e.env.content)
      = ((Ledger.after log).published.map fun e => e.env.content).filterMap view := by
        rw [List.filterMap_map]; rfl
    _ = ((broadcasts log).map Envelope.content).filterMap view := by rw [published_content]
    _ = (broadcasts log).filterMap (fun env => view env.content) := by
        rw [List.filterMap_map]; rfl
    _ = s.handed.filterMap (fun env => view env.content) := by rw [logs,kept]

end Orchestrator

end GhostRunner
