import Mathlib.Data.List.Basic
import Mathlib.Data.Option.Basic

/-! Partial labelled machines. A step function is deterministic once its label is
given; every choice of an environment is part of the label, and `none` means that
the label is not enabled. Runs, invariants and guarded runs are stated once here. -/
namespace Machine

variable {σ τ α β : Type}

/-- The state after a list of labels, if each of them is enabled in turn. -/
def run (step : σ → α → Option σ) : σ → List α → Option σ
  | s, [] => some s
  | s, a :: rest => (step s a).bind fun t => run step t rest

theorem run_cons_iff {step : σ → α → Option σ} {s u : σ} {a : α} {rest : List α} :
    run step s (a :: rest) = some u ↔ ∃ t, step s a = some t ∧ run step t rest = some u := by
  simp [run,Option.bind_eq_some_iff]

/-- A run goes on from where its first part ends. -/
theorem run_append {step : σ → α → Option σ} {s t : σ} {first : List α}
    (reached : run step s first = some t) (rest : List α) :
    run step s (first ++ rest) = run step t rest := by
  induction first generalizing s with
  | nil => cases reached; rfl
  | cons a first ih =>
    obtain ⟨u,taken,reached⟩ := run_cons_iff.mp reached
    rw [List.cons_append,run,taken]
    exact ih reached

/-- The labels lead through `t` and then, at once or later, through `u`. -/
def Passes (step : σ → α → Option σ) (s : σ) (labels : List α) (t u : σ) : Prop :=
  ∃ first middle last, labels = first ++ (middle ++ last) ∧ run step s first = some t ∧
    run step t middle = some u

/-- Every step of the run is taken in a state that admits it under `good`. -/
def Meets (step : σ → α → Option σ) (good : σ → α → Prop) : σ → List α → Prop
  | _, [] => True
  | s, a :: rest => good s a ∧ match step s a with
    | some t => Meets step good t rest
    | none => True

/-- The property holds in every state the run passes through, both ends included. -/
def Throughout (step : σ → α → Option σ) (property : σ → Prop) : σ → List α → Prop
  | s, [] => property s
  | s, a :: rest => property s ∧ match step s a with
    | some t => Throughout step property t rest
    | none => True

@[simp] theorem meets_nil (step : σ → α → Option σ) (good : σ → α → Prop) (s : σ) :
    Meets step good s [] := trivial

theorem meets_cons_iff {step : σ → α → Option σ} {good : σ → α → Prop} {s t : σ} {a : α}
    {rest : List α} (taken : step s a = some t) :
    Meets step good s (a :: rest) ↔ good s a ∧ Meets step good t rest := by
  simp [Meets,taken]

theorem throughout_cons_iff {step : σ → α → Option σ} {property : σ → Prop} {s t : σ} {a : α}
    {rest : List α} (taken : step s a = some t) :
    Throughout step property s (a :: rest) ↔ property s ∧ Throughout step property t rest := by
  simp [Throughout,taken]

theorem Throughout.head {step : σ → α → Option σ} {property : σ → Prop} {s : σ} {labels : List α}
    (all : Throughout step property s labels) : property s := by
  cases labels with
  | nil => exact all
  | cons a rest => exact all.1

/-- The recursive definition says what it should of every prefix of the run. -/
theorem throughout_iff_prefix {step : σ → α → Option σ} {property : σ → Prop} {s : σ}
    {labels : List α} : Throughout step property s labels ↔
      ∀ first rest t, labels = first ++ rest → run step s first = some t → property t := by
  induction labels generalizing s with
  | nil =>
    constructor
    · intro all first rest t split reached
      obtain ⟨rfl,rfl⟩ := List.nil_eq_append_iff.mp split
      cases reached
      exact all
    · intro every; exact every [] [] s rfl rfl
  | cons a labels ih =>
    constructor
    · intro all first rest t split reached
      cases first with
      | nil => cases reached; exact all.1
      | cons b first =>
        obtain ⟨rfl,rfl⟩ := List.cons_eq_cons.mp split
        obtain ⟨u,taken,reached⟩ := run_cons_iff.mp reached
        exact ih.mp ((throughout_cons_iff taken).mp all).2 first rest t rfl reached
    · intro every
      refine ⟨every [] _ s rfl rfl,?_⟩
      split
      · next t taken =>
        apply ih.mpr
        intro first rest u split reached
        exact every (a :: first) rest u (by rw [split]; rfl) (run_cons_iff.mpr ⟨t,taken,reached⟩)
      · trivial

theorem meets_append_iff {step : σ → α → Option σ} {good : σ → α → Prop} {s t : σ}
    {first rest : List α} (reached : run step s first = some t) :
    Meets step good s (first ++ rest) ↔ Meets step good s first ∧ Meets step good t rest := by
  induction first generalizing s with
  | nil => cases reached; simp
  | cons a first ih =>
    obtain ⟨u,taken,reached⟩ := run_cons_iff.mp reached
    rw [List.cons_append,meets_cons_iff taken,meets_cons_iff taken,ih reached,and_assoc]

/-- A run that can be completed meets the guard if each of its steps does. -/
theorem meets_of_steps {step : σ → α → Option σ} {good : σ → α → Prop} {s u : σ}
    {labels : List α} (reached : run step s labels = some u)
    (every : ∀ first a rest t v, labels = first ++ a :: rest → run step s first = some t →
      step t a = some v → good t a) : Meets step good s labels := by
  induction labels generalizing s with
  | nil => trivial
  | cons a labels ih =>
    obtain ⟨v,taken,reached⟩ := run_cons_iff.mp reached
    refine (meets_cons_iff taken).mpr ⟨every [] a labels s v rfl rfl taken,ih reached ?_⟩
    intro first b rest t w split later
    exact every (a :: first) b rest t w (by rw [split]; rfl) (run_cons_iff.mpr ⟨v,taken,later⟩)

/-- What admitted steps preserve holds of every state that a guarded run reaches. -/
theorem Meets.invariant {step : σ → α → Option σ} {good : σ → α → Prop} {inv : σ → Prop}
    (keep : ∀ s a t, inv s → good s a → step s a = some t → inv t)
    {s t : σ} {labels : List α} (start : inv s) (admitted : Meets step good s labels)
    (reached : run step s labels = some t) : inv t := by
  induction labels generalizing s with
  | nil => cases reached; exact start
  | cons a rest ih =>
    obtain ⟨u,taken,reached⟩ := run_cons_iff.mp reached
    obtain ⟨good,admitted⟩ := (meets_cons_iff taken).mp admitted
    exact ih (keep s a u start good taken) admitted reached

/-- What every enabled step preserves holds of every state that a run reaches. -/
theorem run_invariant {step : σ → α → Option σ} {inv : σ → Prop}
    (keep : ∀ s a t, inv s → step s a = some t → inv t)
    {s t : σ} {labels : List α} (start : inv s) (reached : run step s labels = some t) :
    inv t := by
  induction labels generalizing s with
  | nil => cases reached; exact start
  | cons a rest ih =>
    obtain ⟨u,taken,reached⟩ := run_cons_iff.mp reached
    exact ih (keep s a u start taken) reached

/-- What does not hold at first and holds at last is brought about by a step. -/
theorem run_crosses {step : σ → α → Option σ} {p : σ → Prop} {s u : σ} {labels : List α}
    (start : ¬p s) (reached : run step s labels = some u) (holds : p u) :
    ∃ first a rest t v, labels = first ++ a :: rest ∧ run step s first = some t ∧
      step t a = some v ∧ ¬p t ∧ p v := by
  induction labels generalizing s with
  | nil => cases reached; exact absurd holds start
  | cons a labels ih =>
    obtain ⟨v,taken,reached⟩ := run_cons_iff.mp reached
    by_cases now : p v
    · exact ⟨[],a,labels,s,v,rfl,rfl,taken,start,now⟩
    · obtain ⟨first,b,rest,t,w,rfl,between,crossing⟩ := ih now reached
      exact ⟨a :: first,b,rest,t,w,rfl,run_cons_iff.mpr ⟨v,taken,between⟩,crossing⟩

/-- Exactness of a guard. When admitted steps keep the invariant, the invariant
gives the property, and a step that is not admitted destroys the property at once,
the guard describes precisely the runs on which the property is never lost. Both may
rely on the labels being legal. -/
theorem throughout_iff_meets_of {step : σ → α → Option σ} {good : σ → α → Prop}
    {inv property : σ → Prop} {legal : α → Prop}
    (keep : ∀ s a t, inv s → legal a → good s a → step s a = some t → inv t)
    (sound : ∀ s, inv s → property s)
    (broken : ∀ s a t, inv s → legal a → step s a = some t → ¬good s a → ¬property t)
    {s t : σ} {labels : List α} (start : inv s) (all : ∀ a ∈ labels, legal a)
    (reached : run step s labels = some t) :
    Throughout step property s labels ↔ Meets step good s labels := by
  induction labels generalizing s with
  | nil => simp [Throughout,sound s start]
  | cons a rest ih =>
    obtain ⟨u,taken,reached⟩ := run_cons_iff.mp reached
    obtain ⟨allowed,all⟩ := List.forall_mem_cons.mp all
    rw [throughout_cons_iff taken,meets_cons_iff taken]
    by_cases admitted : good s a
    · have next := keep s a u start allowed admitted taken
      simp [sound s start,admitted,ih next all reached]
    · have lost := broken s a u start allowed taken admitted
      exact ⟨fun all => (lost all.2.head).elim,fun all => (admitted all.1).elim⟩

theorem throughout_iff_meets {step : σ → α → Option σ} {good : σ → α → Prop}
    {inv property : σ → Prop}
    (keep : ∀ s a t, inv s → good s a → step s a = some t → inv t)
    (sound : ∀ s, inv s → property s)
    (broken : ∀ s a t, inv s → step s a = some t → ¬good s a → ¬property t)
    {s t : σ} {labels : List α} (start : inv s) (reached : run step s labels = some t) :
    Throughout step property s labels ↔ Meets step good s labels :=
  throughout_iff_meets_of (fun s a t inv (_ : True) => keep s a t inv) sound
    (fun s a t inv _ => broken s a t inv) start (fun _ _ => trivial) reached

instance decidableMeets (step : σ → α → Option σ) (good : σ → α → Prop)
    [∀ s a, Decidable (good s a)] : ∀ s labels, Decidable (Meets step good s labels)
  | _, [] => isTrue trivial
  | s, a :: rest =>
    match taken : step s a with
    | some t =>
      have := decidableMeets step good t rest
      decidable_of_iff (good s a ∧ Meets step good t rest) (meets_cons_iff taken).symm
    | none => decidable_of_iff (good s a) (by simp [Meets,taken])

instance decidableThroughout (step : σ → α → Option σ) (property : σ → Prop)
    [DecidablePred property] : ∀ s labels, Decidable (Throughout step property s labels)
  | s, [] => inferInstanceAs (Decidable (property s))
  | s, a :: rest =>
    match taken : step s a with
    | some t =>
      have := decidableThroughout step property t rest
      decidable_of_iff (property s ∧ Throughout step property t rest)
        (throughout_cons_iff taken).symm
    | none => decidable_of_iff (property s) (by simp [Throughout,taken])

/-- Evaluate a decidable property of the final state without exhibiting the state. -/
theorem exists_of_eval {step : σ → α → Option σ} {property : σ → Prop} [DecidablePred property]
    {s : σ} {labels : List α}
    (eval : (run step s labels).map (fun t => decide (property t)) = some true) :
    ∃ t, run step s labels = some t ∧ property t := by
  obtain ⟨t,reached,holds⟩ := Option.map_eq_some_iff.mp eval
  exact ⟨t,reached,of_decide_eq_true holds⟩

/-! ## Output -/

/-- A total machine that consumes a list and puts something out at each element. -/
def transduce (step : σ → α → σ × List β) : σ → List α → σ × List β
  | s, [] => (s,[])
  | s, a :: rest =>
    let later := transduce step (step s a).1 rest
    (later.1,(step s a).2 ++ later.2)

variable {step : σ → α → σ × List β}

@[simp] theorem transduce_nil (s : σ) : transduce step s [] = (s,[]) := rfl

theorem transduce_append (s : σ) (first rest : List α) :
    transduce step s (first ++ rest) =
      ((transduce step (transduce step s first).1 rest).1,
        (transduce step s first).2 ++ (transduce step (transduce step s first).1 rest).2) := by
  induction first generalizing s with
  | nil => rfl
  | cons a first ih => simp [transduce,ih]

/-- It does not matter how what it consumes is cut into pieces. -/
theorem transduce_flatten (s : σ) (pieces : List (List α)) :
    transduce (transduce step) s pieces = transduce step s pieces.flatten := by
  induction pieces generalizing s with
  | nil => rfl
  | cons piece rest ih => simp only [transduce,ih,List.flatten_cons,transduce_append]

/-- Such a machine with a step that may fail; a failure ends the run. -/
def attempt {ε : Type} (step : σ → α → Except ε (σ × List β)) : σ → List α → Except ε (σ × List β)
  | s, [] => .ok (s,[])
  | s, a :: rest =>
    match step s a with
    | .error e => .error e
    | .ok (t,out) =>
      match attempt step t rest with
      | .error e => .error e
      | .ok (u,later) => .ok (u,out ++ later)

/-- When a step on two pieces in turn does what a step on both at once does, it does not matter
how what the machine consumes is cut into pieces. -/
theorem attempt_flatten {ε : Type} {step : σ → List α → Except ε (σ × List β)} {inv : σ → Prop}
    (keep : ∀ s a t out, inv s → step s a = .ok (t,out) → inv t)
    (empty : ∀ s, inv s → step s [] = .ok (s,[]))
    (both : ∀ s a b, inv s → step s (a ++ b) = attempt step s [a,b])
    {s : σ} (start : inv s) (pieces : List (List α)) :
    attempt step s pieces = step s pieces.flatten := by
  induction pieces generalizing s with
  | nil => exact (empty s start).symm
  | cons piece rest ih =>
    rw [List.flatten_cons,both s piece rest.flatten start]
    simp only [attempt]
    cases taken : step s piece with
    | error e => rfl
    | ok next =>
      obtain ⟨t,out⟩ := next
      simp only [ih (keep s piece t out start taken)]
      cases step t rest.flatten <;> simp

end Machine
