import Mathlib.Data.List.Infix

/-! Cutting a list into segments. A segment runs up to the first element that ends it, or up to
a limit, and takes along the glue that follows. -/
namespace Segments

variable {α : Type}

structure Rule (α : Type) where
  terminator : α → Prop
  glue : α → Prop
  limit : Nat

namespace Rule

variable (rule : Rule α)

/-- The list ends in a terminator or is as long as the limit. -/
def Ends (core : List α) : Prop :=
  (∃ before last, core = before ++ [last] ∧ rule.terminator last) ∨ core.length = rule.limit

/-- The shortest non-empty prefix that ends. -/
structure Core (core text : List α) : Prop where
  nonempty : core ≠ []
  begins : core <+: text
  ends : rule.Ends core
  shortest : ∀ other, other <+: text → other ≠ [] → rule.Ends other → core.length ≤ other.length

/-- The longest prefix of glue. -/
structure Run (run text : List α) : Prop where
  begins : run <+: text
  glued : ∀ c ∈ run, rule.glue c
  longest : ∀ other, other <+: text → (∀ c ∈ other, rule.glue c) → other.length ≤ run.length

/-- No non-empty prefix ends. -/
def Open (text : List α) : Prop := ∀ core, core <+: text → core ≠ [] → ¬rule.Ends core

/-- The consecutive segments of a text, of which the last may be unfinished. -/
inductive Segmentation : List α → List (List α) → Prop
  | done : Segmentation [] []
  | unfinished {text : List α} : text ≠ [] → rule.Open text → Segmentation text [text]
  | segment {core run rest : List α} {segments : List (List α)} :
      rule.Core core (core ++ (run ++ rest)) → rule.Run run (run ++ rest) →
      Segmentation rest segments →
      Segmentation (core ++ (run ++ rest)) ((core ++ run) :: segments)

end Rule

variable {rule : Rule α} {text core run rest : List α} {segments : List (List α)}

/-! ## Ends and glue as the text grows -/

@[simp] theorem Rule.open_nil : rule.Open [] := by
  intro core begins proper
  exact absurd (List.prefix_nil.mp begins) proper

theorem Rule.Open.snoc {c : α} (unfinished : rule.Open text) (going : ¬rule.Ends (text ++ [c])) :
    rule.Open (text ++ [c]) := by
  intro core begins proper
  rcases List.prefix_concat_iff.mp begins with rfl | shorter
  · exact going
  · exact unfinished core shorter proper

theorem Rule.Open.ended {c : α} (unfinished : rule.Open text) (ends : rule.Ends (text ++ [c])) :
    rule.Core (text ++ [c]) (text ++ [c]) := by
  refine ⟨by simp,List.prefix_rfl,ends,?_⟩
  intro other begins proper otherEnds
  rcases List.prefix_concat_iff.mp begins with rfl | shorter
  · exact le_rfl
  · exact absurd otherEnds (unfinished other shorter proper)

/-- What comes later makes no difference to the first end. -/
theorem Rule.Core.extend (first : rule.Core core core) (later : List α) :
    rule.Core core (core ++ later) := by
  refine ⟨first.nonempty,List.prefix_append core later,first.ends,?_⟩
  intro other begins proper ends
  rcases le_total core.length other.length with longer | shorter
  · exact longer
  · have inside := List.prefix_of_prefix_length_le begins (List.prefix_append core later) shorter
    exact first.shortest other inside proper ends

theorem Rule.Core.length_le (first : rule.Core core text) (positive : 0 < rule.limit) :
    core.length ≤ rule.limit := by
  by_contra long
  obtain ⟨rest,rfl⟩ := first.begins
  have full : (core.take rule.limit).length = rule.limit := by
    rw [List.length_take]
    omega
  have proper : core.take rule.limit ≠ [] := by
    apply List.ne_nil_of_length_pos
    omega
  have begins := (List.take_prefix rule.limit core).trans (List.prefix_append core rest)
  have bound := first.shortest (core.take rule.limit) begins proper (.inr full)
  omega

theorem Rule.Open.length_lt (unfinished : rule.Open text) (positive : 0 < rule.limit) :
    text.length < rule.limit := by
  by_contra long
  have full : (text.take rule.limit).length = rule.limit := by
    rw [List.length_take]
    omega
  have proper : text.take rule.limit ≠ [] := by
    apply List.ne_nil_of_length_pos
    omega
  exact unfinished _ (List.take_prefix rule.limit text) proper (.inr full)

/-- A run of glue is the longest one when no glue comes after it. -/
theorem Rule.Run.intro (glued : ∀ c ∈ run, rule.glue c) (stops : ∀ c ∈ rest.head?, ¬rule.glue c) :
    rule.Run run (run ++ rest) := by
  refine ⟨List.prefix_append run rest,glued,?_⟩
  intro other begins otherGlued
  by_contra longer
  have inside := List.prefix_of_prefix_length_le (List.prefix_append run rest) begins (by omega)
  obtain ⟨more,rfl⟩ := inside
  have after := (List.prefix_append_right_inj run).mp begins
  cases more with
  | nil => simp at longer
  | cons c more =>
    obtain ⟨last,rfl⟩ := after
    exact stops c (by simp) (otherGlued c (by simp))

/-! ## There is one segmentation, and it keeps the text -/

theorem Rule.Core.unique {other : List α} (first : rule.Core core text)
    (second : rule.Core other text) : core = other := by
  have shorter := first.shortest other second.begins second.nonempty second.ends
  have longer := second.shortest core first.begins first.nonempty first.ends
  have inside := List.prefix_of_prefix_length_le first.begins second.begins shorter
  exact inside.eq_of_length_le longer

theorem Rule.Run.unique {other : List α} (first : rule.Run run text)
    (second : rule.Run other text) : run = other := by
  have longer := first.longest other second.begins second.glued
  have shorter := second.longest run first.begins first.glued
  have inside := List.prefix_of_prefix_length_le first.begins second.begins shorter
  exact inside.eq_of_length_le longer

theorem Rule.Core.not_open (first : rule.Core core text) : ¬rule.Open text := by
  intro unfinished
  exact unfinished core first.begins first.nonempty first.ends

theorem Rule.Segmentation.unique {others : List (List α)}
    (first : rule.Segmentation text segments) (second : rule.Segmentation text others) :
    segments = others := by
  induction first generalizing others with
  | done =>
    generalize empty : ([] : List α) = text at second
    cases second with
    | done => rfl
    | unfinished proper _ => exact absurd empty.symm proper
    | segment core _ _ =>
      obtain ⟨rfl,_⟩ := List.nil_eq_append_iff.mp empty
      exact absurd rfl core.nonempty
  | unfinished proper unfinished =>
    cases second with
    | done => exact absurd rfl proper
    | unfinished _ _ => rfl
    | segment core _ _ => exact absurd unfinished core.not_open
  | @segment core run rest segments isCore isRun _ ih =>
    generalize same : core ++ (run ++ rest) = text at second
    cases second with
    | done =>
      obtain ⟨rfl,_⟩ := List.append_eq_nil_iff.mp same
      exact absurd rfl isCore.nonempty
    | unfinished _ unfinished => exact absurd (same ▸ unfinished) isCore.not_open
    | @segment core' run' rest' segments' isCore' isRun' others =>
      obtain rfl := isCore.unique (same ▸ isCore')
      have after := List.append_cancel_left same
      obtain rfl := isRun.unique (after ▸ isRun')
      obtain rfl := List.append_cancel_left after
      rw [ih others]

theorem Rule.Segmentation.flatten (cut : rule.Segmentation text segments) :
    segments.flatten = text := by
  induction cut with
  | done => rfl
  | unfinished => simp
  | segment _ _ _ ih => simp [ih]

/-- A segment is no longer than the limit and the glue at its end. -/
theorem Rule.Segmentation.shape (cut : rule.Segmentation text segments)
    (positive : 0 < rule.limit) : ∀ segment ∈ segments, segment ≠ [] ∧
      ∃ core run, segment = core ++ run ∧ core.length ≤ rule.limit ∧ ∀ c ∈ run, rule.glue c := by
  induction cut with
  | done => simp
  | unfinished proper unfinished =>
    intro segment member
    obtain rfl := List.mem_singleton.mp member
    have short := unfinished.length_lt positive
    exact ⟨proper,segment,[],by simp,by omega,by simp⟩
  | segment isCore isRun _ ih =>
    intro segment member
    rcases List.mem_cons.mp member with rfl | later
    · exact ⟨by simp [isCore.nonempty],_,_,rfl,isCore.length_le positive,isRun.glued⟩
    · exact ih segment later

end Segments
