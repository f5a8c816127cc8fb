import Mathlib.Algebra.Group.Nat.Even
import Mathlib.Tactic.Ring

/-! Byte strings: little-endian numbers of a fixed width, and slices of a bounded one. -/
namespace Bytes

/-! ## Little-endian numbers -/

/-- The `width` bytes of a number, the lowest first. -/
def pack : Nat → Nat → List UInt8
  | 0, _ => []
  | width + 1, n => UInt8.ofNat n :: pack width (n / 256)

def unpack : List UInt8 → Nat
  | [] => 0
  | byte :: rest => byte.toNat + 256 * unpack rest

@[simp] theorem length_pack (width n : Nat) : (pack width n).length = width := by
  induction width generalizing n with
  | zero => rfl
  | succ width ih => simp [pack,ih]

/-- A number that fits is read back. -/
theorem unpack_pack {width n : Nat} (fits : n < 256 ^ width) : unpack (pack width n) = n := by
  induction width generalizing n with
  | zero =>
    simp only [pow_zero,Nat.lt_one_iff] at fits
    simp [pack,unpack,fits]
  | succ width ih =>
    have rest : n / 256 < 256 ^ width := by
      apply Nat.div_lt_of_lt_mul
      rwa [← pow_succ']
    simp only [pack,unpack,ih rest,UInt8.toNat_ofNat']
    omega

/-- Every byte string of the width is the one of the number it spells. -/
theorem pack_unpack (bytes : List UInt8) : pack bytes.length (unpack bytes) = bytes := by
  induction bytes with
  | nil => rfl
  | cons byte rest ih =>
    have small : byte.toNat < 256 := byte.toNat_lt
    have low : UInt8.ofNat (byte.toNat + 256 * unpack rest) = byte := by
      apply UInt8.toNat_inj.mp
      rw [UInt8.toNat_ofNat']
      omega
    have high : (byte.toNat + 256 * unpack rest) / 256 = unpack rest := by omega
    simp only [List.length_cons,unpack,pack,low,high,ih]

theorem unpack_lt (bytes : List UInt8) : unpack bytes < 256 ^ bytes.length := by
  induction bytes with
  | nil => decide
  | cons byte rest ih =>
    have small : byte.toNat < 256 := byte.toNat_lt
    simp only [unpack,List.length_cons,pow_succ']
    omega

/-! ## Slices -/

variable {α : Type}

/-- Consecutive slices of `width` elements, of which only the last may be shorter. -/
def slices (width : Nat) (l : List α) : List (List α) :=
  if l = [] ∨ width = 0 then [] else l.take width :: slices width (l.drop width)
termination_by l.length
decreasing_by
  rename_i proper
  rw [not_or] at proper
  have := List.length_pos_iff.mpr proper.1
  rw [List.length_drop]
  omega

variable {width : Nat} {l : List α}

@[simp] theorem slices_nil : slices width ([] : List α) = [] := by simp [slices]

theorem slices_step (proper : l ≠ []) (positive : 0 < width) :
    slices width l = l.take width :: slices width (l.drop width) := by
  rw [slices,if_neg]
  rintro (empty | zero)
  · exact proper empty
  · omega

theorem slices_flatten (positive : 0 < width) : (slices width l).flatten = l := by
  induction l using slices.induct width with
  | case1 l none =>
    rcases none with rfl | zero
    · simp
    · omega
  | case2 l proper ih =>
    rw [not_or] at proper
    rw [slices_step proper.1 positive,List.flatten_cons,ih,List.take_append_drop]

/-- What holds of every slice that can be cut holds of those that are. -/
theorem slices_forall (positive : 0 < width) {property : List α → Prop}
    (cut : ∀ i, i * width < l.length → property ((l.drop (i * width)).take width)) :
    ∀ slice ∈ slices width l, property slice := by
  induction l using slices.induct width with
  | case1 l none =>
    rcases none with rfl | zero
    · simp
    · omega
  | case2 l proper ih =>
    rw [not_or] at proper
    rw [slices_step proper.1 positive]
    refine List.forall_mem_cons.mpr ⟨?_,ih ?_⟩
    · simpa using cut 0 (by simpa using List.length_pos_iff.mpr proper.1)
    · intro i inside
      rw [List.length_drop] at inside
      rw [List.drop_drop]
      have shifted : width + i * width = (i + 1) * width := by ring
      rw [shifted]
      exact cut (i + 1) (by rw [← shifted]; omega)

/-- `l[start:stop]`. -/
def slice (l : List α) (start stop : Nat) : List α := (l.drop start).take (stop - start)

theorem slice_length {start stop : Nat} (inside : stop ≤ l.length) :
    (slice l start stop).length = stop - start := by
  rw [slice,List.length_take,List.length_drop]
  omega

/-- A slice of what stands at an offset is a slice of the whole. -/
theorem slice_within {inner after : List α} {offset start stop : Nat}
    (cut : l.drop offset = inner ++ after) (inside : stop ≤ inner.length) :
    slice l (offset + start) (offset + stop) = slice inner start stop := by
  have width : offset + stop - (offset + start) = stop - start := by omega
  rw [slice,width,← List.drop_drop,cut]
  rcases le_total start stop with forwards | backwards
  · rw [slice,List.drop_append_of_le_length (by omega),List.take_append_of_le_length]
    rw [List.length_drop]
    omega
  · have none : stop - start = 0 := by omega
    simp [slice,none]

theorem slice_split {start stop : Nat} (forwards : start ≤ stop) :
    l.drop start = slice l start stop ++ l.drop stop := by
  have back : start + (stop - start) = stop := by omega
  rw [slice,← back,← List.drop_drop,back,List.take_append_drop]

/-- What stands at an offset, and what comes after it. -/
theorem slice_at {inner after : List α} {offset stop : Nat} (cut : l.drop offset = inner ++ after)
    (stops : offset + inner.length = stop) : slice l offset stop = inner ∧ l.drop stop = after := by
  subst stops
  constructor
  · rw [slice,Nat.add_sub_cancel_left,cut,List.take_left]
  · rw [← List.drop_drop,cut,List.drop_left]

end Bytes
