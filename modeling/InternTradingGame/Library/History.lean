import Mathlib.Data.List.DropRight
import Mathlib.Data.List.Nodup

/-!
# Bounded histories

A bounded history keeps the last `bound` elements of a sequence which only
grows.  Its reader takes a slice whose start may be negative, which counts
from the end.
-/

namespace Sequences

variable {α : Type*}

/-! ## Keeping the last elements -/

theorem rtake_rtake (elements : List α) (outer inner : ℕ) :
    (elements.rtake inner).rtake outer =
      elements.rtake (min outer inner) := by
  simp only [List.rtake_eq_reverse_take_reverse, List.reverse_reverse,
    List.take_take]

theorem length_rtake (elements : List α) (bound : ℕ) :
    (elements.rtake bound).length = min bound elements.length := by
  simp [List.rtake_eq_reverse_take_reverse]

/-- The last elements, read backwards, are the first ones met. -/
theorem reverse_rtake (elements : List α) (bound : ℕ) :
    (elements.rtake bound).reverse = elements.reverse.take bound := by
  rw [List.rtake_eq_reverse_take_reverse, List.reverse_reverse]

/-- What a bounded history keeps after some more elements. -/
theorem rtake_append_rtake (elements more : List α) (bound : ℕ) :
    (elements.rtake bound ++ more).rtake bound =
      (elements ++ more).rtake bound := by
  have fewer : min (bound - more.reverse.length) bound =
      bound - more.reverse.length := min_eq_left (Nat.sub_le _ _)
  simp only [List.rtake_eq_reverse_take_reverse, List.reverse_append,
    List.reverse_reverse, List.take_append, List.take_take, fewer]

/-! ## Slices -/

/-- The slice `elements[start:]`. -/
def sliceFrom (elements : List α) (start : ℤ) : List α :=
  if start < 0 then
    elements.rtake start.natAbs
  else
    elements.drop start.toNat

/-- A slice which starts at minus zero is the whole sequence. -/
@[simp]
theorem sliceFrom_neg_zero (elements : List α) :
    sliceFrom elements (-((0 : ℕ) : ℤ)) = elements := by
  simp [sliceFrom]

theorem sliceFrom_neg {bound : ℕ} (positive : 0 < bound)
    (elements : List α) :
    sliceFrom elements (-(bound : ℤ)) = elements.rtake bound := by
  have negative : -(bound : ℤ) < 0 := by omega
  rw [sliceFrom, if_pos negative, Int.natAbs_neg, Int.natAbs_natCast]

/-! ## Reading backwards -/

/-- Only short sequences without repetition read the same backwards. -/
theorem reverse_eq_self_iff {elements : List α} (distinct : elements.Nodup) :
    elements.reverse = elements ↔ elements.length ≤ 1 := by
  constructor
  · intro same
    match elements with
    | [] => exact Nat.zero_le 1
    | [_] => exact Nat.le_refl 1
    | first :: second :: rest =>
        have ends := congrArg List.getLast? same
        rw [List.getLast?_reverse, List.head?_cons,
          List.getLast?_cons_cons] at ends
        have later : first ∈ second :: rest :=
          List.mem_of_getLast? ends.symm
        exact absurd later (List.nodup_cons.mp distinct).1
  · intro short
    match elements with
    | [] => rfl
    | [_] => rfl
    | _ :: _ :: _ => simp at short

end Sequences
