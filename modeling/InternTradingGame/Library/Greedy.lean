import Mathlib.Algebra.Order.Group.Defs
import Mathlib.Algebra.Order.Group.MinMax
import Mathlib.Algebra.Order.BigOperators.Group.List
import Mathlib.Algebra.BigOperators.Group.List.Basic
import Mathlib.Tactic.Abel

/-!
# Greedy allocation along a queue

A demand is served by a queue of items, each with a capacity: every item in
turn gives the smaller of its capacity and of what is still asked for, until
nothing is asked for or the queue ends.

The allocation is a prefix of the queue, every item of it but the last gives
its whole capacity, and the total is the smaller of the demand and of the
sum of the capacities.
-/

namespace Greedy

variable {α K : Type*}
  [AddCommGroup K] [LinearOrder K] [IsOrderedAddMonoid K]

/-- The items served, each with the amount it gives. -/
def allocate (capacity : α → K) : K → List α → List (α × K)
  | _, [] => []
  | demand, item :: rest =>
      if demand = 0 then
        []
      else
        (item, min demand (capacity item)) ::
          allocate capacity (demand - min demand (capacity item)) rest

/-- The amount given out in all. -/
def total (allocation : List (α × K)) : K :=
  (allocation.map Prod.snd).sum

omit [IsOrderedAddMonoid K] in
@[simp]
theorem allocate_nil (capacity : α → K) (demand : K) :
    allocate capacity demand [] = [] :=
  rfl

omit [IsOrderedAddMonoid K] in
@[simp]
theorem allocate_zero (capacity : α → K) (items : List α) :
    allocate capacity 0 items = [] := by
  cases items with
  | nil => rfl
  | cons item rest => simp [allocate]

omit [IsOrderedAddMonoid K] in
theorem allocate_cons
    (capacity : α → K) {demand : K} (item : α) (rest : List α)
    (open? : demand ≠ 0) :
    allocate capacity demand (item :: rest) =
      (item, min demand (capacity item)) ::
        allocate capacity (demand - min demand (capacity item)) rest := by
  rw [allocate, if_neg open?]

omit [IsOrderedAddMonoid K] in
/-- Only the capacities of the queue matter. -/
theorem allocate_congr
    {left right : α → K} (demand : K) (items : List α)
    (agree : ∀ item ∈ items, left item = right item) :
    allocate left demand items = allocate right demand items := by
  induction items generalizing demand with
  | nil => rfl
  | cons item rest induction =>
      have headAgrees : left item = right item :=
        agree item List.mem_cons_self
      have restAgrees : ∀ other ∈ rest, left other = right other :=
        fun other member => agree other (List.mem_cons_of_mem _ member)
      simp only [allocate, headAgrees, induction _ restAgrees]

omit [IsOrderedAddMonoid K] in
/-- The items served are a prefix of the queue. -/
theorem items_prefix (capacity : α → K) (demand : K) (items : List α) :
    (allocate capacity demand items).map Prod.fst <+: items := by
  induction items generalizing demand with
  | nil => simp
  | cons item rest induction =>
      by_cases zero : demand = 0
      · simp [zero]
      · rw [allocate_cons capacity item rest zero, List.map_cons]
        exact (List.prefix_cons_inj item).mpr (induction _)

omit [IsOrderedAddMonoid K] in
/-- Items which are not served can be left out. -/
theorem allocate_filter (capacity : α → K) (keep : α → Bool)
    {demand : K} {items : List α}
    (kept : ∀ served ∈ allocate capacity demand items,
      keep served.1 = true) :
    allocate capacity demand (items.filter keep) =
      allocate capacity demand items := by
  induction items generalizing demand with
  | nil => rfl
  | cons item rest induction =>
      by_cases zero : demand = 0
      · rw [zero, allocate_zero, allocate_zero]
      · rw [allocate_cons capacity item rest zero] at kept ⊢
        have served : keep item = true := kept _ List.mem_cons_self
        rw [List.filter_cons_of_pos served,
          allocate_cons capacity item _ zero,
          induction fun other member =>
            kept other (List.mem_cons_of_mem _ member)]

section Nonnegative

variable {capacity : α → K} {items : List α}

theorem total_allocate
    (positive : ∀ item ∈ items, 0 < capacity item)
    {demand : K} (nonnegative : 0 ≤ demand) :
    total (allocate capacity demand items) =
      min demand (items.map capacity).sum := by
  induction items generalizing demand with
  | nil => simp [total, nonnegative]
  | cons item rest induction =>
      have headPositive : 0 < capacity item :=
        positive item List.mem_cons_self
      have restPositive : ∀ other ∈ rest, 0 < capacity other :=
        fun other member => positive other (List.mem_cons_of_mem _ member)
      have restNonnegative : 0 ≤ (rest.map capacity).sum := by
        apply List.sum_nonneg
        intro amount member
        rcases List.mem_map.mp member with ⟨other, otherMember, rfl⟩
        exact le_of_lt (restPositive other otherMember)
      by_cases zero : demand = 0
      · subst zero
        simp [total, add_nonneg headPositive.le restNonnegative]
      · have leftNonnegative :
            0 ≤ demand - min demand (capacity item) :=
          sub_nonneg.mpr (min_le_left _ _)
        rw [allocate_cons capacity item rest zero]
        simp only [total, List.map_cons, List.sum_cons]
        have inductive_total := induction restPositive leftNonnegative
        rw [total] at inductive_total
        rw [inductive_total]
        rcases le_total demand (capacity item) with short | long
        · have whole : demand ≤
              capacity item + (rest.map capacity).sum :=
            le_add_of_le_of_nonneg short restNonnegative
          simp [min_eq_left short, min_eq_left whole, restNonnegative]
        · rw [min_eq_right long, ← min_add_add_left]
          congr 1
          abel

omit [IsOrderedAddMonoid K] in
/-- Every item served but the last gives its whole capacity. -/
theorem full_of_mem_dropLast
    {demand : K} {served : α × K}
    (member : served ∈ (allocate capacity demand items).dropLast) :
    served.2 = capacity served.1 := by
  induction items generalizing demand with
  | nil => simp at member
  | cons item rest induction =>
      by_cases zero : demand = 0
      · simp [zero] at member
      · rw [allocate_cons capacity item rest zero] at member
        cases later :
            allocate capacity
              (demand - min demand (capacity item)) rest with
        | nil => simp [later] at member
        | cons next others =>
            rw [later, List.dropLast_cons_cons] at member
            rcases List.mem_cons.mp member with rfl | deeper
            · rcases le_total demand (capacity item) with short | long
              · rw [min_eq_left short, sub_self,
                  allocate_zero] at later
                simp at later
              · exact min_eq_right long
            · exact induction (by rw [later]; exact deeper)

end Nonnegative

end Greedy
