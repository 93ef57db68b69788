import Mathlib.Algebra.Order.Group.Defs
import Mathlib.Algebra.Order.Group.MinMax
import Mathlib.Algebra.Order.BigOperators.Group.List
import Mathlib.Algebra.BigOperators.Group.List.Basic

/-!
# Ladders

A ladder lists prices with the amounts which are offered there, the best
price first.  A demand takes amounts from the front while the prices are
acceptable, a new amount joins the ladder at its price, and an amount can be
withdrawn.

No rung is kept without an amount.
-/

namespace Ladder

variable {P K : Type*} [AddCommGroup K] [LinearOrder K]

/-! ## Operations -/

/-- What is left of a rung when an amount is taken from it. -/
def lower (price : P) (listed amount : K) : List (P × K) :=
  if listed = amount then
    []
  else
    [(price, listed - amount)]

/-- What a demand leaves of a ladder. -/
def sweep (accepts : P → Bool) : K → List (P × K) → List (P × K)
  | _, [] => []
  | demand, (price, listed) :: rest =>
      if demand = 0 ∨ accepts price = false then
        (price, listed) :: rest
      else if listed ≤ demand then
        sweep accepts (demand - listed) rest
      else
        (price, listed - demand) :: rest

/-- What a demand takes from a ladder, rung by rung. -/
def takings (accepts : P → Bool) : K → List (P × K) → List (P × K)
  | _, [] => []
  | demand, (price, listed) :: rest =>
      if demand = 0 ∨ accepts price = false then
        []
      else if listed ≤ demand then
        (price, listed) :: takings accepts (demand - listed) rest
      else
        [(price, demand)]

section Prices

variable [DecidableEq P]

/-- What a ladder has at one price. -/
def amountAt (price : P) (ladder : List (P × K)) : K :=
  ((ladder.filter fun rung => rung.1 = price).map Prod.snd).sum

/-- An amount joins a ladder at its price. -/
def join (better : P → P → Prop) [DecidableRel better] (price : P)
    (amount : K) : List (P × K) → List (P × K)
  | [] => [(price, amount)]
  | (other, listed) :: rest =>
      if other = price then
        (price, listed + amount) :: rest
      else if better price other then
        (price, amount) :: (other, listed) :: rest
      else
        (other, listed) :: join better price amount rest

/-- An amount is withdrawn from a ladder at its price. -/
def withdraw (price : P) (amount : K) : List (P × K) → List (P × K)
  | [] => []
  | (other, listed) :: rest =>
      if other = price then
        lower price listed amount ++ rest
      else
        (other, listed) :: withdraw price amount rest

end Prices

/-- The sum of all amounts. -/
def total (ladder : List (P × K)) : K :=
  (ladder.map Prod.snd).sum

/-- The sum of what the amounts weigh at their prices. -/
def weigh {M : Type*} [AddCommMonoid M] (weight : P → K →+ M)
    (ladder : List (P × K)) : M :=
  (ladder.map fun rung => weight rung.1 rung.2).sum

omit [LinearOrder K] in
theorem weigh_cons {M : Type*} [AddCommMonoid M] (weight : P → K →+ M)
    (rung : P × K) (rest : List (P × K)) :
    weigh weight (rung :: rest) =
      weight rung.1 rung.2 + weigh weight rest :=
  List.sum_cons

omit [LinearOrder K] in
theorem total_eq_weigh (ladder : List (P × K)) :
    total ladder = weigh (fun _ => AddMonoidHom.id K) ladder :=
  rfl

omit [LinearOrder K] in
theorem amountAt_eq_weigh [DecidableEq P] (price : P)
    (ladder : List (P × K)) :
    amountAt price ladder =
      weigh (fun other => if other = price then .id K else 0) ladder := by
  induction ladder with
  | nil => rfl
  | cons rung rest induction =>
      rw [weigh_cons, ← induction]
      by_cases here : rung.1 = price
      · simp [amountAt, here]
      · simp [amountAt, here]

section Rules

variable {accepts : P → Bool} {demand listed amount : K} {price : P}
  {rest ladder : List (P × K)}

/-! ## Sweeping -/

theorem sweep_of_refused (refused : demand = 0 ∨
      ∀ rung ∈ ladder.head?, accepts rung.1 = false) :
    sweep accepts demand ladder = ladder := by
  cases ladder with
  | nil => rfl
  | cons rung rest =>
      rw [sweep, if_pos]
      exact refused.imp_right fun all => all rung rfl

theorem takings_of_refused (refused : demand = 0 ∨
      ∀ rung ∈ ladder.head?, accepts rung.1 = false) :
    takings accepts demand ladder = [] := by
  cases ladder with
  | nil => rfl
  | cons rung rest =>
      rw [takings, if_pos]
      exact refused.imp_right fun all => all rung rfl

variable [IsOrderedAddMonoid K]

/-- A part of the demand is taken from the best rung first. -/
theorem sweep_lower (accepted : accepts price = true)
    (unfilled : demand ≠ 0) (withinDemand : amount ≤ demand)
    (withinRung : amount ≤ listed) :
    sweep accepts (demand - amount) (lower price listed amount ++ rest) =
      sweep accepts demand ((price, listed) :: rest) := by
  have taken : ∀ wanted : K, wanted ≠ 0 →
      ¬ (wanted = 0 ∨ accepts price = false) := by
    intro wanted open_
    simp [open_, accepted]
  rw [sweep, if_neg (taken demand unfilled), lower]
  by_cases whole : listed = amount
  · rw [if_pos whole, whole, if_pos withinDemand]
    rfl
  · have short : amount < listed :=
      lt_of_le_of_ne withinRung (Ne.symm whole)
    rw [if_neg whole, List.singleton_append, sweep]
    by_cases spent : demand - amount = 0
    · rw [if_pos (Or.inl spent), sub_eq_zero.mp spent,
        if_neg (not_le_of_gt short)]
    · rw [if_neg (taken _ spent)]
      simp only [sub_le_sub_iff_right, sub_sub_sub_cancel_right]

/-- What is taken first comes from the best rung. -/
theorem weigh_takings_lower {M : Type*} [AddCommMonoid M]
    (weight : P → K →+ M) (accepted : accepts price = true)
    (unfilled : demand ≠ 0) (withinDemand : amount ≤ demand)
    (withinRung : amount ≤ listed) :
    weigh weight (takings accepts demand ((price, listed) :: rest)) =
      weight price amount +
        weigh weight
          (takings accepts (demand - amount)
            (lower price listed amount ++ rest)) := by
  have taken : ∀ wanted : K, wanted ≠ 0 →
      ¬ (wanted = 0 ∨ accepts price = false) := by
    intro wanted open_
    simp [open_, accepted]
  have split : ∀ (whole : K) (others : List (P × K)),
      weigh weight ((price, whole) :: others) =
        weight price amount +
          weigh weight ((price, whole - amount) :: others) := by
    intro whole others
    rw [weigh_cons, weigh_cons, ← add_assoc, ← map_add, add_sub_cancel]
  rw [takings, if_neg (taken demand unfilled), lower]
  by_cases whole : listed = amount
  · rw [if_pos whole, whole, if_pos withinDemand]
    rfl
  · have short : amount < listed :=
      lt_of_le_of_ne withinRung (Ne.symm whole)
    rw [if_neg whole, List.singleton_append, takings]
    by_cases spent : demand - amount = 0
    · rw [if_pos (Or.inl spent), sub_eq_zero.mp spent,
        if_neg (not_le_of_gt short)]
      rfl
    · rw [if_neg (taken _ spent)]
      simp only [sub_le_sub_iff_right, sub_sub_sub_cancel_right]
      by_cases fits : listed ≤ demand
      · rw [if_pos fits, if_pos fits, split]
      · rw [if_neg fits, if_neg fits, split]

/-- The demand is filled as far as the acceptable rungs reach. -/
theorem total_takings (positive : ∀ rung ∈ ladder, 0 < rung.2)
    (nonnegative : 0 ≤ demand) :
    total (takings accepts demand ladder) =
      min demand
        (total (ladder.takeWhile fun rung => accepts rung.1)) := by
  induction ladder generalizing demand with
  | nil => simp [takings, total, nonnegative]
  | cons rung rest induction =>
      rcases rung with ⟨price, listed⟩
      have others : ∀ other ∈ rest, 0 < other.2 := fun other member =>
        positive other (List.mem_cons_of_mem _ member)
      have reach : 0 ≤ total
          (rest.takeWhile fun rung => accepts rung.1) := by
        apply List.sum_nonneg
        intro amount member
        rcases List.mem_map.mp member with ⟨other, taken, rfl⟩
        exact (others other (List.takeWhile_subset _ taken)).le
      have listedPositive : 0 < listed :=
        positive (price, listed) List.mem_cons_self
      by_cases accepted : accepts price = true
      · rw [takings, List.takeWhile_cons_of_pos
          (p := fun rung : P × K => accepts rung.1) accepted]
        show _ = min demand (listed + total _)
        by_cases filled : demand = 0
        · rw [if_pos (Or.inl filled), filled,
            min_eq_left (add_nonneg listedPositive.le reach)]
          rfl
        · rw [if_neg (by simp [filled, accepted])]
          by_cases fits : listed ≤ demand
          · rw [if_pos fits]
            show listed + total (takings accepts _ rest) = _
            rw [induction others (sub_nonneg.mpr fits),
              ← min_add_add_left, add_sub_cancel]
          · rw [if_neg fits, min_eq_left]
            · exact List.sum_singleton
            · exact (le_of_not_ge fits).trans
                (le_add_of_nonneg_right reach)
      · rw [takings_of_refused, List.takeWhile_cons_of_neg
          (p := fun rung : P × K => accepts rung.1) accepted]
        · exact (min_eq_right nonnegative).symm
        · right
          intro first isFirst
          rcases Option.some.inj isFirst with rfl
          exact Bool.eq_false_iff.mpr accepted

/-- The front of a ladder is enough for a demand which it covers. -/
theorem takings_append {front : List (P × K)} (back : List (P × K))
    (nonnegative : 0 ≤ demand)
    (covered : demand ≤
      total (front.takeWhile fun rung => accepts rung.1)) :
    takings accepts demand (front ++ back) =
      takings accepts demand front := by
  induction front generalizing demand with
  | nil =>
      have zero : demand = 0 := le_antisymm covered nonnegative
      rw [List.nil_append, takings_of_refused (Or.inl zero)]
      rfl
  | cons rung rest induction =>
      rcases rung with ⟨price, listed⟩
      rw [List.cons_append, takings, takings]
      by_cases accepted : accepts price = true
      · rw [List.takeWhile_cons_of_pos
          (p := fun rung : P × K => accepts rung.1) accepted] at covered
        by_cases fits : listed ≤ demand
        · have rest_ := induction (sub_nonneg.mpr fits)
            (sub_le_iff_le_add'.mpr covered)
          rw [if_pos fits, if_pos fits, rest_]
        · rw [if_neg fits, if_neg fits]
      · rw [List.takeWhile_cons_of_neg
          (p := fun rung : P × K => accepts rung.1) accepted] at covered
        have zero : demand = 0 := le_antisymm covered nonnegative
        rw [if_pos (Or.inl zero), if_pos (Or.inl zero)]

end Rules

/-! ## Joining and withdrawing -/

section Places

variable [DecidableEq P] {better : P → P → Prop} [DecidableRel better]
  {price : P} {amount : K} {before after : List (P × K)}

omit [LinearOrder K] in
/-- A new price is put between the better and the worse ones. -/
theorem join_new
    (ahead : ∀ rung ∈ before, rung.1 ≠ price ∧ ¬ better price rung.1)
    (behind : ∀ rung ∈ after, rung.1 ≠ price ∧ better price rung.1) :
    join better price amount (before ++ after) =
      before ++ (price, amount) :: after := by
  induction before with
  | nil =>
      cases after with
      | nil => rfl
      | cons rung rest =>
          rcases behind rung List.mem_cons_self with ⟨other, worse⟩
          rw [List.nil_append, join, if_neg other, if_pos worse]
          rfl
  | cons rung rest induction =>
      rcases ahead rung List.mem_cons_self with ⟨other, notWorse⟩
      rw [List.cons_append, join, if_neg other, if_neg notWorse,
        induction fun rung member =>
          ahead rung (List.mem_cons_of_mem _ member)]
      rfl

omit [LinearOrder K] in
/-- A price which is listed offers more. -/
theorem join_listed {listed : K}
    (ahead : ∀ rung ∈ before, rung.1 ≠ price ∧ ¬ better price rung.1) :
    join better price amount (before ++ (price, listed) :: after) =
      before ++ (price, listed + amount) :: after := by
  induction before with
  | nil => rw [List.nil_append, join, if_pos rfl, List.nil_append]
  | cons rung rest induction =>
      rcases ahead rung List.mem_cons_self with ⟨other, notWorse⟩
      rw [List.cons_append, join, if_neg other, if_neg notWorse,
        induction fun rung member =>
          ahead rung (List.mem_cons_of_mem _ member)]
      rfl

/-- Only the rung at the price changes. -/
theorem withdraw_listed {listed : K}
    (ahead : ∀ rung ∈ before, rung.1 ≠ price) :
    withdraw price amount (before ++ (price, listed) :: after) =
      before ++ (lower price listed amount ++ after) := by
  induction before with
  | nil => rw [List.nil_append, withdraw, if_pos rfl, List.nil_append]
  | cons rung rest induction =>
      rw [List.cons_append, withdraw,
        if_neg (ahead rung List.mem_cons_self),
        induction fun rung member =>
          ahead rung (List.mem_cons_of_mem _ member)]
      rfl

end Places

end Ladder
