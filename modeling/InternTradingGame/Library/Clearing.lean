import Mathlib.Algebra.Order.Group.Defs
import Mathlib.Algebra.Order.Group.MinMax
import Mathlib.Algebra.Order.BigOperators.Group.List
import Mathlib.Algebra.BigOperators.Group.List.Basic
import Mathlib.Data.List.MinMax
import Mathlib.Order.OrderDual
import Mathlib.Order.Bounds.Basic
import Mathlib.Tactic.Abel

/-!
# Clearing two sides of a market

Bids and asks have a price and a capacity, and trades fill them bit by bit.
The filling of one side is prioritized when an item is filled only after all
items of a strictly better rank are full.  A filling of both sides is fair
when both are prioritized and all that is filled crosses, and it is
exhausted when no bid with capacity left meets an ask with capacity left.

A fair and exhausted filling has the greatest volume which a single price
could clear.  The volume and what is filled at every price depend only on
the capacities at the prices, not on the way in which ties were broken.
-/

namespace Clearing

variable {α β P K : Type*} [LinearOrder P]
  [AddCommGroup K] [LinearOrder K] [IsOrderedAddMonoid K]

/-! ## Totals -/

/-- The amounts of the items with a property, in all. -/
def totalOf (amount : α → K) (keep : α → Bool) (items : List α) : K :=
  ((items.filter keep).map amount).sum

section Totals

variable {amount other : α → K} {keep : α → Bool} {items : List α}

omit [LinearOrder K] [IsOrderedAddMonoid K] in
@[simp]
theorem totalOf_nil : totalOf amount keep [] = 0 :=
  rfl

omit [LinearOrder K] [IsOrderedAddMonoid K] in
theorem totalOf_cons (item : α) (rest : List α) :
    totalOf amount keep (item :: rest) =
      (if keep item = true then amount item else 0) +
        totalOf amount keep rest := by
  by_cases kept : keep item = true
  · rw [totalOf, List.filter_cons_of_pos kept, if_pos kept]
    rfl
  · rw [totalOf, List.filter_cons_of_neg kept, if_neg kept, zero_add]
    rfl

omit [LinearOrder K] [IsOrderedAddMonoid K] in
theorem totalOf_congr (agree : ∀ item ∈ items, amount item = other item) :
    totalOf amount keep items = totalOf other keep items := by
  rw [totalOf, totalOf]
  congr 1
  apply List.map_congr_left
  intro item member
  exact agree item (List.mem_filter.mp member).1

omit [LinearOrder K] [IsOrderedAddMonoid K] in
theorem totalOf_perm {rearranged : List α}
    (perm : items.Perm rearranged) :
    totalOf amount keep items = totalOf amount keep rearranged :=
  ((perm.filter _).map _).sum_eq

omit [LinearOrder K] [IsOrderedAddMonoid K] in
theorem totalOf_append (items more : List α) :
    totalOf amount keep (items ++ more) =
      totalOf amount keep items + totalOf amount keep more := by
  rw [totalOf, List.filter_append, List.map_append, List.sum_append]
  rfl

omit [LinearOrder K] [IsOrderedAddMonoid K] in
theorem totalOf_add :
    totalOf (fun item => amount item + other item) keep items =
      totalOf amount keep items + totalOf other keep items :=
  List.sum_map_add

omit [LinearOrder K] [IsOrderedAddMonoid K] in
theorem totalOf_sub :
    totalOf (fun item => amount item - other item) keep items =
      totalOf amount keep items - totalOf other keep items := by
  induction items with
  | nil => exact (sub_zero 0).symm
  | cons item rest induction =>
      rw [totalOf_cons, totalOf_cons, totalOf_cons, induction]
      by_cases kept : keep item = true
      · simp only [if_pos kept]
        abel
      · simp only [if_neg kept]
        abel

omit [LinearOrder K] [IsOrderedAddMonoid K] in
theorem totalOf_all (all : ∀ item ∈ items, keep item = true) :
    totalOf amount keep items = (items.map amount).sum := by
  rw [totalOf, List.filter_eq_self.mpr all]

omit [LinearOrder K] [IsOrderedAddMonoid K] in
/-- The items which are left out have nothing. -/
theorem totalOf_eq_sum
    (none : ∀ item ∈ items, keep item = false → amount item = 0) :
    totalOf amount keep items = (items.map amount).sum := by
  induction items with
  | nil => rfl
  | cons item rest induction =>
      rw [totalOf_cons, List.map_cons, List.sum_cons,
        induction fun other member =>
          none other (List.mem_cons_of_mem _ member)]
      by_cases kept : keep item = true
      · rw [if_pos kept]
      · rw [if_neg kept, none item List.mem_cons_self
          (Bool.eq_false_of_not_eq_true kept)]

omit [LinearOrder K] [IsOrderedAddMonoid K] in
/-- Only one group of the items counts. -/
theorem totalOf_group {group rest : List α} {within : α → Bool}
    (perm : items.Perm (group ++ rest))
    (inside : ∀ item ∈ group, keep item = within item)
    (outside : ∀ item ∈ rest, ¬ keep item = true) :
    totalOf amount keep items = totalOf amount within group := by
  have none : totalOf amount keep rest = 0 := by
    rw [totalOf, List.filter_eq_nil_iff.mpr outside]
    rfl
  rw [totalOf_perm perm, totalOf_append, none, add_zero, totalOf, totalOf,
    List.filter_congr inside]

theorem totalOf_mono
    (bounded : ∀ item ∈ items, amount item ≤ other item) :
    totalOf amount keep items ≤ totalOf other keep items := by
  apply List.sum_le_sum
  intro item member
  exact bounded item (List.mem_filter.mp member).1

/-- A part of a list has at most what the list has. -/
theorem totalOf_sublist {part : List α} (sublist : part.Sublist items)
    (nonnegative : ∀ item ∈ items, 0 ≤ amount item) :
    totalOf amount keep part ≤ totalOf amount keep items :=
  ((sublist.filter _).map amount).sum_le_sum fun value member => by
    rcases List.mem_map.mp member with ⟨item, inFilter, rfl⟩
    exact nonnegative item (List.mem_filter.mp inFilter).1

theorem totalOf_lt_totalOf
    (bounded : ∀ item ∈ items, amount item ≤ other item)
    (less : ∃ item ∈ items, keep item = true ∧ amount item < other item) :
    totalOf amount keep items < totalOf other keep items := by
  rcases less with ⟨item, member, kept, smaller⟩
  apply List.sum_lt_sum
  · exact fun item member => bounded item (List.mem_filter.mp member).1
  · exact ⟨item, List.mem_filter.mpr ⟨member, kept⟩, smaller⟩

/-- A part of amounts which are not negative is at most the whole. -/
theorem totalOf_le_sum
    (nonnegative : ∀ item ∈ items, 0 ≤ amount item) :
    totalOf amount keep items ≤ (items.map amount).sum :=
  (List.filter_sublist.map amount).sum_le_sum fun value member => by
    rcases List.mem_map.mp member with ⟨item, inItems, rfl⟩
    exact nonnegative item inItems

omit [LinearOrder K] [IsOrderedAddMonoid K] in
/-- The total at a rank, from the totals of two fronts. -/
theorem totalOf_rank (rank : α → P) (value : P) :
    totalOf amount (fun item => rank item = value) items =
      totalOf amount (fun item => rank item ≤ value) items -
        totalOf amount (fun item => rank item < value) items := by
  induction items with
  | nil => exact (sub_zero 0).symm
  | cons item rest induction =>
      rw [totalOf_cons, totalOf_cons, totalOf_cons, induction]
      rcases lt_trichotomy (rank item) value with before | equal | after
      · simp only [decide_eq_true_eq, if_neg before.ne, if_pos before.le,
          if_pos before]
        abel
      · simp only [decide_eq_true_eq, if_pos equal, if_pos equal.le,
          if_neg equal.not_lt]
        abel
      · simp only [decide_eq_true_eq, if_neg after.ne',
          if_neg after.not_ge, if_neg after.not_gt]
        abel

end Totals

/-! ## One side -/

/-- With a rank all better ranks belong to the front. -/
def IsFront (front : P → Bool) : Prop :=
  ∀ near far, near ≤ far → front far = true → front near = true

theorem isFront_le (value : P) : IsFront fun rank => rank ≤ value := by
  intro near far closer within
  exact decide_eq_true (closer.trans (of_decide_eq_true within))

theorem isFront_lt (value : P) : IsFront fun rank => rank < value := by
  intro near far closer within
  exact decide_eq_true (closer.trans_lt (of_decide_eq_true within))

/-- An item is filled only after all items of better ranks are full. -/
structure Filling (rank : α → P) (capacity filled : α → K)
    (items : List α) : Prop where
  nonnegative : ∀ item ∈ items, 0 ≤ filled item
  bounded : ∀ item ∈ items, filled item ≤ capacity item
  prioritized : ∀ first ∈ items, ∀ second ∈ items,
    rank first < rank second → 0 < filled second →
      filled first = capacity first

namespace Filling

variable {rank : α → P} {capacity filled : α → K} {items : List α}

/-- A front takes the whole volume, or its whole capacity if that is less. -/
theorem total_front (filling : Filling rank capacity filled items)
    {front : P → Bool} (isFront : IsFront front) :
    totalOf filled (fun item => front (rank item)) items =
      min (items.map filled).sum
        (totalOf capacity (fun item => front (rank item)) items) := by
  by_cases full : ∀ item ∈ items, front (rank item) = true →
      filled item = capacity item
  · have same : totalOf filled (fun item => front (rank item)) items =
        totalOf capacity (fun item => front (rank item)) items := by
      rw [totalOf, totalOf]
      congr 1
      apply List.map_congr_left
      intro item member
      rcases List.mem_filter.mp member with ⟨inItems, within⟩
      exact full item inItems within
    rw [← same, min_eq_right (totalOf_le_sum filling.nonnegative)]
  · rcases not_forall.mp full with ⟨item, remains⟩
    rcases Classical.not_imp.mp remains with ⟨inItems, remains⟩
    rcases Classical.not_imp.mp remains with ⟨within, open_⟩
    have none : ∀ other ∈ items, front (rank other) = false →
        filled other = 0 := by
      intro other member outside
      have later : rank item < rank other := by
        by_contra notLater
        have inside := isFront _ _ (not_lt.mp notLater) within
        rw [outside] at inside
        cases inside
      by_contra filledOther
      exact open_ (filling.prioritized item inItems other member later
        (lt_of_le_of_ne (filling.nonnegative other member)
          (Ne.symm filledOther)))
    have whole : totalOf filled (fun item => front (rank item)) items =
        (items.map filled).sum := totalOf_eq_sum none
    rw [← whole, min_eq_left (totalOf_mono filling.bounded)]

end Filling

/-- What the two lists have in every front is the same. -/
def SameFronts (rank : α → P) (amount : α → K) (items : List α)
    (otherRank : β → P) (other : β → K) (others : List β) : Prop :=
  ∀ front, IsFront front →
    totalOf amount (fun item => front (rank item)) items =
      totalOf other (fun item => front (otherRank item)) others

namespace SameFronts

variable {rank : α → P} {amount : α → K} {items : List α}
  {otherRank : β → P} {other : β → K} {others : List β}

omit [LinearOrder K] [IsOrderedAddMonoid K] in
/-- Then the two lists have the same at every rank. -/
theorem at_rank
    (same : SameFronts rank amount items otherRank other others)
    (value : P) :
    totalOf amount (fun item => rank item = value) items =
      totalOf other (fun item => otherRank item = value) others := by
  rw [totalOf_rank, totalOf_rank, same _ (isFront_le value),
    same _ (isFront_lt value)]

omit [LinearOrder K] [IsOrderedAddMonoid K] in
theorem sub {part : α → K} {otherPart : β → K}
    (same : SameFronts rank amount items otherRank other others)
    (parts : SameFronts rank part items otherRank otherPart others) :
    SameFronts rank (fun item => amount item - part item) items
      otherRank (fun item => other item - otherPart item) others := by
  intro front isFront
  rw [totalOf_sub, totalOf_sub, same front isFront, parts front isFront]

omit [LinearOrder K] [IsOrderedAddMonoid K] in
/-- Rearranging a list changes nothing. -/
theorem of_perm {rearranged : List α} (perm : items.Perm rearranged) :
    SameFronts rank amount items rank amount rearranged :=
  fun _ _ => totalOf_perm perm

omit [LinearOrder K] [IsOrderedAddMonoid K] in
theorem congr {amount' : α → K} {other' : β → K}
    (same : SameFronts rank amount items otherRank other others)
    (left : ∀ item ∈ items, amount' item = amount item)
    (right : ∀ item ∈ others, other' item = other item) :
    SameFronts rank amount' items otherRank other' others := by
  intro front isFront
  rw [totalOf_congr left, totalOf_congr right]
  exact same front isFront

omit [LinearOrder K] [IsOrderedAddMonoid K] in
/-- Ranks which are seen through a monotone map have fewer fronts. -/
theorem map {Q : Type*} [LinearOrder Q] {through : P → Q}
    (monotone : Monotone through)
    (same : SameFronts rank amount items otherRank other others) :
    SameFronts (fun item => through (rank item)) amount items
      (fun item => through (otherRank item)) other others := by
  intro front isFront
  apply same fun value => front (through value)
  intro near far closer within
  exact isFront _ _ (monotone closer) within

/-- Equal capacities and volumes are filled alike. -/
theorem of_filling {capacity filled : α → K}
    {otherCapacity otherFilled : β → K}
    (filling : Filling rank capacity filled items)
    (otherFilling : Filling otherRank otherCapacity otherFilled others)
    (capacities :
      SameFronts rank capacity items otherRank otherCapacity others)
    (volumes : (items.map filled).sum = (others.map otherFilled).sum) :
    SameFronts rank filled items otherRank otherFilled others := by
  intro front isFront
  rw [filling.total_front isFront, otherFilling.total_front isFront,
    capacities front isFront, volumes]

end SameFronts

/-! ## Two sides -/

/-- A bid ranks the better the higher its price is. -/
def bidRank (price : α → P) (bid : α) : Pᵒᵈ :=
  OrderDual.toDual (price bid)

/-- Both sides are filled by priority, and all that is filled crosses. -/
structure Fair (price : α → P) (capacity filled : α → K)
    (bids asks : List α) : Prop where
  buying : Filling (bidRank price) capacity filled bids
  selling : Filling price capacity filled asks
  balanced : (bids.map filled).sum = (asks.map filled).sum
  crossing : ∀ bid ∈ bids, ∀ ask ∈ asks,
    0 < filled bid → 0 < filled ask → price ask ≤ price bid

/-- No bid with capacity left meets an ask with capacity left. -/
def Exhausted (price : α → P) (capacity filled : α → K)
    (bids asks : List α) : Prop :=
  ∀ bid ∈ bids, ∀ ask ∈ asks,
    filled bid < capacity bid → filled ask < capacity ask →
      price bid < price ask

/-- What the bids would buy at a price. -/
def demandAt (price : α → P) (capacity : α → K) (bids : List α)
    (value : P) : K :=
  totalOf capacity (fun bid => value ≤ price bid) bids

/-- What the asks would sell at a price. -/
def supplyAt (price : α → P) (capacity : α → K) (asks : List α)
    (value : P) : K :=
  totalOf capacity (fun ask => price ask ≤ value) asks

/-- What a single price would clear. -/
def volumeAt (price : α → P) (capacity : α → K) (bids asks : List α)
    (value : P) : K :=
  min (demandAt price capacity bids value)
    (supplyAt price capacity asks value)

/-! ### The volume as a function of the price -/

section Volumes

variable {price : α → P} {capacity : α → K} {bids asks : List α}

/-- More items are kept. -/
theorem totalOf_le_totalOf {keep more : α → Bool} {items : List α}
    (nonnegative : ∀ item ∈ items, 0 ≤ capacity item)
    (wider : ∀ item ∈ items, keep item = true → more item = true) :
    totalOf capacity keep items ≤ totalOf capacity more items := by
  induction items with
  | nil => exact le_refl _
  | cons item rest induction =>
      have ofRest := induction
        (fun other member =>
          nonnegative other (List.mem_cons_of_mem _ member))
        (fun other member => wider other (List.mem_cons_of_mem _ member))
      rw [totalOf_cons, totalOf_cons]
      refine add_le_add ?_ ofRest
      by_cases kept : keep item = true
      · rw [if_pos kept, if_pos (wider item List.mem_cons_self kept)]
      · rw [if_neg kept]
        split_ifs
        · exact nonnegative item List.mem_cons_self
        · exact le_refl 0

omit [LinearOrder K] [IsOrderedAddMonoid K] in
theorem totalOf_none {keep : α → Bool} {items : List α}
    (none : ∀ item ∈ items, ¬ keep item = true) :
    totalOf capacity keep items = 0 := by
  rw [totalOf, List.filter_eq_nil_iff.mpr none]
  rfl

/-- A higher price has fewer buyers. -/
theorem demandAt_antitone (nonnegative : ∀ bid ∈ bids, 0 ≤ capacity bid) :
    Antitone (demandAt price capacity bids) := by
  intro lower higher below
  apply totalOf_le_totalOf nonnegative
  intro bid _ within
  exact decide_eq_true (below.trans (of_decide_eq_true within))

/-- A higher price has more sellers. -/
theorem supplyAt_monotone (nonnegative : ∀ ask ∈ asks, 0 ≤ capacity ask) :
    Monotone (supplyAt price capacity asks) := by
  intro lower higher below
  apply totalOf_le_totalOf nonnegative
  intro ask _ within
  exact decide_eq_true ((of_decide_eq_true within).trans below)

/-- Between two prices the volume is no less than at both of them. -/
theorem le_volumeAt_between
    (bidsNonnegative : ∀ bid ∈ bids, 0 ≤ capacity bid)
    (asksNonnegative : ∀ ask ∈ asks, 0 ≤ capacity ask)
    {volume : K} {low value high : P} (above : low ≤ value)
    (below : value ≤ high)
    (atLow : volume ≤ volumeAt price capacity bids asks low)
    (atHigh : volume ≤ volumeAt price capacity bids asks high) :
    volume ≤ volumeAt price capacity bids asks value := by
  apply le_min
  · calc
      volume ≤ demandAt price capacity bids high :=
        atHigh.trans (min_le_left _ _)
      _ ≤ demandAt price capacity bids value :=
        demandAt_antitone bidsNonnegative below
  · calc
      volume ≤ supplyAt price capacity asks low :=
        atLow.trans (min_le_right _ _)
      _ ≤ supplyAt price capacity asks value :=
        supplyAt_monotone asksNonnegative above

/-- The price of some crossing ask clears as much as any other price. -/
theorem exists_ask_volumeAt
    (nonnegative : ∀ bid ∈ bids, 0 ≤ capacity bid) (value : P) :
    volumeAt price capacity bids asks value ≤ 0 ∨
      ∃ bid ∈ bids, ∃ ask ∈ asks, price ask ≤ price bid ∧
        volumeAt price capacity bids asks value ≤
          volumeAt price capacity bids asks (price ask) := by
  by_cases buyers : ∃ bid ∈ bids, value ≤ price bid
  · rcases buyers with ⟨bid, bidMember, willing⟩
    cases last : List.argmax price (asks.filter fun ask => price ask ≤ value)
      with
    | none =>
        have noSupply : supplyAt price capacity asks value = 0 := by
          rw [supplyAt, totalOf, List.argmax_eq_none.mp last]
          rfl
        exact Or.inl ((min_le_right _ _).trans noSupply.le)
    | some ask =>
        rcases List.mem_filter.mp (List.argmax_mem last) with
          ⟨askMember, within⟩
        have cheap : price ask ≤ value := of_decide_eq_true within
        have supply : supplyAt price capacity asks value =
            supplyAt price capacity asks (price ask) := by
          rw [supplyAt, supplyAt, totalOf, totalOf]
          congr 2
          apply List.filter_congr
          intro other member
          apply decide_eq_decide.mpr
          constructor
          · intro eligible
            exact List.le_of_mem_argmax
              (List.mem_filter.mpr ⟨member, decide_eq_true eligible⟩) last
          · exact fun below => below.trans cheap
        refine Or.inr ⟨bid, bidMember, ask, askMember,
          cheap.trans willing, ?_⟩
        rw [volumeAt, volumeAt, supply]
        exact min_le_min_right _ (demandAt_antitone nonnegative cheap)
  · have noDemand : demandAt price capacity bids value = 0 := by
      apply totalOf_none
      intro bid member within
      exact buyers ⟨bid, member, of_decide_eq_true within⟩
    exact Or.inl ((min_le_left _ _).trans noDemand.le)

omit [IsOrderedAddMonoid K] in
/-- The volume does not depend on the kind of number the prices are. -/
theorem volumeAt_embedding {Q : Type*} [LinearOrder Q]
    (into : P ↪o Q) (value : P) :
    volumeAt (fun item => into (price item)) capacity bids asks
        (into value) =
      volumeAt price capacity bids asks value := by
  simp only [volumeAt, demandAt, supplyAt, into.le_iff_le]

end Volumes

/-! ### One trade -/

/-- One item of a list gets more, and the others keep what they have. -/
structure Grows (items : List α) (item : α) (amount : K)
    (before after : α → K) : Prop where
  distinct : items.Nodup
  mem : item ∈ items
  grown : after item = before item + amount
  others : ∀ other ∈ items, other ≠ item → after other = before other

namespace Grows

variable {items : List α} {item : α} {amount : K} {before after : α → K}
  {rank : α → P} {capacity : α → K}

omit [LinearOrder K] [IsOrderedAddMonoid K] in
theorem total (grows : Grows items item amount before after)
    (keep : α → Bool) :
    totalOf after keep items =
      totalOf before keep items +
        if keep item = true then amount else 0 := by
  rcases List.append_of_mem grows.mem with ⟨front, back, rfl⟩
  have parts := List.nodup_append.mp grows.distinct
  have unchanged : ∀ others : List α,
      (∀ other ∈ others, other ∈ front ++ item :: back ∧ other ≠ item) →
        totalOf after keep others = totalOf before keep others := by
    intro others facts
    apply totalOf_congr
    intro other member
    exact grows.others other (facts other member).1 (facts other member).2
  rw [totalOf_append, totalOf_append, totalOf_cons, totalOf_cons,
    unchanged front, unchanged back, grows.grown]
  · by_cases kept : keep item = true
    · simp only [if_pos kept]
      abel
    · simp only [if_neg kept]
      abel
  · intro other member
    refine ⟨List.mem_append_right _ (List.mem_cons_of_mem _ member), ?_⟩
    rintro rfl
    exact (List.nodup_cons.mp parts.2.1).1 member
  · intro other member
    exact ⟨List.mem_append_left _ member,
      parts.2.2 other member item List.mem_cons_self⟩

omit [LinearOrder K] [IsOrderedAddMonoid K] in
theorem sum (grows : Grows items item amount before after) :
    (items.map after).sum = (items.map before).sum + amount := by
  have total := grows.total fun _ => true
  rw [totalOf_all fun _ _ => rfl, totalOf_all fun _ _ => rfl,
    if_pos rfl] at total
  exact total

/-- Filling one of the best items which are not full keeps the priority. -/
theorem filling (grows : Grows items item amount before after)
    (filled : Filling rank capacity before items)
    (positive : 0 < amount)
    (room : before item + amount ≤ capacity item)
    (better : ∀ other ∈ items, rank other < rank item →
      before other = capacity other) :
    Filling rank capacity after items := by
  constructor
  · intro other member
    by_cases same : other = item
    · rw [same, grows.grown]
      exact add_nonneg (filled.nonnegative item grows.mem) positive.le
    · rw [grows.others other member same]
      exact filled.nonnegative other member
  · intro other member
    by_cases same : other = item
    · rw [same, grows.grown]
      exact room
    · rw [grows.others other member same]
      exact filled.bounded other member
  · intro first firstMember second secondMember closer filledSecond
    have notFull : before item ≠ capacity item := by
      intro full
      rw [full] at room
      exact absurd room (not_le.mpr (lt_add_of_pos_right _ positive))
    by_cases isSecond : second = item
    · rw [isSecond] at closer
      have different : first ≠ item := by
        rintro rfl
        exact lt_irrefl _ closer
      rw [grows.others first firstMember different]
      exact better first firstMember closer
    · rw [grows.others second secondMember isSecond] at filledSecond
      have full := filled.prioritized first firstMember second
        secondMember closer filledSecond
      have different : first ≠ item := by
        rintro rfl
        exact notFull full
      rw [grows.others first firstMember different]
      exact full

end Grows

section TwoSides

variable {price : α → P} {capacity filled after : α → K}
  {bids asks : List α} {bid ask : α} {amount : K}

omit [IsOrderedAddMonoid K] in
/-- Nothing has been filled yet. -/
theorem Fair.start
    (nonnegative : ∀ item ∈ bids ++ asks, 0 ≤ capacity item)
    (none : ∀ item ∈ bids ++ asks, filled item = 0) :
    Fair price capacity filled bids asks := by
  have side : ∀ {Q : Type _} [LinearOrder Q] (rank : α → Q)
      (items : List α), (∀ item ∈ items, item ∈ bids ++ asks) →
        Filling rank capacity filled items := by
    intro Q _ rank items sub
    constructor
    · intro item member
      rw [none item (sub item member)]
    · intro item member
      rw [none item (sub item member)]
      exact nonnegative item (sub item member)
    · intro first _ second member _ positive
      rw [none second (sub second member)] at positive
      exact absurd positive (lt_irrefl 0)
  have zero : ∀ items : List α, (∀ item ∈ items, item ∈ bids ++ asks) →
      (items.map filled).sum = 0 := by
    intro items sub
    apply List.sum_eq_zero
    intro value member
    rcases List.mem_map.mp member with ⟨item, inItems, rfl⟩
    exact none item (sub item inItems)
  have left : ∀ item ∈ bids, item ∈ bids ++ asks :=
    fun _ member => List.mem_append_left _ member
  have right : ∀ item ∈ asks, item ∈ bids ++ asks :=
    fun _ member => List.mem_append_right _ member
  refine ⟨side _ bids left, side _ asks right, ?_, ?_⟩
  · rw [zero bids left, zero asks right]
  · intro bid member _ _ positive
    rw [none bid (left bid member)] at positive
    exact absurd positive (lt_irrefl 0)

/-- A trade between a best bid and a best ask which cross is fair. -/
theorem Fair.trade (fair : Fair price capacity filled bids asks)
    (bidGrows : Grows bids bid amount filled after)
    (askGrows : Grows asks ask amount filled after)
    (positive : 0 < amount)
    (bidRoom : filled bid + amount ≤ capacity bid)
    (askRoom : filled ask + amount ≤ capacity ask)
    (crosses : price ask ≤ price bid)
    (betterBids : ∀ other ∈ bids, price bid < price other →
      filled other = capacity other)
    (betterAsks : ∀ other ∈ asks, price other < price ask →
      filled other = capacity other) :
    Fair price capacity after bids asks where
  buying := bidGrows.filling fair.buying positive bidRoom betterBids
  selling := askGrows.filling fair.selling positive askRoom betterAsks
  balanced := by
    rw [bidGrows.sum, askGrows.sum, fair.balanced]
  crossing := by
    have open_ : ∀ {item : α}, filled item + amount ≤ capacity item →
        filled item ≠ capacity item := by
      intro item room full
      rw [full] at room
      exact absurd room (not_le.mpr (lt_add_of_pos_right _ positive))
    have aboveBid : ∀ other ∈ bids, 0 < after other →
        price bid ≤ price other := by
      intro other member filledOther
      by_cases same : other = bid
      · rw [same]
      · rw [bidGrows.others other member same] at filledOther
        by_contra below
        exact open_ bidRoom (fair.buying.prioritized bid bidGrows.mem
          other member (not_le.mp below) filledOther)
    have belowAsk : ∀ other ∈ asks, 0 < after other →
        price other ≤ price ask := by
      intro other member filledOther
      by_cases same : other = ask
      · rw [same]
      · rw [askGrows.others other member same] at filledOther
        by_contra above
        exact open_ askRoom (fair.selling.prioritized ask askGrows.mem
          other member (not_le.mp above) filledOther)
    intro first firstMember second secondMember filledFirst filledSecond
    exact (belowAsk second secondMember filledSecond).trans
      (crosses.trans (aboveBid first firstMember filledFirst))

/-! ### The greatest volume -/

/-- No price clears more than a fair and exhausted filling. -/
theorem volumeAt_le (fair : Fair price capacity filled bids asks)
    (exhausted : Exhausted price capacity filled bids asks) (value : P) :
    volumeAt price capacity bids asks value ≤ (bids.map filled).sum := by
  have full : ∀ {items : List α} {keep : α → Bool},
      (∀ item ∈ items, 0 ≤ filled item) →
      (∀ item ∈ items, keep item = true → capacity item ≤ filled item) →
        totalOf capacity keep items ≤ (items.map filled).sum := by
    intro items keep nonnegative covered
    have part : totalOf filled keep items ≤ (items.map filled).sum :=
      totalOf_le_sum nonnegative
    refine le_trans ?_ part
    apply List.sum_le_sum
    intro item member
    rcases List.mem_filter.mp member with ⟨inItems, kept⟩
    exact covered item inItems kept
  by_cases open_ : ∃ ask ∈ asks,
      price ask ≤ value ∧ filled ask < capacity ask
  · rcases open_ with ⟨ask, member, cheap, remains⟩
    refine (min_le_left _ _).trans (full fair.buying.nonnegative ?_)
    intro bid bidMember within
    by_contra notFull
    have apart := exhausted bid bidMember ask member (not_le.mp notFull)
      remains
    exact absurd (cheap.trans (of_decide_eq_true within))
      (not_le.mpr apart)
  · rw [fair.balanced]
    refine (min_le_right _ _).trans (full fair.selling.nonnegative ?_)
    intro ask member within
    by_contra notFull
    exact open_ ⟨ask, member, of_decide_eq_true within,
      not_le.mp notFull⟩

/-- Some ask has a price which clears all that has been filled. -/
theorem exists_volumeAt (fair : Fair price capacity filled bids asks)
    (volume : 0 < (bids.map filled).sum) :
    ∃ bid ∈ bids, ∃ ask ∈ asks, price ask ≤ price bid ∧
      (bids.map filled).sum ≤
        volumeAt price capacity bids asks (price ask) := by
  have some_ : ∀ {items : List α}, 0 < (items.map filled).sum →
      (∀ item ∈ items, 0 ≤ filled item) →
        ∃ item ∈ items, 0 < filled item := by
    intro items positive nonnegative
    by_contra none
    have zero : (items.map filled).sum = 0 := by
      apply List.sum_eq_zero
      intro value member
      rcases List.mem_map.mp member with ⟨item, inItems, rfl⟩
      refine le_antisymm ?_ (nonnegative item inItems)
      exact not_lt.mp fun filledItem => none ⟨item, inItems, filledItem⟩
    exact absurd positive (not_lt.mpr zero.le)
  have zeroOf : ∀ {items : List α} {keep : α → Bool},
      (∀ item ∈ items, 0 ≤ filled item) →
      (∀ item ∈ items, 0 < filled item → keep item = true) →
      (∀ item ∈ items, filled item ≤ capacity item) →
        (items.map filled).sum ≤ totalOf capacity keep items := by
    intro items keep nonnegative kept bounded
    have none : ∀ item ∈ items, keep item = false → filled item = 0 := by
      intro item member outside
      by_contra filledItem
      have inside := kept item member
        (lt_of_le_of_ne (nonnegative item member) (Ne.symm filledItem))
      rw [outside] at inside
      cases inside
    rw [← totalOf_eq_sum none]
    exact totalOf_mono bounded
  rcases some_ volume fair.buying.nonnegative with ⟨bid, bidMember, filledBid⟩
  have sold : 0 < (asks.map filled).sum := fair.balanced ▸ volume
  rcases some_ sold fair.selling.nonnegative with
    ⟨first, firstMember, filledFirst⟩
  have inFilter : first ∈ asks.filter fun ask => 0 < filled ask :=
    List.mem_filter.mpr ⟨firstMember, decide_eq_true filledFirst⟩
  cases last : List.argmax price (asks.filter fun ask => 0 < filled ask)
    with
  | none =>
      rw [List.argmax_eq_none] at last
      rw [last] at inFilter
      cases inFilter
  | some ask =>
      have isLast : ∀ other ∈ asks, 0 < filled other →
          price other ≤ price ask := by
        intro other member filledOther
        exact List.le_of_mem_argmax
          (List.mem_filter.mpr ⟨member, decide_eq_true filledOther⟩) last
      rcases List.mem_filter.mp (List.argmax_mem last) with
        ⟨askMember, filledAsk⟩
      have crosses : ∀ other ∈ bids, 0 < filled other →
          price ask ≤ price other :=
        fun other member filledOther =>
          fair.crossing other member ask askMember filledOther
            (of_decide_eq_true filledAsk)
      refine ⟨bid, bidMember, ask, askMember,
        crosses bid bidMember filledBid, le_min ?_ ?_⟩
      · exact zeroOf fair.buying.nonnegative
          (fun other member filledOther =>
            decide_eq_true (crosses other member filledOther))
          fair.buying.bounded
      · rw [fair.balanced]
        exact zeroOf fair.selling.nonnegative
          (fun other member filledOther =>
            decide_eq_true (isLast other member filledOther))
          fair.selling.bounded

end TwoSides

/-! ### How far the fills reach -/

section Reach

variable {price : α → P} {capacity filled : α → K} {bids asks : List α}
  {bid ask : α} {limit : P}

/-- Something is filled beyond the part which is kept. -/
theorem totalOf_lt_sum {keep : α → Bool} {items : List α} {item : α}
    (nonnegative : ∀ item ∈ items, 0 ≤ filled item)
    (member : item ∈ items) (beyond : ¬ keep item = true)
    (positive : 0 < filled item) :
    totalOf filled keep items < (items.map filled).sum := by
  rcases List.append_of_mem member with ⟨front, back, rfl⟩
  have part : ∀ others : List α,
      (∀ other ∈ others, other ∈ front ++ item :: back) →
        totalOf filled keep others ≤ (others.map filled).sum :=
    fun others inside => totalOf_le_sum fun other otherMember =>
      nonnegative other (inside other otherMember)
  have ofFront := part front fun _ => List.mem_append_left _
  have ofBack := part back fun _ inBack =>
    List.mem_append_right _ (List.mem_cons_of_mem _ inBack)
  rw [totalOf_append, totalOf_cons, if_neg beyond, zero_add,
    List.map_append, List.sum_append, List.map_cons, List.sum_cons]
  exact add_lt_add_of_le_of_lt ofFront
    (ofBack.trans_lt (lt_add_of_pos_left _ positive))

/-- A filled ask has been filled by some bid. -/
theorem Fair.exists_served (fair : Fair price capacity filled bids asks)
    (member : ask ∈ asks) (served : 0 < filled ask) :
    ∃ bid ∈ bids, 0 < filled bid := by
  have some_ : (bids.map fun _ => (0 : K)).sum < (bids.map filled).sum := by
    calc
      (bids.map fun _ => (0 : K)).sum = 0 := List.sum_map_zero
      _ ≤ totalOf filled (fun _ => false) asks :=
        (totalOf_none fun _ _ => Bool.false_ne_true).ge
      _ < (asks.map filled).sum :=
        totalOf_lt_sum fair.selling.nonnegative member
          Bool.false_ne_true served
      _ = (bids.map filled).sum := fair.balanced.symm
  exact List.exists_lt_of_sum_lt _ _ some_

/-- A filled ask is wanted by more than the asks before it can give. -/
theorem Fair.supplyAt_lt_demandAt
    (fair : Fair price capacity filled bids asks) (member : ask ∈ asks)
    (beyond : limit < price ask) (served : 0 < filled ask) :
    supplyAt price capacity asks limit <
      demandAt price capacity bids (price ask) := by
  have full : supplyAt price capacity asks limit =
      totalOf filled (fun other => price other ≤ limit) asks := by
    rw [supplyAt, totalOf, totalOf]
    congr 1
    apply List.map_congr_left
    intro other inFilter
    rcases List.mem_filter.mp inFilter with ⟨otherMember, within⟩
    exact (fair.selling.prioritized other otherMember ask member
      ((of_decide_eq_true within).trans_lt beyond) served).symm
  have taken : (bids.map filled).sum ≤
      demandAt price capacity bids (price ask) := by
    have unwilling : ∀ other ∈ bids,
        decide (price ask ≤ price other) = false → filled other = 0 := by
      intro other otherMember outside
      apply le_antisymm _ (fair.buying.nonnegative other otherMember)
      by_contra positive
      have crosses := fair.crossing other otherMember ask member
        (not_le.mp positive) served
      exact of_decide_eq_false outside crosses
    rw [← totalOf_eq_sum unwilling]
    exact totalOf_mono fair.buying.bounded
  calc
    supplyAt price capacity asks limit < (asks.map filled).sum := by
      rw [full]
      exact totalOf_lt_sum fair.selling.nonnegative member
        (fun within => (of_decide_eq_true within).not_gt beyond) served
    _ = (bids.map filled).sum := fair.balanced.symm
    _ ≤ demandAt price capacity bids (price ask) := taken

/-- Where more is wanted than the asks before can give, others are filled. -/
theorem Fair.exists_filled_ask
    (fair : Fair price capacity filled bids asks)
    (exhausted : Exhausted price capacity filled bids asks)
    (member : ask ∈ asks) (positive : 0 < capacity ask)
    (beyond : limit < price ask)
    (more : supplyAt price capacity asks limit <
      demandAt price capacity bids (price ask)) :
    ∃ other ∈ asks, limit < price other ∧ 0 < filled other := by
  by_contra none
  have nothing : ∀ other ∈ asks,
      decide (price other ≤ limit) = false → filled other = 0 := by
    intro other otherMember outside
    have worse := not_le.mp (of_decide_eq_false outside)
    apply le_antisymm _ (fair.selling.nonnegative other otherMember)
    exact not_lt.mp fun served => none ⟨other, otherMember, worse, served⟩
  have sold : (bids.map filled).sum ≤
      supplyAt price capacity asks limit := by
    rw [fair.balanced, ← totalOf_eq_sum nothing]
    exact totalOf_mono fair.selling.bounded
  have some_ : ∃ bid ∈ bids, price ask ≤ price bid ∧
      filled bid < capacity bid := by
    by_contra allFull
    have covered : demandAt price capacity bids (price ask) ≤
        totalOf filled (fun bid => price ask ≤ price bid) bids := by
      apply List.sum_le_sum
      intro bid inFilter
      rcases List.mem_filter.mp inFilter with ⟨bidMember, within⟩
      exact not_lt.mp fun room =>
        allFull ⟨bid, bidMember, of_decide_eq_true within, room⟩
    exact absurd (covered.trans
      ((totalOf_le_sum fair.buying.nonnegative).trans sold))
      (not_le.mpr more)
  rcases some_ with ⟨bid, bidMember, willing, room⟩
  have apart := exhausted bid bidMember ask member room
    (by
      rw [nothing ask member (decide_eq_false (not_le.mpr beyond))]
      exact positive)
  exact absurd willing (not_le.mpr apart)

/-- An ask with room: who wants its price has been served before it. -/
theorem Fair.demandAt_le (fair : Fair price capacity filled bids asks)
    (exhausted : Exhausted price capacity filled bids asks)
    (member : ask ∈ asks) (room : filled ask < capacity ask) :
    demandAt price capacity bids (price ask) ≤
      totalOf filled (fun other => price other ≤ price ask) asks := by
  have covered : demandAt price capacity bids (price ask) ≤
      totalOf filled (fun bid => price ask ≤ price bid) bids := by
    apply List.sum_le_sum
    intro bid inFilter
    rcases List.mem_filter.mp inFilter with ⟨bidMember, within⟩
    by_contra open_
    have apart := exhausted bid bidMember ask member (not_le.mp open_) room
    exact absurd (of_decide_eq_true within) (not_le.mpr apart)
  have nothing : ∀ other ∈ asks,
      decide (price other ≤ price ask) = false → filled other = 0 := by
    intro other otherMember outside
    have worse := not_le.mp (of_decide_eq_false outside)
    apply le_antisymm _ (fair.selling.nonnegative other otherMember)
    by_contra positive
    exact room.ne (fair.selling.prioritized ask member other otherMember
      worse (not_le.mp positive))
  calc
    demandAt price capacity bids (price ask) ≤
        totalOf filled (fun bid => price ask ≤ price bid) bids := covered
    _ ≤ (bids.map filled).sum := totalOf_le_sum fair.buying.nonnegative
    _ = (asks.map filled).sum := fair.balanced
    _ = totalOf filled (fun other => price other ≤ price ask) asks :=
      (totalOf_eq_sum nothing).symm

/-- Some ask of a price has room when more is given than is wanted. -/
theorem Fair.exists_room (fair : Fair price capacity filled bids asks)
    (member : ask ∈ asks) (positive : 0 < capacity ask)
    (more : demandAt price capacity bids (price ask) <
      supplyAt price capacity asks (price ask)) :
    ∃ other ∈ asks, price other = price ask ∧
      filled other < capacity other := by
  by_contra none
  have full : ∀ other ∈ asks, price other = price ask →
      capacity other ≤ filled other := fun other otherMember same =>
    not_lt.mp fun room => none ⟨other, otherMember, same, room⟩
  have served : 0 < filled ask := positive.trans_le (full ask member rfl)
  have given : supplyAt price capacity asks (price ask) ≤
      totalOf filled (fun other => price other ≤ price ask) asks := by
    apply List.sum_le_sum
    intro other inFilter
    rcases List.mem_filter.mp inFilter with ⟨otherMember, within⟩
    rcases (of_decide_eq_true within).lt_or_eq with better | same
    · exact (fair.selling.prioritized other otherMember ask member better
        served).ge
    · exact full other otherMember same
  have nothing : ∀ bid ∈ bids,
      decide (price ask ≤ price bid) = false → filled bid = 0 := by
    intro bid bidMember outside
    apply le_antisymm _ (fair.buying.nonnegative bid bidMember)
    by_contra taken
    exact of_decide_eq_false outside
      (fair.crossing bid bidMember ask member (not_le.mp taken) served)
  apply absurd more (not_lt.mpr _)
  calc
    supplyAt price capacity asks (price ask) ≤
        totalOf filled (fun other => price other ≤ price ask) asks := given
    _ ≤ (asks.map filled).sum := totalOf_le_sum fair.selling.nonnegative
    _ = (bids.map filled).sum := fair.balanced.symm
    _ = totalOf filled (fun bid => price ask ≤ price bid) bids :=
      (totalOf_eq_sum nothing).symm
    _ ≤ demandAt price capacity bids (price ask) :=
      totalOf_mono fair.buying.bounded

/-- Some ask of a price is left exactly when more is given than wanted. -/
theorem Fair.room_iff (fair : Fair price capacity filled bids asks)
    (exhausted : Exhausted price capacity filled bids asks)
    (member : ask ∈ asks) (positive : 0 < capacity ask) :
    (∃ other ∈ asks, price other = price ask ∧
        filled other < capacity other) ↔
      demandAt price capacity bids (price ask) <
        supplyAt price capacity asks (price ask) := by
  constructor
  · rintro ⟨other, otherMember, same, room⟩
    have served := fair.demandAt_le exhausted otherMember room
    rw [same] at served
    apply served.trans_lt
    exact totalOf_lt_totalOf fair.selling.bounded
      ⟨other, otherMember, decide_eq_true same.le, room⟩
  · exact fair.exists_room member positive

/-! The same, with the two sides exchanged. -/

omit [IsOrderedAddMonoid K] in
theorem Fair.dual (fair : Fair price capacity filled bids asks) :
    Fair (bidRank price) capacity filled asks bids where
  buying := ⟨fair.selling.nonnegative, fair.selling.bounded,
    fair.selling.prioritized⟩
  selling := fair.buying
  balanced := fair.balanced.symm
  crossing := fun ask askMember bid bidMember servedAsk servedBid =>
    OrderDual.toDual_le_toDual.mpr
      (fair.crossing bid bidMember ask askMember servedBid servedAsk)

omit [AddCommGroup K] [IsOrderedAddMonoid K] in
theorem Exhausted.dual
    (exhausted : Exhausted price capacity filled bids asks) :
    Exhausted (bidRank price) capacity filled asks bids :=
  fun ask askMember bid bidMember roomAsk roomBid =>
    OrderDual.toDual_lt_toDual.mpr
      (exhausted bid bidMember ask askMember roomBid roomAsk)

/-- A filled bid is served by more than the bids before it can take. -/
theorem Fair.demandAt_lt_supplyAt
    (fair : Fair price capacity filled bids asks) (member : bid ∈ bids)
    (beyond : price bid < limit) (served : 0 < filled bid) :
    demandAt price capacity bids limit <
      supplyAt price capacity asks (price bid) := by
  have seen :
      supplyAt (bidRank price) capacity bids (OrderDual.toDual limit) <
        demandAt (bidRank price) capacity asks (bidRank price bid) :=
    fair.dual.supplyAt_lt_demandAt member
      (OrderDual.toDual_lt_toDual.mpr beyond) served
  exact seen

/-- Where more is sold than the bids before can take, others are filled. -/
theorem Fair.exists_filled_bid
    (fair : Fair price capacity filled bids asks)
    (exhausted : Exhausted price capacity filled bids asks)
    (member : bid ∈ bids) (positive : 0 < capacity bid)
    (beyond : price bid < limit)
    (more : demandAt price capacity bids limit <
      supplyAt price capacity asks (price bid)) :
    ∃ other ∈ bids, price other < limit ∧ 0 < filled other := by
  have seen : ∃ other ∈ bids,
      OrderDual.toDual limit < bidRank price other ∧ 0 < filled other :=
    fair.dual.exists_filled_ask exhausted.dual member positive
      (OrderDual.toDual_lt_toDual.mpr beyond) more
  exact seen

/-- Some bid of a price is left exactly when more is wanted than given. -/
theorem Fair.bid_room_iff (fair : Fair price capacity filled bids asks)
    (exhausted : Exhausted price capacity filled bids asks)
    (member : bid ∈ bids) (positive : 0 < capacity bid) :
    (∃ other ∈ bids, price other = price bid ∧
        filled other < capacity other) ↔
      supplyAt price capacity asks (price bid) <
        demandAt price capacity bids (price bid) :=
  fair.dual.room_iff exhausted.dual member positive

end Reach

/-! ### What is left -/

section Left

variable {price : α → P} {capacity filled : α → K} {bids asks : List α}
  {values : List K} {value bound : K}

/-- The greatest of some values, which is never negative. -/
def greatest (values : List K) : K :=
  values.foldr max 0

omit [IsOrderedAddMonoid K] in
theorem greatest_nonneg : 0 ≤ greatest values := by
  induction values with
  | nil => exact le_rfl
  | cons value rest induction => exact induction.trans (le_max_right _ _)

omit [IsOrderedAddMonoid K] in
theorem le_greatest (member : value ∈ values) : value ≤ greatest values := by
  induction values with
  | nil => cases member
  | cons first rest induction =>
      rcases List.mem_cons.mp member with rfl | inRest
      · exact le_max_left _ _
      · exact (induction inRest).trans (le_max_right _ _)

omit [IsOrderedAddMonoid K] in
theorem greatest_le (nonnegative : 0 ≤ bound)
    (bounded : ∀ value ∈ values, value ≤ bound) :
    greatest values ≤ bound := by
  induction values with
  | nil => exact nonnegative
  | cons first rest induction =>
      exact max_le (bounded first List.mem_cons_self)
        (induction fun value member =>
          bounded value (List.mem_cons_of_mem _ member))

/-- The greatest volume which one of these prices clears. -/
def greatestVolume (demand supply : P → K) (prices : List P) : K :=
  greatest (prices.map fun value => min (demand value) (supply value))

omit [LinearOrder P] [IsOrderedAddMonoid K] in
/-- The prices count, not their order. -/
theorem greatestVolume_eq_of_mem {demand supply : P → K}
    {prices others : List P}
    (same : ∀ value, value ∈ prices ↔ value ∈ others) :
    greatestVolume demand supply prices =
      greatestVolume demand supply others := by
  have less : ∀ {some_ more : List P}, (∀ value ∈ some_, value ∈ more) →
      greatestVolume demand supply some_ ≤
        greatestVolume demand supply more := by
    intro some_ more wider
    apply greatest_le greatest_nonneg
    intro volume member
    rcases List.mem_map.mp member with ⟨value, inSome, rfl⟩
    exact le_greatest (List.mem_map_of_mem (wider value inSome))
  exact (less fun value => (same value).mp).antisymm
    (less fun value => (same value).mpr)

/-- A fair and exhausted filling has the greatest volume. -/
theorem Fair.sum_eq_greatestVolume
    (fair : Fair price capacity filled bids asks)
    (exhausted : Exhausted price capacity filled bids asks) :
    (bids.map filled).sum =
      greatestVolume (demandAt price capacity bids)
        (supplyAt price capacity asks) (asks.map price) := by
  have nonnegative : 0 ≤ (bids.map filled).sum := by
    apply List.sum_nonneg
    intro value member
    rcases List.mem_map.mp member with ⟨bid, inBids, rfl⟩
    exact fair.buying.nonnegative bid inBids
  apply le_antisymm
  · rcases nonnegative.lt_or_eq with positive | zero
    · rcases exists_volumeAt fair positive with
        ⟨_, _, ask, member, _, cleared⟩
      refine cleared.trans (le_greatest ?_)
      exact List.mem_map.mpr
        ⟨price ask, List.mem_map_of_mem member, rfl⟩
    · rw [← zero]
      exact greatest_nonneg
  · apply greatest_le nonnegative
    intro value member
    rcases List.mem_map.mp member with ⟨limit, _, rfl⟩
    exact volumeAt_le fair exhausted limit

/-- What a front has left. -/
theorem Filling.left_front {rank : α → P} {items : List α}
    (filling : Filling rank capacity filled items) {front : P → Bool}
    (isFront : IsFront front) :
    totalOf (fun item => capacity item - filled item)
        (fun item => front (rank item)) items =
      max 0 (totalOf capacity (fun item => front (rank item)) items -
        (items.map filled).sum) := by
  rw [totalOf_sub, filling.total_front isFront]
  rcases le_total (items.map filled).sum
    (totalOf capacity (fun item => front (rank item)) items) with
    less | more
  · rw [min_eq_left less, max_eq_right (sub_nonneg.mpr less)]
  · rw [min_eq_right more, sub_self, max_eq_left (sub_nonpos.mpr more)]

/-- What is still wanted at a price. -/
theorem Fair.left_demand (fair : Fair price capacity filled bids asks)
    (limit : P) :
    demandAt price (fun bid => capacity bid - filled bid) bids limit =
      max 0 (demandAt price capacity bids limit -
        (bids.map filled).sum) :=
  fair.buying.left_front (isFront_le (OrderDual.toDual limit))

/-- What is still given at a price. -/
theorem Fair.left_supply (fair : Fair price capacity filled bids asks)
    (limit : P) :
    supplyAt price (fun ask => capacity ask - filled ask) asks limit =
      max 0 (supplyAt price capacity asks limit -
        (bids.map filled).sum) := by
  rw [fair.balanced]
  exact fair.selling.left_front (isFront_le limit)

end Left

/-! ### Two clearings -/

section Determined

variable {price : α → P} {capacity filled : α → K} {bids asks : List α}
  {otherPrice : β → P} {otherCapacity otherFilled : β → K}
  {otherBids otherAsks : List β}

omit [IsOrderedAddMonoid K] in
/-- The volume which a price clears depends on the fronts alone. -/
theorem volumeAt_congr
    (buying : SameFronts (bidRank price) capacity bids
      (bidRank otherPrice) otherCapacity otherBids)
    (selling : SameFronts price capacity asks otherPrice otherCapacity
      otherAsks)
    (value : P) :
    volumeAt price capacity bids asks value =
      volumeAt otherPrice otherCapacity otherBids otherAsks value := by
  have demand : demandAt price capacity bids value =
      demandAt otherPrice otherCapacity otherBids value :=
    buying _ (isFront_le (OrderDual.toDual value))
  have supply : supplyAt price capacity asks value =
      supplyAt otherPrice otherCapacity otherAsks value :=
    selling _ (isFront_le value)
  rw [volumeAt, volumeAt, demand, supply]

/-- One clearing has no more volume than another one. -/
theorem volume_le
    (buying : SameFronts (bidRank price) capacity bids
      (bidRank otherPrice) otherCapacity otherBids)
    (selling : SameFronts price capacity asks otherPrice otherCapacity
      otherAsks)
    (fair : Fair price capacity filled bids asks)
    (otherFair : Fair otherPrice otherCapacity otherFilled otherBids
      otherAsks)
    (otherExhausted : Exhausted otherPrice otherCapacity otherFilled
      otherBids otherAsks) :
    (bids.map filled).sum ≤ (otherBids.map otherFilled).sum := by
  by_cases volume : 0 < (bids.map filled).sum
  · rcases exists_volumeAt fair volume with ⟨_, _, ask, _, _, clears⟩
    rw [volumeAt_congr buying selling] at clears
    exact clears.trans (volumeAt_le otherFair otherExhausted _)
  · refine (not_lt.mp volume).trans (List.sum_nonneg ?_)
    intro value member
    rcases List.mem_map.mp member with ⟨item, inItems, rfl⟩
    exact otherFair.buying.nonnegative item inItems

omit [LinearOrder K] [IsOrderedAddMonoid K] in
theorem SameFronts.symm {rank : α → P} {amount : α → K} {items : List α}
    {otherRank : β → P} {other : β → K} {others : List β}
    (same : SameFronts rank amount items otherRank other others) :
    SameFronts otherRank other others rank amount items :=
  fun front isFront => (same front isFront).symm

/--
Two fair and exhausted fillings of sides with the same capacities fill every
front alike, whatever the ties.
-/
theorem Fair.determined
    (fair : Fair price capacity filled bids asks)
    (exhausted : Exhausted price capacity filled bids asks)
    (otherFair : Fair otherPrice otherCapacity otherFilled otherBids
      otherAsks)
    (otherExhausted : Exhausted otherPrice otherCapacity otherFilled
      otherBids otherAsks)
    (buying : SameFronts (bidRank price) capacity bids
      (bidRank otherPrice) otherCapacity otherBids)
    (selling : SameFronts price capacity asks otherPrice otherCapacity
      otherAsks) :
    SameFronts (bidRank price) filled bids (bidRank otherPrice)
        otherFilled otherBids ∧
      SameFronts price filled asks otherPrice otherFilled otherAsks := by
  have volumes : (bids.map filled).sum =
      (otherBids.map otherFilled).sum :=
    le_antisymm
      (volume_le buying selling fair otherFair otherExhausted)
      (volume_le buying.symm selling.symm otherFair fair exhausted)
  refine ⟨.of_filling fair.buying otherFair.buying buying volumes,
    .of_filling fair.selling otherFair.selling selling ?_⟩
  rw [← fair.balanced, ← otherFair.balanced]
  exact volumes

end Determined

end Clearing
