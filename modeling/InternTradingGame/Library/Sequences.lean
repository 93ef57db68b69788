import Mathlib.Data.List.Pairwise
import Mathlib.Data.List.InsertIdx
import Mathlib.Order.Defs.LinearOrder
import Mathlib.Tactic.Linarith

/-!
# Operations of a mutable sequence

A list stands for a mutable sequence.  This module collects the operations
whose specification is a decomposition of the sequence: the leftmost
insertion point found by binary search, insertion at that point, and the
in-place update of the first element with a property.
-/

namespace Sequences

universe u

/-! ## Updating the first match -/

section UpdateFirst

variable {α : Type u} (found : α → Prop) [DecidablePred found]

/-- Update in place the first element with the property, if there is one. -/
def updateFirst (change : α → α) : List α → Option (List α)
  | [] => none
  | element :: rest =>
      if found element then
        some (change element :: rest)
      else
        (updateFirst change rest).map (element :: ·)

theorem updateFirst_eq_none_iff (change : α → α) (elements : List α) :
    updateFirst found change elements = none ↔
      ∀ element ∈ elements, ¬ found element := by
  induction elements with
  | nil => simp [updateFirst]
  | cons element rest induction =>
      by_cases match? : found element
      · simp [updateFirst, match?]
      · simp [updateFirst, match?, induction]

theorem updateFirst_append
    (change : α → α) {before : List α} {element : α} {after : List α}
    (missed : ∀ earlier ∈ before, ¬ found earlier)
    (matched : found element) :
    updateFirst found change (before ++ element :: after) =
      some (before ++ change element :: after) := by
  induction before with
  | nil => simp [updateFirst, matched]
  | cons head rest induction =>
      have headMissed : ¬ found head :=
        missed head List.mem_cons_self
      have restMissed : ∀ earlier ∈ rest, ¬ found earlier :=
        fun earlier member => missed earlier (List.mem_cons_of_mem _ member)
      simp [updateFirst, headMissed, induction restMissed]

/-- The first match splits the sequence. -/
theorem exists_first_match
    (elements : List α) (some? : ∃ element ∈ elements, found element) :
    ∃ before element after,
      elements = before ++ element :: after ∧
        (∀ earlier ∈ before, ¬ found earlier) ∧ found element := by
  induction elements with
  | nil => simp at some?
  | cons head rest induction =>
      by_cases matched : found head
      · exact ⟨[], head, rest, rfl, by simp, matched⟩
      · have later : ∃ element ∈ rest, found element := by
          rcases some? with ⟨element, member, holds⟩
          rcases List.mem_cons.mp member with rfl | inRest
          · exact absurd holds matched
          · exact ⟨element, inRest, holds⟩
        rcases induction later with
          ⟨before, element, after, rfl, missed, holds⟩
        refine ⟨head :: before, element, after, rfl, ?_, holds⟩
        intro earlier member
        rcases List.mem_cons.mp member with rfl | inBefore
        · exact matched
        · exact missed earlier inBefore

/-- Every element of the result is an old one or the changed one. -/
theorem mem_updateFirst {change : α → α} {elements updated : List α}
    (updates : updateFirst found change elements = some updated)
    {element : α} (member : element ∈ updated) :
    element ∈ elements ∨
      ∃ old ∈ elements, found old ∧ element = change old := by
  induction elements generalizing updated with
  | nil => cases updates
  | cons head rest induction =>
      rw [updateFirst] at updates
      by_cases matched : found head
      · rw [if_pos matched] at updates
        rcases Option.some.inj updates with rfl
        rcases List.mem_cons.mp member with rfl | inRest
        · exact Or.inr ⟨head, List.mem_cons_self, matched, rfl⟩
        · exact Or.inl (List.mem_cons_of_mem _ inRest)
      · rw [if_neg matched] at updates
        rcases Option.map_eq_some_iff.mp updates with ⟨tail, tailUpdates, rfl⟩
        rcases List.mem_cons.mp member with rfl | inTail
        · exact Or.inl List.mem_cons_self
        · rcases induction tailUpdates inTail with
            inRest | ⟨old, inRest, holds, equal⟩
          · exact Or.inl (List.mem_cons_of_mem _ inRest)
          · exact Or.inr
              ⟨old, List.mem_cons_of_mem _ inRest, holds, equal⟩

end UpdateFirst

/-! ## Insertion at an index -/

theorem insertIdx_eq_take_append_drop
    {α : Type u} (elements : List α) (element : α) {index : Nat}
    (bounded : index ≤ elements.length) :
    elements.insertIdx index element =
      elements.take index ++ element :: elements.drop index := by
  induction elements generalizing index with
  | nil =>
      have zero : index = 0 := by simpa using bounded
      subst zero
      rfl
  | cons head rest induction =>
      cases index with
      | zero => rfl
      | succ index =>
          have restBounded : index ≤ rest.length := by
            simpa using bounded
          simp [List.insertIdx_succ_cons, induction restBounded]

/-! ## Binary search -/

section Bisect

variable {α : Type u} [LinearOrder α]

/--
The loop of `bisect.bisect_left`, between `low` and `high`.  The first
argument bounds the number of halvings.
-/
def bisectLoop (elements : List α) (target : α) :
    Nat → Nat → Nat → Nat
  | 0, low, _ => low
  | halvings + 1, low, high =>
      if low < high then
        let middle := (low + high) / 2
        match elements[middle]? with
        | none => low
        | some element =>
            if element < target then
              bisectLoop elements target halvings (middle + 1) high
            else
              bisectLoop elements target halvings low middle
      else
        low

/-- `bisect.bisect_left`. -/
def bisectLeft (elements : List α) (target : α) : Nat :=
  bisectLoop elements target elements.length 0 elements.length

/-- What a search between `low` and `high` may still assume. -/
structure Bracket (elements : List α) (target : α)
    (low high : Nat) : Prop where
  ordered : low ≤ high
  bounded : high ≤ elements.length
  below : ∀ index (inside : index < elements.length),
    index < low → elements[index] < target
  above : ∀ index (inside : index < elements.length),
    high ≤ index → ¬ elements[index] < target

theorem bisectLoop_bracket
    {elements : List α} {target : α}
    (sorted : elements.Pairwise (· ≤ ·))
    (halvings low high : Nat)
    (bracket : Bracket elements target low high)
    (enough : high - low ≤ halvings) :
    Bracket elements target
      (bisectLoop elements target halvings low high)
      (bisectLoop elements target halvings low high) := by
  have monotone : ∀ (first second : Nat)
      (firstInside : first < elements.length)
      (secondInside : second < elements.length),
      first ≤ second → elements[first] ≤ elements[second] := by
    intro first second firstInside secondInside le
    rcases Nat.lt_or_eq_of_le le with lt | rfl
    · exact List.pairwise_iff_getElem.mp sorted
        first second firstInside secondInside lt
    · exact le_refl _
  induction halvings generalizing low high with
  | zero =>
      have equal : low = high := by
        have := bracket.ordered
        omega
      subst equal
      exact bracket
  | succ halvings induction =>
      rw [bisectLoop]
      by_cases proper : low < high
      · rw [if_pos proper]
        have middleLow : low ≤ (low + high) / 2 := by omega
        have middleHigh : (low + high) / 2 < high := by omega
        have middleInside : (low + high) / 2 < elements.length :=
          Nat.lt_of_lt_of_le middleHigh bracket.bounded
        simp only [List.getElem?_eq_getElem middleInside]
        by_cases smaller : elements[(low + high) / 2] < target
        · rw [if_pos smaller]
          refine induction _ _ ⟨by omega, bracket.bounded, ?_,
            bracket.above⟩ (by omega)
          intro index inside before
          exact lt_of_le_of_lt
            (monotone index _ inside middleInside (by omega)) smaller
        · rw [if_neg smaller]
          refine induction _ _ ⟨middleLow, by omega, bracket.below,
            ?_⟩ (by omega)
          intro index inside after reached
          exact smaller
            (lt_of_le_of_lt
              (monotone _ index middleInside inside after) reached)
      · rw [if_neg proper]
        have equal : low = high := by
          have := bracket.ordered
          omega
        subst equal
        exact bracket

theorem bisectLeft_bracket
    {elements : List α} (sorted : elements.Pairwise (· ≤ ·))
    (target : α) :
    Bracket elements target
      (bisectLeft elements target) (bisectLeft elements target) := by
  refine bisectLoop_bracket sorted _ _ _
    ⟨Nat.zero_le _, le_refl _, ?_, ?_⟩ (by omega)
  · intro index _ negative
    exact absurd negative (Nat.not_lt_zero index)
  · intro index inside outside
    omega

theorem bisectLeft_le_length
    {elements : List α} (sorted : elements.Pairwise (· ≤ ·))
    (target : α) :
    bisectLeft elements target ≤ elements.length :=
  (bisectLeft_bracket sorted target).bounded

/-- Everything before the insertion point is smaller than the target. -/
theorem lt_of_mem_take_bisectLeft
    {elements : List α} (sorted : elements.Pairwise (· ≤ ·))
    {target element : α}
    (member : element ∈ elements.take (bisectLeft elements target)) :
    element < target := by
  rcases List.mem_iff_getElem.mp member with ⟨index, inside, rfl⟩
  rw [List.getElem_take]
  rw [List.length_take] at inside
  exact (bisectLeft_bracket sorted target).below index
    (by omega) (by omega)

/-- Nothing from the insertion point on is smaller than the target. -/
theorem not_lt_of_mem_drop_bisectLeft
    {elements : List α} (sorted : elements.Pairwise (· ≤ ·))
    {target element : α}
    (member : element ∈ elements.drop (bisectLeft elements target)) :
    ¬ element < target := by
  rcases List.mem_iff_getElem.mp member with ⟨index, inside, rfl⟩
  rw [List.getElem_drop]
  rw [List.length_drop] at inside
  exact (bisectLeft_bracket sorted target).above _
    (by omega) (by omega)

end Bisect

/-! ## Loops which treat every element on its own -/

section Pointwise

variable {σ ι ε : Type*}

/--
A loop over distinct keys whose round for one key changes the part of the
state kept under that key, and no other part.
-/
theorem foldl_pointwise [DecidableEq ι]
    (read : σ → ι → ε)
    (round : σ → ι → σ)
    (change : ι → ε → ε)
    (invariant : σ → Prop)
    {keys : List ι}
    (preserved : ∀ state, ∀ key ∈ keys, invariant state →
      invariant (round state key))
    (own : ∀ state, ∀ key ∈ keys, invariant state →
      read (round state key) key = change key (read state key))
    (frame : ∀ state, ∀ key ∈ keys, ∀ other, invariant state →
      other ≠ key → read (round state key) other = read state other)
    (distinct : keys.Nodup)
    {state : σ}
    (initial : invariant state)
    (key : ι) :
    read (keys.foldl round state) key =
      if key ∈ keys then change key (read state key)
      else read state key := by
  induction keys generalizing state with
  | nil => simp
  | cons first rest induction =>
      rcases List.nodup_cons.mp distinct with ⟨outside, distinctRest⟩
      have here : first ∈ first :: rest := List.mem_cons_self
      have later :=
        induction
          (fun state key member =>
            preserved state key (List.mem_cons_of_mem first member))
          (fun state key member =>
            own state key (List.mem_cons_of_mem first member))
          (fun state key member =>
            frame state key (List.mem_cons_of_mem first member))
          distinctRest (preserved state first here initial)
      rw [List.foldl_cons, later]
      by_cases same : key = first
      · subst same
        rw [if_neg outside, if_pos here]
        exact own state key here initial
      · rw [frame state first here key initial same]
        simp [same]

/-- An invariant of the rounds of a loop is an invariant of the loop. -/
theorem foldl_invariant
    (round : σ → ι → σ)
    (invariant : σ → Prop)
    (keys : List ι)
    (preserved : ∀ state, ∀ key ∈ keys, invariant state →
      invariant (round state key))
    {state : σ}
    (initial : invariant state) :
    invariant (keys.foldl round state) := by
  induction keys generalizing state with
  | nil => exact initial
  | cons first rest induction =>
      exact induction
        (fun state key member =>
          preserved state key (List.mem_cons_of_mem first member))
        (preserved state first List.mem_cons_self initial)

end Pointwise

/-! ## Leaving out two elements -/

/-- Two elements are left out, the later one first. -/
theorem eraseIdx_eraseIdx {α : Type u} (early late final : List α)
    (first second : α) :
    ((early ++ first :: (late ++ second :: final)).eraseIdx
        (early.length + (1 + late.length))).eraseIdx early.length =
      early ++ (late ++ final) := by
  have inner : (first :: (late ++ second :: final)).eraseIdx
      (1 + late.length) = first :: (late ++ final) := by
    rw [Nat.add_comm, List.eraseIdx_cons_succ,
      List.eraseIdx_append_of_length_le (Nat.le_refl _), Nat.sub_self,
      List.eraseIdx_cons_zero]
  rw [List.eraseIdx_append_of_length_le (Nat.le_add_right _ _),
    Nat.add_sub_cancel_left, inner,
    List.eraseIdx_append_of_length_le (Nat.le_refl _), Nat.sub_self,
    List.eraseIdx_cons_zero]

/-! ## What holds at each element of a history -/

section AtEach

variable {α : Type u} {holds : List α → α → Prop} {earlier made : List α}
  {last : α}

/-- Each element is good, given all that came before it. -/
def AtEach (holds : List α → α → Prop) (history : List α) : Prop :=
  ∀ earlier element later, history = earlier ++ element :: later →
    holds earlier element

theorem atEach_nil : AtEach holds [] := by
  intro earlier element later split
  cases earlier <;> cases split

/-- The elements of the second part come after all of the first part. -/
theorem atEach_append :
    AtEach holds (earlier ++ made) ↔
      AtEach holds earlier ∧
        AtEach (fun since => holds (earlier ++ since)) made := by
  constructor
  · intro each
    constructor
    · intro front element back split
      apply each front element (back ++ made)
      rw [split, List.append_assoc]
      rfl
    · intro front element back split
      apply each (earlier ++ front) element back
      rw [split, List.append_assoc]
  · rintro ⟨first, second⟩ front element back split
    rcases List.append_eq_append_iff.mp split with
      ⟨between, rfl, rest⟩ | ⟨between, rfl, rest⟩
    · exact second between element back rest
    · cases between with
      | nil =>
          have atStart := second [] element back rest.symm
          simpa only [List.append_nil] using atStart
      | cons head tail =>
          rcases List.cons.inj rest with ⟨rfl, _⟩
          exact first front element tail rfl

theorem atEach_congr {other : List α → α → Prop}
    (same : ∀ earlier, ∀ element ∈ made,
      holds earlier element ↔ other earlier element) :
    AtEach holds made ↔ AtEach other made := by
  have member : ∀ {front element back}, made = front ++ element :: back →
      element ∈ made := by
    intro front element back split
    rw [split]
    exact List.mem_append_right _ List.mem_cons_self
  constructor
  · intro each front element back split
    exact (same front element (member split)).mp
      (each front element back split)
  · intro each front element back split
    exact (same front element (member split)).mpr
      (each front element back split)

theorem AtEach.concat (each : AtEach holds made) (next : holds made last) :
    AtEach holds (made ++ [last]) := by
  refine atEach_append.mpr ⟨each, ?_⟩
  intro front element back split
  rcases List.append_eq_cons_iff.mp split.symm with
    ⟨rfl, rest⟩ | ⟨tail, _, impossible⟩
  · rcases List.cons.inj rest with ⟨rfl, _⟩
    rw [List.append_nil]
    exact next
  · cases tail <;> cases impossible

end AtEach

/-! ## Two kinds of elements -/

/-- When one kind comes first, the sequence is the two kinds in turn. -/
theorem filter_append_filter {α : Type*} {keep : α → Bool} {items : List α}
    (front : items.Pairwise fun first second =>
      keep second = true → keep first = true) :
    items.filter keep ++ items.filter (fun item => ! keep item) =
      items := by
  induction items with
  | nil => rfl
  | cons head tail induction =>
      rcases List.pairwise_cons.mp front with ⟨before, rest⟩
      cases kept : keep head with
      | true =>
          rw [List.filter_cons_of_pos kept,
            List.filter_cons_of_neg (by simp [kept]), List.cons_append,
            induction rest]
      | false =>
          have none : tail.filter keep = [] := by
            rw [List.filter_eq_nil_iff]
            intro item member keeps
            have impossible := before item member keeps
            rw [kept] at impossible
            cases impossible
          have later := induction rest
          rw [none, List.nil_append] at later
          rw [List.filter_cons_of_neg (by simp [kept]), none,
            List.filter_cons_of_pos (by simp [kept]), List.nil_append,
            later]

/-! ## First in, first out -/

/--
What has left a buffer and what it holds make up a part of what has entered
it, in the same order, as long as no step puts an element in front of an
older one.
-/
theorem passOn_sublist {α : Type*}
    {passed held received leaving next arriving : List α}
    (before : (passed ++ held).Sublist received)
    (step : (leaving ++ next).Sublist (held ++ arriving)) :
    (passed ++ leaving ++ next).Sublist (received ++ arriving) := by
  calc
    (passed ++ leaving ++ next).Sublist (passed ++ (held ++ arriving)) := by
      rw [List.append_assoc]
      exact step.append_left passed
    _ = passed ++ held ++ arriving := (List.append_assoc _ _ _).symm
    (passed ++ held ++ arriving).Sublist (received ++ arriving) :=
      before.append_right arriving

/-- In a duplicate-free list nothing stands both before and after an item. -/
theorem mem_of_pair_sublist {α : Type*} {early late : List α}
    {first second : α}
    (distinct : (early ++ second :: late).Nodup)
    (inOrder : [first, second].Sublist (early ++ second :: late)) :
    first ∈ early := by
  have absent : second ∉ late :=
    (List.nodup_cons.mp (List.nodup_append.mp distinct).2.1).1
  rcases List.sublist_append_iff.mp inOrder with
    ⟨left, right, split, inEarly, inLate⟩
  cases left with
  | nil =>
      obtain rfl : [first, second] = right := split
      have tail : [second].Sublist late := by
        cases inLate with
        | cons _ tail => exact (List.sublist_cons_self _ _).trans tail
        | cons_cons _ tail => exact tail
      exact absurd (tail.subset List.mem_cons_self) absent
  | cons head tail =>
      rcases List.cons.inj split with ⟨rfl, _⟩
      exact inEarly.subset List.mem_cons_self

/-! ## Numbered streams -/

section Numbering

variable {α κ : Type*} [DecidableEq κ] {channel : α → κ} {number : α → ℕ}
  {elements : List α} {last : α}

/-- The elements of one channel, in their order. -/
def streamOf (channel : α → κ) (key : κ) (elements : List α) : List α :=
  elements.filter fun element => channel element = key

/-- In every channel the elements are numbered from one on. -/
def Numbered (channel : α → κ) (number : α → ℕ) (elements : List α) :
    Prop :=
  ∀ key, (streamOf channel key elements).map number =
    List.range' 1 (streamOf channel key elements).length

theorem streamOf_concat_self :
    streamOf channel (channel last) (elements ++ [last]) =
      streamOf channel (channel last) elements ++ [last] := by
  simp [streamOf]

theorem streamOf_concat_ne {key : κ} (other : channel last ≠ key) :
    streamOf channel key (elements ++ [last]) =
      streamOf channel key elements := by
  simp [streamOf, other]

/-- A channel without elements. -/
theorem streamOf_eq_nil {key : κ}
    (unused : ∀ element ∈ elements, channel element ≠ key) :
    streamOf channel key elements = [] :=
  List.filter_eq_nil_iff.mpr fun element member same =>
    unused element member (of_decide_eq_true same)

theorem numbered_nil : Numbered channel number [] := by
  intro key
  rfl

/-- The next number of its channel continues the numbering. -/
theorem Numbered.concat (numbered : Numbered channel number elements)
    (next : number last =
      (streamOf channel (channel last) elements).length + 1) :
    Numbered channel number (elements ++ [last]) := by
  intro key
  by_cases same : channel last = key
  · subst same
    rw [streamOf_concat_self, List.map_append, numbered,
      List.length_append, ← List.range'_append, List.map_singleton, next,
      one_mul, add_comm 1]
    rfl
  · rw [streamOf_concat_ne same]
    exact numbered key

/-- The numbering of what has come so far does not depend on the rest. -/
theorem Numbered.of_prefix {part : List α}
    (numbered : Numbered channel number elements)
    (isPrefix : part <+: elements) : Numbered channel number part := by
  rcases isPrefix with ⟨rest, rfl⟩
  intro key
  have whole := numbered key
  rw [streamOf, List.filter_append, List.map_append, List.length_append,
    ← List.range'_append] at whole
  apply List.append_inj_left whole
  rw [List.length_map, List.length_range']

end Numbering

end Sequences
