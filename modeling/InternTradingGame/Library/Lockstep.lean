import InternTradingGame.Library.Effects

/-!
# Two programs in lockstep

Two programs run side by side from two states.  They are in lockstep when
both return the same value or both raise the same exception, and the states
they leave are related again.

The rules follow the structure of the programs.  A relation between the
states plays the part an invariant plays for a single program.
-/

namespace Effects

universe u

variable {ε σ τ ρ π α β : Type u}

/-- Both programs end alike, in related states. -/
def Lockstep (related : σ → τ → Prop) (first : EStateM ε σ α)
    (second : EStateM ε τ α) (left : σ) (right : τ) : Prop :=
  match first left, second right with
  | .ok value reached, .ok other otherReached =>
      value = other ∧ related reached otherReached
  | .error raised reached, .error other otherReached =>
      raised = other ∧ related reached otherReached
  | _, _ => False

namespace Lockstep

variable {related : σ → τ → Prop} {first : EStateM ε σ α}
  {second : EStateM ε τ α} {left reached : σ} {right other : τ}

theorem of_ok {value : α} (firstEnds : first left = .ok value reached)
    (secondEnds : second right = .ok value other)
    (states : related reached other) :
    Lockstep related first second left right := by
  rw [Lockstep, firstEnds, secondEnds]
  exact ⟨rfl, states⟩

theorem of_error {raised : ε}
    (firstEnds : first left = .error raised reached)
    (secondEnds : second right = .error raised other)
    (states : related reached other) :
    Lockstep related first second left right := by
  rw [Lockstep, firstEnds, secondEnds]
  exact ⟨rfl, states⟩

/-- When the first program returns, so does the second. -/
theorem elim_ok (lockstep : Lockstep related first second left right)
    {value : α} (ends : first left = .ok value reached) :
    ∃ other, second right = .ok value other ∧ related reached other := by
  rw [Lockstep, ends] at lockstep
  cases evaluated : second right with
  | ok otherValue other =>
      rw [evaluated] at lockstep
      rcases lockstep with ⟨rfl, states⟩
      exact ⟨other, rfl, states⟩
  | error raised other =>
      rw [evaluated] at lockstep
      exact lockstep.elim

/-- When the first program raises, so does the second. -/
theorem elim_error (lockstep : Lockstep related first second left right)
    {raised : ε} (ends : first left = .error raised reached) :
    ∃ other, second right = .error raised other ∧
      related reached other := by
  rw [Lockstep, ends] at lockstep
  cases evaluated : second right with
  | ok otherValue other =>
      rw [evaluated] at lockstep
      exact lockstep.elim
  | error otherRaised other =>
      rw [evaluated] at lockstep
      rcases lockstep with ⟨rfl, states⟩
      exact ⟨other, rfl, states⟩

/-- When the second program returns, so does the first. -/
theorem elim_ok_right
    (lockstep : Lockstep related first second left right)
    {value : α} (ends : second right = .ok value other) :
    ∃ reached, first left = .ok value reached ∧ related reached other := by
  rw [Lockstep, ends] at lockstep
  cases evaluated : first left with
  | ok otherValue reached =>
      rw [evaluated] at lockstep
      rcases lockstep with ⟨rfl, states⟩
      exact ⟨reached, rfl, states⟩
  | error raised reached =>
      rw [evaluated] at lockstep
      exact lockstep.elim

theorem finalState
    (lockstep : Lockstep related first second left right) :
    related (finalState (first left)) (finalState (second right)) := by
  cases evaluated : first left with
  | ok value reached =>
      rcases lockstep.elim_ok evaluated with ⟨other, ends, states⟩
      rw [ends]
      exact states
  | error raised reached =>
      rcases lockstep.elim_error evaluated with ⟨other, ends, states⟩
      rw [ends]
      exact states

/-- Programs in lockstep answer alike. -/
theorem outcome
    (lockstep : Lockstep related first second left right) :
    outcome (first left) = outcome (second right) := by
  cases evaluated : first left with
  | ok value reached =>
      rcases lockstep.elim_ok evaluated with ⟨other, ends, _⟩
      rw [ends]
      rfl
  | error raised reached =>
      rcases lockstep.elim_error evaluated with ⟨other, ends, _⟩
      rw [ends]
      rfl

theorem mono {wider : σ → τ → Prop}
    (lockstep : Lockstep related first second left right)
    (weaker : ∀ left right, related left right → wider left right) :
    Lockstep wider first second left right := by
  cases evaluated : first left with
  | ok value reached =>
      rcases lockstep.elim_ok evaluated with ⟨other, ends, states⟩
      exact .of_ok evaluated ends (weaker _ _ states)
  | error raised reached =>
      rcases lockstep.elim_error evaluated with ⟨other, ends, states⟩
      exact .of_error evaluated ends (weaker _ _ states)

/-! ## The rules of the primitive programs -/

theorem returns (value : α) (states : related left right) :
    Lockstep related (pure value : EStateM ε σ α) (pure value)
      left right :=
  ⟨rfl, states⟩

theorem raises (raised : ε) (states : related left right) :
    Lockstep related (throw raised : EStateM ε σ α) (throw raised)
      left right :=
  ⟨rfl, states⟩

theorem modifies {change : σ → σ} {otherChange : τ → τ}
    (states : related (change left) (otherChange right)) :
    Lockstep related (modify change : EStateM ε σ PUnit)
      (modify otherChange) left right :=
  ⟨rfl, states⟩

/-- The rule of sequencing, with the evaluation of the first programs. -/
theorem bind_evaluated {next : α → EStateM ε σ β}
    {otherNext : α → EStateM ε τ β}
    (head : Lockstep related first second left right)
    (tail : ∀ value reached other, first left = .ok value reached →
      related reached other →
        Lockstep related (next value) (otherNext value) reached other) :
    Lockstep related (first >>= next) (second >>= otherNext)
      left right := by
  cases evaluated : first left with
  | ok value reached =>
      rcases head.elim_ok evaluated with ⟨other, ends, states⟩
      have rest := tail value reached other evaluated states
      rw [Lockstep, bind_apply, bind_apply, evaluated, ends]
      exact rest
  | error raised reached =>
      rcases head.elim_error evaluated with ⟨other, ends, states⟩
      rw [Lockstep, bind_apply, bind_apply, evaluated, ends]
      exact ⟨rfl, states⟩

/-- The rule of sequencing. -/
theorem bind {next : α → EStateM ε σ β} {otherNext : α → EStateM ε τ β}
    (head : Lockstep related first second left right)
    (tail : ∀ value reached other, related reached other →
      Lockstep related (next value) (otherNext value) reached other) :
    Lockstep related (first >>= next) (second >>= otherNext)
      left right :=
  head.bind_evaluated fun value reached other _ states =>
    tail value reached other states

/-- Both programs wait for the same computation. -/
theorem lifts_bind {computation : Except ε α}
    {next : α → EStateM ε σ β} {otherNext : α → EStateM ε τ β}
    (states : related left right)
    (tail : ∀ value, computation = .ok value →
      Lockstep related (next value) (otherNext value) left right) :
    Lockstep related (lift computation >>= next)
      (lift computation >>= otherNext) left right := by
  cases computed : computation with
  | ok value => exact tail value computed
  | error raised => exact ⟨rfl, states⟩

/-- Both programs read their states. -/
theorem reads {next : σ → EStateM ε σ β} {otherNext : τ → EStateM ε τ β}
    (tail : Lockstep related (next left) (otherNext right) left right) :
    Lockstep related (get >>= next) (get >>= otherNext) left right :=
  tail

/-- Both programs take the same branch. -/
theorem branches {condition otherCondition : Prop}
    [Decidable condition] [Decidable otherCondition]
    {positive negative : EStateM ε σ α}
    {otherPositive otherNegative : EStateM ε τ α}
    (same : condition ↔ otherCondition)
    (onPositive : condition →
      Lockstep related positive otherPositive left right)
    (onNegative : ¬ condition →
      Lockstep related negative otherNegative left right) :
    Lockstep related (if condition then positive else negative)
      (if otherCondition then otherPositive else otherNegative)
      left right := by
  by_cases holds : condition
  · rw [if_pos holds, if_pos (same.mp holds)]
    exact onPositive holds
  · rw [if_neg holds, if_neg fun other => holds (same.mpr other)]
    exact onNegative holds

/-- Two loops over the same list. -/
theorem forM {body : α → EStateM ε σ PUnit}
    {otherBody : α → EStateM ε τ PUnit} {elements : List α}
    (step : ∀ element ∈ elements, ∀ reached other,
      related reached other →
        Lockstep related (body element) (otherBody element)
          reached other)
    (states : related left right) :
    Lockstep related (elements.forM body) (elements.forM otherBody)
      left right := by
  induction elements generalizing left right with
  | nil => exact ⟨rfl, states⟩
  | cons element rest induction =>
      change Lockstep related (body element >>= fun _ => rest.forM body)
        (otherBody element >>= fun _ => rest.forM otherBody) left right
      apply (step element List.mem_cons_self left right states).bind
      intro _ reached other reachedStates
      exact induction
        (fun later member =>
          step later (List.mem_cons_of_mem _ member))
        reachedStates

/-- Both programs run on a part of their states. -/
theorem zooms {part : ρ → π → Prop} {view : σ → ρ} {otherView : τ → π}
    {update : ρ → σ → σ} {otherUpdate : π → τ → τ}
    {program : EStateM ε ρ α} {otherProgram : EStateM ε π α}
    (inside : Lockstep part program otherProgram
      (view left) (otherView right))
    (outside : ∀ reached other, part reached other →
      related (update reached left) (otherUpdate other right)) :
    Lockstep related (zoom view update program)
      (zoom otherView otherUpdate otherProgram) left right := by
  cases evaluated : program (view left) with
  | ok value reached =>
      rcases inside.elim_ok evaluated with ⟨other, ends, states⟩
      exact .of_ok (zoom_ok evaluated) (zoom_ok ends)
        (outside reached other states)
  | error raised reached =>
      rcases inside.elim_error evaluated with ⟨other, ends, states⟩
      exact .of_error (zoom_error evaluated) (zoom_error ends)
        (outside reached other states)

/-- A program in lockstep with itself ends in a state related to itself. -/
theorem ends {related : σ → σ → Prop} {program : EStateM ε σ α}
    {state : σ} (lockstep : Lockstep related program program state state) :
    Ends program state (fun _ reached => related reached reached)
      (fun _ reached => related reached reached) := by
  cases evaluated : program state with
  | ok value reached =>
      apply Ends.of_ok evaluated
      rcases lockstep.elim_ok evaluated with ⟨_, same, holds⟩
      rcases EStateM.Result.ok.inj (evaluated.symm.trans same) with ⟨_, rfl⟩
      exact holds
  | error raised reached =>
      apply Ends.of_error evaluated
      rcases lockstep.elim_error evaluated with ⟨_, same, holds⟩
      rcases EStateM.Result.error.inj (evaluated.symm.trans same) with
        ⟨_, rfl⟩
      exact holds

end Lockstep

/-! ## Following a loop which returns -/

/--
A loop which returns is followed by another one, when every iteration which
returns is.
-/
theorem forM_follows {related : σ → τ → Prop}
    {body : α → EStateM ε σ PUnit} {otherBody : α → EStateM ε τ PUnit}
    {elements : List α}
    (step : ∀ element ∈ elements, ∀ left right reached,
      related left right → body element left = .ok ⟨⟩ reached →
        ∃ other, otherBody element right = .ok ⟨⟩ other ∧
          related reached other)
    {left reached : σ} {right : τ} (states : related left right)
    (returns : elements.forM body left = .ok ⟨⟩ reached) :
    ∃ other, elements.forM otherBody right = .ok ⟨⟩ other ∧
      related reached other := by
  induction elements generalizing left right with
  | nil =>
      cases returns
      exact ⟨right, rfl, states⟩
  | cons element rest induction =>
      change (body element >>= fun _ => rest.forM body) left = _
        at returns
      rw [bind_apply] at returns
      cases first : body element left with
      | error raised middle =>
          rw [first] at returns
          cases returns
      | ok value middle =>
          rw [first] at returns
          obtain ⟨otherMiddle, otherFirst, middleStates⟩ :=
            step element List.mem_cons_self left right middle states first
          rcases induction
            (fun later member =>
              step later (List.mem_cons_of_mem _ member))
            middleStates returns with
            ⟨other, otherRest, reachedStates⟩
          refine ⟨other, ?_, reachedStates⟩
          change (otherBody element >>= fun _ => rest.forM otherBody)
            right = _
          rw [bind_apply, otherFirst]
          exact otherRest

/-- The elements which are not kept are skipped. -/
theorem forM_filter (keep : α → Bool) (body : α → EStateM ε σ PUnit)
    (elements : List α) :
    (elements.filter keep).forM body =
      elements.forM fun element =>
        if keep element then body element else pure ⟨⟩ := by
  induction elements with
  | nil => rfl
  | cons element rest induction =>
      change _ =
        ((if keep element then body element else pure ⟨⟩) >>= fun _ =>
          rest.forM fun element =>
            if keep element then body element else pure ⟨⟩)
      rw [← induction]
      by_cases kept : keep element = true
      · rw [List.filter_cons_of_pos kept, if_pos kept]
        rfl
      · rw [List.filter_cons_of_neg kept, if_neg kept]
        rfl

/-- A loop is followed by the loop over the elements which are kept. -/
theorem forM_follows_filter {related : σ → τ → Prop}
    {keep : α → Bool} {body : α → EStateM ε σ PUnit}
    {otherBody : α → EStateM ε τ PUnit} {elements : List α}
    (both : ∀ element ∈ elements, keep element = true →
      ∀ left right, related left right →
        Lockstep related (body element) (otherBody element) left right)
    (alone : ∀ element ∈ elements, keep element = false →
      ∀ left right reached, related left right →
        body element left = .ok ⟨⟩ reached → related reached right)
    {left reached : σ} {right : τ} (states : related left right)
    (returns : elements.forM body left = .ok ⟨⟩ reached) :
    ∃ other, (elements.filter keep).forM otherBody right = .ok ⟨⟩ other ∧
      related reached other := by
  rw [forM_filter]
  apply forM_follows _ states returns
  intro element member left right reached states returns
  cases kept : keep element with
  | true =>
      rw [if_pos rfl]
      exact (both element member kept left right states).elim_ok returns
  | false =>
      rw [if_neg Bool.false_ne_true]
      exact ⟨right, rfl,
        alone element member kept left right reached states returns⟩

end Effects
