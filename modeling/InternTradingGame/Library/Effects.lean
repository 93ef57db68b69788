import Mathlib.Init

/-!
# Programs which keep their state when they raise

`EStateM ε σ` is the effect of an imperative program over a state `σ` which
may raise an exception of type `ε`.  An exception does not roll the state
back: the result `Result.error e s` carries the state reached so far.

This module evaluates the primitive programs by equations and gives the
rules of pre- and postconditions.  A specification `Ends` speaks about both
ways of ending, so an invariant can be stated for the state left behind by
an exception as well.
-/

namespace Effects

universe u

variable {ε σ τ α β : Type u}

/-! ## Evaluation -/

@[simp]
theorem bind_apply
    (first : EStateM ε σ α) (next : α → EStateM ε σ β) (state : σ) :
    (first >>= next) state =
      match first state with
      | .ok value reached => next value reached
      | .error raised reached => .error raised reached := by
  change EStateM.bind first next state = _
  unfold EStateM.bind
  cases first state <;> rfl

@[simp]
theorem map_apply
    (convert : α → β) (program : EStateM ε σ α) (state : σ) :
    (convert <$> program) state =
      match program state with
      | .ok value reached => .ok (convert value) reached
      | .error raised reached => .error raised reached := by
  change EStateM.map convert program state = _
  unfold EStateM.map
  cases program state <;> rfl

@[simp]
theorem pure_apply (value : α) (state : σ) :
    (pure value : EStateM ε σ α) state = .ok value state :=
  rfl

@[simp]
theorem get_apply (state : σ) :
    (get : EStateM ε σ σ) state = .ok state state :=
  rfl

@[simp]
theorem set_apply (next state : σ) :
    (set next : EStateM ε σ PUnit) state = .ok ⟨⟩ next :=
  rfl

@[simp]
theorem modify_apply (change : σ → σ) (state : σ) :
    (modify change : EStateM ε σ PUnit) state =
      .ok ⟨⟩ (change state) :=
  rfl

@[simp]
theorem throw_apply (raised : ε) (state : σ) :
    (throw raised : EStateM ε σ α) state = .error raised state :=
  rfl

theorem branch_apply {condition : Prop} [Decidable condition]
    (positive negative : EStateM ε σ α) (state : σ) :
    (if condition then positive else negative) state =
      if condition then positive state else negative state := by
  by_cases holds : condition
  · rw [if_pos holds, if_pos holds]
  · rw [if_neg holds, if_neg holds]

/-- Run a computation which touches no state. -/
def lift : Except ε α → EStateM ε σ α
  | .ok value => pure value
  | .error raised => throw raised

@[simp]
theorem lift_ok (value : α) (state : σ) :
    (lift (.ok value) : EStateM ε σ α) state = .ok value state :=
  rfl

@[simp]
theorem lift_error (raised : ε) (state : σ) :
    (lift (.error raised) : EStateM ε σ α) state =
      .error raised state :=
  rfl

/-- The state a result leaves behind, however the program ended. -/
def finalState : EStateM.Result ε σ α → σ
  | .ok _ reached => reached
  | .error _ reached => reached

/-- What a program answers, without the state it leaves. -/
def outcome : EStateM.Result ε σ α → Except ε α
  | .ok value _ => .ok value
  | .error raised _ => .error raised

@[simp]
theorem finalState_ok (value : α) (state : σ) :
    finalState (.ok value state : EStateM.Result ε σ α) = state :=
  rfl

@[simp]
theorem finalState_error (raised : ε) (state : σ) :
    finalState (.error raised state : EStateM.Result ε σ α) = state :=
  rfl

/-- The value a program returns, unless it raises. -/
def returned : EStateM.Result ε σ α → Option α
  | .ok value _ => some value
  | .error _ _ => none

@[simp]
theorem returned_ok (value : α) (state : σ) :
    returned (.ok value state : EStateM.Result ε σ α) = some value :=
  rfl

/-! ## Both ways of ending -/

/--
The program run from `state` ends in `normal` when it returns and in
`raised` when it raises.
-/
def Ends (program : EStateM ε σ α) (state : σ)
    (normal : α → σ → Prop) (raised : ε → σ → Prop) : Prop :=
  match program state with
  | .ok value reached => normal value reached
  | .error exception reached => raised exception reached

theorem Ends.of_ok
    {program : EStateM ε σ α} {state reached : σ} {value : α}
    {normal : α → σ → Prop} {raised : ε → σ → Prop}
    (evaluates : program state = .ok value reached)
    (holds : normal value reached) :
    Ends program state normal raised := by
  simpa only [Ends, evaluates] using holds

theorem Ends.of_error
    {program : EStateM ε σ α} {state reached : σ} {exception : ε}
    {normal : α → σ → Prop} {raised : ε → σ → Prop}
    (evaluates : program state = .error exception reached)
    (holds : raised exception reached) :
    Ends program state normal raised := by
  simpa only [Ends, evaluates] using holds

/-- Only the result of the run matters. -/
theorem Ends.of_eq
    {first second : EStateM ε σ α} {state other : σ}
    {normal : α → σ → Prop} {raised : ε → σ → Prop}
    (equal : first state = second other)
    (ends : Ends second other normal raised) :
    Ends first state normal raised := by
  rw [Ends, equal]
  exact ends

theorem Ends.elim_ok
    {program : EStateM ε σ α} {state reached : σ} {value : α}
    {normal : α → σ → Prop} {raised : ε → σ → Prop}
    (ends : Ends program state normal raised)
    (evaluates : program state = .ok value reached) :
    normal value reached := by
  simpa only [Ends, evaluates] using ends

theorem Ends.elim_error
    {program : EStateM ε σ α} {state reached : σ} {exception : ε}
    {normal : α → σ → Prop} {raised : ε → σ → Prop}
    (ends : Ends program state normal raised)
    (evaluates : program state = .error exception reached) :
    raised exception reached := by
  simpa only [Ends, evaluates] using ends

/-- A program which never raises returns. -/
theorem Ends.exists_ok
    {program : EStateM ε σ α} {state : σ} {normal : α → σ → Prop}
    (ends : Ends program state normal fun _ _ => False) :
    ∃ value reached,
      program state = .ok value reached ∧ normal value reached := by
  cases evaluated : program state with
  | ok value reached => exact ⟨value, reached, rfl, ends.elim_ok evaluated⟩
  | error exception reached => exact (ends.elim_error evaluated).elim

/-- The rule of consequence. -/
theorem Ends.mono
    {program : EStateM ε σ α} {state : σ}
    {normal normal' : α → σ → Prop} {raised raised' : ε → σ → Prop}
    (ends : Ends program state normal raised)
    (onNormal : ∀ value reached,
      normal value reached → normal' value reached)
    (onRaised : ∀ exception reached,
      raised exception reached → raised' exception reached) :
    Ends program state normal' raised' := by
  unfold Ends at ends ⊢
  cases evaluated : program state with
  | ok value reached =>
      rw [evaluated] at ends
      exact onNormal value reached ends
  | error exception reached =>
      rw [evaluated] at ends
      exact onRaised exception reached ends

/-- What two proofs say of a program holds at once. -/
theorem Ends.and
    {program : EStateM ε σ α} {state : σ}
    {normal normal' : α → σ → Prop} {raised raised' : ε → σ → Prop}
    (first : Ends program state normal raised)
    (second : Ends program state normal' raised') :
    Ends program state
      (fun value reached => normal value reached ∧ normal' value reached)
      (fun exception reached =>
        raised exception reached ∧ raised' exception reached) := by
  unfold Ends at first second ⊢
  cases evaluated : program state with
  | ok value reached =>
      rw [evaluated] at first second
      exact ⟨first, second⟩
  | error exception reached =>
      rw [evaluated] at first second
      exact ⟨first, second⟩

/-- The rule of sequencing. -/
theorem Ends.bind
    {first : EStateM ε σ α} {next : α → EStateM ε σ β} {state : σ}
    {middle : α → σ → Prop}
    {normal : β → σ → Prop} {raised : ε → σ → Prop}
    (head : Ends first state middle raised)
    (tail : ∀ value reached, middle value reached →
      Ends (next value) reached normal raised) :
    Ends (first >>= next) state normal raised := by
  unfold Ends at head ⊢
  rw [bind_apply]
  cases evaluated : first state with
  | ok value reached =>
      rw [evaluated] at head
      exact tail value reached head
  | error exception reached =>
      rw [evaluated] at head
      exact head

theorem Ends.bind_ok
    {first : EStateM ε σ α} {next : α → EStateM ε σ β}
    {state reached : σ} {value : α}
    {normal : β → σ → Prop} {raised : ε → σ → Prop}
    (evaluates : first state = .ok value reached)
    (tail : Ends (next value) reached normal raised) :
    Ends (first >>= next) state normal raised := by
  unfold Ends at tail ⊢
  rw [bind_apply, evaluates]
  exact tail

theorem Ends.bind_error
    {first : EStateM ε σ α} {next : α → EStateM ε σ β}
    {state reached : σ} {exception : ε}
    {normal : β → σ → Prop} {raised : ε → σ → Prop}
    (evaluates : first state = .error exception reached)
    (holds : raised exception reached) :
    Ends (first >>= next) state normal raised := by
  unfold Ends
  rw [bind_apply, evaluates]
  exact holds

@[simp]
theorem ends_pure
    {value : α} {state : σ}
    {normal : α → σ → Prop} {raised : ε → σ → Prop} :
    Ends (pure value) state normal raised ↔ normal value state :=
  Iff.rfl

@[simp]
theorem ends_throw
    {exception : ε} {state : σ}
    {normal : α → σ → Prop} {raised : ε → σ → Prop} :
    Ends (throw exception) state normal raised ↔
      raised exception state :=
  Iff.rfl

@[simp]
theorem ends_modify
    {change : σ → σ} {state : σ}
    {normal : PUnit → σ → Prop} {raised : ε → σ → Prop} :
    Ends (modify change) state normal raised ↔
      normal ⟨⟩ (change state) :=
  Iff.rfl

@[simp]
theorem ends_get_bind
    {next : σ → EStateM ε σ β} {state : σ}
    {normal : β → σ → Prop} {raised : ε → σ → Prop} :
    Ends (get >>= next) state normal raised ↔
      Ends (next state) state normal raised :=
  Iff.rfl

/-- What holds of the final state holds whichever way the program ends. -/
theorem Ends.of_finalState
    {program : EStateM ε σ α} {state : σ} (holds : σ → Prop)
    (final : holds (finalState (program state))) :
    Ends program state (fun _ => holds) (fun _ => holds) := by
  unfold Ends
  cases evaluated : program state with
  | ok value reached => simpa [evaluated] using final
  | error exception reached => simpa [evaluated] using final

/-- A property kept by the program whichever way it ends. -/
def Keeps (invariant : σ → Prop) (program : EStateM ε σ α) : Prop :=
  ∀ state, invariant state →
    Ends program state
      (fun _ => invariant) (fun _ => invariant)

theorem Keeps.finalState
    {invariant : σ → Prop} {program : EStateM ε σ α}
    (keeps : Keeps invariant program) {state : σ}
    (holds : invariant state) :
    invariant (finalState (program state)) := by
  have ends := keeps state holds
  unfold Ends at ends
  cases evaluated : program state with
  | ok value reached => simpa [evaluated] using ends
  | error exception reached => simpa [evaluated] using ends

namespace Keeps

variable {invariant : σ → Prop}

theorem pure (value : α) :
    Keeps invariant (Pure.pure value : EStateM ε σ α) :=
  fun _ holds => holds

theorem bind
    {first : EStateM ε σ α} {next : α → EStateM ε σ β}
    (head : Keeps invariant first)
    (tail : ∀ value, Keeps invariant (next value)) :
    Keeps invariant (first >>= next) :=
  fun state holds =>
    (head state holds).bind fun value reached kept =>
      tail value reached kept

theorem raises (exception : ε) :
    Keeps invariant (throw exception : EStateM ε σ α) :=
  fun _ holds => holds

theorem modifies {change : σ → σ}
    (kept : ∀ state, invariant state → invariant (change state)) :
    Keeps invariant (modify change : EStateM ε σ PUnit) :=
  kept

/-- The program goes on with a state in which the invariant held. -/
theorem reads {next : σ → EStateM ε σ β}
    (kept : ∀ seen, invariant seen → Keeps invariant (next seen)) :
    Keeps invariant (get >>= next) :=
  fun state holds => kept state holds state holds

/-- The program goes on with the value of a computation without state. -/
theorem lifts_bind
    {computation : Except ε α} {next : α → EStateM ε σ β}
    (kept : ∀ value, computation = .ok value →
      Keeps invariant (next value)) :
    Keeps invariant (lift computation >>= next) := by
  cases computed : computation with
  | ok value => exact kept value computed
  | error exception => exact fun _ holds => holds

theorem branches {condition : Prop} [Decidable condition]
    {positive negative : EStateM ε σ α}
    (whenTrue : condition → Keeps invariant positive)
    (whenFalse : ¬ condition → Keeps invariant negative) :
    Keeps invariant (if condition then positive else negative) := by
  by_cases holds : condition
  · rw [if_pos holds]
    exact whenTrue holds
  · rw [if_neg holds]
    exact whenFalse holds

/-- A loop whose body keeps the invariant keeps it. -/
theorem forM
    {body : α → EStateM ε σ PUnit} {elements : List α}
    (kept : ∀ element ∈ elements, Keeps invariant (body element)) :
    Keeps invariant (elements.forM body) := by
  induction elements with
  | nil => exact fun _ holds => holds
  | cons element rest induction =>
      change
        Keeps invariant (body element >>= fun _ => rest.forM body)
      exact (kept element List.mem_cons_self).bind fun _ =>
        induction fun other member =>
          kept other (List.mem_cons_of_mem _ member)

end Keeps

/-! ## Loops over a list -/

/--
The rule for `for x in xs`: an invariant indexed by the elements still to
come.
-/
theorem Ends.forM
    {body : α → EStateM ε σ PUnit} {raised : ε → σ → Prop}
    (invariant : List α → σ → Prop)
    (step : ∀ element rest state, invariant (element :: rest) state →
      Ends (body element) state
        (fun _ => invariant rest) raised)
    (elements : List α) {state : σ}
    (start : invariant elements state) :
    Ends (elements.forM body) state
      (fun _ => invariant []) raised := by
  induction elements generalizing state with
  | nil => exact start
  | cons element rest induction =>
      change
        Ends (body element >>= fun _ => rest.forM body) state _ _
      exact (step element rest state start).bind
        fun _ _ reached => induction reached

/-! ## Programs on a part of the state -/

/--
Run a program on the part of the state selected by `view`, and put the part
back with `update` however the program ends.
-/
def zoom (view : σ → τ) (update : τ → σ → σ)
    (program : EStateM ε τ α) : EStateM ε σ α :=
  fun state =>
    match program (view state) with
    | .ok value part => .ok value (update part state)
    | .error raised part => .error raised (update part state)

theorem zoom_ok
    {view : σ → τ} {update : τ → σ → σ}
    {program : EStateM ε τ α} {state : σ} {value : α} {part : τ}
    (evaluates : program (view state) = .ok value part) :
    zoom view update program state = .ok value (update part state) := by
  simp only [zoom, evaluates]

theorem zoom_error
    {view : σ → τ} {update : τ → σ → σ}
    {program : EStateM ε τ α} {state : σ} {exception : ε} {part : τ}
    (evaluates : program (view state) = .error exception part) :
    zoom view update program state =
      .error exception (update part state) := by
  simp only [zoom, evaluates]

/-- The part is put back however the program ends. -/
theorem finalState_zoom (view : σ → τ) (update : τ → σ → σ)
    (program : EStateM ε τ α) (state : σ) :
    finalState (zoom view update program state) =
      update (finalState (program (view state))) state := by
  unfold zoom
  cases program (view state) with
  | ok value part => rfl
  | error raised part => rfl

theorem Ends.zoom
    {view : σ → τ} {update : τ → σ → σ}
    {program : EStateM ε τ α} {state : σ}
    {normal : α → σ → Prop} {raised : ε → σ → Prop}
    (part : Ends program (view state)
      (fun value reached => normal value (update reached state))
      (fun exception reached => raised exception (update reached state))) :
    Ends (Effects.zoom view update program) state normal raised := by
  unfold Ends at part ⊢
  unfold Effects.zoom
  cases evaluated : program (view state) with
  | ok value reached =>
      rw [evaluated] at part
      exact part
  | error exception reached =>
      rw [evaluated] at part
      exact part

end Effects
