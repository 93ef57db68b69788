import Mathlib.Data.List.Induction

/-!
# Runs of a labelled transition system

A run is a finite sequence of labelled steps.  The labels are kept, so a
property may speak about the whole history of a run and not only about the
state it reaches.

The rules below turn a fact about one step into a fact about every run:
an invariant, an invariant which mentions the history, and an invariant
which holds while every step meets a condition.
-/

variable {σ α : Type*}

/-- A finite run, with the labels of its steps in order. -/
inductive Run (Step : σ → α → σ → Prop) : σ → List α → σ → Prop where
  | refl (state : σ) : Run Step state [] state
  | snoc {start middle finish : σ} {labels : List α} {label : α}
      (init : Run Step start labels middle)
      (last : Step middle label finish) :
      Run Step start (labels ++ [label]) finish

namespace Run

variable {Step : σ → α → σ → Prop} {start middle finish : σ}

theorem single {label : α} (step : Step start label finish) :
    Run Step start [label] finish :=
  .snoc (.refl start) step

theorem append {left right : List α}
    (first : Run Step start left middle)
    (second : Run Step middle right finish) :
    Run Step start (left ++ right) finish := by
  induction second with
  | refl => simpa using first
  | snoc _ last induction =>
      rw [← List.append_assoc]
      exact .snoc induction last

theorem cons {label : α} {labels : List α}
    (step : Step start label middle)
    (rest : Run Step middle labels finish) :
    Run Step start (label :: labels) finish :=
  (single step).append rest

/-- A nonempty run ends with a step. -/
theorem last_step {labels : List α} {label : α}
    (run : Run Step start (labels ++ [label]) finish) :
    ∃ middle, Run Step start labels middle ∧
      Step middle label finish := by
  generalize whole : labels ++ [label] = sequence at run
  cases run with
  | refl => simp at whole
  | snoc init last =>
      rcases List.append_inj' whole rfl with ⟨rfl, labelEqual⟩
      obtain rfl : label = _ := by simpa using labelEqual
      exact ⟨_, init, last⟩

theorem eq_of_nil (run : Run Step start [] finish) :
    finish = start := by
  generalize none : ([] : List α) = labels at run
  cases run with
  | refl => rfl
  | snoc => simp at none

/-- A run over a concatenation stops at the seam. -/
theorem split {left right : List α}
    (run : Run Step start (left ++ right) finish) :
    ∃ middle, Run Step start left middle ∧
      Run Step middle right finish := by
  induction right using List.reverseRecOn generalizing finish with
  | nil =>
      rw [List.append_nil] at run
      exact ⟨finish, run, .refl finish⟩
  | append_singleton front label induction =>
      rw [← List.append_assoc] at run
      rcases run.last_step with ⟨reached, init, last⟩
      rcases induction init with ⟨middle, first, second⟩
      exact ⟨middle, first, .snoc second last⟩

/-- A label of a run splits it into what came before and what came after. -/
theorem split_at {left right : List α} {label : α}
    (run : Run Step start (left ++ label :: right) finish) :
    ∃ before after, Run Step start left before ∧
      Step before label after ∧ Run Step after right finish := by
  rw [List.append_cons] at run
  rcases run.split with ⟨after, upTo, rest⟩
  rcases upTo.last_step with ⟨before, first, step⟩
  exact ⟨before, after, first, step, rest⟩

/-- A run starts with its first label. -/
theorem first_step {labels : List α} {label : α}
    (run : Run Step start (label :: labels) finish) :
    ∃ middle, Step start label middle ∧ Run Step middle labels finish := by
  have whole : Run Step start ([] ++ label :: labels) finish := run
  rcases whole.split_at with ⟨before, after, none, step, rest⟩
  rcases none.eq_of_nil with rfl
  exact ⟨after, step, rest⟩

/--
An invariant of a history: what holds of the labels so far and of the state
they lead to.
-/
theorem induction_history {labels : List α}
    (invariant : List α → σ → Prop)
    (run : Run Step start labels finish)
    (initial : invariant [] start)
    (preserved : ∀ history state label next,
      Run Step start history state → invariant history state →
        Step state label next →
          invariant (history ++ [label]) next) :
    invariant labels finish := by
  induction run with
  | refl => exact initial
  | snoc init last induction =>
      exact preserved _ _ _ _ init induction last

/-- The same labels make a run of a system with more steps. -/
theorem mono {Step Wider : σ → α → σ → Prop} {start finish : σ}
    {labels : List α}
    (wider : ∀ state label next, Step state label next →
      Wider state label next)
    (run : Run Step start labels finish) :
    Run Wider start labels finish := by
  induction run with
  | refl => exact .refl _
  | snoc init last induction =>
      exact .snoc induction (wider _ _ _ last)

/-- An invariant of every step is an invariant of every run. -/
theorem invariant {labels : List α} (holds : σ → Prop)
    (run : Run Step start labels finish)
    (initial : holds start)
    (preserved : ∀ state label next,
      holds state → Step state label next → holds next) :
    holds finish :=
  run.induction_history (fun _ => holds) initial
    fun _ state label next _ reached step =>
      preserved state label next reached step

end Run

/-! ## Guarded deterministic systems -/

section Guarded

variable (allowed : α → σ → Prop) (execute : α → σ → σ)

/-- A step executes its label, which must be allowed. -/
def GuardedStep (state : σ) (label : α) (next : σ) : Prop :=
  allowed label state ∧ next = execute label state

/-- The state reached by executing the labels in order. -/
def replay (start : σ) (labels : List α) : σ :=
  labels.foldl (fun state label => execute label state) start

/-- Every label is allowed when its turn comes. -/
def Permitted : σ → List α → Prop
  | _, [] => True
  | start, label :: rest =>
      allowed label start ∧ Permitted (execute label start) rest

instance Permitted.decidable
    [∀ label state, Decidable (allowed label state)] :
    ∀ (start : σ) (labels : List α),
      Decidable (Permitted allowed execute start labels)
  | _, [] => inferInstanceAs (Decidable True)
  | start, label :: rest =>
      @instDecidableAnd _ _ _
        (Permitted.decidable (execute label start) rest)

variable {allowed execute}

/-- Permitted labels make a run. -/
theorem run_replay {start : σ} {labels : List α}
    (permitted : Permitted allowed execute start labels) :
    Run (GuardedStep allowed execute) start labels
      (replay execute start labels) := by
  induction labels generalizing start with
  | nil => exact .refl start
  | cons label rest induction =>
      exact Run.cons ⟨permitted.1, rfl⟩ (induction permitted.2)

@[simp]
theorem replay_snoc {start : σ} {labels : List α} {label : α} :
    replay execute start (labels ++ [label]) =
      execute label (replay execute start labels) :=
  List.foldl_append

/-- A run of a guarded system ends where executing its labels ends. -/
theorem Run.eq_replay {start finish : σ} {labels : List α}
    (run : Run (GuardedStep allowed execute) start labels finish) :
    finish = replay execute start labels := by
  induction run with
  | refl => rfl
  | snoc init last induction =>
      rcases last with ⟨_, rfl⟩
      rw [replay_snoc, ← induction]

theorem permitted_snoc {start : σ} {labels : List α} {label : α} :
    Permitted allowed execute start (labels ++ [label]) ↔
      Permitted allowed execute start labels ∧
        allowed label (replay execute start labels) := by
  induction labels generalizing start with
  | nil => simp [Permitted, replay]
  | cons first rest induction =>
      rw [List.cons_append, Permitted, Permitted, induction, and_assoc]
      rfl

/-- Every label which meets a condition meets it when its turn comes. -/
theorem Run.permitted_iff_forall {condition : α → σ → Prop}
    {start finish : σ} {labels : List α}
    (run : Run (GuardedStep allowed execute) start labels finish) :
    Permitted condition execute start labels ↔
      ∀ before label after state, labels = before ++ label :: after →
        Run (GuardedStep allowed execute) start before state →
          condition label state := by
  induction run with
  | refl =>
      constructor
      · intro _ before label after _ split
        cases (List.append_eq_nil_iff.mp split.symm).2
      · exact fun _ => trivial
  | @snoc middle finish labels label init last induction =>
      rw [permitted_snoc, induction, ← init.eq_replay]
      constructor
      · rintro ⟨earlier, now⟩ before other after state split reaches
        rcases List.eq_nil_or_concat after with rfl | ⟨front, final, rfl⟩
        · rcases List.append_inj' split rfl with ⟨rfl, equal⟩
          rcases List.cons.inj equal with ⟨rfl, _⟩
          rw [reaches.eq_replay, ← init.eq_replay]
          exact now
        · rw [List.concat_eq_append, ← List.cons_append,
            ← List.append_assoc] at split
          rcases List.append_inj' split rfl with ⟨rfl, _⟩
          exact earlier before other front state rfl reaches
      · intro always
        constructor
        · rintro before other after state rfl
          exact always before other (after ++ [label]) state
            (List.append_assoc _ _ _)
        · exact always labels label [] middle rfl init

/-- What holds in every state that a run passes through. -/
def Throughout (Step : σ → α → σ → Prop) (start : σ)
    (labels : List α) (holds : σ → Prop) : Prop :=
  ∀ before after state, labels = before ++ after →
    Run Step start before state → holds state

theorem throughout_snoc {Step : σ → α → σ → Prop} {start : σ}
    {labels : List α} {label : α} {holds : σ → Prop} :
    Throughout Step start (labels ++ [label]) holds ↔
      Throughout Step start labels holds ∧
        ∀ state, Run Step start (labels ++ [label]) state →
          holds state := by
  constructor
  · intro always
    constructor
    · rintro before after state rfl
      exact always before (after ++ [label]) state
        (List.append_assoc _ _ _)
    · intro state
      exact always (labels ++ [label]) [] state
        (List.append_nil _).symm
  · rintro ⟨always, last⟩ before after state split run
    rcases List.eq_nil_or_concat after with rfl | ⟨front, final, rfl⟩
    · rw [List.append_nil] at split
      subst split
      exact last state run
    · rw [List.concat_eq_append, ← List.append_assoc] at split
      rcases List.append_inj' split rfl with ⟨rfl, _⟩
      exact always before front state rfl run

/--
A property which a step keeps exactly when the step meets a condition holds
throughout a run exactly when all its steps meet the condition.
-/
theorem Run.throughout_iff {condition : α → σ → Prop}
    (support holds : σ → Prop) {start finish : σ} {labels : List α}
    (run : Run (GuardedStep allowed execute) start labels finish)
    (supported : support start)
    (supports : ∀ state label, support state → allowed label state →
      support (execute label state))
    (initial : holds start)
    (preserved : ∀ state label, support state → holds state →
      allowed label state → condition label state →
        holds (execute label state))
    (broken : ∀ state label, support state → holds state →
      allowed label state → ¬ condition label state →
        ¬ holds (execute label state)) :
    Throughout (GuardedStep allowed execute) start labels holds ↔
      Permitted condition execute start labels := by
  induction run with
  | refl =>
      constructor
      · intro _
        trivial
      · rintro _ before after state split run
        rcases List.append_eq_nil_iff.mp split.symm with ⟨rfl, rfl⟩
        rcases run.eq_of_nil with rfl
        exact initial
  | @snoc middle finish labels label init last induction =>
      have steps := induction
      have held : support middle :=
        init.invariant support supported
          fun state label next reached step => by
            rcases step with ⟨guard, rfl⟩
            exact supports state label reached guard
      rcases last with ⟨guard, rfl⟩
      have middleEqual := init.eq_replay
      rw [throughout_snoc, permitted_snoc, ← middleEqual, steps]
      constructor
      · rintro ⟨met, last⟩
        refine ⟨met, ?_⟩
        by_contra unmet
        have here : holds middle :=
          steps.mpr met labels [] middle (List.append_nil _).symm init
        exact
          broken middle label held here guard unmet
            (last _ (.snoc init ⟨guard, rfl⟩))
      · rintro ⟨met, meets⟩
        refine ⟨met, ?_⟩
        intro state whole
        have here : holds middle :=
          steps.mpr met labels [] middle (List.append_nil _).symm init
        have next := whole.eq_replay
        rw [replay_snoc, ← middleEqual] at next
        rw [next]
        exact preserved middle label held here guard meets

/--
A state is good while all steps meet a condition, and spoiled for good after
the first step that does not.
-/
theorem Run.good_or_spoiled {condition : α → σ → Prop}
    (good spoiled : σ → Prop) {start finish : σ} {labels : List α}
    (run : Run (GuardedStep allowed execute) start labels finish)
    (initial : good start)
    (preserved : ∀ state label, good state → allowed label state →
      condition label state → good (execute label state))
    (breaks : ∀ state label, good state → allowed label state →
      ¬ condition label state → spoiled (execute label state))
    (stays : ∀ state label, spoiled state → allowed label state →
      spoiled (execute label state)) :
    (Permitted condition execute start labels ∧ good finish) ∨
      (¬ Permitted condition execute start labels ∧ spoiled finish) := by
  induction run with
  | refl => exact Or.inl ⟨trivial, initial⟩
  | @snoc middle finish labels label init last induction =>
      rcases last with ⟨guard, rfl⟩
      have middleEqual := init.eq_replay
      rw [permitted_snoc, ← middleEqual]
      rcases induction with ⟨met, fine⟩ | ⟨unmet, bad⟩
      · by_cases meets : condition label middle
        · exact Or.inl
            ⟨⟨met, meets⟩, preserved middle label fine guard meets⟩
        · exact Or.inr
            ⟨fun both => meets both.2,
              breaks middle label fine guard meets⟩
      · exact Or.inr
          ⟨fun both => unmet both.1, stays middle label bad guard⟩

/--
Two conditions which mean the same in every state of a run in which the
second one has always been met are met by the same runs.
-/
theorem Run.permitted_iff {first second : α → σ → Prop}
    (support : σ → Prop) {start finish : σ} {labels : List α}
    (run : Run (GuardedStep allowed execute) start labels finish)
    (supported : support start)
    (same : ∀ state label, support state → allowed label state →
      (first label state ↔ second label state))
    (kept : ∀ state label, support state → allowed label state →
      second label state → support (execute label state)) :
    (Permitted first execute start labels ↔
        Permitted second execute start labels) ∧
      (Permitted second execute start labels → support finish) := by
  induction run with
  | refl => exact ⟨Iff.rfl, fun _ => supported⟩
  | @snoc middle finish labels label init last induction =>
      rcases last with ⟨guard, rfl⟩
      have middleEqual := init.eq_replay
      rw [permitted_snoc, permitted_snoc, ← middleEqual]
      constructor
      · constructor
        · rintro ⟨before, now⟩
          have earlier := induction.1.mp before
          exact ⟨earlier,
            (same middle label (induction.2 earlier) guard).mp now⟩
        · rintro ⟨before, now⟩
          exact ⟨induction.1.mpr before,
            (same middle label (induction.2 before) guard).mpr now⟩
      · rintro ⟨before, now⟩
        exact kept middle label (induction.2 before) guard now

end Guarded
