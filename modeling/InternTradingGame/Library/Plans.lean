import InternTradingGame.Library.Effects
import Mathlib.Order.Basic

/-!
# Programs which carry out a plan

A plan lists the effects a program is about to have, in their order.  Some
effects are impossible: the program raises when it comes to the first of
them, and what it has done until then stays.  So a program which raises
leaves its state alone exactly if the impossible effect is the first one.

Only a view of the state is observed, and every effect raises the rank of
what is seen.
-/

namespace Effects

universe u

variable {ε σ α β υ : Type u} {τ κ γ : Type*} [Preorder γ]

/-! ## Plans -/

/-- Nothing is done before the first impossible effect of the plan. -/
def Safe (possible : κ → Prop) (plan : List κ) : Prop :=
  (∀ effect ∈ plan, possible effect) ∨
    ∃ effect rest, plan = effect :: rest ∧ ¬ possible effect

theorem safe_cons {possible : κ → Prop} {effect : κ} {rest : List κ} :
    Safe possible (effect :: rest) ↔
      possible effect → ∀ later ∈ rest, possible later := by
  constructor
  · rintro (all | ⟨first, others, split, impossible⟩) now later member
    · exact all later (List.mem_cons_of_mem _ member)
    · rcases List.cons.inj split with ⟨rfl, _⟩
      exact absurd now impossible
  · intro follows
    by_cases now : possible effect
    · refine Or.inl fun other member => ?_
      rcases List.mem_cons.mp member with rfl | later
      · exact now
      · exact follows now other later
    · exact Or.inr ⟨effect, rest, rfl, now⟩

instance Safe.decidable (possible : κ → Prop) [DecidablePred possible] :
    ∀ plan : List κ, Decidable (Safe possible plan)
  | [] => isTrue (Or.inl fun _ impossible => nomatch impossible)
  | _ :: _ => decidable_of_iff _ safe_cons.symm

/-- The effects have been carried out; each of them shows. -/
def Done (view : σ → τ) (rank : τ → γ) (effects : List κ)
    (state reached : σ) : Prop :=
  match effects with
  | [] => view reached = view state
  | _ :: _ => rank (view state) < rank (view reached)

section Done

variable {view : σ → τ} {rank : τ → γ} {early late : List κ}
  {state middle reached : σ}

theorem Done.le (done : Done view rank early state reached) :
    rank (view state) ≤ rank (view reached) := by
  cases early with
  | nil => exact (congrArg rank done).ge
  | cons effect rest => exact le_of_lt done

theorem Done.append (first : Done view rank early state middle)
    (second : Done view rank late middle reached) :
    Done view rank (early ++ late) state reached := by
  cases early with
  | nil =>
      have same : view middle = view state := first
      cases late with
      | nil => exact second.trans same
      | cons effect rest =>
          show rank (view state) < rank (view reached)
          rw [← same]
          exact second
  | cons effect rest => exact lt_of_lt_of_le first second.le

end Done

/-! ## Carrying out a plan -/

/--
The program has the effects of the plan, or raises when it comes to one that
is not possible.
-/
def CarriesOut (view : σ → τ) (rank : τ → γ) (possible : κ → Prop)
    (program : EStateM ε σ α) (state : σ) (plan : List κ)
    (normal : α → σ → Prop) : Prop :=
  Ends program state
    (fun value reached =>
      (∀ effect ∈ plan, possible effect) ∧
        Done view rank plan state reached ∧ normal value reached)
    (fun _ reached =>
      ∃ before effect after, plan = before ++ effect :: after ∧
        (∀ earlier ∈ before, possible earlier) ∧ ¬ possible effect ∧
        Done view rank before state reached)

namespace CarriesOut

variable {view : σ → τ} {rank : τ → γ} {possible : κ → Prop}
  {state : σ} {plan early late : List κ}

theorem mono {program : EStateM ε σ α} {normal normal' : α → σ → Prop}
    (carries :
      CarriesOut view rank possible program state plan normal)
    (weaker : ∀ value reached, normal value reached →
      normal' value reached) :
    CarriesOut view rank possible program state plan normal' :=
  Ends.mono carries
    (fun value reached facts =>
      ⟨facts.1, facts.2.1, weaker value reached facts.2.2⟩)
    (fun _ _ facts => facts)

/-- What else is known of a program which carries out a plan. -/
theorem and {program : EStateM ε σ α} {normal normal' : α → σ → Prop}
    {raised : ε → σ → Prop}
    (carries :
      CarriesOut view rank possible program state plan normal)
    (ends : Ends program state normal' raised) :
    CarriesOut view rank possible program state plan
      (fun value reached => normal value reached ∧ normal' value reached) :=
  (Ends.and carries ends).mono
    (fun _ _ facts =>
      ⟨facts.1.1, facts.1.2.1, facts.1.2.2, facts.2⟩)
    (fun _ _ facts => facts.1)

/-- A program without visible effects carries out the empty plan. -/
theorem of_ends {program : EStateM ε σ α} {normal : α → σ → Prop}
    (ends : Ends program state
      (fun value reached => view reached = view state ∧
        normal value reached)
      (fun _ _ => False)) :
    CarriesOut view rank possible program state [] normal :=
  ends.mono (fun _ _ facts => ⟨fun _ => nofun, facts.1, facts.2⟩)
    (fun _ _ impossible => impossible.elim)

/-- First one plan, then another one. -/
theorem bind {first : EStateM ε σ α} {next : α → EStateM ε σ β}
    {middle : α → σ → Prop} {normal : β → σ → Prop}
    (head :
      CarriesOut view rank possible first state early middle)
    (tail : ∀ value reached, (∀ effect ∈ early, possible effect) →
      middle value reached →
        CarriesOut view rank possible (next value) reached late normal) :
    CarriesOut view rank possible (first >>= next) state (early ++ late)
      normal := by
  have start : Ends first state
      (fun value reached =>
        (∀ effect ∈ early, possible effect) ∧
          Done view rank early state reached ∧ middle value reached)
      (fun _ reached =>
        ∃ before effect after,
          early ++ late = before ++ effect :: after ∧
            (∀ earlier ∈ before, possible earlier) ∧ ¬ possible effect ∧
            Done view rank before state reached) := by
    refine Ends.mono head (fun _ _ facts => facts) ?_
    rintro exception reached
      ⟨before, effect, after, rfl, fine, impossible, done⟩
    exact ⟨before, effect, after ++ late, by simp, fine, impossible,
      done⟩
  apply Ends.bind start
  rintro value reached ⟨fine, done, holds⟩
  refine Ends.mono (tail value reached fine holds) ?_ ?_
  · rintro result final ⟨laterFine, laterDone, laterHolds⟩
    refine ⟨?_, done.append laterDone, laterHolds⟩
    intro effect member
    rcases List.mem_append.mp member with inEarly | inLate
    · exact fine effect inEarly
    · exact laterFine effect inLate
  · rintro exception final
      ⟨before, effect, after, rfl, laterFine, impossible, laterDone⟩
    refine ⟨early ++ before, effect, after, by simp, ?_, impossible,
      done.append laterDone⟩
    intro earlier member
    rcases List.mem_append.mp member with inEarly | inBefore
    · exact fine earlier inEarly
    · exact laterFine earlier inBefore

/-- The rule for loops over a list: one plan after another. -/
theorem forM {body : α → EStateM ε σ PUnit} {effects : α → List κ}
    (invariant : List α → σ → Prop)
    (step : ∀ element rest state, invariant (element :: rest) state →
      CarriesOut view rank possible (body element) state
        (effects element) (fun _ => invariant rest))
    (elements : List α) {state : σ}
    (start : invariant elements state) :
    CarriesOut view rank possible (elements.forM body) state
      (elements.flatMap effects) (fun _ => invariant []) := by
  induction elements generalizing state with
  | nil => exact ⟨fun _ => nofun, rfl, start⟩
  | cons element rest induction =>
      change CarriesOut view rank possible
        (body element >>= fun _ => rest.forM body) state _ _
      exact (step element rest state start).bind
        fun _ _ _ reached => induction reached

/-- A program of a part, when the whole shows what the part shows. -/
theorem zoom {part : σ → υ} {update : υ → σ → σ}
    {partView : υ → τ} {program : EStateM ε υ α}
    {normal : α → υ → Prop}
    (before : view state = partView (part state))
    (after : ∀ reached, view (update reached state) = partView reached)
    (carries :
      CarriesOut partView rank possible program (part state) plan
        normal) :
    CarriesOut view rank possible (Effects.zoom part update program) state
      plan
      (fun value reached =>
        ∃ inner, reached = update inner state ∧ normal value inner) := by
  have done : ∀ (effects : List κ) (reached : υ),
      Done partView rank effects (part state) reached →
        Done view rank effects state (update reached state) := by
    intro effects reached done
    cases effects with
    | nil =>
        show view (update reached state) = view state
        rw [after, before]
        exact done
    | cons effect rest =>
        show rank (view state) < rank (view (update reached state))
        rw [after, before]
        exact done
  apply Ends.zoom
  refine Ends.mono carries ?_ ?_
  · rintro value reached ⟨fine, carried, holds⟩
    exact ⟨fine, done _ _ carried, reached, rfl, holds⟩
  · rintro exception reached
      ⟨earlier, effect, later, split, fine, impossible, carried⟩
    exact ⟨earlier, effect, later, split, fine, impossible,
      done _ _ carried⟩

/--
An exception leaves the state alone exactly if the plan is safe, whatever
being left alone means between the view and its rank.
-/
theorem unchanged_iff {program : EStateM ε σ α}
    {normal : α → σ → Prop} (alone : σ → Prop)
    (carries :
      CarriesOut view rank possible program state plan normal)
    (enough : ∀ reached, view reached = view state → alone reached)
    (shows : ∀ reached, alone reached →
      rank (view reached) = rank (view state)) :
    (∀ exception reached, program state = .error exception reached →
        alone reached) ↔
      Safe possible plan := by
  cases evaluated : program state with
  | ok value reached =>
      have facts := Ends.elim_ok carries evaluated
      constructor
      · exact fun _ => Or.inl facts.1
      · exact fun _ _ _ impossible => nomatch impossible
  | error exception reached =>
      rcases Ends.elim_error carries evaluated with
        ⟨before, effect, after, rfl, fine, impossible, done⟩
      cases before with
      | nil =>
          constructor
          · exact fun _ => Or.inr ⟨effect, after, rfl, impossible⟩
          · rintro _ other final ⟨⟩
            exact enough reached done
      | cons first rest =>
          constructor
          · intro unchanged
            have same := shows reached (unchanged exception reached rfl)
            exact absurd same (ne_of_gt done)
          · intro safe
            have follows := safe_cons.mp safe
              (fine first List.mem_cons_self)
            exact absurd
              (follows effect
                (List.mem_append_right _ List.mem_cons_self))
              impossible

/-- The program raises exactly if some effect is impossible. -/
theorem returns_iff {program : EStateM ε σ α}
    {normal : α → σ → Prop}
    (carries :
      CarriesOut view rank possible program state plan normal) :
    (∃ value reached, program state = .ok value reached) ↔
      ∀ effect ∈ plan, possible effect := by
  cases evaluated : program state with
  | ok value reached =>
      exact ⟨fun _ => (Ends.elim_ok carries evaluated).1,
        fun _ => ⟨value, reached, rfl⟩⟩
  | error exception reached =>
      rcases Ends.elim_error carries evaluated with
        ⟨before, effect, after, rfl, _, impossible, _⟩
      constructor
      · rintro ⟨_, _, returned⟩
        cases returned
      · intro all
        exact absurd
          (all effect (List.mem_append_right _ List.mem_cons_self))
          impossible

end CarriesOut

end Effects
