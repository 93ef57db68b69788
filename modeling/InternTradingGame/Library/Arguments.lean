import InternTradingGame.Library.OrderedDict

/-!
# Calls with keyword arguments

A function has required parameters and parameters with a default.  A call
passes a dictionary of keyword arguments.  It is accepted if and only if it
names no other parameter and leaves out no required one; then every
parameter is bound to its argument or to its default.
-/

/-- The parameters a function takes by keyword. -/
structure Signature (ν : Type*) where
  required : List String
  optional : List (String × ν)

/-- Why a call is not accepted. -/
inductive ArgumentError where
  | unexpected (name : String)
  | missing (names : List String)
deriving DecidableEq, Repr

namespace Signature

variable {ν : Type*}

/-- All parameters, in their order. -/
def names (signature : Signature ν) : List String :=
  signature.required ++ signature.optional.map Prod.fst

/-- The call names only parameters, and all the required ones. -/
structure Accepts (signature : Signature ν) (passed : List String) :
    Prop where
  known : ∀ name ∈ passed, name ∈ signature.names
  complete : ∀ name ∈ signature.required, name ∈ passed

instance (signature : Signature ν) (passed : List String) :
    Decidable (signature.Accepts passed) :=
  decidable_of_iff
    ((∀ name ∈ passed, name ∈ signature.names) ∧
      ∀ name ∈ signature.required, name ∈ passed)
    ⟨fun both => ⟨both.1, both.2⟩,
      fun accepts => ⟨accepts.known, accepts.complete⟩⟩

/-- The default of a parameter, if it has one. -/
def default? (signature : Signature ν) (name : String) : Option ν :=
  (signature.optional.find? fun parameter => parameter.1 = name).map
    Prod.snd

/-- The value of every parameter, once the call is accepted. -/
def argument [Inhabited ν] (signature : Signature ν)
    (keywords : OrderedDict String ν) (name : String) : ν :=
  match keywords.get? name with
  | some value => value
  | none => (signature.default? name).getD default

/-- Bind the keyword arguments of a call to the parameters. -/
def bind [Inhabited ν] (signature : Signature ν)
    (keywords : OrderedDict String ν) :
    Except ArgumentError (String → ν) :=
  match keywords.keys.find? fun name => name ∉ signature.names with
  | some name => .error (.unexpected name)
  | none =>
      match signature.required.filter fun name =>
          name ∉ keywords.keys with
      | [] => .ok (signature.argument keywords)
      | missing => .error (.missing missing)

section Bind

variable [Inhabited ν] {signature : Signature ν}
  {keywords : OrderedDict String ν}

/-- An accepted call binds every parameter. -/
theorem bind_of_accepts (accepts : signature.Accepts keywords.keys) :
    signature.bind keywords = .ok (signature.argument keywords) := by
  have noneUnknown : (keywords.keys.find? fun name =>
      name ∉ signature.names) = none := by
    rw [List.find?_eq_none]
    intro name passed
    simpa using accepts.known name passed
  have noneMissing : (signature.required.filter fun name =>
      name ∉ keywords.keys) = [] := by
    rw [List.filter_eq_nil_iff]
    intro name required
    simpa using accepts.complete name required
  simp only [bind, noneUnknown, noneMissing]

/-- Any other call raises. -/
theorem bind_of_not_accepts
    (refuses : ¬ signature.Accepts keywords.keys) :
    ∃ error, signature.bind keywords = .error error := by
  cases unknown : keywords.keys.find? fun name =>
      name ∉ signature.names with
  | some name =>
      exact ⟨.unexpected name, by simp only [bind, unknown]⟩
  | none =>
      cases missing : signature.required.filter fun name =>
          name ∉ keywords.keys with
      | cons name rest =>
          exact ⟨.missing (name :: rest), by
            simp only [bind, unknown, missing]⟩
      | nil =>
          refine absurd ⟨?_, ?_⟩ refuses
          · intro name passed
            have known := List.find?_eq_none.mp unknown name passed
            simpa using known
          · intro name required
            have present := List.filter_eq_nil_iff.mp missing name required
            simpa using present

end Bind

end Signature
