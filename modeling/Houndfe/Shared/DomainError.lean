import Mathlib.Tactic.Common

/-! Domain errors: the class a violation is raised with, its message and its code.
The structured `details` of a violation are not modelled; nothing reads them. -/

namespace Houndfe

/-- The classes of `domain-error.ts` that the modelled code raises. -/
inductive ErrorClass where
  | entityNotFound
  | businessRuleViolation
  | invalidArgument
  | entityAlreadyExists
  deriving DecidableEq, Repr

structure DomainError where
  errorClass : ErrorClass
  message : String
  code : String
  deriving DecidableEq, Repr

def entityNotFoundError (entityName id : String) : DomainError :=
  ⟨.entityNotFound, entityName ++ " with id \"" ++ id ++ "\" not found", "ENTITY_NOT_FOUND"⟩

def entityAlreadyExistsError (entityName identifier : String) : DomainError :=
  ⟨.entityAlreadyExists, entityName ++ " \"" ++ identifier ++ "\" already exists",
    "ENTITY_ALREADY_EXISTS"⟩

def businessRuleViolationError (message code : String) : DomainError :=
  ⟨.businessRuleViolation, message, code⟩

/-- Most rules use their code as the message. -/
def ruleCode (code : String) : DomainError :=
  businessRuleViolationError code code

def invalidArgumentError (message : String) : DomainError :=
  ⟨.invalidArgument, message, "INVALID_ARGUMENT"⟩

def invalidArgumentWithCode (message code : String) : DomainError :=
  ⟨.invalidArgument, message, code⟩

/-- `if (bad) throw error`. -/
def throwIf (bad : Prop) [Decidable bad] (error : DomainError) : Except DomainError Unit :=
  if bad then .error error else .ok ()

section

variable {ε α β : Type}

/-- A sequence succeeds when both of its parts do. -/
theorem bind_eq_ok {x : Except ε α} {f : α → Except ε β} {b : β} :
    (x >>= f) = .ok b ↔ ∃ a, x = .ok a ∧ f a = .ok b := by
  cases x with
  | error e => simp [bind, Except.bind]
  | ok a => simp [bind, Except.bind]

/-- A sequence that succeeds has got past a check in front of it. -/
theorem past {x : Except ε Unit} {y : Except ε β} {b : β} (h : (x >>= fun _ => y) = .ok b) :
    y = .ok b := by
  obtain ⟨_, _, hRest⟩ := bind_eq_ok.mp h
  exact hRest

theorem map_bind (x : Except ε α) (f : α → Except ε β) {γ : Type} (g : β → γ) :
    (x >>= f).map g = x >>= fun a => (f a).map g := by
  cases x <;> rfl

theorem pure_eq_ok {a b : α} : (pure a : Except ε α) = .ok b ↔ a = b := by
  simp [pure, Except.pure]

theorem throwIf_eq_ok {bad : Prop} [Decidable bad] {error : DomainError} {u : Unit} :
    throwIf bad error = .ok u ↔ ¬ bad := by
  by_cases h : bad <;> simp [throwIf, h]

end

end Houndfe
