import Mathlib.Data.List.Basic

/-! The three-valued logic of SQL. A clause is definite when it is never unknown; definite
clauses compose as Booleans do. -/

namespace ThreeValued

inductive Truth where
  | yes
  | no
  | unknown
  deriving DecidableEq, Repr

def Truth.ofBool : Bool → Truth
  | true => .yes
  | false => .no

def Truth.not : Truth → Truth
  | .yes => .no
  | .no => .yes
  | .unknown => .unknown

def Truth.and : Truth → Truth → Truth
  | .no, _ => .no
  | _, .no => .no
  | .yes, .yes => .yes
  | _, _ => .unknown

def Truth.or : Truth → Truth → Truth
  | .yes, _ => .yes
  | _, .yes => .yes
  | .no, .no => .no
  | _, _ => .unknown

def all (values : List Truth) : Truth :=
  values.foldr Truth.and .yes

def any (values : List Truth) : Truth :=
  values.foldr Truth.or .no

@[simp] theorem ofBool_eq_yes {b : Bool} : Truth.ofBool b = .yes ↔ b = true := by
  cases b <;> simp [Truth.ofBool]

@[simp] theorem not_ofBool (b : Bool) : (Truth.ofBool b).not = .ofBool (!b) := by
  cases b <;> rfl

@[simp] theorem and_ofBool (a b : Bool) :
    (Truth.ofBool a).and (.ofBool b) = .ofBool (a && b) := by
  cases a <;> cases b <;> rfl

@[simp] theorem or_ofBool (a b : Bool) : (Truth.ofBool a).or (.ofBool b) = .ofBool (a || b) := by
  cases a <;> cases b <;> rfl

@[simp] theorem all_nil : all [] = .ofBool true := rfl

@[simp] theorem all_cons (value : Truth) (rest : List Truth) :
    all (value :: rest) = value.and (all rest) := rfl

@[simp] theorem any_nil : any [] = .ofBool false := rfl

@[simp] theorem any_cons (value : Truth) (rest : List Truth) :
    any (value :: rest) = value.or (any rest) := rfl

variable {α : Type*} {eval : α → Truth} {p : α → Bool} {clauses : List α}

end ThreeValued
