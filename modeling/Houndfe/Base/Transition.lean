import Mathlib.Logic.Relation
import Mathlib.Data.List.Basic

/-! Labelled transition systems: finite runs, the rule that carries an invariant
along a run, and runs all of whose steps satisfy a guard. -/

namespace Transition

variable {State Label : Type*}

/-- One possible execution of `step`, with the labels it took in order. -/
inductive Runs (step : State → Label → State → Prop) : State → List Label → State → Prop where
  | zero (c : State) : Runs step c [] c
  | succ {c d e : State} {labels : List Label} {label : Label}
      (prior : Runs step c labels d) (last : step d label e) :
      Runs step c (labels ++ [label]) e

/-- The relation of a partial step function. -/
def Fires (step : State → Label → Option State) (c : State) (label : Label) (d : State) : Prop :=
  step c label = some d

/-- The steps of a system that start where `guard` holds. -/
def Guarded (step : State → Label → State → Prop) (guard : State → Label → Prop)
    (c : State) (label : Label) (d : State) : Prop :=
  step c label d ∧ guard c label

theorem Runs.single {step : State → Label → State → Prop} {c d : State} {label : Label}
    (h : step c label d) : Runs step c [label] d :=
  Runs.succ (Runs.zero c) h

theorem Runs.eq_of_nil {step : State → Label → State → Prop} {c d : State}
    (run : Runs step c [] d) : d = c := by
  generalize hLabels : ([] : List Label) = labels at run
  cases run with
  | zero => rfl
  | succ prior last => simp at hLabels

theorem Runs.of_single {step : State → Label → State → Prop} {c d : State} {label : Label}
    (run : Runs step c [label] d) : step c label d := by
  generalize hLabels : [label] = labels at run
  cases run with
  | zero => cases hLabels
  | @succ _ _ before last prior hLast =>
      have hSplit : [] ++ [label] = before ++ [last] := hLabels
      obtain ⟨rfl, hSame⟩ := List.append_inj' hSplit rfl
      obtain rfl := List.singleton_inj.mp hSame
      exact prior.eq_of_nil ▸ hLast

/-- Runs concatenate, and so do their labels. -/
theorem Runs.trans {step : State → Label → State → Prop} {c d e : State}
    {first second : List Label} (left : Runs step c first d) (right : Runs step d second e) :
    Runs step c (first ++ second) e := by
  induction right with
  | zero => simpa using left
  | succ prior last ih => simpa [← List.append_assoc] using Runs.succ ih last

/-- The invariant rule: what holds at the start and is kept by every step
holds in every state reached. -/
theorem Runs.invariant {step : State → Label → State → Prop} {Inv : State → Prop}
    {c d : State} {labels : List Label} (run : Runs step c labels d)
    (hStep : ∀ c label d, Inv c → step c label d → Inv d) (hStart : Inv c) : Inv d := by
  induction run with
  | zero => exact hStart
  | succ prior last ih => exact hStep _ _ _ ih last

/-- A reflexive and transitive relation that every step respects from an
invariant state relates the two ends of a run. -/
theorem Runs.related (Inv : State → Prop) (Rel : State → State → Prop)
    {step : State → Label → State → Prop} {c d : State} {labels : List Label}
    (run : Runs step c labels d) (hRefl : ∀ c, Rel c c)
    (hTrans : ∀ c d e, Rel c d → Rel d e → Rel c e)
    (hInv : ∀ c label d, Inv c → step c label d → Inv d)
    (hStep : ∀ c label d, Inv c → step c label d → Rel c d) (hStart : Inv c) : Rel c d := by
  induction run with
  | zero => exact hRefl _
  | succ prior last ih =>
      have hMiddle := prior.invariant hInv hStart
      exact hTrans _ _ _ ih (hStep _ _ _ hMiddle last)

theorem Runs.mono {step step' : State → Label → State → Prop} {c d : State}
    {labels : List Label} (run : Runs step c labels d)
    (hStep : ∀ c label d, step c label d → step' c label d) : Runs step' c labels d := by
  induction run with
  | zero => exact Runs.zero _
  | succ prior last ih => exact Runs.succ ih (hStep _ _ _ last)

theorem Runs.of_guarded {step : State → Label → State → Prop} {guard : State → Label → Prop}
    {c d : State} {labels : List Label} (run : Runs (Guarded step guard) c labels d) :
    Runs step c labels d :=
  run.mono fun _ _ _ h => h.1

/-- Execute a list of labels, stopping at the first that is not enabled. -/
def exec (step : State → Label → Option State) (c : State) : List Label → Option State
  | [] => some c
  | label :: rest => (step c label).bind fun d => exec step d rest

theorem exec_append {step : State → Label → Option State} {c : State} {first second : List Label} :
    exec step c (first ++ second) = (exec step c first).bind fun d => exec step d second := by
  induction first generalizing c with
  | nil => rfl
  | cons label rest ih =>
      simp only [List.cons_append, exec, Option.bind_assoc]
      exact congrArg _ (funext fun _ => ih)

theorem runs_of_exec {step : State → Label → Option State} {c d : State} {labels : List Label}
    (h : exec step c labels = some d) : Runs (Fires step) c labels d := by
  induction labels generalizing c with
  | nil =>
      cases h
      exact Runs.zero _
  | cons label rest ih =>
      obtain ⟨middle, hFirst, hRest⟩ := Option.bind_eq_some_iff.mp h
      exact (Runs.single hFirst).trans (ih hRest)

/-- Every label is admitted in the state where it comes up. -/
def Admits (admitted : State → Label → Prop) (serve : State → Label → State) :
    State → List Label → Prop
  | _, [] => True
  | c, label :: rest => admitted c label ∧ Admits admitted serve (serve c label) rest

/-- Serving admitted labels one after another is a run. -/
theorem runs_foldl {step : State → Label → State → Prop} {admitted : State → Label → Prop}
    {serve : State → Label → State} (hStep : ∀ c label, admitted c label →
      step c label (serve c label)) {c : State} {labels : List Label}
    (h : Admits admitted serve c labels) : Runs step c labels (labels.foldl serve c) := by
  induction labels generalizing c with
  | nil => exact Runs.zero c
  | cons label rest ih => exact (Runs.single (hStep c label h.1)).trans (ih h.2)

/-- A step that checks its guard first runs guarded. -/
theorem runs_guarded_of_exec {step : State → Label → Option State} {guard : State → Label → Prop}
    [∀ c label, Decidable (guard c label)] {c d : State} {labels : List Label}
    (h : exec (fun c label => if guard c label then step c label else none) c labels = some d) :
    Runs (Guarded (Fires step) guard) c labels d := by
  apply (runs_of_exec h).mono
  intro c label d hStep
  obtain ⟨hGuard, hFires⟩ := Option.ite_none_right_eq_some.mp hStep
  exact ⟨hFires, hGuard⟩

end Transition
