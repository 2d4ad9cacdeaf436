import Mathlib.Logic.Relation

/-!
# Runs of a labelled transition system

A run is a sequence of labelled steps each of which was taken in a state that
meets a condition on the label; `fun _ _ => True` gives all runs.
-/

namespace PolarDB.Lib.Runs

variable {State Event : Type*}

inductive Run (step : Event → State → State → Prop) (condition : Event → State → Prop)
    (start : State) : State → Prop
  | refl : Run step condition start start
  | tail {middle last : State} {event : Event} (before : Run step condition start middle)
      (taken : step event middle last) (met : condition event middle) :
      Run step condition start last

variable {step : Event → State → State → Prop} {condition : Event → State → Prop} {start st : State}

/-- The condition of a step that it does not restrict is `True`. -/
theorem Run.snoc {middle last : State} {event : Event} (before : Run step condition start middle)
    (taken : step event middle last) (met : condition event middle := by trivial) :
    Run step condition start last :=
  before.tail taken met

/-- What holds at the start and is kept by every admitted step holds in every reached state. -/
theorem Run.invariant (property : State → Prop) (run : Run step condition start st)
    (first : property start) (kept : ∀ event before after,
      property before → step event before after → condition event before → property after) :
      property st := by
  induction run with
  | refl => exact first
  | tail _ taken met known => exact kept _ _ _ known taken met

end PolarDB.Lib.Runs
