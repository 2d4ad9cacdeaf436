import Mathlib.Data.List.Basic
import Mathlib.Order.Lattice

/-!
# Extrema computed by a left fold

A running maximum ends at any bound that is attained, and a running minimum is the
same statement in the dual order.
-/

namespace PolarDB.Lib.Fold

variable {Value : Type*} {Order : Type*} [LinearOrder Order]

section
variable (measure : Value → Order) (values : List Value) (start bound : Order)

theorem foldl_max_eq (startLe : start ≤ bound) (below : ∀ value ∈ values, measure value ≤ bound)
    (attained : start = bound ∨ ∃ value ∈ values, measure value = bound) :
    values.foldl (fun greatest value => max greatest (measure value)) start = bound := by
  induction values generalizing start with
  | nil =>
    rcases attained with same | ⟨value, mem, -⟩
    · exact same
    · simp at mem
  | cons first _ ih =>
    have firstLe := below first (by simp)
    apply ih
    · exact max_le startLe firstLe
    · intro value mem
      exact below value (by simp [mem])
    · rcases attained with same | ⟨value, mem, same⟩
      · left
        subst same
        exact max_eq_left firstLe
      rcases List.mem_cons.mp mem with rfl | later
      · left
        subst same
        exact max_eq_right startLe
      · right
        exact ⟨value, later, same⟩

theorem foldl_min_eq (leStart : bound ≤ start) (above : ∀ value ∈ values, bound ≤ measure value)
    (attained : start = bound ∨ ∃ value ∈ values, measure value = bound) :
    values.foldl (fun least value => min least (measure value)) start = bound :=
  foldl_max_eq (fun value => OrderDual.toDual (measure value)) values (OrderDual.toDual start)
    (OrderDual.toDual bound) leStart above attained

end

end PolarDB.Lib.Fold
