import Mathlib.Data.List.Induction
import PolarDB.Lib.Snoc

/-!
# Histories whose entries were admissible when they were appended
-/

namespace PolarDB.Lib.History

open List

variable {Entry : Type*} {admissible : List Entry → Entry → Prop}

def Admitted (admissible : List Entry → Entry → Prop) (history : List Entry) : Prop :=
  ∀ before entry after, history = before ++ entry :: after → admissible before entry

theorem admitted_nil : Admitted admissible [] := by
  intro _ _ _ split
  exact absurd split (by simp)

theorem admitted_snoc {history : List Entry} {entry : Entry} :
    Admitted admissible (history ++ [entry]) ↔ Admitted admissible history ∧
    admissible history entry := by
  constructor
  · intro admitted
    constructor
    · intro before other after split
      apply admitted before other (after ++ [entry])
      rw [split, append_assoc, cons_append]
    · exact admitted history entry [] rfl
  · intro admitted before other after split
    rcases eq_nil_or_concat after with empty | ⟨front, last, whole⟩
    · subst empty
      have same := append_inj' split rfl
      rw [← same.1, ← (List.cons.inj same.2).1]
      exact admitted.2
    · rw [concat_eq_append] at whole
      subst whole
      rw [← cons_append, ← append_assoc] at split
      exact admitted.1 before other front (append_inj' split rfl).1

/-- A relation that admission gives against every earlier entry holds pairwise. -/
theorem Admitted.pairwise {relation : Entry → Entry → Prop} {history : List Entry}
    (admitted : Admitted admissible history)
    (relate : ∀ before entry, admissible before entry → ∀ earlier ∈ before,
      relation earlier entry) : history.Pairwise relation := by
  induction history using List.reverseRecOn with
  | nil => exact List.Pairwise.nil
  | append_singleton before entry ih =>
    rcases admitted_snoc.mp admitted with ⟨early, admits⟩
    exact Snoc.pairwise_snoc.mpr ⟨ih early, relate before entry admits⟩

end PolarDB.Lib.History
