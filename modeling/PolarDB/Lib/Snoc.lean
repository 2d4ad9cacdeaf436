import Mathlib.Data.List.Basic

/-!
# Lists that grow at their end
-/

namespace PolarDB.Lib.Snoc

open List

variable {Entry : Type*} {front : List Entry} {last : Entry}

theorem forall_mem_snoc {property : Entry → Prop} :
    (∀ entry ∈ front ++ [last], property entry) ↔ (∀ entry ∈ front, property entry) ∧
    property last := by
  rw [forall_mem_append, forall_mem_singleton]

theorem pairwise_snoc {relation : Entry → Entry → Prop} :
    (front ++ [last]).Pairwise relation ↔ front.Pairwise relation ∧
    ∀ entry ∈ front, relation entry last := by
  simp [pairwise_append]

theorem getElem_snoc {pos : Nat} {found : Entry} (isSome : (front ++ [last])[pos]? = some found) :
    front[pos]? = some found ∧ pos < front.length ∨ pos = front.length ∧ found = last := by
  obtain ⟨within, _⟩ := List.getElem?_eq_some_iff.mp isSome
  rw [length_append, length_singleton] at within
  by_cases old : pos < front.length
  · rw [List.getElem?_append_left old] at isSome
    exact .inl ⟨isSome, old⟩
  · have here : pos = front.length := by omega
    subst here
    rw [List.getElem?_concat_length] at isSome
    exact .inr ⟨rfl, (Option.some.inj isSome).symm⟩

end PolarDB.Lib.Snoc
