import Mathlib.Algebra.BigOperators.Group.List.Basic
import Mathlib.Algebra.GroupWithZero.Nat

/-!
# Items laid out one behind the other

`offset weight items index` is where the item with this index starts when the items take
`weight` cells each. The offsets of the items before do not depend on what comes after.
-/

namespace PolarDB.Lib.Offsets

open List

variable {Item : Type} {weight : Item → Nat} {items : List Item}

def offset (weight : Item → Nat) (items : List Item) (idx : Nat) : Nat :=
  ((items.take idx).map weight).sum

theorem offset_succ {idx : Nat} {item : Item} (found : items[idx]? = some item) :
    offset weight items (idx + 1) = offset weight items idx + weight item := by
  rw [offset, take_add_one, found, map_append, sum_append]
  rfl

theorem offset_le_succ (idx : Nat) : offset weight items idx ≤ offset weight items (idx + 1) := by
  cases found : items[idx]? with
  | some =>
    rw [offset_succ found]
    omega
  | none =>
    have same : items.take (idx + 1) = items.take idx := by
      rw [take_add_one, found, Option.toList_none, append_nil]
    exact Nat.le_of_eq (by rw [offset, offset, same])

theorem offset_mono {first last : Nat} (order : first ≤ last) :
    offset weight items first ≤ offset weight items last := by
  induction order with
  | refl => exact Nat.le_refl _
  | step _ ih => exact Nat.le_trans ih (offset_le_succ _)

theorem offset_add_le {idx last : Nat} {item : Item} (found : items[idx]? = some item)
    (later : idx < last) : offset weight items idx + weight item ≤ offset weight items last := by
  rw [← offset_succ found]
  exact offset_mono later

theorem offset_append {idx : Nat} (within : idx ≤ items.length) (more : List Item) :
    offset weight (items ++ more) idx = offset weight items idx := by
  rw [offset, offset, take_append_of_le_length within]

theorem offset_snoc (item : Item) :
    offset weight (items ++ [item]) (items.length + 1) = offset weight items items.length +
    weight item := by
  rw [offset_succ List.getElem?_concat_length, offset_append (Nat.le_refl _)]

theorem offset_set {place : Nat} {item other : Item} (found : items[place]? = some item)
    (same : weight other = weight item) (idx : Nat) :
    offset weight (items.set place other) idx = offset weight items idx := by
  have mapped : (items.set place other).map weight = items.map weight := by
    obtain ⟨_, value⟩ := List.getElem?_eq_some_iff.mp found
    have there : place < (items.map weight).length := by rwa [length_map]
    have current : (items.map weight)[place] = weight item := by rw [getElem_map, value]
    rw [map_set, same, ← current, set_getElem_self]
  rw [offset, offset, map_take, map_take, mapped]

end PolarDB.Lib.Offsets
