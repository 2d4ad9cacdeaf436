import Mathlib.Data.List.Sort

/-!
# Scanning a descending list for a closed interval

`scanDown low high` walks a list from its greatest element, collects what lies in
`[low, high]` so that the last one collected comes first, and stops as soon as no
later element can qualify. The flag says that it stopped.
-/

namespace PolarDB.Lib.Scan

open List

def scanDown (low high : Nat) : List Nat → List Nat → List Nat × Bool
  | [], found => (found, false)
  | value :: rest, found =>
    if low ≤ value ∧ value ≤ high then
      if value = low then (value :: found, true) else scanDown low high rest (value :: found)
    else if value < low then (found, true)
    else scanDown low high rest found

variable {low high : Nat}

theorem scan_down_append (left right found : List Nat) : scanDown low high (left ++ right) found =
      if (scanDown low high left found).2 = true then scanDown low high left found
      else scanDown low high right (scanDown low high left found).1 := by
  induction left generalizing found with
  | nil => simp [scanDown]
  | cons _ _ ih =>
    simp only [cons_append, scanDown]
    split_ifs <;> simp_all

variable (values found : List Nat)
include values found

theorem scan_down_below (below : ∀ value ∈ values, value < low) :
    (scanDown low high values found).1 = found := by
  cases values with
  | nil => rfl
  | cons value =>
    have less := below value mem_cons_self
    have outside : ¬(low ≤ value ∧ value ≤ high) := by omega
    rw [scanDown, if_neg outside, if_pos less]

theorem scan_down_above (bounds : low ≤ high)
    (above : ∀ value ∈ values, high < value) : scanDown low high values found = (found, false) := by
  induction values with
  | nil => rfl
  | cons value _ ih =>
    have greater := above value mem_cons_self
    have outside : ¬(low ≤ value ∧ value ≤ high) := by omega
    have notBelow : ¬value < low := by omega
    rw [scanDown, if_neg outside, if_neg notBelow]
    exact ih fun other mem => above other (mem_cons_of_mem _ mem)

theorem scan_down_congr {other : Nat} (same : ∀ value ∈ values, value ≤ other ↔ value ≤ high) :
    scanDown low other values found = scanDown low high values found := by
  induction values generalizing found with
  | nil => rfl
  | cons value _ ih =>
    have tail := fun found => ih found fun value mem => same value (mem_cons_of_mem _ mem)
    simp only [scanDown, same value mem_cons_self, tail]

/-- On a strictly descending list the scan finds exactly the interval, in ascending
order. -/
theorem scan_down_filter (descending : values.Pairwise (· > ·)) :
      (scanDown low high values found).1 =
      (values.filter fun value => decide (low ≤ value ∧ value ≤ high)).reverse ++ found := by
  induction values generalizing found with
  | nil => rfl
  | cons value rest ih =>
    have order := pairwise_cons.mp descending
    have tail := fun found => ih found order.2
    have none (last : value ≤ low) :
      rest.filter (fun value => decide (low ≤ value ∧ value ≤ high)) = [] := by
      rw [filter_eq_nil_iff]
      intro other mem
      have less := order.1 other mem
      simp only [decide_eq_true_eq]
      omega
    rw [scanDown]
    split
    · next inside =>
      rw [filter_cons_of_pos (by simpa using inside)]
      split_ifs with least
      · rw [none (least.le)]
        rfl
      · rw [tail]
        simp
    · next inside =>
      rw [filter_cons_of_neg (by simpa using inside)]
      split_ifs with below
      · rw [none below.le]
        rfl
      · rw [tail]

end PolarDB.Lib.Scan
