import Mathlib.Data.List.Basic
import Mathlib.Data.Nat.ModEq

/-!
# Circular memory

Cells addressed by an absolute position that is taken modulo the size. A copy that
reaches the end of the memory is done in two linear parts; the lemmas below say that
this is the same as copying along absolute positions.
-/

namespace PolarDB.Lib.Circular

open List

variable {Cell : Type}

/-- Copy of `cells` to the linear addresses from `start` on. -/
def copyIn (memory : Nat → Cell) (start : Nat) (cells : List Cell) : Nat → Cell := fun address =>
  if start ≤ address then (cells[address - start]?).getD (memory address) else memory address

/-- The `count` cells from the linear address `start` on. -/
def copyOut (memory : Nat → Cell) (start count : Nat) : List Cell :=
  (List.range count).map fun idx => memory (start + idx)

/-- A copy to `start` that goes on at address 0 when it reaches the end. -/
def splitIn (size : Nat) (memory : Nat → Cell) (start : Nat) (cells : List Cell) : Nat → Cell :=
  let split := if start + cells.length > size then size - start else 0
  if split > 0 then copyIn (copyIn memory start (cells.take split)) 0 (cells.drop split)
  else copyIn memory start cells

def splitOut (size : Nat) (memory : Nat → Cell) (start count : Nat) : List Cell :=
  let split := if start + count > size then size - start else 0
  if split > 0 then copyOut memory start split ++ copyOut memory 0 (count - split)
  else copyOut memory start count

/-- The memory after `cells` were written along the absolute positions from `start` on. -/
def store (size : Nat) (memory : Nat → Cell) : Nat → List Cell → Nat → Cell
  | _, [], address => memory address
  | start, cell :: cells, address =>
    if start % size = address then cell else store size memory (start + 1) cells address

/-- The `count` cells along the absolute positions from `start` on. -/
def load (size : Nat) (memory : Nat → Cell) (start count : Nat) : List Cell :=
  (List.range count).map fun idx => memory ((start + idx) % size)

section Load
variable {size : Nat} {memory : Nat → Cell}

@[simp]
theorem length_load (start count : Nat) : (load size memory start count).length = count := by
  rw [load, length_map, length_range]

theorem getElem_load {start count idx : Nat}
    (within : idx < (load size memory start count).length) : (load size memory start count)[idx] =
    memory ((start + idx) % size) := by
  simp only [load, getElem_map, getElem_range]

theorem load_congr {other : Nat → Cell} {start count : Nat}
    (same : ∀ idx < count, memory ((start + idx) % size) = other ((start + idx) % size)) :
    load size memory start count = load size other start count := by
  apply map_congr_left
  intro idx mem
  exact same idx (mem_range.mp mem)

theorem load_mod (start count : Nat) : load size memory (start % size) count = load size memory
    start count := by
  apply map_congr_left
  intro _ _
  rw [Nat.mod_add_mod]

theorem load_shift (start shift count : Nat) :
    load size memory (start % size + shift) count = load size memory (start + shift) count := by
  rw [← load_mod, Nat.mod_add_mod, load_mod]

theorem load_add (start first second : Nat) : load size memory start (first + second) =
      load size memory start first ++ load size memory (start + first) second := by
  rw [load, range_add, map_append, map_map]
  apply congrArg (load size memory start first ++ ·)
  apply map_congr_left
  intro _ _
  rw [Function.comp_apply, add_assoc]

theorem load_part {start count offset part : Nat} (within : offset + part ≤ count) :
    load size memory (start + offset) part = ((load size memory start count).drop offset).take
    part := by
  have total : count = offset + (part + (count - (offset + part))) := by omega
  have before : (load size memory start offset).length = offset := length_load _ _
  rw [total, load_add, drop_left' before, load_add]
  exact (take_left' (length_load _ _)).symm

end Load

section Positions
variable {size : Nat}

theorem mod_ne_of_lt {first second : Nat} (order : first < second) (near : second < first + size) :
    first % size ≠ second % size := by
  intro equal
  have divides : size ∣ second - first := (Nat.modEq_iff_dvd' order.le).mp equal
  have least : size ≤ second - first := Nat.le_of_dvd (by omega) divides
  omega

end Positions

section Store
variable {size : Nat} {memory : Nat → Cell}

theorem store_other {address : Nat} (cells : List Cell) : ∀ start : Nat,
    (∀ idx < cells.length, (start + idx) % size ≠ address) →
      store size memory start cells address = memory address := by
  induction cells with
  | nil => intro start _; rfl
  | cons _ _ ih =>
    intro start missed
    have head : start % size ≠ address := missed 0 (Nat.zero_lt_succ _)
    rw [store, if_neg head]
    apply ih
    intro idx within
    have next := missed (idx + 1) (Nat.succ_lt_succ within)
    rwa [show start + (idx + 1) = start + 1 + idx by omega] at next

theorem store_get (cells : List Cell) : ∀ (start idx : Nat) (within : idx < cells.length),
    cells.length ≤ size → store size memory start cells ((start + idx) % size) = cells[idx] := by
  induction cells with
  | nil => intro start idx within _; exact absurd within (Nat.not_lt_zero _)
  | cons _ _ ih =>
    intro start idx within fits
    rw [length_cons] at fits within
    cases idx with
    | zero =>
      rw [add_zero, store, if_pos rfl]
      rfl
    | succ idx =>
      have differs : start % size ≠ (start + (idx + 1)) % size := mod_ne_of_lt (by omega) (by omega)
      rw [store, if_neg differs, show start + (idx + 1) = start + 1 + idx by omega,
        ih (start + 1) idx (by omega) (by omega), getElem_cons_succ]

theorem load_store_other {cells : List Cell} {start from' count : Nat}
    (apart : (from' + count ≤ start ∧ start + cells.length ≤ from' + size) ∨
      (start + cells.length ≤ from' ∧ from' + count ≤ start + size)) :
    load size (store size memory start cells) from' count = load size memory from' count := by
  apply load_congr
  intro _ _
  apply store_other
  intro _ _
  cases apart with
  | inl => exact (mod_ne_of_lt (by omega) (by omega)).symm
  | inr => exact mod_ne_of_lt (by omega) (by omega)

theorem load_store_within {cells : List Cell} {start count offset : Nat}
    (within : offset + cells.length ≤ count) (fits : count ≤ size) :
    load size (store size memory (start + offset) cells) start count =
      (load size memory start count).take offset ++ cells ++
        (load size memory start count).drop (offset + cells.length) := by
  have total : count = offset + (cells.length + (count - (offset + cells.length))) := by omega
  have middle : load size (store size memory (start + offset) cells) (start + offset) cells.length =
    cells := by
    apply ext_getElem (length_load _ _)
    intro idx _ there
    rw [getElem_load, store_get cells (start + offset) idx there (by omega)]
  have first : load size (store size memory (start + offset) cells) start offset =
      (load size memory start count).take offset := by
    have part : load size memory (start + 0) offset = ((load size memory start count).drop 0).take
      offset :=
      load_part (by omega)
    rw [load_store_other (Or.inl ⟨by omega, by omega⟩)]
    exact part
  have last : load size (store size memory (start + offset) cells) (start + (offset + cells.length))
      (count - (offset + cells.length)) = (load size memory start count).drop
      (offset + cells.length) := by
    have part : load size memory (start + (offset + cells.length))
      (count - (offset + cells.length)) = _ :=
      load_part (show _ ≤ count by omega)
    rw [load_store_other (Or.inr ⟨by omega, by omega⟩), part]
    apply take_of_length_le
    rw [length_drop, length_load]
  nth_rewrite 1 [total]
  rw [load_add, load_add, middle, first, add_assoc, last, append_assoc]

end Store

section Split
variable {size : Nat} {memory : Nat → Cell}
variable {cells : List Cell}

theorem copy_in_get {start address : Nat} (reached : start ≤ address)
    (within : address - start < cells.length) : copyIn memory start cells address =
    cells[address - start] := by
  rw [copyIn, if_pos reached, List.getElem?_eq_getElem within, Option.getD_some]

theorem copy_in_other {start address : Nat}
    (missed : address < start ∨ start + cells.length ≤ address) :
    copyIn memory start cells address = memory address := by
  rw [copyIn]
  split_ifs with reached
  · rw [List.getElem?_eq_none (by omega), Option.getD_none]
  · rfl

theorem copy_in_eq_store {start : Nat} (fits : start + cells.length ≤ size) :
    copyIn memory start cells = store size memory start cells := by
  funext address
  by_cases reached : start ≤ address ∧ address < start + cells.length
  · have pos : (start + (address - start)) % size = address := by
      rw [Nat.add_sub_cancel' reached.1, Nat.mod_eq_of_lt (by omega)]
    have stored : store size memory start cells ((start + (address - start)) % size) =
      cells[address - start] :=
      store_get cells start (address - start) (by omega) (by omega)
    rw [copy_in_get reached.1 (by omega), ← stored, pos]
  · rw [copy_in_other (by omega), store_other]
    intro _ _ same
    rw [Nat.mod_eq_of_lt (by omega)] at same
    omega

theorem store_append (first second : List Cell) :
    ∀ start : Nat, first.length + second.length ≤ size → store size memory start (first ++ second) =
      store size (store size memory start first) (start + first.length) second := by
  intro start _
  funext address
  by_cases inFirst : ∃ idx, idx < first.length ∧ (start + idx) % size = address
  · cases inFirst with
    | intro idx found =>
      have pos := found.2
      subst pos
      have total : idx < (first ++ second).length := by rw [length_append]; omega
      rw [store_get _ start idx total (by rw [length_append]; omega),
        getElem_append_left found.1, store_other, store_get first start idx found.1 (by omega)]
      intro _ within
      exact (mod_ne_of_lt (by omega) (by omega)).symm
  have missed : ∀ idx < first.length, (start + idx) % size ≠ address :=
    fun idx within same => inFirst ⟨idx, within, same⟩
  by_cases inSecond : ∃ idx, idx < second.length ∧ (start + first.length + idx) % size = address
  · cases inSecond with
    | intro idx found =>
      have pos := found.2
      subst pos
      have total : first.length + idx < (first ++ second).length := by rw [length_append]; omega
      have fit : (first ++ second).length ≤ size := by rwa [length_append]
      have whole : store size memory start (first ++ second)
        ((start + (first.length + idx)) % size) = _ :=
        store_get _ start _ total fit
      rw [getElem_append_right (by omega), ← add_assoc] at whole
      rw [store_get second _ idx found.1 (by omega), whole]
      congr 1
      omega
  · rw [store_other (first ++ second), store_other second, store_other first]
    · exact missed
    · exact fun idx within same => inSecond ⟨idx, within, same⟩
    · intro idx within same
      rw [length_append] at within
      by_cases early : idx < first.length
      · exact missed idx early same
      · apply inSecond
        refine ⟨idx - first.length, by omega, ?_⟩
        rwa [show start + first.length + (idx - first.length) = start + idx by omega]

theorem store_mod (cells : List Cell) : ∀ start : Nat,
    store size memory (start % size) cells = store size memory start cells := by
  induction cells with
  | nil => intro start; rfl
  | cons _ cells ih =>
    intro start
    have next : store size memory (start % size + 1) cells = store size memory (start + 1)
      cells := by
      rw [← ih (start % size + 1), Nat.mod_add_mod, ih]
    funext address
    rw [store, store, Nat.mod_mod, next]

theorem store_shift (cells : List Cell) (start shift : Nat) :
    store size memory (start % size + shift) cells = store size memory (start + shift) cells := by
  rw [← store_mod, Nat.mod_add_mod, store_mod]

theorem split_in_eq_store {start : Nat} (inside : start < size) (fits : cells.length ≤ size) :
    splitIn size memory start cells = store size memory start cells := by
  rw [splitIn]
  by_cases wraps : start + cells.length > size
  · have first : (cells.take (size - start)).length = size - start := by
      rw [length_take]
      omega
    have second : (cells.drop (size - start)).length = cells.length - (size - start) := length_drop
    have positive : size - start > 0 := by omega
    simp only [if_pos wraps, if_pos positive]
    have here : copyIn memory start (cells.take (size - start)) = store size memory start _ :=
      copy_in_eq_store (by omega)
    rw [here, copy_in_eq_store (show 0 + _ ≤ size by omega)]
    have round : store size (store size memory start (cells.take (size - start))) 0
      (cells.drop (size - start)) =
        store size (store size memory start (cells.take (size - start)))
          (start + (cells.take (size - start)).length) (cells.drop (size - start)) := by
      rw [first, show start + (size - start) = size by omega, ← store_mod _ size, Nat.mod_self]
    rw [round, ← store_append _ _ _ (by omega), take_append_drop]
  · simp only [if_neg wraps, gt_iff_lt, lt_irrefl, if_false]
    exact copy_in_eq_store (by omega)

theorem copy_out_eq_load {start count : Nat} (fits : start + count ≤ size) :
    copyOut memory start count = load size memory start count := by
  apply map_congr_left
  intro _ mem
  have within := mem_range.mp mem
  rw [Nat.mod_eq_of_lt (by omega)]

theorem split_out_eq_load {start count : Nat} (inside : start < size) (fits : count ≤ size) :
    splitOut size memory start count = load size memory start count := by
  rw [splitOut]
  by_cases wraps : start + count > size
  · have positive : size - start > 0 := by omega
    simp only [if_pos wraps, if_pos positive]
    have round : load size memory (start + (size - start)) (count - (size - start)) =
        load size memory 0 (count - (size - start)) := by
      rw [show start + (size - start) = size by omega, ← load_mod size, Nat.mod_self]
    rw [copy_out_eq_load (show start + (size - start) ≤ size by omega),
      copy_out_eq_load (show 0 + (count - (size - start)) ≤ size by omega), ← round, ← load_add]
    congr 1
    omega
  · simp only [if_neg wraps, gt_iff_lt, lt_irrefl, if_false]
    exact copy_out_eq_load (by omega)

end Split

end PolarDB.Lib.Circular
