import Mathlib.Algebra.GroupWithZero.Nat
import Mathlib.Data.List.GetD

/-!
# Files with holes

A file is its size and its bytes; what lies beyond the end, or was never written, is
zero. A read may be short at the end of the file, and a write may leave a hole.
-/

namespace PolarDB.Lib.SparseFile

open List

structure File (Byte : Type) [Zero Byte] where
  size : Nat
  byteAt : Nat → Byte
  beyond : ∀ pos, size ≤ pos → byteAt pos = 0

attribute [ext] File

variable {Byte : Type} [Zero Byte]

def File.empty : File Byte where
  size := 0
  byteAt := fun _ => 0
  beyond := fun _ _ => rfl

def File.read (file : File Byte) (offset count : Nat) : List Byte :=
  (List.range (min count (file.size - offset))).map fun idx => file.byteAt (offset + idx)

def File.write (file : File Byte) (offset : Nat) (data : List Byte) : File Byte where
  size := if data.length = 0 then file.size else max file.size (offset + data.length)
  byteAt := fun pos =>
    if offset ≤ pos ∧ pos < offset + data.length then data.getD (pos - offset) 0
    else file.byteAt pos
  beyond := by
    intro pos outside
    split at outside
    · next empty =>
      rw [if_neg (by omega)]
      exact file.beyond pos outside
    · rw [if_neg (by omega)]
      exact file.beyond pos (by omega)

def File.truncate (file : File Byte) (size : Nat) : File Byte where
  size := size
  byteAt := fun pos => if pos < size then file.byteAt pos else 0
  beyond := fun _ outside => if_neg (Nat.not_lt.mpr outside)

section
variable (file : File Byte)

theorem length_read (offset count : Nat) : (file.read offset count).length = min count
    (file.size - offset) := by
  simp [File.read]

theorem drop_read (offset count skipped : Nat) :
    (file.read offset count).drop skipped = file.read (offset + skipped) (count - skipped) := by
  apply ext_getElem
  · simp only [length_drop, length_read]
    omega
  · simp [File.read, Nat.add_assoc]

theorem take_read {offset count taken : Nat} (within : taken ≤ count) :
    (file.read offset count).take taken = file.read offset taken := by
  apply ext_getElem
  · simp only [length_take, length_read]
    omega
  · simp [File.read]

theorem read_add (offset first second : Nat) :
    file.read offset (first + second) = file.read offset first ++ file.read (offset + first)
    second := by
  have whole := take_append_drop first (file.read offset (first + second))
  rw [take_read file (Nat.le_add_right _ _), drop_read, Nat.add_sub_cancel_left] at whole
  exact whole.symm

/-- Nothing more is read beyond the end of the file. -/
theorem read_congr {offset count other : Nat}
    (same : min count (file.size - offset) = min other (file.size - offset)) :
    file.read offset count = file.read offset other := by
  rw [File.read, File.read, same]

theorem getD_read {offset count idx : Nat} (inside : idx < count) :
    (file.read offset count).getD idx 0 = file.byteAt (offset + idx) := by
  by_cases present : idx < min count (file.size - offset)
  · have bound : idx < (file.read offset count).length := by
      rw [length_read]
      exact present
    rw [getD_eq_getElem _ _ bound]
    simp [File.read]
  · rw [getD_eq_default _ _ (by rw [length_read]; omega)]
    exact (file.beyond _ (by omega)).symm

end

variable {offset pos : Nat} {data : List Byte}

theorem byteAt_write_inside (file : File Byte) (low : offset ≤ pos)
    (high : pos < offset + data.length) : (file.write offset data).byteAt pos = data.getD
    (pos - offset) 0 :=
  if_pos ⟨low, high⟩

theorem byteAt_write_outside (file : File Byte)
    (outside : pos < offset ∨ offset + data.length ≤ pos) : (file.write offset data).byteAt pos =
    file.byteAt pos :=
  if_neg (by omega)

end PolarDB.Lib.SparseFile
