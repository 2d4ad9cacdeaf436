import Mathlib.Data.List.Basic

/-!
# Bloom filters

A filter is a set of bits. An element sets the bits its hash functions name, and
is reported missing when one of them is not set. The hash functions are a
parameter: nothing depends on how they spread.
-/

namespace PolarDB.Lib.Bloom

open Function

variable {Element : Type*}

def Filter := Nat → Bool

def emptyFilter : Filter := fun _ => false

def setBit (filter : Filter) (bit : Nat) : Filter := update filter bit true

def addElement (hashes : Element → List Nat) (filter : Filter) (element : Element) : Filter :=
  (hashes element).foldl setBit filter

def lacksElement (hashes : Element → List Nat) (filter : Filter) (element : Element) : Bool :=
  (hashes element).any fun bit => !filter bit

theorem set_bits_keep (bits : List Nat) (filter : Filter) {bit : Nat} (set : filter bit = true) :
    bits.foldl setBit filter bit = true := by
  induction bits generalizing filter with
  | nil => exact set
  | cons first _ ih =>
    apply ih
    by_cases same : bit = first
    · rw [same]
      exact update_self ..
    · exact (update_of_ne same _ _).trans set

theorem set_bits_set (bits : List Nat) (filter : Filter) {bit : Nat} (mem : bit ∈ bits) :
    bits.foldl setBit filter bit = true := by
  induction bits generalizing filter with
  | nil => simp at mem
  | cons _ rest ih =>
    rcases List.mem_cons.mp mem with rfl | later
    · exact set_bits_keep rest _ (update_self ..)
    · exact ih _ later

section
variable (hashes : Element → List Nat) (elements : List Element) (filter : Filter)

theorem add_elements_keep {bit : Nat} (set : filter bit = true) :
    elements.foldl (addElement hashes) filter bit = true := by
  induction elements generalizing filter with
  | nil => exact set
  | cons _ _ ih => exact ih _ (set_bits_keep _ _ set)

theorem added_not_lacking {element : Element} (mem : element ∈ elements) :
    lacksElement hashes (elements.foldl (addElement hashes) filter) element = false := by
  induction elements generalizing filter with
  | nil => simp at mem
  | cons _ _ ih =>
    rcases List.mem_cons.mp mem with rfl | later
    · simp only [lacksElement, List.any_eq_false, Bool.not_eq_true']
      intro _ inside
      rw [List.foldl_cons, add_elements_keep]
      · simp
      · exact set_bits_set _ _ inside
    · exact ih _ later

end

end PolarDB.Lib.Bloom
