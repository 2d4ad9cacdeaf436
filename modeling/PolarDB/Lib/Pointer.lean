import PolarDB.Lib.Bytes

/-!
# Reading fields through a pointer

An `Access` reads fields of a block of bytes at given offsets. The pointer may be null, and
a read may end behind the block; both are faults, whatever the memory there would give.
`Within reach` says that an access that succeeds looks only at the first `reach` bytes.
-/

namespace PolarDB.Lib.Pointer

open List Lib.Bytes

inductive Fault (Error : Type) where
  | null
  | short
  | raised (error : Error)
deriving Repr, DecidableEq

abbrev Access (Error : Type) := ReaderT (Option (List UInt8)) (Except (Fault Error))

section Fields
variable {Error : Type}

/-- Nothing is dereferenced for a field without bytes. -/
def bytes (offset width : Nat) : Access Error (List UInt8) := fun block =>
  if width = 0 then .ok []
  else
    match block with
    | none => .error .null
    | some block =>
      if offset + width ≤ block.length then .ok ((block.drop offset).take width) else .error .short

def field (offset width : Nat) : Access Error Nat := do
  let bytes ← bytes offset width
  pure (leNat bytes)

def raise {Value : Type} (error : Error) : Access Error Value := fun _ => .error (.raised error)

end Fields

section Reach
variable {Error Value Next : Type}

def contents (block : Option (List UInt8)) : List UInt8 := block.getD []

def Within (reach : Nat) (access : Access Error Value) : Prop :=
  ∀ (block part : Option (List UInt8)) (value : Value), (contents block).take reach <+:
    contents part → access block = .ok value → access part = .ok value

theorem within_pure (reach : Nat) (value : Value) :
    Within reach (pure value : Access Error Value) :=
  fun _ _ _ _ succeeded => succeeded

theorem within_raise (reach : Nat) (error : Error) :
    Within reach (raise error : Access Error Value) :=
  fun _ _ _ _ succeeded => nomatch succeeded

variable {block : Option (List UInt8)}

theorem bytes_eq_ok {offset width : Nat} {value : List UInt8} (positive : 0 < width) :
    (bytes offset width : Access Error (List UInt8)) block = .ok value ↔
      offset + width ≤ (contents block).length ∧ value = ((contents block).drop offset).take
      width := by
  unfold bytes
  rw [if_neg (by omega)]
  cases block with
  | none =>
    constructor
    · exact nofun
    · rintro ⟨bound, -⟩
      rw [contents, Option.getD_none, length_nil] at bound
      omega
  | some block =>
    change (if offset + width ≤ block.length then _ else _) = _ ↔ offset + width ≤ block.length ∧ _
    split_ifs with bound
    · rw [Except.ok.injEq, and_iff_right bound]
      exact eq_comm
    · exact iff_of_false nofun fun both => bound both.1

variable {next : Value → Access Error Next} {access : Access Error Value} {offset width reach : Nat}

theorem within_bytes (inside : offset + width ≤ reach) :
    Within reach (bytes offset width : Access Error (List UInt8)) := by
  intro block _ _ carried succeeded
  by_cases positive : 0 < width
  · rw [bytes_eq_ok positive] at succeeded ⊢
    obtain ⟨_, rfl⟩ := succeeded
    obtain ⟨_, split⟩ := carried
    have reached : offset + width ≤ ((contents block).take reach).length := by
      rw [length_take]
      omega
    constructor
    · rw [← split, length_append]
      omega
    · have window : ∀ list : List UInt8, (list.drop offset).take width =
        (list.take (offset + width)).drop offset := by
        intro _
        rw [drop_take, Nat.add_sub_cancel_left]
      rw [window, window, ← split, take_append_of_le_length reached, take_take, min_eq_left inside]
  · unfold bytes at succeeded ⊢
    rw [if_pos (by omega)] at succeeded ⊢
    exact succeeded

theorem access_bind {res : Next} : (access >>= next) block = .ok res ↔
      ∃ value, access block = .ok value ∧ next value block = .ok res := by
  change (access block >>= fun value => next value block) = .ok res ↔ _
  cases access block with
  | error => exact iff_of_false nofun fun ⟨_, impossible, _⟩ => nomatch impossible
  | ok value =>
    constructor
    · intro rest
      exact ⟨value, rfl, rest⟩
    · rintro ⟨_, same, rest⟩
      rw [← Except.ok.inj same] at rest
      exact rest

theorem field_eq_ok {offset width value : Nat} (positive : 0 < width) :
    (field offset width : Access Error Nat) block = .ok value ↔
      offset + width ≤ (contents block).length ∧
      value = leNat (((contents block).drop offset).take width) := by
  rw [field, access_bind]
  constructor
  · rintro ⟨_, succeeded, res⟩
    obtain ⟨bound, rfl⟩ := (bytes_eq_ok positive).mp succeeded
    exact ⟨bound, (Except.ok.inj res).symm⟩
  · rintro ⟨bound, rfl⟩
    exact ⟨_, (bytes_eq_ok positive).mpr ⟨bound, rfl⟩, rfl⟩

theorem Within.bind {reach : Nat}
    (here : Within reach access) (there : ∀ value, Within reach (next value)) :
    Within reach (access >>= next) := by
  intro block part res carried succeeded
  rw [access_bind] at succeeded ⊢
  obtain ⟨value, first, rest⟩ := succeeded
  exact ⟨value, here block part value carried first, there value block part res carried rest⟩

theorem within_field (inside : offset + width ≤ reach) :
    Within reach (field offset width : Access Error Nat) :=
  (within_bytes inside).bind fun _ => within_pure _ _

end Reach

end PolarDB.Lib.Pointer
