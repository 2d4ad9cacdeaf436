import Mathlib.Tactic.Ring

/-!
# Readers of little-endian byte strings

A reader consumes bytes from the front of a list or fails. `Reads` says that it
consumes exactly the given bytes, whatever follows them; the rules below follow the
structure of a reader.
-/

namespace PolarDB.Lib.Bytes

open List

def leBytes : Nat → Nat → List UInt8
  | 0, _ => []
  | width + 1, value => UInt8.ofNat value :: leBytes width (value / 256)

def leNat : List UInt8 → Nat
  | [] => 0
  | byte :: rest => byte.toNat + 256 * leNat rest

@[simp]
theorem length_le_bytes (width value : Nat) : (leBytes width value).length = width := by
  induction width generalizing value with
  | zero => rfl
  | succ _ ih => rw [leBytes, length_cons, ih]

theorem le_nat_le_bytes (width : Nat) : ∀ value, value < 256 ^ width → leNat (leBytes width value) =
    value := by
  induction width with
  | zero =>
    intro value bound
    rw [pow_zero, Nat.lt_one_iff] at bound
    rw [bound]
    rfl
  | succ width ih =>
    intro value bound
    have quotient : value / 256 < 256 ^ width := by
      apply Nat.div_lt_of_lt_mul
      rwa [pow_succ, mul_comm] at bound
    have byte : (UInt8.ofNat value).toNat = value % 256 := by simp
    rw [leBytes, leNat, ih _ quotient, byte]
    exact Nat.mod_add_div value 256

theorem le_nat_lt (bytes : List UInt8) : leNat bytes < 256 ^ bytes.length := by
  induction bytes with
  | nil => exact Nat.one_pos
  | cons byte _ ih =>
    have small := byte.toNat_lt
    rw [leNat, length_cons, pow_succ]
    omega

def u8Bytes (value : UInt8) : List UInt8 := [value]
def u16Bytes (value : UInt16) : List UInt8 := leBytes 2 value.toNat
def u32Bytes (value : UInt32) : List UInt8 := leBytes 4 value.toNat
def u64Bytes (value : UInt64) : List UInt8 := leBytes 8 value.toNat

@[simp] theorem length_u8_bytes (value : UInt8) : (u8Bytes value).length = 1 := rfl
@[simp] theorem length_u16_bytes (value : UInt16) : (u16Bytes value).length = 2 :=
  length_le_bytes _ _
@[simp] theorem length_u32_bytes (value : UInt32) : (u32Bytes value).length = 4 :=
  length_le_bytes _ _
@[simp] theorem length_u64_bytes (value : UInt64) : (u64Bytes value).length = 8 :=
  length_le_bytes _ _

section Reader
variable {Error Value Next : Type} {short : Error}

abbrev Reader (Error : Type) := StateT (List UInt8) (Except Error)

def fail (error : Error) : Reader Error Value := fun _ => .error error

/-- The next `count` bytes, or `short` when there are less. -/
def take (short : Error) (count : Nat) : Reader Error (List UInt8) := fun bytes =>
  if bytes.length < count then .error short else .ok (bytes.take count, bytes.drop count)

def nat (short : Error) (width : Nat) : Reader Error Nat := do
  let bytes ← take short width
  pure (leNat bytes)

def u8 (short : Error) : Reader Error UInt8 := do
  let bytes ← take short 1
  pure (UInt8.ofNat (leNat bytes))

def u16 (short : Error) : Reader Error UInt16 := do
  let bytes ← take short 2
  pure (UInt16.ofNat (leNat bytes))

def u32 (short : Error) : Reader Error UInt32 := do
  let bytes ← take short 4
  pure (UInt32.ofNat (leNat bytes))

def u64 (short : Error) : Reader Error UInt64 := do
  let bytes ← take short 8
  pure (UInt64.ofNat (leNat bytes))

/-- The reader consumes `bytes` and returns `value`. -/
def Reads (reader : Reader Error Value) (bytes : List UInt8) (value : Value) : Prop :=
  ∀ rest, reader (bytes ++ rest) = .ok (value, rest)

theorem reads_pure (value : Value) : Reads (pure value : Reader Error Value) [] value :=
  fun _ => rfl

variable {next : Value → Reader Error Next} {reader : Reader Error Value} {bytes : List UInt8}
  {value : Value}

theorem reads_take {count : Nat} (length : bytes.length = count) :
    Reads (take short count) bytes bytes := by
  intro rest
  have enough : ¬ (bytes ++ rest).length < count := by
    rw [length_append]
    omega
  rw [take, if_neg enough, ← length, take_left, drop_left]

/-- The rest of the bytes goes to the next reader, whatever it does with them. -/
theorem Reads.then
    (here : Reads reader bytes value) (rest : List UInt8) :
    (reader >>= next) (bytes ++ rest) = next value rest := by
  have step : (reader >>= next) (bytes ++ rest) = (reader (bytes ++ rest)) >>= fun read =>
    next read.1 read.2 := rfl
  rw [step, here rest]
  rfl

variable {res : Next}

theorem Reads.bind {first second : List UInt8} (here : Reads reader first value)
    (there : Reads (next value) second res) : Reads (reader >>= next) (first ++ second) res := by
  intro rest
  rw [append_assoc, here.then (second ++ rest)]
  exact there rest

theorem Reads.skip (here : Reads reader [] value) (there : Reads (next value) bytes res) :
    Reads (reader >>= next) bytes res := here.bind there

theorem Reads.last (here : Reads reader bytes value) (there : Reads (next value) [] res) :
    Reads (reader >>= next) bytes res := by
  have whole : Reads (reader >>= next) (bytes ++ []) res := here.bind there
  rwa [append_nil] at whole

theorem reads_le {width value : Nat} (bound : value < 256 ^ width) (function : Nat → Next) :
    Reads (do let bytes ← take short width; pure (function (leNat bytes))) (leBytes width value)
      (function value) := by
  intro rest
  have taken : take short width (leBytes width value ++ rest) = _ :=
    reads_take (length_le_bytes width value) rest
  change (take short width (leBytes width value ++ rest)) >>=
    (fun read => .ok (function (leNat read.1), read.2)) = _
  rw [taken]
  exact congrArg (fun read => Except.ok (function read, rest)) (le_nat_le_bytes width value bound)

theorem reads_nat {width value : Nat} (bound : value < 256 ^ width) :
    Reads (nat short width) (leBytes width value) value := reads_le bound id

theorem reads_u8 (value : UInt8) : Reads (u8 short) (u8Bytes value) value := by
  have read : Reads (u8 short) (leBytes 1 value.toNat) (UInt8.ofNat value.toNat) :=
    reads_le value.toNat_lt UInt8.ofNat
  rwa [leBytes, leBytes, UInt8.ofNat_toNat] at read

theorem reads_u16 (value : UInt16) : Reads (u16 short) (u16Bytes value) value := by
  have read : Reads (u16 short) (leBytes 2 value.toNat) (UInt16.ofNat value.toNat) :=
    reads_le value.toNat_lt UInt16.ofNat
  rwa [UInt16.ofNat_toNat] at read

theorem reads_u32 (value : UInt32) : Reads (u32 short) (u32Bytes value) value := by
  have read : Reads (u32 short) (leBytes 4 value.toNat) (UInt32.ofNat value.toNat) :=
    reads_le value.toNat_lt UInt32.ofNat
  rwa [UInt32.ofNat_toNat] at read

theorem reads_u64 (value : UInt64) : Reads (u64 short) (u64Bytes value) value := by
  have read : Reads (u64 short) (leBytes 8 value.toNat) (UInt64.ofNat value.toNat) :=
    reads_le value.toNat_lt UInt64.ofNat
  rwa [UInt64.ofNat_toNat] at read

end Reader

end PolarDB.Lib.Bytes
