import Mathlib.Logic.Function.Basic

/-!
# Names of blocks

A block is named by its relation, its fork and its number.
-/

namespace PolarDB.Storage

inductive ForkNumber where
  | main
  | fsm
  | visibilitymap
  | init
  deriving DecidableEq, Repr

structure RelFileNode where
  spcNode : Nat
  dbNode : Nat
  relNode : Nat
  deriving DecidableEq, Repr

def invalidBlockNumber : Nat := 0xFFFFFFFF

structure BufferTag where
  rnode : RelFileNode
  forkNum : ForkNumber
  blockNum : Nat
  deriving DecidableEq, Repr

end PolarDB.Storage
