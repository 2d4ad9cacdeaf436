import PolarDB.Lib.Keyed
import PolarDB.LogIndex.PageIterExact
import PolarDB.FullPage.FuturePageExact

/-!
# Replay of a page on demand

`polar_logindex_apply_page` finds the records of a page in the logindex, from its lower
bound up to the byte before the end LSN. Calls that go on where the last one ended apply
each record once. The iterator asserts that its interval has more than one LSN.
-/

namespace PolarDB.LogIndex

open List Lib
open FullPage.FuturePage (WalRecord PageImage applyRecord Ordered filter_between filter_below
  version_between)

variable {Tag Content : Type}

variable {table : LogIdxTableData Tag}

variable {iter after : PageIter Tag}

variable [DecidableEq Tag]

section
variable {cfg : Config Tag} {snap : Snapshot Tag}

end

/-- A call by process `pid`, with the logindex it finds. -/
structure ApplyCall (Tag : Type) where
  endLsn : Nat
  pid : Nat
  snap : Snapshot Tag

/-- The lower bound: the LSN of the page counts unless the page is new. -/
def searchFrom (isNew : Content → Bool) (startLsn : Nat) (page : PageImage Content) : Nat :=
  if isNew page.content then startLsn else max startLsn page.lsn

/-- `polar_logindex_read_xlog` for each LSN of the iterator: it goes on trying until the record is
there. -/
def readXlog (records : List (WalRecord Content)) (infos : List (LogIndexLsn Tag)) :
    Option (List (WalRecord Content)) :=
  infos.mapM fun info => Keyed.lookup WalRecord.lsn info.lsn records

section
variable (cfg : Config Tag) (isNew : Content → Bool) (records : List (WalRecord Content))
  (tag : Tag) (fuel : Nat)

/-- The records that are applied and the returned LSN; nothing if the process stops. -/
def polarLogindexApplyPage (call : ApplyCall Tag) (startLsn : Nat) (page : PageImage Content) :
    Option (List (WalRecord Content) × Nat) :=
  let start := searchFrom isNew startLsn page
  if call.endLsn ≤ start then some ([], start)
  else match polarLogindexCreatePageIterator cfg call.snap call.pid tag start (call.endLsn - 1) with
    | .error _ => none
    | .ok (_, iter) =>
      if iter.state ≠ .finished then none
      else do
        let infos ← drainPageIterator fuel iter
        let applied ← readXlog records infos
        some (applied, call.endLsn)

/-- The logindex that the call finds holds exactly the start LSNs of the records. -/
def Indexed (call : ApplyCall Tag) : Prop :=
  ∃ st, Run cfg .start st ∧ st.snap = call.snap ∧ PrevLinked st.log ∧ st.log.length < fuel ∧
    lsnsOf tag st.log = records.map WalRecord.lsn

end

variable {cfg : Config Tag} {isNew : Content → Bool} {records front back : List (WalRecord Content)}
  {tag : Tag}
  {fuel startLsn : Nat} {page base : PageImage Content} {call : ApplyCall Tag}
    {calls : List (ApplyCall Tag)}

end PolarDB.LogIndex
