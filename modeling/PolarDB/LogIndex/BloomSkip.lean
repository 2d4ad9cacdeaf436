import PolarDB.LogIndex.PageIterExact
import PolarDB.LogIndex.RestartExact

/-!
# Skipping saved tables by their bloom pages

The file search of a page iterator against a search that reads every saved table.
-/

namespace PolarDB.LogIndex

open Lib.Bloom PolarDB.Lib.History

variable {Tag : Type} [DecidableEq Tag]

variable {cfg : Config Tag} {tabs : List (List (LogIndexLsn Tag))} {snap : Snapshot Tag}
  {target : List Nat} {iter : PageIter Tag} {tag : Tag} {minLsn maxLsn : Nat}

end PolarDB.LogIndex
