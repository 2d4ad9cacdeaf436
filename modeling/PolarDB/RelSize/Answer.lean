import PolarDB.RelSize.Segments

/-!
# The answer for a block

The answer should follow the newest event after the LSN that concerns the block. The
search looks for the newest state of the database and for the newest truncation
separately; it is right unless a truncation is older than the creation of the database.
-/

namespace PolarDB.RelSize.Cache

open Option List Storage Lib.Snoc

def Event.dbAfter (lsn : Nat) (tag : BufferTag) : Event → Option DatabaseState
  | .db st =>
    if lsn < st.lsn ∧ st.db = tag.rnode.dbNode ∧ st.spc = tag.rnode.spcNode then some st else none
  | .rel _ => none

def Event.truncationAfter (lsn : Nat) (tag : BufferTag) : Event → Option RelationSize
  | .db _ => none
  | .rel size =>
    if lsn < size.lsn ∧ tag.rnode = size.node ∧ tag.forkNum = size.fork ∧
      size.relSize ≤ tag.blockNum then some size
    else none

def Event.concerns (lsn : Nat) (tag : BufferTag) (event : Event) : Bool :=
  (event.dbAfter lsn tag).isSome || (event.truncationAfter lsn tag).isSome

def newest (lsn : Nat) (tag : BufferTag) (events : List Event) : Option Event :=
  events.reverse.find? (Event.concerns lsn tag)

def newestAnswer (lsn : Nat) (tag : BufferTag) (events : List Event) : Bool × Nat :=
  match newest lsn tag events with
  | none => (true, lsn)
  | some (.db st) => (st.change = .new, st.lsn)
  | some (.rel size) => (false, size.lsn)

/-- No truncation of a relation follows the drop of its database unless the database was created
again. -/
def NoTruncationOfDropped (events : List Event) : Prop := ∀ before between after st size,
    events = before ++ .db st :: between ++ .rel size :: after → st.change = .droped →
    st.db = size.node.dbNode → st.spc = size.node.spcNode →
    ∃ created, .db created ∈ between ∧ created.db = st.db ∧ created.spc = st.spc ∧
    created.change = .new

def Recent (events : List Event) : Prop := events.Pairwise fun later earlier =>
    earlier.lsn ≤ later.lsn

variable {lsn : Nat} {tag : BufferTag} {recent older : List Event}
variable {res : SearchResult} {event : Event} {segment : List Event} {cache : RelSizeCache}

theorem dbAfter_of_le (old : event.lsn ≤ lsn) : event.dbAfter lsn tag = none := by
  cases event with
  | db st => exact if_neg fun newer => absurd newer.1 (Nat.not_lt.mpr old)
  | rel => rfl

theorem truncationAfter_of_le (old : event.lsn ≤ lsn) : event.truncationAfter lsn tag = none := by
  cases event with
  | db st => rfl
  | rel => exact if_neg fun newer => absurd newer.1 (Nat.not_lt.mpr old)

theorem findSome_dbAfter_of_le (old : ∀ event ∈ recent, event.lsn ≤ lsn) :
    recent.findSome? (Event.dbAfter lsn tag) = none :=
  List.findSome?_eq_none_iff.mpr fun event among => dbAfter_of_le (old event among)

theorem findSome_truncationAfter_of_le (old : ∀ event ∈ recent, event.lsn ≤ lsn) :
    recent.findSome? (Event.truncationAfter lsn tag) = none :=
  List.findSome?_eq_none_iff.mpr fun event among => truncationAfter_of_le (old event among)

theorem searchDbState_eq (ordered : Recent recent) (res : SearchResult) :
    polarSearchDbState (recent.filterMap Event.asDb) lsn tag.rnode.spcNode tag.rnode.dbNode res =
      match recent.findSome? (Event.dbAfter lsn tag) with
      | some st => { state := st.change.state, lsn := st.lsn }
      | none => { res with state := .notfound } := by
  induction recent with
  | nil => rfl
  | cons event rest known =>
    have parts := pairwise_cons.mp ordered
    cases event with
    | rel => exact known parts.2
    | db st =>
      change polarSearchDbState (st :: rest.filterMap Event.asDb) _ _ _ res = _
      unfold polarSearchDbState
      by_cases old : st.lsn ≤ lsn
      · have none : (Event.db st :: rest).findSome? (Event.dbAfter lsn tag) = none := by
          apply findSome_dbAfter_of_le
          exact forall_mem_cons.mpr ⟨old, fun event later => Nat.le_trans (parts.1 event later) old⟩
        rw [if_pos old, none]
      · rw [if_neg old]
        by_cases matching : st.db = tag.rnode.dbNode ∧ st.spc = tag.rnode.spcNode
        · have found : Event.dbAfter lsn tag (.db st) = some st :=
            if_pos ⟨Nat.lt_of_not_le old, matching⟩
          rw [if_pos matching, List.findSome?_cons, found]
        · have missed : Event.dbAfter lsn tag (.db st) = none := if_neg fun all => matching all.2
          rw [if_neg matching, List.findSome?_cons, missed]
          exact known parts.2

theorem searchTruncateInfo_eq (lsn : Nat) (tag : BufferTag) (ordered : Recent recent)
    (next : SearchState) (res : SearchResult) :
    ∃ going, polarSearchTruncateInfo next (recent.filterMap Event.asRel) lsn tag res =
      (match recent.findSome? (Event.truncationAfter lsn tag) with
      | some size => (false, { state := .blockTruncated, lsn := size.lsn })
      | none => (going, res)) ∧
      (going = next ∨ going = false ∧ ∃ event ∈ recent, event.lsn ≤ lsn) := by
  induction recent with
  | nil => exact ⟨next, rfl, .inl rfl⟩
  | cons event rest known =>
    have parts := pairwise_cons.mp ordered
    obtain ⟨going, equal, goes⟩ := known parts.2
    have goesOn : going = next ∨ going = false ∧ ∃ other ∈ event :: rest, other.lsn ≤ lsn := by
      refine goes.imp_right ?_
      intro ⟨stopped, other, among, old⟩
      exact ⟨stopped, other, mem_cons_of_mem _ among, old⟩
    cases event with
    | db st => exact ⟨going, equal, goesOn⟩
    | rel size =>
      change ∃ going, polarSearchTruncateInfo next (size :: rest.filterMap Event.asRel) lsn tag
        res = _ ∧ _
      unfold polarSearchTruncateInfo
      by_cases old : size.lsn ≤ lsn
      · have none : (Event.rel size :: rest).findSome? (Event.truncationAfter lsn tag) = none := by
          apply findSome_truncationAfter_of_le
          exact forall_mem_cons.mpr ⟨old, fun event later => Nat.le_trans (parts.1 event later) old⟩
        rw [if_pos old, none]
        exact ⟨false, rfl, .inr ⟨rfl, .rel size, mem_cons_self, old⟩⟩
      · rw [if_neg old]
        by_cases matching : tag.rnode = size.node ∧ tag.forkNum = size.fork ∧
          size.relSize ≤ tag.blockNum
        · have found : Event.truncationAfter lsn tag (.rel size) = some size :=
            if_pos ⟨Nat.lt_of_not_le old, matching⟩
          rw [if_pos matching, List.findSome?_cons, found]
          exact ⟨next, rfl, .inl rfl⟩
        · have missed : Event.truncationAfter lsn tag (.rel size) = none := if_neg fun all =>
            matching all.2
          rw [if_neg matching, List.findSome?_cons, missed]
          exact ⟨going, equal, goesOn⟩

def withDb (res : SearchResult) (db : Option DatabaseState) : SearchResult :=
  if res.state = .notfound then
    match db with
    | some st => { state := st.change.state, lsn := st.lsn }
    | none => res
  else res

/-- The result of a search, given the newest state of the database and the newest truncation. -/
def outcome (res : SearchResult) (db : Option DatabaseState) (truncation : Option RelationSize) :
    SearchResult :=
  if (withDb res db).state = .droped then withDb res db
  else
    match truncation with
    | some size => { state := .blockTruncated, lsn := size.lsn }
    | none => withDb res db

/-- The search goes on as long as it has found nothing or a creation. -/
def Open (res : SearchResult) : Prop := res.state = .notfound ∨ res.state = .new

section
variable (isOpen : Open res)
include isOpen

theorem outcome_none : outcome res none none = res := by
  unfold outcome withDb
  rcases isOpen with notfound | new
  · simp [notfound]
  · simp [new]

/-- An open result is not changed by what an older part of the history says about the database, if
the newer part has settled it. -/
theorem outcome_or {db olderDb : Option DatabaseState}
    {truncation : Option RelationSize} (olderTruncation : Option RelationSize)
    (safe : db = none → truncation ≠ none → ∀ st, olderDb = some st → st.change ≠ .droped) :
    (Open (outcome res db truncation) ∧ outcome (outcome res db truncation) olderDb
        olderTruncation = outcome res (db.or olderDb) (truncation.or olderTruncation)) ∨
    ¬ Open (outcome res db truncation) ∧
      outcome res db truncation = outcome res (db.or olderDb) (truncation.or olderTruncation) := by
  unfold Open outcome withDb
  rcases isOpen with notfound | new
  · cases db with
    | some st => cases change : st.change <;> cases truncation <;>
        simp [notfound, change, DbChange.state]
    | none =>
      cases truncation with
      | none => simp [notfound]
      | some =>
        cases olderDb with
        | none => simp [notfound]
        | some st =>
          have created := safe rfl nofun st rfl
          cases change : st.change with
          | new => simp [notfound, change, DbChange.state]
          | droped => exact absurd change created
  · cases truncation <;> simp [new]

theorem switchState_open (truncated : SearchState × SearchResult) :
    switchState true lsn res truncated = some truncated := by
  unfold switchState
  rcases isOpen with notfound | new
  · simp [notfound]
  · simp [new]

theorem withDb_cases (db : Option DatabaseState) : Open (withDb res db) ∨
    (withDb res db).state = .droped := by
  unfold withDb Open
  rcases isOpen with notfound | new
  · cases db with
    | none => simp [notfound]
    | some st => cases change : st.change <;> simp [notfound, change, DbChange.state]
  · simp [new]

end

/-- The search of one table, newest events first. `going` says whether to look at the table
before. -/
theorem checkTable_eq (lsn : Nat) (tag : BufferTag) (ordered : Ordered segment)
    (someEvent : segment ≠ []) (minTid tid : Nat) {res after : SearchResult} (isOpen : Open res)
    (isAfter : after = outcome res (segment.reverse.findSome? (Event.dbAfter lsn tag))
      (segment.reverse.findSome? (Event.truncationAfter lsn tag))) :
    ∃ going, polarCheckTableRelSize true minTid (fill tid segment) lsn tag res =
      some (going, after) ∧ (going = true → minTid < tid ∧ Open after) ∧
      (going = false → ¬ Open after ∨ tid ≤ minTid ∨ ∃ event ∈ segment, event.lsn ≤ lsn) := by
  have fields := fill_fields tid segment
  have recent : Recent segment.reverse := pairwise_reverse.mpr ordered
  unfold polarCheckTableRelSize
  split
  · have lastLsn := fill_maxLsn tid someEvent
    have old : ∀ event ∈ segment, event.lsn ≤ lsn := by
      intro _ among
      have bounded := ordered.rel_getLast_of_rel_getLast_getLast among (Nat.le_refl _)
      omega
    have oldReversed : ∀ event ∈ segment.reverse, event.lsn ≤ lsn := fun event among =>
      old event (mem_reverse.mp among)
    rw [findSome_dbAfter_of_le oldReversed, findSome_truncationAfter_of_le oldReversed,
      outcome_none isOpen] at isAfter
    rw [isAfter]
    refine ⟨false, rfl, nofun, fun _ => .inr (.inr ?_)⟩
    exact ⟨segment.getLast someEvent, getLast_mem someEvent, old _ (getLast_mem someEvent)⟩
  have settled : (if res.state = .notfound then
      polarSearchDbState (fill tid segment).dbs lsn tag.rnode.spcNode tag.rnode.dbNode res
        else res) =
      withDb res (segment.reverse.findSome? (Event.dbAfter lsn tag)) := by
    unfold withDb
    split
    · next notfound =>
      rw [fields.2.2, searchDbState_eq recent]
      cases segment.reverse.findSome? (Event.dbAfter lsn tag) with
      | some st => rfl
      | none =>
        rw [← notfound]
    · rfl
  dsimp only
  rw [settled, fields.1, fields.2.1]
  unfold outcome at isAfter
  generalize isCurrent : withDb res (segment.reverse.findSome? (Event.dbAfter lsn tag)) =
    current at isAfter
  have either := withDb_cases isOpen (segment.reverse.findSome? (Event.dbAfter lsn tag))
  rw [isCurrent] at either
  obtain ⟨going, scanned, goes⟩ :=
    searchTruncateInfo_eq lsn tag recent (decide (minTid < tid)) current
  rw [scanned]
  rcases either with stillOpen | droped
  · have notDroped : current.state ≠ .droped := by
      rcases stillOpen with notfound | new
      · simp [notfound]
      · simp [new]
    rw [if_neg notDroped] at isAfter
    rw [switchState_open stillOpen]
    cases found : segment.reverse.findSome? (Event.truncationAfter lsn tag) with
    | some =>
      rw [found] at isAfter
      rw [isAfter]
      refine ⟨false, rfl, nofun, fun _ => .inl ?_⟩
      simp [Open]
    | none =>
      rw [found] at isAfter
      rw [isAfter]
      refine ⟨going, rfl, ?_, ?_⟩
      · intro goesOn
        rcases goes with isNext | ⟨stopped, _⟩
        · exact ⟨of_decide_eq_true (isNext.symm.trans goesOn), stillOpen⟩
        · rw [stopped] at goesOn
          contradiction
      · intro stops
        rcases goes with isNext | ⟨_, event, among, old⟩
        · exact .inr (.inl (Nat.le_of_not_lt (of_decide_eq_false (isNext.symm.trans stops))))
        · exact .inr (.inr ⟨event, mem_reverse.mp among, old⟩)
  · rw [if_pos droped] at isAfter
    rw [isAfter]
    refine ⟨false, ?_, nofun, fun _ => .inl ?_⟩
    · simp [switchState, droped]
    · simp [Open, droped]

theorem eq_db_of_dbAfter {st : DatabaseState} (found : event.dbAfter lsn tag = some st) :
    event = .db st ∧ lsn < st.lsn ∧ st.db = tag.rnode.dbNode ∧ st.spc = tag.rnode.spcNode := by
  cases event with
  | rel => contradiction
  | db =>
    dsimp only [Event.dbAfter] at found
    split at found
    · next matching =>
      rw [← Option.some.inj found]
      exact ⟨rfl, matching⟩
    · contradiction

theorem eq_rel_of_truncationAfter {size : RelationSize}
    (found : event.truncationAfter lsn tag = some size) : event = .rel size ∧
    tag.rnode = size.node := by
  cases event with
  | db st => contradiction
  | rel =>
    dsimp only [Event.truncationAfter] at found
    split at found
    · next matching =>
      rw [← Option.some.inj found]
      exact ⟨rfl, matching.2.1⟩
    · contradiction

/-- A truncation is not preceded by a drop of the database as its newest state. -/
theorem not_droped_before (lsn : Nat) (tag : BufferTag) {older segment : List Event}
    (ordered : Ordered (older ++ segment)) (sound : NoTruncationOfDropped (older ++ segment))
    (noState : segment.reverse.findSome? (Event.dbAfter lsn tag) = none)
    (truncated : segment.reverse.findSome? (Event.truncationAfter lsn tag) ≠ none)
    (st : DatabaseState) (newestState : older.reverse.findSome? (Event.dbAfter lsn tag) = some st) :
    st.change ≠ .droped := by
  intro droped
  obtain ⟨size, found⟩ := ne_none_iff_exists'.mp truncated
  obtain ⟨after, _, before, split, isSize, _⟩ := List.findSome?_eq_some_iff.mp found
  obtain ⟨later, _, earlier, dbSplit, isState, noLater⟩ := List.findSome?_eq_some_iff.mp newestState
  have relEvent := eq_rel_of_truncationAfter isSize
  have stateEvent := eq_db_of_dbAfter isState
  have segmentSplit : segment = before.reverse ++ .rel size :: after.reverse := by
    have reversed := congrArg List.reverse split
    rw [relEvent.1] at reversed
    simpa using reversed
  have olderSplit : older = earlier.reverse ++ .db st :: later.reverse := by
    have reversed := congrArg List.reverse dbSplit
    rw [stateEvent.1] at reversed
    simpa using reversed
  have whole : older ++ segment =
      earlier.reverse ++ .db st :: (later.reverse ++ before.reverse) ++ .rel size ::
      after.reverse := by
    rw [olderSplit, segmentSplit]
    simp
  obtain ⟨created, among, sameDb, sameSpc, _⟩ := sound _ _ _ st size whole droped
    (by rw [← relEvent.2]; exact stateEvent.2.2.1) (by rw [← relEvent.2]; exact stateEvent.2.2.2)
  -- The creation is after the drop, so that it would have been found before it.
  have newer : lsn < created.lsn := by
    rw [whole] at ordered
    have front := (pairwise_append.mp ordered).1
    have behind := (pairwise_cons.mp (pairwise_append.mp front).2.1).1 (.db created) among
    exact Nat.lt_of_lt_of_le stateEvent.2.1 behind
  have isFound : Event.dbAfter lsn tag (.db created) = some created :=
    if_pos ⟨newer, sameDb.trans stateEvent.2.2.1, sameSpc.trans stateEvent.2.2.2⟩
  rcases mem_append.mp among with inOlder | inSegment
  · have none := noLater (.db created) (mem_reverse.mp inOlder)
    rw [isFound] at none
    contradiction
  · have none := List.findSome?_eq_none_iff.mp noState (.db created) (by
      rw [segmentSplit]
      simp [mem_reverse.mp inSegment])
    rw [isFound] at none
    contradiction

theorem NoTruncationOfDropped.front {front rest : List Event}
    (sound : NoTruncationOfDropped (front ++ rest)) : NoTruncationOfDropped front := by
  intro before between after st size split
  apply sound before between (after ++ rest) st size
  rw [split]
  simp

theorem searchTables_eq (lsn : Nat) (tag : BufferTag) {segments : List (List Event)}
    (first : 1 ≤ cache.minTid) (tables : ∀ tid, cache.minTid ≤ tid → tid ≤ segments.length →
      polarGetRelSizeTable cache tid = some (fill tid (segments.getD (tid - 1) [])))
    (nonempty : ∀ segment ∈ segments, segment ≠ [])
    (removed : ∀ tid, tid + 1 < cache.minTid → ∀ event ∈ segments.getD tid [], event.lsn ≤ lsn)
    (ordered : Ordered segments.flatten) (sound : NoTruncationOfDropped segments.flatten)
    (rounds count : Nat) (isOpen : Open res) (enough : count < rounds)
    (low : cache.minTid ≤ count + 1) (high : count < segments.length) :
    searchTables true cache lsn tag rounds (fill (count + 1) (segments.getD count [])) res =
      some (outcome res
        ((segments.take (count + 1)).flatten.reverse.findSome? (Event.dbAfter lsn tag))
        ((segments.take (count + 1)).flatten.reverse.findSome?
          (Event.truncationAfter lsn tag))) := by
  induction rounds generalizing count res with
  | zero => omega
  | succ _ known =>
    have taken : (segments.take (count + 1)).flatten = (segments.take count).flatten ++
      segments.getD count [] := by
      rw [getD_eq_getElem _ _ high, take_succ_eq_append_getElem high, flatten_append,
        flatten_singleton]
    have front : segments.flatten = (segments.take (count + 1)).flatten ++
      (segments.drop (count + 1)).flatten := by
      rw [← flatten_append, take_append_drop]
    have orderedFront : Ordered ((segments.take count).flatten ++ segments.getD count []) := by
      rw [front, taken] at ordered
      exact (pairwise_append.mp ordered).1
    have soundFront :
      NoTruncationOfDropped ((segments.take count).flatten ++ segments.getD count []) := by
      rw [front, taken] at sound
      exact sound.front
    have someEvent : segments.getD count [] ≠ [] := by
      apply nonempty
      rw [getD_eq_getElem _ _ high]
      exact getElem_mem high
    have pieces := pairwise_append.mp orderedFront
    obtain ⟨going, checked, goes, stops⟩ := checkTable_eq lsn tag pieces.2.1 someEvent cache.minTid
      (count + 1) isOpen rfl
    have combined := outcome_or isOpen
      ((segments.take count).flatten.reverse.findSome? (Event.truncationAfter lsn tag))
      (not_droped_before lsn tag orderedFront soundFront)
    rw [taken, reverse_append, List.findSome?_append, List.findSome?_append]
    unfold searchTables
    rw [checked, (fill_fields (count + 1) _).1]
    cases going with
    | true =>
      have continues := goes rfl
      have before := tables count (by omega) (by omega)
      obtain ⟨previous, rfl⟩ : ∃ previous, count = previous + 1 := ⟨count - 1, by omega⟩
      have rest := known previous continues.2 (by omega) (by omega) (by omega)
      have equal := combined.resolve_right fun closed => closed.1 continues.2
      rw [← equal.2, ← rest]
      simp only [bind_eq_bind, bind_some, true_and, if_pos continues.1, Nat.add_sub_cancel, before]
    | false =>
      simp only [bind_eq_bind, bind_some, Bool.false_eq_true, false_and, if_false]
      rcases combined with ⟨stillOpen, _⟩ | ⟨_, equal⟩
      · have old : ∀ event ∈ (segments.take count).flatten.reverse, event.lsn ≤ lsn := by
          intro event among
          rw [mem_reverse] at among
          rcases stops rfl with closed | isFirst | ⟨later, inSegment, laterOld⟩
          · exact absurd stillOpen closed
          · obtain ⟨_, inFront, inSegment⟩ := mem_flatten.mp among
            obtain ⟨pos, inside, isSegment⟩ := mem_iff_getElem.mp inFront
            rw [length_take] at inside
            apply removed pos (by omega) event
            rw [getD_eq_getElem _ _ (by omega)]
            rw [getElem_take] at isSegment
            rw [isSegment]
            exact inSegment
          · exact Nat.le_trans (pieces.2.2 event among later inSegment) laterOld
        rw [findSome_dbAfter_of_le old, findSome_truncationAfter_of_le old, or_none, or_none]
      · rw [equal]

theorem find_concerns_cases (lsn : Nat) (tag : BufferTag) (recent : List Event) :
    (recent.find? (Event.concerns lsn tag) = none ∧
      recent.findSome? (Event.dbAfter lsn tag) = none ∧
      recent.findSome? (Event.truncationAfter lsn tag) = none) ∨
    (∃ st, recent.find? (Event.concerns lsn tag) = some (.db st) ∧
      recent.findSome? (Event.dbAfter lsn tag) = some st) ∨
      ∃ size, recent.find? (Event.concerns lsn tag) = some (.rel size) ∧
      recent.findSome? (Event.truncationAfter lsn tag) = some size := by
  induction recent with
  | nil => exact .inl ⟨rfl, rfl, rfl⟩
  | cons event _ known =>
    cases isState : event.dbAfter lsn tag with
    | some st =>
      have isDb := (eq_db_of_dbAfter isState).1
      refine .inr (.inl ⟨st, ?_, ?_⟩)
      · rw [List.find?_cons_of_pos (by simp [Event.concerns, isState]), isDb]
      · rw [List.findSome?_cons, isState]
    | none =>
      cases isSize : event.truncationAfter lsn tag with
      | some size =>
        have isRel := (eq_rel_of_truncationAfter isSize).1
        refine .inr (.inr ⟨size, ?_, ?_⟩)
        · rw [List.find?_cons_of_pos (by simp [Event.concerns, isSize]), isRel]
        · rw [List.findSome?_cons, isSize]
      | none =>
        rw [List.find?_cons_of_neg (by simp [Event.concerns, isState, isSize]), List.findSome?_cons,
          List.findSome?_cons, isState, isSize]
        exact known

theorem newest_truncation_not_droped {events : List Event} (ordered : Ordered events)
    (sound : NoTruncationOfDropped events) {size : RelationSize}
    (isNewest : newest lsn tag events = some (.rel size))
    (st : DatabaseState)
    (newestState : events.reverse.findSome? (Event.dbAfter lsn tag) = some st) :
    st.change ≠ .droped := by
  obtain ⟨concerning, later, earlier, split, noLater⟩ := List.find?_eq_some_iff_append.mp isNewest
  have whole : events = earlier.reverse ++ .rel size :: later.reverse := by
    have reversed := congrArg List.reverse split
    simpa using reversed
  have noState : (.rel size :: later.reverse).reverse.findSome? (Event.dbAfter lsn tag) = none := by
    rw [List.findSome?_eq_none_iff]
    intro event among
    rw [mem_reverse, mem_cons, mem_reverse] at among
    rcases among with same | isLater
    · rw [same]
      rfl
    · have notConcerned := noLater event isLater
      simp only [Event.concerns, Bool.not_or, Bool.and_eq_true, Bool.not_eq_true',
        isSome_eq_false_iff, isNone_iff_eq_none] at notConcerned
      exact notConcerned.1
  have truncated : (.rel size :: later.reverse).reverse.findSome? (Event.truncationAfter lsn tag) ≠
    none := by
    intro noTruncation
    have missing := List.findSome?_eq_none_iff.mp noTruncation (.rel size) (by simp)
    simp [Event.concerns, missing, Event.dbAfter] at concerning
  rw [whole] at ordered sound newestState
  apply not_droped_before lsn tag ordered sound noState truncated
  rw [reverse_append, List.findSome?_append, noState, none_or] at newestState
  exact newestState

/-- No truncation of the block is recorded after the LSN, should the newest event be a creation. -/
def NoTruncationBeforeCreation (lsn : Nat) (tag : BufferTag) (events : List Event) : Prop :=
  ∀ st, newest lsn tag events = some (.db st) → st.change = .new →
    ∀ event ∈ events, event.truncationAfter lsn tag = none

theorem outcome_answer_iff {events : List Event} (ordered : Ordered events)
    (sound : NoTruncationOfDropped events) :
    (outcome { state := .notfound, lsn := 0 } (events.reverse.findSome? (Event.dbAfter lsn tag))
        (events.reverse.findSome? (Event.truncationAfter lsn tag))).answer lsn = newestAnswer lsn
      tag events ↔ NoTruncationBeforeCreation lsn tag events := by
  unfold newestAnswer NoTruncationBeforeCreation
  rcases find_concerns_cases lsn tag events.reverse with
    ⟨isNewest, noState, noTruncation⟩ | ⟨st, isNewest, isState⟩ | ⟨size, isNewest, isSize⟩
  · rw [noState, noTruncation, newest, isNewest]
    simp [outcome, withDb, SearchResult.answer]
  · rw [isState, newest, isNewest]
    have all : (∀ event ∈ events, event.truncationAfter lsn tag = none) ↔
        events.reverse.findSome? (Event.truncationAfter lsn tag) = none := by
      simp
    rw [all]
    cases change : st.change with
    | droped => simp [outcome, withDb, SearchResult.answer, DbChange.state, change]
    | new =>
      cases events.reverse.findSome? (Event.truncationAfter lsn tag) with
      | none | some => simp [outcome, withDb, SearchResult.answer, DbChange.state, change]
  · have notDroped := newest_truncation_not_droped ordered sound isNewest
    rw [isSize, newest, isNewest]
    cases isState : events.reverse.findSome? (Event.dbAfter lsn tag) with
    | none => simp [outcome, withDb, SearchResult.answer]
    | some st =>
      cases change : st.change with
      | droped => exact absurd change (notDroped st isState)
      | new => simp [outcome, withDb, SearchResult.answer, DbChange.state, change]

theorem runOps_holds {older : List (List Event)} {bound limit : Nat}
    (holds : Holds cache older segment bound) (started : segment = [] → older = []) (ops : List Op)
    (ordered : Ordered (older.flatten ++ segment ++ events ops)) (low : bound ≤ limit)
    (kept : ∀ lsn, .truncate lsn ∈ ops → lsn ≤ limit) :
    ∃ last lastOlder lastSegment lastBound, runOps cache ops = some last ∧
      Holds last lastOlder lastSegment lastBound ∧ (lastSegment = [] → lastOlder = []) ∧
      lastOlder.flatten ++ lastSegment = older.flatten ++ segment ++ events ops ∧
      lastBound ≤ limit := by
  induction ops generalizing cache older segment bound with
  | nil => exact ⟨cache, older, segment, bound, rfl, holds, started, (append_nil _).symm, low⟩
  | cons op rest known =>
    have keptRest : ∀ lsn, .truncate lsn ∈ rest → lsn ≤ limit := fun lsn among =>
      kept lsn (mem_cons_of_mem _ among)
    cases op with
    | record event =>
      obtain ⟨nextOlder, nextSegment, next, same, someEvent⟩ := holds.record event
      have whole : older.flatten ++ segment ++ events (.record event :: rest) =
          nextOlder.flatten ++ nextSegment ++ events rest := by
        rw [same]
        simp [events]
      rw [whole] at ordered ⊢
      exact known next (fun empty => absurd empty someEvent) ordered low keptRest
    | truncate lsn =>
      have orderedOlder : Ordered older.flatten :=
        (pairwise_append.mp (pairwise_append.mp ordered).1).1
      obtain ⟨_, truncated, holdsNext⟩ := holds.truncate orderedOlder lsn
      obtain ⟨last, lastOlder, lastSegment, lastBound, ran, remaining⟩ :=
        known holdsNext started ordered (Nat.max_le.mpr ⟨low, kept lsn mem_cons_self⟩) keptRest
      refine ⟨last, lastOlder, lastSegment, lastBound, ?_, remaining⟩
      unfold runOps
      rw [applyOp, truncated]
      exact ran

theorem Holds.check_eq {older : List (List Event)} {bound : Nat}
    (holds : Holds cache older segment bound) (started : segment = [] → older = [])
    (low : bound ≤ lsn) (ordered : Ordered (older.flatten ++ segment))
    (sound : NoTruncationOfDropped (older.flatten ++ segment)) :
    polarCheckRelBlockValidAndLsn cache lsn tag = some ((outcome { state := .notfound, lsn := 0 }
        ((older.flatten ++ segment).reverse.findSome? (Event.dbAfter lsn tag))
        ((older.flatten ++ segment).reverse.findSome? (Event.truncationAfter lsn tag))).answer
        lsn) := by
  have whole : (older ++ [segment]).flatten = older.flatten ++ segment := by
    rw [flatten_append, flatten_singleton]
  have isOpen : Open { state := .notfound, lsn := 0 } := .inl rfl
  unfold polarCheckRelBlockValidAndLsn polarCheckRelBlockValidInternal
  by_cases empty : cache.active.maxLsn = 0
  · have old : ∀ event ∈ (older.flatten ++ segment).reverse, event.lsn ≤ lsn := by
      intro event among
      rw [mem_reverse] at among
      by_cases noEvent : segment = []
      · rw [noEvent, started noEvent] at among
        contradiction
      rw [holds.current, fill_maxLsn _ noEvent] at empty
      rw [← dropLast_concat_getLast noEvent, ← append_assoc] at among ordered
      rcases mem_append.mp among with inFront | atEnd
      · have bounded := (pairwise_snoc.mp ordered).2 event inFront
        omega
      · rw [mem_singleton.mp atEnd]
        omega
    rw [findSome_dbAfter_of_le old, findSome_truncationAfter_of_le old, outcome_none isOpen]
    simp [empty]
  · have someEvent : segment ≠ [] := by
      intro noEvent
      rw [holds.current, noEvent] at empty
      exact empty rfl
    have nonempty : ∀ held ∈ older ++ [segment], held ≠ [] :=
      forall_mem_snoc.mpr ⟨holds.nonempty, someEvent⟩
    have length : (older ++ [segment]).length = older.length + 1 := length_append ..
    have current : (older ++ [segment]).getD older.length [] = segment := by
      rw [getD_append_right _ _ _ _ (Nat.le_refl _), Nat.sub_self]
      rfl
    rw [← whole] at ordered sound
    have found := searchTables_eq lsn tag holds.first
      (fun tid below above => holds.tables_all below (length ▸ above)) nonempty
      (fun tid below event among => Nat.le_trans (holds.removed_all below event among) low)
        ordered sound
      (older.length + 1) older.length isOpen (Nat.lt_succ_self _) holds.last (by omega)
    rw [← length, take_length, length, whole, current] at found
    rw [holds.active_tid, holds.current] at *
    simp [empty, found]

/-- For every history that a replay can record, the answer for a block follows the newest event that
concerns it exactly if no truncation of the block precedes a creation of its database as that
event. -/
theorem check_follows_newest_iff {blocks : Nat} (positive : 0 < blocks) (ops : List Op)
    (ordered : Ordered (events ops)) (sound : NoTruncationOfDropped (events ops)) (lsn : Nat)
    (tag : BufferTag) (kept : ∀ truncated, Op.truncate truncated ∈ ops → truncated ≤ lsn) :
    ∃ cache answer, runOps (polarRelSizeShmemInit blocks) ops = some cache ∧
      polarCheckRelBlockValidAndLsn cache lsn tag = some answer ∧
      (answer = newestAnswer lsn tag (events ops) ↔
        NoTruncationBeforeCreation lsn tag (events ops)) := by
  obtain ⟨cache, older, segment, _, ran, holds, started, same, low⟩ :=
    runOps_holds (holds_init blocks positive) (fun _ => rfl) ops ordered (Nat.zero_le lsn) kept
  have recorded : older.flatten ++ segment = events ops := same
  rw [← recorded] at ordered sound ⊢
  exact ⟨cache, _, ran, holds.check_eq started low ordered sound, outcome_answer_iff ordered sound⟩

def thirdBlock : BufferTag := { rnode := ⟨1, 5, 7⟩, forkNum := .main, blockNum := 3 }

def truncationAt (lsn : Nat) : Op :=
  .record (.rel { lsn := lsn, node := ⟨1, 5, 7⟩, fork := .main, relSize := 2 })

def databaseAt (lsn : Nat) (change : DbChange) : Op :=
  .record (.db { lsn := lsn, spc := 1, db := 5, change := change })

/-- A relation of a new database is truncated; the block is not valid before. -/
theorem truncated_block_not_valid :
    ∃ cache, runOps (polarRelSizeShmemInit 1) [databaseAt 20 .new, truncationAt 50, .truncate 5] =
      some cache ∧ polarCheckRelBlockValidAndLsn cache 10 thirdBlock = some (false, 50) := by
  have sound :
    NoTruncationOfDropped (events [databaseAt 20 .new, truncationAt 50, .truncate 5]) := by
    intro _ _ _ st _ split droped
    have among : Event.db st ∈ events [databaseAt 20 .new, truncationAt 50, .truncate 5] := by
      rw [split]
      simp
    simp only [events, databaseAt, truncationAt, filterMap_cons, filterMap_nil, mem_cons,
      reduceCtorEq, Event.db.injEq, not_mem_nil, or_false] at among
    rw [among] at droped
    contradiction
  have noCreation : NoTruncationBeforeCreation 10 thirdBlock
      (events [databaseAt 20 .new, truncationAt 50, .truncate 5]) := by
    exact nofun
  obtain ⟨cache, _, ran, checked, exactly⟩ := check_follows_newest_iff Nat.zero_lt_one
    [databaseAt 20 .new, truncationAt 50, .truncate 5]
    (by simp [Ordered, events, databaseAt, truncationAt, Event.lsn])
    sound 10 thirdBlock (by simp [databaseAt, truncationAt])
  rw [exactly.mpr noCreation] at checked
  exact ⟨cache, ran, checked⟩

/-- The relation was truncated, its database dropped and created again: the search returns the
truncation. -/
theorem truncation_before_recreation_returned :
    ∃ cache, runOps (polarRelSizeShmemInit 1)
        [truncationAt 50, databaseAt 70 .droped, databaseAt 100 .new] = some cache ∧
      Ordered (events [truncationAt 50, databaseAt 70 .droped, databaseAt 100 .new]) ∧
      NoTruncationOfDropped (events [truncationAt 50, databaseAt 70 .droped, databaseAt 100 .new]) ∧
      newestAnswer 10 thirdBlock
        (events [truncationAt 50, databaseAt 70 .droped, databaseAt 100 .new]) = (true, 100) ∧
      polarCheckRelBlockValidAndLsn cache 10 thirdBlock = some (false, 50) := by
  refine ⟨_, rfl, ?_, ?_, by decide, rfl⟩
  · simp [Ordered, events, databaseAt, truncationAt, Event.lsn]
  intro before between after st size split
  cases before with
  | nil => simp [events, truncationAt] at split
  | cons _ before =>
    have among : Event.rel size ∈ events [databaseAt 70 .droped, databaseAt 100 .new] := by
      rw [show events [databaseAt 70 .droped, databaseAt 100 .new] =
        before ++ Event.db st :: between ++ Event.rel size :: after from (List.cons.inj split).2]
      simp
    simp [events, databaseAt] at among

end PolarDB.RelSize.Cache
