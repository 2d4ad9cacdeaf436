import PolarDB.Lib.Scan
import PolarDB.LogIndex.PageIter
import PolarDB.LogIndex.SnapshotRun

/-!
# The page iterator returns exactly the page's lsns in the asked interval

`stackLsns` reads the stack in the order in which `next` pops it. Each loop of the
creation refines `scanDown` on the lsns it walks over, and the walk over all tables
keeps what is still to be found: `Searching iter rest target` says that scanning
`rest` on top of the stack gives `target`.
-/

namespace PolarDB.LogIndex

open List Lib.Linked PolarDB.Lib.Bloom PolarDB.Lib.Scan PolarDB.Lib.History

section Stack

def itemsLsns (items : List PageLsn) : List Nat := items.flatMap fun block =>
    (block.lsn.take block.iterPos).reverse

def stackLsns (stack : List TblStack) : List Nat := stack.flatMap fun tblStack =>
    itemsLsns tblStack.items

/-- No block is empty, and none was popped from. -/
def ItemsOk (items : List PageLsn) : Prop := ∀ block ∈ items, block.iterPos = block.lsn.length ∧
    block.lsn ≠ []

def StackOk (stack : List TblStack) : Prop := ∀ tblStack ∈ stack, ItemsOk tblStack.items

theorem tbl_stack_push_spec {items : List PageLsn} (ok : ItemsOk items) (prevLsn lsn : Nat) :
    itemsLsns (tblStackPush items prevLsn lsn) = lsn :: itemsLsns items ∧
    ItemsOk (tblStackPush items prevLsn lsn) := by
  cases items with
  | nil =>
    constructor
    · simp [tblStackPush, itemsLsns]
    · exact forall_mem_singleton.mpr ⟨rfl, by simp⟩
  | cons top rest =>
    have ⟨topOk, restOk⟩ := forall_mem_cons.mp ok
    unfold tblStackPush
    dsimp only
    split_ifs
    · constructor
      · simp [itemsLsns]
      · exact forall_mem_cons.mpr ⟨⟨rfl, by simp⟩, ok⟩
    · constructor
      · have whole : (top.lsn ++ [lsn]).take (top.lsn.length + 1) = top.lsn ++ [lsn] :=
          take_of_length_le (by simp)
        simp [itemsLsns, topOk.1, whole]
      · exact forall_mem_cons.mpr ⟨⟨by simp, by simp⟩, restOk⟩

/-- Every block has something left to pop. -/
def Poppable (stack : List TblStack) : Prop :=
  ∀ tblStack ∈ stack, ∀ block ∈ tblStack.items, 0 < block.iterPos ∧ block.iterPos ≤ block.lsn.length

theorem pop_stack_spec (stack : List TblStack) (ok : Poppable stack) :
    match popStack stack with
    | none => stackLsns stack = []
    | some ((_, lsn), rest) => stackLsns stack = lsn :: stackLsns rest ∧ Poppable rest := by
  induction stack with
  | nil => rfl
  | cons top rest ih =>
    have ⟨topOk, topRest⟩ := forall_mem_cons.mp ok
    have restOk := ih topRest
    cases shape : top.items with
    | nil =>
      simp only [popStack, shape, logIndexTblStackPopLsn]
      cases popped : popStack rest with
      | none | some =>
        rw [popped] at restOk
        simpa [stackLsns, itemsLsns, shape] using restOk
    | cons block blocks =>
      rw [shape] at topOk
      have ⟨blockOk, othersOk⟩ := forall_mem_cons.mp topOk
      rcases Nat.exists_eq_succ_of_ne_zero (ne_of_gt blockOk.1) with ⟨below, posEq⟩
      have inside : below < block.lsn.length := by omega
      have split : (block.lsn.take block.iterPos).reverse =
          block.lsn.getD below 0 :: (block.lsn.take below).reverse := by
        rw [posEq, Nat.succ_eq_add_one, take_add_one, List.getElem?_eq_getElem inside,
          getD_eq_getElem _ _ inside]
        simp
      simp only [popStack, shape, logIndexTblStackPopLsn, posEq, Nat.succ_sub_one]
      split_ifs with lastOne
      · constructor
        · simp only [stackLsns, itemsLsns, flatMap_cons, shape, split, lastOne]
          simp
        · exact forall_mem_cons.mpr ⟨othersOk, topRest⟩
      · constructor
        · simp only [stackLsns, itemsLsns, flatMap_cons, shape, split]
          simp
        refine forall_mem_cons.mpr ⟨forall_mem_cons.mpr ⟨?_, othersOk⟩, topRest⟩
        exact ⟨Nat.pos_of_ne_zero lastOne, inside.le⟩

variable {Tag : Type}

theorem drain_spec (iter : PageIter Tag) (ok : Poppable iter.lsnStack) {fuel : Nat}
    (enough : (stackLsns iter.lsnStack).length < fuel) :
    ∃ infos, drainPageIterator fuel iter = some infos ∧ infos.map LogIndexLsn.lsn =
      stackLsns iter.lsnStack ∧ ∀ info ∈ infos, info.tag = iter.tag := by
  induction fuel generalizing iter with
  | zero => exact absurd enough (Nat.not_lt_zero _)
  | succ fuel ih =>
    have popped := pop_stack_spec iter.lsnStack ok
    unfold drainPageIterator polarLogindexPageIteratorNext
    cases res : popStack iter.lsnStack with
    | none =>
      rw [res] at popped
      exact ⟨[], rfl, by simpa using popped.symm, by simp⟩
    | some pair =>
      rcases pair with ⟨⟨prevLsn, lsn⟩, rest⟩
      rw [res] at popped
      have shorter : (stackLsns rest).length < fuel := by
        have length := congrArg List.length popped.1
        simp only [length_cons] at length
        omega
      rcases ih { iter with lsnStack := rest } popped.2 shorter with ⟨infos, drained, lsns, tags⟩
      refine ⟨⟨iter.tag, lsn, prevLsn⟩ :: infos, ?_, ?_, ?_⟩
      · simp only [Option.map_some, drained]
      · rw [popped.1, map_cons, lsns]
      · exact forall_mem_cons.mpr ⟨rfl, tags⟩

end Stack

section Walk
variable {Tag : Type} {table : LogIdxTableData Tag}

/-- `after` is `iter` with the stack and the state that a scan with `res` leaves. -/
structure Walked (iter after : PageIter Tag) (res : List Nat × Bool) : Prop where
  lsns : stackLsns after.lsnStack = res.1
  state : after.state = if res.2 = true then .finished else .forward
  stackOk : StackOk after.lsnStack
  prevs : after.lsnStack.map TblStack.prevPageLsn = iter.lsnStack.map TblStack.prevPageLsn
  params : after = { iter with state := after.state, lsnStack := after.lsnStack }

theorem push_spec {iter : PageIter Tag} (ok : StackOk iter.lsnStack) (opened : iter.lsnStack ≠ [])
    (forward : iter.state = .forward) (prevLsn lsn : Nat) :
    Walked iter (iter.push prevLsn lsn) (lsn :: stackLsns iter.lsnStack, false) := by
  unfold PageIter.push
  cases shape : iter.lsnStack with
  | nil => exact absurd shape opened
  | cons top =>
    rw [shape] at ok
    have pushed := tbl_stack_push_spec (ok top mem_cons_self) prevLsn lsn
    constructor
    · simp only [stackLsns, flatMap_cons, pushed.1, cons_append]
    · exact forward
    · exact forall_mem_cons.mpr ⟨pushed.2, (forall_mem_cons.mp ok).2⟩
    · simp [shape]
    · rfl

theorem Walked.trans {first second third : PageIter Tag} {res later : List Nat × Bool}
    (walked : Walked first second res) (again : Walked second third later) :
    Walked first third later := by
  have firstParams := walked.params
  have secondParams := again.params
  refine { again with prevs := ?_, params := ?_ }
  · exact again.prevs.trans walked.prevs
  · rw [secondParams, firstParams]

theorem Walked.finish {iter after : PageIter Tag} {found : List Nat} {flag : Bool}
    (walked : Walked iter after (found, flag)) :
    Walked iter { after with state := .finished } (found, true) := by
  have params := walked.params
  refine { walked with state := ?_, params := ?_ }
  · rfl
  · rw [params]

theorem Walked.refl {iter : PageIter Tag} (ok : StackOk iter.lsnStack)
    (forward : iter.state = .forward) : Walked iter iter (stackLsns iter.lsnStack, false) :=
  ⟨rfl, forward, ok, rfl, rfl⟩

section Kept
variable {iter after : PageIter Tag} {res : List Nat × Bool}

variable (walked : Walked iter after res)
include walked

theorem Walked.opened (opened : iter.lsnStack ≠ []) : after.lsnStack ≠ [] := by
  intro empty
  have same := congrArg List.length walked.prevs
  rw [empty] at same
  simp only [map_nil, length_nil, length_map] at same
  exact opened (length_eq_zero_iff.mp same.symm)

theorem Walked.minLsn : after.minLsn = iter.minLsn := by
  rw [walked.params]

theorem Walked.maxLsn : after.maxLsn = iter.maxLsn := by
  rw [walked.params]

theorem Walked.iterMaxLsn : after.iterMaxLsn = iter.iterMaxLsn := by
  rw [walked.params]

end Kept

def SegLsns (table : LogIdxTableData Tag) (segId : Nat) (lsns : List Nat) : Prop :=
  segSuffixes table segId = lsns.map suffixOf ∧ ∀ lsn ∈ lsns, table.prefixLsn = prefixOf lsn

variable {lsns : List Nat}

theorem SegLsns.combine {segId : Nat} (seg : SegLsns table segId lsns) {idx : Nat}
    (inside : idx < lsns.length) : combineLsn table ((segSuffixes table segId).getD idx 0) =
    lsns.get ⟨idx, inside⟩ := by
  rw [seg.1, getD_eq_getElem _ _ (by simpa using inside), getElem_map]
  exact combine_suffix table _ (seg.2 _ (getElem_mem inside))

theorem push_lsn_spec {segId : Nat} (seg : SegLsns table segId lsns) (size : Nat)
    (bound : size ≤ lsns.length) (iter : PageIter Tag) (wasCorrect : Bool)
    (ok : StackOk iter.lsnStack) (opened : iter.lsnStack ≠ []) (forward : iter.state = .forward)
    (linked : wasCorrect = true ∨ (lsns.take size).getLast? = some iter.iterPrevLsn) :
    ∃ after, logIndexPageIteratePushLsn table segId size (iter, wasCorrect) = .ok (after, true) ∧
      Walked iter after (scanDown iter.minLsn iter.iterMaxLsn (lsns.take size).reverse
        (stackLsns iter.lsnStack)) := by
  induction size generalizing iter wasCorrect with
  | zero =>
    have correct : wasCorrect = true := by
      rcases linked with correct | impossible
      · exact correct
      · simp at impossible
    subst correct
    exact ⟨iter, rfl, Walked.refl ok forward⟩
  | succ idx ih =>
    have inside : idx < lsns.length := bound
    have lsnEq := seg.combine inside
    generalize lsnIs : lsns.get ⟨idx, inside⟩ = lsn at lsnEq
    have taken : (lsns.take (idx + 1)).reverse = lsn :: (lsns.take idx).reverse := by
      simp [← lsnIs]
    have correct : (wasCorrect || decide (lsn = iter.iterPrevLsn)) = true := by
      rcases linked with isCorrect | isPrev
      · rw [isCorrect, Bool.true_or]
      · rw [List.getLast?_eq_head?_reverse, taken, List.head?_cons, Option.some.injEq] at isPrev
        rw [decide_eq_true isPrev, Bool.or_true]
    rw [taken]
    unfold logIndexPageIteratePushLsn
    simp only [lsnEq, correct, Bool.true_eq_false, if_false]
    rw [scanDown]
    by_cases inRange : iter.minLsn ≤ lsn ∧ lsn ≤ iter.iterMaxLsn
    · rw [if_pos inRange, if_pos inRange]
      have pushed := push_spec ok opened forward (logIndexGetSegPrevLsn table segId idx) lsn
      generalize iter.push (logIndexGetSegPrevLsn table segId idx) lsn = after at pushed
      by_cases least : lsn = iter.minLsn
      · rw [if_pos least, if_pos least]
        exact ⟨_, rfl, pushed.finish⟩
      · rw [if_neg least, if_neg least]
        rcases ih (inside.le) after true pushed.stackOk (pushed.opened opened) pushed.state
          (.inl rfl) with ⟨last, done, walked⟩
        rw [pushed.minLsn, pushed.iterMaxLsn, pushed.lsns] at walked
        exact ⟨last, done, pushed.trans walked⟩
    · rw [if_neg inRange, if_neg inRange]
      by_cases below : lsn < iter.minLsn
      · rw [if_pos below, if_pos below]
        exact ⟨_, rfl, (Walked.refl ok forward).finish⟩
      · rw [if_neg below, if_neg below]
        exact ih (inside.le) iter true ok opened forward (.inl rfl)

/-- The walk over the segments of an item scans all its lsns from the newest on. -/
theorem iterate_segs_spec {freeHead : Nat} {allLsns : List Nat} {item : LogItemHead Tag}
    {allSegs : List Nat} (rep : ItemRep table freeHead allLsns item allSegs)
    (samePrefix : ∀ lsn ∈ allLsns, table.prefixLsn = prefixOf lsn) (segs : List Nat)
    {fuel segId : Nat} (segsIn : ∀ other ∈ segs, other ∈ allSegs)
    (lsnsIn : ∀ lsn ∈ lsns, lsn ∈ allLsns) (path : Path (prevSegOf table) item.headSeg segId segs)
    (enough : segs.length < fuel)
    (content : item.suffixLsn ++ segs.reverse.flatMap (segSuffixes table) = lsns.map suffixOf)
    (iter : PageIter Tag) (wasCorrect : Bool) (ok : StackOk iter.lsnStack)
    (opened : iter.lsnStack ≠ []) (forward : iter.state = .forward)
    (linked : wasCorrect = true ∨ lsns.getLast? = some iter.iterPrevLsn) :
    ∃ after, iterateSegs table item fuel segId (iter, wasCorrect) = .ok (after, true) ∧
      Walked iter after (scanDown iter.minLsn iter.iterMaxLsn lsns.reverse
        (stackLsns iter.lsnStack)) := by
  induction segs generalizing fuel segId lsns iter wasCorrect with
  | nil =>
    cases fuel with
    | zero => exact absurd enough (Nat.not_lt_zero _)
    | succ fuel =>
      have atHead : segId = item.headSeg := path
      simp only [reverse_nil, flatMap_nil, append_nil] at content
      have seg : SegLsns table segId lsns := by
        constructor
        · rw [segSuffixes, atHead, rep.atHead]
          exact content
        · exact fun lsn mem => samePrefix lsn (lsnsIn lsn mem)
      have size : item.suffixLsn.length = lsns.length := by
        rw [content, length_map]
      rw [iterateSegs, if_pos atHead, size]
      have whole := push_lsn_spec seg lsns.length le_rfl iter wasCorrect ok opened forward
      rw [take_length] at whole
      exact whole linked
  | cons _ rest ih =>
    cases fuel with
    | zero => exact absurd enough (Nat.not_lt_zero _)
    | succ =>
      rcases path with ⟨segEq, notHead, restPath⟩
      subst segEq
      rcases rep.segsIn segId (segsIn segId mem_cons_self) with
        ⟨positive, -, seg, atSeg, -, count, -⟩
      have found := item_seg_of_segment positive atSeg
      have suffixes : segSuffixes table segId = seg.suffixLsn := by rw [segSuffixes, atSeg]
      simp only [reverse_cons, flatMap_append, flatMap_cons, flatMap_nil, append_nil,
        suffixes] at content
      rw [← append_assoc] at content
      rcases map_eq_append_iff.mp content.symm with ⟨_, late, split, earlyMap, lateMap⟩
      subst split
      have lateLength : seg.suffixLsn.length = late.length := by rw [← lateMap, length_map]
      have lateFull : late ≠ [] := by
        intro empty
        rw [empty] at lateLength
        rw [lateLength] at count
        exact absurd count (Nat.lt_irrefl _)
      have segLsns : SegLsns table segId late := by
        constructor
        · rw [suffixes, lateMap]
        · exact fun lsn mem => samePrefix lsn (lsnsIn lsn (mem_append_right _ mem))
      rw [List.getLast?_append_of_ne_nil _ lateFull] at linked
      have pushed := push_lsn_spec segLsns late.length le_rfl iter wasCorrect ok opened forward
      rw [take_length] at pushed
      rcases pushed linked with ⟨walkedIter, pushed, walked⟩
      rw [iterateSegs, if_neg notHead, found]
      dsimp only
      rw [if_neg (ne_of_gt count), lateLength, pushed]
      dsimp only
      rw [reverse_append, scan_down_append]
      cases flag :
        (scanDown iter.minLsn iter.iterMaxLsn late.reverse (stackLsns iter.lsnStack)).2 with
      | true =>
        have stopped := walked.state
        rw [flag, if_pos rfl] at stopped
        rw [if_neg (by rw [stopped]; decide), if_pos rfl]
        exact ⟨walkedIter, rfl, walked⟩
      | false =>
        have goesOn := walked.state
        rw [flag, if_neg (by decide)] at goesOn
        have nextPath : Path (prevSegOf table) item.headSeg seg.prevSeg rest := by
          rw [prevSegOf, found] at restPath
          exact restPath
        rcases ih (fun other mem => segsIn other (mem_cons_of_mem _ mem))
          (fun lsn mem => lsnsIn lsn (mem_append_left _ mem)) nextPath
          (Nat.lt_of_succ_lt_succ enough) earlyMap.symm walkedIter true walked.stackOk
          (walked.opened opened) goesOn (.inl rfl) with ⟨after, done, again⟩
        rw [walked.minLsn, walked.iterMaxLsn, walked.lsns] at again
        rw [if_pos goesOn, if_neg (by decide)]
        exact ⟨after, done, walked.trans again⟩

end Walk

section Tables
variable {Tag : Type} {cfg : Config Tag} {data : LogIdxTableData Tag}
  {entries : List (LogIndexLsn Tag)} {rest target : List Nat} {iter after : PageIter Tag}

/-- `rest` are the page's lsns in the tables not yet visited; scanning them gives
`target`, unless the search already ended with it. -/
structure Searching (iter : PageIter Tag) (rest target : List Nat) : Prop where
  stackOk : StackOk iter.lsnStack
  forward : iter.state = .forward →
    (scanDown iter.minLsn iter.maxLsn rest.reverse (stackLsns iter.lsnStack)).1 = target
  finished : iter.state ≠ .forward → stackLsns iter.lsnStack = target
  -- before the first table of the page nothing is known about it; after it the next
  -- one has to end with the previous lsn, and lies below everything found
  link : iter.state = .forward → (iter.lsnStack = [] ∧ iter.iterPrevLsn = invalidLsn ∧
    iter.iterMaxLsn = iter.maxLsn) ∨
    ∃ top below, iter.lsnStack = top :: below ∧ top.prevPageLsn = rest.getLastD 0 ∧
      ∀ lsn ∈ rest, lsn ≤ iter.maxLsn ∧ lsn ≤ iter.iterMaxLsn

structure SameQuery (iter after : PageIter Tag) : Prop where
  tag : after.tag = iter.tag
  key : after.key = iter.key
  minLsn : after.minLsn = iter.minLsn
  maxLsn : after.maxLsn = iter.maxLsn

theorem Searching.stop (searching : Searching iter rest target) (goesOn : iter.state = .forward)
    (below : ∀ lsn ∈ rest, lsn < iter.minLsn) (remaining : List Nat) :
    Searching { iter with state := .finished } remaining target where
  stackOk := searching.stackOk
  forward := nofun
  finished := by
    intro _
    have found := searching.forward goesOn
    rw [scan_down_below _ _ (fun lsn mem => below lsn (mem_reverse.mp mem))] at found
    exact found
  link := nofun

theorem Searching.skip {lsns : List Nat} (searching : Searching iter (rest ++ lsns) target)
    (goesOn : iter.state = .forward) (interval : iter.minLsn < iter.maxLsn)
    (above : ∀ lsn ∈ lsns, iter.maxLsn < lsn) : Searching iter rest target where
  stackOk := searching.stackOk
  forward := by
    intro _
    have found := searching.forward goesOn
    rw [reverse_append, scan_down_append,
      scan_down_above _ _ (interval.le) (fun lsn mem => above lsn (mem_reverse.mp mem)),
      if_neg Bool.false_ne_true] at found
    exact found
  finished := absurd goesOn
  link := by
    intro _
    rcases searching.link goesOn with fresh | ⟨top, below, shape, prevEq, bounds⟩
    · exact .inl fresh
    have none : lsns = [] := by
      by_contra nonempty
      rcases exists_mem_of_ne_nil lsns nonempty with ⟨lsn, mem⟩
      have low := (bounds lsn (mem_append_right _ mem)).1
      have high := above lsn mem
      omega
    rw [none, append_nil] at prevEq bounds
    exact .inr ⟨top, below, shape, prevEq, bounds⟩

variable {freeHead : Nat} {item : LogItemHead Tag}

theorem iterate_table_data_spec {lsns segs : List Nat}
    (rep : ItemRep data freeHead lsns item segs) (small : freeHead ≤ memTblSegNum)
    (samePrefix : ∀ lsn ∈ lsns, data.prefixLsn = prefixOf lsn) (ok : StackOk iter.lsnStack)
    (goesOn : iter.state = .forward)
    (linked : iter.iterPrevLsn = invalidLsn ∨ lsns.getLast? = some iter.iterPrevLsn) :
    ∃ after, logIndexIterateTableData data item iter = .ok after ∧
      Walked { iter with lsnStack := ⟨item.prevPageLsn, []⟩ :: iter.lsnStack } after
        (scanDown iter.minLsn iter.iterMaxLsn lsns.reverse (stackLsns iter.lsnStack)) := by
  have filled : item.suffixLsn.length ≠ 0 := ne_of_gt rep.headCount.1
  have tailValid : item.tailSeg ≠ invalidSeg := ne_of_gt rep.tail_pos
  have short : segs.length < memTblSegNum := rep.segs_short.trans_le small
  have openedOk : StackOk (⟨item.prevPageLsn, []⟩ :: iter.lsnStack) := by
    exact forall_mem_cons.mpr ⟨nofun, ok⟩
  rcases iterate_segs_spec rep samePrefix segs (fun _ mem => mem) (fun _ mem => mem)
    rep.backward short rep.content { iter with lsnStack := ⟨item.prevPageLsn, []⟩ :: iter.lsnStack }
    (decide (iter.iterPrevLsn = invalidLsn)) openedOk (by simp) goesOn
    (by simpa using linked) with ⟨after, done, walked⟩
  refine ⟨after, ?_, ?_⟩
  · simp only [logIndexIterateTableData, if_neg filled, if_neg tailValid, done]
    rfl
  · simpa [stackLsns, itemsLsns] using walked

theorem Searching.take_prev {lsns : List Nat} (searching : Searching iter (rest ++ lsns) target)
    (goesOn : iter.state = .forward) (nonempty : lsns ≠ []) (positive : ∀ lsn ∈ lsns, 0 < lsn) :
    ∃ prevLsn, takePrevLsn iter = { iter with iterPrevLsn := prevLsn } ∧
      (prevLsn = invalidLsn ∨ lsns.getLast? = some prevLsn) ∧
      (∀ lsn ∈ lsns, lsn ≤ iter.iterMaxLsn ↔ lsn ≤ iter.maxLsn) ∧
      ((∃ lsn ∈ lsns, iter.maxLsn < lsn) → prevLsn = iter.iterPrevLsn) := by
  rcases searching.link goesOn with ⟨empty, noPrev, maxEq⟩ | ⟨top, _, shape, prevEq, bounds⟩
  · refine ⟨iter.iterPrevLsn, ?_, .inl noPrev, ?_, fun _ => rfl⟩
    · have same : takePrevLsn iter = iter := by
        unfold takePrevLsn
        rw [empty]
      exact same
    · intro lsn _
      rw [maxEq]
  rw [getLastD_append_nonempty _ _ _ nonempty] at prevEq
  have lastIn := getLastD_mem nonempty
  have valid : top.prevPageLsn ≠ invalidLsn := by
    rw [prevEq]
    exact ne_of_gt (positive _ lastIn)
  have inBounds := fun lsn mem => bounds lsn (mem_append_right rest mem)
  refine ⟨top.prevPageLsn, ?_, .inr ?_, ?_, ?_⟩
  · rw [takePrevLsn, shape]
    dsimp only
    rw [if_pos valid]
  · rw [prevEq, getLastD_eq_getLast?, List.getLast?_eq_some_getLast nonempty, Option.getD_some]
  · intro lsn mem
    exact ⟨fun _ => (inBounds lsn mem).1, fun _ => (inBounds lsn mem).2⟩
  · rintro ⟨lsn, mem, above⟩
    exact absurd (inBounds lsn mem).1 (Nat.not_le_of_gt above)

theorem Walked.searching {lsns : List Nat} {prevLsn : Nat} {scanned : List Nat × Bool}
    (walked : Walked { iter with
        iterPrevLsn := prevLsn, lsnStack := ⟨item.prevPageLsn, []⟩ :: iter.lsnStack } after scanned)
    (targetEq : (if scanned.2 = true then scanned
      else scanDown iter.minLsn iter.maxLsn rest.reverse scanned.1).1 = target)
    (prevIs : item.prevPageLsn = rest.getLastD 0) (notAbove : ¬iter.maxLsn < lsns.headD 0)
    (older : ∀ low ∈ rest, ∀ high ∈ lsns, low < high) (bounded : ∀ lsn ∈ lsns, lsn < uint64Max)
    (nonempty : lsns ≠ []) :
    Searching { after with iterMaxLsn := (lsns.getLastD 0 + 1) % 2 ^ 64 } rest target := by
  have st := walked.state
  constructor
  · exact walked.stackOk
  · intro forward
    have flag : ¬scanned.2 = true := by
      intro stopped
      rw [if_pos stopped] at st
      rw [st] at forward
      cases forward
    rw [if_neg flag, ← walked.lsns] at targetEq
    have sameMin := walked.minLsn
    have sameMax := walked.maxLsn
    rw [sameMin, sameMax]
    exact targetEq
  · intro stopped
    have flag : scanned.2 = true := by
      by_contra goesOn
      rw [if_neg goesOn] at st
      exact stopped st
    rw [if_pos flag, ← walked.lsns] at targetEq
    exact targetEq
  · intro _
    right
    have prevs := walked.prevs
    cases shape : after.lsnStack with
    | nil =>
      rw [shape] at prevs
      cases prevs
    | cons top below =>
      rw [shape] at prevs
      refine ⟨top, below, rfl, (List.cons.inj prevs).1.trans prevIs, ?_⟩
      intro lsn mem
      have lastIn := getLastD_mem nonempty
      have lastBound := bounded _ lastIn
      have firstLess := older lsn mem _ (headD_mem nonempty)
      have lastLess := older lsn mem _ lastIn
      have sameMax := walked.maxLsn
      dsimp only at sameMax ⊢
      rw [sameMax, Nat.mod_eq_of_lt (by simp only [uint64Max] at lastBound; omega)]
      omega

theorem Searching.done (searching : Searching iter [] target) :
    stackLsns iter.lsnStack = target := by
  by_cases goesOn : iter.state = .forward
  · exact searching.forward goesOn
  · exact searching.finished goesOn

variable [DecidableEq Tag]

theorem tbl_find_spec (rep : TableRep (hashKey cfg) freeHead data entries) (tag : Tag) :
    (lsnsOf tag entries = [] ∧ logIndexTblFind tag data (hashKey cfg tag) = none) ∨
    ∃ item segs, logIndexTblFind tag data (hashKey cfg tag) = some item ∧
      ItemRep data freeHead (lsnsOf tag entries) item segs ∧
      item.prevPageLsn = firstPrev tag entries ∧
      (∀ lsn ∈ lsnsOf tag entries, data.prefixLsn = prefixOf lsn) ∧ freeHead ≤ memTblSegNum := by
  rcases rep with ⟨ghost, rep⟩
  by_cases known : ∃ entry ∈ entries, entry.tag = tag
  · right
    rcases known with ⟨entry, mem, rfl⟩
    rcases rep.head_item mem with ⟨item, atHead, -, headEq, itemRep⟩
    refine ⟨item, ghost.segs entry.tag, ?_, itemRep, ?_, rep.lsns_prefix entry.tag, rep.freeLe⟩
    · rw [logIndexTblFind, rep.exists_page mem]
      exact atHead
    · have prev := rep.prevs entry mem
      rw [← headEq, prevPageOf, itemRep.atHead] at prev
      exact prev
  · left
    have absent : ∀ entry ∈ entries, entry.tag ≠ tag := fun entry mem same =>
      known ⟨entry, mem, same⟩
    constructor
    · simpa [lsnsOf] using absent
    · rw [logIndexTblFind, rep.missing_page absent]
      rfl

theorem push_tbl_spec (rep : TableRep (hashKey cfg) freeHead data entries)
    (searching : Searching iter (rest ++ lsnsOf iter.tag entries) target)
    (goesOn : iter.state = .forward) (keyEq : iter.key = hashKey cfg iter.tag)
    (interval : iter.minLsn < iter.maxLsn)
    (increasing : (rest ++ lsnsOf iter.tag entries).Pairwise (· < ·))
    (bounded : ∀ lsn ∈ lsnsOf iter.tag entries, 0 < lsn ∧ lsn < uint64Max)
    (prev : lsnsOf iter.tag entries ≠ [] → firstPrev iter.tag entries = rest.getLastD 0) :
    ∃ after, logIndexPushTblLsn iter data = .ok after ∧ Searching after rest target ∧
    SameQuery iter after := by
  rcases tbl_find_spec rep iter.tag with
    ⟨noLsns, missing⟩ | ⟨item, segs, found, itemRep, prevEq, samePrefix, small⟩
  · refine ⟨iter, ?_, ?_, rfl, rfl, rfl, rfl⟩
    · rw [logIndexPushTblLsn, keyEq, missing]
    · rw [noLsns, append_nil] at searching
      exact searching
  have nonempty := itemRep.lsns_nonempty
  have itemMin := itemRep.min_lsn samePrefix
  have itemMax := itemRep.max_lsn samePrefix
  have prevIs := prevEq.trans (prev nonempty)
  generalize lsnsEq : lsnsOf iter.tag entries = lsns at *
  rcases pairwise_append.mp increasing with ⟨-, sorted, older⟩
  have least := headD_le_of_increasing sorted
  have greatest := le_getLastD_of_sorted (sorted.imp le_of_lt)
  rcases searching.take_prev goesOn nonempty (fun lsn mem => (bounded lsn mem).1) with
    ⟨prevLsn, linkedEq, linked, sameMax, fresh⟩
  rw [logIndexPushTblLsn, keyEq, found]
  rw [linkedEq]
  dsimp only
  rw [itemMin, itemMax]
  split
  · next above =>
    have allAbove : ∀ lsn ∈ lsns, iter.maxLsn < lsn := fun lsn mem => above.trans_le (least lsn mem)
    have same : prevLsn = iter.iterPrevLsn := by
      apply fresh
      exact ⟨_, headD_mem nonempty, above⟩
    rw [same]
    exact ⟨_, rfl, searching.skip goesOn interval allAbove, rfl, rfl, rfl, rfl⟩
  rename_i above
  split_ifs with below
  · have allBelow : ∀ lsn ∈ rest ++ lsns, lsn < iter.minLsn := by
      intro lsn mem
      rcases mem_append.mp mem with old | new
      · exact lt_trans (older lsn old _ (getLastD_mem nonempty)) below
      · exact (greatest lsn new).trans_lt below
    have stopped := searching.stop goesOn allBelow rest
    refine ⟨_, rfl, ⟨stopped.stackOk, ?_, stopped.finished, ?_⟩, rfl, rfl, rfl, rfl⟩
    · exact nofun
    · exact nofun
  · have linkedOk : StackOk ({ iter with iterPrevLsn := prevLsn } : PageIter Tag).lsnStack :=
      searching.stackOk
    rcases iterate_table_data_spec itemRep small samePrefix linkedOk goesOn linked with
      ⟨walkedIter, done, walked⟩
    rw [scan_down_congr _ _ (fun lsn mem => sameMax lsn (mem_reverse.mp mem))] at walked
    rw [done]
    refine ⟨_, rfl, ?_, ?_⟩
    · have target := searching.forward goesOn
      rw [reverse_append, scan_down_append] at target
      exact walked.searching target prevIs above older (fun lsn mem => (bounded lsn mem).2) nonempty
    · have params := walked.params
      constructor <;> rw [params]

end Tables

section Search
variable {Tag : Type} [DecidableEq Tag] {cfg : Config Tag} {snap : Snapshot Tag}
  {tabs : List (List (LogIndexLsn Tag))} {entries : List (LogIndexLsn Tag)} {target : List Nat}
  {iter : PageIter Tag} {tag : Tag} {tid : Nat}

def pageLsns (tag : Tag) (tabs : List (List (LogIndexLsn Tag))) (tid : Nat) : List Nat :=
  lsnsOf tag (tabs.take tid).flatten

theorem page_lsns_succ (found : tabs[tid]? = some entries) :
    pageLsns tag tabs (tid + 1) = pageLsns tag tabs tid ++ lsnsOf tag entries := by
  rw [pageLsns, take_succ_flatten found]
  simp [pageLsns, lsnsOf]

/-- What the log promises about one page. -/
structure PageLog (tag : Tag) (tabs : List (List (LogIndexLsn Tag))) : Prop where
  increasing : ∀ tid, (pageLsns tag tabs tid).Pairwise (· < ·)
  bounded : ∀ tid, ∀ lsn ∈ pageLsns tag tabs tid, 0 < lsn ∧ lsn < uint64Max
  prev : ∀ (tid : Nat) (entries : List (LogIndexLsn Tag)), tabs[tid]? = some entries →
    lsnsOf tag entries ≠ [] → firstPrev tag entries = (pageLsns tag tabs tid).getLastD 0

/-- The search for one page and interval, from its start to its end. -/
structure Query (cfg : Config Tag) (tag : Tag) (minLsn maxLsn : Nat) (iter : PageIter Tag) :
    Prop where
  tagEq : iter.tag = tag
  keyEq : iter.key = hashKey cfg tag
  minEq : iter.minLsn = minLsn
  maxEq : iter.maxLsn = maxLsn

variable {minLsn maxLsn : Nat}

omit [DecidableEq Tag] in
theorem Query.same {after : PageIter Tag} (query : Query cfg tag minLsn maxLsn iter)
    (same : SameQuery iter after) : Query cfg tag minLsn maxLsn after :=
  ⟨same.tag.trans query.tagEq, same.key.trans query.keyEq, same.minLsn.trans query.minEq,
    same.maxLsn.trans query.maxEq⟩

theorem page_lsns_le (logOk : LogRep tabs) (found : tabs[tid]? = some entries)
    (nonempty : entries ≠ []) : ∀ lsn ∈ pageLsns tag tabs (tid + 1),
    lsn ≤ (entries.map LogIndexLsn.lsn).getLastD invalidLsn := by
  have mapped : entries.map LogIndexLsn.lsn ≠ [] := by simpa using nonempty
  intro _ mem
  rcases mem_lsns_of.mp mem with ⟨entry, entryIn, -, rfl⟩
  rw [take_succ_flatten found] at entryIn
  rcases mem_append.mp entryIn with old | new
  · obtain ⟨last, lastIn, isLast⟩ := mem_map.mp (getLastD_mem mapped)
    exact isLast ▸ logOk.take_sorted found entry old last lastIn
  · have inTable := (pairwise_flatten.mp logOk.sorted).1 _ (mem_of_getElem? found)
    exact le_getLastD_of_sorted (pairwise_map.mpr inTable) _ (mem_map_of_mem new)

theorem MemRep.held {saved : Nat} {memTable : Nat → LogMemTable Tag} {slot : Nat}
    (rep : MemRep cfg tabs saved memTable) (bound : slot < cfg.memTblSize)
    (used : (memTable slot).state ≠ .free) (idEq : (memTable slot).data.idxTableId = tid) :
    Holds cfg tabs tid (memTable slot).data := by
  rcases (rep.slots slot bound).cases used with ⟨other, otherEq, -, holds, -⟩
  have same : other = tid := otherEq.symm.trans idEq
  rw [← same]
  exact holds

theorem SnapRep.filled {pending : Option (PendingAdd Tag)} (rep : SnapRep cfg tabs snap)
    (activeRep : ActiveRep cfg tabs snap pending) (found : tabs[tid]? = some entries)
    (closed : tid + 1 ≤ snap.indexMeta.maxIdxTableId ∨
      (snap.memTable (slotOf cfg (tid + 1))).state ≠ .active) : entries ≠ [] := by
  have inside := (List.getElem?_eq_some_iff.mp found).1
  by_cases newest : tid + 1 < tabs.length
  · exact rep.logOk.nonempty tid entries found newest
  have last : tabs.length = tid + 1 := by omega
  have foundLast : tabs[tabs.length - 1]? = some entries := by
    rw [last, Nat.add_sub_cancel]
    exact found
  cases pending with
  | none =>
    exfalso
    rcases activeRep with ⟨empty, -⟩ | ⟨-, activeEq, active, -⟩
    · rw [empty] at inside
      exact absurd inside (Nat.not_lt_zero _)
    rw [activeEq, last] at active
    rcases closed with isSaved | notActive
    · have own := rep.memory.slots _ (slot_of_lt cfg (tid + 1))
      unfold SlotRep at own
      rw [active] at own
      omega
    · exact notActive active
  | some =>
    rcases activeRep with ⟨-, ⟨-, empty, -⟩ | ⟨-, -, filled, -⟩⟩
    · rw [empty] at inside
      exact absurd inside (Nat.not_lt_zero _)
    · intro isEmpty
      rw [foundLast, isEmpty] at filled
      exact filled rfl

def PageIter.start (cfg : Config Tag) (tag : Tag) (minLsn maxLsn : Nat) : PageIter Tag :=
  ⟨tag, hashKey cfg tag, minLsn, maxLsn, invalidLsn, maxLsn, .forward, []⟩

theorem searching_start (pageLog : PageLog tag tabs) (cfg : Config Tag) (minLsn maxLsn tid : Nat) :
    Searching (PageIter.start cfg tag minLsn maxLsn) (pageLsns tag tabs tid)
      ((pageLsns tag tabs tid).filter fun lsn => decide (minLsn ≤ lsn ∧ lsn ≤ maxLsn)) where
  stackOk := nofun
  forward := by
    intro _
    have descending : (pageLsns tag tabs tid).reverse.Pairwise (· > ·) := by
      rw [pairwise_reverse]
      exact pageLog.increasing tid
    change (scanDown minLsn maxLsn _ []).1 = _
    rw [scan_down_filter _ _ descending, append_nil, filter_reverse, reverse_reverse]
  finished := absurd rfl
  link := fun _ => .inl ⟨rfl, rfl, rfl⟩

/-- Buffered or not, the page has the bloom data of the table, so it is not read a second time. -/
theorem check_bloom_spec (rep : SnapRep cfg tabs snap) {tid : Nat} (positive : 0 < tid)
    (below : tid ≤ snap.indexMeta.maxIdxTableId) (iter : PageIter Tag) :
    ∃ bloom, BloomRep cfg tabs tid bloom ∧ logIndexCheckBloomNotExists cfg snap iter tid =
      if bloom.maxLsn < iter.minLsn then .ok ({ iter with state := .finished }, false)
      else .ok (iter, lacksElement cfg.kHashes bloom.bloomBytes iter.tag) := by
  have bloomRep := rep.store.blooms tid positive below
  have isId := bloomRep.1
  refine ⟨_, bloomRep, ?_⟩
  simp only [logIndexCheckBloomNotExists, logIndexGetTblBloom, rep.store.read_bloom_page, isId,
    positive.ne', if_false, ne_eq, not_true_eq_false]

variable {pending : Option (PendingAdd Tag)} {saved : Nat}
  (pageLog : PageLog tag tabs) (interval : minLsn < maxLsn)
include pageLog interval

section OneTable
variable (query : Query cfg tag minLsn maxLsn iter) (goesOn : iter.state = .forward)
  (searching : Searching iter (pageLsns tag tabs (tid + 1)) target)
include query goesOn searching

theorem push_held_table {data : LogIdxTableData Tag} (holds : Holds cfg tabs (tid + 1) data) :
    ∃ after, logIndexPushTblLsn iter data = .ok after ∧
      Searching after (pageLsns tag tabs tid) target ∧ Query cfg tag minLsn maxLsn after := by
  rcases holds with ⟨-, -, entries, _, found, rep⟩
  rw [Nat.add_sub_cancel] at found
  have increasing := pageLog.increasing (tid + 1)
  have bounded := pageLog.bounded (tid + 1)
  rw [page_lsns_succ found] at searching increasing bounded
  have tagEq := query.tagEq
  rw [← tagEq] at searching increasing bounded
  rcases push_tbl_spec rep searching goesOn (by rw [query.keyEq, tagEq])
    (by rw [query.minEq, query.maxEq]; exact interval) increasing
    (fun lsn mem => bounded lsn (mem_append_right _ mem))
    (by rw [tagEq]; exact pageLog.prev tid entries found) with ⟨after, done, next, same⟩
  rw [tagEq] at next
  exact ⟨after, done, next, query.same same⟩

/-- `log_index_table_in_range` skips or stops only where the page has nothing. -/
theorem push_mem_table_spec (rep : SnapRep cfg tabs snap)
    (activeRep : ActiveRep cfg tabs snap pending) {table : LogMemTable Tag}
    (inSlot : snap.memTable (slotOf cfg (tid + 1)) = table)
    (used : table.state ≠ .free) (idEq : table.data.idxTableId = tid + 1) :
    ∃ after, pushMemTable iter table = .ok after ∧
      Searching after (pageLsns tag tabs tid) target ∧ Query cfg tag minLsn maxLsn after := by
  have holds := rep.memory.held (slot_of_lt cfg (tid + 1)) (inSlot ▸ used) (inSlot ▸ idEq)
  rw [inSlot] at holds
  have kept := holds
  rcases kept with ⟨-, -, _, _, found, _, tableRep⟩
  rw [Nat.add_sub_cancel] at found
  have pushed := push_held_table pageLog interval query goesOn searching holds
  unfold pushMemTable logIndexTableInRange
  by_cases active : table.state = .active
  · rw [if_pos active]
    exact pushed
  rw [if_neg active]
  have nonempty := rep.filled activeRep found (.inr (inSlot ▸ active))
  by_cases above : iter.maxLsn < table.data.minLsn
  · rw [if_pos above]
    refine ⟨iter, rfl, ?_, query⟩
    rw [page_lsns_succ found] at searching
    apply searching.skip goesOn (by rw [query.minEq, query.maxEq]; exact interval)
    intro lsn mem
    rcases mem_lsns_of.mp mem with ⟨_, entryIn, -, rfl⟩
    exact above.trans_le (tableRep.min_le_lsn entryIn)
  · rw [if_neg above]
    split_ifs with below
    · refine ⟨_, rfl, searching.stop goesOn ?_ _, query.tagEq, query.keyEq, query.minEq,
        query.maxEq⟩
      intro lsn mem
      have bound := page_lsns_le rep.logOk found nonempty lsn mem
      rw [← tableRep.maxLsn] at bound
      exact bound.trans_lt below
    · exact pushed

theorem push_file_table_spec (rep : SnapRep cfg tabs snap)
    (savedEq : snap.indexMeta.maxIdxTableId = saved) (below : tid + 1 ≤ saved)
    (filled : ∀ entries, tabs[tid]? = some entries → entries ≠ []) (pid : Nat) :
    ∃ after pushed, pushFileTable cfg pid (tid + 1) snap iter = .ok (after, pushed) ∧
      SnapRep cfg tabs after ∧ after.indexMeta.maxIdxTableId = saved ∧
      Searching pushed (pageLsns tag tabs tid) target ∧ Query cfg tag minLsn maxLsn pushed := by
  unfold pushFileTable
  by_cases inMemory : (snap.memTable (slotOf cfg (tid + 1))).state = .flushed ∧
      (snap.memTable (slotOf cfg (tid + 1))).data.idxTableId = tid + 1
  · rw [if_pos inMemory]
    have holds := rep.memory.held (slot_of_lt cfg (tid + 1)) (by rw [inMemory.1]; decide) inMemory.2
    rcases push_held_table pageLog interval query goesOn searching holds with
      ⟨pushed, done, next, nextQuery⟩
    rw [done]
    exact ⟨snap, pushed, rfl, rep, savedEq, next, nextQuery⟩
  rw [if_neg inMemory]
  rcases check_bloom_spec rep (by omega : 0 < tid + 1) (savedEq ▸ below) iter with
    ⟨bloom, ⟨-, entries, found, bloomMax, bloomHas⟩, checked⟩
  rw [Nat.add_sub_cancel] at found
  have nonempty := filled entries found
  rw [checked]
  split_ifs with tooOld
  · refine ⟨snap, { iter with state := .finished }, rfl, rep, savedEq, ?_,
      query.tagEq, query.keyEq, query.minEq, query.maxEq⟩
    apply searching.stop goesOn
    intro lsn mem
    have bound := page_lsns_le rep.logOk found nonempty lsn mem
    rw [← bloomMax] at bound
    exact bound.trans_lt tooOld
  dsimp only
  cases lacks : lacksElement cfg.kHashes bloom.bloomBytes iter.tag with
  | true =>
    refine ⟨snap, iter, rfl, rep, savedEq, ?_, query⟩
    have none : lsnsOf tag entries = [] := by
      by_contra present
      rcases exists_mem_of_ne_nil _ present with ⟨_, mem⟩
      rcases mem_lsns_of.mp mem with ⟨entry, entryIn, tagEq, -⟩
      have hit := bloomHas entry entryIn
      rw [tagEq, ← query.tagEq, lacks] at hit
      cases hit
    rw [page_lsns_succ found, none, append_nil] at searching
    exact searching
  | false =>
    rw [if_pos ⟨rfl, goesOn⟩]
    rcases read_table_spec rep (Nat.succ_pos tid) (savedEq ▸ below) pid with
      ⟨after, data, fromMemory, read, afterRep, -, holds, metaEq⟩
    rcases push_held_table pageLog interval query goesOn searching holds with
      ⟨pushed, done, next, nextQuery⟩
    rw [read]
    dsimp only
    rw [done]
    exact ⟨after, pushed, rfl, afterRep, by rw [metaEq]; exact savedEq, next, nextQuery⟩

end OneTable

/-- The memory phase ends with the result, or at a table that is saved. -/
theorem push_mem_tbl_spec (rep : SnapRep cfg tabs snap)
    (activeRep : ActiveRep cfg tabs snap pending) (tid slot : Nat) (iter : PageIter Tag)
    (bound : tid ≤ tabs.length) (slotEq : 0 < tid → slot = slotOf cfg tid)
    (query : Query cfg tag minLsn maxLsn iter) (goesOn : iter.state = .forward)
    (searching : Searching iter (pageLsns tag tabs tid) target) :
    ∃ after left, logIndexPushMemTblLsn cfg snap tid slot iter = .ok (after, left) ∧
      Query cfg tag minLsn maxLsn after ∧ Searching after (pageLsns tag tabs left) target ∧
      (after.state = .forward → left ≤ snap.indexMeta.maxIdxTableId) := by
  induction tid generalizing slot iter with
  | zero =>
    refine ⟨_, 0, rfl, { query with }, ?_, ?_⟩
    · exact searching.stop goesOn nofun _
    · exact nofun
  | succ tid ih =>
    have slotIs := slotEq (Nat.succ_pos tid)
    subst slotIs
    unfold logIndexPushMemTblLsn
    by_cases here : (snap.memTable (slotOf cfg (tid + 1))).data.idxTableId = tid + 1 ∧
        (snap.memTable (slotOf cfg (tid + 1))).state ≠ .free
    · rw [if_pos here]
      rcases push_mem_table_spec pageLog interval query goesOn searching rep activeRep rfl
        here.2 here.1 with ⟨pushed, done, next, nextQuery⟩
      rw [done]
      dsimp only
      split
      · next forward =>
        exact ih _ pushed (by omega)
          (prev_slot_of cfg) nextQuery forward next
      rename_i forward
      refine ⟨_, tid, rfl, ?_, ?_, ?_⟩
      all_goals split_ifs
      · exact { nextQuery with }
      · exact nextQuery
      · exact ⟨next.stackOk, fun isForward => (by cases isForward), fun _ => next.finished forward,
          fun isForward => (by cases isForward)⟩
      · exact next
      · exact fun isForward => (by cases isForward)
      · exact fun isForward => absurd isForward forward
    · rw [if_neg here]
      refine ⟨iter, tid + 1, rfl, query, searching, fun _ => ?_⟩
      by_contra unsaved
      have st := rep.memory.unsaved_state (Nat.lt_of_not_le unsaved) bound
      apply here
      refine ⟨rep.memory.unsaved (tid + 1) (Nat.lt_of_not_le unsaved) bound, ?_⟩
      rcases st with inactive | ⟨active, -⟩
      · rw [inactive]
        decide
      · rw [active]
        decide

theorem push_file_tables_spec
    (filled : ∀ tid entries, tid + 1 ≤ saved → tabs[tid]? = some entries → entries ≠ [])
    (pid : Nat) {minId : Nat} (fromFirst : minId ≤ 1) (tid : Nat) (snap : Snapshot Tag)
    (iter : PageIter Tag) (rep : SnapRep cfg tabs snap)
    (savedEq : snap.indexMeta.maxIdxTableId = saved) (below : tid ≤ saved)
    (query : Query cfg tag minLsn maxLsn iter)
    (searching : Searching iter (pageLsns tag tabs tid) target) :
    ∃ after pushed, pushFileTables cfg pid minId tid snap iter = .ok (after, pushed) ∧
      SnapRep cfg tabs after ∧ StackOk pushed.lsnStack ∧ stackLsns pushed.lsnStack = target ∧
      pushed.tag = tag := by
  induction tid generalizing snap iter with
  | zero =>
    exact ⟨snap, iter, rfl, rep, searching.stackOk, searching.done, query.tagEq⟩
  | succ tid ih =>
    unfold pushFileTables
    by_cases goesOn : iter.state = .forward
    · rw [if_pos ⟨by omega, goesOn⟩]
      rcases push_file_table_spec pageLog interval query goesOn searching rep savedEq below
        (fun entries found => filled tid entries below found) pid with
        ⟨after, pushed, done, afterRep, afterSaved, next, nextQuery⟩
      rw [done]
      exact ih after pushed afterRep afterSaved (by omega) nextQuery next
    · rw [if_neg (fun both => goesOn both.2)]
      exact ⟨snap, iter, rfl, rep, searching.stackOk, searching.finished goesOn, query.tagEq⟩

/-- Creating the iterator finds exactly the page's lsns in the interval. -/
theorem create_page_iterator_spec (rep : SnapRep cfg tabs snap)
    (activeRep : ActiveRep cfg tabs snap pending) (pid : Nat) :
    ∃ after iter, polarLogindexCreatePageIterator cfg snap pid tag minLsn maxLsn =
      .ok (after, iter) ∧ SnapRep cfg tabs after ∧ StackOk iter.lsnStack ∧ iter.tag = tag ∧
      stackLsns iter.lsnStack = (pageLsns tag tabs tabs.length).filter fun lsn =>
        decide (minLsn ≤ lsn ∧ lsn ≤ maxLsn) := by
  unfold polarLogindexCreatePageIterator
  rw [if_neg (not_not.mpr interval), rep.count]
  dsimp only
  generalize startEq : (⟨tag, hashKey cfg tag, minLsn, maxLsn, invalidLsn, maxLsn, .forward,
    []⟩ : PageIter Tag) = start
  have query : Query cfg tag minLsn maxLsn start := by
    rw [← startEq]
    exact ⟨rfl, rfl, rfl, rfl⟩
  have forward : start.state = .forward := by rw [← startEq]
  have searching := searching_start pageLog cfg minLsn maxLsn tabs.length
  rw [PageIter.start, startEq] at searching
  rcases push_mem_tbl_spec pageLog interval rep activeRep tabs.length
    (slotOf cfg tabs.length) start le_rfl (fun _ => rfl) query forward searching with
    ⟨searched, left, done, searchedQuery, next, saved⟩
  rw [done]
  dsimp only
  split_ifs with goesOn
  · have below := saved goesOn
    have covered : ¬snap.indexMeta.maxIdxTableId < left := Nat.not_lt_of_le below
    unfold logIndexPushFileTblLsn
    rw [if_neg covered]
    rw [if_neg covered]
    have fromFirst : snap.indexMeta.minSegmentInfo.minIdxTableId ≤ 1 := by
      rw [rep.metaOk.minId]
      split_ifs <;> decide
    rcases push_file_tables_spec pageLog interval
      (fun tid entries inside found => rep.filled activeRep found (.inl inside)) pid fromFirst left
      snap searched rep rfl below searchedQuery next with
      ⟨after, pushed, pushedEq, afterRep, stackOk, res, tagEq⟩
    rw [pushedEq]
    exact ⟨after, { pushed with state := .finished }, rfl, afterRep, stackOk, tagEq, res⟩
  · exact ⟨snap, searched, rfl, rep, next.stackOk, searchedQuery.tagEq, next.finished goesOn⟩

end Search

section Exact
variable {Tag : Type} [DecidableEq Tag] {cfg : Config Tag} {tabs : List (List (LogIndexLsn Tag))}

/-- Every pair came with the previous lsn of its page. -/
def PrevLinked (log : List (LogIndexLsn Tag)) : Prop :=
  Admitted (fun before entry => entry.prevLsn = (lsnsOf entry.tag before).getLastD invalidLsn) log

theorem page_lsns_all (tag : Tag) (tabs : List (List (LogIndexLsn Tag))) :
    pageLsns tag tabs tabs.length = lsnsOf tag tabs.flatten := by
  rw [pageLsns, take_length]

theorem page_log_of_log (ordered : Admitted InOrder tabs.flatten) (linked : PrevLinked tabs.flatten)
    (tag : Tag) : PageLog tag tabs := by
  have split : ∀ tid, tabs.flatten = (tabs.take tid).flatten ++ (tabs.drop tid).flatten := by
    intro tid
    rw [← flatten_append, take_append_drop]
  constructor
  · intro tid
    have whole := lsns_of_increasing ordered tag
    rw [split tid, lsnsOf, filter_append, map_append] at whole
    exact (pairwise_append.mp whole).1
  · intro tid lsn mem
    rcases mem_lsns_of.mp mem with ⟨entry, entryIn, -, rfl⟩
    apply lsn_bounded ordered
    rw [split tid]
    exact mem_append_left _ entryIn
  · intro tid entries found present
    rcases exists_mem_of_ne_nil _ present with ⟨_, mem⟩
    rcases mem_lsns_of.mp mem with ⟨entry, entryIn, tagEq, -⟩
    cases firstEq : entries.find? fun entry => decide (entry.tag = tag) with
    | none => exact absurd tagEq (by simpa using List.find?_eq_none.mp firstEq entry entryIn)
    | some first =>
      rcases List.find?_eq_some_iff_append.mp firstEq with ⟨isTag, early, late, whole, noTag⟩
      have firstTag : first.tag = tag := by simpa using isTag
      have noneEarly : lsnsOf tag early = [] := by
        rw [lsnsOf, map_eq_nil_iff, filter_eq_nil_iff]
        intro other otherIn
        simpa using noTag other otherIn
      have place : tabs.flatten = ((tabs.take tid).flatten ++ early) ++
          first :: (late ++ (tabs.drop (tid + 1)).flatten) := by
        rw [split (tid + 1), take_succ_flatten found, whole]
        simp
      have prev := linked _ _ _ place
      dsimp only at prev
      rw [firstTag] at prev
      rw [firstPrev, firstEq, Option.map_some, Option.getD_some, prev]
      rw [lsnsOf, filter_append, map_append]
      change (pageLsns tag tabs tid ++ lsnsOf tag early).getLastD 0 = _
      rw [noneEarly, append_nil]

theorem drain_page_iterator {tabs : List (List (LogIndexLsn Tag))} {snap : Snapshot Tag}
    {pending : Option (PendingAdd Tag)} (rep : SnapRep cfg tabs snap)
    (activeRep : ActiveRep cfg tabs snap pending) (ordered : Admitted InOrder tabs.flatten)
    (linked : PrevLinked tabs.flatten) (pid : Nat) (tag : Tag) {minLsn maxLsn : Nat}
    (interval : minLsn < maxLsn) :
    ∃ after iter, polarLogindexCreatePageIterator cfg snap pid tag minLsn maxLsn =
      .ok (after, iter) ∧ ∀ fuel, tabs.flatten.length < fuel →
        ∃ infos, drainPageIterator fuel iter = some infos ∧ (∀ info ∈ infos, info.tag = tag) ∧
        (infos.map LogIndexLsn.lsn).Pairwise (· < ·) ∧ infos.map LogIndexLsn.lsn =
          (lsnsOf tag tabs.flatten).filter fun lsn => decide (minLsn ≤ lsn ∧ lsn ≤ maxLsn) := by
  rcases create_page_iterator_spec (page_log_of_log ordered linked tag) interval rep activeRep
    pid with ⟨after, iter, created, -, stackOk, tagEq, res⟩
  rw [page_lsns_all] at res
  refine ⟨after, iter, created, ?_⟩
  intro fuel enough
  have shorter : (stackLsns iter.lsnStack).length < fuel := by
    rw [res]
    apply lt_of_le_of_lt (length_filter_le _ _)
    rw [lsnsOf, length_map]
    exact (length_filter_le _ _).trans_lt enough
  have unread : Poppable iter.lsnStack := by
    intro tblStack inStack block inItems
    rcases stackOk tblStack inStack block inItems with ⟨whole, nonempty⟩
    rw [whole]
    exact ⟨length_pos_of_ne_nil nonempty, le_rfl⟩
  rcases drain_spec iter unread shorter with ⟨infos, drained, lsns, tags⟩
  refine ⟨infos, drained, fun info mem => (tags info mem).trans tagEq, ?_, lsns.trans res⟩
  rw [lsns, res]
  exact (lsns_of_increasing ordered tag).sublist filter_sublist

/-- In every state that adds, table switches, flushes, slot recycling and table reads
can reach, the page iterator returns exactly the page's added lsns in the interval,
each once and in ascending order, and then `NULL`. -/
theorem page_iterator_exact {st : RunState Tag} (run : Run cfg RunState.start st)
    (linked : PrevLinked st.log) (pid : Nat) (tag : Tag) {minLsn maxLsn : Nat}
    (interval : minLsn < maxLsn) : ∃ after iter,
      polarLogindexCreatePageIterator cfg st.snap pid tag minLsn maxLsn = .ok (after, iter) ∧
      ∀ fuel, st.log.length < fuel → ∃ infos, drainPageIterator fuel iter = some infos ∧
        (∀ info ∈ infos, info.tag = tag) ∧ (infos.map LogIndexLsn.lsn).Pairwise (· < ·) ∧
        infos.map LogIndexLsn.lsn =
          (lsnsOf tag st.log).filter fun lsn => decide (minLsn ≤ lsn ∧ lsn ≤ maxLsn) := by
  rcases run_rep_of_run run with ⟨_, runRep, -⟩
  have ordered := runRep.ordered
  rw [← runRep.content] at ordered linked ⊢
  exact drain_page_iterator runRep.rep runRep.activeRep ordered linked pid tag interval

/-- The smallest ring, with pages numbered by naturals. -/
def smallConfig : Config Nat where
  memTblSize := 3
  atLeastThree := le_rfl
  tagHash := id
  kHashes := fun tag => [tag]
  flushActiveTable := false

def smallLog : List (LogIndexLsn Nat) := [⟨1, 5, 0⟩, ⟨2, 5, 0⟩, ⟨1, 12, 5⟩]

theorem small_log_ordered : Admitted InOrder smallLog := by
  have first : InOrder [] (⟨1, 5, 0⟩ : LogIndexLsn Nat) := ⟨by decide, by decide, by simp, by simp⟩
  have second : InOrder [⟨1, 5, 0⟩] (⟨2, 5, 0⟩ : LogIndexLsn Nat) :=
    ⟨by decide, by decide, by simp, by simp⟩
  have third : InOrder [⟨1, 5, 0⟩, ⟨2, 5, 0⟩] (⟨1, 12, 5⟩ : LogIndexLsn Nat) :=
    ⟨by decide, by decide, by simp, by simp⟩
  exact admitted_snoc.mpr ⟨admitted_snoc.mpr ⟨admitted_snoc.mpr ⟨admitted_nil, first⟩, second⟩,
    third⟩

theorem small_log_linked : PrevLinked smallLog :=
  admitted_snoc.mpr ⟨admitted_snoc.mpr ⟨admitted_snoc.mpr ⟨admitted_nil, rfl⟩, rfl⟩, rfl⟩

theorem page_iterator_exact_small : ∃ st, Run smallConfig RunState.start st ∧ st.log = smallLog ∧
    ∃ after iter, polarLogindexCreatePageIterator smallConfig st.snap 0 1 5 20 = .ok (after, iter) ∧
      ∃ infos, drainPageIterator 4 iter = some infos ∧ infos.map LogIndexLsn.lsn = [5, 12] := by
  rcases run_exists smallConfig small_log_ordered with ⟨st, run, -, logEq⟩
  have linked : PrevLinked st.log := logEq.symm ▸ small_log_linked
  rcases page_iterator_exact run linked 0 1 (by decide : 5 < 20) with ⟨after, iter, created, drains⟩
  rcases drains 4 (by rw [logEq]; decide) with ⟨infos, drained, -, -, lsns⟩
  refine ⟨st, run, logEq, after, iter, created, infos, drained, ?_⟩
  rw [lsns, logEq]
  decide

end Exact

end PolarDB.LogIndex
