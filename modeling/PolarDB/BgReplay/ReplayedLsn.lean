import PolarDB.BgReplay.Dispatch
import PolarDB.Lib.Snoc
import Mathlib.Data.List.TakeWhile

/-!
# How far the background replay got

Every entry the dispatcher has passed is finished or in the running queue, and the
queue is in LSN order. A worker that finds its own LSN at the head therefore knows
that everything below it is finished, and so does the dispatcher when the queue is
empty and the iterator has nothing below the replayed LSN it read before polling.
-/

namespace PolarDB.BgReplay.Dispatch

open List Lib.Runs Lib.Snoc

variable {Tag : Type} {st next : State Tag} {event : Event}

/-- The first position that has not been given to a worker. -/
def dispatchedTo (replayPage : Option (PageLsn Tag)) (iterNext : Nat) : Nat :=
  match replayPage with
  | some page => page.position
  | none => iterNext

/-- Every entry of the iteration below `lsn` was handled by a finished task. -/
def Done (entries : List (IndexEntry Tag)) (iterLsn : Nat) (handled : List Nat)
    (lsn : Nat) : Prop :=
  ∀ pos entry, entries[pos]? = some entry → iterLsn ≤ entry.lsn → entry.lsn < lsn → pos ∈ handled

/-- Every entry below `lsn` lies before the position `upTo`. -/
def Passed (entries : List (IndexEntry Tag)) (upTo lsn : Nat) : Prop :=
  ∀ pos entry, entries[pos]? = some entry → entry.lsn < lsn → pos < upTo

structure Queue (entries : List (IndexEntry Tag)) (iterLsn upTo maxDispatched : Nat)
    (running : List (ReplayTask Tag)) (handled : List Nat) : Prop where
  placed : ∀ task ∈ running, entries[task.position]? = some { lsn := task.lsn, tag := task.tag }
  sorted : (running.map ReplayTask.position).Pairwise (· < ·)
  bounded : upTo ≤ entries.length
  dispatched : ∀ task ∈ running, task.position < upTo
  lsns : ∀ task ∈ running, task.lsn ≤ maxDispatched
  covered : ∀ pos entry, entries[pos]? = some entry → iterLsn ≤ entry.lsn → pos < upTo →
    pos ∈ handled ∨ ∃ task ∈ running, task.position = pos
  finished : ∀ task ∈ running, task.stage = .finished → task.position ∈ handled
  compared : ∀ task ∈ running, task.stage = .compared task.lsn →
    Done entries iterLsn handled task.lsn

/-- What the dispatcher's local copy of the replayed LSN is good for, at each point of an
iteration. -/
def Copies (phase : Phase) (lastReplayedEnd bgReplayed maxDispatched upTo : Nat)
    (entries : List (IndexEntry Tag)) (running : List (ReplayTask Tag)) : Prop :=
  match phase with
  | .poll replayed => replayed ≤ lastReplayedEnd ∧ bgReplayed ≤ max replayed maxDispatched
  | .decide replayed => replayed ≤ lastReplayedEnd ∧ bgReplayed ≤ max replayed maxDispatched
  | .settle replayed true =>
    replayed ≤ lastReplayedEnd ∧ bgReplayed ≤ max replayed maxDispatched ∧
      Passed entries upTo replayed
  | .forward replayed =>
    replayed ≤ lastReplayedEnd ∧ bgReplayed ≤ max replayed maxDispatched ∧
      Passed entries upTo replayed ∧ running = []
  | _ => True

structure Inv (st : State Tag) : Prop where
  parsed : Parsed st.entries st.parsing st.lastReplayedRead st.lastReplayedEnd
  page : ∀ page, st.replayPage = some page →
    st.entries[page.position]? = some { lsn := page.lsn, tag := page.tag } ∧
    page.position + 1 = st.iterNext
  queue : Queue st.entries st.iterLsn (dispatchedTo st.replayPage st.iterNext) st.maxDispatched
    st.running st.handled
  behind : Passed st.entries (dispatchedTo st.replayPage st.iterNext) st.maxDispatched
  within : st.maxDispatched ≤ st.lastReplayedRead
  reached : st.bgReplayed ≤ st.lastReplayedEnd
  safe : Done st.entries st.iterLsn st.handled st.bgReplayed
  copies : Copies st.phase st.lastReplayedEnd st.bgReplayed st.maxDispatched
    (dispatchedTo st.replayPage st.iterNext) st.entries st.running

section
variable {entries : List (IndexEntry Tag)} {entry : IndexEntry Tag}
  {iterLsn upTo maxDispatched lsn : Nat}
  {running : List (ReplayTask Tag)} {handled : List Nat}

theorem Done.snoc (done : Done entries iterLsn handled lsn) (late : lsn ≤ entry.lsn) :
    Done (entries ++ [entry]) iterLsn handled lsn := by
  intro pos found isSome started small
  rcases getElem_snoc isSome with ⟨old, -⟩ | ⟨_, same⟩
  · exact done pos found old started small
  · rw [same] at small
    exact absurd small (Nat.not_lt_of_le late)

theorem Passed.snoc (passed : Passed entries upTo lsn) (late : lsn ≤ entry.lsn) :
    Passed (entries ++ [entry]) upTo lsn := by
  intro pos found isSome small
  rcases getElem_snoc isSome with ⟨old, -⟩ | ⟨_, same⟩
  · exact passed pos found old small
  · rw [same] at small
    exact absurd small (Nat.not_lt_of_le late)

theorem Queue.snoc (queue : Queue entries iterLsn upTo maxDispatched running handled)
    (late : maxDispatched ≤ entry.lsn) :
    Queue (entries ++ [entry]) iterLsn upTo maxDispatched running handled := by
  refine { queue with placed := ?_, bounded := ?_, covered := ?_, compared := ?_ }
  · intro task mem
    have inside := (queue.dispatched task mem).trans_le queue.bounded
    rw [List.getElem?_append_left inside]
    exact queue.placed task mem
  · rw [length_append]
    exact Nat.le_add_right_of_le queue.bounded
  · intro pos found isSome started small
    rcases getElem_snoc isSome with ⟨old, -⟩ | ⟨isLast, _⟩
    · exact queue.covered pos found old started small
    · exact absurd (small.trans_le queue.bounded) (isLast ▸ lt_irrefl _)
  · intro task mem seen
    exact (queue.compared task mem seen).snoc ((queue.lsns task mem).trans late)

variable {front back : List (ReplayTask Tag)} {task : ReplayTask Tag} {more : List Nat}

theorem Done.mono (done : Done entries iterLsn handled lsn)
    (grown : ∀ pos ∈ handled, pos ∈ more) : Done entries iterLsn more lsn := by
  intro pos found isSome started small
  exact grown pos (done pos found isSome started small)

theorem Done.of_max {other : Nat} (left : Done entries iterLsn handled lsn)
    (right : Done entries iterLsn handled other) :
    Done entries iterLsn handled (max lsn other) := by
  intro pos found isSome started _
  have either : found.lsn < lsn ∨ found.lsn < other := by omega
  rcases either with below | below
  · exact left pos found isSome started below
  · exact right pos found isSome started below

theorem Queue.handled_mono (queue : Queue entries iterLsn upTo maxDispatched running handled)
    (grown : ∀ pos ∈ handled, pos ∈ more) :
    Queue entries iterLsn upTo maxDispatched running more := by
  refine { queue with covered := ?_, finished := ?_, compared := ?_ }
  · intro pos found isSome started small
    rcases queue.covered pos found isSome started small with done | busy
    · exact .inl (grown pos done)
    · exact .inr busy
  · exact fun task mem done => grown _ (queue.finished task mem done)
  · exact fun task mem seen => (queue.compared task mem seen).mono grown

section
variable (queue : Queue entries iterLsn upTo maxDispatched (front ++ task :: back) handled)
include queue

theorem Queue.stage {stage : Stage} (done : stage = .finished → task.position ∈ handled)
    (known : stage = .compared task.lsn → Done entries iterLsn handled task.lsn) :
    Queue entries iterLsn upTo maxDispatched (front ++ { task with stage := stage } :: back)
    handled := by
  have isTask : task ∈ front ++ task :: back := mem_append_right _ mem_cons_self
  have replaced : ∀ {holds : ReplayTask Tag → Prop}, (∀ other ∈ front ++ task :: back,
    holds other) →
      holds { task with stage := stage } → ∀ other ∈ front ++ { task with stage := stage } :: back,
      holds other := by
    intro _ old new
    rw [forall_mem_append, forall_mem_cons] at old ⊢
    exact ⟨old.1, new, old.2.2⟩
  refine ⟨?_, ?_, queue.bounded, ?_, ?_, ?_, ?_, ?_⟩
  · exact replaced queue.placed (queue.placed task isTask)
  · have sorted := queue.sorted
    rw [map_append, map_cons] at sorted ⊢
    exact sorted
  · exact replaced queue.dispatched (queue.dispatched task isTask)
  · exact replaced queue.lsns (queue.lsns task isTask)
  · intro pos found isSome started small
    rcases queue.covered pos found isSome started small with isDone | ⟨other, mem, same⟩
    · exact .inl isDone
    right
    rcases mem_append.mp mem with inFront | inBack
    · exact ⟨other, mem_append_left _ inFront, same⟩
    · rcases mem_cons.mp inBack with isOld | later
      · rw [isOld] at same
        exact ⟨_, mem_append_right _ mem_cons_self, same⟩
      · exact ⟨other, mem_append_right _ (mem_cons_of_mem _ later), same⟩
  · exact replaced queue.finished done
  · exact replaced queue.compared known

theorem Queue.remove (done : task.stage = .finished) :
    Queue entries iterLsn upTo maxDispatched (front ++ back) handled := by
  have kept : (front ++ back).Sublist (front ++ task :: back) :=
    (List.Sublist.refl front).append (sublist_cons_self task back)
  have isTask : task ∈ front ++ task :: back := mem_append_right _ mem_cons_self
  refine ⟨?_, ?_, queue.bounded, ?_, ?_, ?_, ?_, ?_⟩
  · exact fun other mem => queue.placed other (kept.subset mem)
  · exact queue.sorted.sublist (kept.map _)
  · exact fun other mem => queue.dispatched other (kept.subset mem)
  · exact fun other mem => queue.lsns other (kept.subset mem)
  · intro pos found isSome started small
    rcases queue.covered pos found isSome started small with isDone | ⟨other, mem, same⟩
    · exact .inl isDone
    rcases mem_append.mp mem with inFront | inBack
    · exact .inr ⟨other, mem_append_left _ inFront, same⟩
    · rcases mem_cons.mp inBack with isOld | later
      · rw [isOld] at same
        exact .inl (same ▸ queue.finished task isTask done)
      · exact .inr ⟨other, mem_append_right _ later, same⟩
  · exact fun other mem => queue.finished other (kept.subset mem)
  · exact fun other mem => queue.compared other (kept.subset mem)

end

theorem position_lt {first second : Nat} {early late : IndexEntry Tag}
    (ordered : entries.Pairwise fun before after => before.lsn ≤ after.lsn)
    (isFirst : entries[first]? = some early) (isSecond : entries[second]? = some late)
    (smaller : early.lsn < late.lsn) : first < second := by
  by_contra notBefore
  obtain ⟨firstBound, firstIs⟩ := List.getElem?_eq_some_iff.mp isFirst
  obtain ⟨secondBound, secondIs⟩ := List.getElem?_eq_some_iff.mp isSecond
  rcases Nat.lt_or_eq_of_le (Nat.le_of_not_lt notBefore) with after | same
  · have sorted := pairwise_iff_getElem.mp ordered second first secondBound firstBound after
    rw [firstIs, secondIs] at sorted
    exact absurd smaller (Nat.not_lt_of_le sorted)
  · subst same
    rw [← firstIs, ← secondIs] at smaller
    exact absurd smaller (lt_irrefl _)

theorem Queue.head (queue : Queue entries iterLsn upTo maxDispatched running handled)
    (ordered : entries.Pairwise fun early late => early.lsn ≤ late.lsn) :
    Done entries iterLsn handled (headLsn running) := by
  intro pos found isSome started small
  cases running with
  | nil => exact absurd small (Nat.not_lt_zero _)
  | cons task =>
    have before := position_lt ordered isSome (queue.placed task mem_cons_self) small
    have inside := lt_trans before (queue.dispatched task mem_cons_self)
    rcases queue.covered pos found isSome started inside with isDone | ⟨other, mem, same⟩
    · exact isDone
    rcases mem_cons.mp mem with isHead | later
    · rw [← same, isHead] at before
      exact absurd before (lt_irrefl _)
    · have sorted := queue.sorted
      rw [map_cons, pairwise_cons] at sorted
      have after := sorted.1 other.position (mem_map_of_mem later)
      rw [same] at after
      exact absurd after (lt_asymm before)

theorem Queue.done_of_passed (queue : Queue entries iterLsn upTo maxDispatched [] handled)
    (passed : Passed entries upTo lsn) : Done entries iterLsn handled lsn := by
  intro pos found isSome started small
  rcases queue.covered pos found isSome started (passed pos found isSome small) with isDone | busy
  · exact isDone
  · obtain ⟨_, mem, _⟩ := busy
    cases mem

theorem Queue.dispatch {page : PageLsn Tag}
    (queue : Queue entries iterLsn page.position maxDispatched running handled)
    (isPage : entries[page.position]? = some { lsn := page.lsn, tag := page.tag })
    (passed : Passed entries page.position maxDispatched) :
    Queue entries iterLsn (page.position + 1) page.lsn
      (running ++
        [{ position := page.position, lsn := page.lsn, tag := page.tag, stage := .added }])
      handled := by
  have inside := (List.getElem?_eq_some_iff.mp isPage).1
  have larger : maxDispatched ≤ page.lsn := by
    by_contra smaller
    exact absurd (passed page.position _ isPage (Nat.lt_of_not_le smaller)) (lt_irrefl _)
  refine ⟨?_, ?_, inside, ?_, ?_, ?_, ?_, ?_⟩
  · exact forall_mem_snoc.mpr ⟨queue.placed, isPage⟩
  · rw [map_append]
    refine pairwise_snoc.mpr ⟨queue.sorted, ?_⟩
    intro _ isOld
    obtain ⟨task, mem, rfl⟩ := mem_map.mp isOld
    exact queue.dispatched task mem
  · exact forall_mem_snoc.mpr ⟨fun task old => Nat.lt_succ_of_lt (queue.dispatched task old),
      Nat.lt_succ_self _⟩
  · exact forall_mem_snoc.mpr ⟨fun task old => (queue.lsns task old).trans larger, le_rfl⟩
  · intro pos found isSome started small
    rcases lt_or_eq_of_le (Nat.le_of_lt_succ small) with before | same
    · rcases queue.covered pos found isSome started before with isDone | ⟨task, mem, same⟩
      · exact .inl isDone
      · exact .inr ⟨task, mem_append_left _ mem, same⟩
    · exact .inr ⟨_, mem_concat_self, same.symm⟩
  · exact forall_mem_snoc.mpr ⟨queue.finished, nofun⟩
  · exact forall_mem_snoc.mpr ⟨queue.compared, nofun⟩

theorem Copies.grow {phase : Phase} {lastEnd laterEnd bgReplayed nextBg : Nat}
    {moreEntries : List (IndexEntry Tag)} {nextRunning : List (ReplayTask Tag)}
    (copies : Copies phase lastEnd bgReplayed maxDispatched upTo entries running)
    (later : lastEnd ≤ laterEnd) (ahead : nextBg ≤ max bgReplayed maxDispatched)
    (passed : ∀ replayed ≤ lastEnd, Passed entries upTo replayed → Passed moreEntries upTo replayed)
    (empty : running = [] → nextRunning = []) :
    Copies phase laterEnd nextBg maxDispatched upTo moreEntries nextRunning := by
  have bounded : ∀ replayed, bgReplayed ≤ max replayed maxDispatched →
    nextBg ≤ max replayed maxDispatched := by
    intro replayed known
    exact ahead.trans (Nat.max_le.mpr ⟨known, Nat.le_max_right _ _⟩)
  cases phase with
  | poll | decide => exact ⟨copies.1.trans later, bounded _ copies.2⟩
  | settle replayed dispatchDone =>
    cases dispatchDone with
    | false => trivial
    | true => exact ⟨copies.1.trans later, bounded _ copies.2.1, passed _ copies.1 copies.2.2⟩
  | forward =>
    exact ⟨copies.1.trans later, bounded _ copies.2.1, passed _ copies.1 copies.2.2.1,
      empty copies.2.2.2⟩
  | _ => trivial

theorem before_iteratorStart {pos : Nat} (isSome : entries[pos]? = some entry)
    (before : pos < iteratorStart entries lsn) : entry.lsn < lsn := by
  have inTake : (entries.takeWhile fun entry => entry.lsn < lsn)[pos]? = some entry := by
    have split := takeWhile_append_dropWhile (p := fun entry : IndexEntry Tag => entry.lsn < lsn)
      (l := entries)
    rw [← split, List.getElem?_append_left before] at isSome
    exact isSome
  have mem := mem_of_getElem? inTake
  exact of_decide_eq_true
    (mem_takeWhile_imp (p := fun entry : IndexEntry Tag => entry.lsn < lsn) mem)

theorem Queue.start : Queue entries lsn (iteratorStart entries lsn) 0 [] handled := by
  refine ⟨?_, List.Pairwise.nil, ?_, ?_, ?_, ?_, ?_, ?_⟩
  · exact forall_mem_nil _
  · exact (takeWhile_sublist _).length_le
  · exact forall_mem_nil _
  · exact forall_mem_nil _
  · intro _ _ isSome started before
    exact absurd (before_iteratorStart isSome before) (Nat.not_lt_of_le started)
  · exact forall_mem_nil _
  · exact forall_mem_nil _

theorem Done.start : Done entries lsn handled lsn := by
  intro _ _ _ started small
  exact absurd small (Nat.not_lt_of_le started)

theorem Passed.zero : Passed entries upTo 0 := by
  intro _ _ _ small
  exact absurd small (Nat.not_lt_zero _)

end

theorem inv_start (started : Started st) : Inv st := by
  constructor
  · exact started.parsed
  · intro _ isPage
    rw [started.replayPage] at isPage
    cases isPage
  · rw [started.replayPage, started.iterNext, started.iterLsn, started.maxDispatched,
      started.running]
    exact Queue.start
  · rw [started.maxDispatched]
    exact Passed.zero
  · rw [started.maxDispatched]
    exact Nat.zero_le _
  · exact started.replayed
  · rw [started.iterLsn]
    exact Done.start
  · rw [started.phase]
    trivial

theorem Inv.phase (inv : Inv st) {phase : Phase}
    (copies : Copies phase st.lastReplayedEnd st.bgReplayed st.maxDispatched
      (dispatchedTo st.replayPage st.iterNext) st.entries st.running) :
    Inv { st with phase := phase } :=
  { inv with copies := copies }

theorem Inv.backends (inv : Inv st) (readMin : Nat → Nat) (localRedo : Nat → Option Nat) :
    Inv { st with readMin := readMin, localRedo := localRedo } :=
  { inv with }

variable {readPtr endPtr : Nat} {page : PageLsn Tag}

theorem Inv.add (inv : Inv st) {tag : Tag} (busy : st.parsing = some (readPtr, endPtr)) :
    Inv { st with entries := st.entries ++ [{ lsn := readPtr, tag := tag }] } := by
  have late := (inv.parsed.later readPtr endPtr busy).1
  have above : st.maxDispatched ≤ readPtr := by
    have record := inv.parsed.record
    have within := inv.within
    omega
  constructor
  · refine ⟨?_, ?_, inv.parsed.record, inv.parsed.later⟩
    · refine pairwise_snoc.mpr ⟨inv.parsed.ordered, fun early mem => ?_⟩
      rcases inv.parsed.parsed early mem with old | ⟨endOf, same⟩
      · have record := inv.parsed.record
        change early.lsn ≤ readPtr
        omega
      · rw [busy] at same
        cases same
        exact le_rfl
    · exact forall_mem_snoc.mpr ⟨inv.parsed.parsed, .inr ⟨endPtr, busy⟩⟩
  · intro page isPage
    obtain ⟨isEntry, following⟩ := inv.page page isPage
    have inside := (List.getElem?_eq_some_iff.mp isEntry).1
    exact ⟨(List.getElem?_append_left inside).trans isEntry, following⟩
  · exact inv.queue.snoc above
  · exact inv.behind.snoc above
  · exact inv.within
  · exact inv.reached
  · exact inv.safe.snoc (inv.reached.trans late)
  · apply inv.copies.grow (le_rfl) (le_max_left _ _)
    · intro _ bounded passed
      exact passed.snoc (bounded.trans late)
    · exact id

theorem Inv.replayed (inv : Inv st) (busy : st.parsing = some (readPtr, endPtr)) :
    Inv { st with parsing := none, lastReplayedRead := readPtr, lastReplayedEnd := endPtr } := by
  obtain ⟨_, size⟩ := inv.parsed.later readPtr endPtr busy
  have record := inv.parsed.record
  refine { inv with parsed := ?_, within := ?_, reached := ?_, copies := ?_ }
  · refine ⟨inv.parsed.ordered, ?_, size, ?_⟩
    · intro entry mem
      left
      rcases inv.parsed.parsed entry mem with old | ⟨endOf, same⟩
      · change entry.lsn ≤ readPtr
        omega
      · rw [busy] at same
        cases same
        exact le_rfl
    · exact nofun
  · have within := inv.within
    change st.maxDispatched ≤ readPtr
    omega
  · have reached := inv.reached
    change st.bgReplayed ≤ endPtr
    omega
  · have longer : st.lastReplayedEnd ≤ endPtr := by omega
    exact inv.copies.grow longer (le_max_left _ _) (fun _ _ passed => passed) id

variable {xlogReplayed : Nat}

section
variable (inv : Inv st)
include inv

theorem Inv.poll (here : st.phase = .poll xlogReplayed) : Inv (pollIterator st xlogReplayed) := by
  have copies := inv.copies
  rw [here] at copies
  unfold pollIterator
  split
  · exact inv.phase copies
  next waiting =>
    have same : dispatchedTo st.replayPage st.iterNext = st.iterNext := by rw [waiting]; rfl
    split
    · next isNext =>
        apply inv.phase
        refine ⟨copies.1, copies.2, ?_⟩
        intro _ entry isSome _
        have outside := List.getElem?_eq_none_iff.mp isNext
        have inside := (List.getElem?_eq_some_iff.mp isSome).1
        rw [same]
        exact inside.trans_le outside
    · next entry isNext =>
        have queue := inv.queue
        have behind := inv.behind
        rw [same] at queue behind
        refine ⟨inv.parsed, ?_, queue, behind, inv.within, inv.reached, inv.safe, copies⟩
        intro _ isPage
        cases isPage
        exact ⟨isNext, rfl⟩

theorem Inv.dispatch (waiting : st.replayPage = some page)
    (reached : page.lsn ≤ st.lastReplayedRead) : Inv (dispatchPage st page) := by
  obtain ⟨isPage, following⟩ := inv.page page waiting
  have same : dispatchedTo st.replayPage st.iterNext = page.position := by rw [waiting]; rfl
  have queue := inv.queue
  have behind := inv.behind
  rw [same] at queue behind
  have dispatched := queue.dispatch isPage behind
  rw [following] at dispatched
  refine ⟨inv.parsed, ?_, dispatched, ?_, reached, inv.reached, inv.safe, trivial⟩
  · exact nofun
  · intro pos _ isSome small
    have before := position_lt inv.parsed.ordered isSome isPage small
    change pos < st.iterNext
    omega

/-- An entry that was not replayed yet starts where the last replayed record ends, or later. -/
theorem Inv.beyond (here : st.phase = .decide xlogReplayed) (waiting : st.replayPage = some page)
    (late : st.lastReplayedRead < page.lsn) :
    Inv { st with phase := .settle xlogReplayed true } := by
  have copies := inv.copies
  rw [here] at copies
  apply inv.phase
  refine ⟨copies.1, copies.2, ?_⟩
  intro _ entry isSome _
  obtain ⟨isPage, _⟩ := inv.page page waiting
  have notBelow : st.lastReplayedEnd ≤ page.lsn := by
    rcases inv.parsed.parsed _ (mem_of_getElem? isPage) with old | ⟨endPtr, busy⟩
    · exact absurd late (Nat.not_lt_of_le old)
    · exact (inv.parsed.later _ _ busy).1
  have smaller : entry.lsn < page.lsn := by
    have bounded := copies.1
    omega
  rw [waiting]
  exact position_lt inv.parsed.ordered isSome isPage smaller

theorem Inv.forward (here : st.phase = .forward xlogReplayed) :
    Inv { st with bgReplayed := max xlogReplayed st.maxDispatched, phase := .readBg } := by
  have copies := inv.copies
  rw [here] at copies
  obtain ⟨_, _, passed, empty⟩ := copies
  have queue := inv.queue
  rw [empty] at queue
  refine { inv with reached := ?_, safe := ?_, copies := trivial }
  · have within := inv.within
    have record := inv.parsed.record
    change max xlogReplayed st.maxDispatched ≤ st.lastReplayedEnd
    omega
  · exact (queue.done_of_passed passed).of_max (queue.done_of_passed inv.behind)

section
variable {front back : List (ReplayTask Tag)} {task : ReplayTask Tag}

/-- A worker moves one of the queued tasks on, and may advance `bg_replayed_lsn` within what is
finished. -/
theorem Inv.work (stage : Stage) (bgReplayed : Nat) (handled : List Nat)
    (whole : st.running = front ++ task :: back) (grown : ∀ pos ∈ st.handled, pos ∈ handled)
    (done : stage = .finished → task.position ∈ handled)
    (known : stage = .compared task.lsn → Done st.entries st.iterLsn handled task.lsn)
    (ahead : bgReplayed ≤ max st.bgReplayed st.maxDispatched)
    (safe : Done st.entries st.iterLsn handled bgReplayed) :
    Inv { setStage st front task back stage with
        bgReplayed := bgReplayed, handled := handled } := by
  have queue := inv.queue.handled_mono grown
  rw [whole] at queue
  refine ⟨inv.parsed, inv.page, queue.stage done known, inv.behind, inv.within, ?_, safe, ?_⟩
  · have within := inv.within
    have record := inv.parsed.record
    have reached := inv.reached
    change bgReplayed ≤ st.lastReplayedEnd
    omega
  · apply inv.copies.grow (le_rfl) ahead (fun _ _ passed => passed)
    intro empty
    rw [whole] at empty
    exact absurd empty (by simp)

theorem Inv.advance {head : Nat} (whole : st.running = front ++ task :: back)
    (seen : task.stage = .compared head) : Inv { setStage st front task back .advanced with
      bgReplayed := advanceBgReplayed st.bgReplayed head task.lsn } := by
  have mem : task ∈ st.running := by
    rw [whole]
    exact mem_append_right _ mem_cons_self
  have small := inv.queue.lsns task mem
  apply inv.work .advanced _ st.handled whole
    (fun _ isDone => isDone) nofun nofun
  · unfold advanceBgReplayed
    split <;> omega
  unfold advanceBgReplayed
  split
  · next moved =>
      rw [moved.1] at seen
      exact inv.queue.compared task mem seen
  · exact inv.safe

end

theorem Inv.promote {oldestRedo : Nat} (released : st.phase = .idle)
    (replayed : oldestRedo ≤ st.lastReplayedEnd) : Inv (resetBgReplayed st oldestRedo) := by
  refine ⟨inv.parsed, nofun, Queue.start, Passed.zero, Nat.zero_le _, replayed, Done.start, ?_⟩
  change Copies st.phase _ _ _ _ _ _
  rw [released]
  trivial

theorem Inv.step (step : Step event st next) : Inv next := by
  have same : ∀ pos ∈ st.handled, pos ∈ st.handled := fun _ isDone => isDone
  cases step with
  | parse readPtr endPtr _ free later size =>
    refine { inv with parsed := ⟨inv.parsed.ordered, ?_, inv.parsed.record, ?_⟩ }
    · intro entry mem
      rcases inv.parsed.parsed entry mem with old | ⟨otherEnd, busy⟩
      · exact .inl old
      · rw [free] at busy
        cases busy
    · intro _ _ isParsing
      cases isParsing
      exact ⟨later, size⟩
  | add readPtr endPtr _ busy => exact inv.add busy
  | replayed _ _ busy => exact inv.replayed busy
  | checkpoint | promoteStandby =>
    exact { inv with }
  | enter | readBg => exact inv.phase trivial
  | remove front back task here whole done =>
    have queue := inv.queue
    have copies := inv.copies
    rw [whole] at queue
    refine { inv with queue := queue.remove done, copies := ?_ }
    rcases here with removing | ⟨_, deciding⟩
    · rw [removing]
      trivial
    · rw [deciding] at copies ⊢
      exact copies
  | dispatchLoop | full | scan =>
    exact inv.phase trivial
  | readReplayed here =>
    apply inv.phase
    exact ⟨le_rfl, inv.reached.trans (le_max_left _ _)⟩
  | poll xlogReplayed here => exact inv.poll here
  | beyond xlogReplayed page here waiting late => exact inv.beyond here waiting late
  | dispatch xlogReplayed page here waiting reached => exact inv.dispatch waiting reached
  | settle xlogReplayed _ here =>
    apply inv.phase
    have copies := inv.copies
    rw [here] at copies
    split
    · next drained =>
        rw [Bool.and_eq_true, List.isEmpty_iff] at drained
        rw [drained.1] at copies
        exact ⟨copies.1, copies.2.1, copies.2.2, drained.2⟩
    · trivial
  | forward _ here => exact inv.forward here
  | compute _ _ _ _ whole =>
    unfold setOldest
    split
    · exact { inv with copies := trivial }
    · exact inv.phase trivial
  | handle front back task _ whole =>
    exact inv.work .handled st.bgReplayed st.handled whole same nofun
      nofun (le_max_left _ _) inv.safe
  | compare front back task whole done =>
    apply inv.work (.compared (headLsn st.running)) st.bgReplayed st.handled whole same nofun ?_
      (le_max_left _ _) inv.safe
    intro atHead
    rw [← Stage.compared.inj atHead]
    exact inv.queue.head inv.parsed.ordered
  | advance front back task _ whole seen => exact inv.advance whole seen
  | finish _ _ task whole =>
    have more : ∀ pos ∈ st.handled, pos ∈ task.position :: st.handled := fun _ isDone =>
      mem_cons_of_mem _ isDone
    exact inv.work .finished st.bgReplayed _ whole more
      (fun _ => mem_cons_self) nofun (le_max_left _ _) (inv.safe.mono more)
  | readRedo | publishRedo | requireRedo | lockApply | clear => exact inv.backends _ _
  | promoteReplica _ _ _ released _ replayed =>
    exact inv.promote released replayed

end

theorem Inv.run {condition : Event → State Tag → Prop} {start : State Tag} (inv : Inv start)
    (run : Run Step condition start st) : Inv st :=
  run.invariant Inv inv fun _ _ _ known step _ => known.step step

/-- Every entry of the iteration below `bg_replayed_lsn` was handled by a finished task. -/
theorem replayed_entries_handled {start : State Tag} (started : Started start)
    (run : Run Step (fun _ _ => True) start st) :
    ∀ pos entry, st.entries[pos]? = some entry → st.iterLsn ≤ entry.lsn →
      entry.lsn < st.bgReplayed → pos ∈ st.handled :=
  ((inv_start started).run run).safe

/-- Two pages of one record are dispatched; the second is finished first and finds its LSN at the
head. -/
theorem two_pages_handled : ∃ st : State Nat,
    Run Step (fun _ _ => True) (wakeupState .standby 90 100 40 0) st ∧ st.bgReplayed = 120 ∧
      0 ∈ st.handled ∧ 1 ∈ st.handled := by
  let first : ReplayTask Nat := { position := 0, lsn := 100, tag := 7, stage := .added }
  let second : ReplayTask Nat := { position := 1, lsn := 100, tag := 8, stage := .added }
  have started : Run Step (fun _ _ => True) (wakeupState .standby 90 100 40 0 : State Nat) _ :=
    .refl
  have parsed := ((started.snoc (.parse 100 120 (by decide) rfl (by decide) (by decide))).snoc
    (.add 100 120 7 rfl)).snoc (.add 100 120 8 rfl)
  have round := ((parsed.snoc (.replayed 100 120 rfl)).snoc (.enter rfl)).snoc (.dispatchLoop rfl)
  have one := ((round.snoc (.readReplayed rfl)).snoc (.poll 120 rfl)).snoc
    (.dispatch 120 _ rfl rfl (by decide))
  have two := ((one.snoc (.readReplayed rfl)).snoc (.poll 120 rfl)).snoc
    (.dispatch 120 _ rfl rfl (by decide))
  have drained := ((two.snoc (.readReplayed rfl)).snoc (.poll 120 rfl)).snoc (.settle 120 true rfl)
  have handledSecond := drained.snoc (.handle [first] [] second .needReplay rfl rfl (by decide))
  have comparedSecond := handledSecond.snoc (.compare [first] [] _ rfl rfl)
  have finishedSecond := (comparedSecond.snoc (.advance [first] [] _ 100 rfl rfl)).snoc
    (.finish [first] [] _ rfl rfl)
  have handledFirst := finishedSecond.snoc (.handle [] _ first .isFlushed rfl rfl (by decide))
  have comparedFirst := handledFirst.snoc (.compare [] _ _ rfl rfl)
  have finishedFirst := (comparedFirst.snoc (.advance [] _ _ 100 rfl rfl)).snoc
    (.finish [] _ _ rfl rfl)
  have ended := (finishedFirst.snoc (.readBg rfl)).snoc (.compute 100 0 0 rfl (by decide))
  have removed := ((ended.snoc (.enter rfl)).snoc (.remove [] _ _ (.inl rfl) rfl rfl)).snoc
    (.remove [] [] _ (.inl rfl) rfl rfl)
  have again := ((removed.snoc (.dispatchLoop rfl)).snoc (.readReplayed rfl)).snoc (.poll 120 rfl)
  have forwarded := (again.snoc (.settle 120 true rfl)).snoc (.forward 120 rfl)
  have safe := replayed_entries_handled (wakeupState_started (by decide) (by decide)) forwarded
  exact ⟨_, forwarded, rfl, safe 0 { lsn := 100, tag := 7 } rfl (by decide) (by decide),
    safe 1 { lsn := 100, tag := 8 } rfl (by decide) (by decide)⟩

end PolarDB.BgReplay.Dispatch
