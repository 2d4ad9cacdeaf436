import PolarDB.PageReplay.Outdate
import PolarDB.FullPage.FuturePageExact

/-!
# No record of an outdated page is lost

In a round without the page lock, a record that is added after the backend looked for
the tag sets the `OUTDATE` bit before its LSN is added, and the bit is still set at the
loop test. With the page lock nothing is added until the test, and the end LSN covers
what was added before. After the last test the startup process finds the buffer read and
not being replayed, so it waits for the backend.
-/

namespace PolarDB.PageReplay.Outdate

open List Lib.Runs Lib.Snoc
open FullPage.FuturePage

variable {Content : Type} {empty : PageImage Content} {st next : State Content} {event : Event}

/-- Applying the indexed records up to `endLsn` leaves nothing below the returned LSN out. -/
theorem Covers.apply {idx coming : List (WalRecord Content)} {startLsn endLsn : Nat}
    (covers : Covers (idx ++ coming) empty page startLsn) (ordered : Ordered (idx ++ coming))
    (zero : empty.lsn = 0) (ahead : ∀ record ∈ coming, endLsn ≤ record.lsn) :
    Covers (idx ++ coming) empty (polarLogindexApplyPage idx startLsn endLsn page)
      (applyPageResult startLsn endLsn page) := by
  obtain ⟨front, back, whole, isPage, above⟩ := covers
  rw [whole] at ordered
  have between := version_between ordered fun _ _ _ => zero ▸ Nat.zero_le _
  rw [← isPage] at between
  have fromStart : ∀ record ∈ back, max startLsn page.lsn ≤ record.lsn := by
    intro record mem
    exact Nat.max_le.mpr ⟨above record mem, between.2 record mem⟩
  unfold polarLogindexApplyPage applyPageResult
  by_cases nothing : endLsn ≤ max startLsn page.lsn
  · rw [if_pos nothing, if_pos nothing]
    exact ⟨front, back, whole, isPage, fromStart⟩
  rw [if_neg nothing, if_neg nothing]
  have backOrdered : Ordered back :=
    ⟨(pairwise_append.mp ordered.1).2.1,
      fun record mem => ordered.2 record (mem_append_right _ mem)⟩
  obtain ⟨rest, isBack, restAbove⟩ := filter_below backOrdered endLsn
  have notComing : (coming.filter fun record => max startLsn page.lsn ≤ record.lsn ∧
    record.lsn < endLsn) = [] := by
    apply filter_eq_nil_iff.mpr
    intro record mem
    have late := ahead record mem
    simp only [decide_eq_true_eq]
    omega
  have before : ∀ record ∈ front, record.lsn < max startLsn page.lsn := by
    intro record mem
    have ends := between.1 record mem
    have grows := ordered.2 record (mem_append_left _ mem)
    omega
  have applied : (idx.filter fun record => max startLsn page.lsn ≤ record.lsn ∧
      record.lsn < endLsn) = back.filter fun record => record.lsn < endLsn := by
    have all := filter_append idx coming
      (p := fun record => decide (max startLsn page.lsn ≤ record.lsn ∧ record.lsn < endLsn))
    rw [notComing, append_nil, whole, filter_between before fromStart] at all
    exact all.symm
  rw [applied]
  refine ⟨front ++ back.filter fun record => record.lsn < endLsn, rest, ?_, ?_, restAbove⟩
  · rw [append_assoc, ← isBack, whole]
  · rw [foldl_append, ← isPage]

def Startup.isAdding : Startup → Bool
  | .adding _ => true
  | _ => false

/-- The LSN of the record is not in the logindex yet. -/
def Own (st : State Content) (parse : Parse) : Prop :=
  IsNext st parse ∧ parse.touches = true ∧ st.replayEndRecPtr = parse.endLsn ∧ st.added = false ∧
    st.transStarted = true ∧ st.present = true

/-- The logindex lies before the end of the record, and what will come behind it. -/
def Within (st : State Content) (parse : Parse) : Prop :=
  st.replayEndRecPtr = parse.endLsn ∧ st.lastReplayedEndRecPtr ≤ parse.endLsn ∧
    (∀ record ∈ st.index, record.endLsn ≤ parse.endLsn) ∧ ∀ record ∈ st.coming, parse.endLsn ≤
    record.lsn

def Tracks (st : State Content) : Prop :=
  match st.startup with
  | .idle => st.added = false
  | .announced parse => IsNext st parse ∧ st.replayEndRecPtr = parse.endLsn ∧ st.added = false
  | .started parse =>
    IsNext st parse ∧ st.replayEndRecPtr = parse.endLsn ∧ st.added = false ∧ st.transStarted = true
  | .locking parse => Own st parse
  | .locked parse => Own st parse
  | .adding parse => Own st parse
  | .waiting parse => Own st parse
  | .relocking parse => Own st parse
  | .readding parse => Own st parse
  | .marking parse => Within st parse ∧ st.transStarted = true ∧ st.present = true
  | .releasing parse => Within st parse ∧ st.transStarted = true ∧ st.present = true
  | .added parse => Within st parse ∧ st.transStarted = true ∧ st.present = true
  | .parsed parse => Within st parse
  | .replayed parse => Within st parse ∧ ∀ record ∈ st.index, record.endLsn ≤
      st.lastReplayedEndRecPtr
  | .stopped parse => Within st parse ∧ ∀ record ∈ st.index, record.endLsn ≤
      st.lastReplayedEndRecPtr

def Settled (st : State Content) : Prop := ∀ record ∈ st.index, record.endLsn ≤
    st.lastReplayedEndRecPtr

/-- Nothing at or behind `lsn` is in the logindex or about to be added past the buffer. -/
def Below (st : State Content) (lsn : Nat) : Prop :=
  (∀ record ∈ st.index, record.lsn < lsn) ∧ st.startup.isAdding = false

def InRound (st : State Content) : Prop := st.inPool = true ∧ st.readIoEnd = true ∧
    st.replaying = true

def Finished (st : State Content) (lsn : Nat) : Prop :=
  st.inPool = true ∧ st.readIoEnd = true ∧ st.replaying = false ∧ Below st lsn

def Rounds (st : State Content) : Prop :=
  match st.backend with
  | .outside => True
  | .entering _ => st.inPool = true
  | .referencing _ => InRound st
  | .locking _ => InRound st
  | .choosing _ locked =>
    InRound st ∧ (locked = false → st.outdate = true ∨ Settled st ∧ st.startup.isAdding = false)
  | .applying _ endLsn _ =>
    InRound st ∧ (∀ record ∈ st.coming, endLsn ≤ record.lsn) ∧ (st.outdate = true ∨ Below st endLsn)
  | .testing startLsn _ => InRound st ∧ (st.outdate = true ∨ Below st startLsn)
  | .unlocking startLsn _ again => if again then InRound st else Finished st startLsn
  | .returned startLsn => Finished st startLsn

def Backend.startLsn : Backend → Option Nat
  | .outside => none
  | .entering startLsn => some startLsn
  | .referencing startLsn => some startLsn
  | .locking startLsn => some startLsn
  | .choosing startLsn _ => some startLsn
  | .applying startLsn _ _ => some startLsn
  | .testing startLsn _ => some startLsn
  | .unlocking startLsn _ _ => some startLsn
  | .returned startLsn => some startLsn

variable {parse : Parse} {startLsn : Nat} {page : PageImage Content} {startup : Startup}

structure Inv (empty : PageImage Content) (st : State Content) : Prop where
  ordered : Ordered (st.index ++ st.coming)
  ahead : ∀ record ∈ st.coming, st.lastReplayedEndRecPtr ≤ record.lsn
  added : st.added = true → (∀ record ∈ st.index, record.endLsn ≤ st.replayEndRecPtr) ∧
    ∀ record ∈ st.coming, st.replayEndRecPtr ≤ record.lsn
  settled : (st.transStarted && st.present && st.added) = false → Settled st
  tracks : Tracks st
  startupLock : st.startup.holdsPage = true → st.pageLock = some .startup
  backendLock : st.backend.holdsPage = true → st.pageLock = some .backend
  buffer : st.startup.holdsBuffer = true → st.backend = .outside
  pinned : st.startup.pins = true → st.inPool = true
  rounds : Rounds st
  covers : ∀ startLsn, st.backend.startLsn = some startLsn →
    Covers (st.index ++ st.coming) empty st.page startLsn

/-- What a step of the startup process may change under a backend. -/
structure Beside (st next : State Content) : Prop where
  backend : next.backend = st.backend
  bits : next.inPool = st.inPool ∧ next.readIoEnd = st.readIoEnd ∧ next.replaying = st.replaying
  outdate : st.outdate = true → next.outdate = true
  coming : ∀ record ∈ next.coming, record ∈ st.coming
  forward : st.lastReplayedEndRecPtr ≤ next.lastReplayedEndRecPtr
  still : st.backend ≠ .outside → st.inPool = true → st.readIoEnd = true →
    st.startup.isAdding = false →
    (next.index = st.index ∧ next.startup.isAdding = false) ∨
    (next.outdate = true ∧ st.replaying = true)

theorem Beside.below (beside : Beside st next) {lsn : Nat} (occupied : st.backend ≠ .outside)
    (round : st.inPool = true ∧ st.readIoEnd = true) (below : Below st lsn) :
    Below next lsn ∨ (next.outdate = true ∧ st.replaying = true) := by
  rcases beside.still occupied round.1 round.2 below.2 with ⟨same, quiet⟩ | marked
  · left
    exact ⟨same ▸ below.1, quiet⟩
  · exact .inr marked

theorem Beside.rounds (beside : Beside st next) (rounds : Rounds st) : Rounds next := by
  have inRound : InRound st → InRound next := by
    intro round
    exact ⟨beside.bits.1.trans round.1, beside.bits.2.1.trans round.2.1,
      beside.bits.2.2.trans round.2.2⟩
  have finished : ∀ lsn, st.backend ≠ .outside → Finished st lsn → Finished next lsn := by
    intro lsn occupied done
    refine ⟨beside.bits.1.trans done.1, beside.bits.2.1.trans done.2.1,
      beside.bits.2.2.trans done.2.2.1, ?_⟩
    rcases beside.below occupied ⟨done.1, done.2.1⟩ done.2.2.2 with below | ⟨_, replaying⟩
    · exact below
    · rw [done.2.2.1] at replaying
      cases replaying
  have outdated : ∀ lsn, st.backend ≠ .outside → InRound st → st.outdate = true ∨ Below st lsn →
      next.outdate = true ∨ Below next lsn := by
    intro _ occupied round known
    rcases known with isOutdate | below
    · exact .inl (beside.outdate isOutdate)
    · rcases beside.below occupied ⟨round.1, round.2.1⟩ below with still | ⟨marked, _⟩
      · exact .inr still
      · exact .inl marked
  unfold Rounds at rounds ⊢
  rw [beside.backend]
  cases here : st.backend with
  | outside => trivial
  | entering startLsn =>
    rw [here] at rounds
    exact beside.bits.1.trans rounds
  | referencing | locking =>
    rw [here] at rounds
    exact inRound rounds
  | choosing startLsn locked =>
    rw [here] at rounds
    refine ⟨inRound rounds.1, ?_⟩
    intro unlocked
    rcases rounds.2 unlocked with isOutdate | ⟨settled, quiet⟩
    · exact .inl (beside.outdate isOutdate)
    rcases beside.still (here ▸ nofun) rounds.1.1 rounds.1.2.1 quiet with ⟨same,
      stillQuiet⟩ | ⟨marked, _⟩
    · right
      refine ⟨?_, stillQuiet⟩
      intro record mem
      exact Nat.le_trans (settled record (same ▸ mem)) beside.forward
    · exact .inl marked
  | applying startLsn endLsn locked =>
    rw [here] at rounds
    refine ⟨inRound rounds.1, ?_, outdated endLsn (here ▸ nofun) rounds.1 rounds.2.2⟩
    exact fun record mem => rounds.2.1 record (beside.coming record mem)
  | testing startLsn locked =>
    rw [here] at rounds
    exact ⟨inRound rounds.1, outdated startLsn (here ▸ nofun) rounds.1 rounds.2⟩
  | unlocking startLsn _ again =>
    rw [here] at rounds
    cases again with
    | true => exact inRound rounds
    | false => exact finished startLsn (here ▸ nofun) rounds
  | returned startLsn =>
    rw [here] at rounds
    exact finished startLsn (here ▸ nofun) rounds

theorem Inv.beside (inv : Inv empty st) (next : State Content) (beside : Beside st next)
    (records : next.index ++ next.coming = st.index ++ st.coming) (page : next.page = st.page)
    (ahead : ∀ record ∈ next.coming, next.lastReplayedEndRecPtr ≤ record.lsn)
    (added : next.added = true → (∀ record ∈ next.index, record.endLsn ≤ next.replayEndRecPtr) ∧
      ∀ record ∈ next.coming, next.replayEndRecPtr ≤ record.lsn)
    (settled : (next.transStarted && next.present && next.added) = false → Settled next)
    (tracks : Tracks next)
    (startupLock : next.startup.holdsPage = true → next.pageLock = some .startup)
    (backendLock : next.backend.holdsPage = true → next.pageLock = some .backend)
    (buffer : next.startup.holdsBuffer = true → next.backend = .outside)
    (pinned : next.startup.pins = true → next.inPool = true) : Inv empty next := by
  refine ⟨records ▸ inv.ordered, ahead, added, settled, tracks, startupLock, backendLock,
    buffer, pinned, beside.rounds inv.rounds, ?_⟩
  rw [records, page, beside.backend]
  exact inv.covers

variable {locked : Bool} {pageLock : Option Owner}

section
variable (inv : Inv empty st)
include inv

theorem Inv.phase {transStarted present outdate : Bool} (quiet : startup.isAdding = false)
    (grows : st.outdate = true → outdate = true)
    (settled : (transStarted && present && st.added) = false → Settled st)
    (tracks : Tracks { st with
      startup := startup, transStarted := transStarted, present := present, pageLock :=
      pageLock, outdate := outdate })
    (startupLock : startup.holdsPage = true → pageLock = some .startup)
    (backendLock : st.backend.holdsPage = true → pageLock = some .backend)
    (buffer : startup.holdsBuffer = true → st.backend = .outside)
    (pinned : startup.pins = true → st.inPool = true) :
    Inv empty { st with
      startup := startup, transStarted := transStarted, present := present, pageLock := pageLock
      outdate := outdate } := by
  refine inv.beside _ ?_ rfl rfl inv.ahead inv.added settled tracks startupLock backendLock
    buffer pinned
  exact ⟨rfl, ⟨rfl, rfl, rfl⟩, grows, fun _ mem => mem, Nat.le_refl _,
    fun _ _ _ _ => .inl ⟨rfl, quiet⟩⟩

theorem Inv.tracks_at (here : st.startup = startup) : Tracks { st with startup := startup } :=
  here ▸ inv.tracks

theorem Inv.rounds_at {backend : Backend} (here : st.backend = backend) :
    Rounds { st with backend := backend } :=
  here ▸ inv.rounds

theorem Inv.no_backend_lock (free : st.pageLock ≠ some .backend) :
    st.backend.holdsPage = true → pageLock = some .backend :=
  fun holds => absurd (inv.backendLock holds) free

/-- The LSN of the record is added; a backend in a round has its `OUTDATE` bit or waits for the page
lock. -/
theorem Inv.addLsn {record : WalRecord Content} {rest : List (WalRecord Content)}
    (own : Own st parse) (isNext : st.coming = record :: rest)
    (held : st.pageLock = some .startup) (busy : st.startup.isAdding = true ∨ st.backend = .outside)
    (tracks : Within (addLsn st record rest startup) parse → Tracks (addLsn st record rest startup))
    (buffer : startup.holdsBuffer = true → st.backend = .outside)
    (pinned : startup.pins = true → st.inPool = true) :
    Inv empty (addLsn st record rest startup) := by
  have records : (st.index ++ [record]) ++ rest = st.index ++ st.coming := by
    rw [isNext, append_assoc]
    rfl
  obtain ⟨⟨late, size, following⟩, touches, announced, notAdded, isStarted, isPresent⟩ := own
  rw [if_pos touches] at following
  obtain ⟨_, _, isFirst, _, sameEnd⟩ := following
  rw [isNext] at isFirst
  cases isFirst
  have settled : Settled st := inv.settled (by rw [notAdded, Bool.and_false])
  have ordered := inv.ordered
  rw [isNext] at ordered
  have restLate : ∀ other ∈ rest, parse.endLsn ≤ other.lsn := by
    intro other mem
    have parts := (pairwise_append.mp ordered.1).2.1
    rw [← sameEnd]
    exact (pairwise_cons.mp parts).1 other mem
  have within : ∀ other ∈ st.index ++ [record], other.endLsn ≤ parse.endLsn := by
    refine forall_mem_snoc.mpr ⟨fun other old => ?_, Nat.le_of_eq sameEnd⟩
    have before := settled other old
    omega
  apply inv.beside (Outdate.addLsn st record rest startup) ?_ records rfl
  · exact fun other mem => Nat.le_trans (Nat.le_trans late (Nat.le_of_lt size)) (restLate other mem)
  · intro _
    change (∀ other ∈ st.index ++ [record], other.endLsn ≤ st.replayEndRecPtr) ∧
      ∀ other ∈ rest, st.replayEndRecPtr ≤ other.lsn
    rw [announced]
    exact ⟨within, restLate⟩
  · intro impossible
    change (st.transStarted && st.present && true) = false at impossible
    rw [isStarted, isPresent] at impossible
    cases impossible
  · apply tracks
    exact ⟨announced, Nat.le_trans late (Nat.le_of_lt size), within, restLate⟩
  · exact fun _ => held
  · intro holds
    exact absurd held (by rw [inv.backendLock holds]; nofun)
  · exact buffer
  · exact pinned
  · refine ⟨rfl, ⟨rfl, rfl, rfl⟩, id, ?_, Nat.le_refl _, ?_⟩
    · intro _ mem
      rw [isNext]
      exact mem_cons_of_mem _ mem
    · intro occupied _ _ notAdding
      rcases busy with isAdding | isOutside
      · rw [isAdding] at notAdding
        cases notAdding
      · exact absurd isOutside occupied

theorem Inv.announce (here : st.startup = .idle) (isNext : IsNext st parse) :
    Inv empty { st with replayEndRecPtr := parse.endLsn, startup := .announced parse } := by
  have tracks := inv.tracks_at here
  apply inv.beside { st with replayEndRecPtr := parse.endLsn, startup := .announced parse } ?_ rfl
    rfl inv.ahead
  · intro isAdded
    rw [tracks] at isAdded
    cases isAdded
  · exact inv.settled
  · exact ⟨isNext, rfl, tracks⟩
  · exact nofun
  · exact inv.backendLock
  · exact nofun
  · exact nofun
  · exact ⟨rfl, ⟨rfl, rfl, rfl⟩, id, fun _ mem => mem, Nat.le_refl _,
      fun _ _ _ _ => .inl ⟨rfl, rfl⟩⟩

/-- A buffer that is not in the pool, or whose bit is set, will not be replayed past the record. -/
theorem Inv.begin_adding {outdate : Bool} (here : st.startup = .locked parse)
    (grows : st.outdate = true → outdate = true)
    (sees : st.inPool = true → st.readIoEnd = true → outdate = true ∧ st.replaying = true) :
    Inv empty { st with outdate := outdate, startup := .adding parse } := by
  have tracks := inv.tracks_at here
  apply inv.beside { st with outdate := outdate, startup := .adding parse } ?_ rfl rfl inv.ahead
    inv.added inv.settled tracks
  · exact fun _ => inv.startupLock (here ▸ rfl)
  · exact inv.backendLock
  · exact nofun
  · exact nofun
  · refine ⟨rfl, ⟨rfl, rfl, rfl⟩, grows, fun _ mem => mem, Nat.le_refl _, ?_⟩
    exact fun _ found isRead _ => .inr (sees found isRead)

theorem Inv.advance (here : st.startup = .parsed parse) :
    Inv empty { st with lastReplayedEndRecPtr := parse.endLsn, startup := .replayed parse } := by
  have tracks := inv.tracks_at here
  obtain ⟨announced, forward, before, behind⟩ := tracks
  apply inv.beside { st with lastReplayedEndRecPtr := parse.endLsn, startup := .replayed parse } ?_
    rfl rfl behind inv.added (fun _ => before)
  · exact ⟨⟨announced, Nat.le_refl _, before, behind⟩, before⟩
  · exact nofun
  · exact inv.backendLock
  · exact nofun
  · exact nofun
  · exact ⟨rfl, ⟨rfl, rfl, rfl⟩, id, fun _ mem => mem, forward, fun _ _ _ _ => .inl ⟨rfl, rfl⟩⟩

theorem Inv.clear (here : st.startup = .stopped parse) :
    Inv empty { st with present := false, added := false, startup := .idle } := by
  have tracks := inv.tracks_at here
  apply inv.beside { st with present := false, added := false, startup := .idle } ?_ rfl rfl
    inv.ahead nofun (fun _ => tracks.2) rfl nofun inv.backendLock nofun nofun
  exact ⟨rfl, ⟨rfl, rfl, rfl⟩, id, fun _ mem => mem, Nat.le_refl _, fun _ _ _ _ => .inl ⟨rfl, rfl⟩⟩

theorem Inv.within_of_other (isNext : IsNext st parse)
    (announced : st.replayEndRecPtr = parse.endLsn) (notAdded : st.added = false)
    (other : parse.touches = false) : Within st parse := by
  obtain ⟨late, size, following⟩ := isNext
  rw [other, if_neg Bool.false_ne_true] at following
  have settled : Settled st := inv.settled (by rw [notAdded, Bool.and_false])
  refine ⟨announced, Nat.le_trans late (Nat.le_of_lt size), ?_, following⟩
  intro record mem
  have before := settled record mem
  omega

theorem Inv.startup_step (step : Step empty .startup st next) : Inv empty next := by
  have tracks := inv.tracks
  unfold Tracks at tracks
  cases step with
  | announce parse here isNext => exact inv.announce here isNext
  | miniTransStart parse here =>
    rw [here] at tracks
    exact inv.phase rfl id (fun _ => inv.settled (by rw [tracks.2.2, Bool.and_false]))
      ⟨tracks.1, tracks.2.1, tracks.2.2, rfl⟩ nofun inv.backendLock nofun nofun
  | noTrans parse here other =>
    rw [here] at tracks
    exact inv.phase rfl id inv.settled (inv.within_of_other tracks.1 tracks.2.1 tracks.2.2 other)
      nofun inv.backendLock nofun nofun
  | otherPage parse here other =>
    rw [here] at tracks
    exact inv.phase rfl id inv.settled (inv.within_of_other tracks.1 tracks.2.1 tracks.2.2.1 other)
      nofun inv.backendLock nofun nofun
  | insertTag parse here own =>
    rw [here] at tracks
    exact inv.phase rfl id (fun _ => inv.settled (by rw [tracks.2.2.1, Bool.and_false]))
      ⟨tracks.1, own, tracks.2.1, tracks.2.2.1, tracks.2.2.2, rfl⟩ nofun inv.backendLock nofun nofun
  | lockPage parse here free =>
    rw [here] at tracks
    exact inv.phase rfl id inv.settled tracks (fun _ => rfl)
      (inv.no_backend_lock (by rw [free]; nofun)) nofun nofun
  | notInPool parse here absent =>
    apply inv.begin_adding here id
    intro found
    rw [absent] at found
    cases found
  | markOutdate parse here found busy =>
    apply inv.begin_adding here (fun _ => rfl)
    intro _ isRead
    unfold leavesToReader at busy
    rw [isRead, Bool.not_true, Bool.false_or, Bool.and_eq_true] at busy
    exact ⟨rfl, busy.1⟩
  | addLsn parse record rest here isNext =>
    rw [here] at tracks
    exact inv.addLsn tracks isNext (inv.startupLock (here ▸ rfl)) (.inl (here ▸ rfl))
      (fun within => ⟨within, tracks.2.2.2.2⟩) nofun nofun
  | leavePage parse here found =>
    rw [here] at tracks
    exact inv.phase rfl id inv.settled tracks nofun
      (inv.no_backend_lock (by rw [inv.startupLock (here ▸ rfl)]; nofun)) nofun (fun _ => found)
  | lockBuffer parse here free =>
    rw [here] at tracks
    exact inv.phase rfl id inv.settled tracks nofun inv.backendLock (fun _ => free)
      (fun _ => inv.pinned (here ▸ rfl))
  | relockPage parse here free =>
    rw [here] at tracks
    exact inv.phase rfl id inv.settled tracks (fun _ => rfl)
      (inv.no_backend_lock (by rw [free]; nofun))
      (fun _ => inv.buffer (here ▸ rfl)) (fun _ => inv.pinned (here ▸ rfl))
  | readdLsn parse _ _ here isNext =>
    rw [here] at tracks
    exact inv.addLsn tracks isNext (inv.startupLock (here ▸ rfl)) (.inr (inv.buffer (here ▸ rfl)))
      (fun within => ⟨within, tracks.2.2.2.2⟩) (fun _ => inv.buffer (here ▸ rfl))
      (fun _ => inv.pinned (here ▸ rfl))
  | remarkOutdate parse here =>
    rw [here] at tracks
    exact inv.phase rfl (fun _ => rfl) inv.settled tracks (fun _ => inv.startupLock (here ▸ rfl))
      inv.backendLock (fun _ => inv.buffer (here ▸ rfl)) (fun _ => inv.pinned (here ▸ rfl))
  | unlockBuffer parse here =>
    rw [here] at tracks
    exact inv.phase rfl id inv.settled tracks (fun _ => inv.startupLock (here ▸ rfl))
      inv.backendLock nofun nofun
  | unlockStartup parse here =>
    rw [here] at tracks
    exact inv.phase rfl id inv.settled tracks.1 nofun
      (inv.no_backend_lock (by rw [inv.startupLock (here ▸ rfl)]; nofun)) nofun nofun
  | advance parse here => exact inv.advance here
  | miniTransStop parse here =>
    rw [here] at tracks
    exact inv.phase rfl id (fun _ => tracks.2) tracks nofun inv.backendLock nofun nofun
  | miniTransClear _ here => exact inv.clear here

theorem Inv.backend_phase (backend : Backend) {readIoEnd replaying outdate : Bool}
    (inside : backend.startLsn = some startLsn)
    (covers : Covers (st.index ++ st.coming) empty page startLsn)
    (startupLock : st.startup.holdsPage = true → pageLock = some .startup)
    (backendLock : backend.holdsPage = true → pageLock = some .backend)
    (occupied : st.backend ≠ .outside) (rounds : Rounds { st with
      backend := backend, pageLock := pageLock, readIoEnd := readIoEnd, replaying := replaying,
      outdate := outdate,
      page := page }) :
    Inv empty { st with
      backend := backend, pageLock := pageLock, readIoEnd := readIoEnd, replaying := replaying,
        outdate := outdate,
      page := page } := by
  -- while the backend is inside, the startup process does not have the buffer
  have buffer : st.startup.holdsBuffer = true → backend = .outside := fun holds =>
    absurd (inv.buffer holds) occupied
  refine { inv with startupLock, backendLock, buffer, rounds, covers := ?_ }
  intro _ same
  have isSame := inside.symm.trans same
  cases isSame
  exact covers

theorem Inv.not_adding (free : st.pageLock ≠ some .startup) : st.startup.isAdding = false := by
  cases here : st.startup with
  | adding => exact absurd (inv.startupLock (here ▸ rfl)) free
  | _ => rfl

theorem Inv.settled_below (settled : Settled st) :
    ∀ record ∈ st.index, record.lsn < st.lastReplayedEndRecPtr := by
  intro record mem
  exact Nat.lt_of_lt_of_le (inv.ordered.2 record (mem_append_left _ mem)) (settled record mem)

/-- Without the tag in the table every record that was added is replayed, and none is being
added. -/
theorem Inv.reference (here : st.backend = .referencing startLsn) :
    Inv empty (condReference st startLsn) := by
  have rounds := inv.rounds_at here
  have covers := inv.covers startLsn (here ▸ rfl)
  have occupied : st.backend ≠ .outside := here ▸ nofun
  unfold condReference
  split_ifs with inTable
  · exact inv.backend_phase (.locking startLsn) rfl covers inv.startupLock nofun occupied rounds
  apply inv.backend_phase (.choosing startLsn false) rfl covers inv.startupLock nofun occupied
  refine ⟨rounds, fun _ => .inr ⟨?_, ?_⟩⟩
  · apply inv.settled
    rw [Bool.eq_false_iff.mpr inTable, Bool.false_and]
  have tracks := inv.tracks
  unfold Tracks at tracks
  cases startup : st.startup with
  | adding =>
    rw [startup] at tracks
    rw [tracks.2.2.2.2.1, tracks.2.2.2.2.2] at inTable
    exact absurd rfl inTable
  | _ => rfl

/-- The end LSN lies behind everything in the logindex, unless the bit will force another round. -/
theorem Inv.choose (here : st.backend = .choosing startLsn locked) :
    Inv empty { st with backend := .applying startLsn (chooseEndLsn st locked) locked } := by
  have rounds := inv.rounds_at here
  have isLocked : locked = true → st.pageLock = some .backend := by
    intro holds
    exact inv.backendLock (here ▸ holds)
  have quiet : locked = true → st.startup.isAdding = false := by
    intro holds
    exact inv.not_adding (by rw [isLocked holds]; nofun)
  apply inv.backend_phase (.applying startLsn (chooseEndLsn st locked) locked) rfl
    (inv.covers startLsn (here ▸ rfl)) inv.startupLock isLocked (here ▸ nofun)
  unfold chooseEndLsn
  split_ifs with current
  · rw [Bool.and_eq_true] at current
    obtain ⟨before, behind⟩ := inv.added current.2
    refine ⟨rounds.1, behind, .inr ⟨?_, quiet current.1⟩⟩
    intro record mem
    exact Nat.lt_of_lt_of_le (inv.ordered.2 record (mem_append_left _ mem)) (before record mem)
  · refine ⟨rounds.1, inv.ahead, ?_⟩
    cases locked with
    | false =>
      rcases rounds.2 rfl with isOutdate | ⟨settled, notAdding⟩
      · exact .inl isOutdate
      · exact .inr ⟨inv.settled_below settled, notAdding⟩
    | true =>
      rw [Bool.true_and] at current
      have settled : Settled st :=
        inv.settled (by rw [Bool.eq_false_iff.mpr current, Bool.and_false])
      exact .inr ⟨inv.settled_below settled, quiet rfl⟩

end

theorem le_applyPageResult {startLsn endLsn : Nat} :
    endLsn ≤ applyPageResult startLsn endLsn page := by
  unfold applyPageResult
  split
  · next nothing => exact nothing
  · exact Nat.le_refl _

theorem Inv.apply (inv : Inv empty st) (zero : empty.lsn = 0) {startLsn endLsn : Nat}
    (here : st.backend = .applying startLsn endLsn locked) :
    Inv empty { st with
      page := polarLogindexApplyPage st.index startLsn endLsn st.page
      backend := .testing (applyPageResult startLsn endLsn st.page) locked } := by
  have rounds := inv.rounds_at here
  have covers := (inv.covers startLsn (here ▸ rfl)).apply inv.ordered zero rounds.2.1
  apply inv.backend_phase (.testing (applyPageResult startLsn endLsn st.page) locked) rfl covers
    inv.startupLock (fun holds => inv.backendLock (here ▸ holds)) (here ▸ nofun)
  refine ⟨rounds.1, ?_⟩
  rcases rounds.2.2 with isOutdate | below
  · exact .inl isOutdate
  · exact .inr ⟨fun record mem => Nat.lt_of_lt_of_le (below.1 record mem) le_applyPageResult,
      below.2⟩

theorem Inv.test (inv : Inv empty st)
    (here : st.backend = .testing startLsn locked) : Inv empty (loopTest st startLsn locked) := by
  have rounds := inv.rounds_at here
  have covers := inv.covers startLsn (here ▸ rfl)
  have held : locked = true → st.pageLock = some .backend := fun holds =>
    inv.backendLock (here ▸ holds)
  unfold loopTest
  split_ifs with isOutdate
  · exact inv.backend_phase (.unlocking startLsn locked true) rfl covers inv.startupLock held
      (here ▸ nofun) rounds.1
  · exact inv.backend_phase (.unlocking startLsn locked false) rfl covers inv.startupLock held
      (here ▸ nofun) ⟨rounds.1.1, rounds.1.2.1, rfl, rounds.2.resolve_left isOutdate⟩

theorem Inv.unlock (inv : Inv empty st) {locked again : Bool}
    (here : st.backend = .unlocking startLsn locked again) :
    Inv empty (unlockPage st startLsn locked again) := by
  have rounds := inv.rounds_at here
  have covers := inv.covers startLsn (here ▸ rfl)
  have startupLock : st.startup.holdsPage = true → (if locked then none else st.pageLock) =
    some .startup := by
    intro holds
    have held := inv.startupLock holds
    cases locked with
    | false => exact held
    | true =>
      have other := inv.backendLock (here ▸ rfl)
      rw [held] at other
      cases other
  cases again with
  | false =>
    exact inv.backend_phase (.returned startLsn) rfl covers startupLock nofun (here ▸ nofun) rounds
  | true =>
    exact inv.backend_phase (.referencing startLsn) rfl covers startupLock nofun (here ▸ nofun)
      rounds

theorem Startup.pins_of_holdsBuffer (holds : startup.holdsBuffer = true) : startup.pins = true := by
  cases startup <;> first | rfl | exact holds

theorem Inv.backend_step (inv : Inv empty st) (zero : empty.lsn = 0)
    (step : Step empty .backend st next) : Inv empty next := by
  have rounds := inv.rounds
  unfold Rounds at rounds
  cases step with
  | readPage startLsn _ here absent covers =>
    have free : st.startup.holdsBuffer = true → Backend.entering startLsn = .outside := by
      intro holds
      rw [inv.pinned (Startup.pins_of_holdsBuffer holds)] at absent
      cases absent
    refine ⟨inv.ordered, inv.ahead, inv.added, inv.settled, inv.tracks, inv.startupLock,
      nofun, free,
      fun _ => rfl, rfl, ?_⟩
    intro _ same
    cases same
    exact covers
  | lockOutdated startLsn here found free covers =>
    refine { inv with backendLock := nofun, buffer := ?_, rounds := found, covers := ?_ }
    · intro holds
      rw [free] at holds
      cases holds
    · intro _ same
      cases same
      exact covers
  | enter startLsn here =>
    rw [here] at rounds
    exact inv.backend_phase (.referencing startLsn) rfl (inv.covers startLsn (here ▸ rfl))
      inv.startupLock nofun (here ▸ nofun) ⟨rounds, rfl, rfl⟩
  | reference startLsn here => exact inv.reference here
  | condLock startLsn here free =>
    rw [here] at rounds
    apply inv.backend_phase (.choosing startLsn true) rfl (inv.covers startLsn (here ▸ rfl)) _
      (fun _ => rfl) (here ▸ nofun) ⟨rounds, nofun⟩
    intro holds
    rw [inv.startupLock holds] at free
    cases free
  | choose startLsn locked here => exact inv.choose here
  | apply startLsn _ locked here => exact inv.apply zero here
  | test startLsn locked here => exact inv.test here
  | unlock startLsn _ _ here => exact inv.unlock here
  | leave =>
    exact { inv with backendLock := nofun, buffer := fun _ => rfl, rounds := trivial, covers :=
      nofun }

theorem Inv.step (inv : Inv empty st) (zero : empty.lsn = 0) (step : Step empty event st next) :
    Inv empty next := by
  cases event with
  | startup => exact inv.startup_step step
  | backend => exact inv.backend_step zero step
  | evict =>
    cases step with
    | evict unpinned here =>
      refine { inv with pinned := ?_, rounds := ?_ }
      · intro pins
        rw [unpinned] at pins
        cases pins
      · rw [here]
        trivial

theorem inv_start (started : Started st) : Inv empty st := by
  refine ⟨started.ordered, started.ahead, ?_, fun _ => started.settled, ?_, ?_, ?_, ?_, ?_, ?_, ?_⟩
  · intro isAdded
    rw [started.noTrans.2.2] at isAdded
    cases isAdded
  · unfold Tracks
    rw [started.startup]
    exact started.noTrans.2.2
  · rw [started.startup]
    exact nofun
  · rw [started.backend]
    exact nofun
  · rw [started.startup]
    exact nofun
  · rw [started.startup]
    exact nofun
  · unfold Rounds
    rw [started.backend]
    trivial
  · rw [started.backend]
    exact nofun

/-- When the backend returns, the page is the result of a front part of its records in their order,
and this part has every record whose LSN is in the logindex, whatever the replayed LSN was at the
last loop test. -/
theorem returned_page_has_all_records {content : Content} {start : State Content} {startLsn : Nat}
    (started : Started start) (run : Run (Step (emptyPage content)) (fun _ _ => True) start st)
    (returned : st.backend = .returned startLsn) :
    ∃ front back, st.index ++ st.coming = front ++ back ∧
      st.page = front.foldl applyRecord (emptyPage content) ∧
      ∀ record ∈ st.index, record ∈ front := by
  have inv : Inv (emptyPage content) st :=
    run.invariant (Inv (emptyPage content)) (inv_start started) fun _ _ _ known step _ =>
    known.step rfl step
  obtain ⟨front, back, whole, isPage, above⟩ := inv.covers startLsn (returned ▸ rfl)
  have rounds := inv.rounds_at returned
  refine ⟨front, back, whole, isPage, ?_⟩
  intro record mem
  have inRecords : record ∈ front ++ back := whole ▸ mem_append_left _ mem
  rcases mem_append.mp inRecords with inFront | inBack
  · exact inFront
  · exact absurd (rounds.2.2.2.1 record mem) (Nat.not_lt_of_le (above record inBack))

/-- The record is parsed while the backend replays without the page lock; the bit sends it round
again. -/
theorem record_parsed_during_round : ∃ (record : WalRecord Nat) (st : State Nat),
    record.lsn = 10 ∧ st.backend = .returned 20 ∧ st.page.content = 7 ∧
      ∃ front back, st.index ++ st.coming = front ++ back ∧
        st.page = front.foldl applyRecord (emptyPage 0) ∧ record ∈ front := by
  let record : WalRecord Nat := { lsn := 10, endLsn := 20, redo := fun content => content + 7 }
  let parse : Parse := { lsn := 10, endLsn := 20, touches := true, getCleanupLock := false }
  let start : State Nat :=
    { index := []
      coming := [record]
      replayEndRecPtr := 10
      lastReplayedEndRecPtr := 10
      transStarted := false
      present := false
      added := false
      pageLock := none
      inPool := false
      readIoEnd := false
      replaying := false
      outdate := false
      page := emptyPage 0
      startup := .idle
      backend := .outside }
  have ready : Started start := by
    refine ⟨⟨pairwise_singleton _ _, ?_⟩, nofun, ?_, ⟨rfl, rfl, rfl⟩, rfl, rfl, rfl⟩
    · intro other mem
      rw [mem_singleton.mp mem]
      decide
    · exact fun other mem => mem_singleton.mp mem ▸ Nat.le_refl 10
  have covers : Covers ([] ++ [record]) (emptyPage 0) (emptyPage 0) 10 :=
    ⟨[], [record], rfl, rfl, fun other mem => mem_singleton.mp mem ▸ Nat.le_refl 10⟩
  have isNext : IsNext { start with
      inPool := true, readIoEnd := true, replaying := true, backend := .applying 10 10 false }
        parse :=
    ⟨Nat.le_refl 10, by decide, record, [], rfl, rfl, rfl⟩
  have begun : Run (Step (emptyPage 0)) (fun _ _ => True) start start := .refl
  have entered := ((begun.snoc (.readPage 10 (emptyPage 0) rfl rfl covers)).snoc
    (.enter 10 rfl)).snoc (.reference 10 rfl)
  have chosen := entered.snoc (.choose 10 false rfl)
  have inTable := ((chosen.snoc (.announce parse rfl isNext)).snoc
    (.miniTransStart parse rfl)).snoc (.insertTag parse rfl rfl)
  have marked := (inTable.snoc (.lockPage parse rfl rfl)).snoc (.markOutdate parse rfl rfl rfl)
  have again := ((marked.snoc (.apply 10 10 false rfl)).snoc (.test 10 false rfl)).snoc
    (.unlock 10 false true rfl)
  have waiting := again.snoc (.reference 10 rfl)
  have addedRecord := (waiting.snoc (.addLsn parse record [] rfl rfl)).snoc
    (.unlockStartup parse rfl)
  have second := (addedRecord.snoc (.condLock 10 rfl rfl)).snoc (.choose 10 true rfl)
  have returned := ((second.snoc (.apply 10 20 true rfl)).snoc (.test 20 true rfl)).snoc
    (.unlock 20 true false rfl)
  obtain ⟨front, back, whole, isPage, all⟩ := returned_page_has_all_records ready returned rfl
  exact ⟨record, _, rfl, rfl, rfl, front, back, whole, isPage, all record (mem_singleton.mpr rfl)⟩

end PolarDB.PageReplay.Outdate
