import PolarDB.Buffer.FlushOrder

/-!
# The consistent LSN of a primary

Every effect that shared storage does not have is accounted for by a buffer or
by its copy buffer: the copy keeps the oldest LSN of what it holds, the buffer
that of what came after the copy. The invariant says so page by page, and the
consistent LSN is a lower bound of all these oldest LSNs. Records that were discarded
or came without an oldest LSN are excused.
-/

namespace PolarDB.Buffer.ConsistentLsn

open List Lib.Doubly
open Buffer.Bufmgr
open Function Buffer.FlushOrder

variable {Page Buf : Type}

/-- How a buffer and its copy account for the effects on its page. -/
structure Accounts (desc : BufferDesc Page) (copies : Nat → CopyBufferDesc Buf)
    (stored modified excused : List XLogRecPtr) : Prop where
  clean : desc.oldestLsn = invalidXLogRecPtr → ∀ lsn ∈ desc.image, lsn ∉ excused → lsn ∈ stored
  alone : desc.copyBuffer = none →
    ∀ lsn ∈ desc.image, lsn ∉ excused → lsn ∉ stored → desc.oldestLsn ≤ lsn
  copied : ∀ cbuf, desc.copyBuffer = some cbuf →
    ∀ lsn ∈ (copies cbuf).image, lsn ∉ excused → lsn ∉ stored → (copies cbuf).oldestLsn ≤ lsn
  newer : ∀ cbuf, desc.copyBuffer = some cbuf →
    ∀ lsn ∈ desc.image, lsn ∉ excused → lsn ∉ (copies cbuf).image →
      desc.firstTouchedAfterCopy = true ∧ desc.oldestLsn ≤ lsn
  recorded : ∀ lsn ∈ modified, lsn ∈ desc.image ∨ lsn ∈ excused

/-- What the flags of one buffer say about its oldest LSN. -/
structure Sound (desc : BufferDesc Page) : Prop where
  unmapped : desc.tag = none → desc.oldestLsn = invalidXLogRecPtr
  undirtied : desc.dirty = false → desc.oldestLsn = invalidXLogRecPtr
  uncopied : desc.oldestLsn = invalidXLogRecPtr → desc.copyBuffer = none

/-- The copy buffers in use and the free ones. -/
structure Pool (copyOf : Buf → Option Nat) (copies : Nat → CopyBufferDesc Buf) (free : List Nat)
    (count : Nat) : Prop where
  nodup : free.Nodup
  inRange : ∀ cbuf ∈ free, cbuf < count
  paired : ∀ buf cbuf, copyOf buf = some cbuf → cbuf < count ∧ cbuf ∉ free ∧
      (copies cbuf).originBuffer = some buf ∧ (copies cbuf).oldestLsn ≠ invalidXLogRecPtr

def copyOf (st : State Page Buf) (buf : Buf) : Option Nat := (st.buffers buf).copyBuffer

/-- The records that no buffer has to account for. -/
def excused (st : State Page Buf) (page : Page) : List XLogRecPtr :=
  st.uncovered page ++ st.discarded page

structure Inv (st : State Page Buf) : Prop where
  order : InOrder st
  sound : ∀ buf, Sound (st.buffers buf)
  pool : Pool (copyOf st) st.copyBuffers st.freeCopyBuffers st.polarCopyBuffers
  mapping : ∀ buf other page, (st.buffers buf).tag = some page →
    (st.buffers other).tag = some page → buf = other
  accounts : ∀ buf page, (st.buffers buf).tag = some page →
    Accounts (st.buffers buf) st.copyBuffers (st.storage page) (st.modified page) (excused st page)
  settled : ∀ page, (∀ buf, (st.buffers buf).tag ≠ some page) →
    ∀ lsn ∈ st.modified page, lsn ∈ st.storage page ∨ lsn ∈ excused st page

variable {st next : State Page Buf} {buf : Buf} {desc : BufferDesc Page}

theorem Accounts.copies_congr {copies other : Nat → CopyBufferDesc Buf}
    {stored modified excused : List XLogRecPtr}
    (accounts : Accounts desc copies stored modified excused)
    (same : ∀ cbuf, desc.copyBuffer = some cbuf → other cbuf = copies cbuf) :
    Accounts desc other stored modified excused := by
  refine { accounts with copied := ?_, newer := ?_ }
  · intro cbuf isCopy
    rw [same cbuf isCopy]
    exact accounts.copied cbuf isCopy
  · intro cbuf isCopy
    rw [same cbuf isCopy]
    exact accounts.newer cbuf isCopy

theorem accounts_written {desc : BufferDesc Page} {modified excused : List XLogRecPtr}
    (noCopy : desc.copyBuffer = none)
    (recorded : ∀ lsn ∈ modified, lsn ∈ desc.image ∨ lsn ∈ excused) :
    Accounts desc copies desc.image modified excused := by
  constructor
  · exact fun _ lsn mem _ => mem
  · exact fun _ lsn mem _ missing => absurd mem missing
  · intro cbuf isCopy
    rw [noCopy] at isCopy
    cases isCopy
  · intro _ isCopy
    rw [noCopy] at isCopy
    cases isCopy
  · exact recorded

section

variable {insertRecPtr : XLogRecPtr}

@[simp] theorem marked_tag : (marked desc insertRecPtr).tag = desc.tag := by
  unfold marked
  split_ifs <;> rfl

@[simp] theorem marked_image : (marked desc insertRecPtr).image = desc.image := by
  unfold marked
  split_ifs <;> rfl

theorem marked_touched (present : desc.oldestLsn = invalidXLogRecPtr → desc.copyBuffer = none)
    {cbuf : Nat} (isCopy : desc.copyBuffer = some cbuf) :
    (marked desc insertRecPtr).firstTouchedAfterCopy = true := by
  unfold marked
  split_ifs with absent touch
  · rw [present absent] at isCopy
    cases isCopy
  · rfl
  · simpa [isCopy] using touch

theorem sound_marked (mapped : desc.tag ≠ none)
    (positive : invalidXLogRecPtr < insertRecPtr) : Sound (marked desc insertRecPtr) := by
  constructor
  · intro unmapped
    rw [marked_tag] at unmapped
    exact absurd unmapped mapped
  · intro clean
    have dirty : (marked desc insertRecPtr).dirty = true := by
      unfold marked
      split_ifs <;> rfl
    rw [dirty] at clean
    cases clean
  · intro absent
    exact absurd absent (marked_oldest_ne positive)

/-- The first touch after a copy moves the oldest LSN past everything the copy holds. -/
theorem accounts_marked {copies : Nat → CopyBufferDesc Buf}
    {stored modified excused : List XLogRecPtr} (sound : Sound desc)
    (positive : invalidXLogRecPtr < insertRecPtr)
    (accounts : Accounts desc copies stored modified excused) :
    Accounts (marked desc insertRecPtr) copies stored modified excused := by
  constructor
  · intro absent
    exact absurd absent (marked_oldest_ne positive)
  · intro noCopy lsn mem covered missing
    rw [marked_image] at mem
    rw [marked_copyBuffer] at noCopy
    unfold marked
    split_ifs with absent touch
    · exact absurd (accounts.clean absent lsn mem covered) missing
    · rw [noCopy] at touch
      cases touch
    · exact accounts.alone noCopy lsn mem covered missing
  · intro cbuf isCopy
    rw [marked_copyBuffer] at isCopy
    exact accounts.copied cbuf isCopy
  · intro cbuf isCopy lsn mem covered later
    rw [marked_image] at mem
    rw [marked_copyBuffer] at isCopy
    have newer := accounts.newer cbuf isCopy lsn mem covered later
    constructor
    · exact marked_touched sound.uncopied isCopy
    unfold marked
    split_ifs with absent touch
    · rw [sound.uncopied absent] at isCopy
      cases isCopy
    · rw [newer.1] at touch
      simp at touch
    · exact newer.2
  · rw [marked_image]
    exact accounts.recorded

end

structure Ready (desc : BufferDesc Page) : Prop where
  mapped : desc.tag ≠ none
  listed : desc.oldestLsn ≠ invalidXLogRecPtr
  touched : ∀ cbuf, desc.copyBuffer = some cbuf → desc.firstTouchedAfterCopy = true

theorem Accounts.record {copies : Nat → CopyBufferDesc Buf} {startPos : XLogRecPtr}
    {stored modified excused : List XLogRecPtr}
    (accounts : Accounts desc copies stored modified excused) (ready : Ready desc)
    (bound : desc.oldestLsn ≤ startPos) :
    Accounts { desc with image := startPos :: desc.image } copies stored (startPos :: modified)
    excused := by
  constructor
  · exact fun absent => absurd absent ready.listed
  · intro noCopy
    exact forall_mem_cons.mpr ⟨fun _ _ => bound, accounts.alone noCopy⟩
  · exact accounts.copied
  · intro cbuf isCopy
    exact forall_mem_cons.mpr ⟨fun _ _ => ⟨ready.touched cbuf isCopy, bound⟩,
      accounts.newer cbuf isCopy⟩
  · intro lsn mem
    rcases mem_cons.mp mem with same | older
    · exact .inl (by simp [same])
    · rcases accounts.recorded lsn older with held | gone
      · exact .inl (by simp [held])
      · exact .inr gone

/-- Nothing has to account for a record that comes without an oldest LSN. -/
theorem Accounts.excuse {copies : Nat → CopyBufferDesc Buf} {startPos : XLogRecPtr}
    {stored modified excused : List XLogRecPtr}
    (accounts : Accounts desc copies stored modified excused) :
    Accounts { desc with image := startPos :: desc.image } copies stored (startPos :: modified)
      (startPos :: excused) := by
  have older : ∀ lsn, lsn ∉ startPos :: excused → lsn ∉ excused :=
    fun lsn covered listed => covered (mem_cons_of_mem _ listed)
  have mine : ∀ lsn ∈ startPos :: desc.image, lsn ∉ startPos :: excused → lsn ∈ desc.image := by
    intro lsn mem covered
    exact (mem_cons.mp mem).resolve_left fun same => covered (by simp [same])
  constructor
  · exact fun absent lsn mem covered => accounts.clean absent lsn (mine lsn mem covered)
      (older lsn covered)
  · exact fun noCopy lsn mem covered => accounts.alone noCopy lsn (mine lsn mem covered)
      (older lsn covered)
  · exact fun cbuf isCopy lsn mem covered => accounts.copied cbuf isCopy lsn mem (older lsn covered)
  · exact fun cbuf isCopy lsn mem covered =>
      accounts.newer cbuf isCopy lsn (mine lsn mem covered) (older lsn covered)
  · exact forall_mem_cons.mpr ⟨.inr mem_cons_self, fun lsn mem =>
      (accounts.recorded lsn mem).imp (mem_cons_of_mem _) (mem_cons_of_mem _)⟩

theorem Inv.advance {later : XLogRecPtr} (inv : Inv st) (forward : st.insertRecPtr ≤ later) :
    Inv { st with insertRecPtr := later } :=
  { inv with order := inv.order.advance forward }

theorem inv_start {insertRecPtr : XLogRecPtr} {copyCount : Nat} {storage : Page → List XLogRecPtr}
    (positive : invalidXLogRecPtr < insertRecPtr) :
    Inv (startState insertRecPtr copyCount storage : State Page Buf) := by
  constructor
  · exact ordered_start positive
  · exact fun _ => ⟨fun _ => rfl, fun _ => rfl, fun _ => rfl⟩
  · exact ⟨nodup_range, fun cbuf mem => mem_range.mp mem, fun _ _ isCopy => nomatch isCopy⟩
  · exact fun _ _ _ tag => nomatch tag
  · exact fun _ _ tag => nomatch tag
  · exact fun _ _ _ mem => nomatch mem

variable [DecidableEq Buf]

/-- A step that touches one buffer, its copy buffer and its page. -/
structure Touches (st next : State Page Buf) (buf : Buf) (desc : BufferDesc Page) : Prop where
  buffers : next.buffers = update st.buffers buf desc
  order : Ordered next.flushCtl (update (oldestOf st) buf desc.oldestLsn) next.insertRecPtr
  sound : Sound desc
  pool : Pool (update (copyOf st) buf desc.copyBuffer) next.copyBuffers next.freeCopyBuffers
    next.polarCopyBuffers
  otherCopies : ∀ other cbuf, other ≠ buf → copyOf st other = some cbuf →
    next.copyBuffers cbuf = st.copyBuffers cbuf
  otherPages : ∀ page, (st.buffers buf).tag ≠ some page → desc.tag ≠ some page →
    next.storage page = st.storage page ∧ next.modified page = st.modified page ∧
      excused next page = excused st page
  tag : ∀ page, desc.tag = some page → (st.buffers buf).tag = some page ∨
    ∀ other, (st.buffers other).tag ≠ some page
  accounts : ∀ page, desc.tag = some page →
    Accounts desc next.copyBuffers (next.storage page) (next.modified page) (excused next page)
  settled : ∀ page, (st.buffers buf).tag = some page → desc.tag ≠ some page →
    ∀ lsn ∈ next.modified page, lsn ∈ next.storage page ∨ lsn ∈ excused next page

theorem Inv.touch (inv : Inv st) (buf : Buf) (desc : BufferDesc Page)
    (touches : Touches st next buf desc) : Inv next := by
  have self : next.buffers buf = desc := by rw [touches.buffers, update_self]
  have away : ∀ other, other ≠ buf → next.buffers other = st.buffers other := by
    intro other apart
    rw [touches.buffers, update_of_ne apart]
  have tagKept : ∀ other page, other ≠ buf → (st.buffers other).tag = some page →
    desc.tag ≠ some page := by
    intro other page apart otherTag tag
    rcases touches.tag page tag with mine | nobody
    · exact apart (inv.mapping other buf page otherTag mine)
    · exact nobody other otherTag
  constructor
  · unfold InOrder
    rw [oldest_of_update touches.buffers]
    exact touches.order
  · intro other
    by_cases same : other = buf
    · rw [same, self]
      exact touches.sound
    · rw [away other same]
      exact inv.sound other
  · have copies : copyOf next = update (copyOf st) buf desc.copyBuffer := by
      funext other
      unfold copyOf
      by_cases same : other = buf
      · rw [same, self, update_self]
      · rw [away other same, update_of_ne same]
    rw [copies]
    exact touches.pool
  · intro one other page oneTag otherTag
    by_cases oneSame : one = buf <;> by_cases otherSame : other = buf
    · rw [oneSame, otherSame]
    · rw [oneSame, self] at oneTag
      rw [away other otherSame] at otherTag
      exact absurd oneTag (tagKept other page otherSame otherTag)
    · rw [otherSame, self] at otherTag
      rw [away one oneSame] at oneTag
      exact absurd otherTag (tagKept one page oneSame oneTag)
    · rw [away one oneSame] at oneTag
      rw [away other otherSame] at otherTag
      exact inv.mapping one other page oneTag otherTag
  · intro other page tag
    by_cases same : other = buf
    · rw [same, self] at tag ⊢
      exact touches.accounts page tag
    rw [away other same] at tag ⊢
    have notMine : (st.buffers buf).tag ≠ some page := fun mine =>
      same (inv.mapping other buf page tag mine)
    have kept := touches.otherPages page notMine (tagKept other page same tag)
    rw [kept.1, kept.2.1, kept.2.2]
    exact (inv.accounts other page tag).copies_congr
      (fun cbuf isCopy => touches.otherCopies other cbuf same isCopy)
  · intro page unmapped
    have notNew : desc.tag ≠ some page := self ▸ unmapped buf
    by_cases mine : (st.buffers buf).tag = some page
    · exact touches.settled page mine notNew
    have kept := touches.otherPages page mine notNew
    rw [kept.1, kept.2.1, kept.2.2]
    apply inv.settled page
    intro other otherTag
    by_cases same : other = buf
    · exact mine (same ▸ otherTag)
    · apply unmapped other
      rw [away other same]
      exact otherTag

theorem oldest_unmoved (st : State Page Buf) (buf : Buf) :
    update (oldestOf st) buf (st.buffers buf).oldestLsn = oldestOf st :=
  update_eq_self _ _

theorem copy_unmoved (st : State Page Buf) (buf : Buf) :
    update (copyOf st) buf (st.buffers buf).copyBuffer = copyOf st :=
  update_eq_self _ _

theorem Inv.touches_refl (inv : Inv st) (buf : Buf) : Touches st st buf (st.buffers buf) where
  buffers := (update_eq_self _ _).symm
  order := by
    rw [oldest_unmoved]
    exact inv.order
  sound := inv.sound buf
  pool := by
    rw [copy_unmoved]
    exact inv.pool
  otherCopies _ _ _ _ := rfl
  otherPages _ _ _ := ⟨rfl, rfl, rfl⟩
  tag _ := .inl
  accounts := inv.accounts buf
  settled _ tag notTag := absurd tag notTag

theorem Inv.rewrite {chain : Chain Buf} (inv : Inv st)
    (order : Ordered chain (update (oldestOf st) buf desc.oldestLsn) st.insertRecPtr)
    (tag : desc.tag = (st.buffers buf).tag)
    (copyBuffer : desc.copyBuffer = (st.buffers buf).copyBuffer) (sound : Sound desc)
    (accounts : ∀ page, desc.tag = some page → Accounts desc st.copyBuffers (st.storage page)
      (st.modified page) (excused st page)) :
    Inv { st with buffers := update st.buffers buf desc, flushCtl := chain } := by
  have touches : Touches st { st with buffers := update st.buffers buf desc, flushCtl := chain }
    buf desc :=
    { inv.touches_refl buf with
      buffers := rfl
      order
      sound
      pool := copyBuffer ▸ (inv.touches_refl buf).pool
      otherPages := fun _ _ _ => ⟨rfl, rfl, rfl⟩
      tag := fun page isTag => .inl (tag ▸ isTag)
      accounts
      settled := fun page isTag notTag => absurd (tag.trans isTag) notTag }
  exact inv.touch buf desc touches

theorem Inv.set_lock (inv : Inv st) (buf : Buf) (locked : Bool) :
    Inv (st.setBuffer buf { st.buffers buf with contentLocked := locked }) := by
  have sound := inv.sound buf
  apply inv.rewrite
  · rw [oldest_unmoved]
    exact inv.order
  · rfl
  · rfl
  · exact { sound with }
  · intro page tag
    have accounts := inv.accounts buf page tag
    exact { accounts with }

theorem Inv.set_dirty (inv : Inv st) (mapped : (st.buffers buf).tag ≠ none) :
    Inv (st.setBuffer buf { st.buffers buf with dirty := true }) := by
  apply inv.rewrite
  · rw [oldest_unmoved]
    exact inv.order
  · rfl
  · rfl
  · exact ⟨fun unmapped => absurd unmapped mapped, fun clean => absurd clean (by simp),
      (inv.sound buf).uncopied⟩
  · intro page tag
    have accounts := inv.accounts buf page tag
    exact { accounts with }

/-- No copy buffer is taken, freed or changed. -/
structure Prepares (st next : State Page Buf) : Prop where
  inv : Inv next
  insertRecPtr : next.insertRecPtr = st.insertRecPtr
  tag : ∀ buf, (next.buffers buf).tag = (st.buffers buf).tag
  free : next.freeCopyBuffers = st.freeCopyBuffers
  kept : ∀ buf, (next.buffers buf).copyBuffer = (st.buffers buf).copyBuffer
  ready : ∀ buf, Ready (st.buffers buf) → Ready (next.buffers buf)

omit [DecidableEq Buf] in
theorem Prepares.trans {last : State Page Buf} (first : Prepares st next)
    (second : Prepares next last) : Prepares st last :=
  { inv := second.inv
    insertRecPtr := second.insertRecPtr.trans first.insertRecPtr
    tag := fun buf => (second.tag buf).trans (first.tag buf)
    free := second.free.trans first.free
    kept := fun buf => (second.kept buf).trans (first.kept buf)
    ready := fun buf ready => second.ready buf (first.ready buf ready) }

theorem Inv.mark (inv : Inv st) (mapped : (st.buffers buf).tag ≠ none)
    (done : markBufferDirty st buf = .ok next) : Prepares st next ∧ Ready (next.buffers buf) := by
  have sound := inv.sound buf
  have positive := inv.order.positive
  obtain ⟨chain, result, order⟩ := mark_buffer_dirty_spec inv.order buf
  rw [result] at done
  cases done
  have readyMarked : Ready (marked (st.buffers buf) st.insertRecPtr) :=
    { mapped := by rw [marked_tag]; exact mapped
      listed := marked_oldest_ne positive
      touched := fun cbuf isCopy => marked_touched sound.uncopied (marked_copyBuffer ▸ isCopy) }
  have kept : Inv _ := inv.rewrite order marked_tag marked_copyBuffer (sound_marked mapped positive)
    (fun page tag => accounts_marked sound positive (inv.accounts buf page (marked_tag ▸ tag)))
  constructor
  · constructor
    · exact kept
    · rfl
    · intro other
      by_cases same : other = buf
      · simp [same]
      · simp [update_of_ne same]
    · rfl
    · intro other
      by_cases same : other = buf
      · simp [same]
      · simp [update_of_ne same]
    · intro other ready
      by_cases same : other = buf
      · simpa [same] using readyMarked
      · simpa [update_of_ne same] using ready
  · simpa using readyMarked

omit [DecidableEq Buf] in
theorem Inv.prepares_refl (inv : Inv st) : Prepares st st :=
  ⟨inv, rfl, fun _ => rfl, rfl, fun _ => rfl, fun _ ready => ready⟩

variable {reg : RegBuffer Buf}

theorem Inv.set_reg (inv : Inv st) (mapped : (st.buffers reg.buffer).tag ≠ none)
    (done : polarSetRegBufferOldestLsn st reg = .ok next) :
    Prepares st next ∧ (reg.exclusive → Ready (next.buffers reg.buffer)) := by
  unfold polarSetRegBufferOldestLsn at done
  split_ifs at done with shared needed
  · cases done
    exact ⟨inv.prepares_refl, fun exclusive => absurd exclusive (by simpa using shared)⟩
  · have marked := inv.mark mapped done
    exact ⟨marked.1, fun _ => marked.2⟩
  cases done
  rw [not_or] at needed
  refine ⟨inv.prepares_refl, fun _ => ⟨mapped, needed.1, ?_⟩⟩
  intro _ isCopy
  simpa [polarBufferFirstTouchAfterCopy, isCopy] using needed.2

variable {startPos : XLogRecPtr} {regs : List (RegBuffer Buf)}

theorem Inv.assemble (inv : Inv st) (mapped : ∀ reg ∈ regs, (st.buffers reg.buffer).tag ≠ none)
    (done : regs.foldlM polarSetRegBufferOldestLsn st = .ok next) :
    Prepares st next ∧ ∀ reg ∈ regs, reg.exclusive → Ready (next.buffers reg.buffer) := by
  induction regs generalizing st with
  | nil =>
    cases done
    exact ⟨inv.prepares_refl, by simp⟩
  | cons reg _ ih =>
    rw [foldlM_cons] at done
    cases first : polarSetRegBufferOldestLsn st reg with
    | error =>
      rw [first] at done
      cases done
    | ok =>
      rw [first] at done
      have one := inv.set_reg (mapped reg (by simp)) first
      have many := ih one.1.inv
        (fun other mem => by rw [one.1.tag other.buffer]; exact mapped other (by simp [mem])) done
      exact ⟨one.1.trans many.1, forall_mem_cons.mpr ⟨fun held => many.1.ready _ (one.2 held),
        many.2⟩⟩

section
variable [DecidableEq Page]

theorem Inv.apply_record (inv : Inv st) (ready : reg.exclusive → Ready (st.buffers reg.buffer))
    (bound : (st.buffers reg.buffer).oldestLsn ≤ startPos) : Inv (applyRecord startPos st reg) := by
  unfold applyRecord
  cases isTag : (st.buffers reg.buffer).tag with
  | none => exact inv
  | some page =>
    have sound := inv.sound reg.buffer
    refine inv.touch reg.buffer _
      { inv.touches_refl reg.buffer with
        buffers := rfl, sound := { sound with }, otherPages := ?_, accounts := ?_, settled := ?_ }
    · intro other notMine _
      have apart : other ≠ page := fun same => notMine (same ▸ isTag)
      refine ⟨rfl, update_of_ne apart _ _, ?_⟩
      unfold excused
      split_ifs
      · rfl
      · dsimp only
        rw [update_of_ne apart]
    · intro other tag
      have same : page = other := Option.some.inj (isTag.symm.trans tag)
      subst same
      have accounts := inv.accounts reg.buffer page isTag
      unfold excused
      simp only [update_self]
      split_ifs with held
      · exact accounts.record (ready held) bound
      · rw [update_self]
        exact accounts.excuse
    · exact fun other tag notTag => absurd tag notTag

theorem apply_record_frame (other : Buf) :
    ((applyRecord startPos st reg).buffers other).oldestLsn = (st.buffers other).oldestLsn ∧
      (Ready (st.buffers other) → Ready ((applyRecord startPos st reg).buffers other)) := by
  unfold applyRecord
  cases isTag : (st.buffers reg.buffer).tag with
  | none => exact ⟨rfl, id⟩
  | some =>
    by_cases same : other = reg.buffer
    · subst same
      simp only [update_self]
      exact ⟨trivial, fun ready => { ready with }⟩
    · simp only [update_of_ne same]
      exact ⟨trivial, id⟩

theorem Inv.apply_records (inv : Inv st)
    (ready : ∀ reg ∈ regs, reg.exclusive → Ready (st.buffers reg.buffer))
    (bound : ∀ buf, (st.buffers buf).oldestLsn ≤ startPos) :
    Inv (regs.foldl (applyRecord startPos) st) := by
  induction regs generalizing st with
  | nil => exact inv
  | cons reg _ ih =>
    apply ih (inv.apply_record (ready reg (by simp)) (bound reg.buffer))
    · intro other mem held
      exact (apply_record_frame other.buffer).2 (ready other (by simp [mem]) held)
    · intro other
      rw [(apply_record_frame other).1]
      exact bound other

theorem xlog_insert_ok {size : Nat} (done : xlogInsert st regs size = .ok next) :
    ∃ assembled, regs.foldlM polarSetRegBufferOldestLsn st = .ok assembled ∧
      next = regs.foldl (applyRecord assembled.insertRecPtr)
        { assembled with insertRecPtr := assembled.insertRecPtr + size } := by
  unfold xlogInsert at done
  cases assembly : regs.foldlM polarSetRegBufferOldestLsn st with
  | error =>
    rw [assembly] at done
    cases done
  | ok assembled =>
    rw [assembly] at done
    cases done
    exact ⟨assembled, rfl, rfl⟩

theorem Inv.insert {size : Nat} (inv : Inv st)
    (mapped : ∀ reg ∈ regs, (st.buffers reg.buffer).tag ≠ none)
    (done : xlogInsert st regs size = .ok next) : Inv next := by
  obtain ⟨_, assembly, rfl⟩ := xlog_insert_ok done
  have prepared := inv.assemble mapped assembly
  exact (prepared.1.inv.advance (Nat.le_add_right _ size)).apply_records prepared.2
    prepared.1.inv.order.bound

theorem Inv.mark_hint (inv : Inv st) (mapped : (st.buffers buf).tag ≠ none) (logged : Option Nat) :
    Inv (markBufferDirtyHint st buf logged) := by
  unfold markBufferDirtyHint
  split_ifs
  · exact inv
  cases logged with
  | none => exact inv.set_dirty mapped
  | some size =>
    have saved : Inv (xlogSaveBufferForHint st buf size) :=
      (inv.advance (Nat.le_add_right _ size)).apply_record (fun held => absurd held (by simp))
      (inv.order.bound buf)
    apply saved.set_dirty
    unfold xlogSaveBufferForHint applyRecord
    cases isTag : (st.buffers buf).tag with
    | none => exact absurd isTag mapped
    | some => simp [isTag]

end

variable {copies : Nat → CopyBufferDesc Buf} {free : List Nat} {count : Nat} {copied : Buf →
  Option Nat}
variable {cbuf : Nat}

omit [DecidableEq Buf] in
theorem Pool.apart {other : Buf} (pool : Pool copied copies free count) (apart : other ≠ buf)
    (mine : copied buf = some cbuf) : copied other ≠ some cbuf := by
  intro shared
  have mineOrigin := (pool.paired buf cbuf mine).2.2.1
  have otherOrigin := (pool.paired other cbuf shared).2.2.1
  rw [mineOrigin] at otherOrigin
  exact apart (Option.some.inj otherOrigin).symm

theorem Pool.alloc {rest : List Nat} {oldestLsn : XLogRecPtr} {image : List XLogRecPtr}
    (pool : Pool copied copies (cbuf :: rest) count) (valid : oldestLsn ≠ invalidXLogRecPtr) :
    Pool (update copied buf (some cbuf))
      (update copies cbuf { oldestLsn := oldestLsn, originBuffer := some buf, image := image })
      rest count := by
  have fresh := nodup_cons.mp pool.nodup
  constructor
  · exact fresh.2
  · exact fun other mem => pool.inRange other (by simp [mem])
  · intro other used isCopy
    rw [update_apply] at isCopy
    split_ifs at isCopy with same
    · cases isCopy
      rw [update_self, same]
      exact ⟨pool.inRange cbuf (by simp), fresh.1, rfl, valid⟩
    · have paired := pool.paired other used isCopy
      have away : used ≠ cbuf := fun reused => paired.2.1 (by simp [reused])
      rw [update_of_ne away]
      exact ⟨paired.1, fun mem => paired.2.1 (by simp [mem]), paired.2.2⟩

theorem Pool.release {desc : CopyBufferDesc Buf} (pool : Pool copied copies free count)
    (mine : copied buf = some cbuf) :
    Pool (update copied buf none) (update copies cbuf desc) (cbuf :: free) count := by
  have paired := pool.paired buf cbuf mine
  constructor
  · exact nodup_cons.mpr ⟨paired.2.1, pool.nodup⟩
  · exact forall_mem_cons.mpr ⟨paired.1, pool.inRange⟩
  · intro other used isCopy
    by_cases same : other = buf
    · rw [same, update_self] at isCopy
      cases isCopy
    · rw [update_of_ne same] at isCopy
      have otherPaired := pool.paired other used isCopy
      have away : used ≠ cbuf := fun reused => pool.apart same mine (reused ▸ isCopy)
      rw [update_of_ne away]
      exact ⟨otherPaired.1, by simp [away, otherPaired.2.1], otherPaired.2.2⟩

theorem Inv.copy (inv : Inv st) (buf : Buf) : Inv (copyBufferAlloc st buf) := by
  unfold copyBufferAlloc
  split_ifs with already absent
  · exact inv
  · exact inv
  cases isFree : st.freeCopyBuffers with
  | nil => exact inv
  | cons cbuf =>
    have sound := inv.sound buf
    have noCopy : (st.buffers buf).copyBuffer = none := by simpa using already
    have pool := inv.pool
    rw [isFree] at pool
    refine inv.touch buf _
      { inv.touches_refl buf with
        buffers := rfl, sound := ?_, pool := pool.alloc absent, otherCopies := ?_, accounts := ?_ }
    · exact { sound with uncopied := fun invalid => absurd invalid absent }
    · intro other used _ isCopy
      have inUse := (pool.paired other used isCopy).2.1
      exact update_of_ne (fun reused => inUse (by simp [reused])) _ _
    · intro page tag
      have accounts := inv.accounts buf page tag
      refine { accounts with alone := ?_, copied := ?_, newer := ?_ }
      · exact fun none => absurd none (by simp)
      · intro used isCopy lsn mem covered missing
        cases isCopy
        simp only [update_self] at mem ⊢
        exact accounts.alone noCopy lsn mem covered missing
      · intro _ isCopy _ mem _ later
        cases isCopy
        simp only [update_self] at later
        exact absurd mem later

theorem free_copy_spec (pool : Pool (copyOf st) st.copyBuffers st.freeCopyBuffers count)
    (buf : Buf) : ∃ copies free touched, polarFreeCopyBuffer st buf = { st with
          buffers := update st.buffers buf
            { st.buffers buf with copyBuffer := none, firstTouchedAfterCopy := touched }
          copyBuffers := copies
          freeCopyBuffers := free } ∧
      Pool (update (copyOf st) buf none) copies free count ∧
      ∀ other cbuf, other ≠ buf → copyOf st other = some cbuf →
      copies cbuf = st.copyBuffers cbuf := by
  unfold polarFreeCopyBuffer
  cases isCopy : (st.buffers buf).copyBuffer with
  | none =>
    refine ⟨st.copyBuffers, st.freeCopyBuffers, (st.buffers buf).firstTouchedAfterCopy, ?_, ?_,
      fun _ _ _ _ => rfl⟩
    · have whole : { st.buffers buf with copyBuffer := none } = st.buffers buf := by rw [← isCopy]
      rw [whole, update_eq_self]
    · rw [← isCopy, copy_unmoved]
      exact pool
  | some cbuf =>
    refine ⟨_, _, false, rfl, pool.release isCopy, ?_⟩
    intro _ used apart otherCopy
    have away : used ≠ cbuf := fun reused => pool.apart apart isCopy (reused ▸ otherCopy)
    exact update_of_ne away _ _

theorem release_spec (order : InOrder st)
    (pool : Pool (copyOf st) st.copyBuffers st.freeCopyBuffers count) (buf : Buf) :
    ∃ chain copies free fake touched, polarResetBufferOldestLsn (polarFreeCopyBuffer st buf) buf =
    { st with
          buffers := update st.buffers buf
            { st.buffers buf with
              copyBuffer := none, oldestLsn := invalidXLogRecPtr, oldestLsnIsFake := fake
              firstTouchedAfterCopy := touched }
          flushCtl := chain
          copyBuffers := copies
          freeCopyBuffers := free } ∧
      Ordered chain (update (oldestOf st) buf invalidXLogRecPtr) st.insertRecPtr ∧
      Pool (update (copyOf st) buf none) copies free count ∧
      ∀ other cbuf, other ≠ buf → copyOf st other = some cbuf →
      copies cbuf = st.copyBuffers cbuf := by
  obtain ⟨copies, free, _, freed, freedPool, others⟩ := free_copy_spec pool buf
  have unmoved : oldestOf (polarFreeCopyBuffer st buf) = oldestOf st := by
    rw [oldest_of_update (congrArg State.buffers freed)]
    exact oldest_unmoved st buf
  have freedOrder : InOrder (polarFreeCopyBuffer st buf) := by
    unfold InOrder
    rw [unmoved, freed]
    exact order
  obtain ⟨chain, fake, again, reset, resetOrder⟩ := reset_buffer_oldest_lsn_spec freedOrder buf
  rw [unmoved] at resetOrder
  refine ⟨chain, copies, free, fake, again, ?_, ?_, freedPool, others⟩
  · rw [reset, freed]
    simp
  · rw [freed] at resetOrder
    exact resetOrder

section
variable (inv : Inv st)
include inv

theorem Inv.read {page : Page} (empty : (st.buffers buf).tag = none)
    (unmapped : ∀ other, (st.buffers other).tag ≠ some page) : Inv (readBuffer st buf page) := by
  have sound := inv.sound buf
  have noCopy : (st.buffers buf).copyBuffer = none := sound.uncopied (sound.unmapped empty)
  refine inv.touch buf _
    { inv.touches_refl buf with
      buffers := rfl, sound := { sound with unmapped := nofun }, otherPages := fun _ _ _ =>
        ⟨rfl, rfl, rfl⟩
      tag := ?_, accounts := ?_, settled := ?_ }
  · intro other tag
    cases tag
    exact .inr unmapped
  · intro other tag
    cases tag
    exact accounts_written noCopy (inv.settled page unmapped)
  · intro _ tag
    rw [empty] at tag
    cases tag

theorem Inv.evict (clean : (st.buffers buf).dirty = false) : Inv (evictBuffer st buf) := by
  have sound := inv.sound buf
  have absent := sound.undirtied clean
  refine inv.touch buf _
    { inv.touches_refl buf with
      buffers := rfl, sound := { sound with unmapped := fun _ => absent }, tag :=
        nofun, accounts := nofun
      otherPages := fun _ _ _ => ⟨rfl, rfl, rfl⟩, settled := ?_ }
  · intro page tag _ lsn mem
    by_cases covered : lsn ∈ excused st page
    · exact .inr covered
    · have held := ((inv.accounts buf page tag).recorded lsn mem).resolve_right covered
      exact .inl ((inv.accounts buf page tag).clean absent lsn held covered)

variable [DecidableEq Page]

theorem Inv.flush (buf : Buf) : Inv (flushBuffer st buf) := by
  unfold flushBuffer
  split_ifs with clean
  · exact inv
  let written := smgrwrite st (st.buffers buf).tag (st.buffers buf).image
  obtain ⟨_, _, _, fake, touched, result, order, pool, others⟩ :=
    @release_spec Page Buf written _ st.polarCopyBuffers inv.order inv.pool buf
  change Inv (.setBuffer (polarResetBufferOldestLsn (polarFreeCopyBuffer written buf) buf) buf _)
  rw [result]
  refine inv.touch buf { st.buffers buf with
      dirty := false, copyBuffer := none, oldestLsn := invalidXLogRecPtr, oldestLsnIsFake := fake
      firstTouchedAfterCopy := touched }
    { inv.touches_refl buf with
      buffers := ?_, order, sound := ?_, pool, otherCopies := others, otherPages :=
        ?_, accounts := ?_
      settled := fun _ tag notTag => absurd tag notTag }
  · simp [State.setBuffer, written, smgrwrite]
  · exact ⟨fun _ => rfl, fun _ => rfl, fun _ => rfl⟩
  · intro page notMine _
    exact ⟨if_neg notMine, rfl, rfl⟩
  · intro page tag
    change Accounts _ _ (if _ then _ else _) _ _
    rw [if_pos tag]
    exact accounts_written rfl (inv.accounts buf page tag).recorded

theorem Inv.flush_copy (buf : Buf) : Inv (polarFlushCopyBuffer st buf) := by
  unfold polarFlushCopyBuffer
  cases isCopy : (st.buffers buf).copyBuffer with
  | none => exact inv
  | some cbuf =>
    let written := smgrwrite st (st.buffers buf).tag (st.copyBuffers cbuf).image
    obtain ⟨_, _, touched, result, pool, others⟩ :=
      @free_copy_spec Page Buf written _ st.polarCopyBuffers inv.pool buf
    have sound := inv.sound buf
    change Inv (polarFreeCopyBuffer written buf)
    rw [result]
    refine inv.touch buf
      { st.buffers buf with copyBuffer := none, firstTouchedAfterCopy := touched }
      { inv.touches_refl buf with
        buffers := rfl, sound := { sound with uncopied := fun _ => rfl }, pool,
          otherCopies := others
        otherPages := ?_, accounts := ?_, settled := fun _ tag notTag => absurd tag notTag }
    · intro page notMine _
      exact ⟨if_neg notMine, rfl, rfl⟩
    · intro page tag
      have accounts := inv.accounts buf page tag
      change Accounts _ _ (if _ then _ else _) _ _
      rw [if_pos tag]
      constructor
      · intro absent
        rw [sound.uncopied absent] at isCopy
        cases isCopy
      · exact fun _ lsn mem covered missing =>
          (accounts.newer cbuf isCopy lsn mem covered missing).2
      · exact fun _ isNone => absurd isNone (by simp)
      · exact fun _ isNone => absurd isNone (by simp)
      · exact accounts.recorded

theorem Inv.invalidate (buf : Buf) : Inv (invalidateBuffer st buf) := by
  let dropped := dropImage st buf
  let cleared := dropped.setBuffer buf { dropped.buffers buf with
      tag := none, image := [], dirty := false }
  have oldest : oldestOf cleared = oldestOf st := oldest_of_set_buffer.trans (oldest_unmoved st buf)
  have copiesKept : copyOf cleared = copyOf st := by
    funext other
    by_cases same : other = buf
    · simp [copyOf, cleared, dropped, dropImage, State.setBuffer, same]
    · simp [copyOf, cleared, dropped, dropImage, State.setBuffer, update_of_ne same]
  have clearedOrder : InOrder cleared := by
    unfold InOrder
    rw [oldest]
    exact inv.order
  have clearedPool : Pool (copyOf cleared) cleared.copyBuffers cleared.freeCopyBuffers
      st.polarCopyBuffers := by
    rw [copiesKept]
    exact inv.pool
  obtain ⟨_, _, _, fake, touched, result, order, pool, others⟩ :=
    release_spec clearedOrder clearedPool buf
  rw [oldest] at order
  rw [copiesKept] at pool others
  change Inv (polarResetBufferOldestLsn (polarFreeCopyBuffer cleared buf) buf)
  rw [result]
  refine inv.touch buf { st.buffers buf with
      tag := none, image := [], dirty := false, copyBuffer := none, oldestLsn := invalidXLogRecPtr
      oldestLsnIsFake := fake, firstTouchedAfterCopy := touched } ?_
  constructor
  · simp [cleared, dropped, dropImage, State.setBuffer]
  · exact order
  · exact ⟨fun _ => rfl, fun _ => rfl, fun _ => rfl⟩
  · exact pool
  · exact others
  · intro page notMine _
    exact ⟨rfl, rfl, congrArg (st.uncovered page ++ ·) (if_neg notMine)⟩
  · exact fun _ tag => absurd tag (by simp)
  · exact fun _ tag => absurd tag (by simp)
  · intro page tag _ lsn mem
    change lsn ∈ st.storage page ∨ lsn ∈ st.uncovered page ++ (if _ then _ else _)
    rw [if_pos tag]
    by_cases stored : lsn ∈ st.storage page
    · exact .inl stored
    · right
      rcases (inv.accounts buf page tag).recorded lsn mem with held | gone
      · simp [held, stored]
      · rcases mem_append.mp gone with uncovered | discarded
        · simp [uncovered]
        · simp [discarded]

end

theorem fold_oldest_le (oldest : Nat → XLogRecPtr) (entries : List Nat) (res : XLogRecPtr) :
    let least := entries.foldl (fun res cbuf =>
      if oldest cbuf = invalidXLogRecPtr then res
      else if res = invalidXLogRecPtr ∨ oldest cbuf < res then oldest cbuf else res) res
    (res ≠ invalidXLogRecPtr → least ≠ invalidXLogRecPtr ∧ least ≤ res) ∧
      ∀ cbuf ∈ entries, oldest cbuf ≠ invalidXLogRecPtr → least ≠ invalidXLogRecPtr ∧
      least ≤ oldest cbuf := by
  induction entries generalizing res with
  | nil => exact ⟨fun valid => ⟨valid, Nat.le_refl _⟩, by simp⟩
  | cons first _ ih =>
    rw [foldl_cons]
    split
    · next absent =>
      exact ⟨(ih res).1, forall_mem_cons.mpr ⟨absurd absent, (ih res).2⟩⟩
    rename_i absent
    split_ifs with smaller
    · have rests := ih (oldest first)
      have own := rests.1 absent
      refine ⟨fun valid => ⟨own.1, ?_⟩, ?_⟩
      · have below : oldest first < res := smaller.resolve_left valid
        exact Nat.le_trans own.2 (Nat.le_of_lt below)
      · exact forall_mem_cons.mpr ⟨fun _ => own, rests.2⟩
    · rw [not_or, Nat.not_lt] at smaller
      have rests := ih res
      have own := rests.1 smaller.1
      exact ⟨rests.1, forall_mem_cons.mpr ⟨fun _ => ⟨own.1, Nat.le_trans own.2 smaller.2⟩, rests.2⟩⟩

omit [DecidableEq Buf] in
theorem copy_buffers_oldest_le (inRange : cbuf < st.polarCopyBuffers)
    (valid : (st.copyBuffers cbuf).oldestLsn ≠ invalidXLogRecPtr) :
    polarCopyBuffersGetOldestLsn st ≠ invalidXLogRecPtr ∧
      polarCopyBuffersGetOldestLsn st ≤ (st.copyBuffers cbuf).oldestLsn :=
  (fold_oldest_le (fun cbuf => (st.copyBuffers cbuf).oldestLsn) _ _).2 cbuf
    (mem_range.mpr inRange) valid

theorem consistent_lsn_le (inv : Inv st) (listed : (st.buffers buf).oldestLsn ≠ invalidXLogRecPtr) :
    polarCalCurConsistentLsn st ≤ (st.buffers buf).oldestLsn ∧ ∀ cbuf, (st.buffers buf).copyBuffer =
        some cbuf → polarCalCurConsistentLsn st ≤ (st.copyBuffers cbuf).oldestLsn := by
  obtain ⟨first, isFirst⟩ := inv.order.first_exists listed
  have below : (st.buffers first).oldestLsn ≤ (st.buffers buf).oldestLsn :=
    inv.order.first_le isFirst listed
  have nonempty : polarFlushListIsEmpty st = false := by
    simp [polarFlushListIsEmpty, isFirst]
  unfold polarCalCurConsistentLsn
  rw [nonempty, isFirst]
  simp only [Bool.false_eq_true, if_false]
  split_ifs with noCopies
  · refine ⟨below, ?_⟩
    intro cbuf isCopy
    have paired := inv.pool.paired buf cbuf isCopy
    exact absurd noCopies (copy_buffers_oldest_le paired.1 paired.2.2.2).1
  · refine ⟨Nat.le_trans (Nat.min_le_left _ _) below, ?_⟩
    intro cbuf isCopy
    have paired := inv.pool.paired buf cbuf isCopy
    exact Nat.le_trans (Nat.min_le_right _ _) (copy_buffers_oldest_le paired.1 paired.2.2.2).2

theorem Inv.consistent_lsn_bound (inv : Inv st) {page : Page} {lsn : XLogRecPtr}
    (modified : lsn ∈ st.modified page) (unwritten : lsn ∉ st.storage page)
    (kept : lsn ∉ excused st page) : polarCalCurConsistentLsn st ≤ lsn := by
  by_cases mapped : ∃ buf, (st.buffers buf).tag = some page
  · obtain ⟨buf, tag⟩ := mapped
    have accounts := inv.accounts buf page tag
    have held : lsn ∈ (st.buffers buf).image := (accounts.recorded lsn modified).resolve_right kept
    have listed : (st.buffers buf).oldestLsn ≠ invalidXLogRecPtr :=
      fun absent => unwritten (accounts.clean absent lsn held kept)
    have bound := consistent_lsn_le inv listed
    cases isCopy : (st.buffers buf).copyBuffer with
    | none => exact Nat.le_trans bound.1 (accounts.alone isCopy lsn held kept unwritten)
    | some cbuf =>
      -- the copy accounts for what it holds, the buffer for what came later
      by_cases inCopy : lsn ∈ (st.copyBuffers cbuf).image
      · exact Nat.le_trans (bound.2 cbuf isCopy)
          (accounts.copied cbuf isCopy lsn inCopy kept unwritten)
      · exact Nat.le_trans bound.1 (accounts.newer cbuf isCopy lsn held kept inCopy).2
  · rw [not_exists] at mapped
    rcases inv.settled page mapped lsn modified with stored | gone
    · exact absurd stored unwritten
    · exact absurd gone kept

variable [DecidableEq Page]

theorem Inv.step (inv : Inv st) (step : Step st next) : Inv next := by
  cases step with
  | lock buf => exact inv.set_lock buf true
  | unlock buf => exact inv.set_lock buf false
  | markDirty buf _ mapped marked => exact (inv.mark mapped marked).1.inv
  | markDirtyHint _ logged mapped => exact inv.mark_hint mapped logged
  | insert _ _ _ _ mapped inserted => exact inv.insert mapped inserted
  | copy buf => exact inv.copy buf
  | flush buf => exact inv.flush buf
  | flushCopy buf => exact inv.flush_copy buf
  | invalidate buf => exact inv.invalidate buf
  | read buf _ empty unmapped => exact inv.read empty unmapped
  | evict _ _ clean => exact inv.evict clean

theorem inv_of_run {start : State Page Buf} (inv : Inv start) (run : Run start st) : Inv st := by
  induction run with
  | refl => exact inv
  | tail _ step ih => exact ih.step step

/-- In every state a buffer pool reaches, the consistent LSN is not beyond the start of any record
whose effect on a page is neither on shared storage nor discarded with an invalidated buffer, unless
the record is the full page image of a hint or its inserter did not hold the page's exclusive
lock. -/
theorem consistent_lsn_safe {insertRecPtr : XLogRecPtr} {copyCount : Nat}
    {storage : Page → List XLogRecPtr} {st : State Page Buf}
    (positive : invalidXLogRecPtr < insertRecPtr)
    (run : Run (startState insertRecPtr copyCount storage) st) {page : Page} {lsn : XLogRecPtr}
    (modified : lsn ∈ st.modified page) (unwritten : lsn ∉ st.storage page)
    (kept : lsn ∉ st.discarded page) (covered : lsn ∉ st.uncovered page) :
    polarCalCurConsistentLsn st ≤ lsn :=
  (inv_of_run (inv_start positive) run).consistent_lsn_bound modified unwritten
    (not_mem_append covered kept)

def setContentLock (st : State Nat Nat) (locked : Bool) : State Nat Nat :=
  st.setBuffer 0 { st.buffers 0 with contentLocked := locked }

def emptyPool : State Nat Nat := startState 100 1 (fun _ => [])

def pageLocked : State Nat Nat := setContentLock (readBuffer emptyPool 0 7) true

def recordInserted (st : State Nat Nat) : State Nat Nat :=
  match xlogInsert st [⟨0, true⟩] 10 with
  | .ok next => next
  | .error _ => st

def pageCopied : State Nat Nat :=
  copyBufferAlloc (setContentLock (recordInserted pageLocked) false) 0

def copyOutdated : State Nat Nat := recordInserted (setContentLock pageCopied true)

theorem run_page_modified : Run emptyPool (setContentLock (recordInserted pageLocked) false) := by
  have opened : Run emptyPool (readBuffer emptyPool 0 7) :=
    (Run.refl _).tail (Step.read 0 7 rfl (fun _ => nofun))
  have locked : Run emptyPool pageLocked := opened.tail (.lock 0 rfl nofun)
  have inserted : Run emptyPool (recordInserted pageLocked) :=
    locked.tail (.insert [⟨0, true⟩] 10 (by decide) (by simp [pageLocked, setContentLock])
      (by simp [pageLocked, setContentLock, readBuffer]) rfl)
  exact inserted.tail (.unlock 0)

theorem run_copy_outdated : Run emptyPool copyOutdated := by
  have copied : Run emptyPool pageCopied := run_page_modified.tail (.copy 0 rfl)
  have locked : Run emptyPool (setContentLock pageCopied true) := copied.tail (.lock 0 rfl nofun)
  exact locked.tail (.insert [⟨0, true⟩] 10 (by decide) (by simp [setContentLock]) (by
    intro _ mem
    cases mem with
    | head => exact nofun
    | tail _ rest => cases rest) rfl)

theorem consistent_lsn_safe_outdated_copy :
    polarCalCurConsistentLsn copyOutdated ≤ 110 ∧ polarCalCurConsistentLsn copyOutdated = 100 := by
  have modified : 110 ∈ copyOutdated.modified 7 := by decide
  exact ⟨consistent_lsn_safe (by decide) run_copy_outdated modified (by decide) (by decide)
    (by decide), by decide⟩

/-- An invalidated buffer takes its page off the flush list before the page is written, and the full
page image of a hint dirties a page that never gets on the list. -/
theorem consistent_lsn_passes_invalidated_and_hinted_page :
    (∃ st : State Nat Nat, Run emptyPool st ∧ 100 ∈ st.modified 7 ∧ 100 ∉ st.storage 7 ∧
      100 ∉ st.uncovered 7 ∧ 100 < polarCalCurConsistentLsn st) ∧
    ∃ st : State Nat Nat, Run emptyPool st ∧ 100 ∈ st.modified 7 ∧ 100 ∉ st.storage 7 ∧
      100 ∉ st.discarded 7 ∧ (st.buffers 0).dirty = true ∧ 100 < polarCalCurConsistentLsn st := by
  have invalidated := run_page_modified.tail (.invalidate 0 rfl)
  have opened : Run emptyPool (readBuffer emptyPool 0 7) :=
    (Run.refl _).tail (Step.read 0 7 rfl (fun _ => nofun))
  have hinted := opened.tail (.markDirtyHint 0 (some 10) nofun)
  exact ⟨⟨_, invalidated, by decide, by decide, by decide, by decide⟩,
    ⟨_, hinted, by decide, by decide, by decide, by decide, by decide⟩⟩

end PolarDB.Buffer.ConsistentLsn
