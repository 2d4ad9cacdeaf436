import PolarDB.LogIndex.TableRead

/-!
# What a snapshot represents

`tabs` lists the tables ever opened, oldest first, each as the list of its entries;
table id `tid` is `tabs[tid - 1]`. The log of added pairs is the concatenation. The
parts below say what the memory ring, the files, the caches and the meta know of it;
`saved` is the id of the last saved table.
-/

namespace PolarDB.LogIndex

open Function Lib.Linked PolarDB.Lib.Bloom

variable {Tag : Type}

section Parts
variable [DecidableEq Tag]

def Holds (cfg : Config Tag) (tabs : List (List (LogIndexLsn Tag))) (tid : Nat)
    (data : LogIdxTableData Tag) : Prop :=
  0 < tid ∧ data.idxTableId = tid ∧ ∃ entries freeHead,
    tabs[tid - 1]? = some entries ∧ TableRep (hashKey cfg) freeHead data entries

/-- One memory slot. An active table is the last one, and its free head is exact. -/
def SlotRep (cfg : Config Tag) (tabs : List (List (LogIndexLsn Tag))) (saved slot : Nat)
    (table : LogMemTable Tag) : Prop :=
  match table.state with
  | .free => table.data = zeroTableData
  | .active => saved < tabs.length ∧ slotOf cfg tabs.length = slot ∧
      table.data.idxTableId = tabs.length ∧ ∃ entries, tabs[tabs.length - 1]? = some entries ∧
        TableRep (hashKey cfg) table.freeHead table.data entries
  | .inactive => ∃ tid, saved < tid ∧ slotOf cfg tid = slot ∧ Holds cfg tabs tid table.data
  | .flushed => ∃ tid, tid ≤ saved ∧ slotOf cfg tid = slot ∧ Holds cfg tabs tid table.data

structure MemRep (cfg : Config Tag) (tabs : List (List (LogIndexLsn Tag))) (saved : Nat)
    (memTable : Nat → LogMemTable Tag) : Prop where
  slots : ∀ slot < cfg.memTblSize, SlotRep cfg tabs saved slot (memTable slot)
  unsaved : ∀ tid, saved < tid → tid ≤ tabs.length →
    (memTable (slotOf cfg tid)).data.idxTableId = tid
  freeLe : ∀ slot, (memTable slot).freeHead ≤ memTblSegNum

def BloomRep (cfg : Config Tag) (tabs : List (List (LogIndexLsn Tag))) (tid : Nat)
    (bloom : TableBloom) : Prop :=
  bloom.idxTableId = tid ∧ ∃ entries, tabs[tid - 1]? = some entries ∧
    bloom.maxLsn = (entries.map LogIndexLsn.lsn).getLastD invalidLsn ∧
    ∀ entry ∈ entries, lacksElement cfg.kHashes bloom.bloomBytes entry.tag = false

structure StoreRep (cfg : Config Tag) (tabs : List (List (LogIndexLsn Tag))) (saved : Nat)
    (storage : Storage Tag) : Prop where
  files : ∀ tid, 0 < tid → tid ≤ saved → ∃ data,
    (storage.segFile (segmentNo tid))[segmentOffset tid]? = some data ∧ Holds cfg tabs tid data
  blooms : ∀ tid, 0 < tid → tid ≤ saved →
    BloomRep cfg tabs tid (storage.bloomPage (bloomPageNo tid) (bloomPageOffset tid))
  buffer : ∀ pageno page, storage.bloomBuffer pageno = some page → page = storage.bloomPage pageno
  ids : ∀ (segno offset : Nat) (data : LogIdxTableData Tag), (storage.segFile segno)[offset]? =
      some data → data.idxTableId = segno * tableNumPerFile + offset + 1 ∧ offset < tableNumPerFile

def CacheRep (cfg : Config Tag) (tabs : List (List (LogIndexLsn Tag))) (saved : Nat)
    (cache : TableCache Tag) : Prop :=
  0 < cache.minIdxTableId ∧ cache.maxIdxTableId ≤ saved ∧
    ∀ tid, cache.minIdxTableId ≤ tid → tid ≤ cache.maxIdxTableId → ∃ data,
      cache.data[tid - cache.minIdxTableId]? = some data ∧ Holds cfg tabs tid data

structure MetaRep (tabs : List (List (LogIndexLsn Tag))) (indexMeta : LogIndexMeta) : Prop where
  savedLe : indexMeta.maxIdxTableId ≤ tabs.length
  maxLsn : indexMeta.maxLsn =
    ((tabs.take indexMeta.maxIdxTableId).flatten.map LogIndexLsn.lsn).getLastD invalidLsn
  startLsn : indexMeta.startLsn = indexMeta.maxLsn
  segment : indexMeta.minSegmentInfo.segmentNo = 0
  minId : indexMeta.minSegmentInfo.minIdxTableId = if indexMeta.maxIdxTableId = 0 then 0 else 1

/-- The log is sorted, and only the newest table may be empty. -/
structure LogRep (tabs : List (List (LogIndexLsn Tag))) : Prop where
  sorted : tabs.flatten.Pairwise fun earlier later => earlier.lsn ≤ later.lsn
  nonempty : ∀ (idx : Nat) (entries : List (LogIndexLsn Tag)), tabs[idx]? = some entries →
    idx + 1 < tabs.length → entries ≠ []

structure SnapRep (cfg : Config Tag) (tabs : List (List (LogIndexLsn Tag))) (snap : Snapshot Tag) :
    Prop where
  count : snap.maxIdxTableId = tabs.length
  memory : MemRep cfg tabs snap.indexMeta.maxIdxTableId snap.memTable
  store : StoreRep cfg tabs snap.indexMeta.maxIdxTableId snap.storage
  caches : ∀ pid cache, snap.tableCache pid = some cache →
    CacheRep cfg tabs snap.indexMeta.maxIdxTableId cache
  metaOk : MetaRep tabs snap.indexMeta
  metaFile : snap.storage.metaFile = snap.indexMeta
  logOk : LogRep tabs

/-- Where the active slot stands while an insert waits, and while none does. -/
def ActiveRep (cfg : Config Tag) (tabs : List (List (LogIndexLsn Tag)))
    (snap : Snapshot Tag) : Option (PendingAdd Tag) → Prop
  | none => (tabs = [] ∧ snap.activeTable = 0) ∨
      (tabs ≠ [] ∧ snap.activeTable = slotOf cfg tabs.length ∧
        (snap.memTable snap.activeTable).state = .active ∧
        -- only a table opened at start-up is left empty, and it counts as new
        (tabs[tabs.length - 1]? = some [] → memTblIsNew (snap.memTable snap.activeTable)))
  | some pending => pending.newItem = true ∧
      ((pending.switching = false ∧ tabs = [] ∧ snap.activeTable = 0 ∧ pending.slot = 0) ∨
        (pending.switching = true ∧ tabs ≠ [] ∧ tabs[tabs.length - 1]? ≠ some [] ∧
          snap.activeTable = slotOf cfg tabs.length ∧
          pending.slot = slotOf cfg (tabs.length + 1) ∧
          ∀ slot < cfg.memTblSize, (snap.memTable slot).state ≠ .active))

end Parts

section Ring
variable (cfg : Config Tag)

theorem mem_tbl_size_pos : 0 < cfg.memTblSize := lt_of_lt_of_le (by decide) cfg.atLeastThree

theorem slot_of_lt (tid : Nat) : slotOf cfg tid < cfg.memTblSize :=
  Nat.mod_lt _ (mem_tbl_size_pos cfg)

variable {tid : Nat}

theorem tid_pred_of_pos (positive : 0 < tid) : tidPred tid = tid - 1 := by
  simp [tidPred, ne_of_gt positive]

theorem slot_of_succ (tid : Nat) : slotOf cfg (tid + 1) = tid % cfg.memTblSize := by
  rw [slotOf, tid_pred_of_pos (Nat.succ_pos tid), Nat.succ_sub_one]

theorem next_slot_of (positive : 0 < tid) : nextSlot cfg (slotOf cfg tid) = slotOf cfg
    (tid + 1) := by
  rcases Nat.exists_eq_succ_of_ne_zero (ne_of_gt positive) with ⟨below, rfl⟩
  have size := cfg.atLeastThree
  rw [slot_of_succ, slot_of_succ, nextSlot]
  have bound := Nat.mod_lt below (mem_tbl_size_pos cfg)
  rw [Nat.add_mod]
  have one : 1 % cfg.memTblSize = 1 := Nat.mod_eq_of_lt (by omega)
  rw [one]
  split_ifs with last
  · rw [last, Nat.sub_add_cancel (by omega), Nat.mod_self]
  · exact (Nat.mod_eq_of_lt (by omega)).symm

theorem prev_slot_of (positive : 0 < tid) : prevSlot cfg (slotOf cfg (tid + 1)) =
    slotOf cfg tid := by
  rw [← next_slot_of cfg positive, nextSlot, prevSlot]
  split
  · next last =>
    rw [if_pos rfl, last]
  · rw [if_neg (Nat.succ_ne_zero _), Nat.add_sub_cancel]

theorem slot_of_inj {left right : Nat} (leftPos : 0 < left) (ordered : left ≤ right)
    (near : right < left + cfg.memTblSize)
    (same : slotOf cfg left = slotOf cfg right) : left = right := by
  rw [slotOf, slotOf, tid_pred_of_pos leftPos, tid_pred_of_pos (by omega)] at same
  have zero : (right - left) % cfg.memTblSize = 0 := by
    have shifted := Nat.sub_mod_eq_zero_of_mod_eq same.symm
    rwa [show right - 1 - (left - 1) = right - left by omega] at shifted
  rw [Nat.mod_eq_of_lt (by omega)] at zero
  omega

theorem slot_of_shift (positive : 0 < tid) : slotOf cfg (tid + cfg.memTblSize) =
    slotOf cfg tid := by
  rw [slotOf, slotOf, tid_pred_of_pos positive, tid_pred_of_pos (by omega),
    show tid + cfg.memTblSize - 1 = tid - 1 + cfg.memTblSize by omega, Nat.add_mod_right]

end Ring

section Frame
variable [DecidableEq Tag] {cfg : Config Tag} {before after : List (List (LogIndexLsn Tag))}
  {saved tid slot : Nat} {data : LogIdxTableData Tag}

theorem Holds.of_same (holds : Holds cfg before tid data)
    (same : after[tid - 1]? = before[tid - 1]?) : Holds cfg after tid data := by
  rcases holds with ⟨positive, idEq, entries, freeHead, found, rep⟩
  exact ⟨positive, idEq, entries, freeHead, same.trans found, rep⟩

theorem Holds.le_length (holds : Holds cfg before tid data) : tid ≤ before.length := by
  rcases holds with ⟨_, -, _, -, found, -⟩
  have inside := (List.getElem?_eq_some_iff.mp found).1
  omega

omit [DecidableEq Tag] in
theorem BloomRep.of_same {bloom : TableBloom} (rep : BloomRep cfg before tid bloom)
    (same : after[tid - 1]? = before[tid - 1]?) : BloomRep cfg after tid bloom := by
  rcases rep with ⟨idEq, entries, found, rest⟩
  exact ⟨idEq, entries, same.trans found, rest⟩

theorem StoreRep.of_same {storage : Storage Tag} (rep : StoreRep cfg before saved storage)
    (same : ∀ idx < saved, after[idx]? = before[idx]?) :
    StoreRep cfg after saved storage where
  files := by
    intro tid positive bound
    rcases rep.files tid positive bound with ⟨data, inFile, holds⟩
    exact ⟨data, inFile, holds.of_same (same _ (by omega))⟩
  blooms := fun tid positive bound => (rep.blooms tid positive bound).of_same (same _ (by omega))
  buffer := rep.buffer
  ids := rep.ids

theorem StoreRep.read_bloom_page {storage : Storage Tag} (rep : StoreRep cfg tabs saved storage)
    (pageno : Nat) : readBloomPage storage pageno = storage.bloomPage pageno := by
  rw [readBloomPage]
  cases held : storage.bloomBuffer pageno with
  | none => rfl
  | some page => exact rep.buffer pageno page held

variable {cache : TableCache Tag}

theorem CacheRep.of_same (rep : CacheRep cfg before saved cache)
    (same : ∀ idx < saved, after[idx]? = before[idx]?) : CacheRep cfg after saved cache := by
  rcases rep with ⟨minPos, maxLe, inCache⟩
  refine ⟨minPos, maxLe, ?_⟩
  intro tid low high
  rcases inCache tid low high with ⟨data, found, holds⟩
  exact ⟨data, found, holds.of_same (same _ (by omega))⟩

theorem CacheRep.of_le {later : Nat} (rep : CacheRep cfg before saved cache)
    (grow : saved ≤ later) : CacheRep cfg before later cache := ⟨rep.1, rep.2.1.trans grow, rep.2.2⟩

end Frame

section Memory
variable [DecidableEq Tag] {cfg : Config Tag} {tabs after : List (List (LogIndexLsn Tag))}
  {saved later tid slot : Nat} {memTable : Nat → LogMemTable Tag}

/-- At most a ring of tables is unsaved: two of them in one slot would differ in id. -/
theorem MemRep.window (rep : MemRep cfg tabs saved memTable) :
    tabs.length ≤ saved + cfg.memTblSize := by
  by_contra wide
  have first := rep.unsaved (saved + 1) (by omega) (by omega)
  have second := rep.unsaved (saved + 1 + cfg.memTblSize) (by omega) (by omega)
  rw [slot_of_shift cfg (Nat.succ_pos saved), first] at second
  have size := cfg.atLeastThree
  omega

variable {table : LogMemTable Tag}

theorem SlotRep.cases (rep : SlotRep cfg tabs saved slot table) (used : table.state ≠ .free) :
    ∃ tid, table.data.idxTableId = tid ∧ slotOf cfg tid = slot ∧
      Holds cfg tabs tid table.data ∧ (table.state = .flushed ↔ tid ≤ saved) ∧
      (table.state = .active → tid = tabs.length) := by
  unfold SlotRep at rep
  cases st : table.state <;> rw [st] at rep <;> dsimp only at rep
  · exact absurd st used
  · rcases rep with ⟨unsaved, slotEq, idEq, entries, found, tableRep⟩
    refine ⟨tabs.length, idEq, slotEq, ⟨by omega, idEq, entries, _, found, tableRep⟩, ?_, ?_⟩
    · simp only [reduceCtorEq, false_iff]
      omega
    · exact fun _ => rfl
  · rcases rep with ⟨tid, _, slotEq, holds⟩
    refine ⟨tid, holds.2.1, slotEq, holds, ?_, ?_⟩
    · simp only [reduceCtorEq, false_iff]
      omega
    · simp
  · rcases rep with ⟨tid, below, slotEq, holds⟩
    exact ⟨tid, holds.2.1, slotEq, holds, by simp [below], by simp⟩

/-- A slot in the memory ring that holds an unsaved id, holds it unflushed. -/
theorem MemRep.unsaved_state (rep : MemRep cfg tabs saved memTable) (above : saved < tid)
    (bound : tid ≤ tabs.length) : (memTable (slotOf cfg tid)).state = .inactive ∨
      ((memTable (slotOf cfg tid)).state = .active ∧ tid = tabs.length) := by
  have idEq := rep.unsaved tid above bound
  have slotRep := rep.slots _ (slot_of_lt cfg tid)
  have used : (memTable (slotOf cfg tid)).state ≠ .free := by
    intro isFree
    unfold SlotRep at slotRep
    rw [isFree] at slotRep
    rw [slotRep] at idEq
    exact absurd idEq (by simp only [zeroTableData]; omega)
  rcases slotRep.cases used with ⟨other, otherEq, -, -, flushed, active⟩
  have same : other = tid := otherEq.symm.trans idEq
  subst same
  cases st : (memTable (slotOf cfg other)).state
  · exact absurd st used
  · exact .inr ⟨rfl, active st⟩
  · exact .inl rfl
  · exact absurd (flushed.mp st) (by omega)

theorem MemRep.set_slot (rep : MemRep cfg tabs saved memTable)
    (own : SlotRep cfg after later slot table) (freeLe : table.freeHead ≤ memTblSegNum)
    (others : ∀ other < cfg.memTblSize,
      other ≠ slot → SlotRep cfg tabs saved other (memTable other) →
      SlotRep cfg after later other (memTable other))
    (ownId : ∀ tid, later < tid → tid ≤ after.length → slotOf cfg tid = slot →
      table.data.idxTableId = tid)
    (otherId : ∀ tid, later < tid → tid ≤ after.length → slotOf cfg tid ≠ slot →
      saved < tid ∧ tid ≤ tabs.length) :
    MemRep cfg after later (update memTable slot table) where
  slots := by
    intro other bound
    rw [update_apply]
    split_ifs with same
    · subst same
      exact own
    · exact others other bound same (rep.slots other bound)
  unsaved := by
    intro tid above bound
    rw [update_apply]
    split_ifs with same
    · exact ownId tid above bound same
    · have old := otherId tid above bound same
      exact rep.unsaved tid old.1 old.2
  freeLe := (forall_update_iff _ fun _ (held : LogMemTable Tag) =>
    held.freeHead ≤ memTblSegNum).mpr ⟨freeLe, fun other _ => rep.freeLe other⟩

end Memory

end PolarDB.LogIndex
