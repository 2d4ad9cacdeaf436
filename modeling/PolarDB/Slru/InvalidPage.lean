import Mathlib.Logic.Function.Basic
import Mathlib.Tactic.SplitIfs

/-!
# Invalidation of an SLRU page

`polar_slru_invalid_page` finds the slot of a page in the hash index, or scans the slots by page
number up to the first match; EMPTY slots keep their numbers. While it waits for I/O on the slot
other processes go on. The scan then goes on with slot 1.
-/

namespace PolarDB.Slru

open Function List

inductive PageStatus where
  | empty
  | readInProgress
  | valid
  | writeInProgress
  deriving DecidableEq, Repr

structure Slot where
  pageNumber : Int
  status : PageStatus
  dirty : Bool
  lruCount : Nat
  deriving DecidableEq, Repr

structure Shared where
  slots : List Slot
  /-- `polar_hash_index`, if it is in use -/
  hashIndex : Option (Int → Option Nat)
  freeList : List Nat

variable {shared seen after next : Shared} {pageno : Int} {start slotno : Nat} {slot : Slot}

/-- An entry leaves the hash index and its slot goes to the free list; nothing if the index is
corrupted. -/
def removeEntry (shared : Shared) (slotno : Nat) (slot : Slot) : Option Shared :=
  match shared.hashIndex with
  | none => some shared
  | some index =>
    if index slot.pageNumber = none then none
    else some { shared with
      hashIndex := some (update index slot.pageNumber none), freeList := slotno :: shared.freeList }

def Shared.setSlot (shared : Shared) (slotno : Nat) (slot : Slot) : Shared :=
  { shared with slots := shared.slots.set slotno slot }

/-- `SimpleLruWaitIO`, from the moment when it has the control lock again. The lock of the buffer is
free if the I/O failed. -/
def simpleLruWaitIO (shared : Shared) (slotno : Nat) (slot : Slot) (lockFree : Bool) :
    Option Shared :=
  match slot.status, lockFree with
  | .readInProgress, true =>
    (removeEntry shared slotno slot).map fun shared =>
      shared.setSlot slotno { slot with status := .empty }
  | .writeInProgress, true =>
      some (shared.setSlot slotno { slot with status := .valid, dirty := true })
  | _, _ => some shared

/-- The slot that the call looks at next: the entry of the index, or the first match from `start`
on. -/
def findSlot (shared : Shared) (pageno : Int) (start : Nat) : Option Nat :=
  match shared.hashIndex with
  | some index => index pageno
  | none => (range shared.slots.length).find? fun slotno =>
      start ≤ slotno ∧ shared.slots[slotno]?.map Slot.pageNumber = some pageno

/-- A clean page leaves its slot; nothing if the assertion fails. -/
def invalidSlot (shared : Shared) (slotno : Nat) (slot : Slot) : Option Shared :=
  if slot.status = .empty ∨ slot.status = .valid ∧ slot.dirty = false then
    (if slot.status = .empty then some shared else removeEntry shared slotno slot).map fun shared =>
      shared.setSlot slotno { slot with status := .empty, dirty := false, lruCount := 0 }
  else none

/-- Slot `slotno` has the page. -/
def Shared.Has (shared : Shared) (pageno : Int) (slotno : Nat) (slot : Slot) : Prop :=
  shared.slots[slotno]? = some slot ∧ slot.pageNumber = pageno ∧ slot.status ≠ .empty

/-- Every page is under its number in the hash index. -/
def Shared.Indexed (shared : Shared) : Prop :=
  ∀ index, shared.hashIndex = some index → ∀ pageno slotno slot, shared.Has pageno slotno slot →
    index pageno = some slotno

/-- `polar_slru_invalid_page` from slot `start` on, up to the release of the control lock. It sees
`seen`, from slot `first` on, when it looks for the last time. A wait lets other processes change
every slot. -/
inductive InvalidPage (pageno : Int) : Nat → Shared → Nat → Shared → Shared → Prop
  | missing {start : Nat} {shared : Shared} (found : findSlot shared pageno start = none) :
      InvalidPage pageno start shared start shared shared
  | done {start slotno : Nat} {shared after : Shared} {slot : Slot}
      (found : findSlot shared pageno start = some slotno)
      (isSlot : shared.slots[slotno]? = some slot)
      (invalid : invalidSlot shared slotno slot = some after) :
        InvalidPage pageno start shared start shared after
  | wait {start slotno first : Nat} {shared resumed next seen after : Shared} {slot held : Slot}
      {lockFree : Bool}
      (found : findSlot shared pageno start = some slotno)
        (isSlot : shared.slots[slotno]? = some slot)
      (inProgress : slot.status = .readInProgress ∨ slot.status = .writeInProgress)
      (sameSize : resumed.slots.length = shared.slots.length)
      (sameUse : resumed.hashIndex.isSome = shared.hashIndex.isSome) (indexed : resumed.Indexed)
      (isHeld : resumed.slots[slotno]? = some held)
      (waited : simpleLruWaitIO resumed slotno held lockFree = some next)
      (later : InvalidPage pageno 1 next first seen after) :
        InvalidPage pageno start shared first seen after

theorem Shared.Has.of_set {other : Nat} {set old : Slot}
    (has : (shared.setSlot slotno set).Has pageno other old) : slotno = other ∧ set = old ∨
    slotno ≠ other ∧ shared.Has pageno other old := by
  obtain ⟨isSlot, isPage, status⟩ := has
  rw [setSlot, getElem?_set] at isSlot
  split_ifs at isSlot with same
  · exact .inl ⟨same, Option.some.inj isSlot⟩
  · exact .inr ⟨same, isSlot, isPage, status⟩

theorem remove_entry_slots (removed : removeEntry shared slotno slot = some after) :
    after.slots = shared.slots := by
  unfold removeEntry at removed
  split at removed
  · cases removed
    rfl
  · split_ifs at removed
    cases removed
    rfl

theorem Shared.Indexed.remove (indexed : shared.Indexed) (has : shared.Has pageno slotno slot)
    (removed : removeEntry shared slotno slot = some after) {set : Slot}
    (isEmpty : set.status = .empty) : (after.setSlot slotno set).Indexed := by
  intro index isIndex page other old found
  rcases found.of_set with ⟨-, rfl⟩ | ⟨apart, otherHas⟩
  · exact absurd isEmpty found.2.2
  unfold removeEntry at removed
  split at removed
  · next none =>
    cases removed
    cases none.symm.trans isIndex
  · next isOld =>
    split_ifs at removed
    cases removed
    cases isIndex
    rw [update_apply, has.2.1]
    split_ifs with same
    · have own := indexed _ isOld _ _ _ has
      rw [← same, indexed _ isOld _ _ _ otherHas] at own
      exact absurd (Option.some.inj own).symm apart
    · exact indexed _ isOld _ _ _ otherHas

theorem Shared.Indexed.wait {held : Slot} {lockFree : Bool} (indexed : shared.Indexed)
    (isHeld : shared.slots[slotno]? = some held)
    (waited : simpleLruWaitIO shared slotno held lockFree = some next) : next.Indexed := by
  unfold simpleLruWaitIO at waited
  split at waited
  · next reads =>
    obtain ⟨removed, called, rfl⟩ := Option.map_eq_some_iff.mp waited
    exact indexed.remove ⟨isHeld, rfl, by simp [reads]⟩ called rfl
  · next writes =>
    cases waited
    intro index isIndex page other old has
    rcases has.of_set with ⟨rfl, rfl⟩ | ⟨-, has⟩
    · exact indexed index isIndex page _ held ⟨isHeld, has.2.1, by simp [writes]⟩
    · exact indexed index isIndex page other old has
  · cases waited
    exact indexed

/-- The last look finds the page: no EMPTY slot before it has its number, and the scan does not
start behind it. -/
def Shared.Finds (shared : Shared) (pageno : Int) (start : Nat) : Prop :=
  shared.hashIndex ≠ none ∨ ∀ slotno slot, shared.Has pageno slotno slot → start ≤ slotno ∧
    ∀ other, start ≤ other → other < slotno → shared.slots[other]?.map Slot.pageNumber ≠ some pageno

theorem find_slot_other (indexed : shared.Indexed) (finds : shared.Finds pageno start) {other : Nat}
    {old : Slot} (has : shared.Has pageno other old) :
    findSlot shared pageno start = some other := by
  unfold findSlot
  split
  · next index isIndex => exact indexed index isIndex pageno other old has
  · next none =>
    obtain ⟨inside, first⟩ := (finds.resolve_left (not_not.mpr none)) other old has
    have bound := (List.getElem?_eq_some_iff.mp has.1).1
    rw [find?_range_eq_some]
    refine ⟨by simp [inside, has.1, has.2.1], mem_range.mpr bound, ?_⟩
    intro earlier less
    simp only [Bool.not_eq_true', decide_eq_false_iff_not, not_and]
    exact fun least => first earlier least less

theorem invalid_slot_has {other : Nat} {old : Slot}
    (invalid : invalidSlot shared slotno slot = some after) : after.Has pageno other old ↔
    slotno ≠ other ∧ shared.Has pageno other old := by
  have slots : ∃ set : Slot, set.status = .empty ∧ after.slots = shared.slots.set slotno set := by
    refine ⟨{ slot with status := .empty, dirty := false, lruCount := 0 }, rfl, ?_⟩
    unfold invalidSlot at invalid
    split_ifs at invalid
    · cases invalid
      rfl
    · obtain ⟨removed, called, rfl⟩ := Option.map_eq_some_iff.mp invalid
      rw [Shared.setSlot, remove_entry_slots called]
  obtain ⟨set, isEmpty, isAfter⟩ := slots
  rw [Shared.Has, isAfter]
  constructor
  · intro has
    have isSet : (shared.setSlot slotno set).Has pageno other old := has
    rcases isSet.of_set with ⟨-, rfl⟩ | apart
    · exact absurd isEmpty has.2.2
    · exact apart
  · rintro ⟨apart, has⟩
    rw [getElem?_set_ne apart]
    exact has

/-- When the call releases the control lock, no slot has the page exactly if the last look finds
it. -/
theorem invalid_page_complete_iff (indexed : shared.Indexed) {first : Nat}
    (call : InvalidPage pageno start shared first seen after) :
    (∀ slotno slot, ¬ after.Has pageno slotno slot) ↔ seen.Finds pageno first := by
  induction call with
  | missing found =>
    constructor
    · exact fun complete => .inr fun slotno slot has => absurd has (complete slotno slot)
    · intro finds slotno slot has
      cases found.symm.trans (find_slot_other indexed finds has)
  | @done start slotno shared after slot found isSlot invalid =>
    simp only [invalid_slot_has invalid]
    constructor
    · intro complete
      cases isIndex : shared.hashIndex with
      | some index => exact .inl (by simp [isIndex])
      | none =>
        refine .inr fun other old has => ?_
        obtain rfl : slotno = other := Classical.byContradiction fun apart =>
          complete other old ⟨apart, has⟩
        rw [findSlot, isIndex, find?_range_eq_some] at found
        obtain ⟨isFirst, -, first⟩ := found
        refine ⟨(of_decide_eq_true isFirst).1, fun earlier least less same => ?_⟩
        simpa [least, same] using first earlier less
    · rintro finds other old ⟨apart, has⟩
      exact apart (Option.some.inj (found.symm.trans (find_slot_other indexed finds has)))
  | wait _ _ _ _ _ resumedIndexed isHeld waited _ known =>
      exact known (resumedIndexed.wait isHeld waited)

def cleanSlot : Slot := ⟨5, .valid, false, 0⟩

def otherSlot : Slot := ⟨7, .valid, false, 0⟩

/-- Page 5 is in slot 1, and in the index. -/
def indexedPage (status : PageStatus) : Shared where
  slots := [otherSlot, { cleanSlot with status := status }]
  hashIndex := some fun pageno => if pageno = 5 then some 1 else some 0
  freeList := []

theorem indexed_page (status : PageStatus) : (indexedPage status).Indexed := by
  rintro index ⟨⟩ pageno slotno slot ⟨isSlot, rfl, -⟩
  rcases slotno with _ | _ | slotno
  · cases isSlot
    rfl
  · cases isSlot
    rfl
  · cases isSlot

/-- The page leaves its slot after a wait for the end of its write. -/
theorem clean_page_invalidated :
    ∃ after, InvalidPage 5 0 (indexedPage .writeInProgress) 1 (indexedPage .valid) after ∧
      ∀ slotno slot, ¬ after.Has 5 slotno slot := by
  have waited : simpleLruWaitIO (indexedPage .valid) 1 cleanSlot false =
    some (indexedPage .valid) := rfl
  have call : InvalidPage 5 0 (indexedPage .writeInProgress) 1 (indexedPage .valid) _ :=
    .wait rfl rfl (.inr rfl) (by rfl) (by rfl) (indexed_page .valid) (by rfl) waited
    (.done rfl rfl rfl)
  exact ⟨_, call, (invalid_page_complete_iff (indexed_page _) call).mpr (.inl nofun)⟩

/-- A page that moves into slot 0 during the wait is missed, and so is one behind an EMPTY slot with
its number. -/
theorem page_missed :
    (∃ seen after, InvalidPage 5 0 ⟨[otherSlot, { cleanSlot with status := .writeInProgress }],
      none, []⟩ 1 seen after ∧ after.Has 5 0 cleanSlot) ∧
    ∃ after, InvalidPage 5 0 ⟨[{ cleanSlot with status := .empty }, cleanSlot], none, []⟩ 0
      ⟨[{ cleanSlot with status := .empty }, cleanSlot], none, []⟩ after ∧
      after.Has 5 1 cleanSlot := by
  constructor
  · have waited : simpleLruWaitIO ⟨[cleanSlot, otherSlot], none, []⟩ 1 otherSlot false = some _ :=
      rfl
    refine ⟨_, _, .wait rfl rfl (.inr rfl) ?_ ?_ (fun _ isIndex => ?_) ?_ waited (.missing rfl),
      rfl, rfl, nofun⟩
    · rfl
    · rfl
    · cases isIndex
    · rfl
  · exact ⟨_, .done rfl rfl rfl, rfl, rfl, nofun⟩

end PolarDB.Slru
