import Mathlib.Logic.Function.Basic

/-!
# The xlog page buffer

Every page of the WAL has one slot, shared with the pages that hash to it. A slot says which page
it holds and how far; `live` replays the operations without losing anything, and a hit agrees
with it.
-/

namespace PolarDB.Xlog.PageBuffer

open Function

abbrev xlogBlcksz : Nat := 8192

/-- A descriptor with the block behind it; the lock of the slot makes each operation one step. -/
structure XlogBufferDesc where
  startLsn : Nat
  endLsn : Nat
  buffer : Nat → UInt8

def pageOff (lsn : Nat) : Nat := lsn - lsn % xlogBlcksz

/-- `total` is `POLAR_XLOG_BUFFER_TOTAL_COUNT()`. -/
def polarGetXlogBufferId (total lsn : Nat) : Nat := lsn / xlogBlcksz % total

def polarInitXlogBuffer (_bufId : Nat) : XlogBufferDesc := ⟨0, 0, fun _ => 0⟩

namespace XlogBufferDesc

def Found (buf : XlogBufferDesc) (curPageLsn len : Nat) : Prop :=
  buf.startLsn = curPageLsn ∧ curPageLsn + len - 1 ≤ buf.endLsn
  deriving Decidable

def polarXlogBufferLookup (buf : XlogBufferDesc) (curPageLsn len : Nat) : Option (List UInt8) :=
  if buf.Found curPageLsn len then some ((List.range len).map buf.buffer) else none

def polarXlogBufferShouldEvict (buf : XlogBufferDesc) (lsn len : Nat) : Bool :=
  !decide (lsn + len - 1 ≤ buf.endLsn)

/-- The part under the exclusive lock: the same test under the shared lock only returns early.
`none` is the answer false. -/
def polarXlogBufferAppend (buf : XlogBufferDesc) (curPageLsn : Nat) (curPage : List UInt8) :
    Option XlogBufferDesc :=
  if buf.Found curPageLsn curPage.length ∨
      buf.polarXlogBufferShouldEvict curPageLsn curPage.length = false then
    none
  else
    -- memcpy leaves the bytes of the block behind len
    some ⟨curPageLsn, curPageLsn + curPage.length - 1,
      fun offset => (curPage[offset]?).getD (buf.buffer offset)⟩

def polarXlogBufferUpdate (buf : XlogBufferDesc) (lsn : Nat) : XlogBufferDesc :=
  if buf.startLsn = pageOff lsn ∧ lsn < buf.endLsn then { buf with endLsn := lsn } else buf

def polarXlogBufferRemove (buf : XlogBufferDesc) (lsn : Nat) : XlogBufferDesc :=
  if buf.startLsn = pageOff lsn then { buf with startLsn := 0, endLsn := 0 } else buf

end XlogBufferDesc

inductive Op where
  | append (curPageLsn : Nat) (curPage : List UInt8)
  | lookup (curPageLsn len : Nat)
  | update (lsn : Nat)
  | remove (lsn : Nat)

namespace Op

/-- What `xlog_buffer_precheck` asserts. -/
def Checked : Op → Prop
  | append curPageLsn curPage =>
    curPageLsn % xlogBlcksz = 0 ∧ 0 < curPage.length ∧ curPage.length ≤ xlogBlcksz
  | lookup curPageLsn len => curPageLsn % xlogBlcksz = 0 ∧ 0 < len ∧ len ≤ xlogBlcksz
  | _ => True

def lsn : Op → Nat
  | append curPageLsn _ | lookup curPageLsn _ => curPageLsn
  | update lsn | remove lsn => lsn

def apply (buf : XlogBufferDesc) : Op → XlogBufferDesc
  | append curPageLsn curPage => (buf.polarXlogBufferAppend curPageLsn curPage).getD buf
  | lookup _ _ => buf
  | update lsn => buf.polarXlogBufferUpdate lsn
  | remove lsn => buf.polarXlogBufferRemove lsn

/-- What an operation makes of the byte at a position: a successful append gives the bytes of its
page, update and remove take back what they invalidate. -/
def effect (buf : XlogBufferDesc) (pos : Nat) (byte : Option UInt8) : Op → Option UInt8
  | append curPageLsn curPage =>
    if (buf.polarXlogBufferAppend curPageLsn curPage).isSome ∧ curPageLsn ≤ pos ∧
        pos < curPageLsn + curPage.length then
      curPage[pos - curPageLsn]?
    else
      byte
  | lookup _ _ => byte
  | update lsn => if pageOff pos = pageOff lsn ∧ lsn < pos then none else byte
  | remove lsn => if pageOff pos = pageOff lsn then none else byte

end Op

/-- The slots after the operations, the newest first. -/
def after (total : Nat) : List Op → Nat → XlogBufferDesc
  | [] => polarInitXlogBuffer
  | op :: earlier =>
    update (after total earlier) (polarGetXlogBufferId total op.lsn)
      (op.apply (after total earlier (polarGetXlogBufferId total op.lsn)))

/-- The byte of the newest successful append that covers a position, unless it was invalidated
since. -/
def live (total : Nat) : List Op → Nat → Option UInt8
  | [], _ => none
  | op :: earlier, pos =>
    op.effect (after total earlier (polarGetXlogBufferId total op.lsn)) pos (live total earlier pos)

/-- A slot is empty or holds a live piece of one of its pages. -/
structure Holds (total slot : Nat) (buf : XlogBufferDesc) (content : Nat → Option UInt8) :
    Prop where
  inPage : buf.startLsn = pageOff buf.endLsn
  placed : buf.startLsn ≠ 0 → polarGetXlogBufferId total buf.startLsn = slot
  backed : buf.startLsn ≠ 0 → ∀ pos, buf.startLsn ≤ pos → pos ≤ buf.endLsn →
    content pos = some (buf.buffer (pos - buf.startLsn))

variable {total slot : Nat} {buf : XlogBufferDesc} {content later : Nat → Option UInt8}

theorem Holds.mono (holds : Holds total slot buf content)
    (kept : ∀ pos, pageOff pos = buf.startLsn → pos ≤ buf.endLsn → later pos = content pos) :
    Holds total slot buf later := by
  refine ⟨holds.inPage, holds.placed, fun used pos low high => ?_⟩
  rw [kept pos _ high]
  · exact holds.backed used pos low high
  · have page := holds.inPage
    simp only [pageOff, xlogBlcksz] at page ⊢
    omega

theorem Op.effect_other {op : Op} (checked : op.Checked) {pos : Nat}
    (apart : pageOff pos ≠ pageOff op.lsn) (byte : Option UInt8) :
    op.effect buf pos byte = byte := by
  cases op with
  | append =>
    obtain ⟨aligned, -, fits⟩ := checked
    refine if_neg fun inside => apart ?_
    simp only [Op.lsn, pageOff, xlogBlcksz] at aligned fits ⊢
    omega
  | lookup => rfl
  | update lsn => exact if_neg fun cut => apart cut.1
  | remove => exact if_neg apart

theorem Holds.apply {op : Op} (checked : op.Checked)
    (holds : Holds total (polarGetXlogBufferId total op.lsn) buf content) :
    Holds total (polarGetXlogBufferId total op.lsn) (op.apply buf)
      fun pos => op.effect buf pos (content pos) := by
  cases op with
  | append curPageLsn curPage =>
    obtain ⟨aligned, _, fits⟩ := checked
    dsimp only [Op.apply, Op.effect]
    cases stored : buf.polarXlogBufferAppend curPageLsn curPage with
    | none => simpa using holds
    | some =>
      unfold XlogBufferDesc.polarXlogBufferAppend at stored
      split at stored
      case isTrue => cases stored
      cases stored
      refine ⟨?_, fun _ => rfl, fun _ pos low high => ?_⟩
      · simp only [Option.getD_some, pageOff, xlogBlcksz] at aligned fits ⊢
        omega
      · dsimp only [Option.getD_some] at low high ⊢
        have inside : pos - curPageLsn < curPage.length := by omega
        rw [if_pos ⟨rfl, low, by omega⟩, List.getElem?_eq_getElem inside, Option.getD_some]
  | lookup => exact holds
  | update lsn =>
    dsimp only [Op.apply, Op.effect, XlogBufferDesc.polarXlogBufferUpdate]
    split
    case isTrue shrink =>
      refine ⟨shrink.1, holds.placed, fun used pos low high => ?_⟩
      rw [if_neg fun cut => absurd cut.2 (Nat.not_lt.mpr high)]
      exact holds.backed used pos low (Nat.le_trans high (Nat.le_of_lt shrink.2))
    case isFalse keep =>
      refine holds.mono fun pos page high => if_neg fun cut => keep ?_
      exact ⟨page.symm.trans cut.1, Nat.lt_of_lt_of_le cut.2 high⟩
  | remove =>
    dsimp only [Op.apply, Op.effect, XlogBufferDesc.polarXlogBufferRemove]
    split
    case isTrue => exact ⟨rfl, nofun, nofun⟩
    case isFalse missed =>
      exact holds.mono fun pos page _ => if_neg fun same => missed (page.symm.trans same)

theorem holds_after (total : Nat) {ops : List Op} (checked : ∀ op ∈ ops, op.Checked)
    (slot : Nat) : Holds total slot (after total ops slot) (live total ops) := by
  induction ops generalizing slot with
  | nil => exact ⟨rfl, nofun, nofun⟩
  | cons op earlier before =>
    have passed := checked op List.mem_cons_self
    replace before := before fun op mem => checked op (List.mem_cons_of_mem _ mem)
    by_cases own : slot = polarGetXlogBufferId total op.lsn
    · rw [own, after, update_self]
      exact (before _).apply passed
    · rw [after, update_of_ne own]
      by_cases used : (after total earlier slot).startLsn = 0
      · exact ⟨(before slot).inPage, absurd used, absurd used⟩
      refine (before slot).mono fun pos page _ => Op.effect_other passed (fun same => own ?_) _
      -- a used slot that is not the one of the page holds another page
      rw [← (before slot).placed used, ← page, same, polarGetXlogBufferId]
      congr 1
      simp only [pageOff, xlogBlcksz]
      omega

theorem Holds.older_refused (holds : Holds total slot buf content) {curPageLsn : Nat}
    {curPage : List UInt8} (checked : (Op.append curPageLsn curPage).Checked)
    (older : curPageLsn < buf.startLsn) : buf.polarXlogBufferAppend curPageLsn curPage = none := by
  obtain ⟨aligned, _, fits⟩ := checked
  have page := holds.inPage
  have behind : curPageLsn + curPage.length - 1 ≤ buf.endLsn := by
    simp only [pageOff, xlogBlcksz] at page aligned fits
    omega
  simp [XlogBufferDesc.polarXlogBufferAppend, XlogBufferDesc.polarXlogBufferShouldEvict, behind]

/-- A hit for a page behind LSN 0 returns live bytes, and an older page never replaces a newer
one. -/
theorem page_buffer_coherent (total : Nat) (ops : List Op) (checked : ∀ op ∈ ops, op.Checked)
    (curPageLsn : Nat) :
    (∀ len page, curPageLsn ≠ 0 →
      (after total ops (polarGetXlogBufferId total curPageLsn)).polarXlogBufferLookup curPageLsn
        len = some page →
      page.length = len ∧
      ∀ offset, offset < len → page[offset]? = live total ops (curPageLsn + offset)) ∧
    ∀ curPage, (Op.append curPageLsn curPage).Checked →
      curPageLsn < (after total ops (polarGetXlogBufferId total curPageLsn)).startLsn →
      after total (.append curPageLsn curPage :: ops) = after total ops := by
  have holds := holds_after total checked (polarGetXlogBufferId total curPageLsn)
  constructor
  · intro _ _ used hit
    obtain ⟨⟨start, _⟩, copied⟩ := Option.ite_none_right_eq_some.mp hit
    cases copied
    refine ⟨by simp, fun offset inside => ?_⟩
    rw [holds.backed (start.trans_ne used) (curPageLsn + offset) (by omega) (by omega), start]
    simp [inside]
  · intro _ fits older
    rw [after, Op.apply, Op.lsn, holds.older_refused fits older]
    exact update_eq_self _ _

/-- A page is appended and cut behind its second byte. -/
def cutPage : List Op := [.update 8193, .append 8192 [7, 8, 9]]

theorem appended_page_live : live 1 cutPage 8192 = some 7 ∧ live 1 cutPage 8193 = some 8 ∧
    after 1 (.append 0 [5] :: cutPage) = after 1 cutPage := by
  have checked : ∀ op ∈ cutPage, op.Checked := by simp [cutPage, Op.Checked, xlogBlcksz]
  have hit := ((page_buffer_coherent 1 _ checked 8192).1 2 [7, 8] (by decide) (by decide)).2
  refine ⟨(hit 0 (by decide)).symm, (hit 1 (by decide)).symm, ?_⟩
  exact (page_buffer_coherent 1 _ checked 0).2 [5] (by simp [Op.Checked, xlogBlcksz]) (by decide)

/-- An empty slot has start and end 0 and so passes for the first byte of page 0. -/
theorem empty_slot_hits : (after 1 [] (polarGetXlogBufferId 1 0)).polarXlogBufferLookup 0 1 =
      some [0] ∧ live 1 [] 0 = none := by
  decide

end PolarDB.Xlog.PageBuffer
