import PolarDB.Buffer.ConsistentLsn

/-!
# The pool of copy buffers

No copy buffer is lost: each is free, or it is the copy of one buffer, which holds a page
and is in the flush list.
-/

namespace PolarDB.Buffer.ConsistentLsn

open List Function
open Buffer.Bufmgr

variable {Page Buf : Type} {st next last : State Page Buf} {buf : Buf}

/-- A copy buffer that is free or in use stays so. -/
def Keeps (st next : State Page Buf) : Prop :=
  ∀ cbuf, cbuf ∈ st.freeCopyBuffers ∨ (∃ buf, copyOf st buf = some cbuf) →
    cbuf ∈ next.freeCopyBuffers ∨ ∃ buf, copyOf next buf = some cbuf

theorem Keeps.trans (first : Keeps st next) (second : Keeps next last) : Keeps st last :=
  fun cbuf known => second cbuf (first cbuf known)

theorem keeps_of_same (free : next.freeCopyBuffers = st.freeCopyBuffers)
    (same : ∀ buf, copyOf next buf = copyOf st buf) : Keeps st next := by
  intro cbuf
  rw [free]
  exact .imp_right fun ⟨buf, isCopy⟩ => ⟨buf, (same buf).trans isCopy⟩

variable [DecidableEq Buf]

theorem keeps_setBuffer (buf : Buf) (desc : BufferDesc Page)
    (same : desc.copyBuffer = (st.buffers buf).copyBuffer) : Keeps st (st.setBuffer buf desc) := by
  refine keeps_of_same rfl fun other => ?_
  by_cases mine : other = buf <;> simp [copyOf, State.setBuffer, mine, same]

theorem keeps_freeCopy (buf : Buf) : Keeps st (polarFreeCopyBuffer st buf) := by
  unfold polarFreeCopyBuffer
  split
  · exact fun _ => id
  · rintro cbuf (free | ⟨owner, isCopy⟩)
    · exact .inl (mem_cons_of_mem _ free)
    · by_cases mine : owner = buf
      · simp_all [copyOf]
      · exact .inr ⟨owner, by simpa [copyOf, mine] using isCopy⟩

theorem keeps_release (buf : Buf) :
    Keeps st (polarResetBufferOldestLsn (polarFreeCopyBuffer st buf) buf) := by
  apply (keeps_freeCopy buf).trans
  unfold polarResetBufferOldestLsn
  split
  · exact fun _ => id
  · refine keeps_of_same rfl fun other => ?_
    by_cases mine : other = buf <;>
      simp [copyOf, polarRemoveBufferFromFlushList, removeOneBuffer, State.setBuffer, mine]

theorem keeps_copy (buf : Buf) : Keeps st (copyBufferAlloc st buf) := by
  unfold copyBufferAlloc
  split_ifs with already
  · exact fun _ => id
  · exact fun _ => id
  split
  · exact fun _ => id
  next cbuf rest isFree =>
    rintro other (free | ⟨owner, isCopy⟩)
    · rcases mem_cons.mp (isFree ▸ free) with rfl | more
      · exact .inr ⟨buf, by simp [copyOf]⟩
      · exact .inl more
    · have apart : owner ≠ buf := by
        rintro rfl
        simp_all [copyOf]
      exact .inr ⟨owner, by simpa [copyOf, apart] using isCopy⟩

variable [DecidableEq Page]

theorem keeps_applyRecord {startPos : XLogRecPtr} (reg : RegBuffer Buf) :
    Keeps st (applyRecord startPos st reg) := by
  unfold applyRecord
  split
  · exact fun _ => id
  · exact keeps_setBuffer reg.buffer _ rfl

theorem Inv.keeps (inv : Inv st) (step : Step st next) : Keeps st next := by
  cases step with
  | markDirty _ _ mapped marked =>
    have prepares := (inv.mark mapped marked).1
    exact keeps_of_same prepares.free prepares.kept
  | markDirtyHint buf logged =>
    unfold markBufferDirtyHint
    split
    · exact fun _ => id
    cases logged with
    | none => exact keeps_setBuffer buf _ rfl
    | some size =>
      have saved : Keeps st (xlogSaveBufferForHint st buf size) := by
        show Keeps { st with insertRecPtr := st.insertRecPtr + size } _
        exact keeps_applyRecord _
      exact saved.trans (keeps_setBuffer buf _ rfl)
  | insert regs _ _ _ mapped inserted =>
    obtain ⟨assembled, assembly, rfl⟩ := xlog_insert_ok inserted
    have prepares := (inv.assemble mapped assembly).1
    refine (keeps_of_same prepares.free prepares.kept).trans ?_
    exact foldlRecOn (motive := Keeps assembled) regs _ (fun _ => id)
      fun _ known reg _ => known.trans (keeps_applyRecord reg)
  | copy buf => exact keeps_copy buf
  | flush buf =>
    unfold flushBuffer
    split
    · exact fun _ => id
    · dsimp only
      refine Keeps.trans ?_ (keeps_setBuffer buf _ rfl)
      show Keeps (smgrwrite st (st.buffers buf).tag (st.buffers buf).image) _
      exact keeps_release buf
  | flushCopy buf =>
    unfold polarFlushCopyBuffer
    split
    · exact fun _ => id
    next cbuf _ =>
      show Keeps (smgrwrite st (st.buffers buf).tag (st.copyBuffers cbuf).image) _
      exact keeps_freeCopy buf
  | invalidate buf =>
    refine Keeps.trans ?_ (keeps_release buf)
    show Keeps (dropImage st buf) _
    exact keeps_setBuffer buf _ rfl
  | _ => exact keeps_setBuffer _ _ rfl

/-- In every state the pool reaches, each copy buffer is on the free list or is the copy of exactly
one buffer. -/
theorem copy_buffers_partitioned {insertRecPtr : XLogRecPtr} {copyCount : Nat}
    {storage : Page → List XLogRecPtr} (positive : invalidXLogRecPtr < insertRecPtr)
    (run : Run (startState insertRecPtr copyCount storage) st) :
    st.freeCopyBuffers.Nodup ∧ ∀ cbuf < copyCount, cbuf ∉ st.freeCopyBuffers ↔
      ∃ buf, (st.buffers buf).copyBuffer = some cbuf ∧
        (st.copyBuffers cbuf).originBuffer = some buf ∧
        (st.buffers buf).tag ≠ none ∧ (st.buffers buf).oldestLsn ≠ invalidXLogRecPtr ∧
        ∀ other, (st.buffers other).copyBuffer = some cbuf → other = buf := by
  obtain ⟨inv, kept⟩ : Inv st ∧ Keeps (startState insertRecPtr copyCount storage) st := by
    induction run with
    | refl => exact ⟨inv_start positive, fun _ => id⟩
    | tail _ step ih => exact ⟨ih.1.step step, ih.2.trans (ih.1.keeps step)⟩
  refine ⟨inv.pool.nodup, fun cbuf small => ⟨fun used => ?_, ?_⟩⟩
  · obtain ⟨buf, isCopy⟩ := (kept cbuf (.inl (mem_range.mpr small))).resolve_left used
    have sound := inv.sound buf
    have listed : (st.buffers buf).oldestLsn ≠ invalidXLogRecPtr := fun invalid => by
      rw [copyOf, sound.uncopied invalid] at isCopy
      cases isCopy
    refine ⟨buf, isCopy, (inv.pool.paired buf cbuf isCopy).2.2.1,
      fun none => listed (sound.unmapped none), listed, ?_⟩
    intro other shared
    by_contra apart
    exact inv.pool.apart apart isCopy shared
  · rintro ⟨buf, isCopy, -⟩
    exact (inv.pool.paired buf cbuf isCopy).2.1

theorem copy_buffers_partitioned_outdated : 0 ∉ copyOutdated.freeCopyBuffers ∧
    ∃ buf, (copyOutdated.buffers buf).copyBuffer = some 0 := by
  have used : 0 ∉ copyOutdated.freeCopyBuffers := by decide
  obtain ⟨buf, isCopy, -⟩ :=
    ((copy_buffers_partitioned (by decide) run_copy_outdated).2 0 (by decide)).mp used
  exact ⟨used, buf, isCopy⟩

end PolarDB.Buffer.ConsistentLsn
