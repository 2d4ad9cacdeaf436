import Mathlib.Data.UInt
import Mathlib.Tactic.SplitIfs
import PolarDB.Lib.SparseFile

/-!
# Direct I/O

Reads and writes that are not aligned go through an aligned buffer, in three parts: the
section in which the range begins, the sections in between, and the section in which
it ends. The system calls are those of a POSIX file and do not fail; a read is short
only at the end of the file.
-/

namespace PolarDB.Vfs.DirectIO

open List Lib.SparseFile

/-- `PG_IO_ALIGN_SIZE` -/
abbrev ioAlign : Nat := 4096

def alignDown (len : Nat) : Nat := len / ioAlign * ioAlign

/-- The sum is an `off_t` up to `2 ^ 63 - 4096`; no position or end beyond that is meant here. -/
def align (len : Nat) : Nat := (len + (ioAlign - 1)) / ioAlign * ioAlign

def IsAligned (len : Nat) : Prop := len % ioAlign = 0
  deriving Decidable

theorem alignDown_eq (len : Nat) : alignDown len = len / 4096 * 4096 := rfl

theorem align_eq (len : Nat) : align len = (len + 4095) / 4096 * 4096 := rfl

/-- A file with the bytes still to be written and the number of those written. -/
structure Transfer where
  file : File UInt8
  rest : List UInt8
  count : Nat

/-- A section as it is read into a zeroed buffer, with the next `len` bytes from `start` on. -/
def sectionBuffer (off start len : Nat) (transfer : Transfer) : List UInt8 :=
  (List.range ioAlign).map fun idx =>
    if start ≤ idx ∧ idx < start + len then transfer.rest.getD (idx - start) 0
    else (transfer.file.read off ioAlign).getD idx 0

def pwriteSection (off start len : Nat) (transfer : Transfer) : Transfer where
  file := transfer.file.write off (sectionBuffer off start len transfer)
  rest := transfer.rest.drop len
  count := transfer.count + len

/-- The loop over the middle sections, for at most `rounds` rounds. -/
def pwriteMiddle (maxDirectIoSize tailStart : Nat) : Nat → Nat → Transfer → Option Transfer
  | 0, _, _ => none
  | rounds + 1, off, transfer =>
    if off < tailStart then
      let cplen := min (tailStart - off) maxDirectIoSize
      pwriteMiddle maxDirectIoSize tailStart rounds (off + cplen)
        { file := transfer.file.write off (transfer.rest.take cplen)
          rest := transfer.rest.drop cplen
          count := transfer.count + cplen }
    else some transfer

def pwriteHead (offset : Nat) (transfer : Transfer) : Transfer :=
  if alignDown offset < align offset ∧ transfer.rest.length > 0 then
    pwriteSection (alignDown offset) (offset % ioAlign)
      (min transfer.rest.length (ioAlign - offset % ioAlign)) transfer
  else transfer

/-- The last section of a range from `offset` to `ends`. -/
def pwriteTail (offset ends : Nat) (transfer : Transfer) : Transfer :=
  if align offset ≤ alignDown ends ∧ alignDown ends < align ends ∧ transfer.rest.length > 0 then
    pwriteSection (alignDown ends) 0 (min transfer.rest.length (ends % ioAlign)) transfer
  else transfer

/-- The file and the returned count; `address` is that of the source buffer. -/
def polarDirectioPwrite (maxDirectIoSize rounds address : Nat) (buffer : List UInt8) (offset : Nat)
    (file : File UInt8) : Option (File UInt8 × Nat) :=
  let len := buffer.length
  if IsAligned address ∧ IsAligned len ∧ IsAligned offset then some (file.write offset buffer, len)
  else do
    let needTruncate := ¬ IsAligned (offset + len) ∧ file.size < align (offset + len)
    let head := pwriteHead offset { file, rest := buffer, count := 0 }
    let middle ← (if align offset < alignDown (offset + len) ∧ head.rest.length > 0 then
      pwriteMiddle maxDirectIoSize (alignDown (offset + len)) rounds (align offset) head
    else some head)
    let tail := pwriteTail offset (offset + len) middle
    some (if needTruncate then tail.file.truncate (max (offset + len) file.size) else tail.file,
      tail.count)

/-- The file, its position and the returned count. -/
def polarDirectioWrite (maxDirectIoSize rounds address : Nat) (buffer : List UInt8) (position : Nat)
    (file : File UInt8) : Option (File UInt8 × Nat × Nat) :=
  if IsAligned address ∧ IsAligned buffer.length ∧ IsAligned position then
    some (file.write position buffer, position + buffer.length, buffer.length)
  else do
    let (written, res) ← polarDirectioPwrite maxDirectIoSize rounds address buffer position file
    some (written, if res > 0 then position + res else position, res)

/-- The first `done` bytes are written, and the file reaches to the end of their last section. -/
structure Written (file : File UInt8) (offset : Nat) (buffer : List UInt8) (done : Nat)
    (transfer : Transfer) : Prop where
  within : done ≤ buffer.length
  rest : transfer.rest = buffer.drop done
  count : transfer.count = done
  size : transfer.file.size = if done = 0 then file.size else max file.size (align (offset + done))
  bytes : ∀ pos, transfer.file.byteAt pos =
    if offset ≤ pos ∧ pos < offset + done then buffer.getD (pos - offset) 0 else file.byteAt pos

variable {file : File UInt8} {offset done : Nat} {buffer : List UInt8} {transfer : Transfer}

/-- Writing whole bytes `[off, off + count)` that hold the next `len` ones and else the file. -/
theorem Written.write (written : Written file offset buffer done transfer) (off len : Nat)
    (chunk : List UInt8) (positive : 0 < len) (within : done + len ≤ buffer.length)
    (low : off ≤ offset + done) (high : offset + done + len ≤ off + chunk.length)
    (ends : off + chunk.length = align (offset + (done + len)))
    (covers : align (offset + done) ≤ off + chunk.length)
    (bytes : ∀ idx < chunk.length, chunk.getD idx 0 =
      if offset + done ≤ off + idx ∧ off + idx < offset + done + len then transfer.rest.getD
      (off + idx - (offset + done)) 0 else transfer.file.byteAt (off + idx)) :
    Written file offset buffer (done + len)
      { file := transfer.file.write off chunk, rest := transfer.rest.drop len,
        count := transfer.count + len } where
  within := within
  rest := by rw [written.rest, drop_drop]
  count := by rw [written.count]
  size := by
    have size := written.size
    simp only [File.write]
    rw [if_neg (by omega), if_neg (by omega), size, ← ends]
    split_ifs <;> omega
  bytes := by
    intro pos
    have known := written.bytes pos
    by_cases inside : off ≤ pos ∧ pos < off + chunk.length
    · rw [byteAt_write_inside _ inside.1 inside.2, bytes _ (by omega), Nat.add_sub_cancel' inside.1,
        written.rest]
      split_ifs with new whole whole
      · rw [getD_eq_getElem?_getD, List.getElem?_drop, ← getD_eq_getElem?_getD]
        congr 1
        omega
      · omega
      · rw [known, if_pos (by omega)]
      · rw [known, if_neg (by omega)]
    · rw [byteAt_write_outside _ (by omega), known]
      split
      · rw [if_pos (by omega)]
      · rw [if_neg (by omega)]

theorem length_sectionBuffer (off start len : Nat) (transfer : Transfer) :
    (sectionBuffer off start len transfer).length = 4096 := by
  rw [sectionBuffer, length_map, length_range]

theorem getD_sectionBuffer {off start len idx : Nat} (inside : idx < 4096) :
    (sectionBuffer off start len transfer).getD idx 0 =
      if start ≤ idx ∧ idx < start + len then transfer.rest.getD (idx - start) 0
      else transfer.file.byteAt (off + idx) := by
  rw [getD_eq_getElem _ _ (by rw [length_sectionBuffer]; exact inside)]
  simp only [sectionBuffer, getElem_map, getElem_range]
  rw [getD_read _ inside]

theorem Written.section (written : Written file offset buffer done transfer) (off start len : Nat)
    (begins : off + start = offset + done) (aligned : off % 4096 = 0) (positive : 0 < len)
    (fits : start + len ≤ 4096) (within : done + len ≤ buffer.length) :
    Written file offset buffer (done + len) (pwriteSection off start len transfer) := by
  have length := length_sectionBuffer off start len transfer
  apply written.write off len _ positive within (by omega)
  · omega
  · rw [length]
    simp only [align, ioAlign]
    omega
  · rw [length]
    simp only [align, ioAlign]
    omega
  · intro idx inside
    rw [length] at inside
    rw [getD_sectionBuffer inside]
    have shift : idx - start = off + idx - (offset + done) := by omega
    rw [shift]
    split
    · rw [if_pos (by omega)]
    · rw [if_neg (by omega)]

theorem Written.middle {maxDirectIoSize tailStart rounds off : Nat} (positive : 0 < maxDirectIoSize)
    (multiple : maxDirectIoSize % 4096 = 0) (written : Written file offset buffer done transfer)
    (begins : off = offset + done) (aligned : off % 4096 = 0) (tailAligned : tailStart % 4096 = 0)
    (order : off ≤ tailStart) (within : tailStart ≤ offset + buffer.length)
    (enough : tailStart - off < rounds) : ∃ after, pwriteMiddle maxDirectIoSize tailStart rounds off
      transfer = some after ∧ Written file offset buffer (tailStart - offset) after := by
  induction rounds generalizing off done transfer with
  | zero => omega
  | succ _ known =>
    rw [pwriteMiddle]
    split_ifs
    · dsimp only
      generalize isLen : min (tailStart - off) maxDirectIoSize = cplen
      have length : (transfer.rest.take cplen).length = cplen := by
        rw [length_take, written.rest, length_drop]
        omega
      have wrote := written.write off cplen (transfer.rest.take cplen) (by omega) (by omega)
        (by omega)
        (by rw [length]; omega) (by rw [length, align, ioAlign]; omega)
          (by rw [length, align, ioAlign]; omega)
        (fun idx inside => by
          rw [length] at inside
          have shift : idx = off + idx - (offset + done) := by omega
          rw [if_pos (by omega), ← shift, getD_eq_getElem?_getD, List.getElem?_take_of_lt inside,
            ← getD_eq_getElem?_getD])
      exact known wrote (by omega) (by omega) (by omega) (by omega)
    · have same : tailStart - offset = done := by omega
      exact ⟨transfer, rfl, same ▸ written⟩

/-- The file that is truncated where its last section reaches too far. -/
theorem Written.finish (written : Written file offset buffer buffer.length transfer)
    (positive : 0 < buffer.length) :
    (if ¬ IsAligned (offset + buffer.length) ∧ file.size < align (offset + buffer.length) then
      transfer.file.truncate (max (offset + buffer.length) file.size) else transfer.file) =
      file.write offset buffer := by
  have size := written.size
  have bytes := written.bytes
  rw [if_neg (by omega)] at size
  split_ifs with truncates
  · apply File.ext
    · simp only [File.truncate, File.write]
      rw [if_neg (by omega), Nat.max_comm]
    · funext pos
      simp only [File.truncate, File.write]
      rw [bytes pos]
      split
      · rfl
      · next beyond =>
        rw [if_neg (by omega)]
        exact (file.beyond pos (by omega)).symm
  · simp only [IsAligned, align, ioAlign] at size truncates
    apply File.ext
    · simp only [File.write]
      rw [if_neg (by omega), size]
      omega
    · funext pos
      exact bytes pos

theorem Written.head (begun : Written file offset buffer 0 transfer) :
    ∃ done, Written file offset buffer done (pwriteHead offset transfer) ∧
      offset + done = min (align offset) (offset + buffer.length) := by
  have length := congrArg List.length begun.rest
  rw [drop_zero] at length
  have isUp := align_eq offset
  have isDown := alignDown_eq offset
  unfold pwriteHead
  split_ifs with inside
  · exact ⟨_, begun.section (alignDown offset) (offset % 4096)
      (min transfer.rest.length (4096 - offset % 4096)) (by omega)
      (by omega) (by omega) (by omega) (by omega), by omega⟩
  · exact ⟨0, begun, by omega⟩

theorem Written.tail (written : Written file offset buffer done transfer)
    (ends : offset + done = max (min (align offset) (offset + buffer.length))
      (alignDown (offset + buffer.length))) : Written file offset buffer buffer.length
    (pwriteTail offset (offset + buffer.length) transfer) := by
  have length := congrArg List.length written.rest
  rw [length_drop] at length
  have isUp := align_eq offset
  have isDown := alignDown_eq (offset + buffer.length)
  have isEnd := align_eq (offset + buffer.length)
  unfold pwriteTail
  split_ifs with last
  · have wrote := written.section (alignDown (offset + buffer.length)) 0
      (min transfer.rest.length ((offset + buffer.length) % 4096)) (by omega) (by omega) (by omega)
      (by omega) (by omega)
    have whole : done + min transfer.rest.length ((offset + buffer.length) % 4096) =
      buffer.length := by omega
    rw [whole] at wrote
    exact wrote
  · have whole : done = buffer.length := by omega
    exact whole ▸ written

section
variable {maxDirectIoSize rounds : Nat} (positive : 0 < maxDirectIoSize)
  (multiple : IsAligned maxDirectIoSize)
  (someByte : 1 ≤ buffer.length) (enough : buffer.length < rounds)
include positive multiple someByte enough

theorem pwrite_eq (address offset : Nat) (file : File UInt8) :
    polarDirectioPwrite maxDirectIoSize rounds address buffer offset file =
      some (file.write offset buffer, buffer.length) := by
  unfold polarDirectioPwrite
  dsimp only
  split
  · rfl
  have begun : Written file offset buffer 0 { file, rest := buffer, count := 0 } :=
    ⟨Nat.zero_le _, rfl, rfl, rfl, fun pos => (if_neg (by omega)).symm⟩
  obtain ⟨headDone, wroteHead, _⟩ := begun.head
  have headRest := congrArg List.length wroteHead.rest
  rw [length_drop] at headRest
  generalize pwriteHead offset _ = head at *
  have isUp := align_eq offset
  have isDown := alignDown_eq (offset + buffer.length)
  obtain ⟨middle, isMiddle, middleDone, wroteMiddle, middleEnd⟩ : ∃ middle,
      (if align offset < alignDown (offset + buffer.length) ∧ head.rest.length > 0 then
        pwriteMiddle maxDirectIoSize (alignDown (offset + buffer.length)) rounds (align offset) head
      else some head) = some middle ∧ ∃ middleDone, Written file offset buffer middleDone middle ∧
      offset + middleDone = max (min (align offset) (offset + buffer.length))
      (alignDown (offset + buffer.length)) := by
    by_cases more : align offset < alignDown (offset + buffer.length)
    · obtain ⟨after, called, wrote⟩ := wroteHead.middle positive multiple
        (show align offset = offset + headDone by omega) (by omega) (by omega) more.le (by omega)
        (show alignDown (offset + buffer.length) - align offset < rounds by omega)
      rw [if_pos ⟨more, by omega⟩]
      exact ⟨after, called, _, wrote, by omega⟩
    · rw [if_neg (fun both => more both.1)]
      exact ⟨head, rfl, headDone, wroteHead, by omega⟩
  have wroteTail := wroteMiddle.tail middleEnd
  rw [isMiddle, Option.bind_eq_bind, Option.bind_some, wroteTail.finish someByte, wroteTail.count]

/-- A write through aligned buffers is the write of a POSIX file. -/
theorem directio_write_eq (address offset : Nat) (file : File UInt8) :
    polarDirectioPwrite maxDirectIoSize rounds address buffer offset file =
        some (file.write offset buffer, buffer.length) ∧
      polarDirectioWrite maxDirectIoSize rounds address buffer offset file =
        some (file.write offset buffer, offset + buffer.length, buffer.length) := by
  have called := pwrite_eq positive multiple someByte enough address offset file
  refine ⟨called, ?_⟩
  unfold polarDirectioWrite
  split_ifs with aligned
  · rfl
  · rw [called, Option.bind_eq_bind, Option.bind_some]
    dsimp only
    rw [if_pos (Nat.zero_lt_one.trans_le someByte)]

end

theorem byte_written :
    polarDirectioPwrite 4096 2 1 [7] 3 .empty = some (File.empty.write 3 [7], 1) ∧
    polarDirectioWrite 4096 2 1 [7] 3 .empty = some (File.empty.write 3 [7], 4, 1) :=
  directio_write_eq (by decide) (by decide) (by decide) (by decide) 1 3 .empty

/-- The loop over the middle sections, which appends to what is `stored` in the destination. -/
def preadMiddle (maxDirectIoSize tailStart len : Nat) (file : File UInt8) : Nat → Nat → List UInt8 →
    Option (List UInt8)
  | 0, _, _ => none
  | rounds + 1, off, stored =>
    if off < tailStart then
      let cplen := min (tailStart - off) maxDirectIoSize
      let buf := file.read off cplen
      let res := min (len - stored.length) buf.length
      if res < cplen then some (stored ++ buf.take res)
      else preadMiddle maxDirectIoSize tailStart len file rounds (off + res)
        (stored ++ buf.take res)
    else some stored

/-- What the first section adds, or nothing if the call returns there. -/
def preadHead (len offset : Nat) (file : File UInt8) : Option (List UInt8) :=
  if alignDown offset < align offset ∧ len > 0 then
    let buf := file.read (alignDown offset) ioAlign
    if buf.length ≤ offset % ioAlign then none
    else some ((buf.drop (offset % ioAlign)).take
      (min len (min (buf.length - offset % ioAlign) len)))
  else some []

def preadTail (len offset : Nat) (file : File UInt8) (stored : List UInt8) : List UInt8 :=
  if align offset ≤ alignDown (offset + len) ∧ alignDown (offset + len) < align (offset + len) ∧
      len - stored.length > 0 then
    let buf := file.read (alignDown (offset + len)) ioAlign
    stored ++ buf.take (min (len - stored.length) (min buf.length ((offset + len) % ioAlign)))
  else stored

/-- The bytes that are stored at the start of the destination, whose address is `address`. -/
def preadBytes (maxDirectIoSize rounds address len offset : Nat) (file : File UInt8) :
    Option (List UInt8) :=
  if IsAligned address ∧ IsAligned len ∧ IsAligned offset then some (file.read offset len)
  else match preadHead len offset file with
    | none => some []
    | some head => do
      let middle ← (if align offset < alignDown (offset + len) ∧ len - head.length > 0 then
        preadMiddle maxDirectIoSize (alignDown (offset + len)) len file rounds (align offset) head
      else some head)
      some (preadTail len offset file middle)

/-- The destination and the returned count. -/
def polarDirectioPread (maxDirectIoSize rounds address len offset : Nat) (dest : List UInt8)
    (file : File UInt8) : Option (List UInt8 × Nat) := do
  let stored ← preadBytes maxDirectIoSize rounds address len offset file
  some (stored ++ dest.drop stored.length, stored.length)

/-- The destination, the position of the file and the returned count. -/
def polarDirectioRead (maxDirectIoSize rounds address len position : Nat) (dest : List UInt8)
    (file : File UInt8) : Option (List UInt8 × Nat × Nat) :=
  if IsAligned address ∧ IsAligned len ∧ IsAligned position then
    let stored := file.read position len
    some (stored ++ dest.drop stored.length, position + stored.length, stored.length)
  else do
    let (after, res) ← polarDirectioPread maxDirectIoSize rounds address len position dest file
    some (after, if res > 0 then position + res else position, res)

section
variable {maxDirectIoSize rounds len : Nat}

theorem pread_middle_eq {tailStart off : Nat} {stored : List UInt8} (positive : 0 < maxDirectIoSize)
    (reached : stored = file.read offset (off - offset)) (low : offset ≤ off)
    (order : off ≤ tailStart) (within : tailStart ≤ offset + len)
    (enough : tailStart - off < rounds) :
    preadMiddle maxDirectIoSize tailStart len file rounds off stored =
    some (file.read offset (tailStart - offset)) := by
  induction rounds generalizing off stored with
  | zero => omega
  | succ _ known =>
    rw [preadMiddle]
    split_ifs
    · dsimp only
      generalize isLen : min (tailStart - off) maxDirectIoSize = cplen
      have length : stored.length = min (off - offset) (file.size - offset) := by
        rw [reached, length_read]
      have whole : min (len - stored.length) (file.read off cplen).length =
        (file.read off cplen).length := by
        rw [length_read]
        omega
      have after : stored ++ file.read off cplen = file.read offset (off - offset + cplen) := by
        rw [read_add, reached, Nat.add_sub_cancel' low]
      rw [whole, take_length, after, length_read]
      split_ifs with short
      · exact congrArg some (read_congr file (by omega))
      · rw [show min cplen (file.size - off) = cplen by omega]
        apply known
        · rw [Nat.sub_add_comm low]
        all_goals omega
    · rw [reached, show off = tailStart by omega]

/-- Without a first section, nothing lies before the next one. -/
theorem pread_head_cases (len offset : Nat) (file : File UInt8) :
    preadHead len offset file = none ∧ file.size ≤ offset ∨
      preadHead len offset file = some (file.read offset (min len (align offset - offset))) := by
  have isUp := align_eq offset
  have isDown := alignDown_eq offset
  unfold preadHead
  dsimp only [ioAlign]
  rw [length_read, drop_read]
  split_ifs with inside short
  · exact .inl ⟨rfl, by omega⟩
  · rw [take_read _ (by omega), show alignDown offset + offset % 4096 = offset by omega]
    exact .inr (congrArg some (read_congr file (by omega)))
  · rw [show min len (align offset - offset) = 0 by omega]
    simp [File.read]

theorem pread_tail_eq {done : Nat}
    (reached : offset + done = max (min (align offset) (offset + len)) (alignDown (offset + len))) :
    preadTail len offset file (file.read offset done) = file.read offset len := by
  have isUp := align_eq offset
  have isDown := alignDown_eq (offset + len)
  have isEnd := align_eq (offset + len)
  unfold preadTail
  dsimp only [ioAlign]
  rw [length_read, length_read]
  split_ifs with last
  · have rest : file.read offset len = file.read offset done ++ file.read (offset + done)
      (len - done) := by
      rw [← read_add, Nat.add_sub_cancel' (by omega)]
    rw [take_read _ (by omega), rest, show alignDown (offset + len) = offset + done by omega]
    exact congrArg _ (read_congr file (by omega))
  · exact read_congr file (by omega)

theorem pread_bytes_eq (positive : 0 < maxDirectIoSize) (enough : len < rounds)
    (address offset : Nat) (file : File UInt8) :
    preadBytes maxDirectIoSize rounds address len offset file = some (file.read offset len) := by
  have isUp := align_eq offset
  have isDown := alignDown_eq (offset + len)
  unfold preadBytes
  split_ifs with aligned
  · rfl
  rcases pread_head_cases len offset file with ⟨head, _⟩ | head
  · rw [head, read_congr file
      (show min len (file.size - offset) = min 0 (file.size - offset) by omega)]
    simp [File.read]
  rw [head]
  dsimp only
  rw [length_read]
  by_cases more : align offset < alignDown (offset + len)
  · rw [if_pos (by omega),
      pread_middle_eq positive (congrArg _ (by omega)) (by omega) more.le (by omega) (by omega)]
    exact congrArg some (pread_tail_eq (by omega))
  · rw [if_neg (by omega)]
    exact congrArg some (pread_tail_eq (by omega))

/-- A read through aligned buffers is the read of a POSIX file. -/
theorem directio_read_eq (positive : 0 < maxDirectIoSize) (enough : len < rounds)
    (address offset : Nat) (dest : List UInt8) (file : File UInt8) :
    polarDirectioPread maxDirectIoSize rounds address len offset dest file =
        some (file.read offset len ++ dest.drop (min len (file.size - offset)),
          min len (file.size - offset)) ∧
      polarDirectioRead maxDirectIoSize rounds address len offset dest file =
        some (file.read offset len ++ dest.drop (min len (file.size - offset)),
          offset + min len (file.size - offset), min len (file.size - offset)) := by
  have called : polarDirectioPread maxDirectIoSize rounds address len offset dest file =
      some (file.read offset len ++ dest.drop (min len (file.size - offset)),
        min len (file.size - offset)) := by
    rw [polarDirectioPread, pread_bytes_eq positive enough, Option.bind_eq_bind, Option.bind_some,
      length_read]
  refine ⟨called, ?_⟩
  unfold polarDirectioRead
  dsimp only
  rw [length_read, called]
  split_ifs with aligned
  · rfl
  · rw [Option.bind_eq_bind, Option.bind_some]
    split_ifs with some
    · rfl
    · rw [show min len (file.size - offset) = 0 by omega]
      rfl

end

theorem byte_read :
    polarDirectioPread 4096 3 1 2 3 [5, 6, 7] (File.empty.write 3 [7]) = some ([7, 6, 7], 1) ∧
    polarDirectioRead 4096 3 1 2 3 [5, 6, 7] (File.empty.write 3 [7]) = some ([7, 6, 7], 4, 1) :=
  directio_read_eq (by decide) (by decide) 1 3 [5, 6, 7] _

end PolarDB.Vfs.DirectIO
