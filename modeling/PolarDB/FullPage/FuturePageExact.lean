import PolarDB.FullPage.FuturePage

/-!
# A future page is restored

Every image is a version of the page, the result of a front part of its records.
An image that was saved from storage may lie beyond the replay position, but then
the entry before it does too, so the first entry at or after the replay position
refers to an image the replica may start from.
-/

namespace PolarDB.FullPage.FuturePage

open List Lib.Snoc FullPage.Snapshot

variable {Content : Type} {records : List (WalRecord Content)} {empty page : PageImage Content}
  {replayed : Nat}

def Ordered (records : List (WalRecord Content)) : Prop :=
  records.Pairwise (fun early late => early.endLsn ≤ late.lsn) ∧ ∀ record ∈ records, record.lsn <
  record.endLsn

def IsVersion (records : List (WalRecord Content)) (empty page : PageImage Content) : Prop :=
  ∃ front back, records = front ++ back ∧ page = front.foldl applyRecord empty

theorem IsVersion.append (version : IsVersion records empty page) (record : WalRecord Content) :
    IsVersion (records ++ [record]) empty page := by
  obtain ⟨front, back, whole, isPage⟩ := version
  exact ⟨front, back ++ [record], by rw [whole, append_assoc], isPage⟩

theorem isVersion_last (records : List (WalRecord Content)) (empty : PageImage Content) :
    IsVersion records empty (records.foldl applyRecord empty) :=
  ⟨records, [], (append_nil records).symm, rfl⟩

theorem version_between {front back : List (WalRecord Content)} (ordered : Ordered (front ++ back))
    (start : ∀ record ∈ back, front = [] → empty.lsn ≤ record.lsn) :
    (∀ record ∈ front, record.endLsn ≤ (front.foldl applyRecord empty).lsn) ∧
      ∀ record ∈ back, (front.foldl applyRecord empty).lsn ≤ record.lsn := by
  rcases eq_nil_or_concat front with isNil | ⟨earlier, last, isFront⟩
  · rw [isNil, foldl_nil]
    exact ⟨nofun, fun record mem => start record mem isNil⟩
  rw [concat_eq_append] at isFront
  have isLsn : (front.foldl applyRecord empty).lsn = last.endLsn := by
    rw [isFront, foldl_append]
    rfl
  have lastIn : last ∈ front := by
    rw [isFront]
    exact mem_concat_self
  have parts := pairwise_append.mp ordered.1
  rw [isLsn]
  constructor
  · have inFront := parts.1
    have grows := ordered.2 last (mem_append_left _ lastIn)
    rw [isFront] at inFront ⊢
    refine forall_mem_snoc.mpr ⟨fun record early => ?_, Nat.le_refl _⟩
    have before := (pairwise_snoc.mp inFront).2 record early
    omega
  · exact parts.2.2 last lastIn

/-- The records from `low` on are those behind the front. -/
theorem filter_between {front back : List (WalRecord Content)} {low upTo : Nat}
    (before : ∀ record ∈ front, record.lsn < low) (behind : ∀ record ∈ back, low ≤ record.lsn) :
    ((front ++ back).filter fun record => low ≤ record.lsn ∧ record.lsn < upTo) =
      back.filter fun record => record.lsn < upTo := by
  rw [filter_append, filter_eq_nil_iff.mpr, nil_append]
  · apply filter_congr
    intro record mem
    simp [behind record mem]
  · intro record mem
    have early := before record mem
    simp only [decide_eq_true_eq]
    omega

theorem filter_below (ordered : Ordered records) (bound : Nat) :
    ∃ back, records = (records.filter fun record => record.lsn < bound) ++ back ∧
      ∀ record ∈ back, bound ≤ record.lsn := by
  induction records with
  | nil => exact ⟨[], rfl, nofun⟩
  | cons first rest known =>
    have tail : Ordered rest :=
      ⟨(pairwise_cons.mp ordered.1).2, fun record mem => ordered.2 record (mem_cons_of_mem _ mem)⟩
    by_cases below : first.lsn < bound
    · obtain ⟨back, whole, above⟩ := known tail
      refine ⟨back, ?_, above⟩
      rw [filter_cons, if_pos (decide_eq_true below), cons_append, ← whole]
    have large : ∀ record ∈ first :: rest, bound ≤ record.lsn := by
      refine forall_mem_cons.mpr ⟨Nat.le_of_not_lt below, fun record later => ?_⟩
      have after := (pairwise_cons.mp ordered.1).1 record later
      have grows := ordered.2 first mem_cons_self
      omega
    refine ⟨first :: rest, ?_, large⟩
    have none_below : ((first :: rest).filter fun record => record.lsn < bound) = [] := by
      apply filter_eq_nil_iff.mpr
      intro record mem
      simp only [decide_eq_true_eq]
      exact Nat.not_lt_of_le (large record mem)
    rw [none_below, nil_append]

/-- Replay from a version that is not beyond the replay position gives the page at that position. -/
theorem replay_from_version (ordered : Ordered records) (start : empty.lsn = 0)
    (version : IsVersion records empty page) (reached : page.lsn ≤ replayed) :
    polarLogindexApplyPage records page.lsn replayed page = replayAll records empty replayed := by
  obtain ⟨front, back, whole, isPage⟩ := version
  rw [whole] at ordered
  have between := version_between ordered fun _ _ _ => start ▸ Nat.zero_le _
  rw [← isPage] at between
  have before : ∀ record ∈ front, record.lsn < page.lsn := fun record mem =>
    Nat.lt_of_lt_of_le (ordered.2 record (mem_append_left _ mem)) (between.1 record mem)
  have fromFront : (front.filter fun record => record.lsn < replayed) = front := by
    apply filter_eq_self.mpr
    intro record mem
    exact decide_eq_true (Nat.lt_of_lt_of_le (before record mem) reached)
  have all : replayAll records empty replayed =
      (back.filter fun record => record.lsn < replayed).foldl applyRecord page := by
    rw [replayAll, whole, filter_append, fromFront, foldl_append, ← isPage]
  rw [polarLogindexApplyPage, Nat.max_self, all]
  split_ifs with nothing
  · -- the version is the page at the replay position
    have noMore : (back.filter fun record => record.lsn < replayed) = [] := by
      apply filter_eq_nil_iff.mpr
      intro record mem
      have behind := between.2 record mem
      simp only [decide_eq_true_eq]
      omega
    rw [noMore, foldl_nil]
  · rw [whole, filter_between before between.2]

/-- The image may be replayed from, or the last of the entries lies behind it. -/
def Near (replayed : Nat) (entries : List Entry) (page : PageImage Content) : Prop :=
  page.lsn ≤ replayed ∨ ∃ entry, entries.getLast? = some entry ∧ page.lsn ≤ entry.lsn

structure Inv (replayed : Nat) (content : Content) (primary : Primary Content) : Prop where
  ordered : Ordered primary.records
  inserted : ∀ record ∈ primary.records, record.endLsn ≤ primary.insertLsn
  buffer : primary.buffer = primary.records.foldl applyRecord (emptyPage content)
  copy : ∀ copy, primary.copyBuffer = some copy → IsVersion primary.records (emptyPage content) copy
  stored : IsVersion primary.records (emptyPage content) primary.stored
  near : Near replayed primary.entries primary.stored
  numbers : ∀ entry ∈ primary.entries, entry.fullpageNo < primary.ctl.maxFullpageNo
  positions : primary.entries.Pairwise fun early late => early.lsn < late.lsn
  logged : ∀ entry ∈ primary.entries, entry.lsn < primary.insertLsn
  saved : ∀ front entry back, primary.entries = front ++ entry :: back →
    ∃ image, primary.fullpageFile entry.fullpageNo = some image ∧
      IsVersion primary.records (emptyPage content) image ∧ Near replayed front image

variable {content : Content} {primary next : Primary Content}

theorem inv_start (insertLsn : Nat) (ctl : FullpageCtl)
    (fullpageFile : Nat → Option (PageImage Content)) :
    Inv replayed content (startPrimary content insertLsn ctl fullpageFile) := by
  constructor
  · exact ⟨List.Pairwise.nil, nofun⟩
  · exact nofun
  · rfl
  · exact fun _ isSome => nomatch isSome
  · exact isVersion_last [] _
  · exact .inl (Nat.zero_le _)
  · exact nofun
  · exact List.Pairwise.nil
  · exact nofun
  · intro _ _ _ whole
    exact absurd whole.symm (append_ne_nil_of_right_ne_nil _ (cons_ne_nil _ _))

section
variable (inv : Inv replayed content primary)
include inv

theorem Inv.buffer_version : IsVersion primary.records (emptyPage content) primary.buffer := by
  rw [inv.buffer]
  exact isVersion_last _ _

theorem Inv.buffer_lsn : primary.buffer.lsn ≤ primary.insertLsn := by
  rw [inv.buffer]
  rcases eq_nil_or_concat primary.records with isNil | ⟨earlier, last, whole⟩
  · rw [isNil]
    exact Nat.zero_le _
  · have lastIn : last ∈ primary.records := by
      rw [whole, concat_eq_append]
      exact mem_concat_self
    rw [whole, concat_eq_append, foldl_append]
    exact inv.inserted last lastIn

theorem Inv.modify {record : WalRecord Content}
    (after : primary.insertLsn ≤ record.lsn) (positive : record.lsn < record.endLsn) :
    Inv replayed content { primary with
      records := primary.records ++ [record]
      insertLsn := record.endLsn
      buffer := applyRecord primary.buffer record } := by
  have grows : primary.insertLsn ≤ record.endLsn := by omega
  constructor
  · constructor
    · exact pairwise_snoc.mpr ⟨inv.ordered.1,
        fun early mem => Nat.le_trans (inv.inserted early mem) after⟩
    · exact forall_mem_snoc.mpr ⟨inv.ordered.2, positive⟩
  · exact forall_mem_snoc.mpr ⟨fun other before => Nat.le_trans (inv.inserted other before) grows,
      Nat.le_refl _⟩
  · rw [foldl_append, ← inv.buffer]
    rfl
  · exact fun copy present => (inv.copy copy present).append record
  · exact inv.stored.append record
  · exact inv.near
  · exact inv.numbers
  · exact inv.positions
  · exact fun entry mem => Nat.lt_of_lt_of_le (inv.logged entry mem) grows
  · intro front entry back whole
    obtain ⟨image, isSaved, version, near⟩ := inv.saved front entry back whole
    exact ⟨image, isSaved, version.append record, near⟩

theorem Inv.store {page : PageImage Content}
    (version : IsVersion primary.records (emptyPage content) page)
    (near : Near replayed primary.entries page) :
    Inv replayed content { primary with stored := page, copyBuffer := none } :=
  { inv with copy := nofun, stored := version, near := near }

theorem Inv.old_image {oldestApplyLsn : Nat} (applied : oldestApplyLsn ≤ replayed) :
    IsVersion primary.records (emptyPage content) (oldImage primary oldestApplyLsn) ∧
      Near replayed primary.entries (oldImage primary oldestApplyLsn) := by
  unfold oldImage
  cases present : primary.copyBuffer with
  | none => exact ⟨inv.stored, inv.near⟩
  | some copy =>
    dsimp only
    split_ifs with flushable
    · exact ⟨inv.copy copy present, .inl (Nat.le_trans flushable applied)⟩
    · exact ⟨inv.stored, inv.near⟩

theorem Inv.snapshot {oldestApplyLsn lsn size : Nat}
    (applied : oldestApplyLsn ≤ replayed) (after : primary.insertLsn ≤ lsn) (positive : 0 < size) :
    Inv replayed content
    (smgrwrite (polarLogFullpageSnapshotImage primary oldestApplyLsn lsn size)) := by
  have old := inv.old_image applied
  constructor
  · exact inv.ordered
  · exact fun record mem => Nat.le_trans (inv.inserted record mem) (Nat.le_add_right_of_le after)
  · exact inv.buffer
  · exact nofun
  · exact inv.buffer_version
  · right
    refine ⟨{ lsn := lsn, fullpageNo := primary.ctl.maxFullpageNo }, List.getLast?_concat, ?_⟩
    exact Nat.le_trans inv.buffer_lsn after
  · exact forall_mem_snoc.mpr ⟨fun entry before => Nat.lt_succ_of_lt (inv.numbers entry before),
      Nat.lt_succ_self _⟩
  · refine pairwise_snoc.mpr ⟨inv.positions, fun early mem => ?_⟩
    exact Nat.lt_of_lt_of_le (inv.logged early mem) after
  · refine forall_mem_snoc.mpr ⟨fun entry before => ?_, Nat.lt_add_of_pos_right positive⟩
    exact Nat.lt_of_lt_of_le (inv.logged entry before) (Nat.le_add_right_of_le after)
  · intro front entry back whole
    change ∃ image, Function.update primary.fullpageFile primary.ctl.maxFullpageNo _
      entry.fullpageNo = some image ∧ _
    rcases eq_nil_or_concat back with isNil | ⟨shorter, last, isBack⟩
    · rw [isNil] at whole
      have isFront : primary.entries = front := append_inj_left' whole rfl
      have isEntry := singleton_inj.mp (append_inj_right' whole rfl)
      refine ⟨oldImage primary oldestApplyLsn, ?_, old.1, isFront ▸ old.2⟩
      rw [← isEntry]
      exact Function.update_self _ _ _
    · rw [isBack, concat_eq_append, ← cons_append, ← append_assoc] at whole
      have parts : primary.entries = front ++ entry :: shorter := append_inj_left' whole rfl
      have inEntries : entry ∈ primary.entries := by
        rw [parts]
        exact mem_append_right _ mem_cons_self
      obtain ⟨image, isSaved, version, near⟩ := inv.saved front entry shorter parts
      refine ⟨image, ?_, version, near⟩
      rw [Function.update_of_ne (Nat.ne_of_lt (inv.numbers entry inEntries))]
      exact isSaved

theorem Inv.step (step : Step replayed primary next) : Inv replayed content next := by
  cases step with
  | modify _ after positive => exact inv.modify after positive
  | copy =>
    refine { inv with copy := ?_ }
    intro copy isCopy
    rw [← Option.some.inj isCopy]
    exact inv.buffer_version
  | freeCopy =>
    exact { inv with copy := nofun }
  | flushCopy copy present oldestApplyLsn applied flushable =>
    exact inv.store (inv.copy copy present) (.inl (Nat.le_trans flushable applied))
  | flush _ _ _ applied after positive =>
    unfold flushBuffer
    split_ifs with future
    · exact inv.snapshot applied after positive
    · exact inv.store inv.buffer_version (.inl (Nat.le_trans (Nat.le_of_not_lt future) applied))

end

theorem Inv.run {start : Primary Content} (inv : Inv replayed content start)
    (run : Run replayed start primary) : Inv replayed content primary := by
  induction run with
  | refl => exact inv
  | tail _ step before => exact before.step step

/-- The first entry found is the one with the smallest LSN at or after the replay position. -/
theorem firstEntry_split {entries : List Entry} {entry : Entry}
    (found : firstEntry entries replayed = some entry) : ∃ front back, entries = front ++ entry ::
      back ∧ replayed ≤ entry.lsn ∧ ∀ earlier ∈ front, earlier.lsn < replayed := by
  obtain ⟨here, front, back, whole, before⟩ := List.find?_eq_some_iff_append.mp found
  refine ⟨front, back, whole, of_decide_eq_true here, ?_⟩
  intro earlier mem
  simpa using before earlier mem

/--
Whenever the stored page lies beyond the replay position of a replica, the first
entry at or after that position exists, its image does not lie beyond the replay
position, and replay from there gives the page at the replay position.
-/
theorem future_page_restored {replayed insertLsn : Nat} {content : Content} {ctl : FullpageCtl}
    {fullpageFile : Nat → Option (PageImage Content)} {primary : Primary Content}
    (run : Run replayed (startPrimary content insertLsn ctl fullpageFile) primary)
    (future : replayed < primary.stored.lsn) :
    ∃ entry image, firstEntry primary.entries replayed = some entry ∧
      (∀ other ∈ primary.entries, replayed ≤ other.lsn → entry.lsn ≤ other.lsn) ∧
      primary.fullpageFile entry.fullpageNo = some image ∧ image.lsn ≤ replayed ∧
      polarLogindexApplyPage primary.records image.lsn replayed image =
        replayAll primary.records (emptyPage content) replayed := by
  have inv := (inv_start insertLsn ctl fullpageFile).run run
  -- the stored page was saved against, so the last entry lies behind it
  obtain ⟨last, isLast, behind⟩ : ∃ entry, primary.entries.getLast? = some entry ∧
    primary.stored.lsn ≤ entry.lsn := by
    rcases inv.near with reached | behind
    · omega
    · exact behind
  have isThere : (firstEntry primary.entries replayed).isSome = true := by
    apply List.find?_isSome.mpr
    exact ⟨last, mem_of_getLast? isLast, decide_eq_true (show replayed ≤ last.lsn by omega)⟩
  obtain ⟨entry, found⟩ := Option.isSome_iff_exists.mp isThere
  obtain ⟨front, back, whole, _, before⟩ := firstEntry_split found
  obtain ⟨image, isSaved, version, near⟩ := inv.saved front entry back whole
  have reached : image.lsn ≤ replayed := by
    rcases near with reached | ⟨previous, isPrevious, small⟩
    · exact reached
    · have early := before previous (mem_of_getLast? isPrevious)
      omega
  refine ⟨entry, image, found, ?_, isSaved, reached,
    replay_from_version inv.ordered rfl version reached⟩
  intro other mem _
  have sorted := inv.positions
  rw [whole] at mem sorted
  rcases mem_append.mp mem with early | late
  · have small := before other early
    omega
  · rcases mem_cons.mp late with isEntry | later
    · exact Nat.le_of_eq (by rw [isEntry])
    · exact Nat.le_of_lt (rel_of_pairwise_cons (pairwise_append.mp sorted).2.1 later)

/-- A page that was written twice beyond the replay position is restored from the first of two
images. -/
theorem twice_written_page_restored : ∃ primary : Primary Nat,
    Run 20 (startPrimary 0 1 polarFullpageShmemInit fun _ => none) primary ∧
    primary.stored.lsn = 70 ∧ primary.entries.length = 2 ∧ ∃ entry image,
      firstEntry primary.entries 20 = some entry ∧
      primary.fullpageFile entry.fullpageNo = some image ∧
      polarLogindexApplyPage primary.records image.lsn 20 image =
        replayAll primary.records (emptyPage 0) 20 := by
  have started : Run 20 (startPrimary 0 1 polarFullpageShmemInit fun _ => none : Primary Nat) _ :=
    .refl _
  have first := started.tail (.modify { lsn := 10, endLsn := 20, redo := fun value => value + 1 }
    (by decide) (by decide))
  have plain := first.tail (.flush 20 30 5 (by decide) (by decide) (by decide))
  have second := plain.tail (.modify { lsn := 30, endLsn := 40, redo := fun value => value * 5 }
    (by decide) (by decide))
  have saved := second.tail (.flush 20 50 5 (by decide) (by decide) (by decide))
  have third := saved.tail (.modify { lsn := 60, endLsn := 70, redo := fun value => value + 3 }
    (by decide) (by decide))
  have again := third.tail (.flush 20 80 5 (by decide) (by decide) (by decide))
  obtain ⟨entry, image, found, -, isSaved, -, same⟩ := future_page_restored again (by decide)
  exact ⟨_, again, rfl, rfl, entry, image, found, isSaved, same⟩

end PolarDB.FullPage.FuturePage
