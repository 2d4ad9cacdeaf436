import Mathlib.Data.List.Nodup

/-!
# Tables of entries with a unique key

A hash table is a list of entries, at most one for each key. Views of the table
are its filtered and mapped forms; the lemmas say how modifying or removing one
entry changes a view.
-/

namespace PolarDB.Lib.Keyed

open List

variable {Entry Key Value : Type*} [DecidableEq Key]

def lookup (key : Entry → Key) (id : Key) (table : List Entry) : Option Entry :=
  table.find? fun entry => key entry = id

def modify (key : Entry → Key) (id : Key) (change : Entry → Entry) (table : List Entry) :
    List Entry :=
  table.map fun entry => if key entry = id then change entry else entry

def remove (key : Entry → Key) (id : Key) (table : List Entry) : List Entry :=
  table.filter fun entry => key entry ≠ id

variable {key : Entry → Key} {id : Key} {change : Entry → Entry} {table : List Entry}
  {entry : Entry}

theorem lookup_some (found : lookup key id table = some entry) : entry ∈ table ∧ key entry = id :=
  ⟨mem_of_find?_eq_some found, by simpa using List.find?_some found⟩

theorem lookup_eq_none : lookup key id table = none ↔ ∀ entry ∈ table, key entry ≠ id := by
  unfold lookup
  simp

theorem lookup_of_mem (unique : (table.map key).Nodup) (mem : entry ∈ table) :
    lookup key (key entry) table = some entry := by
  induction table with
  | nil => cases mem
  | cons first _ ih =>
    rw [map_cons, nodup_cons] at unique
    unfold lookup
    rcases mem_cons.mp mem with same | later
    · subst same
      rw [List.find?_cons_of_pos (by simp)]
    · have apart : key first ≠ key entry := by
        intro same
        exact unique.1 (mem_map.mpr ⟨entry, later, same.symm⟩)
      rw [List.find?_cons_of_neg (by simpa using apart)]
      exact ih unique.2 later

theorem eq_of_key {other : Entry} (unique : (table.map key).Nodup) (mem : entry ∈ table)
    (otherMember : other ∈ table) (same : key entry = key other) : entry = other := by
  have found := lookup_of_mem unique mem
  rw [same, lookup_of_mem unique otherMember] at found
  exact (Option.some.inj found).symm

theorem modify_modify {again : Entry → Entry} (keeps : ∀ entry, key (change entry) = key entry) :
    modify key id again (modify key id change table) = modify key id
    (fun entry => again (change entry)) table := by
  unfold modify
  rw [map_map]
  apply map_congr_left
  intro entry _
  by_cases same : key entry = id
  · simp [same, keeps]
  · simp [same]

theorem mem_remove : entry ∈ remove key id table ↔ entry ∈ table ∧ key entry ≠ id := by
  simp [remove]

theorem map_modify {view : Entry → Value}
    (kept : ∀ entry ∈ table, key entry = id → view (change entry) = view entry) :
    (modify key id change table).map view = table.map view := by
  unfold modify
  rw [map_map]
  apply map_congr_left
  intro entry mem
  by_cases same : key entry = id
  · simp [same, kept entry mem same]
  · simp [same]

theorem mem_modify : entry ∈ modify key id change table ↔
    (∃ old ∈ table, key old = id ∧ entry = change old) ∨ (entry ∈ table ∧ key entry ≠ id) := by
  unfold modify
  rw [mem_map]
  constructor
  · rintro ⟨old, mem, res⟩
    split_ifs at res with same
    · exact .inl ⟨old, mem, same, res.symm⟩
    · subst res
      exact .inr ⟨mem, same⟩
  · rintro (⟨old, mem, same, res⟩ | ⟨mem, apart⟩)
    · exact ⟨old, mem, by rw [if_pos same, res]⟩
    · exact ⟨entry, mem, by rw [if_neg apart]⟩

theorem remove_of_absent (absent : ∀ entry ∈ table, key entry ≠ id) :
    remove key id table = table := by
  unfold remove
  rw [filter_eq_self]
  intro entry mem
  simpa using absent entry mem

omit [DecidableEq Key] in
theorem nodup_snoc (unique : (table.map key).Nodup)
    (fresh : ∀ other ∈ table, key other ≠ key entry) : ((table ++ [entry]).map key).Nodup := by
  rw [map_append, nodup_append]
  refine ⟨unique, by simp, ?_⟩
  rintro _ mem _ isNew rfl
  rw [map_singleton, mem_singleton] at isNew
  rcases mem_map.mp mem with ⟨other, inside, same⟩
  exact fresh other inside (same.trans isNew)

theorem remove_head (unique : ((entry :: table).map key).Nodup) : remove key (key entry)
    (entry :: table) = table := by
  rw [map_cons, nodup_cons] at unique
  have absent : ∀ other ∈ table, key other ≠ key entry := by
    intro other mem same
    exact unique.1 (mem_map.mpr ⟨other, mem, same⟩)
  have dropped : remove key (key entry) (entry :: table) = remove key (key entry) table := by
    simp [remove]
  rw [dropped, remove_of_absent absent]

section
variable (unique : (table.map key).Nodup)
include unique

theorem nodup_remove : ((remove key id table).map key).Nodup :=
  unique.sublist (filter_sublist.map key)

omit [DecidableEq Key] in
theorem nodup_filter {holds : Entry → Bool} : ((table.filter holds).map key).Nodup :=
  unique.sublist (filter_sublist.map key)

theorem map_key_remove : (remove key id table).map key = (table.map key).erase id := by
  rw [unique.erase_eq_filter, filter_map]
  congr 1
  apply filter_congr
  intro entry _
  by_cases same : key entry = id
  · simp [same]
  · simp [same]

theorem perm_remove (mem : entry ∈ table) : table.Perm (entry :: remove key (key entry) table) := by
  induction table with
  | nil => cases mem
  | cons first rest ih =>
    rcases mem_cons.mp mem with same | later
    · subst same
      rw [remove_head unique]
    rw [map_cons, nodup_cons] at unique
    have apart : key first ≠ key entry := by
      intro same
      exact unique.1 (mem_map.mpr ⟨entry, later, same.symm⟩)
    have kept : remove key (key entry) (first :: rest) = first :: remove key (key entry) rest := by
      simp [remove, apart]
    rw [kept]
    exact ((ih unique.2 later).cons first).trans (List.Perm.swap _ _ _)

end

variable {holds : Entry → Bool}

theorem filter_remove : (remove key id table).filter holds = remove key id (table.filter holds) :=
  filter_comm _ _ _

theorem filter_modify (stable : ∀ entry ∈ table,
    key entry = id → holds (change entry) = holds entry) :
    (modify key id change table).filter holds = modify key id change (table.filter holds) := by
  rw [modify, modify, filter_map]
  apply congrArg
  apply filter_congr
  intro entry mem
  by_cases same : key entry = id
  · simpa [same] using stable entry mem same
  · simp [same]

theorem filter_modify_loses (loses : ∀ entry ∈ table,
    key entry = id → holds (change entry) = false) : (modify key id change table).filter holds =
    remove key id (table.filter holds) := by
  induction table with
  | nil => rfl
  | cons first _ ih =>
    have rests := ih (fun entry mem => loses entry (by simp [mem]))
    unfold modify remove at rests ⊢
    by_cases same : key first = id
    · have lost := loses first (by simp) same
      by_cases holding : holds first = true
      · simp [same, lost, holding, rests]
      · simp [same, lost, holding, rests]
    · by_cases holding : holds first = true
      · simp [same, holding, rests]
      · simp [same, holding, rests]

theorem filter_modify_gains (unique : (table.map key).Nodup) (mem : entry ∈ table)
    (lacked : holds entry = false) (gains : holds (change entry) = true) :
    ((modify key (key entry) change table).filter holds).Perm
    (change entry :: table.filter holds) := by
  have whole := perm_remove unique mem
  have outside : modify key (key entry) change (remove key (key entry) table) = remove key
    (key entry) table := by
    conv_rhs => rw [← map_id (remove key (key entry) table)]
    apply map_congr_left
    intro other inside
    rw [if_neg (mem_remove.mp inside).2, id_eq]
  have split : (modify key (key entry) change table).Perm
    (change entry :: remove key (key entry) table) := by
    have mapped := whole.map (fun other => if key other = key entry then change other else other)
    rw [map_cons, if_pos rfl] at mapped
    have rest : (remove key (key entry) table).map
        (fun other => if key other = key entry then change other else other) = _ := outside
    rw [rest] at mapped
    exact mapped
  have filtered := split.filter holds
  rw [filter_cons_of_pos gains] at filtered
  have others := whole.filter holds
  rw [filter_cons_of_neg (by simp [lacked])] at others
  exact filtered.trans (others.symm.cons _)

end PolarDB.Lib.Keyed
