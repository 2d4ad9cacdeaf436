import Mathlib.Data.List.Perm.Subperm

/-!
# Singly linked paths in an address space

A path is described by the function that follows one link and by the address
that ends it. The search and the traversal are loops with a bound on the number
of links; `Path` carries the list of visited addresses that justifies the bound.
Nothing here refers to what an address points at.
-/

namespace PolarDB.Lib.Linked

open List

variable {Address : Type*}

/-- The addresses visited from a start address until `stop`, in order. -/
def Path (next : Address → Address) (stop : Address) : Address → List Address → Prop
  | start, [] => start = stop
  | start, address :: rest => start = address ∧ start ≠ stop ∧ Path next stop (next start) rest

/-- Follow links until `stop` or until an address satisfies `found`. -/
def search [DecidableEq Address] (next : Address → Address) (stop : Address)
    (found : Address → Bool) : Nat → Address → Address
  | 0, address => address
  | fuel + 1, address =>
    if address = stop then address
    else if found address then address
    else search next stop found fuel (next address)

/-- All addresses from a start address up to `stop`. -/
def traverse [DecidableEq Address] (next : Address → Address) (stop : Address) : Nat → Address →
    List Address
  | 0, _ => []
  | fuel + 1, address =>
    if address = stop then [] else address :: traverse next stop fuel (next address)

variable {next other : Address → Address} {stop start : Address} {path : List Address}

@[simp] theorem path_nil : Path next stop start [] ↔ start = stop := Iff.rfl

section
variable (linked : Path next stop start path)
include linked

theorem path_member_ne_stop : ∀ address ∈ path, address ≠ stop := by
  induction path generalizing start with
  | nil => simp
  | cons _ _ ih =>
    obtain ⟨rfl, apart, tail⟩ := linked
    intro mem inside
    rcases mem_cons.mp inside with rfl | later
    · exact apart
    · exact ih tail mem later

theorem path_congr (same : ∀ address ∈ path, other address = next address) :
    Path other stop start path := by
  induction path generalizing start with
  | nil => exact linked
  | cons address _ ih =>
    obtain ⟨rfl, apart, tail⟩ := linked
    refine ⟨rfl, apart, ?_⟩
    rw [same start (by simp)]
    exact ih tail (fun address inside => same address (by simp [inside]))

theorem path_start_ne_stop (nonempty : path ≠ []) : start ≠ stop := by
  cases path with
  | nil => exact absurd rfl nonempty
  | cons => exact linked.2.1

theorem path_unique {longer : List Address} (again : Path next stop start longer) :
    path = longer := by
  induction path generalizing start longer with
  | nil =>
    cases longer with
    | nil => rfl
    | cons address rest => exact absurd linked again.2.1
  | cons _ _ ih =>
    cases longer with
    | nil => exact absurd again linked.2.1
    | cons =>
      obtain ⟨rfl, -, tail⟩ := linked
      obtain ⟨rfl, -, tailAgain⟩ := again
      rw [ih tail tailAgain]

end

theorem path_drop {front : List Address} {address : Address}
    (linked : Path next stop start (front ++ address :: path)) :
    Path next stop address (address :: path) := by
  induction front generalizing start with
  | nil =>
    obtain ⟨rfl, rest⟩ := linked
    exact ⟨rfl, rest⟩
  | cons _ _ ih => exact ih linked.2.2

theorem path_nodup (linked : Path next stop start path) : path.Nodup := by
  induction path generalizing start with
  | nil => simp
  | cons address _ ih =>
    refine nodup_cons.mpr ⟨?_, ih linked.2.2⟩
    intro again
    obtain ⟨_, back, rfl⟩ := append_of_mem again
    have sameStart : start = address := linked.1
    subst sameStart
    have short : Path next stop start (start :: back) := path_drop linked.2.2
    have equal := congrArg List.length (path_unique linked short)
    simp only [length_cons, length_append] at equal
    omega

theorem path_snoc {last fresh : Address} (linked : Path next stop start (path ++ [last]))
    (same : ∀ address ∈ path, other address = next address) (link : other last = fresh)
    (proper : fresh ≠ stop) (ends : other fresh = stop) :
    Path other stop start (path ++ [last, fresh]) := by
  induction path generalizing start with
  | nil =>
    obtain ⟨rfl, apart, -⟩ := linked
    exact ⟨rfl, apart, link, by rw [link]; exact proper, by rw [link]; exact ends⟩
  | cons address _ ih =>
    obtain ⟨rfl, apart, tail⟩ := linked
    refine ⟨rfl, apart, ?_⟩
    rw [same start (by simp)]
    exact ih tail (fun address inside => same address (by simp [inside]))

variable {fuel : Nat}

theorem traverse_path [DecidableEq Address] (linked : Path next stop start path)
    (enough : path.length < fuel) : traverse next stop fuel start = path := by
  induction path generalizing start fuel with
  | nil =>
    obtain ⟨fuel, rfl⟩ := Nat.exists_eq_succ_of_ne_zero (Nat.ne_of_gt enough)
    simp [traverse, path_nil.mp linked]
  | cons _ _ ih =>
    obtain ⟨fuel, rfl⟩ := Nat.exists_eq_succ_of_ne_zero (by omega : fuel ≠ 0)
    obtain ⟨rfl, apart, tail⟩ := linked
    simp only [traverse, if_neg apart]
    rw [ih tail (by simpa using enough)]

section
variable (linked : Path next stop start path) (found : Address → Bool) (enough : path.length < fuel)
include linked found enough

/-- The bounded search returns the first address of the path that satisfies the
test, and `stop` when there is none. -/
theorem search_path [DecidableEq Address] : search next stop found fuel start =
    (path.find? found).getD stop := by
  induction path generalizing start fuel with
  | nil =>
    obtain ⟨fuel, rfl⟩ := Nat.exists_eq_succ_of_ne_zero (Nat.ne_of_gt enough)
    simp [search, path_nil.mp linked]
  | cons _ _ ih =>
    obtain ⟨fuel, rfl⟩ := Nat.exists_eq_succ_of_ne_zero (by omega : fuel ≠ 0)
    obtain ⟨rfl, apart, tail⟩ := linked
    simp only [search, if_neg apart, List.find?_cons]
    cases hit : found start with
    | true => simp
    | false => simpa using ih tail (by simpa using enough)

theorem search_path_unique [DecidableEq Address] {target : Address} (inside : target ∈ path)
    (hit : found target = true) (only : ∀ address ∈ path, found address = true → address = target) :
    search next stop found fuel start = target := by
  rw [search_path linked found enough]
  cases res : path.find? found with
  | none => exact absurd hit (by simpa using List.find?_eq_none.mp res target inside)
  | some address =>
    exact only address (mem_of_find?_eq_some res) (List.find?_some res)

theorem search_path_none [DecidableEq Address] (missing : ∀ address ∈ path, found address = false) :
    search next stop found fuel start = stop := by
  rw [search_path linked found enough]
  have none : path.find? found = none :=
    List.find?_eq_none.mpr (fun address inside => by simp [missing address inside])
  rw [none, Option.getD_none]

end

theorem nodup_length_lt_bound {path : List Nat} {bound : Nat} (distinct : path.Nodup)
    (positive : ∀ address ∈ path, 0 < address) (below : ∀ address ∈ path, address < bound)
    (room : 0 < bound) : path.length < bound := by
  have fresh : 0 ∉ path := fun mem => absurd (positive 0 mem) (Nat.lt_irrefl 0)
  have inside : (0 :: path) ⊆ List.range bound :=
    cons_subset.mpr ⟨mem_range.mpr room, fun address later => mem_range.mpr (below address later)⟩
  have short := ((nodup_cons.mpr ⟨fresh, distinct⟩).subperm inside).length_le
  simp only [length_cons, length_range] at short
  omega

end PolarDB.Lib.Linked
