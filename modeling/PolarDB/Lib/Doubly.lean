import Mathlib.Data.List.Induction
import Mathlib.Data.List.Nodup

/-!
# Doubly linked lists threaded through their nodes

Every node carries its two links, and a link of a node outside the list says so.
`Threads` relates the links to the list of nodes they spell out; the two
operations that rewrite links are shown to append to that list and to erase from
it.
-/

namespace PolarDB.Lib.Doubly

open List

open Function

inductive Link (Node : Type*) where
  | notInList
  | endOfList
  | node (id : Node)
  deriving DecidableEq, Repr

/-- The links of all nodes and the two ends of the list. -/
structure Chain (Node : Type*) where
  next : Node → Link Node
  previous : Node → Link Node
  first : Link Node
  last : Link Node

variable {Node : Type*}

def Chain.empty : Chain Node :=
  { next := fun _ => .notInList, previous := fun _ => .notInList
    first := .endOfList, last := .endOfList }

section

variable [DecidableEq Node]

def Chain.append (chain : Chain Node) (node : Node) : Chain Node :=
  match chain.last with
  | .node tail =>
    { chain with
      next := update (update chain.next node (chain.next tail)) tail (.node node)
      previous := update chain.previous node (.node tail)
      last := .node node }
  | _ =>
    { next := update chain.next node .endOfList
      previous := update chain.previous node .endOfList
      first := .node node
      last := .node node }

/-- Unlink a node from its neighbours, or from the ends where it has none. -/
def Chain.bypass (chain : Chain Node) (node : Node) : Chain Node :=
  match chain.previous node, chain.next node with
  | .node before, .node after =>
    { chain with
      next := update chain.next before (.node after)
      previous := update chain.previous after (.node before) }
  | .node before, after =>
    { chain with next := update chain.next before after, last := .node before }
  | before, .node after =>
    { chain with previous := update chain.previous after before, first := .node after }
  | _, _ => { chain with first := .endOfList, last := .endOfList }

def Chain.remove (chain : Chain Node) (node : Node) : Chain Node :=
  let rest := chain.bypass node
  { rest with
    next := update rest.next node .notInList
    previous := update rest.previous node .notInList }

end

def headLink (after : Link Node) : List Node → Link Node
  | [] => after
  | node :: _ => .node node

def lastLink (before : Link Node) : List Node → Link Node
  | [] => before
  | node :: rest => lastLink (.node node) rest

/-- A stretch of the list, between the link before it and the link after it. -/
def Stretch (next previous : Node → Link Node) (after : Link Node) : Link Node → List Node → Prop
  | _, [] => True
  | before, node :: rest =>
    previous node = before ∧ next node = headLink after rest ∧
      Stretch next previous after (.node node) rest

/-- The chain spells out exactly `nodes`. -/
structure Threads (chain : Chain Node) (nodes : List Node) : Prop where
  nodup : nodes.Nodup
  first : chain.first = headLink .endOfList nodes
  last : chain.last = lastLink .endOfList nodes
  stretch : Stretch chain.next chain.previous .endOfList .endOfList nodes
  outside : ∀ node, node ∉ nodes → chain.next node = .notInList ∧ chain.previous node = .notInList

variable {next previous : Node → Link Node} {before after : Link Node} {node : Node}
  {nodes : List Node}

section
variable (front back : List Node)

@[simp] theorem headLink_append : headLink after (front ++ back) = headLink (headLink after back)
    front := by
  cases front <;> rfl

@[simp] theorem lastLink_append : lastLink before (front ++ back) = lastLink (lastLink before front)
    back := by
  induction front generalizing before with
  | nil => rfl
  | cons _ _ ih => exact ih

theorem stretch_append : Stretch next previous after before (front ++ back) ↔
      Stretch next previous (headLink after back) before front ∧
        Stretch next previous after (lastLink before front) back := by
  induction front generalizing before with
  | nil => simp [Stretch, lastLink]
  | cons _ _ ih =>
    rw [cons_append]
    simp only [Stretch, lastLink, headLink_append, ih, and_assoc]

end

theorem stretch_congr {next' previous' : Node → Link Node}
    (stretch : Stretch next previous after before nodes)
    (sameNext : ∀ node ∈ nodes, next' node = next node)
    (samePrevious : ∀ node ∈ nodes, previous' node = previous node) :
    Stretch next' previous' after before nodes := by
  induction nodes generalizing before with
  | nil => trivial
  | cons node _ ih =>
    constructor
    · rw [samePrevious node (by simp), stretch.1]
    constructor
    · rw [sameNext node (by simp), stretch.2.1]
    · apply ih stretch.2.2
      · exact fun other mem => sameNext other (by simp [mem])
      · exact fun other mem => samePrevious other (by simp [mem])

theorem headLink_ne_notInList : headLink (.endOfList : Link Node) nodes ≠ .notInList := by
  cases nodes <;> simp [headLink]

theorem lastLink_ne_notInList : lastLink (.endOfList : Link Node) nodes ≠ .notInList := by
  induction nodes using List.reverseRecOn with
  | nil | append_singleton => simp [lastLink]

theorem mem_of_headLink (isFirst : .node node = headLink (.endOfList : Link Node) nodes) :
    node ∈ nodes := by
  cases nodes with
  | nil => cases isFirst
  | cons =>
    cases isFirst
    exact mem_cons_self

theorem mem_of_lastLink (isLast : .node node = lastLink (.endOfList : Link Node) nodes) :
    node ∈ nodes := by
  induction nodes using List.reverseRecOn with
  | nil => cases isLast
  | append_singleton =>
    rw [lastLink_append] at isLast
    cases isLast
    simp

theorem Threads.empty : Threads (Chain.empty : Chain Node) [] :=
  { nodup := nodup_nil, first := rfl, last := rfl, stretch := trivial
    outside := fun _ _ => ⟨rfl, rfl⟩ }

variable {chain : Chain Node}

theorem Threads.links {front back : List Node} (threads : Threads chain (front ++ node :: back)) :
    chain.previous node = lastLink .endOfList front ∧
    chain.next node = headLink .endOfList back := by
  have stretch := ((stretch_append front (node :: back)).mp threads.stretch).2
  exact ⟨stretch.1, stretch.2.1⟩

theorem Threads.mem_iff (threads : Threads chain nodes) :
    node ∈ nodes ↔ chain.next node ≠ .notInList := by
  constructor
  · intro mem
    obtain ⟨_, _, rfl⟩ := append_of_mem mem
    rw [threads.links.2]
    exact headLink_ne_notInList
  · intro linked
    by_contra absent
    exact linked (threads.outside node absent).1

section

variable [DecidableEq Node] {chain : Chain Node}

theorem Threads.append (threads : Threads chain nodes) (fresh : node ∉ nodes) :
    Threads (chain.append node) (nodes ++ [node]) := by
  induction nodes using List.reverseRecOn with
  | nil =>
    have last : chain.last = .endOfList := threads.last
    unfold Chain.append
    rw [last]
    constructor
    · simp
    · rfl
    · rfl
    · simp [Stretch, headLink]
    · intro other outside
      have different : other ≠ node := by simpa using outside
      simpa [different] using threads.outside other (by simp)
  | append_singleton front tail =>
    have last : chain.last = .node tail := by rw [threads.last]; simp [lastLink]
    have links := (show Threads chain (front ++ tail :: []) from threads).links
    have different : node ≠ tail := by
      intro same
      exact fresh (by simp [same])
    have tailOutside : tail ∉ front := by
      have apart := nodup_append.mp threads.nodup
      intro inside
      exact apart.2.2 tail inside tail (by simp) rfl
    unfold Chain.append
    rw [last]
    constructor
    · rw [nodup_append]
      exact ⟨threads.nodup, by simp, by
        intro other mem _ isNode same
        rw [mem_singleton.mp isNode] at same
        exact fresh (same ▸ mem)⟩
    · rw [show (_ : Chain Node).first = chain.first from rfl, threads.first]
      simp only [headLink_append]
      rfl
    · simp [lastLink]
    · have earlier := ((stretch_append front [tail]).mp threads.stretch).1
      rw [append_assoc, stretch_append]
      constructor
      · apply stretch_congr earlier
        · intro other mem
          have otherTail : other ≠ tail := fun same => tailOutside (same ▸ mem)
          have otherNode : other ≠ node := fun same => fresh (by simp [← same, mem])
          simp [otherTail, otherNode]
        · intro other mem
          have otherNode : other ≠ node := fun same => fresh (by simp [← same, mem])
          simp [otherNode]
      · simp [Stretch, headLink, different, different.symm, links.1, links.2]
    · intro other outside
      have otherNode : other ≠ node := fun same => outside (by simp [same])
      have otherTail : other ≠ tail := fun same => outside (by simp [same])
      simp only [update_of_ne otherNode, update_of_ne otherTail]
      exact threads.outside other (fun inside => outside (by simp at inside ⊢; tauto))

variable {front back : List Node}

omit [DecidableEq Node] in
theorem stretch_erase {next' previous' : Node → Link Node}
    (stretch : Stretch next previous .endOfList .endOfList (front ++ node :: back))
    (nodup : (front ++ node :: back).Nodup)
    (keptNext : ∀ other ∈ front ++ back, .node other ≠ lastLink .endOfList front →
      next' other = next other)
    (joinedNext : ∀ other, .node other = lastLink .endOfList front →
      next' other = headLink .endOfList back)
    (keptPrevious : ∀ other ∈ front ++ back, .node other ≠ headLink .endOfList back →
      previous' other = previous other)
    (joinedPrevious : ∀ other, .node other = headLink .endOfList back →
      previous' other = lastLink .endOfList front) : Stretch next' previous' .endOfList .endOfList
    (front ++ back) := by
  have apart := nodup_append.mp nodup
  have sides := (stretch_append front (node :: back)).mp stretch
  rw [stretch_append]
  constructor
  · rcases eq_nil_or_concat front with empty | ⟨start, tail, whole⟩
    · rw [empty]
      trivial
    rw [concat_eq_append] at whole
    subst whole
    have parts := (stretch_append start [tail]).mp sides.1
    have startNodup := nodup_append.mp apart.1
    have notHead : ∀ other ∈ start ++ [tail], .node other ≠ headLink (.endOfList : Link Node)
      back := by
      intro other mem same
      exact apart.2.2 other mem other (mem_cons_of_mem _ (mem_of_headLink same)) rfl
    rw [stretch_append]
    constructor
    · apply stretch_congr parts.1
      · intro other mem
        apply keptNext other (by simp [mem])
        intro same
        simp only [lastLink_append, lastLink, Link.node.injEq] at same
        exact startNodup.2.2 other mem tail (by simp) same
      · intro other mem
        exact keptPrevious other (by simp [mem]) (notHead other (by simp [mem]))
    · have tailPrevious := keptPrevious tail (by simp) (notHead tail (by simp))
      have tailNext := joinedNext tail (by simp [lastLink])
      exact ⟨by rw [tailPrevious, parts.2.1], by rw [tailNext]; rfl, trivial⟩
  · cases back with
    | nil => trivial
    | cons first rest =>
      have backNodup := nodup_cons.mp (nodup_cons.mp apart.2.1).2
      have notLast : ∀ other ∈ first :: rest, .node other ≠ lastLink (.endOfList : Link Node)
        front := by
        intro other mem same
        exact apart.2.2 other (mem_of_lastLink same) other (mem_cons_of_mem _ mem) rfl
      have inner := sides.2.2.2
      constructor
      · exact joinedPrevious first rfl
      constructor
      · rw [keptNext first (by simp) (notLast first (by simp)), inner.2.1]
      apply stretch_congr inner.2.2
      · intro other mem
        exact keptNext other (by simp [mem]) (notLast other (by simp [mem]))
      · intro other mem
        apply keptPrevious other (by simp [mem])
        intro same
        cases same
        exact backNodup.1 mem

theorem remove_next (chain : Chain Node) (node other : Node) : (chain.remove node).next other =
      if other = node then .notInList
      else if chain.previous node = .node other then chain.next node else chain.next other := by
  unfold Chain.remove Chain.bypass
  by_cases same : other = node
  · simp [same]
  · cases previousIs : chain.previous node <;> cases nextIs : chain.next node <;>
      simp [update_apply, same, eq_comm]

theorem remove_previous (chain : Chain Node) (node other : Node) :
      (chain.remove node).previous other = if other = node then .notInList
      else if chain.next node = .node other then chain.previous node else chain.previous other := by
  unfold Chain.remove Chain.bypass
  by_cases same : other = node
  · simp [same]
  · cases previousIs : chain.previous node <;> cases nextIs : chain.next node <;>
      simp [update_apply, same, eq_comm]

theorem remove_first {node : Node} {back : List Node}
    (next : chain.next node = headLink .endOfList back) :
    (chain.remove node).first = match chain.previous node with
      | .node _ => chain.first
      | _ => headLink .endOfList back := by
  unfold Chain.remove Chain.bypass
  rw [next]
  cases chain.previous node <;> cases back <;> rfl

theorem remove_last {node : Node} {front : List Node}
    (previous : chain.previous node = lastLink .endOfList front) :
    (chain.remove node).last = match chain.next node with
      | .node _ => chain.last
      | _ => lastLink .endOfList front := by
  unfold Chain.remove Chain.bypass
  rw [previous]
  rcases eq_nil_or_concat front with empty | ⟨start, tail, whole⟩
  · rw [empty]
    cases chain.next node <;> rfl
  · rw [whole, concat_eq_append, lastLink_append]
    cases chain.next node <;> rfl

theorem Threads.remove (threads : Threads chain (front ++ node :: back)) :
    Threads (chain.remove node) (front ++ back) := by
  have links := threads.links
  have apart := nodup_append.mp threads.nodup
  have outsideBack : node ∉ back := (nodup_cons.mp apart.2.1).1
  have outsideFront : node ∉ front := by
    intro inside
    exact apart.2.2 node inside node (by simp) rfl
  have different : ∀ other ∈ front ++ back, other ≠ node := by
    intro other mem same
    rcases mem_append.mp mem with early | late
    · exact outsideFront (same ▸ early)
    · exact outsideBack (same ▸ late)
  constructor
  · exact threads.nodup.sublist (List.Sublist.append_left (sublist_cons_self node back) front)
  · rw [remove_first links.2, links.1, threads.first, headLink_append, headLink_append]
    rcases eq_nil_or_concat front with empty | ⟨start, tail, whole⟩
    · rw [empty]
      rfl
    · rw [whole, concat_eq_append, lastLink_append]
      cases start <;> rfl
  · rw [remove_last links.1, links.2, threads.last, lastLink_append, lastLink_append]
    cases back <;> rfl
  · apply stretch_erase threads.stretch threads.nodup
    · intro other mem notLast
      rw [remove_next, if_neg (different other mem), links.1, if_neg (Ne.symm notLast)]
    · intro other isLast
      have away : other ≠ node := fun same => outsideFront (same ▸ mem_of_lastLink isLast)
      rw [remove_next, if_neg away, links.1, if_pos isLast.symm, links.2]
    · intro other mem notFirst
      rw [remove_previous, if_neg (different other mem), links.2, if_neg (Ne.symm notFirst)]
    · intro other isFirst
      have away : other ≠ node := fun same => outsideBack (same ▸ mem_of_headLink isFirst)
      rw [remove_previous, if_neg away, links.2, if_pos isFirst.symm, links.1]
  · intro other outside
    by_cases same : other = node
    · rw [remove_next, remove_previous, if_pos same, if_pos same]
      exact ⟨rfl, rfl⟩
    have absent : other ∉ front ++ node :: back := by
      simp only [mem_append, mem_cons, not_or] at outside ⊢
      exact ⟨outside.1, same, outside.2⟩
    have notLast : chain.previous node ≠ .node other := by
      rw [links.1]
      exact fun isLast => outside (mem_append_left _ (mem_of_lastLink isLast.symm))
    have notFirst : chain.next node ≠ .node other := by
      rw [links.2]
      exact fun isFirst => outside (mem_append_right _ (mem_of_headLink isFirst.symm))
    rw [remove_next, remove_previous, if_neg same, if_neg same, if_neg notLast, if_neg notFirst]
    exact threads.outside other absent

end

end PolarDB.Lib.Doubly
