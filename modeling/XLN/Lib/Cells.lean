import XLN.Lib.Transition
import Mathlib.Data.List.Pairwise
import Mathlib.Data.List.Sort

/-!
# Loops over a list that changes

A linked list as the list of its cells. A new cell gets a number that no cell has had before, and it goes to
the end, so the numbers rise along the list; both facts are fields of `Cells`. A `Loop` stands at a cell and
knows which cells it has visited. Between two of its steps cells may come and go, and other loops may run.

As long as the cell of a loop is in the list, its next step is possible. Whatever happens in between, the loop
has visited exactly those cells of the list that are not behind it (`Loop.Passed`). So when it comes to the
end, what it has visited is the list, up to cells that have gone (`Loop.Passed.all`).
-/

namespace Iteration
open Transition

/-- A list of numbered cells; `next` is the number of the next one. -/
structure Cells (α : Type*) where
  cells : List (Nat × α)
  next : Nat
  rising : cells.Pairwise fun c d => c.1 < d.1
  below : ∀ c ∈ cells, c.1 < next

variable {α β : Type*}

namespace Cells

def empty : Cells α :=
  { cells := [], next := 0, rising := .nil, below := nofun }

/-- A new cell at the end. -/
def pushBack (a : α) (cs : Cells α) : Cells α where
  cells := cs.cells ++ [(cs.next, a)]
  next := cs.next + 1
  rising := by
    refine List.pairwise_append.mpr ⟨cs.rising, List.pairwise_singleton .., fun c hc d hd => ?_⟩
    rw [List.mem_singleton.mp hd]
    exact cs.below c hc
  below := by
    intro c hc
    rcases List.mem_append.mp hc with hc | hc
    · exact Nat.lt_succ_of_lt (cs.below c hc)
    · rw [List.mem_singleton.mp hc]
      exact Nat.lt_succ_self _

/-- The cell with a number is taken out. -/
def erase (n : Nat) (cs : Cells α) : Cells α where
  cells := cs.cells.filter fun c => c.1 ≠ n
  next := cs.next
  rising := cs.rising.filter _
  below := fun c hc => cs.below c (List.mem_filter.mp hc).1

/-- There is a cell with the number. -/
def Has (cs : Cells α) (n : Nat) : Prop :=
  ∃ c ∈ cs.cells, c.1 = n

instance (cs : Cells α) (n : Nat) : Decidable (cs.Has n) :=
  inferInstanceAs (Decidable (∃ c ∈ cs.cells, c.1 = n))

/-- The cell behind the one with a number. -/
def behind (n : Nat) (cs : Cells α) : Option (Nat × α) :=
  (cs.cells.dropWhile fun c => c.1 ≠ n).tail.head?

variable {cs : Cells α} {a : α} {n : Nat} {c : Nat × α}

/-- What is pushed comes to what was there. -/
@[simp] lemma mem_pushBack : c ∈ (cs.pushBack a).cells ↔ c ∈ cs.cells ∨ c = (cs.next, a) := by
  simp [pushBack]

/-- What is erased is gone. -/
@[simp] lemma mem_erase : c ∈ (cs.erase n).cells ↔ c ∈ cs.cells ∧ c.1 ≠ n := by
  simp [erase]

/-- A cell stays when another is pushed. -/
lemma has_pushBack (h : cs.Has n) : (cs.pushBack a).Has n := by
  obtain ⟨c, hc, e⟩ := h
  exact ⟨c, mem_pushBack.mpr (.inl hc), e⟩

/-- A cell stays unless it is erased. -/
lemma has_erase {m : Nat} : (cs.erase m).Has n ↔ cs.Has n ∧ n ≠ m := by
  constructor
  · rintro ⟨c, hc, rfl⟩
    rw [mem_erase] at hc
    exact ⟨⟨c, hc.1, rfl⟩, hc.2⟩
  · rintro ⟨⟨c, hc, rfl⟩, ne⟩
    exact ⟨c, mem_erase.mpr ⟨hc, ne⟩, rfl⟩

/-- The list around a cell. -/
lemma split_of_has (h : cs.Has n) :
    ∃ l1 c l2, cs.cells = l1 ++ c :: l2 ∧ c.1 = n ∧ (∀ d ∈ l1, d.1 < n) ∧ (∀ d ∈ l2, n < d.1) ∧
      cs.behind n = l2.head? := by
  obtain ⟨c, hc, rfl⟩ := h
  obtain ⟨l1, l2, e⟩ := List.append_of_mem hc
  have rising := cs.rising
  rw [e, List.pairwise_append, List.pairwise_cons] at rising
  have before : ∀ d ∈ l1, d.1 < c.1 := fun d hd => rising.2.2 d hd c List.mem_cons_self
  refine ⟨l1, c, l2, e, rfl, before, rising.2.1.1, ?_⟩
  have skip : (l1 ++ c :: l2).dropWhile (fun d => d.1 ≠ c.1) = c :: l2 := by
    rw [List.dropWhile_append_of_pos fun d hd => by simpa using (before d hd).ne]
    simp
  rw [behind, e, skip, List.tail_cons]

end Cells

/-- A loop over the cells: the number of the cell where it stands, and the cells that it has visited. -/
structure Loop (α : Type*) where
  here : Nat
  visited : List (Nat × α)

namespace Loop

/-- A loop at the first cell, unless there is none. -/
def start (cs : Cells α) : Option (Loop α) :=
  cs.cells.head?.map fun c => { here := c.1, visited := [c] }

/-- The loop goes to the next cell, unless it stands at the last one. -/
def advance (cs : Cells α) (l : Loop α) : Option (Loop α) :=
  (cs.behind l.here).map fun c => { here := c.1, visited := l.visited ++ [c] }

/-- The loop has visited cells in order, and of the list those that are not behind it. -/
structure Passed (cs : Cells α) (l : Loop α) : Prop where
  rising : l.visited.Pairwise fun c d => c.1 < d.1
  reached : ∀ c ∈ l.visited, c.1 ≤ l.here
  known : l.here < cs.next
  visited : ∀ c ∈ cs.cells, c ∈ l.visited ↔ c.1 ≤ l.here

variable {cs : Cells α} {l l' : Loop α} {a : α} {n : Nat}

/-- A loop starts at a cell that is there. -/
lemma has_start (e : Loop.start cs = some l) : cs.Has l.here := by
  rw [Loop.start, Option.map_eq_some_iff] at e
  obtain ⟨c, first, rfl⟩ := e
  exact ⟨c, List.mem_of_mem_head? first, rfl⟩

/-- The cell behind another one is a cell of the list. -/
lemma has_advance (e : l.advance cs = some l') : cs.Has l'.here := by
  rw [Loop.advance, Option.map_eq_some_iff] at e
  obtain ⟨c, behind, rfl⟩ := e
  refine ⟨c, ?_, rfl⟩
  have mem := List.mem_of_mem_tail (List.mem_of_mem_head? behind)
  exact (List.dropWhile_suffix _).subset mem

/-- A loop that starts has passed nothing. -/
lemma Passed.start (e : Loop.start cs = some l) : Passed cs l := by
  rw [Loop.start, Option.map_eq_some_iff] at e
  obtain ⟨c, first, rfl⟩ := e
  have split : cs.cells = c :: cs.cells.tail := (List.eq_cons_of_mem_head? first).symm ▸ rfl
  have rising := cs.rising
  rw [split, List.pairwise_cons] at rising
  refine ⟨List.pairwise_singleton .., by simp, cs.below c (List.mem_of_mem_head? first), fun d hd => ?_⟩
  rw [List.mem_singleton]
  constructor
  · rintro rfl
    exact Nat.le_refl _
  · intro le
    rw [split] at hd
    rcases List.mem_cons.mp hd with rfl | hd
    · rfl
    · exact absurd (rising.1 d hd) (Nat.not_lt.mpr le)

/-- What is pushed has not been passed. -/
lemma Passed.pushBack (h : Passed cs l) : Passed (cs.pushBack a) l := by
  refine ⟨h.rising, h.reached, Nat.lt_succ_of_lt h.known, fun c hc => ?_⟩
  rcases Cells.mem_pushBack.mp hc with hc | rfl
  · exact h.visited c hc
  · -- the new cell is behind every loop
    have known := h.known
    constructor
    · exact fun mem => h.reached _ mem
    · intro le
      simp only at le
      omega

/-- A loop has passed the same cells after an erase, but for that one. -/
lemma Passed.erase (h : Passed cs l) : Passed (cs.erase n) l :=
  ⟨h.rising, h.reached, h.known, fun c hc => h.visited c (Cells.mem_erase.mp hc).1⟩

/-- A loop that goes on has passed the cell that it stood at. -/
lemma Passed.advance (h : Passed cs l) (here : cs.Has l.here) (e : l.advance cs = some l') :
    Passed cs l' := by
  obtain ⟨l1, c, l2, split, at_here, before, after, behind⟩ := Cells.split_of_has here
  rw [Loop.advance, Option.map_eq_some_iff, behind] at e
  obtain ⟨d, first, rfl⟩ := e
  obtain ⟨l3, rfl⟩ : ∃ l3, l2 = d :: l3 := ⟨l2.tail, (List.eq_cons_of_mem_head? first)⟩
  have later : l.here < d.1 := after d List.mem_cons_self
  have rising := cs.rising
  rw [split, List.pairwise_append, List.pairwise_cons, List.pairwise_cons] at rising
  refine ⟨?_, ?_, cs.below d (by simp [split]), fun x hx => ?_⟩
  · refine List.pairwise_append.mpr ⟨h.rising, List.pairwise_singleton .., fun x hx y hy => ?_⟩
    rw [List.mem_singleton.mp hy]
    exact Nat.lt_of_le_of_lt (h.reached x hx) later
  · intro x hx
    rcases List.mem_append.mp hx with hx | hx
    · exact Nat.le_of_lt (Nat.lt_of_le_of_lt (h.reached x hx) later)
    · rw [List.mem_singleton.mp hx]
  · rw [List.mem_append, h.visited x hx, List.mem_singleton]
    constructor
    · rintro (le | rfl)
      · exact Nat.le_of_lt (Nat.lt_of_le_of_lt le later)
      · exact Nat.le_refl _
    · intro le
      rw [split] at hx
      rcases List.mem_append.mp hx with hx | hx
      · exact .inl (Nat.le_of_lt (before x hx))
      · rcases List.mem_cons.mp hx with rfl | hx
        · exact .inl (Nat.le_of_eq at_here)
        · rcases List.mem_cons.mp hx with rfl | hx
          · exact .inr rfl
          · exact absurd (rising.2.1.2.1 x hx) (Nat.not_lt.mpr le)

/-- A loop that stands at the last cell has visited all cells, in their order and once each. -/
lemma Passed.all [DecidableEq α] (h : Passed cs l) (here : cs.Has l.here) (last : l.advance cs = none) :
    (l.visited.filter fun c => c ∈ cs.cells) = cs.cells := by
  obtain ⟨l1, c, l2, split, at_here, before, -, behind⟩ := Cells.split_of_has here
  rw [Loop.advance, Option.map_eq_none_iff, behind, List.head?_eq_none_iff] at last
  subst last
  refine List.Pairwise.eq_of_mem_iff (h.rising.filter _) cs.rising fun x => ?_
  rw [List.mem_filter, decide_eq_true_eq]
  refine and_iff_right_of_imp fun hx => (h.visited x hx).mpr ?_
  rw [split] at hx
  rcases List.mem_append.mp hx with hx | hx
  · exact Nat.le_of_lt (before x hx)
  · rw [List.mem_singleton.mp hx, at_here]

end Loop
end Iteration
