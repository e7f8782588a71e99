import Mathlib.Data.Set.Insert
import XLN.Lib.BinarySearch
import XLN.Lib.Transition
import XLN.Foundation.ThreadPool

/-!
# The thread list

`Core/Foundation/ThreadPool.h`: `ThreadList` keeps its pointers in a vector sorted by `m_ID`, in which `Add`
and `Remove` search by halving. Each search relies on the order that the other calls have left:
`sorted_of_proper`. On the ids the calls are `ThreadList.add` and `ThreadList.remove` (`addPtr_ids`,
`removePtr_ids`).
-/

namespace XLN
open BinarySearch Transition

namespace ThreadList

variable {θ : Type}

/-- `ThreadList::Add`. -/
def addPtr (m_ID : θ → Nat) (state : θ) (m_Threads : List θ) : List θ :=
  insertAt (lowerBound m_ID (m_ID state) m_Threads) state m_Threads

/-- `ThreadList::Remove`, or `none` if one of its two `CHECK`s fails. -/
def removePtr (m_ID : θ → Nat) (state : θ) (m_Threads : List θ) : Option (List θ) :=
  let first := lowerBound m_ID (m_ID state) m_Threads
  let second := upperBound m_ID (m_ID state) m_Threads
  if first ≠ m_Threads.length ∧ first + 1 = second then some (eraseAt first m_Threads) else none

/-- A call of one of the two. -/
inductive Call (θ : Type) where
  | add (state : θ)
  | remove (state : θ)

def step (m_ID : θ → Nat) (m_Threads : List θ) : Call θ → Option (List θ)
  | .add state => some (addPtr m_ID state m_Threads)
  | .remove state => removePtr m_ID state m_Threads

/-- The threads that were added and not removed. -/
def contents (l : List (Call θ)) : Set θ :=
  l.foldl (fun held c =>
    match c with
    | .add state => insert state held
    | .remove state => held \ {state}) ∅

/-- A thread that is added has another id than the threads that are contained then, as threads with pairwise
    distinct ids have, and only threads that are contained are removed. A thread that was removed may be added
    again. -/
inductive Proper (m_ID : θ → Nat) : List (Call θ) → Prop where
  | nil :
    Proper m_ID []
  | add {l state} :
    Proper m_ID l →
    (∀ other ∈ contents l, m_ID other ≠ m_ID state) →
    Proper m_ID (l ++ [.add state])
  | remove {l state} :
    Proper m_ID l →
    state ∈ contents l →
    Proper m_ID (l ++ [.remove state])

variable {m_ID : θ → Nat} {state t : θ} {m_Threads front back : List θ} {l : List (Call θ)}

/-! ## One call -/

/-- Where the list stands in the ids, `Remove` takes the thread out. -/
lemma removePtr_of_mem (sorted : (front ++ state :: back).Pairwise fun x y => m_ID x < m_ID y) :
    removePtr m_ID state (front ++ state :: back) = some (front ++ back) := by
  rw [removePtr, lowerBound_of_mem sorted, upperBound_of_mem sorted, eraseAt_length]
  exact if_pos ⟨by simp, rfl⟩

/-- On the ids, `Add` is an insertion into a sorted list. -/
lemma addPtr_ids (sorted : m_Threads.Pairwise fun x y => m_ID x < m_ID y)
    (new : ∀ x ∈ m_Threads, m_ID x ≠ m_ID state) :
    (addPtr m_ID state m_Threads).map m_ID = (add (m_ID state) ⟨m_Threads.map m_ID⟩).m_Threads := by
  have searched : ((addPtr m_ID state m_Threads).map m_ID).Pairwise (· ≤ ·) := by
    rw [List.pairwise_map]
    exact (insertAt_lowerBound_sorted sorted new).imp fun lt => lt.le
  have inserted : (add (m_ID state) ⟨m_Threads.map m_ID⟩).m_Threads.Pairwise (· ≤ ·) := by
    refine List.Pairwise.orderedInsert _ _ ?_
    rw [List.pairwise_map]
    exact sorted.imp fun lt => lt.le
  have same : ((addPtr m_ID state m_Threads).map m_ID).Perm
      (add (m_ID state) ⟨m_Threads.map m_ID⟩).m_Threads := by
    refine ((insertAt_perm _ state m_Threads).map m_ID).trans ?_
    rw [List.map_cons]
    exact add_perm.symm
  exact same.eq_of_pairwise (fun _ _ _ _ => le_antisymm) searched inserted

/-- On the ids, `Remove` takes out the id. -/
lemma removePtr_ids (sorted : m_Threads.Pairwise fun x y => m_ID x < m_ID y) (mem : state ∈ m_Threads) :
    (removePtr m_ID state m_Threads).map (List.map m_ID) =
      (remove (m_ID state) ⟨m_Threads.map m_ID⟩).map ThreadList.m_Threads := by
  obtain ⟨front, back, rfl⟩ := List.append_of_mem mem
  obtain ⟨before, behind⟩ := sorted_append_cons sorted
  have less : ∀ id ∈ front.map m_ID, decide (id < m_ID state) = true := by
    simpa using before
  have first : (front.map m_ID ++ m_ID state :: back.map m_ID).dropWhile (· < m_ID state) =
      m_ID state :: back.map m_ID := by
    rw [List.dropWhile_append_of_pos less, List.dropWhile_cons_of_neg (by simp)]
  have second : (m_ID state :: back.map m_ID).dropWhile (· ≤ m_ID state) = back.map m_ID := by
    rw [List.dropWhile_cons_of_pos (by simp), List.dropWhile_eq_self_iff]
    intro nonempty
    have next := List.getElem_mem nonempty
    obtain ⟨x, mem', e⟩ := List.mem_map.mp next
    rw [← e]
    simpa using behind x mem'
  have taken : (front.map m_ID ++ m_ID state :: back.map m_ID).takeWhile (· < m_ID state) =
      front.map m_ID := by
    rw [List.takeWhile_append_of_pos less, List.takeWhile_cons_of_neg (by simp), List.append_nil]
  rw [removePtr_of_mem sorted, remove]
  simp only [List.map_append, List.map_cons, first, second, taken, List.length_cons, Option.map_some]
  rfl

/-! ## Sequences of calls -/

/-- A thread that is added is contained. -/
lemma contents_snoc_add : contents (l ++ [.add state]) = insert state (contents l) := by
  rw [contents, List.foldl_append]
  rfl

/-- A thread that is removed is not contained any more. -/
lemma contents_snoc_remove : contents (l ++ [.remove state]) = contents l \ {state} := by
  rw [contents, List.foldl_append]
  rfl

/-- The vector is strictly sorted and holds what it should. -/
structure Holds (m_ID : θ → Nat) (held : Set θ) (m_Threads : List θ) : Prop where
  sorted : m_Threads.Pairwise fun x y => m_ID x < m_ID y
  mem_iff : ∀ t, t ∈ m_Threads ↔ t ∈ held

/-- `Add` keeps the vector sorted. -/
lemma Holds.add {held : Set θ} (h : Holds m_ID held m_Threads) (new : ∀ x ∈ held, m_ID x ≠ m_ID state) :
    Holds m_ID (insert state held) (addPtr m_ID state m_Threads) := by
  refine ⟨insertAt_lowerBound_sorted h.sorted fun x mem => new x ((h.mem_iff x).mp mem), fun t => ?_⟩
  rw [addPtr, (insertAt_perm _ state m_Threads).mem_iff, List.mem_cons, h.mem_iff, Set.mem_insert_iff]

/-- Neither `CHECK` fails for a thread that is contained. -/
lemma Holds.remove {held : Set θ} (h : Holds m_ID held m_Threads) (mem : state ∈ held) :
    ∃ list, removePtr m_ID state m_Threads = some list ∧ Holds m_ID (held \ {state}) list := by
  obtain ⟨front, back, rfl⟩ := List.append_of_mem ((h.mem_iff state).mpr mem)
  obtain ⟨before, behind⟩ := sorted_append_cons h.sorted
  refine ⟨front ++ back, removePtr_of_mem h.sorted, ?_, fun t => ?_⟩
  · exact h.sorted.sublist ((List.sublist_cons_self state back).append_left front)
  · have other : t ∈ front ++ back → t ≠ state := by
      rintro mem' rfl
      rcases List.mem_append.mp mem' with left | right
      · exact lt_irrefl _ (before t left)
      · exact lt_irrefl _ (behind t right)
    have whole := h.mem_iff t
    rw [List.mem_append, List.mem_cons] at whole
    rw [Set.mem_sdiff, Set.mem_singleton_iff, ← whole]
    rw [List.mem_append] at other ⊢
    tauto

/-- Threads with distinct ids are added in any order, and threads that are contained are removed: no `CHECK`
    fails, the list is strictly ascending in `m_ID`, and it contains exactly the threads that were added and not
    removed. -/
theorem sorted_of_proper (m_ID : θ → Nat) (l : List (Call θ)) (proper : Proper m_ID l) :
    ∃ list, Run (Exec (step m_ID)) [] l list ∧ list.Pairwise (fun x y => m_ID x < m_ID y) ∧
      ∀ t, t ∈ list ↔ t ∈ contents l := by
  have holds : ∃ list, Run (Exec (step m_ID)) [] l list ∧ Holds m_ID (contents l) list := by
    induction proper with
    | nil => exact ⟨[], .nil, .nil, fun t => iff_of_false (by simp) id⟩
    | add _ new ih =>
      obtain ⟨list, run, h⟩ := ih
      rw [contents_snoc_add]
      exact ⟨_, .snoc run rfl, h.add new⟩
    | remove _ contained ih =>
      obtain ⟨list, run, h⟩ := ih
      obtain ⟨list', removed, h'⟩ := h.remove contained
      rw [contents_snoc_remove]
      exact ⟨list', .snoc run removed, h'⟩
  obtain ⟨list, run, h⟩ := holds
  exact ⟨list, run, h.sorted, h.mem_iff⟩

/-- The statement above at two threads, the first of which is removed and added again. -/
theorem sorted_of_proper_two :
    ∃ list, Run (Exec (step id)) [] [.add 2, .add 1, .remove 2, .add 2] list ∧
      list.Pairwise (fun x y => id x < id y) ∧
      ∀ t, t ∈ list ↔ t ∈ contents [Call.add 2, .add 1, .remove 2, .add 2] := by
  have first : Proper id [.add 2] := .add .nil fun _ mem => nomatch mem
  have second : Proper id [.add 2, .add 1] := by
    refine .add first fun other mem => ?_
    rcases mem with rfl | mem
    · decide
    · cases mem
  have third : Proper id [.add 2, .add 1, .remove 2] := .remove second (.inr (.inl rfl))
  have fourth : Proper id [.add 2, .add 1, .remove 2, .add 2] := .add third fun _ mem => mem.2
  exact sorted_of_proper id _ fourth

end ThreadList
end XLN
