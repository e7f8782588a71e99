import Mathlib.Data.List.Sort
import Mathlib.Data.List.TakeWhile
import XLN.Foundation.Task.BlockingQueue

/-!
# The thread pool

`Core/Foundation/ThreadPool.h`: the threads of a pool, sorted by `m_ID`, and the queue of those that
have stopped. A thread is known by its `m_ID`.
-/

namespace XLN

/-- `ThreadPool::ThreadList`. -/
structure ThreadList where
  m_Threads : List Nat

namespace ThreadList

/-- `ThreadList::Add`, at the place that `std::lower_bound` finds. -/
def add (state : Nat) (list : ThreadList) : ThreadList where
  m_Threads := list.m_Threads.orderedInsert (· ≤ ·) state

/-- `ThreadList::Remove`, or `none` if one of its two `CHECK`s fails. The arguments of `dropWhile` are
    the tests of `std::equal_range`. -/
def remove (state : Nat) (list : ThreadList) : Option ThreadList :=
  let first := list.m_Threads.dropWhile (· < state)
  let second := first.dropWhile (· ≤ state)
  if first ≠ [] ∧ first.length = second.length + 1 then
    some ⟨list.m_Threads.takeWhile (· < state) ++ first.tail⟩
  else none

/-- `ThreadList::Size`. -/
def size (list : ThreadList) : Nat :=
  list.m_Threads.length

variable {state : Nat} {list list' : ThreadList}

/-- A thread that is added is in the list. -/
lemma add_perm : (list.add state).m_Threads.Perm (state :: list.m_Threads) :=
  List.perm_orderedInsert _ _ _

/-- Nothing but the thread itself is removed. -/
lemma remove_perm (h : list.remove state = some list') :
    list.m_Threads.Perm (state :: list'.m_Threads) := by
  unfold remove at h
  simp only at h
  split at h
  next range =>
    cases h
    obtain ⟨nonempty, once⟩ := range
    obtain ⟨thread, rest, e⟩ := List.exists_cons_of_ne_nil nonempty
    have least : ¬ thread < state := by
      have := List.head_dropWhile_not (fun x => decide (x < state)) nonempty
      simpa [e] using this
    have most : thread ≤ state := by
      by_contra greater
      rw [e, List.dropWhile_cons_of_neg (by simpa using greater)] at once
      exact Nat.ne_of_lt (Nat.lt_succ_self _) once
    obtain rfl : thread = state := Nat.le_antisymm most (Nat.le_of_not_lt least)
    have split := List.takeWhile_append_dropWhile (p := fun x => decide (x < thread))
      (l := list.m_Threads)
    calc list.m_Threads
        = list.m_Threads.takeWhile (· < thread) ++ thread :: rest := by rw [← e, split]
      List.Perm _ (thread :: (list.m_Threads.takeWhile (· < thread) ++ rest)) :=
        List.perm_middle
      _ = thread :: (list.m_Threads.takeWhile (· < thread) ++
            (list.m_Threads.dropWhile (· < thread)).tail) := by rw [e, List.tail_cons]
  next => cases h

/-- Every thread that has not ended is in the list. -/
def Covers {β : Type} (list : ThreadList) (threads : Nat → β) (ended : β) : Prop :=
  ∀ w, threads w ≠ ended → w ∈ list.m_Threads

variable {β : Type} {threads : Nat → β} {pc ended : β}

/-- A thread that has ended does not go on, so the threads stay covered. -/
lemma Covers.update (h : list.Covers threads ended) (running : pc ≠ ended → threads state ≠ ended) :
    list.Covers (Function.update threads state pc) ended := by
  intro w running'
  simp only [Function.update_apply] at running'
  split at running'
  next here => exact here ▸ h state (running running')
  next => exact h w running'

/-- A thread that is added is covered. -/
lemma Covers.add (h : list.Covers threads ended) :
    (list.add state).Covers (Function.update threads state pc) ended := by
  intro w running
  apply add_perm.mem_iff.mpr
  simp only [Function.update_apply] at running
  split at running
  next here =>
    rw [here]
    exact List.mem_cons_self
  next => exact List.mem_cons_of_mem _ (h w running)

/-- A thread that has ended may be taken out. -/
lemma Covers.remove (h : list.Covers threads ended) (stopped : threads state = ended)
    (removed : list.remove state = some list') : list'.Covers threads ended := by
  intro w running
  have mem := (remove_perm removed).mem_iff.mp (h w running)
  cases mem with
  | head => exact absurd stopped running
  | tail _ mem => exact mem

end ThreadList

/-- `ThreadPool`. -/
structure ThreadPool where
  m_Threads : ThreadList
  m_StoppedThread : TaskBarrierBlockingQueue Nat

/-- A pool without threads. -/
def ThreadPool.new : ThreadPool where
  m_Threads := ⟨[]⟩
  m_StoppedThread := .new

end XLN
