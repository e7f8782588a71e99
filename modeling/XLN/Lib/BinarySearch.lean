import Mathlib.Data.List.TakeWhile
import Mathlib.Order.Lattice

/-!
# Binary search

`partitionPoint p l` halves a range until it is left with the place where the elements that satisfy `p` end.
On a list on which they come first this is the number of them (`partitionPoint_append`). The lower and the
upper bound of a key are two such places; in a strictly sorted list they enclose the element with the key
(`lowerBound_of_mem`, `upperBound_of_mem`), and an element with another key that is inserted at its lower
bound leaves the list sorted (`insertAt_lowerBound_sorted`).
-/

namespace BinarySearch

variable {α β : Type*}

/-- The search in the range of `len` places from `first` on; the range shrinks with every step. -/
def search (p : Nat → Bool) : Nat → Nat → Nat → Nat
  | 0, first, _ => first
  | steps + 1, first, len =>
    if len = 0 then first
    else if p (first + len / 2) then search p steps (first + len / 2 + 1) (len - len / 2 - 1)
    else search p steps first (len / 2)

def partitionPoint (p : α → Bool) (l : List α) : Nat :=
  search (fun i => l[i]?.any p) l.length 0 l.length

/-- The first place where the key is not less than `v`. -/
def lowerBound [LT β] [DecidableLT β] (key : α → β) (v : β) (l : List α) : Nat :=
  partitionPoint (fun x => key x < v) l

/-- The first place where the key is greater than `v`. -/
def upperBound [LT β] [DecidableLT β] (key : α → β) (v : β) (l : List α) : Nat :=
  partitionPoint (fun x => ¬ v < key x) l

def insertAt (i : Nat) (a : α) (l : List α) : List α :=
  l.take i ++ a :: l.drop i

def eraseAt (i : Nat) (l : List α) : List α :=
  l.take i ++ l.drop (i + 1)

/-- The search finds the place where the predicate ends. -/
lemma search_eq {p : Nat → Bool} {steps first len k : Nat} (enough : len ≤ steps)
    (inside : first ≤ k ∧ k ≤ first + len) (before : ∀ i, first ≤ i → i < k → p i = true)
    (behind : ∀ i, k ≤ i → i < first + len → p i = false) : search p steps first len = k := by
  induction steps generalizing first len with
  | zero =>
    rw [search]
    omega
  | succ steps ih =>
    rw [search]
    split
    next => omega
    next nonempty =>
      split
      next less =>
        have left : first + len / 2 < k := by
          by_contra right
          have greater := behind (first + len / 2) (by omega) (by omega)
          cases less.symm.trans greater
        exact ih (by omega) (by omega) (fun i le lt => before i (by omega) lt)
          fun i le lt => behind i le (by omega)
      next greater =>
        have right : k ≤ first + len / 2 := by
          by_contra left
          exact greater (before _ (by omega) (by omega))
        exact ih (by omega) (by omega) before fun i le lt => behind i le (by omega)

section Partition
variable {p : α → Bool} {front back : List α}

/-- The partition point lies between the two parts. -/
lemma partitionPoint_append (before : ∀ x ∈ front, p x = true) (behind : ∀ x ∈ back, p x = false) :
    partitionPoint p (front ++ back) = front.length := by
  refine search_eq le_rfl (by simp) (fun i _ lt => ?_) fun i le lt => ?_
  · rw [List.getElem?_append_left lt, List.getElem?_eq_getElem lt]
    exact before _ (List.getElem_mem lt)
  · rw [Nat.zero_add] at lt
    have lt' : i - front.length < back.length := by
      rw [List.length_append] at lt
      omega
    rw [List.getElem?_append_right le, List.getElem?_eq_getElem lt']
    exact behind _ (List.getElem_mem lt')

end Partition

section Sorted
variable [LinearOrder β] {key : α → β} {l front back : List α} {a b : α} {v : β}

/-- A sorted list in two parts, at the lower bound of a key. -/
lemma exists_lowerBound (sorted : l.Pairwise fun x y => key x < key y) (v : β) :
    ∃ front back, l = front ++ back ∧ (∀ x ∈ front, key x < v) ∧ (∀ x ∈ back, v ≤ key x) ∧
      lowerBound key v l = front.length := by
  have split : l.takeWhile (fun x => key x < v) ++ l.dropWhile (fun x => key x < v) = l :=
    List.takeWhile_append_dropWhile
  have before : ∀ x ∈ l.takeWhile (fun x => key x < v), key x < v := by
    intro x mem
    simpa using List.mem_takeWhile_imp mem
  have behind : ∀ x ∈ l.dropWhile (fun x => key x < v), v ≤ key x := by
    rw [← split] at sorted
    have rest := (List.pairwise_append.mp sorted).2.1
    cases e : l.dropWhile (fun x => key x < v) with
    | nil => exact fun x mem => nomatch mem
    | cons c back =>
      have first : v ≤ key c := by
        have stop := List.head_dropWhile_not (fun x => decide (key x < v)) (l := l)
          (by rw [e]; exact List.cons_ne_nil _ _)
        simpa only [e, List.head_cons, decide_eq_false_iff_not, not_lt] using stop
      rw [e] at rest
      intro x mem
      cases mem with
      | head => exact first
      | tail _ mem => exact first.trans ((List.pairwise_cons.mp rest).1 x mem).le
  have place : partitionPoint (fun x => key x < v)
      (l.takeWhile (fun x => key x < v) ++ l.dropWhile (fun x => key x < v)) =
      (l.takeWhile fun x => key x < v).length :=
    partitionPoint_append (fun x mem => decide_eq_true (before x mem))
      fun x mem => decide_eq_false (behind x mem).not_gt
  rw [split] at place
  exact ⟨_, _, split.symm, before, behind, place⟩

/-- What stands before an element of a sorted list, and what behind it. -/
lemma sorted_append_cons (sorted : (front ++ a :: back).Pairwise fun x y => key x < key y) :
    (∀ x ∈ front, key x < key a) ∧ ∀ x ∈ back, key a < key x := by
  obtain ⟨-, rest, across⟩ := List.pairwise_append.mp sorted
  exact ⟨fun x mem => across x mem a List.mem_cons_self, (List.pairwise_cons.mp rest).1⟩

/-- The lower bound of an element is its place. -/
lemma lowerBound_of_mem (sorted : (front ++ a :: back).Pairwise fun x y => key x < key y) :
    lowerBound key (key a) (front ++ a :: back) = front.length := by
  obtain ⟨before, behind⟩ := sorted_append_cons sorted
  refine partitionPoint_append (fun x mem => decide_eq_true (before x mem)) fun x mem => ?_
  apply decide_eq_false
  cases mem with
  | head => exact lt_irrefl _
  | tail _ mem => exact (behind x mem).not_gt

/-- The upper bound of an element is the place behind it. -/
lemma upperBound_of_mem (sorted : (front ++ a :: back).Pairwise fun x y => key x < key y) :
    upperBound key (key a) (front ++ a :: back) = front.length + 1 := by
  obtain ⟨before, behind⟩ := sorted_append_cons sorted
  have split : front ++ a :: back = (front ++ [a]) ++ back := by simp
  have length : front.length + 1 = (front ++ [a]).length := by simp
  rw [split, length]
  refine partitionPoint_append (fun x mem => decide_eq_true ?_) fun x mem =>
    decide_eq_false (not_not.mpr (behind x mem))
  rcases List.mem_append.mp mem with mem | mem
  · exact (before x mem).not_gt
  · rw [List.mem_singleton.mp mem]
    exact lt_irrefl _

/-- What is inserted comes to the list. -/
lemma insertAt_perm (i : Nat) (a : α) (l : List α) : (insertAt i a l).Perm (a :: l) := by
  have whole : a :: l = a :: (l.take i ++ l.drop i) := by rw [List.take_append_drop]
  rw [whole]
  exact List.perm_middle

/-- An element with a new key is inserted where it belongs. -/
lemma insertAt_lowerBound_sorted (sorted : l.Pairwise fun x y => key x < key y)
    (new : ∀ x ∈ l, key x ≠ key a) :
    (insertAt (lowerBound key (key a) l) a l).Pairwise fun x y => key x < key y := by
  obtain ⟨front, back, rfl, before, behind, place⟩ := exists_lowerBound sorted (key a)
  have behind' : ∀ x ∈ back, key a < key x := fun x mem =>
    (behind x mem).lt_of_ne (new x (List.mem_append_right _ mem)).symm
  obtain ⟨left, right, across⟩ := List.pairwise_append.mp sorted
  rw [insertAt, place, List.take_left, List.drop_left]
  refine List.pairwise_append.mpr ⟨left, List.pairwise_cons.mpr ⟨behind', right⟩, ?_⟩
  intro x mem y mem'
  cases mem' with
  | head => exact before x mem
  | tail _ mem' => exact across x mem y mem'

/-- What is erased leaves the list. -/
lemma eraseAt_length (front back : List α) (a : α) :
    eraseAt front.length (front ++ a :: back) = front ++ back := by
  have behind : front ++ a :: back = (front ++ [a]) ++ back := by simp
  have length : front.length + 1 = (front ++ [a]).length := by simp
  rw [eraseAt, List.take_left, behind, length, List.drop_left]

end Sorted

end BinarySearch
