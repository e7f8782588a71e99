import Mathlib.Data.List.DropRight

/-!
# Trimming both ends of a list

`both p l` takes the elements that satisfy `p` off the two ends of `l`.
-/

namespace Trim

variable {α : Type*} {p : α → Bool} {l : List α} {c : α}

def both (p : α → Bool) (l : List α) : List α :=
  (l.dropWhile p).rdropWhile p

/-- What is trimmed at the end. -/
lemma both_concat (trimmed : p c = true) : both p (l ++ [c]) = both p l := by
  unfold both
  rw [List.dropWhile_append]
  split
  next all =>
    rw [List.isEmpty_iff] at all
    rw [all, List.dropWhile_cons_of_pos trimmed, List.dropWhile_nil]
  next => exact List.rdropWhile_concat_pos p _ c trimmed

/-- What is trimmed at the begin. -/
lemma both_cons (trimmed : p c = true) : both p (c :: l) = both p l := by
  rw [both, List.dropWhile_cons_of_pos trimmed, both]

/-- Nothing is taken off a list that neither starts nor ends with such an element. -/
lemma both_eq_self (first : ∀ c, l.head? = some c → p c = false)
    (last : ∀ c, l.getLast? = some c → p c = false) : both p l = l := by
  have left : l.dropWhile p = l := by
    cases l with
    | nil => rfl
    | cons c l => rw [List.dropWhile_cons_of_neg (by simp [first c rfl])]
  rw [both, left, List.rdropWhile_eq_self_iff]
  intro nonempty
  rw [last _ (List.getLast?_eq_getLast_of_ne_nil nonempty)]
  exact Bool.false_ne_true

end Trim
