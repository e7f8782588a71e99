import Mathlib.Data.List.TakeWhile
import Mathlib.Tactic.Common

/-!
# Tokens

`tokens p l` are the maximal non-empty runs of elements of `l` that do not satisfy `p`, from left to right.
They can be taken off the front one by one (`tokens_cons`).
-/

namespace Tokens

variable {α : Type*} {p : α → Bool} {l : List α} {c : α}

def tokens (p : α → Bool) (l : List α) : List (List α) :=
  (l.splitOnP p).filter fun run => !run.isEmpty

/-- An empty text has no tokens. -/
@[simp] lemma tokens_nil : tokens p [] = [] := rfl

/-- A delimiter is passed over. -/
lemma tokens_cons_delim (delim : p c = true) : tokens p (c :: l) = tokens p l := by
  rw [tokens, List.splitOnP_cons_eq_if_modifyHead, if_pos delim]
  rfl

/-- Leading delimiters do not matter. -/
lemma tokens_dropWhile (l : List α) : tokens p (l.dropWhile p) = tokens p l := by
  induction l with
  | nil => rfl
  | cons c l ih =>
    by_cases delim : p c = true
    · rw [List.dropWhile_cons_of_pos delim, ih, tokens_cons_delim delim]
    · rw [List.dropWhile_cons_of_neg delim]

/-- A run ends at a delimiter or with the list. -/
lemma tokens_append {run : List α} (nonempty : run ≠ []) (clean : ∀ c ∈ run, p c = false)
    (ends : ∀ c, l.head? = some c → p c = true) : tokens p (run ++ l) = run :: tokens p l := by
  have kept (runs : List (List α)) : (run :: runs).filter (fun run => !run.isEmpty) =
      run :: runs.filter fun run => !run.isEmpty := List.filter_cons_of_pos (by simpa using nonempty)
  cases l with
  | nil =>
    rw [List.append_nil, tokens, List.splitOnP_eq_singleton clean, kept]
    rfl
  | cons sep l =>
    rw [tokens_cons_delim (ends sep rfl), tokens,
      List.splitOnP_append_cons_of_forall_mem clean sep (ends sep rfl), kept, tokens]

/-- A token goes on to the next delimiter. -/
lemma tokens_cons (clean : p c = false) :
    tokens p (c :: l) = (c :: l).takeWhile (fun c => !p c) ::
      tokens p ((c :: l).dropWhile fun c => !p c) := by
  have parts : (c :: l).takeWhile (fun c => !p c) ++ (c :: l).dropWhile (fun c => !p c) = c :: l :=
    List.takeWhile_append_dropWhile
  refine (congrArg (tokens p) parts.symm).trans (tokens_append ?_ (fun d mem => ?_) fun d first => ?_)
  · rw [List.takeWhile_cons_of_pos (by rw [clean]; rfl)]
    exact List.cons_ne_nil _ _
  · simpa using List.mem_takeWhile_imp mem
  · simpa [first] using List.head?_dropWhile_not (fun c => !p c) (c :: l)

/-- There are no more tokens than elements, and one. -/
lemma length_tokens_le (p : α → Bool) (l : List α) : (tokens p l).length ≤ l.length + 1 := by
  refine Nat.le_trans (List.length_filter_le _ _) ?_
  induction l with
  | nil => exact Nat.le_refl 1
  | cons c l ih =>
    rw [List.splitOnP_cons_eq_if_modifyHead]
    split <;> simp <;> omega

/-- Every element followed by a delimiter is a token. -/
lemma tokens_flatten {sep : α} (clean : p c = false) (delim : p sep = true) (n : Nat) :
    tokens p (List.replicate n [c, sep]).flatten = List.replicate n [c] := by
  induction n with
  | zero => rfl
  | succ n ih =>
    rw [List.replicate_succ, List.flatten_cons, List.cons_append, List.cons_append, List.nil_append,
      ← List.singleton_append, tokens_append (List.cons_ne_nil c []) (by simpa using clean)
      (by simpa using delim), tokens_cons_delim delim, ih, List.replicate_succ]

end Tokens
