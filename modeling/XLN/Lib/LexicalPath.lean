import Mathlib.Data.List.Basic
import Mathlib.Tactic.Common

/-!
# Lexical paths

A path is a list of components. Its normal form is what a stack of components holds in the end: the component
for the directory itself is dropped, and the one for the directory above cancels the component before it.
-/

namespace LexicalPath

/-- The components for the directory itself and for the one above it. -/
structure Dots (α : Type*) where
  dot : α
  up : α
  ne : up ≠ dot

namespace Dots

variable {α : Type*} [DecidableEq α] (d : Dots α)

/-- The component is a name. -/
def Plain (c : α) : Prop :=
  c ≠ d.dot ∧ c ≠ d.up

instance : DecidablePred d.Plain :=
  fun c => inferInstanceAs (Decidable (c ≠ d.dot ∧ c ≠ d.up))

/-- One more component; the stack starts with the last one that stands. -/
def push (stack : List α) (c : α) : List α :=
  if c = d.dot then stack
  else if c = d.up then
    match stack with
    | [] => [c]
    | top :: rest => if top = d.up then c :: top :: rest else rest
  else c :: stack

def normal (path : List α) : List α :=
  (path.foldl d.push []).reverse

variable {d} {stack path a b c : List α} {name : α}

/-- A dot goes nowhere. -/
lemma push_dot : d.push stack d.dot = stack :=
  if_pos rfl

/-- A name goes down. -/
lemma push_plain (plain : d.Plain name) : d.push stack name = name :: stack := by
  unfold push
  rw [if_neg plain.1, if_neg plain.2]

/-- Two dots go up again. -/
lemma push_up (plain : d.Plain name) : d.push (name :: stack) d.up = stack := by
  rw [push, if_neg d.ne, if_pos rfl]
  exact if_neg plain.2

/-- Names go down one after the other. -/
lemma foldl_plain (plain : ∀ c ∈ path, d.Plain c) : path.foldl d.push stack = path.reverse ++ stack := by
  induction path generalizing stack with
  | nil => rfl
  | cons name path ih =>
    rw [List.foldl_cons, push_plain (plain name List.mem_cons_self),
      ih fun c mem => plain c (List.mem_cons_of_mem name mem), List.reverse_cons, List.append_assoc]
    rfl

/-- As many steps up as there are names on the stack. -/
lemma foldl_up (plain : ∀ c ∈ path, d.Plain c) :
    (List.replicate path.length d.up).foldl d.push (path ++ stack) = stack := by
  induction path with
  | nil => rfl
  | cons name path ih =>
    rw [List.length_cons, List.replicate_succ, List.foldl_cons, List.cons_append,
      push_up (plain name List.mem_cons_self)]
    exact ih fun c mem => plain c (List.mem_cons_of_mem name mem)

/-- A path of names is normal. -/
lemma normal_eq_self (plain : ∀ c ∈ path, d.Plain c) : d.normal path = path := by
  rw [normal, foldl_plain plain, List.append_nil, List.reverse_reverse]

/-- A dot can be left out. -/
lemma normal_dot : d.normal (a ++ d.dot :: b) = d.normal (a ++ b) := by
  rw [normal, List.foldl_append, List.foldl_cons, push_dot, ← List.foldl_append, normal]

/-- Names are cancelled by as many steps up, whatever stands before and after. -/
lemma normal_climb (plain : ∀ c ∈ b, d.Plain c) :
    d.normal (a ++ b ++ List.replicate b.length d.up ++ c) = d.normal (a ++ c) := by
  have back : (List.replicate b.length d.up).foldl d.push (b.reverse ++ a.foldl d.push []) =
      a.foldl d.push [] := by
    rw [← List.length_reverse]
    exact foldl_up fun c mem => plain c (List.mem_reverse.mp mem)
  rw [normal, List.foldl_append, List.foldl_append, List.foldl_append, foldl_plain plain, back,
    ← List.foldl_append, normal]

/-- Fewer steps up leave the first names. -/
lemma normal_climb_take (plain : ∀ c ∈ b, d.Plain c) {k : Nat} (le : k ≤ b.length) :
    d.normal (a ++ b ++ List.replicate k d.up ++ c) = d.normal (a ++ b.take (b.length - k) ++ c) := by
  have length : (b.drop (b.length - k)).length = k := by
    rw [List.length_drop]
    omega
  have cancelled : ∀ c ∈ b.drop (b.length - k), d.Plain c := fun c mem => plain c (List.mem_of_mem_drop mem)
  calc d.normal (a ++ b ++ List.replicate k d.up ++ c)
    _ = d.normal (a ++ b.take (b.length - k) ++ b.drop (b.length - k) ++
        List.replicate (b.drop (b.length - k)).length d.up ++ c) := by
      rw [List.append_assoc a (b.take _), List.take_append_drop, length]
    _ = d.normal (a ++ b.take (b.length - k) ++ c) := normal_climb cancelled

end Dots

end LexicalPath
