import Mathlib.Data.List.Chain
import Mathlib.Data.List.Nodup
import Mathlib.Logic.Function.Basic
import Mathlib.Tactic.Common

/-!
# Linked lists in memory

Nodes of a type `ν` are linked by a function `next`, with `none` for the null pointer. `Chain next h l`
says that following the links from `h` goes through the nodes of `l` and ends. A link determines its chain
(`Chain.unique`), so a chain never meets a node twice (`Chain.nodup`). `BackLinked` is the other half of a
doubly-linked list, for all nodes but the first. `search` is the loop that looks for a node along the links.
-/

namespace LinkedList

variable {ν : Type*}

/-- The nodes met from a link, in order, up to the null pointer. -/
inductive Chain (next : ν → Option ν) : Option ν → List ν → Prop where
  | nil :
    Chain next none []
  | cons {n l} :
    Chain next (next n) l →
    Chain next (some n) (n :: l)

/-- Every node but the first points back to the one before it. -/
def BackLinked (prev : ν → Option ν) (l : List ν) : Prop :=
  l.IsChain fun a b => prev b = some a

/-- Follows the links until a node has the property. Gives `none` when the fuel runs out. -/
def search (p : ν → Bool) (next : ν → Option ν) : Nat → Option ν → Option (Option ν)
  | 0, _ => none
  | _ + 1, none => some none
  | fuel + 1, some n => if p n then some (some n) else search p next fuel (next n)

variable {next next' prev prev' : ν → Option ν} {h : Option ν} {l l1 l2 : List ν} {a b n : ν}

/-- There is one chain from a head. -/
lemma Chain.unique (chain : Chain next h l1) (chain' : Chain next h l2) : l1 = l2 := by
  induction chain generalizing l2 with
  | nil =>
    cases chain'
    rfl
  | cons _ ih =>
    cases chain' with
    | cons rest => rw [ih rest]

/-- A chain depends on the links of its own nodes only. -/
lemma Chain.congr (chain : Chain next h l) (same : ∀ n ∈ l, next' n = next n) :
    Chain next' h l := by
  induction chain with
  | nil => exact .nil
  | cons _ ih =>
    rw [List.forall_mem_cons] at same
    refine .cons ?_
    rw [same.1]
    exact ih same.2

/-- The head is the first node. -/
lemma Chain.head?_eq (chain : Chain next h l) : l.head? = h := by
  cases chain <;> rfl

/-- The nodes behind a node of a chain. -/
lemma Chain.tail_of_append (chain : Chain next h (l1 ++ n :: l2)) : Chain next (next n) l2 := by
  induction l1 generalizing h with
  | nil =>
    cases chain with
    | cons rest => exact rest
  | cons a l1 ih =>
    cases chain with
    | cons rest => exact ih rest

/-- A chain has no node twice. -/
lemma Chain.nodup (chain : Chain next h l) : l.Nodup := by
  induction chain with
  | nil => exact List.nodup_nil
  | @cons n l rest ih =>
    refine List.nodup_cons.mpr ⟨fun again => ?_, ih⟩
    obtain ⟨l1, l2, rfl⟩ := List.append_of_mem again
    -- both copies of `n` have the same nodes behind them
    have same := congrArg List.length (rest.unique rest.tail_of_append)
    simp only [List.length_append, List.length_cons] at same
    omega

/-- Only the links of the tail matter. -/
lemma BackLinked.congr (back : BackLinked prev l) (same : ∀ n ∈ l.tail, prev' n = prev n) :
    BackLinked prev' l := by
  induction l with
  | nil => exact .nil
  | cons a l ih =>
    cases l with
    | nil => exact .singleton a
    | cons b l =>
      rw [BackLinked, List.isChain_cons_cons] at back ⊢
      rw [List.tail_cons, List.forall_mem_cons] at same
      exact ⟨same.1.trans back.1, ih back.2 same.2⟩

/-- The link back of a node is its predecessor. -/
lemma BackLinked.prev_eq (back : BackLinked prev (l1 ++ a :: b :: l2)) : prev b = some a :=
  (List.isChain_append_cons_cons.mp back).2.1

/-- The last node taken out. -/
lemma BackLinked.unlink_last (back : BackLinked prev (l1 ++ [a, b])) :
    BackLinked prev (l1 ++ [a]) :=
  (List.isChain_append_cons_cons.mp back).1

section Update
variable [DecidableEq ν]

/-- Links of nodes outside a chain may be set freely. -/
lemma Chain.update (chain : Chain next h l) (fresh : n ∉ l) (link : Option ν) :
    Chain (Function.update next n link) h l := by
  refine chain.congr fun m hm => Function.update_of_ne ?_ ..
  rintro rfl
  exact fresh hm

/-- A node put in front of a chain. -/
lemma Chain.push (chain : Chain next h l) (fresh : n ∉ l) :
    Chain (Function.update next n h) (some n) (n :: l) := by
  refine .cons ?_
  rw [Function.update_self]
  exact chain.update fresh h

/-- The node `b` taken out behind its predecessor. -/
lemma Chain.unlink (chain : Chain next h (l1 ++ a :: b :: l2)) :
    Chain (Function.update next a (next b)) h (l1 ++ a :: l2) := by
  have nodup := chain.nodup
  induction l1 generalizing h with
  | nil =>
    have tail : Chain next (next b) l2 :=
      Chain.tail_of_append (show Chain next h ([a] ++ b :: l2) from chain)
    cases chain with
    | cons _ =>
      refine .cons ?_
      rw [Function.update_self]
      rw [List.nil_append, List.nodup_cons, List.mem_cons, not_or] at nodup
      exact tail.update nodup.1.2 _
  | cons c l1 ih =>
    cases chain with
    | cons rest =>
      rw [List.cons_append, List.nodup_cons] at nodup
      refine .cons ?_
      rw [Function.update_of_ne]
      · exact ih rest nodup.2
      · rintro rfl
        exact nodup.1 (by simp)

/-- A link of another node may change. -/
lemma BackLinked.update (back : BackLinked prev l) (fresh : n ∉ l.tail) (link : Option ν) :
    BackLinked (Function.update prev n link) l := by
  refine back.congr fun m hm => Function.update_of_ne ?_ ..
  rintro rfl
  exact fresh hm

/-- A node put in front, to which the old first node points back. -/
lemma BackLinked.push (back : BackLinked prev (b :: l)) (nodup : (b :: l).Nodup) :
    BackLinked (Function.update prev b (some n)) (n :: b :: l) := by
  rw [BackLinked, List.isChain_cons_cons, Function.update_self]
  exact ⟨rfl, back.update (List.nodup_cons.mp nodup).1 _⟩

/-- The node `b` taken out, where the node behind it gets its back link. -/
lemma BackLinked.unlink {c : ν} (back : BackLinked prev (l1 ++ a :: b :: c :: l2))
    (nodup : (l1 ++ a :: b :: c :: l2).Nodup) :
    BackLinked (Function.update prev c (prev b)) (l1 ++ a :: c :: l2) := by
  rw [List.nodup_append'] at nodup
  obtain ⟨-, nodup, disjoint⟩ := nodup
  obtain ⟨left, prev_b, right⟩ := List.isChain_append_cons_cons.mp back
  simp only [List.nodup_cons, List.mem_cons, not_or] at nodup
  refine List.isChain_append_cons_cons.mpr ⟨?_, ?_, ?_⟩
  · refine BackLinked.update left (fun hc => ?_) _
    rcases List.mem_append.mp (List.mem_of_mem_tail hc) with hc | hc
    · exact disjoint hc (by simp)
    · rw [List.mem_singleton] at hc
      exact nodup.1.2.1 hc.symm
  · rw [Function.update_self, prev_b]
  · exact BackLinked.update (List.isChain_cons_cons.mp right).2 nodup.2.2.1 _

end Update

/-- The search finds the first node of the chain with the property, once the fuel exceeds the length. -/
lemma search_eq {p : ν → Bool} (chain : Chain next h l) {fuel : Nat} (enough : l.length < fuel) :
    search p next fuel h = some (l.find? p) := by
  induction chain generalizing fuel with
  | nil =>
    cases fuel with
    | zero => omega
    | succ fuel => rfl
  | @cons n l _ ih =>
    cases fuel with
    | zero => omega
    | succ fuel =>
      rw [search, List.find?_cons]
      cases p n with
      | true => rfl
      | false => exact ih (Nat.lt_of_succ_lt_succ enough)

/-- More fuel does not change the result. -/
lemma search_mono {p : ν → Bool} {fuel fuel' : Nat} {r : Option ν}
    (res : search p next fuel h = some r) (le : fuel ≤ fuel') : search p next fuel' h = some r := by
  induction fuel generalizing fuel' h with
  | zero => cases res
  | succ fuel ih =>
    obtain ⟨fuel', rfl⟩ : ∃ k, fuel' = k + 1 := ⟨fuel' - 1, by omega⟩
    cases h with
    | none => exact res
    | some n =>
      rw [search] at res ⊢
      split at res
      next found => rw [if_pos found, res]
      next other => rw [if_neg other, ih res (Nat.le_of_succ_le_succ le)]

end LinkedList
