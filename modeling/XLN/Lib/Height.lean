import Mathlib.Data.List.Perm.Subperm
import Mathlib.Data.Nat.Find
import Mathlib.Logic.Relation
import Mathlib.Tactic.Common

/-!
# Heights in an acyclic relation

A relation `r a b` ("`a` points to `b`") is read as a graph. `Descends r a l` says that the nodes of
`l` can be visited one after another from `a`, and `Height r a n` that the longest such visit has `n`
nodes. Heights drop along every edge (`Height.of_rel`), every positive height is passed on by some
edge (`Height.exists_rel`), and a node has a height if no cycle of a finite graph can be reached
from it (`exists_height`).
-/

namespace Graph
open Relation

variable {α : Type*}

/-- The nodes of `l` form a path that starts right after `a`. -/
inductive Descends (r : α → α → Prop) : α → List α → Prop where
  | nil {a} :
    Descends r a []
  | cons {a b l} :
    r a b →
    Descends r b l →
    Descends r a (b :: l)

/-- The longest path from `a` has `n` edges. -/
structure Height (r : α → α → Prop) (a : α) (n : Nat) : Prop where
  attained : ∃ l, Descends r a l ∧ l.length = n
  bound : ∀ l, Descends r a l → l.length ≤ n

/-- No cycle of `r` can be reached from `a`. -/
def AcyclicFrom (r : α → α → Prop) (a : α) : Prop :=
  ∀ b, ReflTransGen r a b → ¬ TransGen r b b

variable {r : α → α → Prop} {a b : α} {m n : Nat} {l : List α}

/-- There is one height. -/
lemma Height.unique (h1 : Height r a m) (h2 : Height r a n) : m = n := by
  obtain ⟨l1, d1, e1⟩ := h1.attained
  obtain ⟨l2, d2, e2⟩ := h2.attained
  have := h1.bound l2 d2
  have := h2.bound l1 d1
  omega

/-- The height goes down along the relation. -/
lemma Height.lt (ha : Height r a n) (hb : Height r b m) (ab : r a b) : m < n := by
  obtain ⟨l, d, e⟩ := hb.attained
  have := ha.bound (b :: l) (.cons ab d)
  rw [List.length_cons] at this
  omega

/-- A bound on the paths from `a` gives it a height. -/
lemma exists_height_of_bound (bound : ∀ l, Descends r a l → l.length ≤ n) :
    ∃ m, Height r a m ∧ m ≤ n := by
  classical
  let P : Nat → Prop := fun k => ∃ l, Descends r a l ∧ l.length = k
  have hP : P (Nat.findGreatest P n) :=
    Nat.findGreatest_spec (m := 0) (Nat.zero_le n) ⟨[], .nil, rfl⟩
  refine ⟨Nat.findGreatest P n, ⟨hP, fun l d => ?_⟩, Nat.findGreatest_le n⟩
  exact Nat.le_findGreatest (bound l d) ⟨l, d, rfl⟩

/-- Heights drop along edges. -/
lemma Height.of_rel (ha : Height r a n) (ab : r a b) : ∃ m, Height r b m ∧ m < n := by
  have bound : ∀ l, Descends r b l → l.length ≤ n := by
    intro l d
    have := ha.bound (b :: l) (.cons ab d)
    rw [List.length_cons] at this
    omega
  obtain ⟨m, hb, _⟩ := exists_height_of_bound bound
  exact ⟨m, hb, ha.lt hb ab⟩

/-- A positive height comes from a child one below. -/
lemma Height.exists_rel (ha : Height r a (n + 1)) : ∃ b, r a b ∧ Height r b n := by
  obtain ⟨l, d, e⟩ := ha.attained
  cases d with
  | nil => cases e
  | @cons _ b l ab d =>
    refine ⟨b, ab, ⟨l, d, by simpa using e⟩, fun l' d' => ?_⟩
    have := ha.bound (b :: l') (.cons ab d')
    rw [List.length_cons] at this
    omega

/-- Nodes without edges have height zero. -/
lemma height_zero (leaf : ∀ b, ¬ r a b) : Height r a 0 := by
  refine ⟨⟨[], .nil, rfl⟩, fun l d => ?_⟩
  cases d with
  | nil => exact Nat.le_refl 0
  | cons ab _ => exact absurd ab (leaf _)

/-- What is related to something has a positive height. -/
lemma Height.pos (ha : Height r a n) (ab : r a b) : 0 < n := by
  obtain ⟨m, _, lt⟩ := ha.of_rel ab
  omega

/-- What is reached has a height below. -/
lemma Height.of_transGen (ha : Height r a n) (ab : TransGen r a b) :
    ∃ m, Height r b m ∧ m < n := by
  induction ab with
  | single ab => exact ha.of_rel ab
  | tail _ bc ih =>
    obtain ⟨m, hb, lt⟩ := ih
    obtain ⟨k, hc, lt'⟩ := hb.of_rel bc
    exact ⟨k, hc, by omega⟩

/-- A node with a height lies on no cycle. -/
lemma Height.irrefl (ha : Height r a n) : ¬ TransGen r a a := by
  intro cycle
  obtain ⟨m, hm, lt⟩ := ha.of_transGen cycle
  have := ha.unique hm
  omega

/-- What lies on a descent is reached. -/
lemma Descends.transGen (d : Descends r a l) : ∀ b ∈ l, TransGen r a b := by
  induction d with
  | nil => simp
  | @cons a b l ab d ih =>
    intro c hc
    rcases List.mem_cons.mp hc with rfl | hc
    · exact .single ab
    · exact .head ab (ih c hc)

/-- What is related comes before no cycle either. -/
lemma AcyclicFrom.of_rel (ac : AcyclicFrom r a) (ab : r a b) : AcyclicFrom r b :=
  fun c bc => ac c (.head ab bc)

/-- Without reachable cycles a path never visits a node twice. -/
lemma Descends.nodup (d : Descends r a l) (ac : AcyclicFrom r a) : l.Nodup := by
  induction d with
  | nil => exact List.nodup_nil
  | @cons a b l ab d ih =>
    refine List.nodup_cons.mpr ⟨fun hb => ?_, ih (ac.of_rel ab)⟩
    exact ac b (.single ab) (d.transGen b hb)

/-- A descent stays where the relation leads. -/
lemma Descends.subset {dom : List α} (closed : ∀ a b, r a b → b ∈ dom) (d : Descends r a l) :
    l ⊆ dom := by
  induction d with
  | nil => exact List.nil_subset _
  | cons ab _ ih => exact List.cons_subset.mpr ⟨closed _ _ ab, ih⟩

/-- In a finite graph every node from which no cycle can be reached has a height. -/
theorem exists_height {dom : List α} (closed : ∀ a b, r a b → b ∈ dom) (ac : AcyclicFrom r a) :
    ∃ n, Height r a n := by
  have bound : ∀ l, Descends r a l → l.length ≤ dom.length := fun l d =>
    (List.subperm_of_subset (d.nodup ac) (d.subset closed)).length_le
  obtain ⟨n, h, _⟩ := exists_height_of_bound bound
  exact ⟨n, h⟩

end Graph
