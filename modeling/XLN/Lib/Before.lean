import Mathlib.Data.List.Nodup
import Mathlib.Data.List.Sort
import Mathlib.Tactic.Common

/-!
# Positions in a list

`Before l a b` says that `a` occurs somewhere before `b` in `l`. In a duplicate-free list this is a
strict total order on the members (`Before.or`, `Before.asymm`). A `Block` ends where its only marked
member stands, so a list of blocks can be taken apart in one way only. The last parts are about sorted
lists: what an insertion does to the order of some of the members, stable sorting by a key, where
smaller keys come first and equal keys keep their order, and the first member of its kind.
-/

namespace List

variable {α β : Type*} {l l1 l2 : List α} {a b : α}

/-- `a` occurs strictly before `b`. -/
def Before (l : List α) (a b : α) : Prop :=
  [a, b] <+ l

/-- What comes later is in the list. -/
lemma Before.mem_right (h : l.Before a b) : b ∈ l :=
  h.subset (by simp)

/-- A map keeps the order. -/
lemma Before.map (f : α → β) (h : l.Before a b) : (l.map f).Before (f a) (f b) :=
  Sublist.map f h

/-- In a list that is ordered pair by pair the earlier one is related to the later. -/
lemma Before.of_pairwise {r : α → α → Prop} (h : l.Before a b) (hl : l.Pairwise r) : r a b :=
  pairwise_pair.mp (hl.sublist h)

/-- What comes before what in a longer list. -/
lemma before_cons {c : α} : (c :: l).Before a b ↔ (a = c ∧ b ∈ l) ∨ l.Before a b := by
  constructor
  · intro h
    cases h with
    | cons _ h => exact .inr h
    | cons_cons _ h => exact .inl ⟨rfl, singleton_sublist.mp h⟩
  · rintro (⟨rfl, h⟩ | h)
    · exact (singleton_sublist.mpr h).cons_cons a
    · exact h.cons c

/-- Two members of a list occur in some order. -/
lemma Before.or (ne : a ≠ b) (ha : a ∈ l) (hb : b ∈ l) : l.Before a b ∨ l.Before b a := by
  induction l with
  | nil => cases ha
  | cons c l ih =>
    rw [before_cons, before_cons]
    rcases mem_cons.mp ha with rfl | ha
    · exact .inl (.inl ⟨rfl, (mem_cons.mp hb).resolve_left (Ne.symm ne)⟩)
    · rcases mem_cons.mp hb with e | hb
      · exact .inr (.inl ⟨e, ha⟩)
      · exact (ih ha hb).imp .inr .inr

/-- In a duplicate-free list the order is strict. -/
lemma Before.asymm (h : l.Before a b) (nodup : l.Nodup) : ¬ l.Before b a := by
  induction l with
  | nil => cases h
  | cons c l ih =>
    rw [nodup_cons] at nodup
    rw [before_cons] at h ⊢
    rintro (⟨rfl, ha⟩ | h')
    · rcases h with ⟨rfl, hb⟩ | h
      · exact nodup.1 hb
      · exact nodup.1 h.mem_right
    · rcases h with ⟨rfl, hb⟩ | h
      · exact nodup.1 h'.mem_right
      · exact ih h nodup.2 h'

/-- A map into distinct values gives the order back. -/
lemma Before.of_map {f : α → β} (nodup : (l.map f).Nodup) (ha : a ∈ l) (hb : b ∈ l)
    (h : (l.map f).Before (f a) (f b)) : l.Before a b := by
  have ne : a ≠ b := by
    rintro rfl
    exact h.asymm nodup h
  refine (Before.or ne ha hb).resolve_right fun h' => ?_
  exact h.asymm nodup (h'.map f)

/-- What stands to the left of `b` in a duplicate-free list. -/
lemma before_iff_mem_left (nodup : (l1 ++ b :: l2).Nodup) :
    (l1 ++ b :: l2).Before a b ↔ a ∈ l1 := by
  induction l1 with
  | nil =>
    rw [nil_append, nodup_cons] at nodup
    rw [nil_append, before_cons]
    constructor
    · rintro (⟨rfl, hb⟩ | h)
      · exact absurd hb nodup.1
      · exact absurd h.mem_right nodup.1
    · exact fun h => absurd h not_mem_nil
  | cons c l1 ih =>
    rw [cons_append, nodup_cons] at nodup
    rw [cons_append, before_cons, ih nodup.2, mem_cons]
    exact or_congr_left (and_iff_left (by simp))

/-- What stands to the right of `b` in a duplicate-free list. -/
lemma before_iff_mem_right (nodup : (l1 ++ b :: l2).Nodup) :
    (l1 ++ b :: l2).Before b a ↔ a ∈ l2 := by
  have split := nodup_append.mp nodup
  constructor
  · intro before
    have mem := before.mem_right
    rcases mem_append.mp mem with left | right
    · exact absurd ((before_iff_mem_left nodup).mpr left) (before.asymm nodup)
    · rcases mem_cons.mp right with rfl | right
      · exact absurd before (before.asymm nodup)
      · exact right
  · intro mem
    have pair : [b, a] <+ b :: l2 := (singleton_sublist.mpr mem).cons_cons b
    exact pair.trans (sublist_append_right l1 _)

/-- The last member of a block, and no other one, is marked. -/
inductive Block (mark : α → Bool) : List α → Prop where
  | last {x} :
    mark x = true →
    Block mark [x]
  | cons {x rest} :
    mark x = false →
    Block mark rest →
    Block mark (x :: rest)

section Block

variable {mark : α → Bool} {block block' : List α} {f g : β → List α} {m : List β}

/-- A text begins with one block only. -/
lemma Block.append_inj (h : Block mark block) (h' : Block mark block')
    (e : block ++ l1 = block' ++ l2) : block = block' ∧ l1 = l2 := by
  induction h generalizing block' with
  | last marked =>
    cases h' with
    | last =>
      obtain ⟨rfl, rest⟩ := cons.inj e
      exact ⟨rfl, rest⟩
    | cons plain =>
      obtain ⟨rfl, -⟩ := cons.inj e
      cases marked.symm.trans plain
  | cons plain _ ih =>
    cases h' with
    | last marked =>
      obtain ⟨rfl, -⟩ := cons.inj e
      cases plain.symm.trans marked
    | cons _ h' =>
      obtain ⟨rfl, more⟩ := cons.inj e
      obtain ⟨rfl, rest⟩ := ih h' more
      exact ⟨rfl, rest⟩

/-- What has no mark may come before a block. -/
lemma Block.append_left (h : Block mark block) (plain : ∀ x ∈ l, mark x = false) :
    Block mark (l ++ block) := by
  induction l with
  | nil => exact h
  | cons x l ih =>
    rw [forall_mem_cons] at plain
    exact .cons plain.1 (ih plain.2)

/-- Leaving out members that are not marked. -/
lemma Block.filter {p : α → Bool} (h : Block mark block) (keep : ∀ x, mark x = true → p x = true) :
    Block mark (block.filter p) := by
  induction h with
  | @last x marked =>
    rw [filter_cons_of_pos (keep x marked)]
    exact .last marked
  | @cons x rest plain _ ih =>
    rw [filter_cons]
    split
    · exact .cons plain ih
    · exact ih

/-- Lists of blocks are equal if and only if they are block by block. -/
lemma flatMap_eq_iff_of_block (hf : ∀ b ∈ m, Block mark (f b)) (hg : ∀ b ∈ m, Block mark (g b)) :
    m.flatMap f = m.flatMap g ↔ ∀ b ∈ m, f b = g b := by
  induction m with
  | nil => simp
  | cons b m ih =>
    rw [forall_mem_cons] at hf hg
    rw [flatMap_cons, flatMap_cons, forall_mem_cons, ← ih hf.2 hg.2]
    constructor
    · exact hf.1.append_inj hg.1
    · rintro ⟨first, rest⟩
      rw [first, rest]

end Block

section OrderedInsert

variable {r : α → α → Prop} [DecidableRel r] {p : α → Bool}

/-- An element goes behind those members of a sorted list that it is not to stand in front of. -/
lemma filter_orderedInsert_of_pos [IsTrans α r] (sorted : l.Pairwise r) (pa : p a = true)
    (behind : ∀ b ∈ l, p b = true → ¬ r a b) :
    (l.orderedInsert r a).filter p = l.filter p ++ [a] := by
  induction l with
  | nil => simp [pa]
  | cons b l ih =>
    rw [pairwise_cons] at sorted
    have behind' : ∀ c ∈ l, p c = true → ¬ r a c := fun c mem => behind c (mem_cons_of_mem b mem)
    by_cases first : r a b
    · -- everything from here on is behind `a`
      have none : (b :: l).filter p = [] := by
        apply filter_eq_nil_iff.mpr
        intro c mem pc
        rcases mem_cons.mp mem with rfl | mem
        · exact behind c mem_cons_self pc first
        · exact behind' c mem pc (IsTrans.trans _ _ _ first (sorted.1 c mem))
      rw [orderedInsert_cons_of_le r l first, filter_cons_of_pos pa, none]
      rfl
    · rw [orderedInsert_of_not_le r l first, filter_cons, ih sorted.2 behind', filter_cons]
      split <;> rfl

/-- Members that are looked for do not notice another one being inserted. -/
lemma filter_orderedInsert_of_neg (pa : p a = false) :
    (l.orderedInsert r a).filter p = l.filter p := by
  induction l with
  | nil => simp [pa]
  | cons b l ih =>
    by_cases first : r a b
    · rw [orderedInsert_cons_of_le r l first, filter_cons_of_neg (by simp [pa])]
    · rw [orderedInsert_of_not_le r l first, filter_cons, ih, filter_cons]

end OrderedInsert

section SortBy

variable {key : α → β} [LinearOrder β]

instance total_of_key : Std.Total fun a b => key a ≤ key b :=
  ⟨fun a b => le_total (key a) (key b)⟩

instance isTrans_of_key : IsTrans α fun a b => key a ≤ key b :=
  ⟨fun _ _ _ => le_trans⟩

/-- Sorting puts smaller keys first. -/
lemma before_insertionSort_of_lt (ha : a ∈ l) (hb : b ∈ l) (lt : key a < key b) :
    (l.insertionSort fun x y => key x ≤ key y).Before a b := by
  have ne : a ≠ b := by
    rintro rfl
    exact lt_irrefl _ lt
  refine (Before.or ne ((mem_insertionSort _).mpr ha) ((mem_insertionSort _).mpr hb)).resolve_right ?_
  intro h
  have le : key b ≤ key a := h.of_pairwise (pairwise_insertionSort (fun x y => key x ≤ key y) l)
  exact not_lt_of_ge le lt

/-- Sorting keeps the order of equal keys. -/
lemma before_insertionSort_of_eq (h : l.Before a b) (e : key a = key b) :
    (l.insertionSort fun x y => key x ≤ key y).Before a b :=
  pair_sublist_insertionSort (r := fun x y => key x ≤ key y) (le_of_eq e) h

end SortBy
/-! ## The first member of its kind -/

/-- In a strictly sorted list the first member that meets `p` is the least one. -/
lemma find?_eq_some_iff_of_pairwise {r : α → α → Prop} {p : α → Bool} (sorted : l.Pairwise r)
    (asymm : ∀ {a b}, r a b → ¬ r b a) :
    l.find? p = some a ↔ a ∈ l ∧ p a ∧ ∀ b ∈ l, p b → ¬ r b a := by
  induction l with
  | nil => simp
  | cons c l ih =>
    rw [pairwise_cons] at sorted
    cases hc : p c with
    | true =>
      rw [find?_cons_of_pos hc, Option.some.injEq]
      constructor
      · rintro rfl
        refine ⟨mem_cons_self, hc, fun b mem _ less => ?_⟩
        cases mem with
        | head => exact asymm less less
        | tail _ mem => exact asymm (sorted.1 b mem) less
      · rintro ⟨mem, -, least⟩
        cases mem with
        | head => rfl
        | tail _ mem => exact absurd (sorted.1 a mem) (least c mem_cons_self hc)
    | false =>
      rw [find?_cons_of_neg (by simp [hc]), ih sorted.2]
      constructor
      · rintro ⟨mem, ha, least⟩
        refine ⟨mem_cons_of_mem _ mem, ha, fun b memb hb => ?_⟩
        cases memb with
        | head => cases hb.symm.trans hc
        | tail _ memb => exact least b memb hb
      · rintro ⟨mem, ha, least⟩
        refine ⟨?_, ha, fun b memb => least b (mem_cons_of_mem _ memb)⟩
        cases mem with
        | head => cases ha.symm.trans hc
        | tail _ mem => exact mem

end List
