import Mathlib.Computability.Language

/-!
# Glob patterns

A pattern is a list of pieces, and its language is the product of theirs. Words are decided from the front
(`nil_not_mem`, `nil_mem_many`, and a lemma for each piece before an element).
-/

namespace Glob

variable {α β : Type*} [LinearOrder β]

inductive Item (α : Type*) where
  | one (x : α)
  | range (x y : α)

inductive Piece (α : Type*) where
  | literal (x : α)
  | any
  | many
  | bracket (items : List (Item α))

/-- The elements of a range are between its ends, which may come in either order. -/
def Item.Covers (value : α → β) : Item α → α → Prop
  | one x, c => c = x
  | range x y, c => value x ≤ value c ∧ value c ≤ value y ∨ value y ≤ value c ∧ value c ≤ value x

def Piece.language (value : α → β) : Piece α → Language α
  | literal x => {[x]}
  | any => {l : List α | ∃ c, l = [c]}
  | many => {_l : List α | True}
  | bracket items => {l : List α | ∃ c, l = [c] ∧ ∃ item ∈ items, item.Covers value c}

def language (value : α → β) (pieces : List (Piece α)) : Language α :=
  (pieces.map (Piece.language value)).prod

variable {value : α → β} {pieces : List (Piece α)} {items : List (Item α)} {l : List α} {c x y : α}

/-- The ends of a range belong to it. -/
lemma covers_left : (Item.range x y).Covers value x :=
  (le_total (value x) (value y)).imp (fun le => ⟨le_rfl, le⟩) fun le => ⟨le, le_rfl⟩

/-- Only the empty text is in the language of no pieces. -/
lemma mem_nil : l ∈ language value [] ↔ l = [] := Language.mem_one l

/-- A text is split between the first piece and the others. -/
lemma mem_cons {piece : Piece α} : l ∈ language value (piece :: pieces) ↔
    ∃ a ∈ piece.language value, ∃ b ∈ language value pieces, a ++ b = l := by
  rw [language, List.map_cons, List.prod_cons]
  exact Language.mem_mul

/-- Each piece but `many` takes one element. -/
lemma exists_eq_singleton {piece : Piece α} (one : piece ≠ .many) (mem : l ∈ piece.language value) :
    ∃ c, l = [c] := by
  cases piece with
  | literal x => exact ⟨x, mem⟩
  | any => exact mem
  | many => exact absurd rfl one
  | bracket items =>
    obtain ⟨c, e, -⟩ := mem
    exact ⟨c, e⟩

/-- Only many can stand for nothing. -/
lemma nil_not_mem {piece : Piece α} (one : piece ≠ .many) : [] ∉ language value (piece :: pieces) := by
  rw [mem_cons]
  rintro ⟨a, mem, b, -, e⟩
  obtain ⟨c, rfl⟩ := exists_eq_singleton one mem
  cases e

/-- Any other piece stands for one character. -/
lemma cons_mem {piece : Piece α} (one : piece ≠ .many) : c :: l ∈ language value (piece :: pieces) ↔
    [c] ∈ piece.language value ∧ l ∈ language value pieces := by
  rw [mem_cons]
  constructor
  · rintro ⟨a, mem, b, mem', e⟩
    obtain ⟨d, rfl⟩ := exists_eq_singleton one mem
    obtain ⟨rfl, rfl⟩ := List.cons.inj e
    exact ⟨mem, mem'⟩
  · rintro ⟨mem, mem'⟩
    exact ⟨[c], mem, l, mem', rfl⟩

/-- A literal stands for itself. -/
lemma cons_mem_literal :
    c :: l ∈ language value (.literal x :: pieces) ↔ x = c ∧ l ∈ language value pieces := by
  have mem : [c] ∈ (Piece.literal x).language value ↔ x = c := by
    constructor
    · intro mem
      exact (List.cons.inj mem).1.symm
    · rintro rfl
      rfl
  rw [cons_mem (by simp), mem]

/-- Any stands for each character. -/
lemma cons_mem_any : c :: l ∈ language value (.any :: pieces) ↔ l ∈ language value pieces := by
  rw [cons_mem (by simp)]
  exact and_iff_right ⟨c, rfl⟩

/-- A bracket stands for what its items cover. -/
lemma cons_mem_bracket : c :: l ∈ language value (.bracket items :: pieces) ↔
    (∃ item ∈ items, item.Covers value c) ∧ l ∈ language value pieces := by
  have mem : [c] ∈ (Piece.bracket items).language value ↔ ∃ item ∈ items, item.Covers value c := by
    constructor
    · rintro ⟨d, e, covers⟩
      obtain ⟨rfl, -⟩ := List.cons.inj e
      exact covers
    · intro covers
      exact ⟨c, rfl, covers⟩
  rw [cons_mem (by simp), mem]

/-- Many may stand for nothing. -/
lemma nil_mem_many : [] ∈ language value (.many :: pieces) ↔ [] ∈ language value pieces := by
  rw [mem_cons]
  constructor
  · rintro ⟨a, -, b, mem, e⟩
    obtain ⟨-, rfl⟩ := List.append_eq_nil_iff.mp e
    exact mem
  · intro mem
    exact ⟨[], trivial, [], mem, rfl⟩

/-- Either the rest of the pattern starts here, or one more element is skipped. -/
lemma cons_mem_many : c :: l ∈ language value (.many :: pieces) ↔
    c :: l ∈ language value pieces ∨ l ∈ language value (.many :: pieces) := by
  simp only [mem_cons]
  constructor
  · rintro ⟨a, -, b, mem, e⟩
    cases a with
    | nil => exact .inl (e ▸ mem)
    | cons d a =>
      obtain ⟨-, rfl⟩ := List.cons.inj e
      exact .inr ⟨a, trivial, b, mem, rfl⟩
  · rintro (mem | ⟨a, -, b, mem, rfl⟩)
    · exact ⟨[], trivial, c :: l, mem, rfl⟩
    · exact ⟨c :: a, trivial, b, mem, rfl⟩

end Glob
