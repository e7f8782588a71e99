import Mathlib.Logic.Function.Basic
import Mathlib.Tactic.Common

/-!
# Heaps whose objects have one owner

`ptr` says which object an owner points to, `heap` what is at an address. `Owned` is the discipline of the
code that has one object for each owner at most: no pointer dangles, no two owners share an object, and no
object is lost. An object is made, written and deleted through its owner, and each of these keeps it.
-/

namespace Ownership

variable {α ρ β : Type*}

/-- The objects of the heap belong to their owners, one each. -/
structure Owned (ptr : α → Option ρ) (heap : ρ → Option β) : Prop where
  live : ∀ {a p}, ptr a = some p → ∃ b, heap p = some b
  one : ∀ {a a' p}, ptr a = some p → ptr a' = some p → a = a'
  owner : ∀ {p b}, heap p = some b → ∃ a, ptr a = some p

namespace Owned

variable {ptr : α → Option ρ} {heap : ρ → Option β} {a a' : α} {p : ρ} {b : β}

/-- Nothing is owned. -/
lemma empty : Owned (fun _ : α => (none : Option ρ)) (fun _ => (none : Option β)) :=
  ⟨nofun, nofun, nofun⟩

variable [DecidableEq α] [DecidableEq ρ]

/-- An owner without an object gets a new one. -/
lemma create (h : Owned ptr heap) (none_a : ptr a = none) (fresh : heap p = none) :
    Owned (Function.update ptr a (some p)) (Function.update heap p (some b)) := by
  have unused : ∀ c, ptr c ≠ some p := by
    intro c e
    obtain ⟨d, e⟩ := h.live e
    cases fresh.symm.trans e
  constructor
  · intro c q e
    by_cases same : q = p
    · exact ⟨b, by rw [same, Function.update_self]⟩
    · rw [Function.update_of_ne same]
      by_cases here : c = a
      · rw [here, Function.update_self] at e
        exact absurd (Option.some.inj e).symm same
      · rw [Function.update_of_ne here] at e
        exact h.live e
  · intro c d q ec ed
    by_cases c_here : c = a <;> by_cases d_here : d = a
    · rw [c_here, d_here]
    · rw [c_here, Function.update_self] at ec
      rw [Function.update_of_ne d_here] at ed
      exact absurd (Option.some.inj ec ▸ ed) (unused d)
    · rw [d_here, Function.update_self] at ed
      rw [Function.update_of_ne c_here] at ec
      exact absurd (Option.some.inj ed ▸ ec) (unused c)
    · rw [Function.update_of_ne c_here] at ec
      rw [Function.update_of_ne d_here] at ed
      exact h.one ec ed
  · intro q d e
    by_cases same : q = p
    · exact ⟨a, by rw [same, Function.update_self]⟩
    · rw [Function.update_of_ne same] at e
      obtain ⟨c, e⟩ := h.owner e
      refine ⟨c, ?_⟩
      rw [Function.update_of_ne]
      · exact e
      · rintro rfl
        cases none_a.symm.trans e

/-- An owner deletes its object and forgets it. -/
lemma delete (h : Owned ptr heap) (e : ptr a = some p) :
    Owned (Function.update ptr a none) (Function.update heap p none) := by
  have rest : ∀ {c q}, Function.update ptr a none c = some q → c ≠ a ∧ ptr c = some q := by
    intro c q ec
    by_cases here : c = a
    · rw [here, Function.update_self] at ec
      cases ec
    · rw [Function.update_of_ne here] at ec
      exact ⟨here, ec⟩
  constructor
  · intro c q ec
    obtain ⟨ne, ec⟩ := rest ec
    have other : q ≠ p := by
      rintro rfl
      exact ne (h.one ec e)
    rw [Function.update_of_ne other]
    exact h.live ec
  · intro c d q ec ed
    exact h.one (rest ec).2 (rest ed).2
  · intro q d eq
    by_cases same : q = p
    · rw [same, Function.update_self] at eq
      cases eq
    · rw [Function.update_of_ne same] at eq
      obtain ⟨c, ec⟩ := h.owner eq
      refine ⟨c, ?_⟩
      rw [Function.update_of_ne]
      · exact ec
      · rintro rfl
        exact same (Option.some.inj (ec.symm.trans e))

omit [DecidableEq α] in
/-- An owner writes to its object. -/
lemma write (h : Owned ptr heap) (e : ptr a = some p) : Owned ptr (Function.update heap p (some b)) := by
  refine ⟨fun {c q} ec => ?_, h.one, fun {q d} eq => ?_⟩
  · by_cases same : q = p
    · exact ⟨b, by rw [same, Function.update_self]⟩
    · rw [Function.update_of_ne same]
      exact h.live ec
  · by_cases same : q = p
    · exact ⟨a, same ▸ e⟩
    · rw [Function.update_of_ne same] at eq
      exact h.owner eq

end Owned
end Ownership
