import Mathlib.Algebra.Ring.Int.Defs
import Mathlib.Algebra.Ring.Nat
import Mathlib.Data.List.Basic
import Mathlib.Tactic.Common

/-!
# Reading and writing along a tape

A cursor moves along a tape of symbols. `At s left right` says of a state `s` that the symbols `left`
lie behind its cursor and `right` ahead of it. `Reads` and `Writes` are the contracts of a decoder and
of an encoder: both move over exactly one code word. They compose, and a loop over a list of items
moves over the concatenation of the code words of the items. The last section is about unsigned scalars of a fixed width on a tape of bytes.
-/

namespace Tape

variable {σ β α γ ι : Type*} (At : σ → List β → List β → Prop)

/-- With `code` ahead of the cursor, `dec` gives `a` and stops behind `code`. -/
def Reads (dec : σ → Option (α × σ)) (code : List β) (a : α) : Prop :=
  ∀ ⦃s left right⦄, At s left (code ++ right) →
    ∃ s', dec s = some (a, s') ∧ At s' (left ++ code) right

/-- With `code` ahead of the cursor, `dec` gives nothing. -/
def Fails (dec : σ → Option (α × σ)) (code : List β) : Prop :=
  ∀ ⦃s left right⦄, At s left (code ++ right) → dec s = none

/-- With room for it, `enc` puts `code` over what was ahead of the cursor and stops behind it. -/
def Writes (enc : σ → Option σ) (code : List β) : Prop :=
  ∀ ⦃s left right⦄, At s left right → code.length ≤ right.length →
    ∃ s', enc s = some s' ∧ At s' (left ++ code) (right.drop code.length)

variable {At} {dec : σ → Option (α × σ)} {next : α → σ → Option (γ × σ)} {enc enc' : σ → Option σ}
  {code code' : List β} {a : α} {b : γ}

/-- Nothing is read. -/
lemma Reads.pure : Reads At (fun s => some (a, s)) [] a := by
  intro s left right h
  exact ⟨s, rfl, by simpa using h⟩

/-- What is read one after the other. -/
lemma Reads.bind (first : Reads At dec code a) (second : Reads At (next a) code' b) :
    Reads At (fun s => (dec s).bind fun r => next r.1 r.2) (code ++ code') b := by
  intro s left right h
  rw [List.append_assoc] at h
  obtain ⟨s1, e1, h1⟩ := first h
  obtain ⟨s2, e2, h2⟩ := second h1
  refine ⟨s2, ?_, by rwa [← List.append_assoc]⟩
  change (dec s).bind _ = _
  rw [e1, Option.bind_some, e2]

/-- A reader that fails first fails. -/
lemma Fails.bind (first : Fails At dec code) :
    Fails At (fun s => (dec s).bind fun r => next r.1 r.2) (code ++ code') := by
  intro s left right h
  rw [List.append_assoc] at h
  change (dec s).bind _ = none
  rw [first h, Option.bind_none]

/-- A reader that fails later fails. -/
lemma Reads.bind_fails (first : Reads At dec code a) (second : Fails At (next a) code') :
    Fails At (fun s => (dec s).bind fun r => next r.1 r.2) (code ++ code') := by
  intro s left right h
  rw [List.append_assoc] at h
  obtain ⟨s1, e1, h1⟩ := first h
  change (dec s).bind _ = none
  rw [e1, Option.bind_some]
  exact second h1

/-- Nothing is written. -/
lemma Writes.nil : Writes At some ([] : List β) := by
  intro s left right h _
  exact ⟨s, rfl, by simpa using h⟩

/-- What is written one after the other. -/
lemma Writes.bind (first : Writes At enc code) (second : Writes At enc' code') :
    Writes At (fun s => (enc s).bind enc') (code ++ code') := by
  intro s left right h room
  rw [List.length_append] at room
  obtain ⟨s1, e1, h1⟩ := first h (by omega)
  obtain ⟨s2, e2, h2⟩ := second h1 (by rw [List.length_drop]; omega)
  refine ⟨s2, ?_, ?_⟩
  · change (enc s).bind enc' = some s2
    rw [e1, Option.bind_some, e2]
  · rwa [List.append_assoc, List.drop_drop, ← List.length_append] at h2

/-- A loop that writes item after item. -/
lemma Writes.foldlM {enc : σ → ι → Option σ} {code : ι → List β} {items : List ι}
    (each : ∀ x ∈ items, Writes At (fun s => enc s x) (code x)) :
    Writes At (fun s => items.foldlM enc s) (items.flatMap code) := by
  induction items with
  | nil => exact Writes.nil
  | cons x items ih =>
    rw [List.flatMap_cons]
    exact (each x List.mem_cons_self).bind (ih fun y hy => each y (List.mem_cons_of_mem _ hy))

/-- A counted loop whose body takes and returns an accumulator. -/
def times (body : α → σ → Option (α × σ)) : Nat → α → σ → Option (α × σ)
  | 0, acc, s => some (acc, s)
  | n + 1, acc, s => (body acc s).bind fun r => times body n r.1 r.2

/-- A counted loop that reads item after item. -/
lemma Reads.times {body : α → σ → Option (α × σ)} {code : ι → List β} {upd : α → ι → α}
    {items : List ι} (each : ∀ x ∈ items, ∀ acc, Reads At (body acc) (code x) (upd acc x)) (acc : α) :
    Reads At (times body items.length acc) (items.flatMap code) (items.foldl upd acc) := by
  induction items generalizing acc with
  | nil => exact Reads.pure
  | cons x items ih =>
    rw [List.flatMap_cons]
    exact (each x List.mem_cons_self acc).bind
      (ih (fun y hy => each y (List.mem_cons_of_mem _ hy)) (upd acc x))

/-- Such a loop fails as soon as one item does. -/
lemma Fails.times {body : α → σ → Option (α × σ)} {code : ι → List β} {upd : α → ι → α}
    {items : List ι} {P : ι → Prop} [DecidablePred P]
    (good : ∀ x ∈ items, P x → ∀ acc, Reads At (body acc) (code x) (upd acc x))
    (bad : ∀ x ∈ items, ¬ P x → ∀ acc, Fails At (body acc) (code x))
    (some_bad : ∃ x ∈ items, ¬ P x) (acc : α) :
    Fails At (Tape.times body items.length acc) (items.flatMap code) := by
  induction items generalizing acc with
  | nil => simp at some_bad
  | cons x items ih =>
    rw [List.flatMap_cons]
    by_cases p : P x
    · have rest : ∃ y ∈ items, ¬ P y := by
        obtain ⟨y, hy, hp⟩ := some_bad
        rcases List.mem_cons.mp hy with rfl | hy
        · exact absurd p hp
        · exact ⟨y, hy, hp⟩
      exact (good x List.mem_cons_self p acc).bind_fails
        (ih (fun y hy => good y (List.mem_cons_of_mem _ hy))
          (fun y hy => bad y (List.mem_cons_of_mem _ hy)) rest _)
    · exact (bad x List.mem_cons_self p acc).bind

/-! ## Scalars -/

/-- The `width` bytes of `n`, the least significant one first. -/
def leBytes : Nat → Nat → List UInt8
  | 0, _ => []
  | width + 1, n => UInt8.ofNat n :: leBytes width (n / 256)

/-- The number whose bytes these are. -/
def ofLeBytes : List UInt8 → Nat
  | [] => 0
  | b :: bytes => b.toNat + 256 * ofLeBytes bytes

/-- A number has as many bytes as its width. -/
@[simp] lemma length_leBytes (width n : Nat) : (leBytes width n).length = width := by
  induction width generalizing n with
  | zero => rfl
  | succ width ih => rw [leBytes, List.length_cons, ih]

/-- A number that fits into the width is read back. -/
lemma ofLeBytes_leBytes {width n : Nat} (fits : n < 256 ^ width) :
    ofLeBytes (leBytes width n) = n := by
  induction width generalizing n with
  | zero =>
    have : n = 0 := by simpa using fits
    simp [leBytes, ofLeBytes, this]
  | succ width ih =>
    have high : n / 256 < 256 ^ width := by
      rw [Nat.pow_succ] at fits
      exact Nat.div_lt_of_lt_mul (by omega)
    rw [leBytes, ofLeBytes, ih high, UInt8.toNat_ofNat']
    omega

end Tape
