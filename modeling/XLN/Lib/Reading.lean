import Mathlib.Data.List.Basic

/-!
# Reading back what was written

A reader takes a value from the front of a text and leaves the rest. It belongs to a writer if it takes what
the writer makes of a value and nothing else (`Reads`). Values one after the other, with a symbol behind them
that none of them starts with, are read back as well (`list_iff`).
-/

namespace Reading

variable {α β γ : Type*}

/-- `read` takes what `write` makes of a value, and nothing else. -/
def Reads (write : α → List β) (read : List β → Option (α × List β)) : Prop :=
  ∀ text a rest, read text = some (a, rest) ↔ text = write a ++ rest

/-- Takes one symbol. -/
def symbol : List β → Option (β × List β)
  | [] => none
  | c :: rest => some (c, rest)

/-- A symbol is read. -/
lemma reads_symbol : Reads (fun c : β => [c]) symbol := by
  intro text a rest
  cases text with
  | nil => exact ⟨nofun, nofun⟩
  | cons c text =>
    constructor
    · intro e
      cases e
      rfl
    · intro e
      cases e
      rfl

variable {write : α → List β} {read : List β → Option (α × List β)}

/-- A value is read back, whatever follows. -/
lemma Reads.append (reads : Reads write read) (a : α) (rest : List β) :
    read (write a ++ rest) = some (a, rest) :=
  (reads _ a rest).mpr rfl

/-- What follows a value is shorter. -/
lemma length_rest_lt (nonempty : ∀ a, write a ≠ []) (a : α) (rest : List β) :
    rest.length < (write a ++ rest).length := by
  have pos := List.length_pos_of_ne_nil (nonempty a)
  rw [List.length_append]
  omega

variable [DecidableEq β]

/-- Takes values up to the symbol, and the symbol. -/
def list (read : List β → Option (α × List β)) (stop : β) : Nat → List β → Option (List α × List β)
  | 0, _ => none
  | fuel + 1, text =>
    if text.head? = some stop then some ([], text.tail)
    else (read text).bind fun (a, rest) => (list read stop fuel rest).map fun (as, rest) => (a :: as, rest)

/-- With enough fuel, it takes the values that are written there. -/
lemma list_iff (reads : Reads write read) (nonempty : ∀ a, write a ≠ []) {stop : β} {fuel : Nat}
    {text rest : List β} {as : List α} (enough : text.length < fuel) :
    list read stop fuel text = some (as, rest) ↔
      (∀ a ∈ as, (write a).head? ≠ some stop) ∧ text = as.flatMap write ++ stop :: rest := by
  induction fuel generalizing text as with
  | zero => exact absurd enough (Nat.not_lt_zero _)
  | succ fuel ih =>
    rw [list]
    by_cases here : text.head? = some stop
    · obtain ⟨l, rfl⟩ := List.head?_eq_some_iff.mp here
      rw [if_pos here]
      constructor
      · intro e
        cases e
        exact ⟨nofun, rfl⟩
      · rintro ⟨other, e⟩
        cases as with
        | nil =>
          cases e
          rfl
        | cons a as =>
          obtain ⟨c, l', first⟩ := List.exists_cons_of_ne_nil (nonempty a)
          rw [List.flatMap_cons, first] at e
          cases (List.cons.inj e).1
          exact absurd (by rw [first]; rfl) (other a List.mem_cons_self)
    · rw [if_neg here, Option.bind_eq_some_iff]
      constructor
      · rintro ⟨⟨a, rest'⟩, first, more⟩
        obtain ⟨⟨as', rest''⟩, others, e⟩ := Option.map_eq_some_iff.mp more
        cases e
        obtain rfl := (reads _ _ _).mp first
        have shorter := length_rest_lt nonempty a rest'
        obtain ⟨other, rfl⟩ := (ih (by omega)).mp others
        obtain ⟨c, l, symbols⟩ := List.exists_cons_of_ne_nil (nonempty a)
        refine ⟨List.forall_mem_cons.mpr ⟨?_, other⟩, by rw [List.flatMap_cons, List.append_assoc]⟩
        rw [symbols, List.cons_append] at here
        rwa [symbols]
      · rintro ⟨other, rfl⟩
        cases as with
        | nil => exact absurd rfl here
        | cons a as =>
          rw [List.flatMap_cons, List.append_assoc] at enough ⊢
          have shorter := length_rest_lt nonempty a (as.flatMap write ++ stop :: rest)
          refine ⟨_, reads.append a _, Option.map_eq_some_iff.mpr ⟨(as, rest), ?_, rfl⟩⟩
          exact (ih (by omega)).mpr ⟨(List.forall_mem_cons.mp other).2, rfl⟩

/-- Takes the symbols before the symbol, and the symbol. -/
def word (stop : β) (text : List β) : Option (List β × List β) :=
  list symbol stop (text.length + 1) text

/-- A word ends at the first stop. -/
lemma word_iff {stop : β} {text w rest : List β} :
    word stop text = some (w, rest) ↔ stop ∉ w ∧ text = w ++ stop :: rest := by
  rw [word, list_iff reads_symbol (fun _ => List.cons_ne_nil _ _) (Nat.lt_succ_self _)]
  refine and_congr ⟨fun other mem => other stop mem rfl, fun absent c mem e => ?_⟩ ?_
  · cases e
    exact absent mem
  · rw [List.flatMap_singleton']

end Reading
