import XLN.Lib.Trim
import Mathlib.Tactic.Common

/-!
# Header fields

The header fields of an HTTP message, given as text: the lines after the first one and before the first
empty one. A line ends with LF, before which a CR is allowed. The name of a field is what stands before the
first colon, its value what comes after it, without the whitespace around it.
-/

namespace Http

/-- LF, CR and the colon. -/
def lf : UInt8 := 10

def cr : UInt8 := 13

def colon : UInt8 := 58

/-- Space, tab, LF, VT, FF and CR. -/
def isSpace (c : UInt8) : Bool :=
  c = 32 || (9 ≤ c && c ≤ 13)

/-- Letters are compared without regard to case. -/
def lower (c : UInt8) : UInt8 :=
  if 65 ≤ c ∧ c ≤ 90 then c + 32 else c

def headerLines (text : List UInt8) : List (List UInt8) :=
  (text.splitOn lf).tail.takeWhile fun line => line ≠ [] ∧ line ≠ [cr]

def fieldName (line : List UInt8) : List UInt8 :=
  line.takeWhile (· ≠ colon)

/-- What comes after the first colon. -/
def afterColon (line : List UInt8) : List UInt8 :=
  (line.dropWhile (· ≠ colon)).tail

def fieldValue (line : List UInt8) : List UInt8 :=
  Trim.both isSpace (afterColon line)

/-- The message has a field with this name and value. -/
def HasField (text name value : List UInt8) : Prop :=
  ∃ line ∈ headerLines text, colon ∈ line ∧ (fieldName line).map lower = name.map lower ∧
    fieldValue line = value

/-- The message has the field, with this value only. -/
def Carries (text name value : List UInt8) : Prop :=
  ∀ v, HasField text name v ↔ v = value

instance (text name value : List UInt8) : Decidable (HasField text name value) :=
  inferInstanceAs (Decidable (∃ line ∈ headerLines text, _))

section Split
variable {α : Type} [DecidableEq α] {a : α} {l first rest : List α}

/-- What comes before the first separator. -/
lemma takeWhile_append_cons (absent : a ∉ first) : (first ++ a :: rest).takeWhile (· ≠ a) = first := by
  have before : ∀ c ∈ first, decide (c ≠ a) = true := fun c mem =>
    decide_eq_true fun e => absent (e ▸ mem)
  rw [List.takeWhile_append_of_pos before, List.takeWhile_cons_of_neg (by simp), List.append_nil]

/-- What comes from the first separator on. -/
lemma dropWhile_append_cons (absent : a ∉ first) :
    (first ++ a :: rest).dropWhile (· ≠ a) = a :: rest := by
  have before : ∀ c ∈ first, decide (c ≠ a) = true := fun c mem =>
    decide_eq_true fun e => absent (e ▸ mem)
  rw [List.dropWhile_append_of_pos before, List.dropWhile_cons_of_neg (by simp)]

/-- The first part of a list that is split. -/
lemma splitOn_head (a : α) (l : List α) : ∃ rest, l.splitOn a = l.takeWhile (· ≠ a) :: rest := by
  by_cases mem : a ∈ l
  · obtain ⟨first, rest, rfl, absent⟩ := List.eq_append_cons_of_mem mem
    refine ⟨rest.splitOn a, ?_⟩
    rw [List.splitOn_append_cons_self_of_not_mem absent, takeWhile_append_cons absent]
  · have whole : l.takeWhile (· ≠ a) = l := by
      rw [List.takeWhile_eq_self_iff]
      exact fun c mem' => decide_eq_true fun e => mem (e ▸ mem')
    exact ⟨[], by rw [List.splitOn_eq_singleton mem, whole]⟩

/-- The first two parts, where there are two. -/
lemma splitOn_of_mem (mem : a ∈ l) :
    ∃ rest, l.splitOn a =
      l.takeWhile (· ≠ a) :: (l.dropWhile (· ≠ a)).tail.takeWhile (· ≠ a) :: rest := by
  obtain ⟨first, second, rfl, absent⟩ := List.eq_append_cons_of_mem mem
  obtain ⟨rest, e⟩ := splitOn_head a second
  refine ⟨rest, ?_⟩
  rw [List.splitOn_append_cons_self_of_not_mem absent, takeWhile_append_cons absent,
    dropWhile_append_cons absent, e]
  rfl

end Split

/-- A line that is made of a name and a value. -/
lemma fieldName_append {name value : List UInt8} (absent : colon ∉ name) :
    fieldName (name ++ colon :: value) = name :=
  takeWhile_append_cons absent

/-- A value comes behind the colon. -/
lemma afterColon_append {name value : List UInt8} (absent : colon ∉ name) :
    afterColon (name ++ colon :: value) = value := by
  rw [afterColon, dropWhile_append_cons absent]
  rfl

end Http
