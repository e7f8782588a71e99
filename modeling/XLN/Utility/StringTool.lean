import XLN.Lib.Trim
import XLN.Foundation.DataStream

/-!
# Trimming strings

`Core/Utility/StringTool.cpp`: `StringUtil::Trim` takes spaces, tabs and carriage returns off both ends of a
string (`trim_eq_both`).
-/

namespace XLN

/-- `find_first_not_of`; `none` is `npos`. -/
def findFirstNotOf (str delim : ByteString) : Option Nat :=
  str.findIdx? fun c => c ∉ delim

/-- `find_last_not_of`. -/
def findLastNotOf (str delim : ByteString) : Option Nat :=
  (str.reverse.findIdx? fun c => c ∉ delim).map fun i => str.length - 1 - i

/-- `erase`. -/
def erase (str : ByteString) (index : Nat) (count : Option Nat) : ByteString :=
  str.take index ++
    match count with
    | some count => str.drop (index + count)
    | none => []

namespace StringUtil

/-- The characters that `Trim` takes off. -/
def delim : ByteString := [32, 9, 13]

/-- `StringUtil::Trim`. -/
def trim (left right : Bool) (str : ByteString) : ByteString :=
  let str := if left then erase str 0 (findFirstNotOf str delim) else str
  if right then
    -- `npos + 1` is 0
    erase str ((findLastNotOf str delim).elim 0 fun rightTrim => rightTrim + 1) none
  else str

/-- The loop over the front. -/
lemma erase_findFirstNotOf (str delim : ByteString) :
    erase str 0 (findFirstNotOf str delim) = str.dropWhile fun c => c ∈ delim := by
  have index : str.dropWhile (fun c => c ∈ delim) = str.drop (str.findIdx fun c => !decide (c ∈ delim)) :=
    List.dropWhile_eq_drop_findIdx_not
  cases found : findFirstNotOf str delim with
  | none =>
    have all : ∀ c ∈ str, c ∈ delim := by
      simpa [findFirstNotOf, List.findIdx?_eq_none_iff] using found
    refine (List.dropWhile_eq_nil_iff.mpr fun c mem => ?_).symm
    exact decide_eq_true (all c mem)
  | some i =>
    obtain ⟨-, first⟩ := List.findIdx?_eq_some_iff_findIdx_eq.mp found
    rw [index, erase, List.take_zero, List.nil_append, Nat.zero_add, ← first]
    simp

/-- The loop over the back. -/
lemma erase_findLastNotOf (str delim : ByteString) :
    erase str ((findLastNotOf str delim).elim 0 fun rightTrim => rightTrim + 1) none =
      str.rdropWhile fun c => c ∈ delim := by
  have index : str.reverse.dropWhile (fun c => c ∈ delim) =
      str.reverse.drop (str.reverse.findIdx fun c => !decide (c ∈ delim)) :=
    List.dropWhile_eq_drop_findIdx_not
  rw [erase, List.append_nil, findLastNotOf]
  cases found : str.reverse.findIdx? fun c => c ∉ delim with
  | none =>
    have all : ∀ c ∈ str, c ∈ delim := by
      simpa [List.findIdx?_eq_none_iff] using found
    refine List.take_zero.trans (List.rdropWhile_eq_nil_iff.mpr fun c mem => ?_).symm
    exact decide_eq_true (all c mem)
  | some i =>
    obtain ⟨lt, first⟩ := List.findIdx?_eq_some_iff_findIdx_eq.mp found
    rw [List.length_reverse] at lt
    have last : str.length - 1 - i + 1 = str.length - i := by omega
    simp only [← decide_not, first] at index
    rw [List.rdropWhile, index, List.drop_reverse, List.reverse_reverse]
    exact congrArg str.take last

/-- Both ends are trimmed. -/
lemma trim_eq_both (str : ByteString) : trim true true str = Trim.both (fun c => c ∈ delim) str := by
  rw [trim, if_pos rfl, if_pos rfl, erase_findFirstNotOf]
  exact erase_findLastNotOf _ delim

end StringUtil
end XLN
