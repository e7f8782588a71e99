import XLN.Lib.Tokens
import XLN.Utility.StringTool

/-!
# Splitting strings

`Core/Utility/StringTool.cpp`: `Split` is one loop in both overloads. It counts the splits in an `UInt32`
that wraps (`split_iff`). `SplitFilename` leaves the parts alone that the name does not have
(`splitFilename_iff`).
-/

namespace XLN

/-- `find_first_not_of` from a position on; `none` is `npos`. -/
def findFirstNotOfFrom (str delims : ByteString) (pos : Option Nat) : Option Nat :=
  pos.bind fun pos => (findFirstNotOf (str.drop pos) delims).map (pos + ·)

/-- `find_first_of`. -/
def findFirstOf (str delims : ByteString) (pos : Nat) : Option Nat :=
  ((str.drop pos).findIdx? fun c => c ∈ delims).map (pos + ·)

/-- `find_last_of`. -/
def findLastOf (str delims : ByteString) : Option Nat :=
  (str.reverse.findIdx? fun c => c ∈ delims).map fun i => str.length - 1 - i

/-- `assign` with the `right - left` characters from `left` on, as many as there are. -/
def assign (str : ByteString) (left : Nat) (right : Option Nat) : ByteString :=
  match right with
  | some right => (str.drop left).take (right - left)
  | none => str.drop left

namespace StringUtil
open Tokens

/-- The loop of `StringUtil::Split`; `none` if it takes more than `fuel` rounds. -/
def splitLoop (str delims : ByteString) (maxSplits : UInt32) :
    Nat → Option Nat → UInt32 → List ByteString → Option (List ByteString)
  | _, none, _, vec => some vec
  | fuel, some left, curSplit, vec =>
    if maxSplits = 0 ∨ curSplit ≤ maxSplits then
      match fuel with
      | 0 => none
      | fuel + 1 =>
        let right := findFirstOf str delims left
        let tmp := assign str left right
        splitLoop str delims maxSplits fuel (findFirstNotOfFrom str delims right) (curSplit + 1)
          (vec ++ [tmp])
    else some vec

/-- `StringUtil::Split`. -/
def split (str delims : ByteString) (maxSplits : UInt32) : Option (List ByteString) :=
  splitLoop str delims maxSplits (str.length + 1) (findFirstNotOf str delims) 1 []

/-- `StringUtil::Split` with the vector for its result. -/
def splitTo (outToken : List ByteString) (str delims : ByteString) (maxSplits : UInt32) :
    Option (List ByteString) :=
  let outToken := outToken.take 0
  splitLoop str delims maxSplits (str.length + 1) (findFirstNotOf str delims) 1 outToken

/-- What `Split` should give. -/
def splits (str delims : ByteString) (maxSplits : UInt32) : List ByteString :=
  let all := tokens (fun c => c ∈ delims) str
  if maxSplits = 0 then all else all.take maxSplits.toNat

/-- Both overloads give the tokens, whatever the vector held before. -/
def SplitsRight (str delims : ByteString) (maxSplits : UInt32) : Prop :=
  split str delims maxSplits = some (splits str delims maxSplits) ∧
    ∀ outToken, splitTo outToken str delims maxSplits = some (splits str delims maxSplits)

/-! ## One round -/

/-- The loop stands at `left` before the first token of `rest`. -/
inductive Standing (str delims : ByteString) : Option Nat → ByteString → Prop
  | ended {rest : ByteString} (all : rest.dropWhile (fun c => c ∈ delims) = []) :
    Standing str delims none rest
  | before {rest l : ByteString} {left : Nat} {c : UInt8} (here : str.drop left = c :: l) (clean : c ∉ delims)
    (e : rest.dropWhile (fun c => c ∈ delims) = c :: l) : Standing str delims (some left) rest

variable {str delims rest : ByteString} {maxSplits curSplit : UInt32} {left : Option Nat} {fuel : Nat}
  {vec : List ByteString}

/-- `find_first_not_of` skips the delimiters. -/
lemma standing_from (str delims : ByteString) (i : Nat) :
    Standing str delims (findFirstNotOfFrom str delims (some i)) (str.drop i) := by
  have index : (str.drop i).dropWhile (fun c => c ∈ delims) =
      (str.drop i).drop ((str.drop i).findIdx fun c => !decide (c ∈ delims)) :=
    List.dropWhile_eq_drop_findIdx_not
  rw [findFirstNotOfFrom, Option.bind_some]
  cases found : findFirstNotOf (str.drop i) delims with
  | none =>
    have all : ∀ c ∈ str.drop i, c ∈ delims := by
      simpa [findFirstNotOf, List.findIdx?_eq_none_iff] using found
    exact .ended (List.dropWhile_eq_nil_iff.mpr fun c mem => decide_eq_true (all c mem))
  | some k =>
    obtain ⟨lt, first⟩ := List.findIdx?_eq_some_iff_findIdx_eq.mp found
    obtain ⟨_, clean, -⟩ := List.findIdx?_eq_some_iff_getElem.mp found
    have here : (str.drop i).drop k = (str.drop i)[k] :: (str.drop i).drop (k + 1) :=
      List.drop_eq_getElem_cons lt
    simp only [decide_not] at first
    rw [first] at index
    refine .before (by rw [← List.drop_drop, here]) (by simpa using clean) (index.trans here)

/-- A round takes one token off. -/
lemma standing_next {left : Nat} (standing : Standing str delims (some left) rest) :
    ∃ rest', tokens (fun c => c ∈ delims) rest =
        assign str left (findFirstOf str delims left) :: tokens (fun c => c ∈ delims) rest' ∧
      Standing str delims (findFirstNotOfFrom str delims (findFirstOf str delims left)) rest' := by
  cases standing with
  | before here clean e =>
    rename_i l c
    have clean : (decide (c ∈ delims)) = false := decide_eq_false clean
    rw [← tokens_dropWhile, e, tokens_cons (p := fun c => decide (c ∈ delims)) clean, ← here]
    refine ⟨(str.drop left).dropWhile fun c => !decide (c ∈ delims), ?_⟩
    have index : (str.drop left).dropWhile (fun c => !decide (c ∈ delims)) =
        (str.drop left).drop ((str.drop left).findIdx fun c => !!decide (c ∈ delims)) :=
      List.dropWhile_eq_drop_findIdx_not
    have index' : (str.drop left).takeWhile (fun c => !decide (c ∈ delims)) =
        (str.drop left).take ((str.drop left).findIdx fun c => !!decide (c ∈ delims)) :=
      List.takeWhile_eq_take_findIdx_not
    simp only [Bool.not_not] at index index'
    rw [findFirstOf]
    cases found : (str.drop left).findIdx? fun c => c ∈ delims with
    | none =>
      have none' : ∀ c ∈ str.drop left, c ∉ delims := by
        simpa [List.findIdx?_eq_none_iff] using found
      have all : (str.drop left).dropWhile (fun c => !decide (c ∈ delims)) = [] :=
        List.dropWhile_eq_nil_iff.mpr fun c mem => by simpa using none' c mem
      have whole := List.takeWhile_append_dropWhile (p := fun c => !decide (c ∈ delims)) (l := str.drop left)
      rw [all, List.append_nil] at whole
      rw [all]
      exact ⟨by rw [whole]; rfl, .ended rfl⟩
    | some k =>
      obtain ⟨lt, first⟩ := List.findIdx?_eq_some_iff_findIdx_eq.mp found
      rw [first] at index index'
      rw [index, index', List.drop_drop, Option.map_some, assign, Nat.add_sub_cancel_left]
      exact ⟨rfl, standing_from str delims (left + k)⟩

/-! ## The loop -/

/-- The tokens that the loop still takes: the limit counts only if the counter can pass it. -/
def taken (maxSplits curSplit : UInt32) (toks : List ByteString) : List ByteString :=
  if maxSplits = 0 ∨ maxSplits = 4294967295 then toks else toks.take (maxSplits.toNat + 1 - curSplit.toNat)

/-- Beyond the limit nothing is taken. -/
lemma taken_stop (stop : ¬ (maxSplits = 0 ∨ curSplit ≤ maxSplits)) (toks : List ByteString) :
    taken maxSplits curSplit toks = [] := by
  obtain ⟨nonzero, passed⟩ := not_or.mp stop
  rw [UInt32.not_le, UInt32.lt_iff_toNat_lt] at passed
  have bound := curSplit.toNat_lt
  have last : maxSplits ≠ 4294967295 := by
    rintro rfl
    simp at passed
    omega
  rw [taken, if_neg (by simp [nonzero, last]), Nat.sub_eq_zero_of_le passed, List.take_zero]

/-- Within the limit the next token is taken. -/
lemma taken_next (go : maxSplits = 0 ∨ curSplit ≤ maxSplits) (tok : ByteString) (toks : List ByteString) :
    taken maxSplits curSplit (tok :: toks) = tok :: taken maxSplits (curSplit + 1) toks := by
  unfold taken
  split
  next => rfl
  next limited =>
    obtain ⟨nonzero, last⟩ := not_or.mp limited
    have le : curSplit.toNat ≤ maxSplits.toNat := UInt32.le_iff_toNat_le.mp (go.resolve_left nonzero)
    have bound := maxSplits.toNat_lt
    have last : maxSplits.toNat ≠ 4294967295 := fun e => last (UInt32.toNat_inj.mp e)
    have next : (curSplit + 1).toNat = curSplit.toNat + 1 := by
      rw [UInt32.toNat_add, UInt32.toNat_one]
      omega
    have count : maxSplits.toNat + 1 - curSplit.toNat = maxSplits.toNat + 1 - (curSplit.toNat + 1) + 1 := by
      omega
    rw [next, count, List.take_succ_cons]

/-- Without tokens nothing is taken. -/
lemma taken_nil : taken maxSplits curSplit [] = [] := by
  rw [taken, List.take_nil, ite_self]

/-- Among delimiters there is no token. -/
lemma tokens_none (standing : Standing str delims none rest) : tokens (fun c => c ∈ delims) rest = [] := by
  cases standing with
  | ended all => rw [← tokens_dropWhile, all, tokens_nil]

/-- The loop adds the tokens of the rest. -/
lemma splitLoop_eq (standing : Standing str delims left rest)
    (enough : (tokens (fun c => c ∈ delims) rest).length ≤ fuel) :
    splitLoop str delims maxSplits fuel left curSplit vec =
      some (vec ++ taken maxSplits curSplit (tokens (fun c => c ∈ delims) rest)) := by
  induction fuel generalizing left rest curSplit vec with
  | zero =>
    cases left with
    | none => rw [splitLoop, tokens_none standing, taken_nil, List.append_nil]
    | some left =>
      obtain ⟨rest', e, -⟩ := standing_next standing
      rw [e] at enough
      cases enough
  | succ fuel ih =>
    cases left with
    | none => rw [splitLoop, tokens_none standing, taken_nil, List.append_nil]
    | some left =>
      obtain ⟨rest', e, standing'⟩ := standing_next standing
      rw [e] at enough
      rw [splitLoop, e]
      by_cases go : maxSplits = 0 ∨ curSplit ≤ maxSplits
      · rw [if_pos go, ih standing' (Nat.le_of_succ_le_succ enough), taken_next go, List.append_assoc]
        rfl
      · rw [if_neg go, taken_stop go, List.append_nil]

/-! ## Both overloads -/

/-- `Split` takes tokens up to the limit. -/
lemma split_eq (str delims : ByteString) (maxSplits : UInt32) :
    split str delims maxSplits = some (taken maxSplits 1 (tokens (fun c => c ∈ delims) str)) := by
  have standing : Standing str delims (findFirstNotOf str delims) str := by
    simpa [findFirstNotOfFrom] using standing_from str delims 0
  exact splitLoop_eq standing (length_tokens_le _ str)

/-- The vector is emptied first. -/
lemma splitTo_eq (outToken : List ByteString) (str delims : ByteString) (maxSplits : UInt32) :
    splitTo outToken str delims maxSplits = split str delims maxSplits := by
  rw [splitTo, List.take_zero, split]

/-- The counter stops the loop after the right number of tokens, unless it can not pass the limit. -/
lemma taken_eq_splits_iff (str delims : ByteString) (maxSplits : UInt32) :
    taken maxSplits 1 (tokens (fun c => c ∈ delims) str) = splits str delims maxSplits ↔
      ¬ (maxSplits = 4294967295 ∧ 4294967296 ≤ (tokens (fun c => c ∈ delims) str).length) := by
  rw [taken, splits]
  by_cases unlimited : maxSplits = 0
  · rw [if_pos (.inl unlimited), if_pos unlimited, eq_self, true_iff]
    rintro ⟨last, -⟩
    rw [last] at unlimited
    cases unlimited
  · by_cases last : maxSplits = 4294967295
    · rw [if_pos (.inr last), if_neg unlimited, last, eq_comm, List.take_eq_self_iff]
      simp
      omega
    · rw [if_neg (not_or.mpr ⟨unlimited, last⟩), if_neg unlimited, UInt32.toNat_one,
        Nat.add_sub_cancel, eq_self, true_iff]
      exact fun ⟨e, _⟩ => last e

/-- Both overloads of `Split` give the right tokens if and only if the limit is not the greatest `UInt32`
    with more tokens than that. -/
theorem split_iff (str delims : ByteString) (maxSplits : UInt32) :
    SplitsRight str delims maxSplits ↔
      ¬ (maxSplits = 4294967295 ∧ 4294967296 ≤ (tokens (fun c => c ∈ delims) str).length) := by
  rw [← taken_eq_splits_iff, SplitsRight]
  simp only [splitTo_eq, split_eq, Option.some.injEq, forall_const, and_self]

/-- With `2 ^ 32` tokens the counter starts again from 0, and one token too many is taken. -/
theorem split_wrap :
    let str : ByteString := (List.replicate 4294967296 [97, 32]).flatten
    ¬ SplitsRight str [32] 4294967295 ∧
      split str [32] 4294967295 = some (List.replicate 4294967296 [97]) ∧
      splits str [32] 4294967295 = List.replicate 4294967295 [97] := by
  intro str
  have toks (n : Nat) : tokens (fun c => c ∈ ([32] : ByteString)) (List.replicate n [97, 32]).flatten =
      List.replicate n [97] := tokens_flatten (by decide) (by decide) n
  have all : split str [32] 4294967295 = some (List.replicate 4294967296 [97]) := by
    rw [split_eq, toks, taken, if_pos (.inr rfl)]
  have first : splits str [32] 4294967295 = List.replicate 4294967295 [97] := by
    rw [splits, toks, if_neg (by decide), List.take_replicate]
    rfl
  refine ⟨fun right => ?_, all, first⟩
  have same := all.symm.trans right.1
  rw [first, Option.some.injEq, List.replicate_inj] at same
  exact absurd same.1 (by decide)

/-! ## Filenames -/

def pathdelim : ByteString := [92, 47]

/-- The second half of `SplitFilename`. An output is `none` where the pointer is `NULL`. -/
def splitExt (fileName : ByteString) (outFileName outExt : Option ByteString) :
    Option ByteString × Option ByteString :=
  match findLastOf fileName [46] with
  | some extentionPos =>
    (outFileName.map fun _ => fileName.take extentionPos, outExt.map fun _ => fileName.drop extentionPos)
  | none => (outFileName.map fun _ => fileName, outExt)

/-- `StringUtil::SplitFilename`. -/
def splitFilename (qualifiedName : ByteString) (outPath outFileName outExt : Option ByteString) :
    Option ByteString × Option ByteString × Option ByteString :=
  match findLastOf qualifiedName pathdelim with
  | some startPosFileName =>
    (outPath.map fun _ => qualifiedName.take startPosFileName,
      splitExt (qualifiedName.drop (startPosFileName + 1)) outFileName outExt)
  | none => (outPath, splitExt (qualifiedName.drop 0) outFileName outExt)

/-- `StringUtil::GetFileName`. -/
def getFileName (filePath : ByteString) : ByteString :=
  let (_, name, ext) := splitFilename filePath none (some []) (some [])
  name.getD [] ++ ext.getD []

/-- `StringUtil::GetExt`. -/
def getExt (filePath : ByteString) : ByteString :=
  let (_, _, ext) := splitFilename filePath none none (some [])
  ext.getD []

/-- What follows the last separator. -/
def afterPath (q : ByteString) : ByteString :=
  q.rtakeWhile fun c => c ∉ pathdelim

/-- The name and the extension of a file. -/
structure NameExt (fileName name ext : ByteString) : Prop where
  whole : name ++ ext = fileName
  dot : ext = [] ∨ ∃ rest, ext = 46 :: rest ∧ 46 ∉ rest

/-- The three parts of a qualified name. -/
structure Parts (q path name ext : ByteString) : Prop where
  sep : (∃ c ∈ q, c ∈ pathdelim) →
    ∃ c, q.reverse.find? (fun c => c ∈ pathdelim) = some c ∧ path ++ c :: (name ++ ext) = q
  no_sep : (∀ c ∈ q, c ∉ pathdelim) → path = [] ∧ name ++ ext = q
  clean : ∀ c ∈ name ++ ext, c ∉ pathdelim
  dot : ext = [] ∨ ∃ rest, ext = 46 :: rest ∧ 46 ∉ rest

variable {q path name ext front back : ByteString} {c : UInt8}

/-- `find_last_of` finds the last character of the set. -/
lemma findLastOf_cases (str delims : ByteString) :
    (findLastOf str delims = none ∧ ∀ c ∈ str, c ∉ delims) ∨
      ∃ front c back, str = front ++ c :: back ∧ findLastOf str delims = some front.length ∧ c ∈ delims ∧
        ∀ d ∈ back, d ∉ delims := by
  unfold findLastOf
  cases found : str.reverse.findIdx? fun c => c ∈ delims with
  | none =>
    refine .inl ⟨rfl, ?_⟩
    simpa [List.findIdx?_eq_none_iff] using found
  | some i =>
    obtain ⟨lt, mem, before⟩ := List.findIdx?_eq_some_iff_getElem.mp found
    have split := List.take_append_drop i str.reverse
    rw [List.drop_eq_getElem_cons lt] at split
    refine .inr ⟨(str.reverse.drop (i + 1)).reverse, str.reverse[i], (str.reverse.take i).reverse, ?_, ?_,
      of_decide_eq_true mem, fun d back => ?_⟩
    · have whole := congrArg List.reverse split
      rw [List.reverse_append, List.reverse_cons, List.reverse_reverse, List.append_assoc] at whole
      exact whole.symm
    · rw [Option.map_some, List.length_reverse, List.length_drop, List.length_reverse, Nat.sub_sub,
        Nat.add_comm 1 i]
    · obtain ⟨k, bound, rfl⟩ := List.mem_iff_getElem.mp (List.mem_reverse.mp back)
      rw [List.length_take] at bound
      rw [List.getElem_take]
      simpa using before k (by omega)

/-- The name begins behind the last separator. -/
lemma afterPath_append (sep : c ∈ pathdelim) (clean : ∀ d ∈ back, d ∉ pathdelim) :
    afterPath (front ++ c :: back) = back := by
  have whole : back.reverse.takeWhile (fun c => c ∉ pathdelim) = back.reverse :=
    List.takeWhile_eq_self_iff.mpr fun d mem => by simpa using clean d (List.mem_reverse.mp mem)
  rw [afterPath, List.rtakeWhile, List.reverse_append, List.reverse_cons, List.append_assoc,
    List.takeWhile_append, whole, if_pos rfl, List.singleton_append,
    List.takeWhile_cons_of_neg (by simpa using sep), List.append_nil, List.reverse_reverse]

/-- The two parts are right if and only if there is a dot or the extension was empty. -/
lemma splitExt_iff (fileName name ext : ByteString) :
    (∃ name' ext', splitExt fileName (some name) (some ext) = (some name', some ext') ∧
      NameExt fileName name' ext') ↔ 46 ∈ fileName ∨ ext = [] := by
  unfold splitExt
  rcases findLastOf_cases fileName [46] with ⟨found, clean⟩ | ⟨front, c, back, rfl, found, mem, clean⟩
  · have no_dot : 46 ∉ fileName := fun mem => clean 46 mem (List.mem_singleton_self 46)
    rw [found, or_iff_right no_dot]
    constructor
    · rintro ⟨name', ext', e, right⟩
      cases e
      exact List.append_right_eq_self.mp right.whole
    · rintro rfl
      exact ⟨fileName, [], rfl, List.append_nil fileName, .inl rfl⟩
  · rw [found]
    obtain rfl := List.mem_singleton.mp mem
    have last : 46 ∉ back := fun mem => clean 46 mem (List.mem_singleton_self 46)
    refine iff_of_true ⟨front, 46 :: back, ?_, rfl, .inr ⟨back, rfl, last⟩⟩ (.inl (by simp))
    simp only [Option.map_some, List.take_left, List.drop_left]

/-- After a separator the path is set, and the rest is for the name and the extension. -/
lemma parts_append (sep : c ∈ pathdelim) (clean : ∀ d ∈ back, d ∉ pathdelim) :
    Parts (front ++ c :: back) front name ext ↔ NameExt back name ext := by
  have last : (front ++ c :: back).reverse.find? (fun c => c ∈ pathdelim) = some c := by
    rw [List.reverse_append, List.reverse_cons, List.append_assoc, List.find?_append,
      List.find?_eq_none.mpr fun d mem => by simpa using clean d (List.mem_reverse.mp mem)]
    simp [sep]
  have mem : c ∈ front ++ c :: back := by simp
  constructor
  · intro parts
    obtain ⟨d, e, whole⟩ := parts.sep ⟨c, mem, sep⟩
    rw [last, Option.some.injEq] at e
    rw [e, List.append_cancel_left_eq, List.cons.injEq] at whole
    exact ⟨whole.2, parts.dot⟩
  · rintro ⟨rfl, dot⟩
    exact ⟨fun _ => ⟨c, last, rfl⟩, fun none => absurd sep (none c mem), clean, dot⟩

/-- Without a separator the whole is for the name and the extension, and the path has to be empty. -/
lemma parts_clean (clean : ∀ d ∈ q, d ∉ pathdelim) :
    Parts q path name ext ↔ path = [] ∧ NameExt q name ext := by
  constructor
  · intro parts
    obtain ⟨empty, whole⟩ := parts.no_sep clean
    exact ⟨empty, whole, parts.dot⟩
  · rintro ⟨empty, rfl, dot⟩
    exact ⟨fun ⟨c, mem, sep⟩ => absurd sep (clean c mem), fun _ => ⟨empty, rfl⟩, clean, dot⟩

/-- The three outputs are right if and only if each part the name does not have was empty before. -/
theorem splitFilename_iff (q path name ext : ByteString) :
    (∃ path' name' ext', splitFilename q (some path) (some name) (some ext) =
      (some path', some name', some ext') ∧ Parts q path' name' ext') ↔
      ((∃ c ∈ q, c ∈ pathdelim) ∨ path = []) ∧ (46 ∈ afterPath q ∨ ext = []) := by
  unfold splitFilename
  rcases findLastOf_cases q pathdelim with ⟨found, clean⟩ | ⟨front, c, back, rfl, found, mem, clean⟩
  · have no_sep : ¬ ∃ c ∈ q, c ∈ pathdelim := fun ⟨c, mem, sep⟩ => clean c mem sep
    have whole : afterPath q = q := List.rtakeWhile_eq_self_iff.mpr fun c mem => by simpa using clean c mem
    rw [found, or_iff_right no_sep, whole, ← splitExt_iff q name ext]
    constructor
    · rintro ⟨path', name', ext', e, parts⟩
      obtain ⟨e_path, e_rest⟩ := Prod.mk.inj e
      cases e_path
      obtain ⟨empty, right⟩ := (parts_clean clean).mp parts
      exact ⟨empty, name', ext', e_rest, right⟩
    · rintro ⟨empty, name', ext', e, right⟩
      exact ⟨path, name', ext', by rw [List.drop_zero, e], (parts_clean clean).mpr ⟨empty, right⟩⟩
  · have rest : (front ++ c :: back).drop (front.length + 1) = back := by
      rw [← List.drop_drop, List.drop_left, List.drop_succ_cons, List.drop_zero]
    rw [found, afterPath_append mem clean, ← splitExt_iff back name ext]
    simp only [Option.map_some, List.take_left, rest]
    rw [and_iff_right (.inl ⟨c, by simp, mem⟩)]
    constructor
    · rintro ⟨path', name', ext', e, parts⟩
      obtain ⟨e_path, e_rest⟩ := Prod.mk.inj e
      cases e_path
      exact ⟨name', ext', e_rest, (parts_append mem clean).mp parts⟩
    · rintro ⟨name', ext', e, right⟩
      exact ⟨front, name', ext', by rw [e], (parts_append mem clean).mpr right⟩

/-- For a name with neither separator nor dot, the path and the extension stay what they were. -/
theorem splitFilename_stale :
    let q : ByteString := [97]
    splitFilename q (some [112]) (some []) (some [46, 101]) = (some [112], some [97], some [46, 101]) ∧
      ¬ ∃ path' name' ext', splitFilename q (some [112]) (some []) (some [46, 101]) =
        (some path', some name', some ext') ∧ Parts q path' name' ext' := by
  intro q
  have stale : splitFilename q (some [112]) (some []) (some [46, 101]) =
      (some [112], some [97], some [46, 101]) := rfl
  have no_sep : ∀ c ∈ q, c ∉ pathdelim := List.forall_mem_singleton.mpr (by decide)
  refine ⟨stale, ?_⟩
  rintro ⟨path', name', ext', e, parts⟩
  rw [stale] at e
  cases e
  exact absurd (parts.no_sep no_sep).1 (by decide)

/-- Without a place for the path only the name is split. -/
lemma splitFilename_null (q : ByteString) (outFileName outExt : Option ByteString) :
    splitFilename q none outFileName outExt = (none, splitExt (afterPath q) outFileName outExt) := by
  unfold splitFilename
  rcases findLastOf_cases q pathdelim with ⟨found, clean⟩ | ⟨front, c, back, rfl, found, mem, clean⟩
  · have whole : afterPath q = q := List.rtakeWhile_eq_self_iff.mpr fun c mem => by simpa using clean c mem
    rw [found, whole]
    rfl
  · rw [found, afterPath_append mem clean]
    simp only [Option.map_none, ← List.drop_drop, List.drop_left, List.drop_succ_cons, List.drop_zero]

/-- The strings that `GetFileName` and `GetExt` pass are empty, so both are right for every path. -/
lemma getFileName_getExt (filePath : ByteString) :
    getFileName filePath = afterPath filePath ∧
      ∃ name, NameExt (afterPath filePath) name (getExt filePath) := by
  obtain ⟨name, ext, e, right⟩ := (splitExt_iff (afterPath filePath) [] []).mpr (.inr rfl)
  have same : getExt filePath = ext := by
    rw [getExt, splitFilename_null]
    unfold splitExt at e ⊢
    cases found : findLastOf (afterPath filePath) [46]
    all_goals
      rw [found] at e
      cases e
      rfl
  refine ⟨?_, name, same ▸ right⟩
  rw [getFileName, splitFilename_null, e]
  exact right.whole

end StringUtil
end XLN
