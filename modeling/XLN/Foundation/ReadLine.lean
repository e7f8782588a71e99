import XLN.Foundation.DataStream

/-!
# Reading a stream line by line

`MemoryDataStream::ReadLine` copies bytes until a delimiter, a zero byte, `maxCount` or the end of the
buffer stops it, steps over one byte more and, where the delimiters contain a newline, takes a carriage
return off what it has copied. `readLine_iff` says when a call keeps to `buf` and counts right,
`readToEof_iff` when reading up to `Eof` loses nothing.
-/

namespace XLN
open Transition

namespace MemoryDataStream

section Definitions
variable (s : MemoryDataStream)

/-- `readCount` as `ReadLine` passes it to `memcpy`. -/
def readCount (maxCount : Nat) (delim : ByteString) (beyond : List UInt8) : Nat :=
  let readCount := strcspn (s.ahead beyond) (c_str delim)
  s.clampLine (if maxCount < readCount then maxCount else readCount)

/-- The memory around `buf` after `memcpy`. -/
def copied (readCount : Nat) (buf : Int → UInt8) : Int → UInt8 :=
  fun i => if 0 ≤ i ∧ i < readCount then s.rest.getD i.toNat 0 else buf i

/-- The index at which `ReadLine` puts the terminating zero. -/
def lastIndex (delim : ByteString) (readCount : Nat) (buf : Int → UInt8) : Int :=
  if 10 ∈ delim ∧ buf (readCount - 1) = 13 then readCount - 1 else readCount

/-- The indexes of `buf` that `ReadLine` accesses: in `memcpy`, in the test for a carriage return and for
    the terminating zero. -/
def bufAccesses (buf : Int → UInt8) (maxCount : Nat) (delim : ByteString) (beyond : List UInt8) :
    List Int :=
  let readCount := s.readCount maxCount delim beyond
  (List.range readCount).map (fun (i : Nat) => (i : Int)) ++
    (if 10 ∈ delim then [(readCount : Int) - 1] else []) ++
    [lastIndex delim readCount (s.copied readCount buf)]

end Definitions

/-- What stands in a stream before the first zero or delimiter byte, up to `maxCount` bytes. -/
def lineBytes (maxCount : Nat) (delim : ByteString) (right : List UInt8) : List UInt8 :=
  (right.takeWhile fun c => c ≠ 0 ∧ c ∉ c_str delim).take maxCount

variable {s s' : MemoryDataStream} {buf : Int → UInt8} {maxCount : Nat} {delim : ByteString}
  {beyond left right : List UInt8}

/-! ## One call -/

/-- `ReadLine` copies the bytes that it counts and steps over one more. -/
lemma readLine_eq (s : MemoryDataStream) (buf : Int → UInt8) (maxCount : Nat) (delim : ByteString)
    (beyond : List UInt8) :
    s.readLine buf maxCount delim beyond =
      let n := s.readCount maxCount delim beyond
      let last := lastIndex delim n (s.copied n buf)
      if s.Copies n then
        some (addr last, fun i => if i = last then 0 else s.copied n buf i,
          { s with m_Pos := addr (s.m_Pos + (n + 1)) })
      else none :=
  rfl

/-- The bytes of a line stand at the cursor. -/
lemma lineBytes_initial (maxCount : Nat) (delim : ByteString) (right : List UInt8) :
    lineBytes maxCount delim right <+: right :=
  (List.take_prefix _ _).trans (List.takeWhile_prefix _)

/-- A scan that runs out of the buffer is cut off at its end. -/
lemma strcspn_append (mem more : List UInt8) (reject : ByteString) :
    min (strcspn (mem ++ more) reject) mem.length = strcspn mem reject := by
  unfold strcspn
  rw [List.takeWhile_append]
  split
  next all =>
    rw [all, List.length_append, min_eq_right (Nat.le_add_right ..)]
  next => exact min_eq_left (List.takeWhile_prefix _).length_le

/-- The bytes that are counted are those of the line. -/
lemma readCount_eq (h : s.InBuffer) (maxCount : Nat) (delim : ByteString) (beyond : List UInt8) :
    s.readCount maxCount delim beyond = (lineBytes maxCount delim s.rest).length := by
  have lt := s.m_End_lt
  have len := rest_length h
  have scan := s.strcspn_ahead (c_str delim) beyond
  have cut : strcspn s.rest (c_str delim) =
      min (strcspn (s.ahead beyond) (c_str delim)) (s.m_End - s.m_Pos) := by
    rw [ahead_eq h, ← len, strcspn_append]
  obtain ⟨le, le'⟩ := h
  have sum : ∀ n ≤ 2 ^ 64 - 1 - s.m_Pos, addr ((n : Int) + s.m_Pos) = n + s.m_Pos := by
    intro n fits
    rw [addr_of_lt] <;> omega
  have diff : addr ((s.m_End : Int) - s.m_Pos) = s.m_End - s.m_Pos := by
    rw [addr_of_lt] <;> omega
  rw [lineBytes, List.length_take]
  change _ = min maxCount (strcspn s.rest (c_str delim))
  rw [cut, readCount, clampLine, diff, sum _ (by split <;> omega)]
  split <;> split <;> omega

/-- The bytes that are counted can be copied. -/
lemma copies_readCount (h : s.InBuffer) (maxCount : Nat) (delim : ByteString) (beyond : List UInt8) :
    s.Copies (s.readCount maxCount delim beyond) := by
  have le := (lineBytes_initial maxCount delim s.rest).length_le
  rw [readCount_eq h]
  rw [rest_length h] at le
  have := h.1
  have := h.2
  exact ⟨h.1, by omega⟩

/-- With the cursor inside the buffer a call returns. -/
lemma exists_readLine (h : s.InBuffer) (buf : Int → UInt8) (maxCount : Nat) (delim : ByteString)
    (beyond : List UInt8) :
    ∃ n buf' s', s.readLine buf maxCount delim beyond = some (n, buf', s') := by
  rw [readLine_eq, if_pos (copies_readCount h maxCount delim beyond)]
  exact ⟨_, _, _, rfl⟩

/-- `ReadLine` returns only where the cursor is in the buffer. -/
lemma inBuffer_of_readLine {res : Nat × (Int → UInt8) × MemoryDataStream}
    (e : s.readLine buf maxCount delim beyond = some res) : s.InBuffer := by
  rw [readLine_eq, Option.ite_none_right_eq_some] at e
  obtain ⟨copies, -⟩ := e
  exact ⟨copies.1, (Nat.le_add_right ..).trans copies.2⟩

/-- The byte in front of the terminating zero, if there is one. -/
lemma copied_last (n : Nat) (fits : n ≤ s.rest.length) (buf : Int → UInt8) :
    s.copied n buf (n - 1) = ((s.rest.take n).getLast?).getD (buf (-1)) := by
  rcases Nat.eq_zero_or_pos n with rfl | pos
  · simp [copied]
  · have inside : (0 : Int) ≤ n - 1 ∧ (n : Int) - 1 < n := by omega
    have index : ((n : Int) - 1).toNat = n - 1 := by omega
    rw [copied, if_pos inside, index, List.getLast?_take, if_neg (by omega)]
    rw [List.getD_eq_getElem?_getD, List.getElem?_eq_getElem (by omega)]
    rfl

/-- The first byte at the cursor is not one at which a line ends. -/
def StartsLine (delim : ByteString) (right : List UInt8) : Prop :=
  ∃ c, right.head? = some c ∧ c ≠ 0 ∧ c ∉ c_str delim

/-- A line has bytes if something other than its end comes first. -/
lemma lineBytes_ne_nil_iff :
    lineBytes maxCount delim right ≠ [] ↔ 0 < maxCount ∧ StartsLine delim right := by
  unfold lineBytes StartsLine
  cases right with
  | nil => simp
  | cons c right =>
    rw [List.takeWhile_cons]
    cases maxCount with
    | zero => simp
    | succ n =>
      split
      next go => simpa using go
      next stop => simpa using stop

/-- No more than `maxCount` bytes are counted. -/
lemma readCount_le (h : s.InBuffer) : s.readCount maxCount delim beyond ≤ maxCount := by
  rw [readCount_eq h]
  exact List.length_take_le ..

/-- No more bytes are counted than are left. -/
lemma readCount_le_rest (h : s.InBuffer) : s.readCount maxCount delim beyond ≤ s.rest.length := by
  rw [readCount_eq h]
  exact (lineBytes_initial ..).length_le

/-- With a byte copied, `ReadLine` stays inside `buf`. -/
lemma bufAccesses_inside (h : s.InBuffer) (some_byte : 0 < s.readCount maxCount delim beyond) :
    ∀ i ∈ s.bufAccesses buf maxCount delim beyond, 0 ≤ i ∧ i ≤ maxCount := by
  have le : s.readCount maxCount delim beyond ≤ maxCount := readCount_le h
  intro i mem
  simp only [bufAccesses, List.mem_append, List.mem_map, List.mem_range, List.mem_ite_nil_right,
    List.mem_singleton, lastIndex] at mem
  rcases mem with (⟨j, lt, rfl⟩ | ⟨-, rfl⟩) | rfl
  · omega
  · omega
  · split <;> omega

/-- The return value, as the last byte copied decides it. -/
lemma addr_lastIndex (h : s.InBuffer) (some_byte : 0 < s.readCount maxCount delim beyond) :
    let n := s.readCount maxCount delim beyond
    addr (lastIndex delim n (s.copied n buf)) =
      n - if (s.rest.take n).getLast? = some 13 ∧ 10 ∈ delim then 1 else 0 := by
  intro n
  have fits : n ≤ s.rest.length := readCount_le_rest h
  have len := rest_length h
  have lt := s.m_End_lt
  have pos : 0 < n := some_byte
  have last : (s.rest.take n).getLast? = some (s.copied n buf (n - 1)) := by
    rw [copied_last n fits]
    cases e : (s.rest.take n).getLast? with
    | none =>
      rw [List.getLast?_eq_none_iff, List.take_eq_nil_iff, ← List.length_eq_zero_iff] at e
      omega
    | some c => rfl
  simp only [last, lastIndex, Option.some.injEq, and_comm (a := 10 ∈ delim)]
  split
  next => rw [addr_of_lt] <;> omega
  next => rw [addr_of_lt] <;> omega

/-- `ReadLine` with the cursor inside the buffer returns. It keeps to the indexes 0 to `maxCount` of `buf`,
    and gives the number of bytes it has copied, less one exactly when the last of them is a carriage
    return and the delimiters contain a newline, if and only if the delimiters do not contain one or there
    is a byte to copy. -/
theorem readLine_iff (inside : s.InBuffer) (buf : Int → UInt8) (maxCount : Nat) (delim : ByteString)
    (beyond : List UInt8) :
    (∃ r, s.readLine buf maxCount delim beyond = some r ∧
      (∀ i ∈ s.bufAccesses buf maxCount delim beyond, 0 ≤ i ∧ i ≤ maxCount) ∧
      r.1 = s.readCount maxCount delim beyond -
        if (s.rest.take (s.readCount maxCount delim beyond)).getLast? = some 13 ∧ 10 ∈ delim
          then 1 else 0) ↔
      (10 ∈ delim → 0 < maxCount ∧ StartsLine delim s.rest) := by
  rw [readLine_eq, if_pos (copies_readCount inside maxCount delim beyond)]
  have count := readCount_eq inside maxCount delim beyond
  by_cases some_byte : 0 < s.readCount maxCount delim beyond
  · have start : 0 < maxCount ∧ StartsLine delim s.rest := by
      rw [← lineBytes_ne_nil_iff, ← List.length_pos_iff, ← count]
      exact some_byte
    refine iff_of_true ⟨_, rfl, bufAccesses_inside inside some_byte, ?_⟩ fun _ => start
    exact addr_lastIndex inside some_byte
  · have none : s.readCount maxCount delim beyond = 0 := Nat.eq_zero_of_not_pos some_byte
    have empty : ¬ (0 < maxCount ∧ StartsLine delim s.rest) := by
      rw [← lineBytes_ne_nil_iff, ← List.length_pos_iff, ← count]
      exact some_byte
    by_cases newline : 10 ∈ delim
    · -- the test for a carriage return looks at `buf[-1]`
      refine iff_of_false ?_ fun start => empty (start newline)
      rintro ⟨_, -, accesses, -⟩
      have before := accesses (-1) (by simp [bufAccesses, none, newline])
      exact absurd before.1 (by decide)
    · refine iff_of_true ⟨_, rfl, ?_, ?_⟩ fun h => absurd h newline
      · simp [bufAccesses, none, newline, lastIndex]
      · simp [none, newline, lastIndex, addr]

/-- The statement above at a line of one character. -/
theorem readLine_iff_line :
    let s := new 16 [97, 10] (by decide)
    (∃ r, s.readLine (fun _ => 0) 8 [10] [] = some r ∧
      (∀ i ∈ s.bufAccesses (fun _ => 0) 8 [10] [], 0 ≤ i ∧ i ≤ (8 : Nat)) ∧
      r.1 = s.readCount 8 [10] [] -
        if (s.rest.take (s.readCount 8 [10] [])).getLast? = some 13 ∧ 10 ∈ [10] then 1 else 0) ↔
      ((10 : UInt8) ∈ [(10 : UInt8)] → 0 < 8 ∧ StartsLine [10] s.rest) :=
  readLine_iff (s := new 16 [97, 10] (by decide)) ⟨by decide, by decide⟩ (fun _ => 0) 8 [10] []

/-- With an empty line ahead and a carriage return in front of `buf`, `ReadLine` looks at `buf[-1]`, puts
    the terminating zero there and returns the largest number of all. -/
theorem readLine_empty_line :
    let s := new 16 [10] (by decide)
    s.InBuffer ∧ -1 ∈ s.bufAccesses (fun _ => 13) 8 [10] [] ∧ s.readCount 8 [10] [] = 0 ∧
      (s.readLine (fun _ => 13) 8 [10] []).map (fun r => (r.1, r.2.1 (-1))) =
        some (2 ^ 64 - 1, 0) := by
  refine ⟨⟨by decide, by decide⟩, by decide, by decide, by decide⟩

/-! ## What the lines of a text are -/

/-- The carriage return at the end of a line is taken off. -/
def trimCR (line : List UInt8) : List UInt8 :=
  if line.getLast? = some 13 then line.dropLast else line

/-- A text with some newlines, and carriage returns directly before one, removed and nothing else. -/
inductive LineEndsRemoved : List UInt8 → List UInt8 → Prop where
  | nil :
    LineEndsRemoved [] []
  | keep {c text out} :
    LineEndsRemoved text out →
    LineEndsRemoved (c :: text) (c :: out)
  | newline {text out} :
    LineEndsRemoved text out →
    LineEndsRemoved (10 :: text) out
  | carriageReturn {text out} :
    LineEndsRemoved (10 :: text) out →
    LineEndsRemoved (13 :: 10 :: text) out

/-- All of them removed. -/
def stripLineEnds : List UInt8 → List UInt8
  | [] => []
  | c :: text =>
    if c = 10 ∨ c = 13 ∧ text.head? = some 10 then stripLineEnds text
    else c :: stripLineEnds text

variable {text out line : List UInt8} {c : UInt8}

/-- Taking out all line ends takes out line ends. -/
lemma lineEndsRemoved_strip (text : List UInt8) : LineEndsRemoved text (stripLineEnds text) := by
  induction text with
  | nil => exact .nil
  | cons c text ih =>
    rw [stripLineEnds]
    split
    next ending =>
      rcases ending with rfl | ⟨rfl, next⟩
      · exact .newline ih
      · obtain ⟨text, rfl⟩ := List.head?_eq_some_iff.mp next
        exact .carriageReturn ih
    next => exact .keep ih

/-- Taking out all line ends leaves the least. -/
lemma LineEndsRemoved.strip_sublist (removed : LineEndsRemoved text out) :
    (stripLineEnds text).Sublist out := by
  induction removed with
  | nil => exact .slnil
  | keep _ ih =>
    rw [stripLineEnds]
    split
    · exact ih.cons _
    · exact ih.cons_cons _
  | newline _ ih => exact ih
  | carriageReturn _ ih => exact ih

/-- Taking out line ends makes no text longer. -/
lemma LineEndsRemoved.length_le (removed : LineEndsRemoved text out) : out.length ≤ text.length := by
  induction removed with
  | nil => exact le_rfl
  | keep _ ih => exact Nat.succ_le_succ ih
  | newline _ ih => exact Nat.le_succ_of_le ih
  | carriageReturn _ ih => exact Nat.le_succ_of_le ih

/-- A longer text leaves no less. -/
lemma strip_cons_sublist : (stripLineEnds text).Sublist (stripLineEnds (c :: text)) := by
  rw [stripLineEnds]
  split
  · exact .refl _
  · exact List.sublist_cons_self ..

/-- Bytes that are not at the end of their line stay. -/
lemma strip_append (inner : 10 ∉ line) (next : text.head? ≠ some 10) :
    stripLineEnds (line ++ text) = line ++ stripLineEnds text := by
  induction line with
  | nil => rfl
  | cons c line ih =>
    rw [List.mem_cons, not_or] at inner
    have stays : ¬ (c = 10 ∨ c = 13 ∧ (line ++ text).head? = some 10) := by
      rintro (rfl | ⟨-, head⟩)
      · exact inner.1 rfl
      · cases line with
        | nil => exact next head
        | cons d line =>
          cases head
          exact inner.2 List.mem_cons_self
    rw [List.cons_append, stripLineEnds, if_neg stays, ih inner.2, List.cons_append]

/-- A text without line feeds has no line ends. -/
lemma strip_line (inner : 10 ∉ line) : stripLineEnds line = line := by
  have stays : stripLineEnds (line ++ []) = line ++ stripLineEnds [] := strip_append inner nofun
  rwa [stripLineEnds, List.append_nil] at stays

/-- A line and its end. -/
lemma strip_append_newline (inner : 10 ∉ line) :
    stripLineEnds (line ++ 10 :: text) = trimCR line ++ stripLineEnds text := by
  unfold trimCR
  split
  next cr =>
    obtain ⟨front, rfl⟩ := List.getLast?_eq_some_iff.mp cr
    have front_inner : 10 ∉ front := fun mem => inner (List.mem_append_left _ mem)
    rw [List.append_assoc, strip_append front_inner (by simp), List.dropLast_concat]
    simp [stripLineEnds]
  next ncr =>
    cases line using List.reverseRecOn with
    | nil => simp [stripLineEnds]
    | append_singleton front d =>
      have front_inner : 10 ∉ front := fun mem => inner (List.mem_append_left _ mem)
      have other : d ≠ 13 := by simpa using ncr
      have inside : d ≠ 10 := by
        rintro rfl
        exact inner (by simp)
      rw [List.append_assoc, strip_append front_inner (by simpa using inside)]
      simp [stripLineEnds, other, inside]

/-- The carriage return that is cut off is the last byte. -/
lemma trimCR_initial (line : List UInt8) : trimCR line <+: line := by
  unfold trimCR
  split
  · exact List.dropLast_prefix _
  · exact List.prefix_rfl

/-- Cutting it off leaves the other bytes. -/
lemma trimCR_sublist (line : List UInt8) : (trimCR line).Sublist line :=
  (trimCR_initial line).sublist

/-- Nothing is cut off if the last byte is no carriage return. -/
lemma trimCR_eq_self_iff : trimCR line = line ↔ line.getLast? ≠ some 13 := by
  unfold trimCR
  split
  next cr =>
    obtain ⟨front, rfl⟩ := List.getLast?_eq_some_iff.mp cr
    simp
  next ncr => simpa using ncr

/-! ## What one call takes out of a text -/

/-- What `ReadLine` with the default delimiter copies of a line that is cut off after `maxCount` bytes. -/
lemma lineBytes_cases (maxCount : Nat) (right : List UInt8) :
    right = lineBytes maxCount [10] right ∨
    ∃ c tail, right = lineBytes maxCount [10] right ++ c :: tail ∧
      (c = 0 ∨ c = 10 ∨ (lineBytes maxCount [10] right).length = maxCount) := by
  have split := List.takeWhile_append_dropWhile
    (p := fun c => decide (c ≠ 0 ∧ c ∉ c_str [10])) (l := right)
  unfold lineBytes
  generalize right.takeWhile (fun c => decide (c ≠ 0 ∧ c ∉ c_str [10])) = word at split
  by_cases long : maxCount < word.length
  · -- the line goes on behind what is copied
    rw [← List.take_append_drop maxCount word, List.drop_eq_getElem_cons long,
      List.append_assoc] at split
    exact .inr ⟨_, _, split.symm, .inr (.inr (List.length_take_of_le long.le))⟩
  · rw [List.take_of_length_le (Nat.le_of_not_lt long)]
    cases e : right.dropWhile (fun c => decide (c ≠ 0 ∧ c ∉ c_str [10])) with
    | nil =>
      rw [e, List.append_nil] at split
      exact .inl split.symm
    | cons c tail =>
      rw [e] at split
      refine .inr ⟨c, tail, split.symm, ?_⟩
      have stop := List.head_dropWhile_not (fun c => decide (c ≠ 0 ∧ c ∉ c_str [10])) (l := right)
        (by rw [e]; exact List.cons_ne_nil _ _)
      simp only [e, List.head_cons, decide_eq_false_iff_not] at stop
      have only : c_str [10] = [10] := by decide
      rw [only, List.mem_singleton] at stop
      tauto

/-- A byte of a line neither ends the string nor the line. -/
lemma mem_lineBytes (mem : c ∈ lineBytes maxCount [10] right) : c ≠ 0 ∧ c ≠ 10 := by
  have go := List.mem_takeWhile_imp (List.mem_of_mem_take mem)
  have only : c_str [10] = [10] := by decide
  rw [decide_eq_true_eq, only, List.mem_singleton] at go
  exact go

/-- The line ahead, up to the next newline or the end. -/
def lineAhead (right : List UInt8) : List UInt8 :=
  right.takeWhile fun c => c ≠ 10

/-- A line comes through a call whole: it has no zero byte, it is not longer than `maxCount` unless only by
    the carriage return of its end, and it does not end in a carriage return that no newline follows. -/
structure Whole (maxCount : Nat) (right : List UInt8) : Prop where
  no_zero : 0 ∉ lineAhead right
  fits : (lineAhead right).length ≤ maxCount ∨
    (lineAhead right).length = maxCount + 1 ∧ (lineAhead right).getLast? = some 13 ∧
      ((lineAhead right).take maxCount).getLast? ≠ some 13
  ended : lineAhead right = right → (lineAhead right).getLast? ≠ some 13

/-- The last line has no end. -/
lemma lineAhead_self (inner : 10 ∉ line) : lineAhead line = line := by
  refine List.takeWhile_eq_self_iff.mpr fun c mem => ?_
  simp only [decide_eq_true_eq]
  rintro rfl
  exact inner mem

/-- The line ahead begins with the bytes that are there. -/
lemma lineAhead_append (inner : 10 ∉ line) : lineAhead (line ++ text) = line ++ lineAhead text := by
  refine List.takeWhile_append_of_pos fun c mem => ?_
  simp only [decide_eq_true_eq]
  rintro rfl
  exact inner mem

/-- Where a line is cut off inside, only the carriage return of its end may be left out. -/
lemma cut_iff {tail : List UInt8} (inside : c ≠ 10) :
    trimCR line ++ stripLineEnds tail = line ++ stripLineEnds (c :: tail) ↔
      line.getLast? ≠ some 13 ∧ c = 13 ∧ tail.head? = some 10 := by
  have le := (trimCR_sublist line).length_le
  rw [← trimCR_eq_self_iff, stripLineEnds]
  by_cases ending : c = 13 ∧ tail.head? = some 10
  · rw [if_pos (.inr ending)]
    constructor
    · exact fun e => ⟨List.append_cancel_right e, ending⟩
    · rintro ⟨e, -⟩
      rw [e]
  · rw [if_neg (by tauto)]
    refine iff_of_false (fun e => ?_) fun h => ending h.2
    have length := congrArg List.length e
    simp only [List.length_append, List.length_cons] at length
    omega

/-- Where a line is cut it stays whole, unless the cut is beside a carriage return. -/
lemma whole_cut_iff {tail : List UInt8} (inside : c ≠ 10) (inner : 10 ∉ line) (no_zero : 0 ∉ line)
    (stop : c = 0 ∨ line.length = maxCount) :
    Whole maxCount (line ++ c :: tail) ↔ line.getLast? ≠ some 13 ∧ c = 13 ∧ tail.head? = some 10 := by
  have ahead : lineAhead (line ++ c :: tail) = line ++ c :: lineAhead tail := by
    rw [lineAhead_append inner]
    simp [lineAhead, inside]
  constructor
  · rintro ⟨zero, fits, ended⟩
    rw [ahead] at zero fits ended
    simp only [List.mem_append, List.mem_cons, not_or] at zero
    have count : line.length = maxCount := stop.resolve_left fun e => zero.2.1 e.symm
    simp only [List.length_append, List.length_cons] at fits
    obtain ⟨length, cr, before⟩ := fits.resolve_left (by omega)
    have last : lineAhead tail = [] := List.eq_nil_of_length_eq_zero (by omega)
    rw [last, List.getLast?_concat, Option.some.injEq] at cr
    rw [← count, List.take_left] at before
    refine ⟨before, cr, ?_⟩
    cases tail with
    | nil =>
      rw [last, List.getLast?_concat] at ended
      exact absurd (congrArg some cr) (ended rfl)
    | cons d tail =>
      by_contra other
      have : d ≠ 10 := by simpa using other
      simp [lineAhead, this] at last
  · rintro ⟨before, rfl, next⟩
    obtain ⟨tail, rfl⟩ := List.head?_eq_some_iff.mp next
    have count : line.length = maxCount := stop.resolve_left (by decide)
    have last : lineAhead (10 :: tail) = [] := by simp [lineAhead]
    rw [last] at ahead
    refine ⟨?_, .inr ?_, ?_⟩
    · simpa [ahead] using no_zero
    · rw [ahead, ← count, List.take_left]
      exact ⟨by simp, by simp, before⟩
    · intro unended
      rw [ahead] at unended
      simp at unended

/-- What a call leaves out of a text, and that it is nothing exactly for a line that comes through whole. -/
lemma whole_iff (maxCount : Nat) (right : List UInt8) :
    let line := lineBytes maxCount [10] right
    (trimCR line ++ stripLineEnds (right.drop (line.length + 1))).Sublist (stripLineEnds right) ∧
      (trimCR line ++ stripLineEnds (right.drop (line.length + 1)) = stripLineEnds right ↔
        Whole maxCount right) := by
  intro line
  have inner : 10 ∉ line := fun mem => (mem_lineBytes mem).2 rfl
  have no_zero : 0 ∉ line := fun mem => (mem_lineBytes mem).1 rfl
  have fits : line.length ≤ maxCount := List.length_take_le ..
  rcases lineBytes_cases maxCount right with e | ⟨c, tail, e, stop⟩
  · -- the last line, without a newline
    change right = line at e
    have none : right.drop (line.length + 1) = [] := List.drop_eq_nil_of_le (by rw [e]; omega)
    rw [none, e, strip_line inner, stripLineEnds, List.append_nil, trimCR_eq_self_iff]
    refine ⟨trimCR_sublist line, fun ncr => ⟨?_, ?_, ?_⟩, fun whole => ?_⟩
    · rwa [lineAhead_self inner]
    · rw [lineAhead_self inner]
      exact .inl fits
    · rw [lineAhead_self inner]
      exact fun _ => ncr
    · have ended := whole.ended
      rw [lineAhead_self inner] at ended
      exact ended rfl
  · change right = line ++ c :: tail at e
    have rest : right.drop (line.length + 1) = tail := by
      rw [e, List.drop_length_add_append]
      rfl
    rw [rest]
    by_cases newline : c = 10
    · subst newline
      have ahead : lineAhead right = line := by
        rw [e, lineAhead_append inner]
        simp [lineAhead]
      rw [e, strip_append_newline inner, ← e]
      refine ⟨.refl _, iff_of_true rfl ⟨?_, ?_, ?_⟩⟩
      · rwa [ahead]
      · rw [ahead]
        exact .inl fits
      · intro unended
        rw [ahead, e] at unended
        simp at unended
    · rw [e, strip_append inner (by simpa using newline), cut_iff newline]
      refine ⟨(trimCR_sublist line).append strip_cons_sublist, ?_⟩
      refine (whole_cut_iff newline inner no_zero ?_).symm
      tauto

/-- The line ahead is empty exactly if nothing is copied. -/
lemma Whole.nil_iff (whole : Whole maxCount right) (pos : 0 < maxCount) :
    lineAhead right = [] ↔ lineBytes maxCount [10] right = [] := by
  rcases lineBytes_cases maxCount right with e | ⟨c, tail, e, stop⟩
  · have inner : 10 ∉ right := by
      rw [e]
      exact fun mem => (mem_lineBytes mem).2 rfl
    rw [← e, lineAhead_self inner]
  · have inner : 10 ∉ lineBytes maxCount [10] right := fun mem => (mem_lineBytes mem).2 rfl
    have ahead : lineAhead right = lineBytes maxCount [10] right ++ lineAhead (c :: tail) := by
      rw [← lineAhead_append inner, ← e]
    rw [ahead, List.append_eq_nil_iff, and_iff_left_iff_imp]
    intro empty
    rw [empty, List.length_nil] at stop
    rcases stop with rfl | rfl | none
    · have zero := whole.no_zero
      rw [ahead] at zero
      exact absurd (List.mem_append_right _ (by simp [lineAhead])) zero
    · simp [lineAhead]
    · omega

/-- It goes to the end exactly if everything is copied. -/
lemma Whole.self_iff (whole : Whole maxCount right) :
    lineAhead right = right ↔ (lineBytes maxCount [10] right).length = right.length := by
  have inner : 10 ∉ lineBytes maxCount [10] right := fun mem => (mem_lineBytes mem).2 rfl
  constructor
  · intro unended
    have no_newline : 10 ∉ right := by
      rw [← unended]
      intro mem
      simpa using List.mem_takeWhile_imp mem
    rcases lineBytes_cases maxCount right with e | ⟨c, tail, e, stop⟩
    · rw [← e]
    · have no_zero : 0 ∉ lineBytes maxCount [10] right := fun mem => (mem_lineBytes mem).1 rfl
      have inside : c ≠ 10 := by
        rintro rfl
        rw [e] at no_newline
        simp at no_newline
      rw [e] at whole
      obtain ⟨-, -, next⟩ := (whole_cut_iff inside inner no_zero (by tauto)).mp whole
      obtain ⟨tail, rfl⟩ := List.head?_eq_some_iff.mp next
      rw [e] at no_newline
      simp at no_newline
  · intro all
    have e := (lineBytes_initial maxCount [10] right).eq_of_length all
    rw [e] at inner
    exact lineAhead_self inner

/-! ## Reading up to `Eof` -/

/-- The bytes that a caller takes out of `buf` after a call. -/
def piece (n : Nat) (buf : Int → UInt8) : List UInt8 :=
  (List.range n).map fun (i : Nat) => buf i

/-- The index of the terminating zero, with the default delimiter. -/
lemma lastIndex_line (s : MemoryDataStream) (maxCount : Nat) (buf : Int → UInt8) :
    let line := lineBytes maxCount [10] s.rest
    lastIndex [10] line.length (s.copied line.length buf) =
      if line = [] ∧ buf (-1) = 13 then -1 else ((trimCR line).length : Int) := by
  intro line
  have fits : line.length ≤ s.rest.length := (lineBytes_initial ..).length_le
  have taken : s.rest.take line.length = line := (List.prefix_iff_eq_take.mp (lineBytes_initial ..)).symm
  rw [lastIndex, copied_last _ fits, taken, trimCR]
  cases e : line.getLast? with
  | none =>
    rw [List.getLast?_eq_none_iff] at e
    rw [e]
    simp
  | some c =>
    have nonempty : line ≠ [] := by
      rintro empty
      rw [empty] at e
      cases e
    have pos := List.length_pos_iff.mpr nonempty
    simp only [Option.getD_some, List.mem_singleton, true_and, Option.some.injEq, nonempty, false_and,
      if_false]
    split
    next => rw [List.length_dropLast, Nat.cast_pred pos]
    next => rfl

/-- The call where a line is ahead: either it has put the zero in front of `buf`, or it gives the line it
    has copied. -/
lemma readLine_cases (h : s.InBuffer) {n : Nat} {buf' : Int → UInt8}
    (e : s.readLine buf maxCount [10] beyond = some (n, buf', s')) :
    let line := lineBytes maxCount [10] s.rest
    s' = { s with m_Pos := addr (s.m_Pos + (line.length + 1)) } ∧
      (line = [] ∧ buf (-1) = 13 ∧ n = 2 ^ 64 - 1 ∨
        (line = [] → buf (-1) ≠ 13) ∧ piece n buf' = trimCR line) := by
  intro line
  have index := lastIndex_line s maxCount buf
  rw [readLine_eq, if_pos (copies_readCount h maxCount [10] beyond), readCount_eq h, index] at e
  cases e
  refine ⟨rfl, ?_⟩
  by_cases before : line = [] ∧ buf (-1) = 13
  · rw [if_pos before]
    exact .inl ⟨before.1, before.2, rfl⟩
  · rw [if_neg before]
    refine .inr ⟨fun empty cr => before ⟨empty, cr⟩, ?_⟩
    have initial : trimCR line <+: s.rest := (trimCR_initial line).trans (lineBytes_initial ..)
    have fits := initial.length_le
    have len := rest_length h
    have lt := s.m_End_lt
    have count : addr ((trimCR line).length : Int) = (trimCR line).length := by
      rw [addr_of_lt] <;> omega
    rw [count]
    refine Eq.trans ?_ (List.prefix_iff_eq_take.mp initial).symm
    refine List.ext_getElem (by simp [piece, fits]) fun i lt1 lt2 => ?_
    have lt1 : i < (trimCR line).length := by simpa [piece] using lt1
    have within := lt1.trans_le (trimCR_initial line).length_le
    have inside : (0 : Int) ≤ i ∧ (i : Int) < line.length := by omega
    have byte : s.copied line.length buf i = s.rest[i] := by
      rw [copied, if_pos inside, Int.toNat_natCast, List.getD_eq_getElem?_getD,
        List.getElem?_eq_getElem (by omega), Option.getD_some]
    rw [List.getElem_take, ← byte]
    simp only [piece, List.getElem_map, List.getElem_range]
    exact if_neg fun same => lt1.ne (Int.ofNat_inj.mp same)

end MemoryDataStream

/-- The memory at a call of `ReadLine`: around the caller's buffer, and what follows the stream's. -/
structure LineMemory where
  buf : Int → UInt8
  beyond : List UInt8

/-- A stream and the pieces that `ReadLine` has returned so far. -/
structure LineReading where
  stream : MemoryDataStream
  pieces : List (List UInt8)

namespace LineReading
open MemoryDataStream

/-- A stream that wraps a memory chunk, with nothing read. -/
def new (pMem : Nat) (content : List UInt8) (placed : 0 < pMem ∧ pMem + content.length < 2 ^ 64) :
    LineReading :=
  { stream := .new pMem content placed, pieces := [] }

/-- One call with the default delimiter, unless the stream is at `Eof`. -/
def step (maxCount : Nat) (r : LineReading) (memory : LineMemory) : Option LineReading :=
  if r.stream.eof then none
  else (r.stream.readLine memory.buf maxCount [10] memory.beyond).map fun res =>
    { stream := res.2.2, pieces := r.pieces ++ [piece res.1 res.2.1] }

/-- The condition on a call: the line ahead comes through whole, an empty one is not read while a carriage
    return stands in front of `buf`, and one without a newline does not end at the last address of all. -/
structure Spares (maxCount : Nat) (r : LineReading) (memory : LineMemory) : Prop where
  whole : Whole maxCount r.stream.rest
  nonempty : lineAhead r.stream.rest = [] → memory.buf (-1) ≠ 13
  address : lineAhead r.stream.rest = r.stream.rest → r.stream.m_End + 1 < 2 ^ 64

def Keeps (maxCount : Nat) (r : LineReading) (memory : LineMemory) : Prop :=
  r.stream.eof = true ∨ Spares maxCount r memory

/-- Nothing has been lost so far. -/
structure Good (content : List UInt8) (r : LineReading) : Prop where
  pos : r.stream.InBuffer ∨ r.stream.m_Pos = r.stream.m_End + 1
  bytes : stripLineEnds content = r.pieces.flatten ++ stripLineEnds r.stream.rest

/-- Something has been lost, or `ReadLine` has given a number that is too large, or the cursor has wrapped
    around. -/
def Bad (content : List UInt8) (r : LineReading) : Prop :=
  r.pieces.flatten.length + (stripLineEnds r.stream.rest).length < (stripLineEnds content).length ∨
    2 ^ 64 - 1 ≤ r.pieces.flatten.length ∨ r.stream.m_Pos < r.stream.m_Data

variable {content : List UInt8} {maxCount : Nat} {r r' : LineReading} {m : LineMemory}

/-- What one call can do. -/
lemma step_cases (st : Exec (step maxCount) r m r') :
    r.stream.eof = false ∧ r.stream.InBuffer ∧
    ∃ p, r'.pieces = r.pieces ++ [p] ∧
      let line := lineBytes maxCount [10] r.stream.rest
      r'.stream = { r.stream with m_Pos := addr (r.stream.m_Pos + (line.length + 1)) } ∧
      (line = [] ∧ m.buf (-1) = 13 ∧ p.length = 2 ^ 64 - 1 ∨
        (line = [] → m.buf (-1) ≠ 13) ∧ p = trimCR line) := by
  simp only [Exec, step, Option.ite_none_left_eq_some, Option.map_eq_some_iff] at st
  obtain ⟨more, ⟨n, buf', s'⟩, e, rfl⟩ := st
  have inside := inBuffer_of_readLine e
  obtain ⟨stream, result⟩ := readLine_cases inside e
  refine ⟨by simpa using more, inside, _, rfl, stream, ?_⟩
  rcases result with ⟨empty, cr, rfl⟩ | ⟨before, line⟩
  · exact .inl ⟨empty, cr, by simp [piece]⟩
  · exact .inr ⟨before, line⟩

/-- The cursor gets past the last address of all. -/
def Wraps (maxCount : Nat) (r : LineReading) : Prop :=
  r.stream.m_End + 1 = 2 ^ 64 ∧ (lineBytes maxCount [10] r.stream.rest).length = r.stream.rest.length

/-- Where the cursor gets to. -/
lemma moved (h : r.stream.InBuffer) (maxCount : Nat) :
    let n := (lineBytes maxCount [10] r.stream.rest).length
    let s' := { r.stream with m_Pos := addr (r.stream.m_Pos + (n + 1)) }
    Wraps maxCount r ∧ s'.m_Pos < s'.m_Data ∨
      ¬ Wraps maxCount r ∧ (s'.InBuffer ∨ s'.m_Pos = s'.m_End + 1) ∧
        s'.rest = r.stream.rest.drop (n + 1) := by
  intro n s'
  have fits : n ≤ r.stream.rest.length := (lineBytes_initial ..).length_le
  have len := rest_length h
  have lt := r.stream.m_End_lt
  have pos := r.stream.placed.1
  have goes : s'.m_Pos = addr (r.stream.m_Pos + (n + 1)) := rfl
  obtain ⟨le, le'⟩ := h
  by_cases wraps : Wraps maxCount r
  · obtain ⟨last, all⟩ := wraps
    refine .inl ⟨⟨last, all⟩, ?_⟩
    change s'.m_Pos < r.stream.m_Data
    change n = _ at all
    rw [goes, addr]
    omega
  · have short : r.stream.m_Pos + (n + 1) < 2 ^ 64 := by
      by_contra long
      exact wraps ⟨by omega, by change n = _; omega⟩
    have sum : s'.m_Pos = r.stream.m_Pos + (n + 1) := by
      rw [goes, addr_of_lt] <;> omega
    refine .inr ⟨wraps, ?_, ?_⟩
    · change r.stream.m_Data ≤ s'.m_Pos ∧ s'.m_Pos ≤ r.stream.m_End ∨ s'.m_Pos = r.stream.m_End + 1
      omega
    · change r.stream.content.drop (s'.m_Pos - r.stream.m_Data) = _
      rw [rest, List.drop_drop, sum]
      congr 1
      omega

/-- The condition on a call, in terms of what the call copies. -/
lemma spares_iff (pos : 0 < maxCount) :
    Spares maxCount r m ↔ Whole maxCount r.stream.rest ∧
      ¬ (lineBytes maxCount [10] r.stream.rest = [] ∧ m.buf (-1) = 13) ∧ ¬ Wraps maxCount r := by
  have lt := r.stream.m_End_lt
  constructor
  · rintro ⟨whole, nonempty, address⟩
    refine ⟨whole, ?_, ?_⟩
    · rintro ⟨empty, cr⟩
      exact nonempty ((whole.nil_iff pos).mpr empty) cr
    · rintro ⟨last, all⟩
      exact absurd (address (whole.self_iff.mpr all)) (by omega)
  · rintro ⟨whole, before, wraps⟩
    refine ⟨whole, fun empty cr => before ⟨(whole.nil_iff pos).mp empty, cr⟩, fun unended => ?_⟩
    by_contra last
    exact wraps ⟨by omega, whole.self_iff.mp unended⟩

/-- One more piece. -/
lemma flatten_snoc (pieces : List (List UInt8)) (p : List UInt8) :
    (pieces ++ [p]).flatten = pieces.flatten ++ p := by
  rw [List.flatten_append, List.flatten_singleton]

/-- A call that keeps the text goes on with the right pieces. -/
lemma good_step (pos : 0 < maxCount) (good : Good content r) (keeps : Keeps maxCount r m)
    (st : Exec (step maxCount) r m r') : Good content r' := by
  obtain ⟨more, inside, p, pieces, stream, result⟩ := step_cases st
  obtain ⟨whole, before, wraps⟩ := (spares_iff pos).mp (keeps.resolve_left (by simp [more]))
  obtain ⟨-, cursor, rest⟩ := (moved inside maxCount).resolve_left fun h => wraps h.1
  obtain ⟨-, rfl⟩ := result.resolve_left fun h => before ⟨h.1, h.2.1⟩
  refine ⟨by rw [stream]; exact cursor, ?_⟩
  rw [pieces, flatten_snoc, stream, rest, List.append_assoc,
    (whole_iff maxCount r.stream.rest).2.mpr whole]
  exact good.bytes

/-- A call that loses a byte spoils the pieces. -/
lemma good_lost (pos : 0 < maxCount) (good : Good content r) (lost : ¬ Keeps maxCount r m)
    (st : Exec (step maxCount) r m r') : Bad content r' := by
  obtain ⟨more, inside, p, pieces, stream, result⟩ := step_cases st
  have spares := fun h => lost (.inr ((spares_iff pos).mpr h))
  obtain ⟨out, whole⟩ := whole_iff maxCount r.stream.rest
  unfold Bad
  rw [pieces, flatten_snoc, stream, List.length_append]
  rcases moved inside maxCount with ⟨-, wrapped⟩ | ⟨wraps, -, rest⟩
  · exact .inr (.inr wrapped)
  · rcases result with ⟨-, -, huge⟩ | ⟨before, rfl⟩
    · exact .inr (.inl (by omega))
    · -- the line has not come through whole
      have broken : ¬ Whole maxCount r.stream.rest := fun whole =>
        spares ⟨whole, fun h => before h.1 h.2, wraps⟩
      have less := out.length_le.lt_of_ne fun same => broken (whole.mp (out.eq_of_length same))
      rw [good.bytes, rest, List.length_append]
      rw [List.length_append] at less
      exact .inl (by omega)

/-- What has been lost does not come back. -/
lemma bad_step (bad : Bad content r) (st : Exec (step maxCount) r m r') : Bad content r' := by
  obtain ⟨-, inside, p, pieces, stream, result⟩ := step_cases st
  have out := (whole_iff maxCount r.stream.rest).1.length_le
  unfold Bad
  rw [pieces, flatten_snoc, stream, List.length_append]
  rw [List.length_append] at out
  rcases moved inside maxCount with ⟨-, wrapped⟩ | ⟨-, -, rest⟩
  · exact .inr (.inr wrapped)
  · rcases bad with less | huge | wrapped
    · rcases result with ⟨-, -, huge⟩ | ⟨-, rfl⟩
      · exact .inr (.inl (by omega))
      · rw [rest]
        exact .inl (by omega)
    · exact .inr (.inl (by omega))
    · exact absurd inside.1 (by omega)

/-- Short of `Eof` a call returns. -/
lemma exists_step (good : Good content r) (more : r.stream.eof = false) (m : LineMemory) :
    ∃ r', Exec (step maxCount) r m r' := by
  have before_end : r.stream.m_Pos < r.stream.m_End := by simpa [eof] using more
  have inside : r.stream.InBuffer := good.pos.resolve_right (by omega)
  obtain ⟨n, buf', s', e⟩ := exists_readLine inside m.buf maxCount [10] m.beyond
  simp only [Exec, step, more, Bool.false_eq_true, if_false, e, Option.map_some]
  exact ⟨_, rfl⟩

/-- The call comes closer to the end. -/
lemma rest_lt (good : Good content r') (st : Exec (step maxCount) r m r') :
    r'.stream.rest.length < r.stream.rest.length := by
  obtain ⟨more, inside, p, -, stream, -⟩ := step_cases st
  have before_end : r.stream.m_Pos < r.stream.m_End := by simpa [eof] using more
  have len := rest_length inside
  have le := inside.1
  have pos := good.pos
  rcases moved inside maxCount with ⟨-, wrapped⟩ | ⟨-, -, rest⟩
  · rw [stream] at pos
    rcases pos with h | h
    · exact absurd h.1 (by omega)
    · change _ < r.stream.m_Data at wrapped
      change _ = r.stream.m_End + 1 at h
      omega
  · rw [stream, rest, List.length_drop]
    omega

/-- In the beginning all of the text is ahead. -/
lemma good_new (pMem : Nat) (content : List UInt8)
    (placed : 0 < pMem ∧ pMem + content.length < 2 ^ 64) : Good content (new pMem content placed) := by
  have start := at_new pMem content placed
  refine ⟨.inl start.inBuffer, ?_⟩
  change _ = [] ++ stripLineEnds (MemoryDataStream.new pMem content placed).rest
  rw [start.rest, List.nil_append]

/-- At `Eof`, with nothing lost, the pieces are the text without its line ends. -/
lemma removed_of_good (good : Good content r) (done : r.stream.eof = true) :
    LineEndsRemoved content r.pieces.flatten := by
  have past : r.stream.m_End ≤ r.stream.m_Pos := by simpa [eof] using done
  have rest : r.stream.rest = [] := by
    rw [MemoryDataStream.rest, List.drop_eq_nil_iff]
    rw [m_End, m_Size] at past
    omega
  have bytes := good.bytes
  rw [rest, stripLineEnds, List.append_nil] at bytes
  rw [← bytes]
  exact lineEndsRemoved_strip content

/-- At `Eof`, what has been lost is missing. -/
lemma not_removed_of_bad (bad : Bad content r) (done : r.stream.eof = true)
    (short : content.length < 2 ^ 64 - 1) : ¬ LineEndsRemoved content r.pieces.flatten := by
  intro removed
  have past : r.stream.m_End ≤ r.stream.m_Pos := by simpa [eof] using done
  have least := removed.strip_sublist.length_le
  have most := removed.length_le
  rcases bad with less | huge | wrapped
  · omega
  · omega
  · rw [m_End] at past
    omega

/-- Calls that meet the condition come to `Eof` with nothing lost. -/
lemma exists_eof (pos : 0 < maxCount) {start : LineReading} (base : Good content start)
    (memory : Nat → LineMemory)
    (meets : ∀ n, Meets (Exec (step maxCount)) (Keeps maxCount) start ((List.range n).map memory)) :
    ∃ n r, Run (Exec (step maxCount)) start ((List.range n).map memory) r ∧ Good content r ∧
      r.stream.eof = true := by
  refine exists_run_until memory (fun r => r.stream.rest.length) base ?_
  intro n r run good more
  obtain ⟨r', st⟩ := exists_step good (by simpa using more) (memory n)
  have keeps : Keeps maxCount r (memory n) := by
    refine meets (n + 1) _ _ r ?_ run
    rw [List.range_succ, List.map_append, List.map_singleton]
  have good' := good_step pos good keeps st
  exact ⟨r', st, good', rest_lt good' st⟩

/-- Nothing comes after `Eof`. -/
lemma run_eof {l : List LineMemory} (done : r.stream.eof = true)
    (run : Run (Exec (step maxCount)) r l r') : r' = r := by
  cases l with
  | nil => exact run.nil_inv
  | cons m l =>
    obtain ⟨r1, st, -⟩ := run.cons_inv
    obtain ⟨more, -⟩ := step_cases st
    rw [done] at more
    cases more

/-- Reading a memory chunk from its start with the default delimiter and some `maxCount >= 1`: the calls come
    to `Eof`, and the pieces are the content with only newlines, and carriage returns directly before one,
    removed, if and only if every call meets its condition. -/
theorem readToEof_iff (pMem : Nat) (content : List UInt8)
    (placed : 0 < pMem ∧ pMem + content.length < 2 ^ 64) (maxCount : Nat) (pos : 0 < maxCount)
    (memory : Nat → LineMemory) :
    (∃ n r, Run (Exec (step maxCount)) (new pMem content placed) ((List.range n).map memory) r ∧
      r.stream.eof = true ∧ LineEndsRemoved content r.pieces.flatten) ↔
      ∀ n, Meets (Exec (step maxCount)) (Keeps maxCount) (new pMem content placed)
        ((List.range n).map memory) := by
  have base := good_new pMem content placed
  have det := Exec.deterministic (step maxCount)
  constructor
  · rintro ⟨n, r, run, done, removed⟩ k l1 m r1 pre run1
    have short : content.length < 2 ^ 64 - 1 := by omega
    obtain ⟨meets, -⟩ := (run.meets_or det base (good_step pos) (good_lost pos) bad_step).resolve_right
      fun bad => not_removed_of_bad bad done short removed
    have inside : ∀ {i}, i ≤ max k n → (List.range i).map memory <+: (List.range (max k n)).map memory := by
      intro i le
      rw [← min_eq_left le, ← List.take_range]
      exact (List.take_prefix ..).map memory
    have pre' := pre.trans (inside (le_max_left k n))
    by_cases early : l1.length < n
    · refine meets l1 m r1 (List.prefix_of_prefix_length_le pre' (inside (le_max_right k n)) ?_) run1
      rw [List.length_append, List.length_map, List.length_range]
      exact early
    · -- a call at `Eof`
      have later : (List.range n).map memory <+: l1 := by
        refine List.prefix_of_prefix_length_le (inside (le_max_right k n))
          ((List.prefix_append l1 [m]).trans pre') ?_
        rw [List.length_map, List.length_range]
        omega
      obtain ⟨l2, rfl⟩ := later
      obtain ⟨r2, run2, run3⟩ := run1.split
      cases Run.unique det run run2
      rw [run_eof done run3]
      exact .inl done
  · intro meets
    obtain ⟨n, r, run, good, done⟩ := exists_eof pos base memory meets
    exact ⟨n, r, run, done, removed_of_good good done⟩

/-- The statement above at two lines, the first one longer than `maxCount`. -/
theorem readToEof_iff_lines :
    (∃ n r, Run (Exec (step 2)) (new 16 [97, 98, 99, 10, 100] (by decide))
        ((List.range n).map fun _ => ⟨fun _ => 0, []⟩) r ∧
      r.stream.eof = true ∧ LineEndsRemoved [97, 98, 99, 10, 100] r.pieces.flatten) ↔
      ∀ n, Meets (Exec (step 2)) (Keeps 2) (new 16 [97, 98, 99, 10, 100] (by decide))
        ((List.range n).map fun _ => ⟨fun _ => 0, []⟩) :=
  readToEof_iff 16 [97, 98, 99, 10, 100] (by decide) 2 (by decide) fun _ => ⟨fun _ => 0, []⟩

/-- A reading that has come to `Eof` without some byte of the text. -/
lemma loses (pMem : Nat) {content : List UInt8} (placed : 0 < pMem ∧ pMem + content.length < 2 ^ 64)
    {l : List LineMemory} (out : List UInt8)
    (value : (exec (step maxCount) (new pMem content placed) l).map
      (fun r => (r.stream.eof, r.pieces.flatten)) = some (true, out))
    (lacks : ¬ (stripLineEnds content).Sublist out) :
    ∃ r, Run (Exec (step maxCount)) (new pMem content placed) l r ∧ r.stream.eof = true ∧
      ¬ LineEndsRemoved content r.pieces.flatten := by
  obtain ⟨r, run, e⟩ := run_of_map value
  obtain ⟨done, pieces⟩ := Prod.mk.inj e
  refine ⟨r, run, done, fun removed => lacks ?_⟩
  rw [← pieces]
  exact removed.strip_sublist

/-- A line that is longer than `maxCount` loses the byte behind the cut, a line with a zero byte loses that,
    and a carriage return at the end of the content is lost. -/
theorem readToEof_loses :
    (∃ r, Run (Exec (step 2)) (new 16 [97, 98, 99, 100] (by decide))
        [⟨fun _ => 0, []⟩, ⟨fun _ => 0, []⟩] r ∧
      r.stream.eof = true ∧ ¬ LineEndsRemoved [97, 98, 99, 100] r.pieces.flatten) ∧
    (∃ r, Run (Exec (step 8)) (new 16 [97, 0, 98] (by decide))
        [⟨fun _ => 0, []⟩, ⟨fun _ => 0, []⟩] r ∧
      r.stream.eof = true ∧ ¬ LineEndsRemoved [97, 0, 98] r.pieces.flatten) ∧
    ∃ r, Run (Exec (step 8)) (new 16 [97, 13] (by decide)) [⟨fun _ => 0, []⟩] r ∧
      r.stream.eof = true ∧ ¬ LineEndsRemoved [97, 13] r.pieces.flatten := by
  refine ⟨?_, ?_, ?_⟩
  · exact loses 16 (by decide) [97, 98, 100] (by decide) (by decide)
  · exact loses 16 (by decide) [97, 98] (by decide) (by decide)
  · exact loses 16 (by decide) [97] (by decide) (by decide)

end LineReading
end XLN
