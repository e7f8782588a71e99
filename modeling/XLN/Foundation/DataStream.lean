import XLN.Lib.Transition
import XLN.Lib.Tape
import Mathlib.Data.List.TakeWhile
import Mathlib.Tactic.Common

/-!
# Memory streams

`Core/Foundation/DataStream.h` and `DataStream.cpp`: a `MemoryDataStream` is a buffer and a cursor
`m_Pos`. Pointers are 64-bit addresses and wrap like the hardware's. A call gives `none` when one of
its assertions fails or when it copies from or to memory outside the buffer. With `ndebug` the
assertions are compiled out.
-/

namespace XLN
open Transition

/-- `XCr::String`, a `std::string`, as its bytes. -/
abbrev ByteString := List UInt8

/-- The address that pointer arithmetic gives for `z`. -/
def addr (z : Int) : Nat := (z % 2 ^ 64).toNat

/-- What `str.c_str()` shows to a C function. -/
def c_str (str : ByteString) : ByteString :=
  str.takeWhile fun c => c ≠ 0

/-- A C string has no zero. -/
lemma zero_not_mem_c_str (str : ByteString) : 0 ∉ c_str str :=
  fun mem => by simpa using List.mem_takeWhile_imp mem

/-- A C string is no longer than its bytes. -/
lemma length_c_str_le (str : ByteString) : (c_str str).length ≤ str.length :=
  (List.takeWhile_prefix _).length_le

/-- A string without a zero byte is read back whole. -/
lemma c_str_eq_self {str : ByteString} (no_zero : 0 ∉ str) : c_str str = str := by
  rw [c_str, List.takeWhile_eq_self_iff]
  intro c mem
  rw [decide_eq_true_eq]
  rintro rfl
  exact no_zero mem

/-- `strcspn`, on the memory from its first argument on. -/
def strcspn (mem : List UInt8) (reject : ByteString) : Nat :=
  (mem.takeWhile fun c => c ≠ 0 ∧ c ∉ reject).length

/-- `assert` of the C library. -/
def assert (ndebug : Bool) (p : Prop) [Decidable p] : Option Unit :=
  if ndebug = true ∨ p then some () else none

/-- Puts `bytes` over `mem` from index `i` on. What does not fit is dropped. -/
def overwrite (mem : List UInt8) (i : Nat) (bytes : List UInt8) : List UInt8 :=
  mem.take i ++ bytes.take (mem.length - i) ++ mem.drop (i + bytes.length)

/-- What is overwritten keeps its length. -/
@[simp] lemma overwrite_length (mem : List UInt8) (i : Nat) (bytes : List UInt8) :
    (overwrite mem i bytes).length = mem.length := by
  simp only [overwrite, List.length_append, List.length_take, List.length_drop]
  omega

/-- The bytes are overwritten from the place on. -/
lemma overwrite_append {left right bytes : List UInt8} (room : bytes.length ≤ right.length) :
    overwrite (left ++ right) left.length bytes = left ++ bytes ++ right.drop bytes.length := by
  have fits : bytes.take ((left ++ right).length - left.length) = bytes :=
    List.take_of_length_le (by rw [List.length_append]; omega)
  rw [overwrite, fits, List.take_left, List.drop_length_add_append]

/-- All of it is overwritten. -/
lemma overwrite_all {mem bytes : List UInt8} (length : bytes.length = mem.length) :
    overwrite mem 0 bytes = bytes := by
  have whole := @overwrite_append [] _ _ length.le
  rwa [List.nil_append, List.nil_append, length, List.drop_length, List.append_nil] at whole

/-- `DataStream::SeekFlag`. -/
inductive SeekFlag where
  | SF_SET
  | SF_CUR
  | SF_END
  deriving DecidableEq

/-- The data of a `MemoryDataStream`. The buffer is an object of its own in a 64-bit address space, not
    at the null address. -/
structure MemoryDataStream where
  m_Data : Nat
  content : List UInt8
  m_Pos : Nat
  placed : 0 < m_Data ∧ m_Data + content.length < 2 ^ 64

namespace MemoryDataStream

/-- The constructor that wraps a memory chunk. -/
def new (pMem : Nat) (content : List UInt8) (placed : 0 < pMem ∧ pMem + content.length < 2 ^ 64) :
    MemoryDataStream :=
  { m_Data := pMem, content, m_Pos := pMem, placed }

section Calls
variable (s : MemoryDataStream)

/-- `m_Size`, which `Size` returns. -/
def m_Size : Nat := s.content.length

/-- `m_End`. -/
def m_End : Nat := s.m_Data + s.m_Size

/-- `MemoryDataStream::Tell`. -/
def tell : Nat := addr ((s.m_Pos : Int) - s.m_Data)

/-- `MemoryDataStream::Eof`. -/
def eof : Bool := s.m_End ≤ s.m_Pos

/-- The bytes of the buffer from the cursor on. -/
def rest : List UInt8 := s.content.drop (s.m_Pos - s.m_Data)

/-- The memory from the cursor on: the rest of the buffer and what follows it up to the last address. -/
def ahead (beyond : List UInt8) : List UInt8 :=
  (s.rest ++ beyond).take (2 ^ 64 - 1 - s.m_Pos)

/-- The `cnt` bytes at the cursor belong to the buffer. -/
def Copies (cnt : Nat) : Prop :=
  s.m_Data ≤ s.m_Pos ∧ s.m_Pos + cnt ≤ s.m_End

instance (cnt : Nat) : Decidable (s.Copies cnt) := by
  unfold Copies; infer_instance

/-- The clamping that `Read` and `Write` share. -/
def clamp (count : Nat) : Nat :=
  if s.m_End < addr (s.m_Pos + count) then addr ((s.m_End : Int) - s.m_Pos) else count

/-- `MemoryDataStream::Read`. Gives the bytes stored in `buf`, their number is the return value. -/
def read (ndebug : Bool) (count : Nat) : Option (List UInt8 × MemoryDataStream) := do
  assert ndebug (addr (s.m_Pos + count) ≤ s.m_End)
  let cnt := s.clamp count
  if cnt = 0 then
    some ([], s)
  else if s.Copies cnt then
    some (s.rest.take cnt, { s with m_Pos := addr (s.m_Pos + cnt) })
  else none

/-- `MemoryDataStream::Write` of the bytes of `buf`. -/
def write (ndebug : Bool) (buf : List UInt8) : Option MemoryDataStream := do
  assert ndebug (addr (s.m_Pos + buf.length) ≤ s.m_End)
  let cnt := s.clamp buf.length
  if cnt = 0 then
    some s
  else if s.Copies cnt then
    some { s with
      content := overwrite s.content (s.m_Pos - s.m_Data) (buf.take cnt)
      m_Pos := addr (s.m_Pos + cnt)
      placed := by rw [overwrite_length]; exact s.placed }
  else none

/-- The clamping that `ReadLine` and `SkipLine` share. -/
def clampLine (readCount : Nat) : Nat :=
  if s.m_End < addr (readCount + s.m_Pos) then addr ((s.m_End : Int) - s.m_Pos) else readCount

/-- `MemoryDataStream::ReadLine`. `buf` is the memory around the caller's buffer, by index. Gives the
    return value and that memory afterwards. -/
def readLine (buf : Int → UInt8) (maxCount : Nat) (delim : ByteString) (beyond : List UInt8) :
    Option (Nat × (Int → UInt8) × MemoryDataStream) :=
  let trimCR := 10 ∈ delim
  let readCount := strcspn (s.ahead beyond) (c_str delim)
  let readCount := if maxCount < readCount then maxCount else readCount
  let readCount := s.clampLine readCount
  if s.Copies readCount then
    let buf : Int → UInt8 := fun i =>
      if 0 ≤ i ∧ i < readCount then s.rest.getD i.toNat 0 else buf i
    -- with nothing copied this looks at `buf[-1]`
    let last : Int := if trimCR ∧ buf (readCount - 1) = 13 then readCount - 1 else readCount
    some (addr last, fun i => if i = last then 0 else buf i,
      { s with m_Pos := addr (s.m_Pos + (readCount + 1)) })
  else none

/-- `MemoryDataStream::SkipLine`. -/
def skipLine (delim : ByteString) (beyond : List UInt8) : Nat × MemoryDataStream :=
  let readCount := s.clampLine (strcspn (s.ahead beyond) (c_str delim))
  (readCount, { s with m_Pos := addr (s.m_Pos + (readCount + 1)) })

/-- `MemoryDataStream::Skip`. -/
def skip (count : Int) : MemoryDataStream :=
  let cnt := if s.m_End < addr (count + s.m_Pos) then (s.m_End : Int) - s.m_Pos else count
  { s with m_Pos := addr (s.m_Pos + cnt) }

/-- `MemoryDataStream::Seek(pos)`. -/
def seek (ndebug : Bool) (pos : Nat) : Option MemoryDataStream := do
  assert ndebug (addr (s.m_Data + pos) ≤ s.m_End)
  some { s with m_Pos := addr (s.m_Data + pos) }

/-- `MemoryDataStream::Seek(pos, origin)`. -/
def seekFrom (ndebug : Bool) (pos : Nat) (origin : SeekFlag) : Option MemoryDataStream := do
  let m_Pos := match origin with
    | .SF_CUR => addr (s.m_Pos + pos)
    | .SF_SET => addr (s.m_Data + pos)
    | .SF_END => addr ((s.m_End : Int) - pos)
  assert ndebug (m_Pos ≤ s.m_End)
  some { s with m_Pos }

end Calls

/-- The cursor is inside the buffer. -/
def InBuffer (s : MemoryDataStream) : Prop :=
  s.m_Data ≤ s.m_Pos ∧ s.m_Pos ≤ s.m_End

variable {s s' : MemoryDataStream} {ndebug : Bool}

/-- An address below the end of the memory is itself. -/
lemma addr_of_lt {z : Int} (nonneg : 0 ≤ z) (lt : z < 2 ^ 64) : addr z = z.toNat := by
  rw [addr, Int.emod_eq_of_lt nonneg lt]

/-- An assertion passes if it holds or is compiled away. -/
@[simp] lemma assert_eq_some {p : Prop} [Decidable p] {u : Unit} :
    assert ndebug p = some u ↔ ndebug = true ∨ p := by
  by_cases h : ndebug = true ∨ p <;> simp [assert, h]

/-- The end of the content is an address. -/
lemma m_End_lt (s : MemoryDataStream) : s.m_End < 2 ^ 64 := s.placed.2

/-- `Tell` is the distance of the cursor from the begin. -/
lemma tell_eq (h : s.InBuffer) : s.tell = s.m_Pos - s.m_Data := by
  have := s.m_End_lt
  rw [tell, addr_of_lt] <;> have := h.1 <;> have := h.2 <;> omega

/-- So many bytes are left. -/
lemma rest_length (h : s.InBuffer) : s.rest.length = s.m_End - s.m_Pos := by
  have := h.1
  rw [rest, List.length_drop, m_End, m_Size]
  omega

/-- Inside the buffer `Tell() <= Size()`. -/
lemma tell_le (h : s.InBuffer) : s.tell ≤ s.m_Size := by
  rw [tell_eq h]
  have := h.2
  rw [m_End] at this
  omega

/-! ## Reading what was written -/

/-- The buffer holds `left` behind the cursor and `right` from the cursor on. -/
def At (s : MemoryDataStream) (left right : List UInt8) : Prop :=
  s.content = left ++ right ∧ s.m_Pos = s.m_Data + left.length

/-- A new stream stands at its begin. -/
lemma at_new (pMem : Nat) (content : List UInt8)
    (placed : 0 < pMem ∧ pMem + content.length < 2 ^ 64) : (new pMem content placed).At [] content :=
  ⟨rfl, rfl⟩

variable {left right bytes : List UInt8}

/-- The size is what was read and what is left. -/
lemma At.size (h : s.At left right) : s.m_Size = left.length + right.length := by
  rw [m_Size, h.1, List.length_append]

/-- Such a cursor is in the buffer. -/
lemma At.inBuffer (h : s.At left right) : s.InBuffer := by
  have pos := h.2
  have size := h.size
  simp only [InBuffer, m_End]
  omega

/-- `Tell` is what was read. -/
lemma At.tell (h : s.At left right) : s.tell = left.length := by
  rw [tell_eq h.inBuffer, h.2]
  omega

/-- What is left is left. -/
lemma At.rest (h : s.At left right) : s.rest = right := by
  rw [MemoryDataStream.rest, h.1, h.2, Nat.add_sub_cancel_left, List.drop_left]

/-- The cursor position from which `n` more bytes of the buffer can be taken. -/
lemma At.addr (h : s.At left right) {n : Nat} (room : n ≤ right.length) :
    addr (s.m_Pos + n) = s.m_Pos + n ∧ s.m_Pos + n ≤ s.m_End := by
  have lt := s.m_End_lt
  have pos := h.2
  have size := h.size
  have le : s.m_Pos + n ≤ s.m_End := by
    rw [m_End]
    omega
  exact ⟨by rw [addr_of_lt] <;> omega, le⟩

/-- A count with room is not cut. -/
lemma At.clamp (h : s.At left right) {n : Nat} (room : n ≤ right.length) : s.clamp n = n := by
  obtain ⟨sum, le⟩ := h.addr room
  rw [MemoryDataStream.clamp, sum, if_neg (by omega)]

/-- A count with room can be copied. -/
lemma At.copies (h : s.At left right) {n : Nat} (room : n ≤ right.length) : s.Copies n :=
  ⟨h.inBuffer.1, (h.addr room).2⟩

/-- `Read` of bytes that are there. -/
lemma read_reads (ndebug : Bool) (bytes : List UInt8) :
    Tape.Reads At (fun s => s.read ndebug bytes.length) bytes bytes := by
  intro s left right h
  have room : bytes.length ≤ (bytes ++ right).length := by simp
  obtain ⟨sum, le⟩ := h.addr room
  have asserted : assert ndebug (s.m_Pos + bytes.length ≤ s.m_End) = some () :=
    assert_eq_some.mpr (.inr le)
  simp only [read, asserted, h.clamp room, h.rest, sum, if_pos (h.copies room), List.take_left,
    Option.bind_eq_bind, Option.bind_some]
  cases bytes with
  | nil => exact ⟨s, rfl, by simpa using h⟩
  | cons b bytes =>
    refine ⟨_, rfl, ?_, ?_⟩
    · simp [h.1]
    · simp [h.2, Nat.add_assoc]

/-- `Write` with room for it. -/
lemma write_writes (ndebug : Bool) (bytes : List UInt8) :
    Tape.Writes At (fun s => s.write ndebug bytes) bytes := by
  intro s left right h room
  obtain ⟨sum, le⟩ := h.addr room
  have asserted : assert ndebug (s.m_Pos + bytes.length ≤ s.m_End) = some () :=
    assert_eq_some.mpr (.inr le)
  simp only [write, asserted, h.clamp room, sum, if_pos (h.copies room), List.take_length,
    Option.bind_eq_bind, Option.bind_some]
  cases bytes with
  | nil => exact ⟨s, rfl, by simpa using h⟩
  | cons b bytes =>
    refine ⟨_, rfl, ?_, ?_⟩
    · change overwrite s.content (s.m_Pos - s.m_Data) (b :: bytes) = _
      rw [h.1, h.2, Nat.add_sub_cancel_left, overwrite_append room]
    · simp [h.2, Nat.add_assoc]

/-- `Seek(0)`. -/
lemma At.seek_zero (h : s.At left right) (ndebug : Bool) :
    ∃ s', s.seek ndebug 0 = some s' ∧ s'.At [] (left ++ right) := by
  have lt := s.m_End_lt
  have start : XLN.addr (s.m_Data + (0 : Nat)) = s.m_Data := by
    rw [addr_of_lt] <;> rw [m_End] at lt <;> omega
  have asserted : assert ndebug (s.m_Data ≤ s.m_End) = some () :=
    assert_eq_some.mpr (.inr (Nat.le_add_right _ _))
  refine ⟨{ s with m_Pos := s.m_Data }, ?_, ⟨h.1, rfl⟩⟩
  simp only [seek, asserted, start, Option.bind_eq_bind, Option.bind_some]

/-! ## Sequences of calls -/

/-- One call on a stream, with the memory that follows the buffer where the call looks at it. -/
inductive Call where
  | read (count : UInt64)
  | write (buf : List UInt8)
  | readLine (buf : Int → UInt8) (maxCount : UInt64) (delim : ByteString) (beyond : List UInt8)
  | skipLine (delim : ByteString) (beyond : List UInt8)
  | skip (count : Int64)
  | seek (pos : UInt64)
  | seekFrom (pos : UInt64) (origin : SeekFlag)

/-- The stream after a call whose assertions hold. -/
def step (s : MemoryDataStream) : Call → Option MemoryDataStream
  | .read count => (s.read false count.toNat).map Prod.snd
  | .write buf => s.write false buf
  | .readLine buf maxCount delim beyond =>
    (s.readLine buf maxCount.toNat delim beyond).map fun r => r.2.2
  | .skipLine delim beyond => some (s.skipLine delim beyond).2
  | .skip count => some (s.skip count.toInt)
  | .seek pos => s.seek false pos.toNat
  | .seekFrom pos origin => s.seekFrom false pos.toNat origin

/-- A byte at which a line ends lies between the cursor and the end. -/
def HasStop (s : MemoryDataStream) (delim : ByteString) : Prop :=
  ∃ c ∈ s.rest, c = 0 ∨ c ∈ c_str delim

/-- The condition under which a call leaves the cursor inside the buffer. -/
def Kept (s : MemoryDataStream) : Call → Prop
  | .read _ => True
  | .write _ => True
  | .readLine _ maxCount delim _ => s.HasStop delim ∨ maxCount.toNat < s.m_Size - s.tell
  | .skipLine delim _ => s.HasStop delim
  | .skip count => s.m_Data ≤ addr (s.m_Pos + count.toInt)
  | .seek pos => pos.toNat ≤ s.m_Size
  | .seekFrom pos .SF_SET => pos.toNat ≤ s.m_Size
  | .seekFrom pos .SF_CUR => pos.toNat ≤ s.m_Size - s.tell ∨ 2 ^ 64 - s.tell ≤ pos.toNat
  | .seekFrom pos .SF_END => pos.toNat ≤ s.m_Size

/-- The search stops before the end of the memory that has a stop. -/
lemma strcspn_lt {mem more : List UInt8} {reject : ByteString}
    (stop : ∃ c ∈ mem, c = 0 ∨ c ∈ reject) : strcspn (mem ++ more) reject < mem.length := by
  induction mem with
  | nil => simp at stop
  | cons c mem ih =>
    unfold strcspn at ih ⊢
    rw [List.cons_append, List.takeWhile_cons]
    split
    next go =>
      have : ∃ d ∈ mem, d = 0 ∨ d ∈ reject := by
        obtain ⟨d, hd, stop⟩ := stop
        rcases List.mem_cons.mp hd with rfl | hd
        · simp only [decide_eq_true_eq] at go
          exact absurd stop (by tauto)
        · exact ⟨d, hd, stop⟩
      exact Nat.succ_lt_succ (ih this)
    next => simp

/-- The search passes a memory that has no stop. -/
lemma le_strcspn {mem : List UInt8} {reject : ByteString} (more : List UInt8)
    (stop : ¬ ∃ c ∈ mem, c = 0 ∨ c ∈ reject) : mem.length ≤ strcspn (mem ++ more) reject := by
  rw [strcspn, List.takeWhile_append_of_pos]
  · simp
  · intro c hc
    simp only [decide_eq_true_eq]
    by_contra h
    exact stop ⟨c, hc, by tauto⟩

/-- Ahead of the cursor is what is left and what is behind the buffer. -/
lemma ahead_eq (h : s.InBuffer) (beyond : List UInt8) :
    s.ahead beyond = s.rest ++ beyond.take (2 ^ 64 - 1 - s.m_End) := by
  have len := rest_length h
  have := s.m_End_lt
  have := h.2
  rw [ahead, List.take_append, List.take_of_length_le (by omega), len]
  congr 2
  omega

/-- The search stays in the memory. -/
lemma strcspn_ahead (s : MemoryDataStream) (reject : ByteString) (beyond : List UInt8) :
    strcspn (s.ahead beyond) reject ≤ 2 ^ 64 - 1 - s.m_Pos := by
  refine le_trans (List.takeWhile_prefix _).length_le ?_
  rw [ahead, List.length_take]
  omega

/-- A scan for the end of the line stays in the buffer exactly if it finds one there. -/
lemma hasStop_iff (h : s.InBuffer) (delim : ByteString) (beyond : List UInt8) :
    s.HasStop delim ↔ strcspn (s.ahead beyond) (c_str delim) < s.m_End - s.m_Pos := by
  rw [ahead_eq h, ← rest_length h]
  constructor
  · exact strcspn_lt
  · intro lt
    by_contra stop
    have := le_strcspn (beyond.take (2 ^ 64 - 1 - s.m_End)) stop
    omega

/-- The step behind the end of the line. -/
lemma inBuffer_line (h : s.InBuffer) {n : Nat} (fits : n ≤ 2 ^ 64 - 1 - s.m_Pos) :
    InBuffer { s with m_Pos := addr (s.m_Pos + (s.clampLine n + 1)) } ↔ n < s.m_End - s.m_Pos := by
  have pos := s.placed.1
  have lt := s.m_End_lt
  obtain ⟨le, le'⟩ := h
  have sum : addr (n + s.m_Pos) = n + s.m_Pos := by
    rw [addr_of_lt] <;> omega
  have diff : addr ((s.m_End : Int) - s.m_Pos) = s.m_End - s.m_Pos := by
    rw [addr_of_lt] <;> omega
  have cut : s.clampLine n = min n (s.m_End - s.m_Pos) := by
    rw [clampLine, sum, diff]
    split <;> omega
  rw [cut]
  simp only [InBuffer, m_End, m_Size, addr] at *
  omega

/-- What `Read` can do: nothing, or copy bytes of the buffer and step behind them. -/
lemma read_cases {count : Nat} {bytes : List UInt8} (e : s.read ndebug count = some (bytes, s')) :
    s' = s ∧ bytes = [] ∨
    ∃ cnt, s.Copies cnt ∧ bytes = s.rest.take cnt ∧ s' = { s with m_Pos := addr (s.m_Pos + cnt) } := by
  simp only [read, Option.bind_eq_bind, Option.bind_eq_some_iff] at e
  obtain ⟨-, -, e⟩ := e
  split at e
  · cases e
    exact .inl ⟨rfl, rfl⟩
  · split at e
    next copies =>
      cases e
      exact .inr ⟨_, copies, rfl, rfl⟩
    next => cases e

/-- `Write` leaves the stream or moves its cursor on. -/
lemma write_cases {buf : List UInt8} (e : s.write ndebug buf = some s') :
    s' = s ∨ ∃ cnt, s.Copies cnt ∧ s'.m_Data = s.m_Data ∧ s'.m_Size = s.m_Size ∧
      s'.m_Pos = addr (s.m_Pos + cnt) := by
  simp only [write, Option.bind_eq_bind, Option.bind_eq_some_iff] at e
  obtain ⟨-, -, e⟩ := e
  split at e
  · cases e
    exact .inl rfl
  · split at e
    next copies =>
      cases e
      exact .inr ⟨_, copies, rfl, overwrite_length _ _ _, rfl⟩
    next => cases e

/-- Stepping over bytes of the buffer. -/
lemma inBuffer_copies {cnt : Nat} (copies : s.Copies cnt) (data : s'.m_Data = s.m_Data)
    (size : s'.m_Size = s.m_Size) (pos : s'.m_Pos = addr (s.m_Pos + cnt)) : s'.InBuffer := by
  have lt := s.m_End_lt
  obtain ⟨le, le'⟩ := copies
  simp only [InBuffer, m_End] at *
  rw [data, size, pos, addr_of_lt] <;> omega

/-- One step keeps the cursor inside exactly under its condition. -/
lemma step_inBuffer {a : Call} (h : s.InBuffer) (st : Exec step s a s') : s'.InBuffer ↔ s.Kept a := by
  cases a with
  | read count =>
    simp only [Exec, step, Option.map_eq_some_iff] at st
    obtain ⟨⟨bytes, s1⟩, e, rfl⟩ := st
    refine iff_of_true ?_ trivial
    obtain ⟨rfl, -⟩ | ⟨cnt, copies, -, rfl⟩ := read_cases e
    · exact h
    · exact inBuffer_copies copies rfl rfl rfl
  | write buf =>
    refine iff_of_true ?_ trivial
    obtain rfl | ⟨cnt, copies, data, size, pos⟩ := write_cases st
    · exact h
    · exact inBuffer_copies copies data size pos
  | readLine buf maxCount delim beyond =>
    simp only [Exec, step, readLine, Option.map_eq_some_iff, Option.ite_none_right_eq_some,
      Option.some.injEq] at st
    obtain ⟨r, ⟨-, rfl⟩, rfl⟩ := st
    have scan := s.strcspn_ahead (c_str delim) beyond
    rw [inBuffer_line h (by split <;> omega), Kept, hasStop_iff h delim beyond, tell_eq h]
    have := h.1
    have := h.2
    rw [m_End] at *
    split <;> omega
  | skipLine delim beyond =>
    cases st
    rw [skipLine, inBuffer_line h (s.strcspn_ahead _ _), Kept, hasStop_iff h delim beyond]
  | skip count =>
    cases st
    have lt := s.m_End_lt
    obtain ⟨le, le'⟩ := h
    simp only [skip, InBuffer, Kept, Int.add_comm count.toInt]
    change _ ∧ _ ≤ s.m_End ↔ _
    split
    next past =>
      -- the sum is past the end, so the cursor stops there
      have : addr (s.m_Pos + ((s.m_End : Int) - s.m_Pos)) = s.m_End := by
        rw [addr_of_lt] <;> omega
      rw [this]
      omega
    next inside => omega
  | seek pos =>
    simp only [Exec, step, seek, Option.bind_eq_bind, Option.bind_eq_some_iff, Option.some.injEq] at st
    obtain ⟨_, asserted, rfl⟩ := st
    simp only [assert_eq_some, Bool.false_eq_true, false_or] at asserted
    have lt := s.m_End_lt
    have := pos.toNat_lt
    simp only [InBuffer, Kept, m_End, addr] at *
    change _ ∧ _ ≤ s.m_Data + s.m_Size ↔ _
    omega
  | seekFrom pos origin =>
    simp only [Exec, step, seekFrom, Option.bind_eq_bind, Option.bind_eq_some_iff,
      Option.some.injEq] at st
    obtain ⟨_, asserted, rfl⟩ := st
    simp only [assert_eq_some, Bool.false_eq_true, false_or] at asserted
    have lt := s.m_End_lt
    have := pos.toNat_lt
    have tell := tell_eq h
    cases origin <;> simp only [InBuffer, Kept, m_End, addr, tell] at * <;>
      change _ ∧ _ ≤ s.m_Data + s.m_Size ↔ _ <;> omega

/-- The cursor stays inside the buffer throughout a sequence of calls exactly if every call meets its
    condition. -/
theorem inBuffer_along_iff (pMem : Nat) (content : List UInt8)
    (placed : 0 < pMem ∧ pMem + content.length < 2 ^ 64) {l : List Call}
    (run : Run (Exec step) (new pMem content placed) l s) :
    Along (Exec step) InBuffer (new pMem content placed) l ↔
      Meets (Exec step) Kept (new pMem content placed) l :=
  run.along_iff (Exec.deterministic _) ⟨le_rfl, Nat.le_add_right _ _⟩
    (fun h kept st => (step_inBuffer h st).mpr kept)
    (fun h lost st h' => lost ((step_inBuffer h st).mp h'))

/-- The statement above at two bytes, a line of one character, read and skipped back over. -/
theorem inBuffer_along_iff_line :
    Along (Exec step) InBuffer (new 16 [97, 10] (by decide))
        [.readLine (fun _ => 0) 8 [10] [], .skip (-2)] ↔
      Meets (Exec step) Kept (new 16 [97, 10] (by decide))
        [.readLine (fun _ => 0) 8 [10] [], .skip (-2)] := by
  have back : (exec step (new 16 [97, 10] (by decide))
      [.readLine (fun _ => 0) 8 [10] [], .skip (-2)]).map (fun s => s.m_Pos) = some 16 := by decide
  obtain ⟨s, run, -⟩ := run_of_map back
  exact inBuffer_along_iff 16 [97, 10] (by decide) run

/-- `ReadLine` on a last line without a delimiter steps behind the end. -/
theorem readLine_past_end :
    ∃ s : MemoryDataStream,
      Run (Exec step) (new 16 [97] (by decide)) [.readLine (fun _ => 0) 8 [10] []] s ∧
        ¬ s.InBuffer := by
  refine ⟨{ new 16 [97] (by decide) with m_Pos := 18 }, run_exec_iff.mpr rfl, ?_⟩
  intro h
  exact absurd h.2 (by decide)

end MemoryDataStream
end XLN
