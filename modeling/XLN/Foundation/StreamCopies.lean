import XLN.Foundation.DataStream

/-!
# Copies of a whole stream

`DataStream::GetAsString` and the constructors of `MemoryDataStream` that take another stream read `Size()`
bytes from the source's cursor on. `copies_iff`: they get the whole content exactly when the cursor is at
the start.
-/

namespace XLN

/-- `std::string::resize`. -/
def resize (str : ByteString) (n : Nat) : ByteString :=
  str.take n ++ List.replicate (n - str.length) 0

/-- `resize` gives the length. -/
@[simp] lemma resize_length (str : ByteString) (n : Nat) : (resize str n).length = n := by
  rw [resize, List.length_append, List.length_take, List.length_replicate]
  omega

namespace MemoryDataStream

section Definitions
variable (s : MemoryDataStream) (ndebug : Bool)

/-- `DataStream::GetAsString`, with the string afterwards. -/
def getAsString (retString : ByteString) : Option (ByteString × MemoryDataStream) := do
  let retString := resize retString s.m_Size
  let (bytes, s') ← s.read ndebug s.m_Size
  return (overwrite retString 0 bytes, s')

/-- `MemoryDataStream::MemoryDataStream(DataStream&)`: the new stream and the source afterwards. The new
    block is at `m_Data` and holds `raw` before. -/
def ofDataStream (m_Data : Nat) (raw : Nat → UInt8)
    (placed : 0 < m_Data ∧ m_Data + s.m_Size < 2 ^ 64) :
    Option (MemoryDataStream × MemoryDataStream) := do
  let (bytes, source) ← s.read ndebug s.m_Size
  let source ← source.seek ndebug 0
  return ({
    m_Data
    content := overwrite ((List.range s.m_Size).map raw) 0 bytes
    m_Pos := m_Data
    placed := by rw [overwrite_length, List.length_map, List.length_range]; exact placed }, source)

/-- `MemoryDataStream::MemoryDataStream(DataStreamPtr&)`. -/
def ofDataStreamPtr (m_Data : Nat) (raw : Nat → UInt8)
    (placed : 0 < m_Data ∧ m_Data + s.m_Size < 2 ^ 64) :
    Option (MemoryDataStream × MemoryDataStream) :=
  s.ofDataStream ndebug m_Data raw placed

end Definitions

variable {s s' : MemoryDataStream} {ndebug : Bool} {bytes mem : List UInt8}

/-- What is not reached keeps what it held. -/
lemma overwrite_drop {k : Nat} (fits : bytes.length ≤ mem.length) (le : bytes.length ≤ k) :
    (overwrite mem 0 bytes).drop k = mem.drop k := by
  obtain ⟨j, rfl⟩ := Nat.exists_eq_add_of_le le
  rw [← List.drop_drop, overwrite, List.take_zero, List.nil_append, Nat.sub_zero, Nat.zero_add,
    List.take_of_length_le fits, List.drop_left, List.drop_drop]

/-- A stream at its begin has all of its content ahead. -/
lemma at_start (h : s.InBuffer) (start : s.tell = 0) : s.At [] s.content := by
  rw [tell_eq h] at start
  have le := h.1
  exact ⟨rfl, by rw [List.length_nil]; omega⟩

/-- From the start `Read` gives everything. -/
lemma read_all (start : s.At [] s.content) (ndebug : Bool) :
    ∃ s', s.read ndebug s.m_Size = some (s.content, s') ∧ s'.At s.content [] := by
  have whole : s.At [] (s.content ++ []) := by rwa [List.append_nil]
  obtain ⟨s', e, after⟩ := read_reads ndebug s.content whole
  exact ⟨s', e, after⟩

/-- No more is read than is left. -/
lemma read_length {count : Nat} (e : s.read ndebug count = some (bytes, s')) :
    bytes.length ≤ s.rest.length := by
  obtain ⟨-, rfl⟩ | ⟨cnt, -, rfl, -⟩ := read_cases e
  · exact Nat.zero_le _
  · exact List.length_take_le' ..

/-- No more is left than the size. -/
lemma rest_le_size (s : MemoryDataStream) : s.rest.length ≤ s.m_Size := by
  rw [rest, List.length_drop, m_Size]
  omega

/-- Memory that held all zeros or all ones is overwritten completely only from the start on. -/
lemma tell_eq_zero (h : s.InBuffer) (ndebug : Bool)
    (whole : ∀ c : UInt8, ∃ bytes s', s.read ndebug s.m_Size = some (bytes, s') ∧
      overwrite (List.replicate s.m_Size c) 0 bytes = s.content) : s.tell = 0 := by
  by_contra later
  have size := s.rest_le_size
  have short : s.rest.length < s.m_Size := by
    have inside := h.2
    rw [m_End] at inside
    rw [tell_eq h] at later
    rw [rest, List.length_drop]
    change s.m_Size - _ < s.m_Size
    omega
  have left : ∀ c : UInt8, s.content.drop s.rest.length = List.replicate (s.m_Size - s.rest.length) c := by
    intro c
    obtain ⟨bytes, s', read, e⟩ := whole c
    have read_le := read_length read
    rw [← e, overwrite_drop (by rw [List.length_replicate]; omega) read_le, List.drop_replicate]
  have zeros_ones := (left 0).symm.trans (left 1)
  rw [List.replicate_inj] at zeros_ones
  rcases zeros_ones.2 with none | same
  · omega
  · exact absurd same (by decide)

/-- `GetAsString` gives the content only from the begin. -/
lemma getAsString_iff (h : s.InBuffer) (ndebug : Bool) :
    (∀ retString, ∃ s', s.getAsString ndebug retString = some (s.content, s')) ↔ s.tell = 0 := by
  constructor
  · intro whole
    refine tell_eq_zero h ndebug fun c => ?_
    obtain ⟨s', e⟩ := whole (List.replicate s.m_Size c)
    simp only [getAsString, Option.bind_eq_bind, Option.bind_eq_some_iff, Option.pure_def,
      Option.some.injEq, Prod.mk.injEq] at e
    obtain ⟨⟨bytes, s1⟩, read, e, -⟩ := e
    refine ⟨bytes, s1, read, ?_⟩
    have same : resize (List.replicate s.m_Size c) s.m_Size = List.replicate s.m_Size c := by
      simp [resize]
    rwa [same] at e
  · intro start retString
    obtain ⟨s', e, -⟩ := read_all (at_start h start) ndebug
    refine ⟨s', ?_⟩
    rw [getAsString, e]
    change some (overwrite _ 0 s.content, s') = _
    rw [overwrite_all (by rw [resize_length]; rfl)]

/-- The copy has the content only of a stream that stands at its begin. -/
lemma ofDataStream_iff (h : s.InBuffer) (ndebug : Bool) :
    (∀ m_Data raw placed, ∃ copy source, s.ofDataStream ndebug m_Data raw placed = some (copy, source) ∧
      copy.content = s.content) ↔ s.tell = 0 := by
  constructor
  · intro whole
    refine tell_eq_zero h ndebug fun c => ?_
    have room : 0 < 1 ∧ 1 + s.m_Size < 2 ^ 64 := by
      have placed := s.placed
      rw [m_Size]
      omega
    obtain ⟨copy, source, e, content⟩ := whole 1 (fun _ => c) room
    simp only [ofDataStream, Option.bind_eq_bind, Option.bind_eq_some_iff, Option.pure_def,
      Option.some.injEq, Prod.mk.injEq] at e
    obtain ⟨⟨bytes, s1⟩, read, _, -, rfl, -⟩ := e
    refine ⟨bytes, s1, read, ?_⟩
    have same : (List.range s.m_Size).map (fun _ => c) = List.replicate s.m_Size c := by
      rw [List.map_const', List.length_range]
    rwa [← same]
  · intro start m_Data raw placed
    obtain ⟨s1, e1, after⟩ := read_all (at_start h start) ndebug
    obtain ⟨s2, e2, -⟩ := after.seek_zero ndebug
    simp only [ofDataStream, e1, Option.bind_eq_bind, Option.bind_some, e2, Option.pure_def]
    exact ⟨_, s2, rfl, overwrite_all (by simp [m_Size])⟩

/-- With the assertions compiled out, `GetAsString` gives the whole content and the streams made from the
    source hold the whole content, whatever the string and the new memory held before, if and only if the
    cursor of the source is at its start. -/
theorem copies_iff (h : s.InBuffer) :
    (∀ retString, ∃ s', s.getAsString true retString = some (s.content, s')) ∧
    (∀ m_Data raw placed, ∃ copy source, s.ofDataStream true m_Data raw placed = some (copy, source) ∧
      copy.content = s.content) ∧
    (∀ m_Data raw placed, ∃ copy source, s.ofDataStreamPtr true m_Data raw placed = some (copy, source) ∧
      copy.content = s.content) ↔ s.tell = 0 := by
  unfold ofDataStreamPtr
  rw [getAsString_iff h, ofDataStream_iff h, and_self, and_self]

/-- The statement above at two bytes, none of them read. -/
theorem copies_iff_new :
    let s := new 16 [97, 98] (by decide)
    (∀ retString, ∃ s', s.getAsString true retString = some (s.content, s')) ∧
    (∀ m_Data raw placed, ∃ copy source, s.ofDataStream true m_Data raw placed = some (copy, source) ∧
      copy.content = s.content) ∧
    (∀ m_Data raw placed, ∃ copy source, s.ofDataStreamPtr true m_Data raw placed = some (copy, source) ∧
      copy.content = s.content) ↔ s.tell = 0 :=
  copies_iff (s := new 16 [97, 98] (by decide)) ⟨by decide, by decide⟩

/-- After one byte has been read, only the other one is copied, to the front. -/
theorem copies_later :
    ∃ s : MemoryDataStream, (new 16 [97, 98] (by decide)).read true 1 = some ([97], s) ∧ s.InBuffer ∧
      s.content = [97, 98] ∧
      (s.getAsString true []).map Prod.fst = some [98, 0] ∧
      ∀ placed, (s.ofDataStream true 32 (fun _ => 7) placed).map (fun r => r.1.content) =
        some [98, 7] :=
  ⟨{ new 16 [97, 98] (by decide) with m_Pos := 17 }, rfl, ⟨by decide, by decide⟩, rfl, by decide,
    fun _ => rfl⟩

end MemoryDataStream
end XLN
