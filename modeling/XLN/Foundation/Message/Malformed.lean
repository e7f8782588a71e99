import XLN.Foundation.Message.BaseMessage

/-!
# Reading what is no encoding

`FromStream` on a stream of arbitrary bytes, with the assertions compiled out: `Read` then stores what is
left, the function ignores how much that was, and a size field keeps the bytes of the field before where
the stream does not cover it. What happens is a matter of the sizes that `FromStream` comes upon
(`sizesOf`): the largest `XCr::UInt32` makes it store outside its buffer
(`fromStream_inBuffer_iff`), and with any others it succeeds, also on an encoding that has been cut off
(`cut_not_rejected`).
-/

namespace XLN
open MemoryDataStream

namespace KeyValuePairMessage

/-- The value of a size field of which the stream holds the first bytes, or all of them and more; the
    others are those of the value before. -/
def sizeField (old : UInt32) (bytes : List UInt8) : UInt32 :=
  .ofNat (Tape.ofLeBytes (bytes.take 4 ++ (Tape.leBytes 4 old.toNat).drop (bytes.take 4).length))

/-- What follows the string behind a size field. -/
def behind (old : UInt32) (bytes : List UInt8) : List UInt8 :=
  bytes.drop (4 + (sizeField old bytes).toNat)

/-- The sizes in front of the next `n` strings. -/
def stringSizes : Nat → UInt32 → List UInt8 → List UInt32
  | 0, _, _ => []
  | n + 1, old, bytes =>
    sizeField old bytes :: stringSizes n (sizeField old bytes) (behind old bytes)

/-- The sizes of all strings in the stream: behind the pair count a key and a value for each pair. -/
def sizesOf (bytes : List UInt8) : List UInt32 :=
  stringSizes (2 * (sizeField 0 bytes).toNat) 0 (bytes.drop 4)

/-- The largest size, for which `strSize + 1` wraps. -/
def largest : UInt32 := 0xFFFFFFFF

/-- The bytes `right` lie from the cursor to the end of the buffer, and no sum of the cursor and a size
    leaves the address space: `Read` stores as many bytes as are there. -/
def Clamps (s : MemoryDataStream) (right : List UInt8) : Prop :=
  (∃ left, s.At left right) ∧ s.m_End + 2 ^ 32 ≤ 2 ^ 64

variable {s : MemoryDataStream} {heap : Nat → Nat → UInt8} {raw : Nat → UInt8} {old strSize : UInt32}
  {right : List UInt8}

/-- The largest size. -/
lemma toNat_largest : largest.toNat = 2 ^ 32 - 1 := by
  decide

/-- The buffer has room for the terminating zero unless its size has wrapped. -/
lemma toNat_lt_succ_iff : strSize.toNat < (strSize + 1).toNat ↔ strSize ≠ largest := by
  have lt := strSize.toNat_lt
  rw [Ne, ← UInt32.toNat_inj, toNat_largest, UInt32.toNat_add, UInt32.toNat_one]
  omega

/-! ## Each function on any bytes -/

/-- `Read` of any number of bytes. -/
lemma read_clamps (count : Nat) (h : Clamps s right) (small : count < 2 ^ 32) :
    ∃ s', s.read true count = some (right.take count, s') ∧ Clamps s' (right.drop count) := by
  obtain ⟨⟨left, at_⟩, room⟩ := h
  have length : right.length = s.m_End - s.m_Pos := at_.rest ▸ rest_length at_.inBuffer
  have le := at_.inBuffer.2
  have sum : addr (s.m_Pos + count) = s.m_Pos + count := by
    rw [addr_of_lt] <;> omega
  have distance : addr ((s.m_End : Int) - s.m_Pos) = right.length := by
    rw [addr_of_lt] <;> omega
  have stored : s.clamp count = min count right.length := by
    rw [clamp, sum, distance]
    split
    · omega
    · omega
  have asserted : assert true (addr (s.m_Pos + count) ≤ s.m_End) = some () :=
    assert_eq_some.mpr (.inl rfl)
  simp only [MemoryDataStream.read, asserted, Option.bind_eq_bind, Option.bind_some, stored]
  by_cases none : min count right.length = 0
  · -- nothing is asked for, or nothing is left
    rw [if_pos none]
    rcases Nat.min_eq_zero_iff.mp none with rfl | empty
    · exact ⟨s, by rw [List.take_zero], ⟨left, at_⟩, room⟩
    · obtain rfl := List.length_eq_zero_iff.mp empty
      refine ⟨s, by rw [List.take_nil], ?_⟩
      rw [List.drop_nil]
      exact ⟨⟨left, at_⟩, room⟩
  · have copies : s.Copies (min count right.length) := at_.copies (Nat.min_le_right ..)
    have moved : addr (s.m_Pos + (min count right.length : Nat)) = s.m_Pos + min count right.length :=
      (at_.addr (Nat.min_le_right ..)).1
    rw [if_neg none, if_pos copies, at_.rest, moved]
    refine ⟨{ s with m_Pos := s.m_Pos + min count right.length }, ?_,
      ⟨left ++ right.take count, ?_, ?_⟩, room⟩
    · rw [← List.take_eq_take_min]
    · show s.content = _
      rw [List.append_assoc, List.take_append_drop, at_.1]
    · show s.m_Pos + min count right.length = s.m_Data + _
      rw [at_.2, List.length_append, List.length_take, Nat.add_assoc]

/-- A size is read from what is left of the stream. -/
lemma readUInt32_clamps (old : UInt32) (h : Clamps s right) :
    ∃ s', readUInt32 true old s = some (sizeField old right, s') ∧ Clamps s' (right.drop 4) := by
  obtain ⟨s', e, h'⟩ := read_clamps 4 h (by decide)
  exact ⟨s', by rw [readUInt32, e]; rfl, h'⟩

/-- A string whose size is not the largest is read, whatever there is of it. -/
lemma readString_clamps (raw : Nat → UInt8) (h : Clamps s right) (fits : strSize ≠ largest) :
    ∃ str s', readString true raw strSize s = some (str, s') ∧
      Clamps s' (right.drop strSize.toNat) := by
  obtain ⟨s', e, h'⟩ := read_clamps strSize.toNat h strSize.toNat_lt
  have room := toNat_lt_succ_iff.mpr fits
  have length : (right.take strSize.toNat).length ≤ (strSize + 1).toNat :=
    (List.length_take_le ..).trans room.le
  refine ⟨c_str (right.take strSize.toNat ++
    ((List.range strSize.toNat).map raw).drop (right.take strSize.toNat).length ++ [0]), s', ?_, h'⟩
  simp only [readString, e, Option.bind_eq_bind, Option.bind_some]
  exact if_pos ⟨length, room⟩

/-- The terminating zero of a string of the largest size lies outside the buffer. -/
lemma readString_overruns (h : Clamps s right) : readString true raw largest s = none := by
  obtain ⟨s', e, -⟩ := read_clamps largest.toNat h largest.toNat_lt
  simp only [readString, e, Option.bind_eq_bind, Option.bind_some]
  exact if_neg fun inside => absurd (toNat_lt_succ_iff.mp inside.2) (fun ne => ne rfl)

/-- A size that is not the largest, and its string. -/
lemma sized_clamps (raw : Nat → UInt8) (h : Clamps s right) (fits : sizeField old right ≠ largest) :
    ∃ s1 str s2, readUInt32 true old s = some (sizeField old right, s1) ∧
      readString true raw (sizeField old right) s1 = some (str, s2) ∧ Clamps s2 (behind old right) := by
  obtain ⟨s1, e1, h1⟩ := readUInt32_clamps old h
  obtain ⟨str, s2, e2, h2⟩ := readString_clamps raw h1 fits
  rw [List.drop_drop] at h2
  exact ⟨s1, str, s2, e1, e2, h2⟩

/-- A string of the largest size overruns the memory. -/
lemma sized_overruns (raw : Nat → UInt8) (h : Clamps s right) (long : sizeField old right = largest) :
    ∃ s1, readUInt32 true old s = some (sizeField old right, s1) ∧
      readString true raw (sizeField old right) s1 = none := by
  obtain ⟨s1, e1, h1⟩ := readUInt32_clamps old h
  exact ⟨s1, e1, long ▸ readString_overruns h1⟩

/-! ## The loop -/

section Loop
variable {acc : Nat × UInt32 × KeyValueMap}

/-- A pair is read from what is left, if no size is the largest. -/
lemma fromStreamBody_clamps (h : Clamps s right) (key : sizeField acc.2.1 right ≠ largest)
    (value : sizeField (sizeField acc.2.1 right) (behind acc.2.1 right) ≠ largest) :
    ∃ acc' s', fromStreamBody true heap acc s = some (acc', s') ∧
      acc'.2.1 = sizeField (sizeField acc.2.1 right) (behind acc.2.1 right) ∧
      Clamps s' (behind (sizeField acc.2.1 right) (behind acc.2.1 right)) := by
  obtain ⟨i, old, map⟩ := acc
  obtain ⟨s1, key', s2, e1, e2, h2⟩ := sized_clamps (heap (2 * i)) h key
  obtain ⟨s3, value', s4, e3, e4, h4⟩ := sized_clamps (heap (2 * i + 1)) h2 value
  refine ⟨(i + 1, sizeField (sizeField old right) (behind old right), map.insertIfNew key' value'), s4,
    ?_, rfl, h4⟩
  simp only [fromStreamBody, e1, e2, e3, e4, Option.bind_eq_bind, Option.bind_some]

/-- A pair with the largest size overruns the memory. -/
lemma fromStreamBody_overruns (h : Clamps s right)
    (long : sizeField acc.2.1 right = largest ∨
      sizeField (sizeField acc.2.1 right) (behind acc.2.1 right) = largest) :
    fromStreamBody true heap acc s = none := by
  obtain ⟨i, old, map⟩ := acc
  by_cases key : sizeField old right = largest
  · obtain ⟨s1, e1, e2⟩ := sized_overruns (heap (2 * i)) h key
    simp only [fromStreamBody, e1, e2, Option.bind_eq_bind, Option.bind_some, Option.bind_none]
  · obtain ⟨s1, key', s2, e1, e2, h2⟩ := sized_clamps (heap (2 * i)) h key
    obtain ⟨s3, e3, e4⟩ := sized_overruns (heap (2 * i + 1)) h2 (long.resolve_left key)
    simp only [fromStreamBody, e1, e2, e3, e4, Option.bind_eq_bind, Option.bind_some,
      Option.bind_none]

/-- The loop ends unless it comes upon the largest size. -/
lemma times_clamps (heap : Nat → Nat → UInt8) (n : Nat) (acc : Nat × UInt32 × KeyValueMap)
    (h : Clamps s right) :
    (Tape.times (fromStreamBody true heap) n acc s).isSome ↔
      ∀ size ∈ stringSizes (2 * n) acc.2.1 right, size ≠ largest := by
  induction n generalizing acc s right with
  | zero => exact ⟨fun _ => nofun, fun _ => rfl⟩
  | succ n ih =>
    show ((fromStreamBody true heap acc s).bind fun r => Tape.times _ n r.1 r.2).isSome ↔
      ∀ size ∈ sizeField acc.2.1 right :: sizeField (sizeField acc.2.1 right) (behind acc.2.1 right) ::
        stringSizes (2 * n) _ _, size ≠ largest
    rw [List.forall_mem_cons, List.forall_mem_cons]
    by_cases fits : sizeField acc.2.1 right ≠ largest ∧
        sizeField (sizeField acc.2.1 right) (behind acc.2.1 right) ≠ largest
    · obtain ⟨acc', s', e, size, h'⟩ := fromStreamBody_clamps h fits.1 fits.2
      rw [e, Option.bind_some, ih acc' h', size]
      exact ⟨fun rest => ⟨fits.1, fits.2, rest⟩, fun all => all.2.2⟩
    · have long : sizeField acc.2.1 right = largest ∨
          sizeField (sizeField acc.2.1 right) (behind acc.2.1 right) = largest := by
        simpa only [not_and_or, not_not, ne_eq] using fits
      rw [fromStreamBody_overruns h long, Option.bind_none]
      exact ⟨fun none => (Bool.false_ne_true none).elim, fun all => absurd ⟨all.1, all.2.1⟩ fits⟩

end Loop

/-- `FromStream` gets to its end, where it returns true. -/
lemma fromStream_clamps (heap : Nat → Nat → UInt8) (msg : KeyValuePairMessage) (h : Clamps s right) :
    (∃ msg' s', fromStream true heap msg s = some ((true, msg'), s')) ↔
      ∀ size ∈ sizesOf right, size ≠ largest := by
  obtain ⟨s1, e1, h1⟩ := readUInt32_clamps 0 h
  have loop := times_clamps heap (sizeField 0 right).toNat (0, 0, msg.m_KeyValuePair) h1
  rw [sizesOf, ← loop, Option.isSome_iff_exists]
  simp only [fromStream, e1, Option.bind_eq_bind, Option.bind_some]
  constructor
  · rintro ⟨msg', s', e⟩
    obtain ⟨r, e2, -⟩ := Option.bind_eq_some_iff.mp e
    exact ⟨r, e2⟩
  · rintro ⟨r, e2⟩
    exact ⟨⟨r.1.2.2⟩, r.2, by rw [e2]; rfl⟩

/-- No other value is returned. -/
lemma fromStream_returns {ndebug : Bool} {msg : KeyValuePairMessage}
    {r : (Bool × KeyValuePairMessage) × MemoryDataStream}
    (e : fromStream ndebug heap msg s = some r) : r.1.1 = true := by
  obtain ⟨r1, -, e⟩ := Option.bind_eq_some_iff.mp e
  obtain ⟨r2, -, e⟩ := Option.bind_eq_some_iff.mp e
  cases e
  rfl

/-- Each round inserts a pair. -/
lemma fromStreamBody_inserts {ndebug : Bool} {acc acc' : Nat × UInt32 × KeyValueMap}
    {s' : MemoryDataStream} (e : fromStreamBody ndebug heap acc s = some (acc', s')) :
    acc'.2.2 ≠ ∅ := by
  obtain ⟨r1, -, e⟩ := Option.bind_eq_some_iff.mp e
  obtain ⟨r2, -, e⟩ := Option.bind_eq_some_iff.mp e
  obtain ⟨r3, -, e⟩ := Option.bind_eq_some_iff.mp e
  obtain ⟨r4, -, e⟩ := Option.bind_eq_some_iff.mp e
  cases e
  exact Std.ExtTreeMap.insertIfNew_ne_empty

/-- Pairs that are read are in the map. -/
lemma times_inserts {ndebug : Bool} {n : Nat} {acc acc' : Nat × UInt32 × KeyValueMap}
    {s' : MemoryDataStream} (filled : acc.2.2 ≠ ∅ ∨ n ≠ 0)
    (e : Tape.times (fromStreamBody ndebug heap) n acc s = some (acc', s')) :
    acc'.2.2 ≠ ∅ := by
  induction n generalizing acc s with
  | zero =>
    cases e
    exact filled.resolve_right fun ne => ne rfl
  | succ n ih =>
    obtain ⟨⟨acc1, s1⟩, first, rest⟩ := Option.bind_eq_some_iff.mp e
    exact ih (.inl (fromStreamBody_inserts first)) rest

/-- If the pair count is not zero, there are pairs in the message afterwards. -/
lemma fromStream_fills {msg : KeyValuePairMessage}
    {r : (Bool × KeyValuePairMessage) × MemoryDataStream} (h : Clamps s right)
    (e : fromStream true heap msg s = some r) (pairs : sizeField 0 right ≠ 0) :
    r.1.2.m_KeyValuePair ≠ ∅ := by
  obtain ⟨s1, e1, -⟩ := readUInt32_clamps 0 h
  simp only [fromStream, e1, Option.bind_eq_bind, Option.bind_some] at e
  obtain ⟨⟨acc, s2⟩, loop, e⟩ := Option.bind_eq_some_iff.mp e
  cases e
  have rounds : (sizeField 0 right).toNat ≠ 0 := fun zero => pairs (UInt32.toNat_inj.mp zero)
  exact times_inserts (.inr rounds) loop

/-- On a stream of arbitrary bytes `FromStream` stores nothing outside its buffers if and only if it does
    not come upon the largest size. -/
theorem fromStream_inBuffer_iff (heap : Nat → Nat → UInt8) (msg : KeyValuePairMessage)
    (s : MemoryDataStream) (inBuffer : s.InBuffer) (noWrap : s.m_End + 2 ^ 32 ≤ 2 ^ 64) :
    (fromStream true heap msg s).isSome ↔ ∀ size ∈ sizesOf s.rest, size ≠ largest := by
  have at_ : s.At (s.content.take (s.m_Pos - s.m_Data)) s.rest := by
    have le := inBuffer.2
    rw [m_End, m_Size] at le
    refine ⟨(List.take_append_drop _ _).symm, ?_⟩
    rw [List.length_take, Nat.min_eq_left (by omega)]
    exact (Nat.add_sub_of_le inBuffer.1).symm
  rw [← fromStream_clamps heap msg ⟨⟨_, at_⟩, noWrap⟩, Option.isSome_iff_exists]
  constructor
  · rintro ⟨⟨⟨result, msg'⟩, s'⟩, e⟩
    cases fromStream_returns e
    exact ⟨msg', s', e⟩
  · rintro ⟨msg', s', e⟩
    exact ⟨_, e⟩

/-- A pair count of one, and the stream ends inside the key. -/
theorem fromStream_inBuffer_iff_short :
    (fromStream true (fun _ _ => 0) new
      (MemoryDataStream.new 16 [1, 0, 0, 0, 2, 0, 0, 0, 107] (by decide))).isSome := by
  rw [fromStream_inBuffer_iff (fun _ _ => 0) new _ ⟨by decide, by decide⟩ (by decide)]
  have sizes : sizesOf [1, 0, 0, 0, 2, 0, 0, 0, 107] = [2, 2] := rfl
  show ∀ size ∈ sizesOf [1, 0, 0, 0, 2, 0, 0, 0, 107], size ≠ largest
  rw [sizes, List.forall_mem_cons, List.forall_mem_singleton]
  exact ⟨by decide, by decide⟩

/-- The largest size in front of the first key makes `FromStream` store its zero outside the buffer. -/
theorem largest_size_overruns :
    fromStream true (fun _ _ => 0) new
      (MemoryDataStream.new 16 [1, 0, 0, 0, 255, 255, 255, 255] (by decide)) = none := by
  rfl

/-! ## Encodings that have been cut off -/

/-- `FromStream` rejects the bytes and leaves the message as it was. -/
def Rejects (heap : Nat → Nat → UInt8) (msg : KeyValuePairMessage) (s : MemoryDataStream) : Prop :=
  ∃ s', fromStream true heap msg s = some ((false, msg), s')

/-- No encoding that has been cut off is rejected. Where `FromStream` does not come upon the largest size
    it returns true, and if the pair count is not zero it has put pairs into the message. -/
theorem cut_not_rejected (heap : Nat → Nat → UInt8) (msg0 : KeyValuePairMessage) (pMem : Nat)
    (code : List UInt8) (placed : 0 < pMem ∧ pMem + code.length < 2 ^ 64) :
    ∀ msg : KeyValuePairMessage, msg.m_KeyValuePair ≠ ∅ → code <+: msg.wire → code ≠ msg.wire →
      ¬ Rejects heap msg0 (MemoryDataStream.new pMem code placed) ∧
      (pMem + code.length + 2 ^ 32 ≤ 2 ^ 64 → (∀ size ∈ sizesOf code, size ≠ largest) →
        ∃ msg' s', fromStream true heap msg0 (MemoryDataStream.new pMem code placed) =
          some ((true, msg'), s') ∧ (sizeField 0 code ≠ 0 → msg'.m_KeyValuePair ≠ ∅)) := by
  intro msg _ _ _
  refine ⟨?_, fun noWrap fits => ?_⟩
  · rintro ⟨s', e⟩
    exact Bool.false_ne_true (fromStream_returns e)
  · have clamps : Clamps (MemoryDataStream.new pMem code placed) code :=
      ⟨⟨[], at_new pMem code placed⟩, noWrap⟩
    obtain ⟨msg', s', e⟩ := (fromStream_clamps heap msg0 clamps).mpr fits
    exact ⟨msg', s', e, fun pairs => fromStream_fills clamps e pairs⟩

/-- The encoding of one pair, cut off behind the size of the key. -/
theorem cut_not_rejected_key :
    ¬ Rejects (fun _ _ => 0) new (MemoryDataStream.new 16 [1, 0, 0, 0, 1, 0, 0, 0] (by decide)) :=
  (cut_not_rejected (fun _ _ => 0) new 16 [1, 0, 0, 0, 1, 0, 0, 0] (by decide) (ofPair [107] [118])
    Std.ExtTreeMap.insert_ne_empty (by decide) (by decide)).1

/-- `FromStream` takes it for a message with an empty key and an empty value. -/
theorem cut_accepted :
    [1, 0, 0, 0, 1, 0, 0, 0] <+: (ofPair [107] [118]).wire ∧
      [1, 0, 0, 0, 1, 0, 0, 0] ≠ (ofPair [107] [118]).wire ∧
      ∃ msg' s', fromStream true (fun _ _ => 0) new
          (MemoryDataStream.new 16 [1, 0, 0, 0, 1, 0, 0, 0] (by decide)) = some ((true, msg'), s') ∧
        msg'.m_KeyValuePair.toList = [([], [])] ∧
        ¬ Rejects (fun _ _ => 0) new
          (MemoryDataStream.new 16 [1, 0, 0, 0, 1, 0, 0, 0] (by decide)) := by
  refine ⟨by decide, by decide, ofPair [] [], _, rfl, by decide, ?_⟩
  rintro ⟨s', e⟩
  exact Bool.false_ne_true (fromStream_returns e)

end KeyValuePairMessage
end XLN
