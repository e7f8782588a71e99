import XLN.Foundation.DataStream
import Mathlib.Tactic.Common

/-!
# Key/value messages

`Core/Foundation/Message/BaseMessage.cpp`: `KeyValuePairMessage` and its wire format, a pair count and
then every key and value with its length in front, all counts and lengths as `XCr::UInt32` in the
machine's byte order, which is little-endian. `ToStream` and `FromStream` are embedded on memory
streams; `encode` is the format itself. `FromStream` makes its strings from zero-terminated buffers
whose length it computes in 32 bits, which decides for which messages the two are inverse.
-/

namespace XLN
open MemoryDataStream

/-- `std::map<XCr::String, XCr::String>`. -/
abbrev KeyValueMap := Std.ExtTreeMap ByteString ByteString

structure KeyValuePairMessage where
  m_KeyValuePair : KeyValueMap

namespace KeyValuePairMessage

/-- `KeyValuePairMessage::KeyValuePairMessage`. -/
def new : KeyValuePairMessage := ⟨∅⟩

/-- `KeyValuePairMessage::InsertValue`. -/
def insertValue (key value : ByteString) (msg : KeyValuePairMessage) : KeyValuePairMessage :=
  ⟨msg.m_KeyValuePair.insert key value⟩

/-- The constructor that takes a key and a value. -/
def ofPair (key value : ByteString) : KeyValuePairMessage :=
  new.insertValue key value

section Stream
variable (ndebug : Bool)

/-- `stream.Read(&old, sizeof(old))` for an `XCr::UInt32`. Bytes that are not read keep their value. -/
def readUInt32 (old : UInt32) (stream : MemoryDataStream) : Option (UInt32 × MemoryDataStream) := do
  let (bytes, stream) ← stream.read ndebug 4
  let bytes := bytes ++ (Tape.leBytes 4 old.toNat).drop bytes.length
  some (UInt32.ofNat (Tape.ofLeBytes bytes), stream)

/-- The part of `FromStream` that reads `strSize` bytes through a fresh buffer of `strSize + 1` bytes and
    makes a string of it. `raw` is what the fresh buffer holds. Gives `none` when a byte is stored
    outside the buffer. -/
def readString (raw : Nat → UInt8) (strSize : UInt32) (stream : MemoryDataStream) :
    Option (ByteString × MemoryDataStream) := do
  let length := (strSize + 1).toNat
  let (bytes, stream) ← stream.read ndebug strSize.toNat
  if bytes.length ≤ length ∧ strSize.toNat < length then
    let buf := bytes ++ ((List.range strSize.toNat).map raw).drop bytes.length ++ [0]
    some (c_str buf, stream)
  else none

/-- The body of the loop of `FromStream`. The state is the number of the pair, `strSize` and the map;
    `heap k` is what the `k`-th fresh buffer holds. -/
def fromStreamBody (heap : Nat → Nat → UInt8) (acc : Nat × UInt32 × KeyValueMap)
    (stream : MemoryDataStream) : Option ((Nat × UInt32 × KeyValueMap) × MemoryDataStream) := do
  let (i, strSize, m_KeyValuePair) := acc
  let (strSize, stream) ← readUInt32 ndebug strSize stream
  let (key, stream) ← readString ndebug (heap (2 * i)) strSize stream
  let (strSize, stream) ← readUInt32 ndebug strSize stream
  let (value, stream) ← readString ndebug (heap (2 * i + 1)) strSize stream
  some ((i + 1, strSize, m_KeyValuePair.insertIfNew key value), stream)

/-- `KeyValuePairMessage::FromStream`. Gives the return value and the message afterwards. -/
def fromStream (heap : Nat → Nat → UInt8) (msg : KeyValuePairMessage) (stream : MemoryDataStream) :
    Option ((Bool × KeyValuePairMessage) × MemoryDataStream) := do
  let (mapSize, stream) ← readUInt32 ndebug 0 stream
  let (acc, stream) ←
    Tape.times (fromStreamBody ndebug heap) mapSize.toNat (0, 0, msg.m_KeyValuePair) stream
  some ((true, ⟨acc.2.2⟩), stream)

/-- `stream.Write` of the length and the bytes of a string. -/
def writeString (str : ByteString) (stream : MemoryDataStream) : Option MemoryDataStream := do
  let size := UInt32.ofNat str.length
  let stream ← stream.write ndebug (Tape.leBytes 4 size.toNat)
  stream.write ndebug (str.take size.toNat)

/-- `KeyValuePairMessage::ToStream`. -/
def toStream (msg : KeyValuePairMessage) (stream : MemoryDataStream) : Option MemoryDataStream := do
  let mapSize := UInt32.ofNat msg.m_KeyValuePair.size
  let stream ← stream.write ndebug (Tape.leBytes 4 mapSize.toNat)
  msg.m_KeyValuePair.toList.foldlM (fun stream e => do
    let stream ← writeString ndebug e.1 stream
    writeString ndebug e.2 stream) stream

end Stream

/-! ## The wire format -/

/-- A string with its length in front. -/
def encodeString (str : ByteString) : List UInt8 :=
  Tape.leBytes 4 str.length ++ str

def encodePair (e : ByteString × ByteString) : List UInt8 :=
  encodeString e.1 ++ encodeString e.2

/-- What `ToStream` writes if nothing has to be cut. -/
def encode (msg : KeyValuePairMessage) : List UInt8 :=
  Tape.leBytes 4 msg.m_KeyValuePair.size ++ msg.m_KeyValuePair.toList.flatMap encodePair

/-- A message whose pair count and string lengths fit into 32 bits. -/
structure Small (msg : KeyValuePairMessage) : Prop where
  size : msg.m_KeyValuePair.size < 2 ^ 32
  length : ∀ e ∈ msg.m_KeyValuePair.toList, e.1.length < 2 ^ 32 ∧ e.2.length < 2 ^ 32

/-- What `ToStream` writes of a string, as its length is cut to 32 bits. -/
def cut (str : ByteString) : ByteString := str.take (str.length % 2 ^ 32)

def cutPair (e : ByteString × ByteString) : ByteString × ByteString := (cut e.1, cut e.2)

/-- The pairs as `ToStream` writes them. -/
def sent (msg : KeyValuePairMessage) : List (ByteString × ByteString) :=
  msg.m_KeyValuePair.toList.map cutPair

/-- What `ToStream` writes for a message with any contents. -/
def wire (msg : KeyValuePairMessage) : List UInt8 :=
  Tape.leBytes 4 (msg.m_KeyValuePair.size % 2 ^ 32) ++ msg.sent.flatMap encodePair

/-- The buffer of this pair's strings has room for them: `strSize + 1` does not wrap. -/
def Fits (e : ByteString × ByteString) : Prop :=
  e.1.length < 2 ^ 32 - 1 ∧ e.2.length < 2 ^ 32 - 1

instance : DecidablePred Fits := fun e => by unfold Fits; infer_instance

/-- No string of the pair contains a zero byte. -/
def ZeroFree (e : ByteString × ByteString) : Prop :=
  0 ∉ e.1 ∧ 0 ∉ e.2

instance : DecidablePred ZeroFree := fun e => by unfold ZeroFree; infer_instance

variable {ndebug : Bool} {heap : Nat → Nat → UInt8} {str : ByteString} {msg : KeyValuePairMessage}
  {e : ByteString × ByteString}

/-- A C string ends at the first zero. -/
lemma c_str_append_zero (str rest : ByteString) : c_str (str ++ 0 :: rest) = c_str str := by
  induction str with
  | nil => simp [c_str]
  | cons c str ih =>
    unfold c_str at ih ⊢
    rw [List.cons_append, List.takeWhile_cons, List.takeWhile_cons, ih]

/-! ## Each function moves over its part of the format -/

/-- A count is read from its four bytes. -/
lemma readUInt32_reads (ndebug : Bool) {n : Nat} (h : n < 2 ^ 32) (old : UInt32) :
    Tape.Reads At (readUInt32 ndebug old) (Tape.leBytes 4 n) (UInt32.ofNat n) := by
  intro s left right hs
  obtain ⟨s1, e1, h1⟩ := read_reads ndebug (Tape.leBytes 4 n) hs
  simp only [Tape.length_leBytes] at e1
  have whole : (Tape.leBytes 4 old.toNat).drop (Tape.leBytes 4 n).length = [] := by simp
  have value : Tape.ofLeBytes (Tape.leBytes 4 n) = n := Tape.ofLeBytes_leBytes h
  refine ⟨s1, ?_, h1⟩
  simp only [readUInt32, e1, Option.bind_eq_bind, Option.bind_some, whole, List.append_nil, value]

/-- A count below the bound is itself. -/
lemma toNat_ofNat {n : Nat} (h : n < 2 ^ 32) : (UInt32.ofNat n).toNat = n := by
  rw [UInt32.toNat_ofNat', Nat.mod_eq_of_lt h]

/-- One more than a count is no wrap. -/
lemma toNat_succ {n : Nat} (h : n < 2 ^ 32 - 1) : (UInt32.ofNat n + 1).toNat = n + 1 := by
  rw [UInt32.toNat_add, toNat_ofNat (by omega), UInt32.toNat_one, Nat.mod_eq_of_lt (by omega)]

/-- One more than the greatest count is zero. -/
lemma toNat_succ_max : (UInt32.ofNat (2 ^ 32 - 1) + 1).toNat = 0 := by
  decide

/-- A string is read if its length leaves room for the zero. -/
lemma readString_reads (ndebug : Bool) (raw : Nat → UInt8) (h : str.length < 2 ^ 32 - 1) :
    Tape.Reads At (readString ndebug raw (UInt32.ofNat str.length)) str (c_str str) := by
  intro s left right hs
  obtain ⟨s1, e1, h1⟩ := read_reads ndebug str hs
  have size : (UInt32.ofNat str.length).toNat = str.length := toNat_ofNat (by omega)
  have raw_unused : ((List.range str.length).map raw).drop str.length = [] := by simp
  refine ⟨s1, ?_, h1⟩
  simp only [readString, size, e1, toNat_succ h, Option.bind_eq_bind, Option.bind_some, raw_unused,
    List.append_nil, c_str_append_zero]
  rw [if_pos (by omega)]

/-- At the largest length the buffer is empty, and the string overruns it. -/
lemma readString_fails (ndebug : Bool) (raw : Nat → UInt8) (h : str.length = 2 ^ 32 - 1) :
    Tape.Fails At (readString ndebug raw (UInt32.ofNat str.length)) str := by
  intro s left right hs
  obtain ⟨s1, e1, -⟩ := read_reads ndebug str hs
  have size : (UInt32.ofNat str.length).toNat = str.length := toNat_ofNat (by omega)
  simp only [readString, size, e1, Option.bind_eq_bind, Option.bind_some]
  rw [h, toNat_succ_max, if_neg (by omega)]

/-- The length is cut to 32 bits. -/
lemma length_cut (str : ByteString) : (cut str).length = str.length % 2 ^ 32 := by
  rw [cut, List.length_take, Nat.min_eq_left (Nat.mod_le _ _)]

/-- A short string is written whole. -/
lemma cut_of_lt (h : str.length < 2 ^ 32) : cut str = str := by
  rw [cut, Nat.mod_eq_of_lt h, List.take_length]

/-- A string is written with its length, cut. -/
lemma writeString_writes (ndebug : Bool) (str : ByteString) :
    Tape.Writes At (writeString ndebug str) (encodeString (cut str)) := by
  have size : (UInt32.ofNat str.length).toNat = str.length % 2 ^ 32 := UInt32.toNat_ofNat'
  have both := (write_writes ndebug (Tape.leBytes 4 (str.length % 2 ^ 32))).bind
    (write_writes ndebug (cut str))
  unfold writeString encodeString
  rw [length_cut]
  simpa only [size, cut, Option.bind_eq_bind] using both

/-- What the loop body does to its state. -/
def update (acc : Nat × UInt32 × KeyValueMap) (e : ByteString × ByteString) :
    Nat × UInt32 × KeyValueMap :=
  (acc.1 + 1, UInt32.ofNat e.2.length, acc.2.2.insertIfNew (c_str e.1) (c_str e.2))

/-- The body of the loop reads a pair that fits. -/
lemma fromStreamBody_reads (h : Fits e) (acc : Nat × UInt32 × KeyValueMap) :
    Tape.Reads At (fromStreamBody ndebug heap acc) (encodePair e) (update acc e) := by
  obtain ⟨i, strSize, map⟩ := acc
  intro s left right hs
  simp only [encodePair, encodeString, List.append_assoc] at hs ⊢
  obtain ⟨s1, e1, h1⟩ := readUInt32_reads ndebug (Nat.lt_of_lt_pred h.1) strSize hs
  obtain ⟨s2, e2, h2⟩ := readString_reads ndebug (heap (2 * i)) h.1 h1
  obtain ⟨s3, e3, h3⟩ := readUInt32_reads ndebug (Nat.lt_of_lt_pred h.2) (UInt32.ofNat e.1.length) h2
  obtain ⟨s4, e4, h4⟩ := readString_reads ndebug (heap (2 * i + 1)) h.2 h3
  refine ⟨s4, ?_, by simpa only [List.append_assoc] using h4⟩
  simp only [fromStreamBody, e1, e2, e3, e4, Option.bind_eq_bind, Option.bind_some, update]

/-- The body of the loop fails at a pair that does not fit. -/
lemma fromStreamBody_fails (small : e.1.length < 2 ^ 32 ∧ e.2.length < 2 ^ 32) (h : ¬ Fits e)
    (acc : Nat × UInt32 × KeyValueMap) :
    Tape.Fails At (fromStreamBody ndebug heap acc) (encodePair e) := by
  obtain ⟨i, strSize, map⟩ := acc
  intro s left right hs
  simp only [encodePair, encodeString, List.append_assoc] at hs
  obtain ⟨s1, e1, h1⟩ := readUInt32_reads ndebug small.1 strSize hs
  by_cases key : e.1.length < 2 ^ 32 - 1
  · -- the key is read, the value overruns its buffer
    have value : e.2.length = 2 ^ 32 - 1 := by
      unfold Fits at h
      omega
    obtain ⟨s2, e2, h2⟩ := readString_reads ndebug (heap (2 * i)) key h1
    obtain ⟨s3, e3, h3⟩ := readUInt32_reads ndebug small.2 (UInt32.ofNat e.1.length) h2
    have e4 := readString_fails ndebug (heap (2 * i + 1)) value h3
    simp only [fromStreamBody, e1, e2, e3, e4, Option.bind_eq_bind, Option.bind_some,
      Option.bind_none]
  · have e2 := readString_fails ndebug (heap (2 * i)) (by omega) h1
    simp only [fromStreamBody, e1, e2, Option.bind_eq_bind, Option.bind_some, Option.bind_none]

/-- The map that `FromStream` builds from the pairs. -/
def decode (map : KeyValueMap) (pairs : List (ByteString × ByteString)) : KeyValueMap :=
  pairs.foldl (fun m e => m.insertIfNew (c_str e.1) (c_str e.2)) map

/-- The pairs that are read are put into the map one after the other. -/
lemma foldl_update (pairs : List (ByteString × ByteString)) (acc : Nat × UInt32 × KeyValueMap) :
    (pairs.foldl update acc).2.2 = decode acc.2.2 pairs := by
  induction pairs generalizing acc with
  | nil => rfl
  | cons e pairs ih => exact ih (update acc e)

/-- `ToStream` with any contents. -/
lemma toStream_writes_wire (ndebug : Bool) (msg : KeyValuePairMessage) :
    Tape.Writes At (toStream ndebug msg) msg.wire := by
  have pairs : ∀ e ∈ msg.m_KeyValuePair.toList,
      Tape.Writes At (fun s => (writeString ndebug e.1 s).bind (writeString ndebug e.2))
        (encodePair (cutPair e)) :=
    fun e _ => (writeString_writes ndebug e.1).bind (writeString_writes ndebug e.2)
  have size : (UInt32.ofNat msg.m_KeyValuePair.size).toNat = msg.m_KeyValuePair.size % 2 ^ 32 :=
    UInt32.toNat_ofNat'
  have both := (write_writes ndebug (Tape.leBytes 4 (msg.m_KeyValuePair.size % 2 ^ 32))).bind
    (Tape.Writes.foldlM pairs)
  unfold toStream wire sent
  rw [List.flatMap_map]
  simpa only [size, Option.bind_eq_bind] using both

/-- Nothing of a small message is cut. -/
lemma wire_of_small (small : msg.Small) : msg.wire = msg.encode := by
  have whole : ∀ e ∈ msg.m_KeyValuePair.toList, cutPair e = e := by
    intro e he
    obtain ⟨key, value⟩ := small.length e he
    rw [cutPair, cut_of_lt key, cut_of_lt value]
  rw [wire, encode, sent, Nat.mod_eq_of_lt small.size, List.map_congr_left whole, List.map_id']

/-- `ToStream` writes the encoding. -/
lemma toStream_writes (ndebug : Bool) (small : msg.Small) :
    Tape.Writes At (toStream ndebug msg) msg.encode := by
  rw [← wire_of_small small]
  exact toStream_writes_wire ndebug msg

section Pairs
variable {pairs : List (ByteString × ByteString)}

/-- `FromStream` on a count and as many pairs, whose strings have room in their buffers. -/
lemma fromStream_reads_pairs (ndebug : Bool) (heap : Nat → Nat → UInt8)
    (small : pairs.length < 2 ^ 32) (fits : ∀ e ∈ pairs, Fits e) (msg0 : KeyValuePairMessage) :
    Tape.Reads At (fromStream ndebug heap msg0)
      (Tape.leBytes 4 pairs.length ++ pairs.flatMap encodePair)
      (true, ⟨decode msg0.m_KeyValuePair pairs⟩) := by
  intro s left right hs
  rw [List.append_assoc] at hs
  obtain ⟨s1, e1, h1⟩ := readUInt32_reads ndebug small 0 hs
  have loop : Tape.Reads At
      (Tape.times (fromStreamBody ndebug heap) pairs.length (0, 0, msg0.m_KeyValuePair))
      (pairs.flatMap encodePair) (pairs.foldl update (0, 0, msg0.m_KeyValuePair)) :=
    Tape.Reads.times (fun e he acc => fromStreamBody_reads (fits e he) acc) _
  obtain ⟨s2, e2, h2⟩ := loop h1
  refine ⟨s2, ?_, by rwa [← List.append_assoc]⟩
  simp only [fromStream, e1, e2, toNat_ofNat small, foldl_update, Option.bind_eq_bind,
    Option.bind_some]

/-- With a string that has no room in its buffer, `FromStream` overruns that. -/
lemma fromStream_fails_pairs (ndebug : Bool) (heap : Nat → Nat → UInt8)
    (small : pairs.length < 2 ^ 32)
    (lengths : ∀ e ∈ pairs, e.1.length < 2 ^ 32 ∧ e.2.length < 2 ^ 32)
    (long : ∃ e ∈ pairs, ¬ Fits e) (msg0 : KeyValuePairMessage) :
    Tape.Fails At (fromStream ndebug heap msg0)
      (Tape.leBytes 4 pairs.length ++ pairs.flatMap encodePair) := by
  intro s left right hs
  rw [List.append_assoc] at hs
  obtain ⟨s1, e1, h1⟩ := readUInt32_reads ndebug small 0 hs
  have loop : Tape.Fails At
      (Tape.times (fromStreamBody ndebug heap) pairs.length (0, 0, msg0.m_KeyValuePair))
      (pairs.flatMap encodePair) :=
    Tape.Fails.times (fun e _ fits acc => fromStreamBody_reads fits acc)
      (fun e he long acc => fromStreamBody_fails (lengths e he) long acc) long _
  have e2 := loop h1
  simp only [fromStream, e1, e2, toNat_ofNat small, Option.bind_eq_bind, Option.bind_some,
    Option.bind_none]

end Pairs

/-- `FromStream` reads the encoding of a message whose strings have room in their buffers. -/
lemma fromStream_reads (ndebug : Bool) (heap : Nat → Nat → UInt8) (small : msg.Small)
    (fits : ∀ e ∈ msg.m_KeyValuePair.toList, Fits e) (msg0 : KeyValuePairMessage) :
    Tape.Reads At (fromStream ndebug heap msg0) msg.encode
      (true, ⟨decode msg0.m_KeyValuePair msg.m_KeyValuePair.toList⟩) := by
  have size := msg.m_KeyValuePair.length_toList
  rw [encode, ← size]
  exact fromStream_reads_pairs ndebug heap (size ▸ small.size) fits msg0

/-- `FromStream` overruns a buffer on the encoding of any other message. -/
lemma fromStream_fails (ndebug : Bool) (heap : Nat → Nat → UInt8) (small : msg.Small)
    (long : ∃ e ∈ msg.m_KeyValuePair.toList, ¬ Fits e) (msg0 : KeyValuePairMessage) :
    Tape.Fails At (fromStream ndebug heap msg0) msg.encode := by
  have size := msg.m_KeyValuePair.length_toList
  rw [encode, ← size]
  exact fromStream_fails_pairs ndebug heap (size ▸ small.size) small.length long msg0

/-! ## Which messages come back -/

/-- Without zero bytes every pair of the list is in the map, and nothing else is new. -/
lemma getElem?_decode {pairs : List (ByteString × ByteString)} (zeroFree : ∀ e ∈ pairs, ZeroFree e)
    (distinct : pairs.Pairwise fun a b => a.1 ≠ b.1) (map : KeyValueMap)
    (fresh : ∀ e ∈ pairs, e.1 ∉ map) (key value : ByteString) :
    (decode map pairs)[key]? = some value ↔ map[key]? = some value ∨ (key, value) ∈ pairs := by
  induction pairs generalizing map with
  | nil => simp [decode]
  | cons e pairs ih =>
    obtain ⟨k, v⟩ := e
    obtain ⟨hk, hv⟩ := zeroFree (k, v) List.mem_cons_self
    have absent : k ∉ map := fresh (k, v) List.mem_cons_self
    rw [List.pairwise_cons] at distinct
    have fresh' : ∀ e ∈ pairs, e.1 ∉ map.insertIfNew k v := by
      intro e he
      rw [Std.ExtTreeMap.mem_insertIfNew, Std.LawfulEqCmp.compare_eq_iff_eq, not_or]
      exact ⟨distinct.1 e he, fresh e (List.mem_cons_of_mem _ he)⟩
    have rest := ih (fun e he => zeroFree e (List.mem_cons_of_mem _ he)) distinct.2 _ fresh'
    rw [decode, List.foldl_cons, ← decode, c_str_eq_self hk, c_str_eq_self hv, rest,
      Std.ExtTreeMap.getElem?_insertIfNew]
    simp only [Std.LawfulEqCmp.compare_eq_iff_eq, List.mem_cons, Prod.mk.injEq]
    by_cases hkey : k = key
    · subst hkey
      simp [absent, eq_comm]
    · simp [hkey, Ne.symm hkey]

/-- The strings that `FromStream` makes have no zero bytes. -/
lemma zeroFree_decode {pairs : List (ByteString × ByteString)} {map : KeyValueMap}
    {key value : ByteString} (h : (decode map pairs)[key]? = some value) :
    map[key]? = some value ∨ ZeroFree (key, value) := by
  induction pairs generalizing map with
  | nil => exact .inl h
  | cons e pairs ih =>
    rcases ih h with h | h
    · rw [Std.ExtTreeMap.getElem?_insertIfNew] at h
      split at h
      next new =>
        have hkey := Std.LawfulEqCmp.compare_eq_iff_eq.mp new.1
        cases h
        exact .inr ⟨hkey ▸ zero_not_mem_c_str e.1, zero_not_mem_c_str e.2⟩
      next => exact .inl h
    · exact .inr h

/-- The map is decoded to itself exactly if it has no zero bytes. -/
lemma decode_toList_iff (map : KeyValueMap) :
    decode ∅ map.toList = map ↔ ∀ e ∈ map.toList, ZeroFree e := by
  constructor
  · rintro same ⟨key, value⟩ he
    rw [Std.ExtTreeMap.mem_toList_iff_getElem?_eq_some, ← same] at he
    simpa using zeroFree_decode he
  · intro zeroFree
    apply Std.ExtTreeMap.ext_getElem?
    intro key
    have distinct : map.toList.Pairwise fun a b => a.1 ≠ b.1 :=
      map.distinct_keys_toList.imp fun ne e => ne (Std.LawfulEqCmp.compare_eq_iff_eq.mpr e)
    apply Option.ext
    intro value
    rw [getElem?_decode zeroFree distinct ∅ (by simp), Std.ExtTreeMap.mem_toList_iff_getElem?_eq_some]
    simp

/-- Written at the start of a stream with room and read back from there into an empty message, a message
    comes back exactly if no string of it contains a zero byte or is of the largest length. -/
theorem fromStream_toStream_iff (ndebug : Bool) (heap : Nat → Nat → UInt8)
    (msg : KeyValuePairMessage) (small : msg.Small) (pMem : Nat) (content : List UInt8)
    (placed : 0 < pMem ∧ pMem + content.length < 2 ^ 64)
    (room : msg.encode.length ≤ content.length) :
    (∃ s1 s2 s3, toStream ndebug msg (MemoryDataStream.new pMem content placed) = some s1 ∧
        s1.seek ndebug 0 = some s2 ∧ fromStream ndebug heap new s2 = some ((true, msg), s3)) ↔
      ∀ e ∈ msg.m_KeyValuePair.toList, ZeroFree e ∧ Fits e := by
  obtain ⟨s1, e1, h1⟩ := toStream_writes ndebug small (at_new pMem content placed) room
  obtain ⟨s2, e2, h2⟩ := h1.seek_zero ndebug
  rw [List.nil_append] at h2
  have h2' : s2.At [] (msg.encode ++ content.drop msg.encode.length) := h2
  constructor
  · rintro ⟨t1, t2, s3, e1', e2', e3⟩
    cases e1.symm.trans e1'
    cases e2.symm.trans e2'
    have fits : ∀ e ∈ msg.m_KeyValuePair.toList, Fits e := by
      by_contra long
      push Not at long
      rw [fromStream_fails ndebug heap small long new h2'] at e3
      cases e3
    obtain ⟨s4, e4, -⟩ := fromStream_reads ndebug heap small fits new h2'
    rw [e4] at e3
    have same : decode ∅ msg.m_KeyValuePair.toList = msg.m_KeyValuePair := by
      injection e3 with e3
      injection e3 with e3 _
      injection e3 with _ e3
      exact congrArg m_KeyValuePair e3
    exact fun e he => ⟨(decode_toList_iff _).mp same e he, fits e he⟩
  · intro good
    have same := (decode_toList_iff msg.m_KeyValuePair).mpr fun e he => (good e he).1
    obtain ⟨s3, e3, -⟩ := fromStream_reads ndebug heap small (fun e he => (good e he).2) new h2'
    refine ⟨s1, s2, s3, e1, e2, ?_⟩
    rw [e3]
    change some ((true, (⟨decode ∅ msg.m_KeyValuePair.toList⟩ : KeyValuePairMessage)), s3) = _
    rw [same]

/-- The statement above at a message of one pair. -/
theorem fromStream_toStream_iff_one :
    (∃ s1 s2 s3,
        toStream false (ofPair [107] [118])
            (MemoryDataStream.new 16 (List.replicate 16 0) (by decide)) = some s1 ∧
          s1.seek false 0 = some s2 ∧
            fromStream false (fun _ _ => 0) new s2 =
              some ((true, ofPair [107] [118]), s3)) ↔
      ∀ e ∈ (ofPair [107] [118]).m_KeyValuePair.toList, ZeroFree e ∧ Fits e :=
  fromStream_toStream_iff false (fun _ _ => 0) (ofPair [107] [118])
    ⟨by decide, by decide⟩ 16 (List.replicate 16 0) (by decide) (by decide)

/-- The value `a\0b` comes back as `a`. -/
theorem value_cut_at_zero :
    ∃ s1 s2 s3 msg,
      toStream false (ofPair [107] [97, 0, 98])
          (MemoryDataStream.new 16 (List.replicate 16 0) (by decide)) = some s1 ∧
        s1.seek false 0 = some s2 ∧
          fromStream false (fun _ _ => 0) new s2 = some ((true, msg), s3) ∧
            msg ≠ ofPair [107] [97, 0, 98] := by
  refine ⟨_, _, _, ofPair [107] [97], rfl, rfl, rfl, ?_⟩
  intro h
  have values := congrArg (fun m : KeyValuePairMessage => m.m_KeyValuePair.toList.map Prod.snd) h
  exact absurd values (by decide)

end KeyValuePairMessage
end XLN
