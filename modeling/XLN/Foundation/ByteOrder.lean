import XLN.Foundation.DataStream

/-!
# Scalars in a byte order

`DataStream::operator<<` and `operator>>` pass an object to `StreamWriteByteSizeOfT` and
`StreamReadByteSizeOfT`, which are overloaded for scalars of 1, 2 and 4 bytes; anything else takes the
overload that does nothing. Scalars go through `ByteOrderWrite` and `ByteOrderRead`, byte by byte from the
last one on when the order of the stream is not that of the machine. `roundTrip_iff`: what is written is
read back exactly if no scalar of 8 bytes is among it.
-/

namespace XLN
open MemoryDataStream

/-- `DataStream::StreamByteOrder`. -/
inductive StreamByteOrder where
  | BO_BIG_ENDIAN
  | BO_LIT_ENDIAN
  | BO_FORCEDWORD
  deriving DecidableEq

/-- `XLN_ARCH_ENDIAN`, by whether `XLN_CONFIG_BIG_ENDIAN` is defined. -/
def archEndian (bigEndian : Bool) : StreamByteOrder :=
  if bigEndian then .BO_BIG_ENDIAN else .BO_LIT_ENDIAN

/-- The sizes that scalar types have. -/
inductive ScalarSize where
  | one
  | two
  | four
  | eight
  deriving DecidableEq

/-- `sizeof`. -/
def ScalarSize.sizeof : ScalarSize → Nat
  | one => 1
  | two => 2
  | four => 4
  | eight => 8

/-- A scalar as the number that its bits stand for. -/
structure Scalar where
  T : ScalarSize
  value : Nat
  fits : value < 256 ^ T.sizeof

/-- The bytes of a scalar in memory. -/
def Scalar.bytes (bigEndian : Bool) (x : Scalar) : List UInt8 :=
  if bigEndian then (Tape.leBytes x.T.sizeof x.value).reverse else Tape.leBytes x.T.sizeof x.value

/-- The number that bytes in memory stand for. -/
def valueOf (bigEndian : Bool) (bytes : List UInt8) : Nat :=
  Tape.ofLeBytes (if bigEndian then bytes.reverse else bytes)

/-- A `MemoryDataStream` with its byte orders. -/
structure DataStream where
  stream : MemoryDataStream
  m_InputByteOrder : StreamByteOrder
  m_OutputByteOrder : StreamByteOrder

namespace DataStream

section Definitions
variable (ndebug bigEndian : Bool)

/-- The loop of `ByteOrderRead`, with `i` bytes to go of the object `v`. -/
def readReversed : Nat → List UInt8 → MemoryDataStream → Option (List UInt8 × MemoryDataStream)
  | 0, v, s => some (v, s)
  | i + 1, v, s => do
    let (bytes, s) ← s.read ndebug 1
    readReversed i (overwrite v i bytes) s

/-- `DataStream::ByteOrderRead` into an object of `len` bytes that holds `v` before. -/
def byteOrderRead (v : List UInt8) (len : Nat) (d : DataStream) : Option (List UInt8 × DataStream) :=
  if d.m_InputByteOrder = archEndian bigEndian then
    (d.stream.read ndebug len).map fun r => (overwrite v 0 r.1, { d with stream := r.2 })
  else
    (readReversed ndebug len v d.stream).map fun r => (r.1, { d with stream := r.2 })

/-- `DataStream::ByteOrderWrite` of `len` bytes of the object `v`. -/
def byteOrderWrite (v : List UInt8) (len : Nat) (d : DataStream) : Option DataStream :=
  if d.m_OutputByteOrder = archEndian bigEndian then
    (d.stream.write ndebug (v.take len)).map fun stream => { d with stream }
  else
    -- from the last byte to the first
    ((v.take len).reverse.foldlM (fun (s : MemoryDataStream) byte => s.write ndebug [byte]) d.stream).map fun stream =>
      { d with stream }

/-- `operator>>`, which takes the overload of `StreamReadByteSizeOfT` for the size. -/
def readScalar (T : ScalarSize) (v : List UInt8) (d : DataStream) : Option (List UInt8 × DataStream) :=
  match T with
  | .one => byteOrderRead ndebug bigEndian v 1 d
  | .two => byteOrderRead ndebug bigEndian v 2 d
  | .four => byteOrderRead ndebug bigEndian v 4 d
  | .eight => some (v, d)

/-- `operator<<`. -/
def writeScalar (T : ScalarSize) (v : List UInt8) (d : DataStream) : Option DataStream :=
  match T with
  | .one => byteOrderWrite ndebug bigEndian v 1 d
  | .two => byteOrderWrite ndebug bigEndian v 2 d
  | .four => byteOrderWrite ndebug bigEndian v 4 d
  | .eight => some d

/-- Writes scalars, each after `SetOutputByteOrder`. -/
def writeAll (items : List (Scalar × StreamByteOrder)) (d : DataStream) : Option DataStream :=
  items.foldlM
    (fun d item =>
      writeScalar ndebug bigEndian item.1.T (item.1.bytes bigEndian) { d with m_OutputByteOrder := item.2 }) d

/-- Reads scalars, each after `SetInputByteOrder`, into variables that hold `before`; gives their values. -/
def readAll : List (ScalarSize × StreamByteOrder) → List (Nat → UInt8) → DataStream →
    Option (List Nat × DataStream)
  | (T, order) :: types, before :: vars, d => do
    let (v, d) ← readScalar ndebug bigEndian T ((List.range T.sizeof).map before)
      { d with m_InputByteOrder := order }
    let (values, d) ← readAll types vars d
    return (valueOf bigEndian v :: values, d)
  | _, _, d => some ([], d)

end Definitions
variable {ndebug bigEndian : Bool} {order : StreamByteOrder} {v left right : List UInt8}

/-- The cursor of the stream. -/
def At (d : DataStream) (left right : List UInt8) : Prop :=
  d.stream.At left right

/-- The bytes of an object in the order in which they are written. -/
def ordered (bigEndian : Bool) (order : StreamByteOrder) (v : List UInt8) : List UInt8 :=
  if order = archEndian bigEndian then v else v.reverse

/-- `ByteOrderWrite` with room for the object. -/
lemma byteOrderWrite_writes (ndebug bigEndian : Bool) (v : List UInt8) (order : StreamByteOrder) :
    Tape.Writes At
      (fun d => byteOrderWrite ndebug bigEndian v v.length { d with m_OutputByteOrder := order })
      (ordered bigEndian order v) := by
  intro d left right h room
  simp only [byteOrderWrite, List.take_length]
  unfold ordered at room ⊢
  split
  next native =>
    rw [if_pos native] at room
    obtain ⟨s', e, after⟩ := write_writes ndebug v h room
    exact ⟨{ d with stream := s', m_OutputByteOrder := order }, congrArg (Option.map _) e, after⟩
  next reversed =>
    rw [if_neg reversed] at room
    have loop : Tape.Writes MemoryDataStream.At
        (fun s => v.reverse.foldlM (fun (s : MemoryDataStream) byte => s.write ndebug [byte]) s)
        (v.reverse.flatMap fun byte => [byte]) :=
      Tape.Writes.foldlM fun byte _ => write_writes ndebug [byte]
    rw [List.flatMap_singleton'] at loop
    obtain ⟨s', e, after⟩ := loop h room
    exact ⟨{ d with stream := s', m_OutputByteOrder := order }, congrArg (Option.map _) e, after⟩

/-- The loop of `ByteOrderRead` puts the bytes in place from the last one to the first. -/
lemma readReversed_reads (ndebug : Bool) {code : List UInt8} (fits : code.length ≤ v.length) :
    Tape.Reads MemoryDataStream.At (readReversed ndebug code.length v) code
      (code.reverse ++ v.drop code.length) := by
  induction code generalizing v with
  | nil => exact Tape.Reads.pure
  | cons byte code ih =>
    rw [List.length_cons] at fits
    have length : (v.take code.length).length = code.length := List.length_take_of_le (by omega)
    have put : overwrite v code.length [byte] =
        v.take code.length ++ byte :: v.drop (code.length + 1) := by
      have room : [byte].length ≤ (v.drop code.length).length := by
        rw [List.length_drop, List.length_singleton]
        omega
      have overwritten := @overwrite_append (v.take code.length) _ _ room
      rwa [List.take_append_drop, length, List.drop_drop, List.append_assoc] at overwritten
    have done : (overwrite v code.length [byte]).drop code.length = byte :: v.drop (code.length + 1) := by
      rw [put, List.drop_left' length]
    have rest := ih (v := overwrite v code.length [byte]) (by rw [overwrite_length]; omega)
    rw [done] at rest
    intro s left right h
    obtain ⟨s1, e1, after1⟩ := @read_reads ndebug [byte] s left (code ++ right) h
    obtain ⟨s2, e2, after2⟩ := rest after1
    refine ⟨s2, ?_, by rwa [List.append_assoc] at after2⟩
    rw [List.reverse_cons, List.append_assoc]
    exact (congrArg (Option.bind · _) e1).trans e2

/-- `ByteOrderRead` of an object that is there. -/
lemma byteOrderRead_reads (ndebug bigEndian : Bool) {v before : List UInt8}
    (same : before.length = v.length) (order : StreamByteOrder) :
    Tape.Reads At
      (fun d => byteOrderRead ndebug bigEndian before v.length { d with m_InputByteOrder := order })
      (ordered bigEndian order v) v := by
  intro d left right h
  simp only [byteOrderRead]
  unfold ordered at h ⊢
  split
  next native =>
    rw [if_pos native] at h
    obtain ⟨s', e, after⟩ := read_reads ndebug v h
    refine ⟨{ d with stream := s', m_InputByteOrder := order }, ?_, after⟩
    refine (congrArg (Option.map _) e).trans ?_
    rw [Option.map_some, overwrite_all same.symm]
  next reversed =>
    rw [if_neg reversed] at h
    have fits : v.reverse.length ≤ before.length := by rw [List.length_reverse, same]
    have loop := readReversed_reads ndebug fits
    rw [List.length_reverse, List.reverse_reverse, ← same, List.drop_length, List.append_nil, same] at loop
    obtain ⟨s', e, after⟩ := loop h
    exact ⟨{ d with stream := s', m_InputByteOrder := order }, congrArg (Option.map _) e, after⟩

/-! ## Sequences of scalars -/

/-- A sequence of scalars, each with the order under which it is written and read. -/
abbrev Items := List (Scalar × StreamByteOrder)

/-- The bytes that it takes. -/
def size (items : Items) : Nat :=
  (items.map fun item => item.1.T.sizeof).sum

/-- Reading the same types under the same orders. -/
def types (items : Items) : List (ScalarSize × StreamByteOrder) :=
  items.map fun item => (item.1.T, item.2)

def values (items : Items) : List Nat :=
  items.map fun item => item.1.value

/-- The bytes of every scalar that was written under `BO_BIG_ENDIAN` are in their place, the most significant
    one first. -/
def BigEndianStored (items : Items) (content : List UInt8) : Prop :=
  ∀ front x back, items = front ++ (x, .BO_BIG_ENDIAN) :: back →
    (content.drop (size front)).take x.T.sizeof = (Tape.leBytes x.T.sizeof x.value).reverse

/-- No scalar of 8 bytes is among them. -/
def NoneEight (items : Items) : Prop :=
  ∀ item ∈ items, item.1.T ≠ .eight

/-- How a scalar stands in the stream. -/
def code (bigEndian : Bool) (item : Scalar × StreamByteOrder) : List UInt8 :=
  ordered bigEndian item.2 (item.1.bytes bigEndian)

variable {items : Items} {item : Scalar × StreamByteOrder} {T : ScalarSize} {d d' : DataStream}

/-- A scalar has as many bytes as its type. -/
@[simp] lemma bytes_length (x : Scalar) : (x.bytes bigEndian).length = x.T.sizeof := by
  unfold Scalar.bytes
  split <;> simp

/-- The code of a scalar is as long as its type. -/
@[simp] lemma code_length (item : Scalar × StreamByteOrder) :
    (code bigEndian item).length = item.1.T.sizeof := by
  unfold code ordered
  split <;> simp

/-- The codes are as long as the types together. -/
lemma codes_length (items : Items) : (items.flatMap (code bigEndian)).length = size items := by
  simp [List.length_flatMap, size]

/-- The bytes give the value back. -/
lemma valueOf_bytes (x : Scalar) : valueOf bigEndian (x.bytes bigEndian) = x.value := by
  unfold valueOf Scalar.bytes
  split
  · rw [List.reverse_reverse, Tape.ofLeBytes_leBytes x.fits]
  · exact Tape.ofLeBytes_leBytes x.fits

/-- In big-endian order the bytes are turned round. -/
lemma code_bigEndian (x : Scalar) :
    code bigEndian (x, .BO_BIG_ENDIAN) = (Tape.leBytes x.T.sizeof x.value).reverse := by
  cases bigEndian with
  | false => rfl
  | true => rfl

/-- The overloads for the smaller sizes. -/
lemma writeScalar_eq (small : T ≠ .eight) (v : List UInt8) (d : DataStream) :
    writeScalar ndebug bigEndian T v d = byteOrderWrite ndebug bigEndian v T.sizeof d := by
  cases T with
  | one => rfl
  | two => rfl
  | four => rfl
  | eight => exact absurd rfl small

/-- A scalar of another size than eight is read in the order that is asked for. -/
lemma readScalar_eq (small : T ≠ .eight) (v : List UInt8) (d : DataStream) :
    readScalar ndebug bigEndian T v d = byteOrderRead ndebug bigEndian v T.sizeof d := by
  cases T with
  | one => rfl
  | two => rfl
  | four => rfl
  | eight => exact absurd rfl small

/-- Scalars are written as their codes. -/
lemma writeAll_writes (ndebug bigEndian : Bool) (small : NoneEight items) :
    Tape.Writes At (writeAll ndebug bigEndian items) (items.flatMap (code bigEndian)) := by
  refine Tape.Writes.foldlM fun item mem => ?_
  have writes := byteOrderWrite_writes ndebug bigEndian (item.1.bytes bigEndian) item.2
  rw [bytes_length] at writes
  simp only [writeScalar_eq (small item mem)]
  exact writes

/-- The first scalar is read, then the others. -/
lemma readAll_cons (item : Scalar × StreamByteOrder) (items : Items) (before : Nat → UInt8)
    (vars : List (Nat → UInt8)) (d : DataStream) :
    readAll ndebug bigEndian (types (item :: items)) (before :: vars) d =
      (readScalar ndebug bigEndian item.1.T ((List.range item.1.T.sizeof).map before)
        { d with m_InputByteOrder := item.2 }).bind fun r =>
      (readAll ndebug bigEndian (types items) vars r.2).bind fun r' =>
      some (valueOf bigEndian r.1 :: r'.1, r'.2) :=
  rfl

/-- Scalars are read from their codes. -/
lemma readAll_reads (ndebug bigEndian : Bool) (small : NoneEight items) (vars : List (Nat → UInt8))
    (length : vars.length = items.length) :
    Tape.Reads At (readAll ndebug bigEndian (types items) vars) (items.flatMap (code bigEndian))
      (values items) := by
  induction items generalizing vars with
  | nil => exact Tape.Reads.pure
  | cons item items ih =>
    obtain ⟨before, vars, rfl⟩ := List.exists_cons_of_length_eq_add_one length
    intro d left right h
    rw [List.flatMap_cons, List.append_assoc] at h
    have same : ((List.range item.1.T.sizeof).map before).length = (item.1.bytes bigEndian).length := by
      rw [bytes_length, List.length_map, List.length_range]
    obtain ⟨d1, e1, after1⟩ := byteOrderRead_reads ndebug bigEndian same item.2 h
    obtain ⟨d2, e2, after2⟩ := ih (fun x mem => small x (List.mem_cons_of_mem _ mem)) vars
      (Nat.succ.inj length) after1
    simp only [bytes_length] at e1
    refine ⟨d2, ?_, by rwa [List.flatMap_cons, ← List.append_assoc]⟩
    rw [readAll_cons, readScalar_eq (small item List.mem_cons_self), e1, Option.bind_some, e2,
      Option.bind_some, valueOf_bytes]
    rfl

/-- A scalar of 8 bytes is not read: the variable keeps what it held. -/
lemma value_of_eight {c : UInt8} (mem : item ∈ items) (eight : item.1.T = .eight)
    (e : readAll ndebug bigEndian (types items) (List.replicate items.length fun _ => c) d =
      some (values items, d')) : item.1.value = valueOf bigEndian (List.replicate 8 c) := by
  induction items generalizing d with
  | nil => cases mem
  | cons first items ih =>
    rw [List.length_cons, List.replicate_succ, readAll_cons, Option.bind_eq_some_iff] at e
    obtain ⟨⟨v, d1⟩, read, e⟩ := e
    obtain ⟨⟨rest, d2⟩, e2, e⟩ := Option.bind_eq_some_iff.mp e
    obtain ⟨both, rfl⟩ := Prod.mk.inj (Option.some.inj e)
    obtain ⟨here, rfl⟩ := List.cons.inj both
    rcases List.mem_cons.mp mem with rfl | mem
    · rw [eight] at read
      obtain ⟨rfl, -⟩ := Prod.mk.inj (Option.some.inj read)
      refine here.symm.trans ?_
      rw [List.map_const', List.length_range]
      rfl
    · exact ih mem e2

/-- Every scalar stands in its place. -/
lemma bigEndianStored {right : List UInt8} (content : List UInt8)
    (e : content = items.flatMap (code bigEndian) ++ right) : BigEndianStored items content := by
  rintro front x back rfl
  rw [e, List.flatMap_append, List.flatMap_cons, List.append_assoc, List.append_assoc,
    List.drop_left' (codes_length front)]
  exact (List.take_left' (code_length (x, .BO_BIG_ENDIAN))).trans (code_bigEndian x)

/-- Scalars written one after the other to a stream with room for them, under any orders: they are read back
    from the start with their values, whatever the variables held, and those written under `BO_BIG_ENDIAN`
    stand there with the most significant byte first, if and only if no scalar of 8 bytes is among them. -/
theorem roundTrip_iff (ndebug bigEndian : Bool) (items : Items) {d : DataStream} {right : List UInt8}
    (start : d.At [] right) (room : size items ≤ right.length) :
    (∃ d1 s, writeAll ndebug bigEndian items d = some d1 ∧ d1.stream.seek ndebug 0 = some s ∧
      (∀ vars : List (Nat → UInt8), vars.length = items.length →
        ∃ d2, readAll ndebug bigEndian (types items) vars { d1 with stream := s } =
          some (values items, d2)) ∧
      BigEndianStored items s.content) ↔ NoneEight items := by
  constructor
  · rintro ⟨d1, s, -, -, reads, -⟩ item mem eight
    have value : ∀ c : UInt8, item.1.value = valueOf bigEndian (List.replicate 8 c) := by
      intro c
      obtain ⟨d2, e⟩ := reads (List.replicate items.length fun _ => c) List.length_replicate
      exact value_of_eight mem eight e
    -- a variable of zeros and one of ones
    have same : valueOf bigEndian (List.replicate 8 0) = valueOf bigEndian (List.replicate 8 1) :=
      (value 0).symm.trans (value 1)
    cases bigEndian with
    | false => exact absurd same (by decide)
    | true => exact absurd same (by decide)
  · intro small
    obtain ⟨d1, e1, after⟩ := writeAll_writes ndebug bigEndian small start (by rwa [codes_length])
    obtain ⟨s, e, again⟩ := MemoryDataStream.At.seek_zero after ndebug
    refine ⟨d1, s, e1, e, fun vars length => ?_, bigEndianStored s.content again.1⟩
    have at_start : At { d1 with stream := s } [] (items.flatMap (code bigEndian) ++ _) := again
    obtain ⟨d2, e2, -⟩ := readAll_reads ndebug bigEndian small vars length at_start
    exact ⟨d2, e2⟩

/-- A stream of eight zero bytes. -/
def zeros (order : StreamByteOrder) : DataStream :=
  { stream := .new 16 (List.replicate 8 0) (by decide), m_InputByteOrder := order, m_OutputByteOrder := order }

/-- The statement above at a scalar of 2 bytes and one of 4. -/
theorem roundTrip_iff_two :
    let items : Items := [(⟨.two, 258, by decide⟩, .BO_BIG_ENDIAN), (⟨.four, 5, by decide⟩, .BO_LIT_ENDIAN)]
    (∃ d1 s, writeAll false false items (zeros .BO_LIT_ENDIAN) = some d1 ∧
      d1.stream.seek false 0 = some s ∧
      (∀ vars : List (Nat → UInt8), vars.length = items.length →
        ∃ d2, readAll false false (types items) vars { d1 with stream := s } = some (values items, d2)) ∧
      BigEndianStored items s.content) ↔ NoneEight items :=
  roundTrip_iff false false _ (at_new 16 (List.replicate 8 0) (by decide)) (by decide)

/-- A scalar of 8 bytes is neither written nor read. -/
theorem roundTrip_eight :
    let items : Items := [(⟨.eight, 258, by decide⟩, .BO_BIG_ENDIAN)]
    size items ≤ 8 ∧
      ∃ d1 s d2, writeAll false false items (zeros .BO_LIT_ENDIAN) = some d1 ∧
        d1.stream.seek false 0 = some s ∧ s.content = List.replicate 8 0 ∧
        readAll false false (types items) [fun _ => 0] { d1 with stream := s } = some ([0], d2) ∧
        ¬ BigEndianStored items s.content := by
  intro items
  refine ⟨by decide, _, _, _, rfl, rfl, rfl, rfl, fun stored => ?_⟩
  exact absurd (stored [] ⟨.eight, 258, by decide⟩ [] rfl) (by decide)

end DataStream
end XLN
