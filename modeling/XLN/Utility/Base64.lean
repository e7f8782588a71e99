import XLN.Lib.Base64
import XLN.Foundation.DataStream

/-!
# The base64 encoder

`Core/Utility/Base64.h`: the encoder goes through its input octet by octet and keeps the bits that do not
make a digit yet, so that it can go on with another chunk. In one go or in chunks, the output is what RFC
4648 says (`encode_eq`, `encodeChunk_append`), so a decoder gets the input back (`decode_iff_encode`). A state
may be used for one text after the other (`outputs_of_calls`).
-/

namespace XLN

/-- The characters of a literal. -/
def ascii (s : String) : ByteString :=
  s.toList.map fun c => c.toNat.toUInt8

namespace Base64

/-- The table in `encode_value`. -/
def encoding : ByteString :=
  ascii "ABCDEFGHIJKLMNOPQRSTUVWXYZabcdefghijklmnopqrstuvwxyz0123456789+/"

/-- `detail::encode_value`. -/
def encodeValue (value : UInt8) : UInt8 :=
  (encoding[value.toNat]?).getD 0

/-- `state`. -/
structure State where
  triplet_index : Nat
  last_encoded_value : UInt8

/-- The constructor of `state`. -/
def State.new : State :=
  { triplet_index := 0, last_encoded_value := 0 }

/-- `encode` with a state: the output for a chunk and the state after it. The three cases of the `switch`
    are the places in its loop. -/
def encodeChunk : List UInt8 → State → ByteString × State
  | [], rest => ([], if rest.triplet_index = 0 then .new else rest)
  | current_value :: input, rest =>
    match rest.triplet_index with
    | 0 =>
      let encoded_value := (current_value &&& 0xfc) >>> 2
      let (output, rest) := encodeChunk input ⟨1, (current_value &&& 0x03) <<< 4⟩
      (encodeValue encoded_value :: output, rest)
    | 1 =>
      let encoded_value := rest.last_encoded_value ||| ((current_value &&& 0xf0) >>> 4)
      let (output, rest) := encodeChunk input ⟨2, (current_value &&& 0x0f) <<< 2⟩
      (encodeValue encoded_value :: output, rest)
    | _ =>
      let encoded_value := rest.last_encoded_value ||| ((current_value &&& 0xc0) >>> 6)
      let (output, rest) := encodeChunk input ⟨0, current_value &&& 0x3f⟩
      (encodeValue encoded_value :: encodeValue (current_value &&& 0x3f) :: output, rest)

/-- `encode_rest`. -/
def encodeRest (rest : State) : ByteString :=
  if rest.triplet_index = 0 then []
  else
    encodeValue rest.last_encoded_value :: ascii "=" ++
      if rest.triplet_index < 2 then ascii "=" else []

/-- `encode`. -/
def encode (input : List UInt8) : ByteString :=
  let (output, rest) := encodeChunk input .new
  output ++ encodeRest rest

/-- The table has the digits. -/
lemma encodeValue_eq {value : UInt8} (lt : value.toNat < 64) :
    encodeValue value = Rfc4648.digit value.toNat := by
  have table : ∀ n < 64, (encoding[n]?).getD 0 = Rfc4648.digit n := by decide +kernel
  exact table value.toNat lt

/-! ## The bits of an octet -/

/-- An octet in two parts, cut after six, four or two bits. -/
lemma toNat_parts (a : UInt8) :
    ((a &&& 0xfc) >>> 2).toNat = a.toNat / 4 ∧ ((a &&& 0x03) <<< 4).toNat = 16 * (a.toNat % 4) ∧
      ((a &&& 0xf0) >>> 4).toNat = a.toNat / 16 ∧ ((a &&& 0x0f) <<< 2).toNat = 4 * (a.toNat % 16) ∧
      ((a &&& 0xc0) >>> 6).toNat = a.toNat / 64 ∧ (a &&& 0x3f).toNat = a.toNat % 64 := by
  have table : ∀ n < 256, ((UInt8.ofNat n &&& 0xfc) >>> 2).toNat = n / 4 ∧
      ((UInt8.ofNat n &&& 0x03) <<< 4).toNat = 16 * (n % 4) ∧
      ((UInt8.ofNat n &&& 0xf0) >>> 4).toNat = n / 16 ∧
      ((UInt8.ofNat n &&& 0x0f) <<< 2).toNat = 4 * (n % 16) ∧
      ((UInt8.ofNat n &&& 0xc0) >>> 6).toNat = n / 64 ∧ (UInt8.ofNat n &&& 0x3f).toNat = n % 64 := by
    decide +kernel
  have parts := table a.toNat a.toNat_lt
  rwa [UInt8.ofNat_toNat] at parts

/-- The bits that are left of one octet and the first ones of the next do not overlap. -/
lemma toNat_or {a b : UInt8} {n : Nat} (k : Nat) (left : a.toNat = 2 ^ k * n) (right : b.toNat < 2 ^ k) :
    (a ||| b).toNat = 2 ^ k * n + b.toNat := by
  rw [UInt8.toNat_or, left, ← Nat.two_pow_add_eq_or_of_lt right]

/-- The table holds the digits. -/
lemma encodeValue_of {value : UInt8} {n : Nat} (e : value.toNat = n) (lt : n < 64) :
    encodeValue value = Rfc4648.digit n := by
  rw [encodeValue_eq (e ▸ lt), e]

/-- The first digit of a group. -/
lemma first_digit (a : UInt8) :
    encodeValue ((a &&& 0xfc) >>> 2) = Rfc4648.digit (a.toNat / 4) := by
  have lt := a.toNat_lt
  exact encodeValue_of (toNat_parts a).1 (by omega)

/-- The digit of the bits that are left of `a` and the first ones of `b`. -/
lemma second_digit (a b : UInt8) :
    encodeValue ((a &&& 0x03) <<< 4 ||| (b &&& 0xf0) >>> 4) =
      Rfc4648.digit (16 * (a.toNat % 4) + b.toNat / 16) := by
  obtain ⟨-, left, -⟩ := toNat_parts a
  obtain ⟨-, -, right, -⟩ := toNat_parts b
  have lt := b.toNat_lt
  have sum := toNat_or 4 left (b := (b &&& 0xf0) >>> 4) (by omega)
  exact encodeValue_of (sum.trans (by omega)) (by omega)

/-- The third digit of a group. -/
lemma third_digit (b c : UInt8) :
    encodeValue ((b &&& 0x0f) <<< 2 ||| (c &&& 0xc0) >>> 6) =
      Rfc4648.digit (4 * (b.toNat % 16) + c.toNat / 64) := by
  obtain ⟨-, -, -, left, -⟩ := toNat_parts b
  obtain ⟨-, -, -, -, right, -⟩ := toNat_parts c
  have lt := c.toNat_lt
  have sum := toNat_or 2 left (b := (c &&& 0xc0) >>> 6) (by omega)
  exact encodeValue_of (sum.trans (by omega)) (by omega)

/-- The fourth digit of a group. -/
lemma fourth_digit (c : UInt8) : encodeValue (c &&& 0x3f) = Rfc4648.digit (c.toNat % 64) := by
  obtain ⟨-, -, -, -, -, right⟩ := toNat_parts c
  exact encodeValue_of right (by omega)

/-! ## The output -/

/-- At the start of a group nothing is left over. -/
lemma encodeChunk_zero (input : List UInt8) (value : UInt8) :
    encodeChunk input ⟨0, value⟩ = encodeChunk input .new := by
  cases input <;> rfl

/-- A whole group. -/
lemma encodeChunk_group (a b c : UInt8) (rest : List UInt8) :
    encodeChunk (a :: b :: c :: rest) .new =
      (Rfc4648.digit (a.toNat / 4) :: Rfc4648.digit (16 * (a.toNat % 4) + b.toNat / 16) ::
          Rfc4648.digit (4 * (b.toNat % 16) + c.toNat / 64) :: Rfc4648.digit (c.toNat % 64) ::
          (encodeChunk rest .new).1,
        (encodeChunk rest .new).2) := by
  have octets : encodeChunk (a :: b :: c :: rest) .new =
      (encodeValue ((a &&& 0xfc) >>> 2) :: encodeValue ((a &&& 0x03) <<< 4 ||| (b &&& 0xf0) >>> 4) ::
          encodeValue ((b &&& 0x0f) <<< 2 ||| (c &&& 0xc0) >>> 6) :: encodeValue (c &&& 0x3f) ::
          (encodeChunk rest ⟨0, c &&& 0x3f⟩).1,
        (encodeChunk rest ⟨0, c &&& 0x3f⟩).2) := rfl
  rw [octets, first_digit, second_digit, third_digit, fourth_digit, encodeChunk_zero]

/-- Input that comes in two chunks is encoded as in one. -/
theorem encodeChunk_append (first second : List UInt8) (rest : State) :
    encodeChunk (first ++ second) rest =
      ((encodeChunk first rest).1 ++ (encodeChunk second (encodeChunk first rest).2).1,
        (encodeChunk second (encodeChunk first rest).2).2) := by
  induction first generalizing rest with
  | nil =>
    obtain ⟨triplet_index, value⟩ := rest
    cases triplet_index with
    | zero => exact encodeChunk_zero second value
    | succ => rfl
  | cons current_value first ih =>
    obtain ⟨triplet_index, value⟩ := rest
    match triplet_index with
    | 0 | 1 | _ + 2 =>
      rw [List.cons_append, encodeChunk, encodeChunk]
      simp only [ih]
      rfl

/-- The encoder follows RFC 4648. -/
theorem encode_eq (input : List UInt8) : encode input = Rfc4648.base64 input := by
  induction input using Rfc4648.base64.induct with
  | case1 => rfl
  | case2 a =>
    have octets : encode [a] =
        [encodeValue ((a &&& 0xfc) >>> 2), encodeValue ((a &&& 0x03) <<< 4), 61, 61] := rfl
    obtain ⟨-, left, -⟩ := toNat_parts a
    rw [octets, first_digit, encodeValue_of left (by omega), Rfc4648.base64]
    have first : a.toNat * 2 ^ 4 / 64 = a.toNat / 4 := by omega
    have second : a.toNat * 2 ^ 4 % 64 = 16 * (a.toNat % 4) := by omega
    rw [first, second]
    rfl
  | case3 a b =>
    have octets : encode [a, b] =
        [encodeValue ((a &&& 0xfc) >>> 2), encodeValue ((a &&& 0x03) <<< 4 ||| (b &&& 0xf0) >>> 4),
          encodeValue ((b &&& 0x0f) <<< 2), 61] := rfl
    obtain ⟨-, -, -, left, -⟩ := toNat_parts b
    rw [octets, first_digit, second_digit, encodeValue_of left (by omega), Rfc4648.base64]
    have lt := b.toNat_lt
    have first : (a.toNat * 256 + b.toNat) * 2 ^ 2 / 64 ^ 2 = a.toNat / 4 := by omega
    have second : (a.toNat * 256 + b.toNat) * 2 ^ 2 / 64 % 64 =
        16 * (a.toNat % 4) + b.toNat / 16 := by omega
    have third : (a.toNat * 256 + b.toNat) * 2 ^ 2 % 64 = 4 * (b.toNat % 16) := by omega
    rw [first, second, third]
    rfl
  | case4 a b c rest ih =>
    have group : encode (a :: b :: c :: rest) = (encodeChunk (a :: b :: c :: rest) .new).1 ++
        encodeRest (encodeChunk (a :: b :: c :: rest) .new).2 := rfl
    rw [group, encodeChunk_group, Rfc4648.base64, ← ih]
    have lt := b.toNat_lt
    have lt' := c.toNat_lt
    have first : ((a.toNat * 256 + b.toNat) * 256 + c.toNat) / 64 ^ 3 = a.toNat / 4 := by omega
    have second : ((a.toNat * 256 + b.toNat) * 256 + c.toNat) / 64 ^ 2 % 64 =
        16 * (a.toNat % 4) + b.toNat / 16 := by omega
    have third : ((a.toNat * 256 + b.toNat) * 256 + c.toNat) / 64 % 64 =
        4 * (b.toNat % 16) + c.toNat / 64 := by omega
    have fourth : ((a.toNat * 256 + b.toNat) * 256 + c.toNat) % 64 = c.toNat % 64 := by omega
    rw [first, second, third, fourth]
    rfl

/-- A decoder takes a text exactly if the encoder puts it out, and gives the input back. -/
theorem decode_iff_encode (text : ByteString) (input : List UInt8) :
    Rfc4648.decode text = some input ↔ encode input = text := by
  rw [encode_eq]
  exact Rfc4648.decode_eq_some_iff

/-- A call with an encoding state. -/
inductive Call where
  | encode (input : List UInt8)
  | encodeRest

/-- `encode` and `encode_rest` with the state that they leave: `rest.clear()` is only called if there is
    something left. -/
def call (rest : State) : Call → ByteString × State
  | .encode input => encodeChunk input rest
  | .encodeRest => (encodeRest rest, if rest.triplet_index = 0 then rest else .new)

/-- The output of some calls and the state after them. -/
def calls (l : List Call) : ByteString × State :=
  l.foldl (fun s c => let (output, rest) := call s.2 c; (s.1 ++ output, rest)) ([], .new)

/-- What some calls are to encode: the texts up to each `encode_rest`, and what came after the last one. -/
def texts (l : List Call) : List (List UInt8) × List UInt8 :=
  l.foldl (fun s c => match c with
    | .encode input => (s.1, s.2 ++ input)
    | .encodeRest => (s.1 ++ [s.2], [])) ([], [])

/-- One more call. -/
lemma calls_concat (l : List Call) (c : Call) :
    calls (l ++ [c]) = ((calls l).1 ++ (call (calls l).2 c).1, (call (calls l).2 c).2) := by
  rw [calls, List.foldl_append]
  rfl

/-- After a whole group the state is new again. -/
lemma encodeChunk_whole (input : List UInt8) (rest : State)
    (whole : (encodeChunk input rest).2.triplet_index = 0) : (encodeChunk input rest).2 = .new := by
  induction input generalizing rest with
  | nil =>
    have last : (encodeChunk [] rest).2 = if rest.triplet_index = 0 then .new else rest := rfl
    rw [last] at whole ⊢
    split at whole
    · rw [if_pos ‹_›]
    · exact absurd whole ‹_›
  | cons current_value input ih =>
    obtain ⟨triplet_index, value⟩ := rest
    match triplet_index with
    | 0 | 1 | _ + 2 => exact ih _ whole

/-- A chunk puts out a digit for every six bits. -/
lemma length_encodeChunk (input : List UInt8) :
    (encodeChunk input .new).1.length = 8 * input.length / 6 := by
  induction input using Rfc4648.base64.induct with
  | case1 => rfl
  | case2 a =>
    have octets : (encodeChunk [a] .new).1 = [encodeValue ((a &&& 0xfc) >>> 2)] := rfl
    simp [octets]
  | case3 a b =>
    have octets : (encodeChunk [a, b] .new).1 = [encodeValue ((a &&& 0xfc) >>> 2),
        encodeValue ((a &&& 0x03) <<< 4 ||| (b &&& 0xf0) >>> 4)] := rfl
    simp [octets]
  | case4 a b c rest ih =>
    rw [encodeChunk_group]
    simp only [List.length_cons, ih]
    omega

/-- What is put out before `encode_rest` are the digits that are complete. -/
lemma encodeChunk_eq_take (input : List UInt8) :
    (encodeChunk input .new).1 = (Rfc4648.base64 input).take (8 * input.length / 6) := by
  have all : (encodeChunk input .new).1 ++ encodeRest (encodeChunk input .new).2 =
      Rfc4648.base64 input := encode_eq input
  rw [← all, ← length_encodeChunk, List.take_left]

/-- In any order of calls, each text up to an `encode_rest` is encoded by itself, whatever the chunks it came
    in, and of the text that has not been ended yet the digits are put out whose six bits are there. -/
theorem outputs_of_calls (l : List Call) :
    (calls l).1 = (texts l).1.flatMap Rfc4648.base64 ++
      (Rfc4648.base64 (texts l).2).take (8 * (texts l).2.length / 6) := by
  rw [← encodeChunk_eq_take]
  have all : (calls l).1 = (texts l).1.flatMap Rfc4648.base64 ++ (encodeChunk (texts l).2 .new).1 ∧
      (calls l).2 = (encodeChunk (texts l).2 .new).2 := by
    induction l using List.reverseRecOn with
    | nil => exact ⟨rfl, rfl⟩
    | append_singleton l c ih =>
      obtain ⟨output, state⟩ := ih
      rw [calls_concat, output, state]
      cases c with
      | encode input =>
        have told : texts (l ++ [.encode input]) = ((texts l).1, (texts l).2 ++ input) := by
          rw [texts, List.foldl_append]
          rfl
        rw [told, encodeChunk_append, ← List.append_assoc]
        exact ⟨rfl, rfl⟩
      | encodeRest =>
        have told : texts (l ++ [.encodeRest]) = ((texts l).1 ++ [(texts l).2], []) := by
          rw [texts, List.foldl_append]
          rfl
        have last : Rfc4648.base64 (texts l).2 = (encodeChunk (texts l).2 .new).1 ++
            encodeRest (encodeChunk (texts l).2 .new).2 := (encode_eq _).symm
        refine ⟨?_, ?_⟩
        · rw [told, List.flatMap_append, List.flatMap_singleton, last, ← List.append_assoc]
          exact (List.append_nil _).symm
        · rw [told]
          change (if _ then _ else State.new) = State.new
          split
          · exact encodeChunk_whole _ _ ‹_›
          · rfl
  exact all.1

end Base64
end XLN
