import XLN.Lib.Hex
import XLN.Foundation.DataStream
import XLN.Utility.UniqueID

/-!
# Setting an identifier from text

`Core/Utility/UniqueID.cpp`: `SetUID` takes two characters for each byte and reverses the first three fields.
It compares the length as an `UInt32` and goes on at characters that are no digits. `setUID_iff`: it does
what it should for exactly those strings that get past the comparison only with 32 digits.
-/

namespace XLN
open Hex

namespace UniqueID

/-- `isdigit`. -/
def isdigit (ch : UInt8) : Bool :=
  48 ≤ ch && ch ≤ 57

/-- `dig1` or `dig2` for its character; `dig` is what the variable holds before. -/
def readDigit (ch : UInt8) (dig : UInt32) : UInt32 :=
  if isdigit ch then ch.toUInt32 - 48
  else if 65 ≤ ch ∧ ch ≤ 70 then ch.toUInt32 - 65 + 10
  else if 97 ≤ ch ∧ ch ≤ 102 then ch.toUInt32 - 97 + 10
  else dig

/-- The byte of round `i`. In a round `dig2` is 0 at first, `dig1` is not initialised. -/
def readByte (dig1 : Nat → UInt32) (str : ByteString) (i : Nat) : UInt8 :=
  (readDigit (str.getD (2 * i) 0) (dig1 i) * 16 + readDigit (str.getD (2 * i + 1) 0) 0).toUInt8

/-- `temp = data[i]; data[i] = data[j]; data[j] = temp`. -/
def swap (i j : Nat) (data : List UInt8) : List UInt8 :=
  (data.set i (data.getD j 0)).set j (data.getD i 0)

/-- Two bytes change places. -/
@[simp] lemma length_swap (i j : Nat) (data : List UInt8) : (swap i j data).length = data.length := by
  simp [swap]

/-- `UniqueID::SetUID` on the string that starts at `str`, with what the memory of `dig1` holds in each
    round. -/
def setUID (dig1 : Nat → UInt32) (str : ByteString) (id : UniqueID) : UniqueID :=
  if UInt32.ofNat (c_str str).length ≠ 32 then id
  else
    { data := swap 6 7 (swap 4 5 (swap 1 2 (swap 0 3 ((List.range 16).map (readByte dig1 str)))))
      size := by simp }

/-- The string consists of exactly 32 hexadecimal digits. -/
def IsUID (str : ByteString) : Prop :=
  (c_str str).length = 32 ∧ ∀ c ∈ c_str str, (value c).isSome

/-- The bytes 0 to 3, 4 to 5 and 6 to 7 are reversed within their fields. -/
def fields (bytes : List UInt8) : List UInt8 :=
  (bytes.take 4).reverse ++ ((bytes.drop 4).take 2).reverse ++ ((bytes.drop 6).take 2).reverse ++
    bytes.drop 8

/-- `SetUID` leaves every id unchanged unless the string is one of 32 digits, for which it sets the bytes
    that are decoded; and two such strings give the same id exactly if they are equal ignoring case. -/
structure Sets (str : ByteString) : Prop where
  unchanged : ¬ IsUID str → ∀ dig1 id, setUID dig1 str id = id
  decoded : IsUID str → ∀ dig1 id, ∃ bytes, decode (c_str str) = some bytes ∧
    (setUID dig1 str id).data = fields bytes
  same_iff : ∀ str', IsUID str → IsUID str' → ∀ dig1 dig1' id id',
    setUID dig1 str id = setUID dig1' str' id' ↔ (c_str str).map lower = (c_str str').map lower

variable {str str' : ByteString} {dig1 : Nat → UInt32} {id : UniqueID} {ch : UInt8} {n : Nat}

/-! ## The bytes -/

/-- A decimal digit lies between `0` and `9`. -/
lemma isdigit_iff : isdigit ch = true ↔ 48 ≤ ch ∧ ch ≤ 57 := by
  rw [isdigit, Bool.and_eq_true, decide_eq_true_iff, decide_eq_true_iff]

/-- What the variable holds does not matter for a digit. -/
lemma readDigit_congr (e : value ch = some n) (dig : UInt32) : readDigit ch dig = readDigit ch 0 := by
  unfold value at e
  simp only [readDigit, isdigit_iff]
  split_ifs at e ⊢ <;> rfl

/-- A hexadecimal digit is read as its value. -/
lemma readDigit_of_value (e : value ch = some n) (dig : UInt32) : readDigit ch dig = UInt32.ofNat n := by
  have table : ∀ k < 256, (value (UInt8.ofNat k)).all (fun n =>
      readDigit (UInt8.ofNat k) 0 = UInt32.ofNat n) = true := by decide +kernel
  have at_ch := table ch.toNat ch.toNat_lt
  rw [UInt8.ofNat_toNat, e, Option.all_some, decide_eq_true_iff] at at_ch
  rw [readDigit_congr e, at_ch]

/-- Two digits are read as a byte. -/
lemma readByte_eq {i high low : Nat} (e1 : str[2 * i]?.bind value = some high)
    (e2 : str[2 * i + 1]?.bind value = some low) : readByte dig1 str i = byte high low := by
  have table : ∀ high < 16, ∀ low < 16,
      (UInt32.ofNat high * 16 + UInt32.ofNat low).toUInt8 = byte high low := by decide +kernel
  obtain ⟨ch1, at1, value1⟩ := Option.bind_eq_some_iff.mp e1
  obtain ⟨ch2, at2, value2⟩ := Option.bind_eq_some_iff.mp e2
  rw [readByte, List.getD_eq_getElem?_getD, List.getD_eq_getElem?_getD, at1, at2, Option.getD_some,
    Option.getD_some, readDigit_of_value value1, readDigit_of_value value2]
  exact table high (value_cases value1).1 low (value_cases value2).1

/-- The characters of the string, and zeros at worst, are read. -/
lemma getElem?_c_str {k : Nat} (lt : k < (c_str str).length) : str[k]? = (c_str str)[k]? := by
  have initial : c_str str <+: str := List.takeWhile_prefix _
  rw [List.getElem?_eq_getElem lt, initial.getElem lt]
  exact List.getElem?_eq_getElem (lt.trans_le initial.length_le)

/-- With digits only, the sixteen rounds decode the string. -/
lemma rounds_eq {bytes : List UInt8} (length : (c_str str).length = 32)
    (e : decode (c_str str) = some bytes) : (List.range 16).map (readByte dig1 str) = bytes := by
  have count : bytes.length = 16 := by
    have double := decode_length e
    omega
  refine List.ext_getElem? fun i => ?_
  by_cases lt : i < 16
  · obtain ⟨high, low, e1, e2, at_i⟩ := decode_getElem? e i (by omega)
    rw [← getElem?_c_str (by omega)] at e1 e2
    rw [List.getElem?_map, List.getElem?_range lt, at_i, Option.map_some, readByte_eq e1 e2]
  · rw [List.getElem?_eq_none (by simpa using lt), List.getElem?_eq_none (by omega)]

/-- The swaps reverse the fields. -/
lemma swaps_eq {bytes : List UInt8} (count : bytes.length = 16) :
    swap 6 7 (swap 4 5 (swap 1 2 (swap 0 3 bytes))) = fields bytes := by
  match bytes, count with
  | [_, _, _, _, _, _, _, _, _, _, _, _, _, _, _, _], _ => rfl

/-- The fields tell the bytes. -/
lemma fields_inj {bytes bytes' : List UInt8} (count : bytes.length = 16) (count' : bytes'.length = 16) :
    fields bytes = fields bytes' ↔ bytes = bytes' := by
  match bytes, bytes', count, count' with
  | [_, _, _, _, _, _, _, _, _, _, _, _, _, _, _, _], [_, _, _, _, _, _, _, _, _, _, _, _, _, _, _, _], _, _ =>
    simp only [fields, List.take, List.drop, List.reverse_cons, List.reverse_nil, List.nil_append,
      List.cons_append, List.cons.injEq, and_true]
    tauto

/-! ## The id -/

/-- A text of 32 digits sets all bytes. -/
lemma setUID_of_length (length : UInt32.ofNat (c_str str).length = 32) (dig1 : Nat → UInt32)
    (id : UniqueID) : (setUID dig1 str id).data =
      swap 6 7 (swap 4 5 (swap 1 2 (swap 0 3 ((List.range 16).map (readByte dig1 str))))) := by
  rw [setUID, if_neg (not_not.mpr length)]

/-- A string of 32 digits sets the id. -/
lemma setUID_of_isUID (uid : IsUID str) (dig1 : Nat → UInt32) (id : UniqueID) :
    ∃ bytes, bytes.length = 16 ∧ decode (c_str str) = some bytes ∧
      (setUID dig1 str id).data = fields bytes := by
  obtain ⟨length, digits⟩ := uid
  obtain ⟨bytes, e⟩ := exists_decode digits (by rw [length])
  have count : bytes.length = 16 := by
    have double := decode_length e
    omega
  refine ⟨bytes, count, e, ?_⟩
  rw [setUID_of_length (by rw [length]; rfl), rounds_eq length e, swaps_eq count]

/-- Two texts give one id if they differ in case only. -/
lemma setUID_eq_iff (uid : IsUID str) (uid' : IsUID str') (dig1 dig1' : Nat → UInt32) (id id' : UniqueID) :
    setUID dig1 str id = setUID dig1' str' id' ↔ (c_str str).map lower = (c_str str').map lower := by
  obtain ⟨bytes, count, e, data⟩ := setUID_of_isUID uid dig1 id
  obtain ⟨bytes', count', e', data'⟩ := setUID_of_isUID uid' dig1' id'
  rw [← decode_eq_iff e e', ← fields_inj count count', ← data, ← data']
  exact ⟨congrArg UniqueID.data, eq_of_data⟩

/-- `SetUID` does what it should with a string if and only if the string, should its length be 32 modulo
    `2 ^ 32`, consists of exactly 32 hexadecimal digits. -/
theorem setUID_iff (str : ByteString) :
    Sets str ↔ (UInt32.ofNat (c_str str).length = 32 → IsUID str) := by
  constructor
  · intro sets length
    by_contra invalid
    -- the same bytes are put into every id
    have nil := sets.unchanged invalid (fun _ => 0) new
    have ones := sets.unchanged invalid (fun _ => 0) ⟨List.replicate 16 1, rfl⟩
    have same : (setUID (fun _ => 0) str new).data =
        (setUID (fun _ => 0) str ⟨List.replicate 16 1, rfl⟩).data := by
      rw [setUID_of_length length, setUID_of_length length]
    rw [nil, ones] at same
    exact absurd same (by decide)
  · intro valid
    refine ⟨fun invalid dig1 id => ?_, fun uid dig1 id => ?_, fun str' uid uid' => setUID_eq_iff uid uid'⟩
    · exact if_pos fun length => invalid (valid length)
    · obtain ⟨bytes, -, e, data⟩ := setUID_of_isUID uid dig1 id
      exact ⟨bytes, e, data⟩

/-- A string of 32 characters whose first one is no digit changes the nil id, whatever the memory of `dig1`
    holds. -/
theorem setUID_no_digit :
    let str : ByteString := 103 :: List.replicate 31 49
    ¬ IsUID str ∧ (∀ dig1, setUID dig1 str new ≠ new) ∧ ¬ Sets str := by
  intro str
  have invalid : ¬ IsUID str := fun uid => absurd (uid.2 103 (by decide)) (by decide)
  have changed : ∀ dig1, setUID dig1 str new ≠ new := by
    intro dig1 same
    have data := congrArg UniqueID.data same
    rw [setUID_of_length (by decide)] at data
    -- the last byte comes from two digits
    have last : readByte dig1 (103 :: List.replicate 31 49) 15 = 0 :=
      congrArg (fun l => l.getD 15 0) data
    have ones : readByte dig1 (103 :: List.replicate 31 49) 15 = byte 1 1 := readByte_eq rfl rfl
    rw [last] at ones
    exact absurd ones (by decide)
  exact ⟨invalid, changed, fun sets => changed (fun _ => 0) (sets.unchanged invalid _ new)⟩

end UniqueID
end XLN
