import Mathlib.Tactic.Common

/-!
# Hexadecimal digits

Bytes written as two hexadecimal digits each, in upper or lower case. A text with digits only and an even
number of them can be decoded (`exists_decode`), and two texts give the same bytes if and only if they are
equal ignoring case (`decode_eq_iff`).
-/

namespace Hex

def value (c : UInt8) : Option Nat :=
  if 48 ≤ c ∧ c ≤ 57 then some (c.toNat - 48)
  else if 65 ≤ c ∧ c ≤ 70 then some (c.toNat - 55)
  else if 97 ≤ c ∧ c ≤ 102 then some (c.toNat - 87)
  else none

/-- Letters are compared without regard to case. -/
def lower (c : UInt8) : UInt8 :=
  if 65 ≤ c ∧ c ≤ 90 then c + 32 else c

/-- The digit for a value, in lower case. -/
def digit (n : Nat) : UInt8 :=
  if n < 10 then UInt8.ofNat (48 + n) else UInt8.ofNat (87 + n)

/-- The byte with these two digits. -/
def byte (high low : Nat) : UInt8 :=
  UInt8.ofNat (16 * high + low)

def decode : List UInt8 → Option (List UInt8)
  | [] => some []
  | [_] => none
  | a :: b :: rest =>
    (value a).bind fun high => (value b).bind fun low => (decode rest).map (byte high low :: ·)

variable {c d : UInt8} {l l' bytes bytes' : List UInt8} {n m : Nat}

/-- A digit of either case has its value. -/
lemma value_cases (e : value c = some n) : n < 16 ∧ lower c = digit n := by
  have table : ∀ k < 256, ∀ n, value (UInt8.ofNat k) = some n →
      n < 16 ∧ lower (UInt8.ofNat k) = digit n := by
    have bounded : ∀ k < 256, (value (UInt8.ofNat k)).all (fun n =>
        n < 16 ∧ lower (UInt8.ofNat k) = digit n) = true := by decide +kernel
    intro k lt n e
    simpa [e] using bounded k lt
  have bound := table c.toNat c.toNat_lt n
  rw [UInt8.ofNat_toNat] at bound
  exact bound e

/-- A digit is read as its value. -/
lemma value_digit (lt : n < 16) : value (digit n) = some n := by
  have table : ∀ n < 16, value (digit n) = some n := by decide
  exact table n lt

/-- Digits have the same value if and only if they are equal ignoring case. -/
lemma value_eq_iff (e : value c = some n) (e' : value d = some m) : n = m ↔ lower c = lower d := by
  obtain ⟨lt, digit_c⟩ := value_cases e
  obtain ⟨lt', digit_d⟩ := value_cases e'
  rw [digit_c, digit_d]
  constructor
  · exact congrArg digit
  · intro same
    have values := congrArg value same
    rw [value_digit lt, value_digit lt'] at values
    exact Option.some.inj values

/-- A byte tells its two digits. -/
lemma byte_inj {high low high' low' : Nat} (bounds : high < 16 ∧ low < 16)
    (bounds' : high' < 16 ∧ low' < 16) :
    byte high low = byte high' low' ↔ high = high' ∧ low = low' := by
  constructor
  · intro same
    have sums := congrArg UInt8.toNat same
    rw [byte, byte, UInt8.toNat_ofNat', UInt8.toNat_ofNat'] at sums
    omega
  · rintro ⟨rfl, rfl⟩
    rfl

/-- The first byte is read from two digits. -/
lemma decode_cons_inv {a b : UInt8} (e : decode (a :: b :: l) = some bytes) :
    ∃ high low rest, value a = some high ∧ value b = some low ∧ decode l = some rest ∧
      bytes = byte high low :: rest := by
  simp only [decode, Option.bind_eq_some_iff, Option.map_eq_some_iff] at e
  obtain ⟨high, e1, low, e2, rest, e3, rfl⟩ := e
  exact ⟨high, low, rest, e1, e2, e3, rfl⟩

/-- Digits that are even in number can be read. -/
lemma exists_decode (digits : ∀ c ∈ l, (value c).isSome) (even : l.length % 2 = 0) :
    ∃ bytes, decode l = some bytes := by
  induction l using decode.induct with
  | case1 => exact ⟨[], rfl⟩
  | case2 => cases even
  | case3 a b rest ih =>
    obtain ⟨high, e1⟩ := Option.isSome_iff_exists.mp (digits a (by simp))
    obtain ⟨low, e2⟩ := Option.isSome_iff_exists.mp (digits b (by simp))
    rw [List.length_cons, List.length_cons] at even
    obtain ⟨bytes, e3⟩ := ih (fun c mem => digits c (by simp [mem])) (by omega)
    exact ⟨byte high low :: bytes, by rw [decode, e1, e2, e3]; rfl⟩

/-- Two digits make a byte. -/
lemma decode_length (e : decode l = some bytes) : 2 * bytes.length = l.length := by
  induction l using decode.induct generalizing bytes with
  | case1 =>
    cases e
    rfl
  | case2 => cases e
  | case3 a b rest ih =>
    obtain ⟨high, low, bytes, -, -, e3, rfl⟩ := decode_cons_inv e
    have length := ih e3
    simp only [List.length_cons]
    omega

/-- A byte is made of the digits at its place. -/
lemma decode_getElem? (e : decode l = some bytes) (i : Nat) (lt : i < bytes.length) :
    ∃ high low, l[2 * i]?.bind value = some high ∧ l[2 * i + 1]?.bind value = some low ∧
      bytes[i]? = some (byte high low) := by
  induction l using decode.induct generalizing bytes i with
  | case1 =>
    cases e
    cases lt
  | case2 => cases e
  | case3 a b rest ih =>
    obtain ⟨high, low, bytes, e1, e2, e3, rfl⟩ := decode_cons_inv e
    cases i with
    | zero => exact ⟨high, low, e1, e2, rfl⟩
    | succ i =>
      have place : 2 * (i + 1) = 2 * i + 1 + 1 := by omega
      rw [place]
      exact ih e3 i (Nat.lt_of_succ_lt_succ lt)

/-- Two texts give the same bytes if they differ in case only. -/
lemma decode_eq_iff (e : decode l = some bytes) (e' : decode l' = some bytes') :
    bytes = bytes' ↔ l.map lower = l'.map lower := by
  induction l using decode.induct generalizing l' bytes bytes' with
  | case1 =>
    cases e
    have length := decode_length e'
    rw [List.nil_eq, List.map_nil, List.nil_eq, List.map_eq_nil_iff, ← List.length_eq_zero_iff,
      ← List.length_eq_zero_iff]
    omega
  | case2 => cases e
  | case3 a b rest ih =>
    obtain ⟨high, low, bytes, e1, e2, e3, rfl⟩ := decode_cons_inv e
    match l' with
    | [] =>
      cases e'
      simp
    | [_] => cases e'
    | a' :: b' :: rest' =>
      obtain ⟨high', low', bytes', e1', e2', e3', rfl⟩ := decode_cons_inv e'
      have bounds : high < 16 ∧ low < 16 := ⟨(value_cases e1).1, (value_cases e2).1⟩
      have bounds' : high' < 16 ∧ low' < 16 := ⟨(value_cases e1').1, (value_cases e2').1⟩
      rw [List.cons.injEq, byte_inj bounds bounds', ih e3 e3', value_eq_iff e1 e1', value_eq_iff e2 e2',
        List.map_cons, List.map_cons, List.map_cons, List.map_cons, List.cons.injEq, List.cons.injEq,
        and_assoc]

end Hex
