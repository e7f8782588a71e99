import Mathlib.Algebra.Ring.Nat

/-!
# Base64

The base64 encoding of RFC 4648: every three octets are 24 bits, which are written as four digits of six
bits each. A last group of one or two octets is filled up with zero bits to a whole number of digits, and
the output with padding to four characters. `decode` takes exactly these texts and gives the octets back
(`decode_eq_some_iff`).
-/

namespace Rfc4648

/-- The character for six bits. -/
def digit (n : Nat) : UInt8 :=
  if n < 26 then UInt8.ofNat (65 + n)
  else if n < 52 then UInt8.ofNat (97 + (n - 26))
  else if n < 62 then UInt8.ofNat (48 + (n - 52))
  else if n = 62 then 43
  else 47

def pad : UInt8 := 61

def base64 : List UInt8 → List UInt8
  | [] => []
  | [a] =>
    let bits := a.toNat * 2 ^ 4
    [digit (bits / 64), digit (bits % 64), pad, pad]
  | [a, b] =>
    let bits := (a.toNat * 256 + b.toNat) * 2 ^ 2
    [digit (bits / 64 ^ 2), digit (bits / 64 % 64), digit (bits % 64), pad]
  | a :: b :: c :: rest =>
    let bits := (a.toNat * 256 + b.toNat) * 256 + c.toNat
    digit (bits / 64 ^ 3) :: digit (bits / 64 ^ 2 % 64) :: digit (bits / 64 % 64) :: digit (bits % 64) ::
      base64 rest

/-- Only digits and padding are put out. -/
lemma mem_base64 {l : List UInt8} {c : UInt8} (mem : c ∈ base64 l) :
    c = pad ∨ ∃ n < 64, c = digit n := by
  have lt : ∀ a : UInt8, a.toNat < 256 := UInt8.toNat_lt
  induction l using base64.induct with
  | case1 => cases mem
  | case2 a =>
    have := lt a
    simp only [base64, List.mem_cons, List.not_mem_nil, or_false] at mem
    rcases mem with rfl | rfl | rfl | rfl
    · exact .inr ⟨_, by omega, rfl⟩
    · exact .inr ⟨_, by omega, rfl⟩
    · exact .inl rfl
    · exact .inl rfl
  | case3 a b =>
    have := lt a
    have := lt b
    simp only [base64, List.mem_cons, List.not_mem_nil, or_false] at mem
    rcases mem with rfl | rfl | rfl | rfl
    · exact .inr ⟨_, by omega, rfl⟩
    · exact .inr ⟨_, by omega, rfl⟩
    · exact .inr ⟨_, by omega, rfl⟩
    · exact .inl rfl
  | case4 a b c rest ih =>
    have := lt a
    have := lt b
    have := lt c
    rw [base64] at mem
    simp only [List.mem_cons] at mem
    rcases mem with rfl | rfl | rfl | rfl | mem
    · exact .inr ⟨_, by omega, rfl⟩
    · exact .inr ⟨_, by omega, rfl⟩
    · exact .inr ⟨_, by omega, rfl⟩
    · exact .inr ⟨_, by omega, rfl⟩
    · exact ih mem

/-- The six bits of a character. -/
def value (c : UInt8) : Option Nat :=
  if 65 ≤ c ∧ c ≤ 90 then some (c.toNat - 65)
  else if 97 ≤ c ∧ c ≤ 122 then some (c.toNat - 97 + 26)
  else if 48 ≤ c ∧ c ≤ 57 then some (c.toNat - 48 + 52)
  else if c = 43 then some 62
  else if c = 47 then some 63
  else none

/-- A digit is read as its value. -/
lemma value_digit {n : Nat} (lt : n < 64) : value (digit n) = some n := by
  decide +revert

/-- The pad is no digit. -/
lemma digit_ne_pad {n : Nat} (lt : n < 64) : digit n ≠ pad := by
  decide +revert

/-- What is read is a digit. -/
lemma digit_value {c : UInt8} {n : Nat} (e : value c = some n) : n < 64 ∧ digit n = c := by
  have back : ∀ m, m = c.toNat → UInt8.ofNat m = c := fun m same => same ▸ UInt8.ofNat_toNat
  unfold value at e
  simp only [UInt8.le_iff_toNat_le, UInt8.reduceToNat] at e
  split at e
  · cases e
    refine ⟨by omega, ?_⟩
    rw [digit, if_pos (by omega)]
    exact back _ (by omega)
  · split at e
    · cases e
      refine ⟨by omega, ?_⟩
      rw [digit, if_neg (by omega), if_pos (by omega)]
      exact back _ (by omega)
    · split at e
      · cases e
        refine ⟨by omega, ?_⟩
        rw [digit, if_neg (by omega), if_neg (by omega), if_pos (by omega)]
        exact back _ (by omega)
      · split at e
        · cases e
          exact ⟨by omega, ‹c = 43›.symm ▸ rfl⟩
        · split at e
          · cases e
            exact ⟨by omega, ‹c = 47›.symm ▸ rfl⟩
          · cases e

/-- The octets of a text of groups of four characters, with padding in the last one only and zero bits before
    it. -/
def decode : List UInt8 → Option (List UInt8)
  | [] => some []
  | w :: x :: y :: z :: rest => do
    let a ← value w
    let b ← value x
    if z = pad then
      if y = pad then
        if rest = [] ∧ b % 16 = 0 then some [UInt8.ofNat (4 * a + b / 16)] else none
      else do
        let c ← value y
        if rest = [] ∧ c % 4 = 0 then
          some [UInt8.ofNat (4 * a + b / 16), UInt8.ofNat (b % 16 * 16 + c / 4)]
        else none
    else do
      let c ← value y
      let d ← value z
      let octets ← decode rest
      some (UInt8.ofNat (4 * a + b / 16) :: UInt8.ofNat (b % 16 * 16 + c / 4) ::
        UInt8.ofNat (c % 4 * 64 + d) :: octets)
  | _ => none

/-- A digit is read as an equal value. -/
lemma value_digit_of {n m : Nat} (e : n = m) (lt : m < 64) : value (digit n) = some m :=
  e ▸ value_digit (e ▸ lt)

/-- What was encoded can be decoded. -/
lemma decode_base64 (l : List UInt8) : decode (base64 l) = some l := by
  have lt : ∀ a : UInt8, a.toNat < 256 := UInt8.toNat_lt
  have octet : ∀ {n : Nat} {a : UInt8}, n = a.toNat → UInt8.ofNat n = a :=
    fun same => same ▸ UInt8.ofNat_toNat
  induction l using base64.induct with
  | case1 => rfl
  | case2 a =>
    have := lt a
    have first := value_digit_of (n := a.toNat * 2 ^ 4 / 64) (m := a.toNat / 4) (by omega) (by omega)
    have second := value_digit_of (n := a.toNat * 2 ^ 4 % 64) (m := a.toNat % 4 * 16) (by omega) (by omega)
    simp only [base64, decode, first, second, Option.bind_eq_bind, Option.bind_some, ↓reduceIte, true_and]
    rw [if_pos (by omega), octet (a := a) (by omega)]
  | case3 a b =>
    have := lt a
    have := lt b
    have first := value_digit_of (n := (a.toNat * 256 + b.toNat) * 2 ^ 2 / 64 ^ 2) (m := a.toNat / 4)
      (by omega) (by omega)
    have second := value_digit_of (n := (a.toNat * 256 + b.toNat) * 2 ^ 2 / 64 % 64)
      (m := a.toNat % 4 * 16 + b.toNat / 16) (by omega) (by omega)
    have third := value_digit_of (n := (a.toNat * 256 + b.toNat) * 2 ^ 2 % 64) (m := b.toNat % 16 * 4)
      (by omega) (by omega)
    have more : digit ((a.toNat * 256 + b.toNat) * 2 ^ 2 % 64) ≠ pad := digit_ne_pad (by omega)
    simp only [base64, decode, first, second, third, more, Option.bind_eq_bind, Option.bind_some, ↓reduceIte,
      true_and]
    rw [if_pos (by omega), octet (a := a) (by omega), octet (a := b) (by omega)]
  | case4 a b c rest ih =>
    have := lt a
    have := lt b
    have := lt c
    have first := value_digit_of (n := ((a.toNat * 256 + b.toNat) * 256 + c.toNat) / 64 ^ 3)
      (m := a.toNat / 4) (by omega) (by omega)
    have second := value_digit_of (n := ((a.toNat * 256 + b.toNat) * 256 + c.toNat) / 64 ^ 2 % 64)
      (m := a.toNat % 4 * 16 + b.toNat / 16) (by omega) (by omega)
    have third := value_digit_of (n := ((a.toNat * 256 + b.toNat) * 256 + c.toNat) / 64 % 64)
      (m := b.toNat % 16 * 4 + c.toNat / 64) (by omega) (by omega)
    have fourth := value_digit_of (n := ((a.toNat * 256 + b.toNat) * 256 + c.toNat) % 64)
      (m := c.toNat % 64) (by omega) (by omega)
    have more : digit (((a.toNat * 256 + b.toNat) * 256 + c.toNat) % 64) ≠ pad := digit_ne_pad (by omega)
    simp only [base64, decode, first, second, third, fourth, more, ih, Option.bind_eq_bind, Option.bind_some,
      ↓reduceIte]
    rw [octet (a := a) (by omega), octet (a := b) (by omega), octet (a := c) (by omega)]

/-- What can be decoded was encoded. -/
lemma base64_decode {text l : List UInt8} (e : decode text = some l) : base64 l = text := by
  have toNat : ∀ {n : Nat}, n < 256 → (UInt8.ofNat n).toNat = n := fun lt => UInt8.toNat_ofNat_of_lt lt
  have same : ∀ {n m : Nat}, n = m → digit n = digit m := fun e => congrArg digit e
  fun_induction decode text generalizing l with
  | case1 =>
    cases e
    rfl
  | case2 w x y z rest ih =>
    simp only [Option.bind_eq_bind, Option.bind_eq_some_iff] at e
    obtain ⟨a, ea, b, eb, e⟩ := e
    obtain ⟨lt_a, rfl⟩ := digit_value ea
    obtain ⟨lt_b, rfl⟩ := digit_value eb
    split at e
    · rename_i at_z
      split at e
      · rename_i at_y
        split at e
        · rename_i whole
          cases e
          rw [base64, toNat (by omega), at_y, at_z, whole.1]
          rw [same (n := (4 * a + b / 16) * 2 ^ 4 / 64) (m := a) (by omega),
            same (n := (4 * a + b / 16) * 2 ^ 4 % 64) (m := b) (by omega)]
        · cases e
      · obtain ⟨c, ec, taken⟩ := Option.bind_eq_some_iff.mp e
        obtain ⟨lt_c, rfl⟩ := digit_value ec
        split at taken
        · rename_i whole
          cases taken
          rw [base64, toNat (by omega), toNat (by omega), at_z, whole.1]
          have bits : ((4 * a + b / 16) * 256 + (b % 16 * 16 + c / 4)) * 2 ^ 2 = (a * 64 + b) * 64 + c := by
            omega
          rw [bits, same (n := ((a * 64 + b) * 64 + c) / 64 ^ 2) (m := a) (by omega),
            same (n := ((a * 64 + b) * 64 + c) / 64 % 64) (m := b) (by omega),
            same (n := ((a * 64 + b) * 64 + c) % 64) (m := c) (by omega)]
        · cases taken
    · simp only [Option.bind_eq_some_iff] at e
      obtain ⟨c, ec, d, ed, octets, e_octets, e⟩ := e
      obtain ⟨lt_c, rfl⟩ := digit_value ec
      obtain ⟨lt_d, rfl⟩ := digit_value ed
      cases e
      rw [base64, toNat (by omega), toNat (by omega), toNat (by omega), ih e_octets]
      have bits : ((4 * a + b / 16) * 256 + (b % 16 * 16 + c / 4)) * 256 + (c % 4 * 64 + d) =
          ((a * 64 + b) * 64 + c) * 64 + d := by omega
      rw [bits, same (n := (((a * 64 + b) * 64 + c) * 64 + d) / 64 ^ 3) (m := a) (by omega),
        same (n := (((a * 64 + b) * 64 + c) * 64 + d) / 64 ^ 2 % 64) (m := b) (by omega),
        same (n := (((a * 64 + b) * 64 + c) * 64 + d) / 64 % 64) (m := c) (by omega),
        same (n := (((a * 64 + b) * 64 + c) * 64 + d) % 64) (m := d) (by omega)]
  | case3 => cases e

/-- A text is decoded exactly if it is the encoding of something, and that is what it is decoded to. -/
theorem decode_eq_some_iff {text l : List UInt8} : decode text = some l ↔ base64 l = text :=
  ⟨base64_decode, fun e => e ▸ decode_base64 l⟩

end Rfc4648
