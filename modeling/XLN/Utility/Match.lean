import XLN.Lib.Glob
import XLN.Foundation.DataStream
import Mathlib.Data.Int.Order.Basic

/-!
# Matching patterns

`Core/Utility/StringTool.cpp`: `StringUtil::Match`, on two strings that end with a zero. `matchLoop_eq`: each
round does what `glob` does on the rests of the two strings, so the function terminates and stays within them
(`match_terminates`). `match_iff`: for a well-formed pattern it decides the language.
-/

namespace XLN
open Glob

namespace StringUtil

inductive Fault where
  | outOfBounds
  | outOfFuel
  deriving DecidableEq, Repr

/-- The character at `i` of the characters `str` and the zero that terminates them. -/
def read (str : ByteString) (i : Nat) : Except Fault UInt8 :=
  if i ≤ str.length then .ok (str.getD i 0) else .error .outOfBounds

/-- The value of a `char`, which is signed on some targets and not on others. -/
def char (signed : Bool) (c : UInt8) : Int :=
  if signed then c.toInt8.toInt else c.toNat

/-- The search for the character of `str` between the brackets; `none` is `return false`. -/
def bracketFind (signed : Bool) (pat : ByteString) (ch : UInt8) : Nat → Nat → Except Fault (Option Nat)
  | 0, _ => .error .outOfFuel
  | fuel + 1, p => do
    let c ← read pat p
    if c = 93 ∨ c = 0 then pure none
    else if c = ch then pure (some p)
    else
      let next ← read pat (p + 1)
      if next = 45 then
        let c2 ← read pat (p + 2)
        if c2 = 0 then pure none
        else if char signed c ≤ char signed ch ∧ char signed ch ≤ char signed c2 then pure (some p)
        else if char signed ch ≤ char signed c ∧ char signed c2 ≤ char signed ch then pure (some p)
        else bracketFind signed pat ch fuel (p + 2 + 1)
      else bracketFind signed pat ch fuel (p + 1)

/-- The search for the closing bracket, which steps back from the end of the pattern. -/
def bracketEnd (pat : ByteString) : Nat → Nat → Except Fault Nat
  | 0, _ => .error .outOfFuel
  | fuel + 1, p => do
    let c ← read pat p
    if c = 93 then pure p
    else if c = 0 then pure (p - 1)
    else bracketEnd pat fuel (p + 1)

/-- The loop after a `*`. `call` matches the rest of the pattern. -/
def starLoop (call : ByteString → Except Fault Bool) (str : ByteString) : Nat → Nat → Except Fault Bool
  | 0, _ => .error .outOfFuel
  | fuel + 1, s => do
    if ← call (str.drop s) then pure true
    else
      let ch ← read str s
      if ch = 0 then pure false
      else starLoop call str fuel (s + 1)

/-- The loop of `Match` at `str + s` and `pat + p`. -/
def matchLoop (signed : Bool) : Nat → ByteString → ByteString → Nat → Nat → Except Fault Bool
  | 0, _, _, _, _ => .error .outOfFuel
  | fuel + 1, str, pat, s, p => do
    let c ← read pat p
    let ch ← read str s
    if c = 0 then pure (decide (ch = 0))
    else if ch = 0 ∧ c ≠ 42 then pure false
    else if c = 42 then
      let next ← read pat (p + 1)
      if next = 0 then pure true
      else starLoop (fun str' => matchLoop signed fuel (c_str str') (c_str (pat.drop (p + 1))) 0 0) str fuel s
    else if c = 63 then matchLoop signed fuel str pat (s + 1) (p + 1)
    else if c = 91 then
      match ← bracketFind signed pat ch fuel (p + 1) with
      | none => pure false
      | some q =>
        let e ← bracketEnd pat fuel q
        matchLoop signed fuel str pat (s + 1) (e + 1)
    else if c = 92 then
      let next ← read pat (p + 1)
      if next = 0 then pure false
      else if next ≠ ch then pure false
      else matchLoop signed fuel str pat (s + 1) (p + 1 + 1)
    else if c ≠ ch then pure false
    else matchLoop signed fuel str pat (s + 1) (p + 1)

/-- `StringUtil::ToLowerCase`, with the `tolower` of the locale. -/
def toLowerCase (tolower : UInt8 → UInt8) (str : ByteString) : ByteString :=
  str.map tolower

/-- `StringUtil::Match` within `fuel` rounds. -/
def match_ (signed : Bool) (tolower : UInt8 → UInt8) (fuel : Nat) (parseStr pattern : ByteString)
    (caseSensitive : Bool) : Except Fault Bool :=
  let tmpString := if caseSensitive then parseStr else toLowerCase tolower parseStr
  let tmpPattern := if caseSensitive then pattern else toLowerCase tolower pattern
  matchLoop signed fuel (c_str tmpString) (c_str tmpPattern) 0 0

/-! ## The rounds on the rests of the strings -/

/-- What is left of the pattern where the search between the brackets stops. -/
def scan (signed : Bool) (ch : UInt8) : ByteString → Option ByteString
  | [] => none
  | c :: rest =>
    if c = 93 then none
    else if c = ch then some (c :: rest)
    else
      match rest with
      | [] => none
      | next :: rest' =>
        if next = 45 then
          match rest' with
          | [] => none
          | c2 :: rest'' =>
            if char signed c ≤ char signed ch ∧ char signed ch ≤ char signed c2 ∨
                char signed ch ≤ char signed c ∧ char signed c2 ≤ char signed ch then some (c :: rest)
            else scan signed ch rest''
        else scan signed ch (next :: rest')

/-- What follows the closing bracket. -/
def skip (pat : ByteString) : ByteString :=
  (pat.dropWhile fun c => c ≠ 93).tail

/-- What is left of a bracket is the end of the pattern. -/
lemma scan_suffix {signed : Bool} {ch : UInt8} {pat rest : ByteString} (e : scan signed ch pat = some rest) :
    rest <:+ pat := by
  fun_induction scan signed ch pat
  case case3 | case6 =>
    cases e
    exact List.suffix_rfl
  case case7 ih => exact (ih e).trans (List.suffix_append [_, _, _] _)
  case case8 ih => exact (ih e).trans (List.suffix_cons _ _)
  all_goals cases e

/-- What is left behind a bracket is not longer than the pattern. -/
lemma length_skip_le (pat : ByteString) : (skip pat).length ≤ pat.length := by
  rw [skip, List.length_tail]
  exact (Nat.sub_le _ 1).trans (List.length_dropWhile_le _ pat)

/-- What `Match` decides. -/
def glob (signed : Bool) : ByteString → ByteString → Bool
  | [], str => str.isEmpty
  | c :: pat, str =>
    if c = 42 then
      glob signed pat str ||
        match str with
        | [] => false
        | _ :: str => glob signed (c :: pat) str
    else
      match str with
      | [] => false
      | ch :: str =>
        if c = 63 then glob signed pat str
        else if c = 91 then
          match _e : scan signed ch pat with
          | none => false
          | some rest => glob signed (skip rest) str
        else if c = 92 then
          match pat with
          | [] => false
          | next :: pat => decide (next = ch) && glob signed pat str
        else decide (c = ch) && glob signed pat str
termination_by pat str => pat.length + str.length
decreasing_by
  all_goals simp only [List.length_cons]
  case _ => omega
  case _ => omega
  case _ => omega
  case _ =>
    have le := length_skip_le rest
    have le' := (scan_suffix _e).length_le
    omega
  case _ => omega
  case _ => omega

variable {signed : Bool} {c ch : UInt8} {pat str rest : ByteString}

/-- The empty pattern matches the empty string. -/
@[simp] lemma glob_nil : glob signed [] str = str.isEmpty := by rw [glob]

/-- At the end of the string a `*` stands for nothing. -/
lemma glob_many_nil : glob signed (42 :: pat) [] = glob signed pat [] := by
  rw [glob.eq_def]
  simp

/-- A `*` stands for nothing, or takes one more character. -/
lemma glob_many_cons : glob signed (42 :: pat) (ch :: str) =
    (glob signed pat (ch :: str) || glob signed (42 :: pat) str) := by
  rw [glob.eq_def]
  simp

/-- Only a `*` matches at the end of the string. -/
lemma glob_cons_nil (one : c ≠ 42) : glob signed (c :: pat) [] = false := by
  rw [glob.eq_def]
  simp [one]

/-- A `?` takes one character. -/
lemma glob_any : glob signed (63 :: pat) (ch :: str) = glob signed pat str := by
  rw [glob.eq_def]
  simp

/-- A bracket takes one of its characters. -/
lemma glob_bracket : glob signed (91 :: pat) (ch :: str) =
    (scan signed ch pat).elim false fun rest => glob signed (skip rest) str := by
  rw [glob.eq_def]
  dsimp only
  rw [if_neg (by decide), if_neg (by decide), if_pos rfl]
  split
  next e => rw [e, Option.elim_none]
  next rest e => rw [e, Option.elim_some]

/-- A backslash at the end of the pattern matches nothing. -/
lemma glob_escape_nil : glob signed [92] (ch :: str) = false := by
  rw [glob.eq_def]
  simp

/-- A backslash takes the character behind it. -/
lemma glob_escape : glob signed (92 :: c :: pat) (ch :: str) =
    (decide (c = ch) && glob signed pat str) := by
  rw [glob.eq_def]
  simp

/-- Any other character takes itself. -/
lemma glob_literal (h1 : c ≠ 42) (h2 : c ≠ 63) (h3 : c ≠ 91) (h4 : c ≠ 92) :
    glob signed (c :: pat) (ch :: str) = (decide (c = ch) && glob signed pat str) := by
  rw [glob.eq_def]
  simp [h1, h2, h3, h4]

/-! ## The loops -/

/-- What runs first has returned. -/
lemma ok_bind {ε α β : Type} (a : α) (f : α → Except ε β) : (Except.ok a >>= f) = f a := rfl

/-- A character of the string is read. -/
lemma read_cons {i : Nat} (here : str.drop i = c :: rest) : read str i = .ok c := by
  have at_i : str[i]? = some c := by rw [← List.head?_drop, here, List.head?_cons]
  obtain ⟨lt, -⟩ := List.getElem?_eq_some_iff.mp at_i
  rw [read, if_pos lt.le, List.getD_eq_getElem?_getD, at_i, Option.getD_some]

/-- Up to the end of the string there is something to read. -/
lemma exists_read {i : Nat} (le : i ≤ str.length) : ∃ c, read str i = .ok c := ⟨_, if_pos le⟩

/-- At the end of the string zero is read. -/
lemma read_nil {i : Nat} (here : str.drop i = []) (le : i ≤ str.length) : read str i = .ok 0 := by
  rw [read, if_pos le, List.getD_eq_getElem?_getD, List.getElem?_eq_none (List.drop_eq_nil_iff.mp here),
    Option.getD_none]

/-- The next character. -/
lemma drop_next {i : Nat} (here : str.drop i = c :: rest) : str.drop (i + 1) = rest ∧ i + 1 ≤ str.length := by
  refine ⟨by rw [← List.drop_drop, here, List.drop_one, List.tail_cons], ?_⟩
  have count := congrArg List.length here
  rw [List.length_drop, List.length_cons] at count
  omega

/-- No character of a string is zero. -/
lemma ne_zero_of_drop {i : Nat} (clean : 0 ∉ str) (here : str.drop i = c :: rest) : c ≠ 0 := by
  rintro rfl
  exact clean (List.mem_of_mem_drop (here ▸ List.mem_cons_self))

/-- The search from `p` on stops where the given rest of the pattern starts. -/
def Finds (pat : ByteString) (p : Nat) (result : Except Fault (Option Nat)) (rest : Option ByteString) : Prop :=
  ∃ r, result = .ok r ∧ rest = r.map pat.drop ∧ ∀ q ∈ r, p ≤ q ∧ q ≤ pat.length

/-- Nothing is found. -/
lemma finds_none (pat : ByteString) (p : Nat) : Finds pat p (pure none) none :=
  ⟨none, rfl, rfl, by simp⟩

/-- The place that is found is the one that is read. -/
lemma finds_here {p : Nat} (here : pat.drop p = rest) (le : p ≤ pat.length) :
    Finds pat p (pure (some p)) (some rest) :=
  ⟨some p, rfl, by rw [Option.map_some, here], by simp [le]⟩

/-- A place that is found further on is found. -/
lemma Finds.mono {p p' : Nat} {result : Except Fault (Option Nat)} {found : Option ByteString}
    (finds : Finds pat p' result found) (le : p ≤ p') : Finds pat p result found := by
  obtain ⟨r, e, found, bounds⟩ := finds
  exact ⟨r, e, found, fun q mem => ⟨le.trans (bounds q mem).1, (bounds q mem).2⟩⟩

/-- The loop over a bracket finds what `scan` finds. -/
lemma bracketFind_finds (signed : Bool) (ch : UInt8) (fuel : Nat) {p : Nat} (clean : 0 ∉ pat)
    (le : p ≤ pat.length) (enough : pat.length < fuel + p) :
    Finds pat p (bracketFind signed pat ch fuel p) (scan signed ch (pat.drop p)) := by
  induction fuel generalizing p with
  | zero => omega
  | succ fuel ih =>
    rw [bracketFind]
    cases here : pat.drop p with
    | nil =>
      rw [read_nil here le, ok_bind, if_pos (.inr rfl)]
      exact finds_none pat p
    | cons c rest =>
      have nonzero := ne_zero_of_drop clean here
      obtain ⟨here1, le1⟩ := drop_next here
      rw [read_cons here, ok_bind, scan.eq_def]
      dsimp only
      by_cases closed : c = 93
      · rw [if_pos (.inl closed), if_pos closed]
        exact finds_none pat p
      rw [if_neg (not_or.mpr ⟨closed, nonzero⟩), if_neg closed]
      by_cases found : c = ch
      · rw [if_pos found, if_pos found]
        exact finds_here here le
      rw [if_neg found, if_neg found]
      have next_round := (ih le1 (by omega)).mono (Nat.le_succ p)
      rw [here1] at next_round
      cases rest with
      | nil =>
        -- the next round stands at the terminating zero
        rw [read_nil here1 le1, ok_bind, if_neg (by decide)]
        exact next_round
      | cons next rest =>
        obtain ⟨here2, le2⟩ := drop_next here1
        rw [read_cons here1, ok_bind]
        dsimp only
        by_cases minus : next = 45
        · rw [if_pos minus, if_pos minus]
          cases rest with
          | nil =>
            rw [read_nil here2 le2, ok_bind, if_pos rfl]
            exact finds_none pat p
          | cons c2 rest =>
            obtain ⟨here3, le3⟩ := drop_next here2
            rw [read_cons here2, ok_bind, if_neg (ne_zero_of_drop clean here2)]
            dsimp only
            by_cases up : char signed c ≤ char signed ch ∧ char signed ch ≤ char signed c2
            · rw [if_pos up, if_pos (.inl up)]
              exact finds_here here le
            by_cases down : char signed ch ≤ char signed c ∧ char signed c2 ≤ char signed ch
            · rw [if_neg up, if_pos down, if_pos (.inr down)]
              exact finds_here here le
            rw [if_neg up, if_neg down, if_neg (not_or.mpr ⟨up, down⟩), ← here3]
            exact (ih le3 (by omega)).mono (Nat.le_add_right p 3)
        · rw [if_neg minus, if_neg minus]
          exact next_round

/-- The loop to the end of a bracket stops where `skip` does. -/
lemma bracketEnd_eq (fuel : Nat) {p : Nat} (clean : 0 ∉ pat) (pos : 0 < p) (le : p ≤ pat.length)
    (enough : pat.length < fuel + p) :
    ∃ e, bracketEnd pat fuel p = .ok e ∧ pat.drop (e + 1) = skip (pat.drop p) ∧ p ≤ e + 1 ∧
      e + 1 ≤ pat.length := by
  induction fuel generalizing p with
  | zero => omega
  | succ fuel ih =>
    rw [bracketEnd]
    cases here : pat.drop p with
    | nil =>
      have ends := List.drop_eq_nil_iff.mp here
      have back : p - 1 + 1 = p := Nat.sub_add_cancel pos
      rw [read_nil here le, ok_bind, if_neg (by decide), if_pos rfl]
      exact ⟨p - 1, rfl, by rw [back, here]; rfl, back.ge, back.trans_le le⟩
    | cons c rest =>
      obtain ⟨here1, le1⟩ := drop_next here
      rw [read_cons here, ok_bind]
      by_cases closed : c = 93
      · rw [if_pos closed]
        refine ⟨p, rfl, ?_, Nat.le_succ p, le1⟩
        rw [here1, skip, List.dropWhile_cons_of_neg (by simpa using closed), List.tail_cons]
      · rw [if_neg closed, if_neg (ne_zero_of_drop clean here)]
        obtain ⟨e, end_eq, rest_eq, bounds⟩ := ih (Nat.succ_pos p) le1 (by omega)
        rw [here1] at rest_eq
        refine ⟨e, end_eq, ?_, (Nat.le_succ p).trans bounds.1, bounds.2⟩
        rw [rest_eq, skip, skip, List.dropWhile_cons_of_pos (by simpa using closed)]

/-- Both searches, when the matching goes on behind the closing bracket. -/
lemma brackets_eq (fuel : Nat) {p : Nat} (clean : 0 ∉ pat) (pos : 0 < p) (le : p ≤ pat.length)
    (enough : pat.length < fuel + p) (next : Nat → Except Fault Bool) (rest : ByteString → Bool)
    (goes_on : ∀ e, p ≤ e + 1 → e + 1 ≤ pat.length → next e = .ok (rest (pat.drop (e + 1)))) :
    (do
      match ← bracketFind signed pat ch fuel p with
      | none => pure false
      | some q =>
        let e ← bracketEnd pat fuel q
        next e) = .ok ((scan signed ch (pat.drop p)).elim false fun found => rest (skip found)) := by
  obtain ⟨r, find_eq, scan_eq, bounds⟩ := bracketFind_finds signed ch fuel clean le enough
  rw [find_eq, ok_bind, scan_eq]
  cases r with
  | none => rfl
  | some q =>
    obtain ⟨le_q, q_le⟩ := bounds q rfl
    obtain ⟨e, end_eq, rest_eq, le_e, e_le⟩ := bracketEnd_eq fuel clean (pos.trans_le le_q) q_le (by omega)
    dsimp only
    rw [end_eq, ok_bind, goes_on e (le_q.trans le_e) e_le, rest_eq]
    rfl

/-- A `*` alone matches every string. -/
lemma glob_many_only (str : ByteString) : glob signed [42] str = true := by
  induction str with
  | nil => rw [glob_many_nil, glob_nil, List.isEmpty_nil]
  | cons ch str ih => rw [glob_many_cons, ih, Bool.or_true]

/-- Every rest of the string is tried. -/
lemma starLoop_eq {call : ByteString → Except Fault Bool} {fuel s : Nat} (clean : 0 ∉ str)
    (calls : ∀ i, s ≤ i → i ≤ str.length → call (str.drop i) = .ok (glob signed pat (str.drop i)))
    (le : s ≤ str.length) (enough : str.length < fuel + s) :
    starLoop call str fuel s = .ok (glob signed (42 :: pat) (str.drop s)) := by
  induction fuel generalizing s with
  | zero => omega
  | succ fuel ih =>
    rw [starLoop, calls s le_rfl le, ok_bind]
    cases here : str.drop s with
    | nil =>
      rw [glob_many_nil, read_nil here le, ok_bind, if_pos rfl]
      cases glob signed pat [] <;> rfl
    | cons ch rest =>
      obtain ⟨here1, le1⟩ := drop_next here
      rw [read_cons here, ok_bind, if_neg (ne_zero_of_drop clean here), glob_many_cons,
        ih (fun i le_i => calls i ((Nat.le_succ s).trans le_i)) le1 (by omega), here1]
      cases glob signed pat (ch :: rest) <;> rfl

/-- One character against another, before the matching goes on. -/
lemma compare_eq {next : Except Fault Bool} {rest : Bool} (goes_on : next = .ok rest) :
    (if c ≠ ch then pure false else next) = .ok (decide (c = ch) && rest) := by
  by_cases same : c = ch
  · rw [if_neg (not_not.mpr same), goes_on, decide_eq_true same, Bool.true_and]
  · rw [if_pos same, decide_eq_false same, Bool.false_and]
    rfl

/-- The rest of a string has no zero either. -/
lemma clean_drop (clean : 0 ∉ str) (i : Nat) : 0 ∉ str.drop i :=
  fun mem => clean (List.mem_of_mem_drop mem)

/-- The loop decides what `glob` does on the rests, in at most as many rounds as there are characters. -/
lemma matchLoop_eq {fuel s p : Nat} (clean : 0 ∉ str) (clean' : 0 ∉ pat) (le : s ≤ str.length)
    (le' : p ≤ pat.length) (enough : str.length + pat.length < fuel + s + p) :
    matchLoop signed fuel str pat s p = .ok (glob signed (pat.drop p) (str.drop s)) := by
  induction fuel generalizing str pat s p with
  | zero => omega
  | succ fuel ih =>
    rw [matchLoop]
    cases here : pat.drop p with
    | nil =>
      rw [read_nil here le', ok_bind, glob_nil]
      cases at_s : str.drop s with
      | nil =>
        rw [read_nil at_s le, ok_bind, if_pos rfl]
        rfl
      | cons ch rest =>
        rw [read_cons at_s, ok_bind, if_pos rfl, decide_eq_false (ne_zero_of_drop clean at_s)]
        rfl
    | cons c rest =>
      have nonzero := ne_zero_of_drop clean' here
      obtain ⟨here1, le1⟩ := drop_next here
      rw [read_cons here, ok_bind]
      by_cases many : c = 42
      · obtain ⟨ch, at_s⟩ := exists_read le
        rw [at_s, ok_bind, if_neg nonzero, if_neg (fun stop => stop.2 many), if_pos many, many]
        cases rest with
        | nil =>
          rw [read_nil here1 le1, ok_bind, if_pos rfl, glob_many_only]
          rfl
        | cons next rest =>
          rw [read_cons here1, ok_bind, if_neg (ne_zero_of_drop clean' here1), ← here1]
          refine starLoop_eq clean (fun i le_i le_len => ?_) le (by omega)
          -- the two strings are copied up to their terminating zeros
          rw [c_str_eq_self (clean_drop clean i), c_str_eq_self (clean_drop clean' (p + 1)),
            ih (clean_drop clean i) (clean_drop clean' (p + 1)) (Nat.zero_le _) (Nat.zero_le _)
              (by rw [List.length_drop, List.length_drop]; omega), List.drop_zero, List.drop_zero]
      cases at_s : str.drop s with
      | nil => rw [read_nil at_s le, ok_bind, if_neg nonzero, if_pos ⟨rfl, many⟩, glob_cons_nil many]; rfl
      | cons ch str' =>
        have nonzero' := ne_zero_of_drop clean at_s
        obtain ⟨next_s, le_s⟩ := drop_next at_s
        rw [read_cons at_s, ok_bind, if_neg nonzero, if_neg (fun stop => nonzero' stop.1), if_neg many]
        by_cases any : c = 63
        · rw [if_pos any, ih clean clean' le_s le1 (by omega), any, glob_any, here1, next_s]
        rw [if_neg any]
        by_cases bracket : c = 91
        · rw [if_pos bracket, bracket, glob_bracket, ← here1]
          refine brackets_eq fuel clean' (Nat.succ_pos p) le1 (by omega)
            (fun e => matchLoop signed fuel str pat (s + 1) (e + 1)) (fun pat => glob signed pat str')
            fun e le_e e_le => ?_
          rw [ih clean clean' le_s e_le (by omega), next_s]
        rw [if_neg bracket]
        by_cases escape : c = 92
        · rw [if_pos escape, escape]
          cases rest with
          | nil =>
            rw [read_nil here1 le1, ok_bind, if_pos rfl, glob_escape_nil]
            rfl
          | cons next rest =>
            obtain ⟨here2, le2⟩ := drop_next here1
            rw [read_cons here1, ok_bind, if_neg (ne_zero_of_drop clean' here1), glob_escape]
            exact compare_eq (by rw [ih clean clean' le_s le2 (by omega), here2, next_s])
        rw [if_neg escape, glob_literal many any bracket escape]
        exact compare_eq (by rw [ih clean clean' le_s le1 (by omega), here1, next_s])

/-- For every string and every pattern, `Match` returns after finitely many rounds, and every character that
    it reads is in one of the two strings or the zero that terminates it. -/
theorem match_terminates (signed : Bool) (tolower : UInt8 → UInt8) (parseStr pattern : ByteString)
    (caseSensitive : Bool) : ∃ b, ∀ more,
      match_ signed tolower (parseStr.length + pattern.length + 1 + more) parseStr pattern caseSensitive =
        .ok b := by
  refine ⟨_, fun more => matchLoop_eq (zero_not_mem_c_str _) (zero_not_mem_c_str _) (Nat.zero_le _)
    (Nat.zero_le _) ?_⟩
  have str_le := length_c_str_le (if caseSensitive then parseStr else toLowerCase tolower parseStr)
  have pat_le := length_c_str_le (if caseSensitive then pattern else toLowerCase tolower pattern)
  have lower (str : ByteString) :
      (if caseSensitive then str else toLowerCase tolower str).length = str.length := by
    split
    next => rfl
    next => exact List.length_map _
  rw [lower] at str_le pat_le
  omega

/-! ## The language -/

def itemText : Item UInt8 → ByteString
  | .one x => [x]
  | .range x y => [x, 45, y]

def ItemProper : Item UInt8 → Prop
  | .one x => x ≠ 93 ∧ x ≠ 45
  | .range x y => (x ≠ 93 ∧ x ≠ 45) ∧ y ≠ 93 ∧ y ≠ 45

/-- `pat` is the text of the pattern that consists of these pieces. -/
inductive WellFormed : List (Piece UInt8) → ByteString → Prop
  | nil : WellFormed [] []
  | ordinary {x pieces pat} (ordinary : x ∉ ([92, 63, 42, 91] : ByteString)) (rest : WellFormed pieces pat) :
    WellFormed (.literal x :: pieces) (x :: pat)
  | escaped {x pieces pat} (rest : WellFormed pieces pat) : WellFormed (.literal x :: pieces) (92 :: x :: pat)
  | any {pieces pat} (rest : WellFormed pieces pat) : WellFormed (.any :: pieces) (63 :: pat)
  | many {pieces pat} (rest : WellFormed pieces pat) : WellFormed (.many :: pieces) (42 :: pat)
  | bracket {items pieces pat} (nonempty : items ≠ []) (proper : ∀ item ∈ items, ItemProper item)
    (rest : WellFormed pieces pat) :
    WellFormed (.bracket items :: pieces) (91 :: (items.flatMap itemText ++ 93 :: pat))

variable {items : List (Item UInt8)} {pieces : List (Piece UInt8)} {x y next : UInt8}

/-- The character stands in the bracket. -/
lemma scan_found (closed : ch ≠ 93) : scan signed ch (ch :: rest) = some (ch :: rest) := by
  rw [scan.eq_def]
  dsimp only
  rw [if_neg closed, if_pos rfl]

/-- Another character of the bracket is passed. -/
lemma scan_one (closed : x ≠ 93) (other : x ≠ ch) (no_range : next ≠ 45) :
    scan signed ch (x :: next :: rest) = scan signed ch (next :: rest) := by
  rw [scan.eq_def]
  dsimp only
  rw [if_neg closed, if_neg other, if_neg no_range]

/-- A range of the bracket is tried both ways. -/
lemma scan_range (closed : x ≠ 93) (other : x ≠ ch) : scan signed ch (x :: 45 :: y :: rest) =
    if char signed x ≤ char signed ch ∧ char signed ch ≤ char signed y ∨
        char signed ch ≤ char signed x ∧ char signed y ≤ char signed ch then some (x :: 45 :: y :: rest)
    else scan signed ch rest := by
  rw [scan.eq_def]
  dsimp only
  rw [if_neg closed, if_neg other, if_pos rfl]

/-- The first closing bracket ends the items. -/
lemma skip_items (proper : ∀ item ∈ items, ItemProper item) (pat : ByteString) :
    skip (items.flatMap itemText ++ 93 :: pat) = pat := by
  have open_ : ∀ c ∈ items.flatMap itemText, c ≠ 93 := by
    intro c mem
    obtain ⟨item, listed, mem⟩ := List.mem_flatMap.mp mem
    have item_proper := proper item listed
    cases item with
    | one x =>
      obtain rfl := List.mem_singleton.mp mem
      exact item_proper.1
    | range x y =>
      simp only [itemText, List.mem_cons, List.not_mem_nil, or_false] at mem
      obtain rfl | rfl | rfl := mem
      · exact item_proper.1.1
      · decide
      · exact item_proper.2.1
  rw [skip, List.dropWhile_append_of_pos (by simpa using open_), List.dropWhile_cons_of_neg (by simp),
    List.tail_cons]

/-- The items start with no minus. -/
lemma items_head (proper : ∀ item ∈ items, ItemProper item) (pat : ByteString) :
    ∃ next rest, items.flatMap itemText ++ 93 :: pat = next :: rest ∧ next ≠ 45 := by
  cases items with
  | nil => exact ⟨93, pat, rfl, by decide⟩
  | cons item items =>
    have item_proper := proper item List.mem_cons_self
    cases item with
    | one x => exact ⟨x, _, rfl, item_proper.2⟩
    | range x y => exact ⟨x, _, rfl, item_proper.1.2⟩

/-- The search stops at an item that covers the character. -/
lemma scan_items (signed : Bool) (ch : UInt8) (proper : ∀ item ∈ items, ItemProper item) (pat : ByteString) :
    (∃ item ∈ items, item.Covers (char signed) ch) ∧
        (scan signed ch (items.flatMap itemText ++ 93 :: pat)).map skip = some pat ∨
      (¬ ∃ item ∈ items, item.Covers (char signed) ch) ∧
        scan signed ch (items.flatMap itemText ++ 93 :: pat) = none := by
  induction items with
  | nil => exact .inr ⟨by simp, by rw [List.flatMap_nil, List.nil_append, scan.eq_def]; rfl⟩
  | cons item items ih =>
    have item_proper := proper item List.mem_cons_self
    have items_proper : ∀ item ∈ items, ItemProper item :=
      fun item mem => proper item (List.mem_cons_of_mem _ mem)
    have stop := skip_items proper pat
    obtain ⟨next, rest, tail, no_range⟩ := items_head items_proper pat
    have ih := ih items_proper
    rw [List.flatMap_cons, List.append_assoc] at stop ⊢
    rw [List.exists_mem_cons_iff]
    cases item with
    | one x =>
      rw [itemText, List.singleton_append] at stop ⊢
      by_cases same : x = ch
      · subst same
        rw [scan_found item_proper.1, Option.map_some, stop]
        exact .inl ⟨.inl rfl, rfl⟩
      · have uncovered : ¬ (Item.one x).Covers (char signed) ch := fun e => same e.symm
        rw [or_iff_right uncovered]
        rw [tail] at ih ⊢
        rw [scan_one item_proper.1 same no_range]
        exact ih
    | range x y =>
      change skip (x :: 45 :: y :: (items.flatMap itemText ++ 93 :: pat)) = pat at stop
      change
        _ ∧ (scan signed ch (x :: 45 :: y :: (items.flatMap itemText ++ 93 :: pat))).map skip = some pat ∨
        _ ∧ scan signed ch (x :: 45 :: y :: (items.flatMap itemText ++ 93 :: pat)) = none
      by_cases same : x = ch
      · subst same
        rw [scan_found item_proper.1.1, Option.map_some, stop]
        exact .inl ⟨.inl covers_left, rfl⟩
      rw [scan_range item_proper.1.1 same]
      have between : char signed x ≤ char signed ch ∧ char signed ch ≤ char signed y ∨
          char signed ch ≤ char signed x ∧ char signed y ≤ char signed ch ↔
            (Item.range x y).Covers (char signed) ch := or_congr_right and_comm
      by_cases covers : (Item.range x y).Covers (char signed) ch
      · rw [if_pos (between.mpr covers), Option.map_some, stop]
        exact .inl ⟨.inl covers, rfl⟩
      · rw [if_neg (mt between.mp covers), or_iff_right covers]
        exact ih

/-- For a well-formed pattern the language is decided. -/
lemma glob_iff (well_formed : WellFormed pieces pat) :
    glob signed pat str = true ↔ str ∈ language (char signed) pieces := by
  induction well_formed generalizing str with
  | nil => rw [glob_nil, List.isEmpty_iff, mem_nil]
  | ordinary ordinary rest ih =>
    simp only [List.mem_cons, List.not_mem_nil, or_false, not_or] at ordinary
    obtain ⟨escape, any, many, bracket⟩ := ordinary
    cases str with
    | nil => simp [glob_cons_nil many, nil_not_mem]
    | cons ch str =>
      rw [glob_literal many any bracket escape, Bool.and_eq_true, decide_eq_true_iff, ih, cons_mem_literal]
  | escaped rest ih =>
    cases str with
    | nil => simp [glob_cons_nil, nil_not_mem]
    | cons ch str =>
      rw [glob_escape, Bool.and_eq_true, decide_eq_true_iff, ih, cons_mem_literal]
  | any rest ih =>
    cases str with
    | nil => simp [glob_cons_nil, nil_not_mem]
    | cons ch str => rw [glob_any, ih, cons_mem_any]
  | many rest ih =>
    induction str with
    | nil => rw [glob_many_nil, nil_mem_many, ih]
    | cons ch str ih_str => rw [glob_many_cons, Bool.or_eq_true, cons_mem_many, ih, ih_str]
  | @bracket items pieces pat nonempty proper rest ih =>
    cases str with
    | nil => simp [glob_cons_nil, nil_not_mem]
    | cons ch str =>
      rw [glob_bracket, cons_mem_bracket]
      rcases scan_items signed ch proper pat with ⟨covers, found⟩ | ⟨uncovered, lost⟩
      · obtain ⟨rest, e, skipped⟩ := Option.map_eq_some_iff.mp found
        rw [e, Option.elim_some, skipped, ih, and_iff_right covers]
      · rw [lost, Option.elim_none]
        exact iff_of_false Bool.false_ne_true fun mem => uncovered mem.1

/-- For every string and every well-formed pattern without zero bytes, `Match` returns, and it returns true if
    and only if the string is in the language of the pattern. -/
theorem match_iff (signed : Bool) (tolower : UInt8 → UInt8) (well_formed : WellFormed pieces pat)
    (no_zero : 0 ∉ str) (no_zero' : 0 ∉ pat) (more : Nat) :
    ∃ b, match_ signed tolower (str.length + pat.length + 1 + more) str pat true = .ok b ∧
      (b = true ↔ str ∈ language (char signed) pieces) := by
  refine ⟨glob signed pat str, ?_, glob_iff well_formed⟩
  rw [match_, if_pos rfl, if_pos rfl, c_str_eq_self no_zero, c_str_eq_self no_zero',
    matchLoop_eq no_zero no_zero' (Nat.zero_le _) (Nat.zero_le _) (by omega)]
  rfl

/-- The range may be written in either order. -/
theorem match_iff_range :
    match_ true id (2 + 6 + 1 + 0) [97, 120] [91, 98, 45, 97, 93, 42] true = .ok true ∧
      [97, 120] ∈ language (char true) [.bracket [.range 98 97], .many] := by
  have well_formed : WellFormed [.bracket [.range 98 97], .many] [91, 98, 45, 97, 93, 42] :=
    .bracket (by simp) (by simp [ItemProper]) (.many .nil)
  obtain ⟨b, e, iff⟩ : ∃ b, match_ true id (2 + 6 + 1 + 0) [97, 120] [91, 98, 45, 97, 93, 42] true = .ok b ∧
      (b = true ↔ [97, 120] ∈ language (char true) [.bracket [.range 98 97], .many]) :=
    match_iff true id well_formed (by decide) (by decide) 0
  have yes : match_ true id (2 + 6 + 1 + 0) [97, 120] [91, 98, 45, 97, 93, 42] true = .ok true := by rfl
  exact ⟨yes, iff.mp (Except.ok.inj (e.symm.trans yes))⟩

/-- A zero byte is an ordinary character, but ends the pattern: the empty string is matched. -/
theorem match_zero :
    WellFormed [.literal 0] [0] ∧
      (∀ signed tolower more, match_ signed tolower (more + 1) [] [0] true = .ok true) ∧
      ∀ signed, [] ∉ language (char signed) [.literal 0] :=
  ⟨.ordinary (by decide) .nil, fun _ _ _ => rfl, fun _ => nil_not_mem (by simp)⟩

end StringUtil
end XLN
