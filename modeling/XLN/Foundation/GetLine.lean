import XLN.Foundation.ReadLine
import XLN.Utility.StringTool

/-!
# Getting lines as strings

`DataStream::GetLine` lets `ReadLine` fill the static buffer `s_TmpArea`, passing it the size of the stream
as the limit, and assigns the C string in it to the caller's string unless `ReadLine` has returned 0.
`getLines_iff` says when each call of a sequence gives the next line.
-/

namespace XLN
open Transition MemoryDataStream

def STREAM_TMP_SIZE : Nat := 1024

/-- A stream and the string variable that the calls of `GetLine` reuse. -/
structure LineReader where
  stream : MemoryDataStream
  retString : ByteString

/-- A call of `GetLine`, with the memory around `s_TmpArea` and behind the stream's buffer at that time. -/
structure GetLine where
  trimAfter : Bool
  s_TmpArea : Int → UInt8
  beyond : List UInt8

namespace GetLine

/-- The part of `GetLine` that is the same for every line. -/
def finish (call : GetLine) (retStr : ByteString) : ByteString :=
  if call.trimAfter then StringUtil.trim true true retStr else retStr

/-- `DataStream::GetLine`, with its return value. -/
def getLine (r : LineReader) (call : GetLine) : Option (Nat × LineReader) :=
  (r.stream.readLine call.s_TmpArea r.stream.m_Size [10] call.beyond).map fun res =>
    let (ret, s_TmpArea, stream) := res
    -- `ReadLine` has put a zero at index `ret`
    let retStr := if 0 < ret then c_str (piece ret s_TmpArea) else r.retString
    (ret, { stream, retString := call.finish retStr })

def step (r : LineReader) (call : GetLine) : Option LineReader :=
  (getLine r call).map Prod.snd

/-- The indexes of `s_TmpArea` that `ReadLine` stores to. -/
def stores (r : LineReader) (call : GetLine) : List Int :=
  let readCount := r.stream.readCount r.stream.m_Size [10] call.beyond
  (List.range readCount).map (fun (i : Nat) => (i : Int)) ++
    [lastIndex [10] readCount (r.stream.copied readCount call.s_TmpArea)]

/-- The next line of a text, without the newline at its end or the carriage return directly before that. -/
def nextLine (right : List UInt8) : List UInt8 :=
  if lineAhead right = right then right else trimCR (lineAhead right)

/-- What a call should do: there is a next line, the string is that line, trimmed if asked, the cursor is
    behind it, and nothing is stored outside of `s_TmpArea`. -/
structure Gets (r : LineReader) (call : GetLine) (r' : LineReader) : Prop where
  more : r.stream.rest ≠ []
  retString : r'.retString = call.finish (nextLine r.stream.rest)
  cursor : r'.stream.m_Pos = addr (r.stream.m_Pos + ((lineAhead r.stream.rest).length + 1))
  stores : ∀ i ∈ call.stores r, 0 ≤ i ∧ i < STREAM_TMP_SIZE

/-- The condition on a call. The line ahead has no zero byte and fits, and a carriage return at the end of
    the content is to be trimmed. Where nothing is left to be assigned, the string already is as it should
    be, and no carriage return stands in front of `s_TmpArea` when nothing at all is copied. -/
structure Sound (r : LineReader) (call : GetLine) : Prop where
  inside : r.stream.m_Data ≤ r.stream.m_Pos ∧ r.stream.m_Pos < r.stream.m_End
  no_zero : 0 ∉ lineAhead r.stream.rest
  fits : (lineAhead r.stream.rest).length < STREAM_TMP_SIZE ∨
    (lineAhead r.stream.rest).length = STREAM_TMP_SIZE ∧ (lineAhead r.stream.rest).getLast? = some 13
  before : lineAhead r.stream.rest = [] → call.s_TmpArea (-1) ≠ 13
  blank : trimCR (lineAhead r.stream.rest) = [] →
    call.finish r.retString = call.finish (nextLine r.stream.rest)
  ended : trimCR (lineAhead r.stream.rest) ≠ [] → lineAhead r.stream.rest = r.stream.rest →
    (lineAhead r.stream.rest).getLast? = some 13 → call.trimAfter = true

variable {r r' : LineReader} {call : GetLine} {line text right : List UInt8} {maxCount : Nat}

/-! ## One call -/

/-- A carriage return at the end does not matter to a line that is trimmed. -/
lemma trim_trimCR (line : ByteString) :
    StringUtil.trim true true (trimCR line) = StringUtil.trim true true line := by
  unfold trimCR
  split
  next cr =>
    obtain ⟨front, rfl⟩ := List.getLast?_eq_some_iff.mp cr
    rw [List.dropLast_concat, StringUtil.trim_eq_both, StringUtil.trim_eq_both,
      Trim.both_concat (by decide)]
  next => rfl

/-- With room enough, what a call copies ends at the first zero byte of the line ahead. -/
lemma lineBytes_eq (fits : right.length ≤ maxCount) :
    lineBytes maxCount [10] right = (lineAhead right).takeWhile fun c => c ≠ 0 := by
  have short := (List.takeWhile_prefix (l := right) fun c => decide (c ≠ 0 ∧ c ∉ c_str [10])).length_le
  rw [lineBytes, List.take_of_length_le (short.trans fits), lineAhead, List.takeWhile_takeWhile]
  have only : c_str [10] = [10] := by decide
  simp only [only, List.mem_singleton, decide_eq_true_eq]

/-- A line is cut at its first zero, if it has one. -/
lemma takeWhile_length_iff (line : List UInt8) :
    (line.takeWhile fun c => c ≠ 0).length = line.length ↔ 0 ∉ line := by
  constructor
  · intro length mem
    have all := (List.takeWhile_prefix (l := line) fun c => decide (c ≠ 0)).eq_of_length length
    rw [List.takeWhile_eq_self_iff] at all
    simpa using all 0 mem
  · intro no_zero
    rw [List.takeWhile_eq_self_iff.mpr]
    intro c mem
    rw [decide_eq_true_eq]
    rintro rfl
    exact no_zero mem

/-- A carriage return at the end is cut off. -/
lemma length_trimCR (line : List UInt8) :
    (trimCR line).length = if line.getLast? = some 13 then line.length - 1 else line.length := by
  unfold trimCR
  split
  next => rw [List.length_dropLast]
  next => rfl

/-- The stores of a call that copies the whole line ahead. -/
lemma stores_iff (inside : r.stream.InBuffer)
    (copied : lineBytes r.stream.m_Size [10] r.stream.rest = lineAhead r.stream.rest) :
    (∀ i ∈ call.stores r, 0 ≤ i ∧ i < STREAM_TMP_SIZE) ↔
      ¬ (lineAhead r.stream.rest = [] ∧ call.s_TmpArea (-1) = 13) ∧
        ((lineAhead r.stream.rest).length < STREAM_TMP_SIZE ∨
          (lineAhead r.stream.rest).length = STREAM_TMP_SIZE ∧
            (lineAhead r.stream.rest).getLast? = some 13) := by
  have index := lastIndex_line r.stream r.stream.m_Size call.s_TmpArea
  rw [stores, readCount_eq inside, index, copied]
  generalize lineAhead r.stream.rest = line
  have size : STREAM_TMP_SIZE = 1024 := rfl
  by_cases before : line = [] ∧ call.s_TmpArea (-1) = 13
  · rw [if_pos before]
    refine iff_of_false (fun h => ?_) fun h => h.1 before
    exact absurd (h (-1) (by simp)).1 (by decide)
  · rw [if_neg before, length_trimCR]
    have mem_stores : ∀ (last : Nat), (∀ i ∈ (List.range line.length).map (fun (i : Nat) => (i : Int)) ++
        [(last : Int)], 0 ≤ i ∧ i < STREAM_TMP_SIZE) ↔ line.length ≤ 1024 ∧ last < 1024 := by
      intro last
      simp only [List.mem_append, List.mem_map, List.mem_range, List.mem_singleton]
      constructor
      · intro h
        refine ⟨?_, by have := (h last (.inr rfl)).2; omega⟩
        by_contra long
        have := (h (1024 : Nat) (.inl ⟨1024, by omega, rfl⟩)).2
        omega
      · rintro ⟨copy, zero⟩ i (⟨j, lt, rfl⟩ | rfl) <;> omega
    rw [mem_stores]
    split
    next cr =>
      simp only [before, not_false_eq_true, true_and, cr, and_true]
      omega
    next ncr =>
      simp only [before, not_false_eq_true, true_and, ncr, and_false, or_false]
      omega

/-- What a call does, unless it puts a zero in front of `s_TmpArea`. -/
lemma exists_getLine (inside : r.stream.InBuffer) (call : GetLine) :
    let line := lineBytes r.stream.m_Size [10] r.stream.rest
    ∃ r', Exec step r call r' ∧ r'.stream.m_Pos = addr (r.stream.m_Pos + (line.length + 1)) ∧
      (¬ (line = [] ∧ call.s_TmpArea (-1) = 13) →
        r'.retString = call.finish (if trimCR line = [] then r.retString else trimCR line)) := by
  intro line
  obtain ⟨ret, tmp, s', e⟩ := exists_readLine inside call.s_TmpArea r.stream.m_Size [10] call.beyond
  obtain ⟨rfl, result⟩ := readLine_cases inside e
  have st : Exec step r call
      { stream := { r.stream with m_Pos := addr (r.stream.m_Pos + (line.length + 1)) }
        retString := call.finish (if 0 < ret then c_str (piece ret tmp) else r.retString) } := by
    rw [Exec, step, getLine, e]
    rfl
  refine ⟨_, st, rfl, fun before => ?_⟩
  obtain ⟨-, copy⟩ := result.resolve_left fun h => before ⟨h.1, h.2.1⟩
  have count : ret = (trimCR line).length := by
    rw [← copy]
    simp [piece]
  have no_zero : 0 ∉ trimCR line := fun mem =>
    (mem_lineBytes ((trimCR_sublist line).subset mem)).1 rfl
  rw [copy, c_str_eq_self no_zero, count]
  by_cases empty : trimCR line = []
  · rw [if_pos empty, empty]
    rfl
  · rw [if_neg empty, if_pos (List.length_pos_iff.mpr empty)]

/-- The end of a line that no newline follows. -/
lemma finish_trimCR_iff (call : GetLine) (line : List UInt8) :
    call.finish (trimCR line) = call.finish line ↔
      (line.getLast? = some 13 → call.trimAfter = true) := by
  unfold finish
  split
  next trim => simp [trim, trim_trimCR]
  next keep => simp [keep, trimCR_eq_self_iff]

/-- The string is the next line. -/
lemma finish_iff (call : GetLine) (retString : ByteString) (right : List UInt8) :
    call.finish (if trimCR (lineAhead right) = [] then retString else trimCR (lineAhead right)) =
        call.finish (nextLine right) ↔
      (trimCR (lineAhead right) = [] → call.finish retString = call.finish (nextLine right)) ∧
      (trimCR (lineAhead right) ≠ [] → lineAhead right = right → (lineAhead right).getLast? = some 13 →
        call.trimAfter = true) := by
  by_cases blank : trimCR (lineAhead right) = []
  · rw [if_pos blank]
    exact ⟨fun e => ⟨fun _ => e, fun h => absurd blank h⟩, fun h => h.1 blank⟩
  · rw [if_neg blank]
    by_cases unended : lineAhead right = right
    · have next : nextLine right = lineAhead right := by
        rw [nextLine, if_pos unended, unended]
      rw [next, finish_trimCR_iff]
      exact ⟨fun e => ⟨fun h => absurd h blank, fun _ _ => e⟩, fun h => h.2 blank unended⟩
    · have next : nextLine right = trimCR (lineAhead right) := if_neg unended
      rw [next]
      exact iff_of_true rfl ⟨fun h => absurd h blank, fun _ h => absurd h unended⟩

/-- The cursor is behind the line exactly if the line has been copied. -/
lemma cursor_iff (inside : r.stream.InBuffer) :
    addr (r.stream.m_Pos + ((lineBytes r.stream.m_Size [10] r.stream.rest).length + 1)) =
        addr (r.stream.m_Pos + ((lineAhead r.stream.rest).length + 1)) ↔
      lineBytes r.stream.m_Size [10] r.stream.rest = lineAhead r.stream.rest := by
  have len := rest_length inside
  have lt := r.stream.m_End_lt
  have fits : r.stream.rest.length ≤ r.stream.m_Size := by
    rw [MemoryDataStream.rest, List.length_drop, m_Size]
    omega
  have part : lineBytes r.stream.m_Size [10] r.stream.rest <+: lineAhead r.stream.rest := by
    rw [lineBytes_eq fits]
    exact List.takeWhile_prefix _
  have line : (lineAhead r.stream.rest).length ≤ r.stream.rest.length :=
    (List.takeWhile_prefix _).length_le
  have short := part.length_le
  have le := inside.2
  refine ⟨fun e => part.eq_of_length ?_, fun e => by rw [e]⟩
  simp only [addr] at e
  omega

/-- A call gets the next line if and only if it meets its condition. -/
lemma gets_iff (r : LineReader) (call : GetLine) :
    (∃ r', Exec step r call r' ∧ Gets r call r') ↔ Sound r call := by
  have size : ∀ (inside : r.stream.InBuffer), r.stream.rest ≠ [] ↔ r.stream.m_Pos < r.stream.m_End := by
    intro inside
    rw [← List.length_pos_iff, rest_length inside]
    omega
  have fits : r.stream.rest.length ≤ r.stream.m_Size := by
    rw [MemoryDataStream.rest, List.length_drop, m_Size]
    omega
  constructor
  · rintro ⟨r', st, more, retString, cursor, stores⟩
    have inside : r.stream.InBuffer := by
      simp only [Exec, step, getLine, Option.map_map, Option.map_eq_some_iff] at st
      obtain ⟨res, e, -⟩ := st
      exact inBuffer_of_readLine e
    obtain ⟨r1, st1, pos, string⟩ := exists_getLine inside call
    cases Exec.deterministic step st st1
    rw [pos, cursor_iff inside] at cursor
    have no_zero : 0 ∉ lineAhead r.stream.rest := by
      rw [← cursor]
      exact fun mem => (mem_lineBytes mem).1 rfl
    obtain ⟨before, room⟩ := (stores_iff inside cursor).mp stores
    rw [string (by rwa [cursor]), cursor, finish_iff] at retString
    exact ⟨⟨inside.1, (size inside).mp more⟩, no_zero, room, fun e cr => before ⟨e, cr⟩, retString.1,
      retString.2⟩
  · rintro ⟨⟨le, lt⟩, no_zero, room, before, blank, ended⟩
    have inside : r.stream.InBuffer := ⟨le, lt.le⟩
    have copied : lineBytes r.stream.m_Size [10] r.stream.rest = lineAhead r.stream.rest := by
      rw [lineBytes_eq fits]
      exact (List.takeWhile_prefix _).eq_of_length ((takeWhile_length_iff _).mpr no_zero)
    obtain ⟨r1, st, pos, string⟩ := exists_getLine inside call
    have front : ¬ (lineAhead r.stream.rest = [] ∧ call.s_TmpArea (-1) = 13) := fun h => before h.1 h.2
    refine ⟨r1, st, (size inside).mpr lt, ?_, ?_, (stores_iff inside copied).mpr ⟨front, room⟩⟩
    · rw [string (by rwa [copied]), copied, finish_iff]
      exact ⟨blank, ended⟩
    · rw [pos, copied]

/-- In a sequence of `GetLine` calls that reuse one string, on a stream of any size, every call gets the
    next line and stores nothing outside of `s_TmpArea`, if and only if every call meets its condition. -/
theorem getLines_iff (r : LineReader) (calls : List GetLine) :
    Meets (Exec step) (fun r call => ∃ r', Exec step r call r' ∧ Gets r call r') r calls ↔
      Meets (Exec step) Sound r calls := by
  unfold Meets
  simp only [gets_iff]

/-- A call without trimming, a text whose second line is empty, and one whose line is as long as
    `s_TmpArea`. -/
def plain : GetLine := ⟨false, fun _ => 0, []⟩

def emptyLine : LineReader := ⟨.new 16 [97, 10, 10, 98] (by decide), []⟩

def longLine : LineReader :=
  ⟨.new 16 (List.replicate STREAM_TMP_SIZE 97) (by rw [List.length_replicate]; decide), []⟩

/-- For the empty line the string keeps the line before it, the long one goes past `s_TmpArea`. -/
theorem getLines_wrong :
    (exec step emptyLine [plain, plain]).map LineReader.retString = some [97] ∧
      ¬ Meets (Exec step) (fun r call => ∃ r', Exec step r call r' ∧ Gets r call r')
        emptyLine [plain, plain] ∧
      ¬ Meets (Exec step) (fun r call => ∃ r', Exec step r call r' ∧ Gets r call r')
        longLine [plain] := by
  refine ⟨by decide, fun meets => ?_, fun meets => ?_⟩
  · have second : (exec step emptyLine [plain]).map (fun r => (r.stream.rest, r.retString)) =
        some ([10, 98], [97]) := by decide
    obtain ⟨r, run, value⟩ := run_of_map second
    obtain ⟨rest, retString⟩ := Prod.mk.inj value
    have blank := ((gets_iff _ _).mp (meets [plain] plain r List.prefix_rfl run)).blank
    rw [rest, retString] at blank
    exact absurd (blank (by decide)) (by decide)
  · have fits := ((gets_iff _ _).mp (meets [] plain _ List.prefix_rfl .nil)).fits
    have rest : longLine.stream.rest = List.replicate STREAM_TMP_SIZE 97 := (at_new 16 _ _).rest
    have inner : (10 : UInt8) ∉ List.replicate STREAM_TMP_SIZE (97 : UInt8) := fun mem =>
      absurd (List.eq_of_mem_replicate mem) (by decide)
    rw [rest, lineAhead_self inner, List.length_replicate, List.getLast?_replicate] at fits
    exact absurd fits (by decide)

end GetLine
end XLN
