import Mathlib.Algebra.Ring.Nat
import Mathlib.Tactic.Common

/-!
# Download tasks

`Client/Task.h`, `Task.cpp` and the places of `DownloaderEventCurl.cpp` that write into a task. `CURLcode` is
a number, 0 for `CURLE_OK`. What curl tells about a finished transfer comes as one `Report`. `transfer_iff`
says when the fields of a task that fulfils its promise are right.
-/

namespace XLN

/-- What `DownloaderEventCurl` writes of a `CurlDownloadTask`. -/
structure CurlDownloadTask where
  m_ErrorCode : Int32
  m_CurlErrbuf : String
  m_ErrorString : String
  m_ResBodyLength : UInt64

/-- The result of a transfer with the text of `curl_easy_strerror` for it, and `CURLINFO_RESPONSE_CODE` if
    it can be read. -/
structure Report where
  result : Nat
  strerror : Option String
  responseCode : Option Int64

def CURLE_OK : Nat := 0

namespace CurlDownloadTask

/-- The constructor; it does not set `m_ResBodyLength`. -/
def new (m_ResBodyLength : UInt64) : CurlDownloadTask :=
  { m_ErrorCode := 0
    m_CurlErrbuf := ""
    m_ErrorString := ""
    m_ResBodyLength := m_ResBodyLength }

/-- `bodyCallbackProc` with what it returns. -/
def bodyCallbackProc (task : CurlDownloadTask) (size count : UInt64) : CurlDownloadTask × UInt64 :=
  let totalSize := size * count
  ({ task with m_ResBodyLength := task.m_ResBodyLength + totalSize }, totalSize)

/-- What `CheckSocket` writes before it sets the promise. -/
def finish (task : CurlDownloadTask) (report : Report) : CurlDownloadTask :=
  if report.result ≠ CURLE_OK then
    { task with
      m_ErrorCode := -1
      m_ErrorString :=
        if task.m_CurlErrbuf ≠ "" then task.m_CurlErrbuf
        else report.strerror.getD "Curl Unknown Error" }
  else
    match report.responseCode with
    | none => { task with m_ErrorCode := -1, m_ErrorString := "Curl Internal Error" }
    | some httpResponseCode =>
      if httpResponseCode < 300 ∧ httpResponseCode ≥ 200 then { task with m_ErrorCode := 0 }
      else
        { task with
          m_ErrorCode := httpResponseCode.toInt32
          m_ErrorString := "Http Error:" ++ toString httpResponseCode.toInt32 }

/-- What curl writes into a task during its transfer. -/
inductive Write where
  | body (size count : UInt64)
  | errorBuffer (text : String)
  deriving DecidableEq

def receive (task : CurlDownloadTask) : Write → CurlDownloadTask
  | .body size count => (task.bodyCallbackProc size count).1
  | .errorBuffer text => { task with m_CurlErrbuf := text }

/-- A task from its constructor to its promise. -/
def transfer (m_ResBodyLength : UInt64) (writes : List Write) (report : Report) : CurlDownloadTask :=
  (writes.foldl receive (new m_ResBodyLength)).finish report

/-- The size of a chunk. -/
def Write.size : Write → Nat
  | .body size count => size.toNat * count.toNat
  | .errorBuffer _ => 0

/-- The total size of the chunks. -/
def totalSize (writes : List Write) : Nat :=
  (writes.map Write.size).sum

/-- The result is `CURLE_OK` and the response code could be read and is from 200 to 299. -/
def Succeeded (report : Report) : Prop :=
  report.result = CURLE_OK ∧ ∃ code, report.responseCode = some code ∧ 200 ≤ code.toInt ∧ code.toInt ≤ 299

/-- The fields are right: the length is the total size of the chunks, and the error code is 0 exactly if the
    transfer has succeeded. -/
structure Right (task : CurlDownloadTask) (writes : List Write) (report : Report) : Prop where
  length : task.m_ResBodyLength.toNat = totalSize writes
  error : task.m_ErrorCode = 0 ↔ Succeeded report

/-- The response code of a transfer without an error is not one that an `int` takes for 0. -/
def Telling (report : Report) : Prop :=
  report.result = CURLE_OK → ∀ code, report.responseCode = some code → code.toInt32 ≠ 0

variable {task : CurlDownloadTask} {m_ResBodyLength : UInt64} {writes : List Write} {report : Report}

/-- What is received adds to the length. -/
lemma receive_length (task : CurlDownloadTask) (w : Write) :
    (task.receive w).m_ResBodyLength.toNat = (task.m_ResBodyLength.toNat + w.size) % 2 ^ 64 := by
  cases w with
  | body size count =>
    show (task.m_ResBodyLength + size * count).toNat = _
    rw [UInt64.toNat_add, UInt64.toNat_mul, Write.size, Nat.add_mod_mod]
  | errorBuffer text => exact (Nat.mod_eq_of_lt task.m_ResBodyLength.toNat_lt).symm

/-- The chunks are added up, modulo `2 ^ 64`, on what the member holds at first. -/
lemma foldl_receive_length (task : CurlDownloadTask) (writes : List Write) :
    (writes.foldl receive task).m_ResBodyLength.toNat =
      (task.m_ResBodyLength.toNat + totalSize writes) % 2 ^ 64 := by
  induction writes generalizing task with
  | nil => exact (Nat.mod_eq_of_lt task.m_ResBodyLength.toNat_lt).symm
  | cons w writes ih =>
    rw [List.foldl_cons, ih, receive_length, totalSize, totalSize, List.map_cons, List.sum_cons,
      Nat.mod_add_mod, Nat.add_assoc]

/-- The report leaves the length. -/
lemma finish_length (task : CurlDownloadTask) (report : Report) :
    (task.finish report).m_ResBodyLength = task.m_ResBodyLength := by
  unfold finish
  split
  · rfl
  · split
    · rfl
    · split <;> rfl

/-- The length is that of what was written if it began at zero and did not wrap around. -/
lemma length_iff (m_ResBodyLength : UInt64) (writes : List Write) (report : Report) :
    (transfer m_ResBodyLength writes report).m_ResBodyLength.toNat = totalSize writes ↔
      m_ResBodyLength = 0 ∧ totalSize writes < 2 ^ 64 := by
  have lt := m_ResBodyLength.toNat_lt
  rw [transfer, finish_length, foldl_receive_length, new, ← UInt64.toNat_inj]
  show (m_ResBodyLength.toNat + totalSize writes) % 2 ^ 64 = totalSize writes ↔
    m_ResBodyLength.toNat = 0 ∧ totalSize writes < 2 ^ 64
  constructor
  · intro same
    have small : totalSize writes < 2 ^ 64 := by
      rw [← same]
      exact Nat.mod_lt _ (by decide)
    omega
  · rintro ⟨zero, small⟩
    rw [zero, Nat.zero_add, Nat.mod_eq_of_lt small]

/-- The codes of success. -/
lemma inRange_iff (code : Int64) : code < 300 ∧ code ≥ 200 ↔ 200 ≤ code.toInt ∧ code.toInt ≤ 299 := by
  have low : (200 : Int64).toInt = 200 := by decide
  have high : (300 : Int64).toInt = 300 := by decide
  rw [ge_iff_le, Int64.lt_iff_toInt_lt, Int64.le_iff_toInt_le, low, high]
  omega

/-- A code of success is none of those. -/
lemma toInt32_ne_zero {code : Int64} (low : 200 ≤ code.toInt) (high : code.toInt ≤ 299) :
    code.toInt32 ≠ 0 := by
  rw [Ne, ← Int32.toInt_inj, Int64.toInt_toInt32]
  have same : code.toInt.bmod (2 ^ 32) = code.toInt := by
    rw [Int.bmod_eq_of_le] <;> omega
  rw [same]
  show ¬ code.toInt = 0
  omega

/-- The error code of a finished transfer. -/
lemma finish_error (task : CurlDownloadTask) (report : Report) :
    (task.finish report).m_ErrorCode = 0 ↔ Succeeded report ∨ ¬ Telling report := by
  have failure : ¬ (-1 : Int32) = 0 := by decide
  unfold finish
  split
  next failed =>
    refine iff_of_false failure ?_
    rintro (succeeded | untelling)
    · exact failed succeeded.1
    · exact untelling fun ok => absurd ok failed
  next ok =>
    have ok := not_not.mp ok
    split
    next unread =>
      refine iff_of_false failure ?_
      rintro (⟨-, code, read, -⟩ | untelling)
      · cases unread.symm.trans read
      · refine untelling fun _ code read => ?_
        cases unread.symm.trans read
    next code read =>
      split
      next range => exact iff_of_true rfl (.inl ⟨ok, code, read, (inRange_iff code).mp range⟩)
      next outside =>
        constructor
        · exact fun zero => .inr fun telling => telling ok code read zero
        · rintro (⟨-, code', read', range⟩ | untelling)
          · cases read.symm.trans read'
            exact absurd ((inRange_iff code).mpr range) outside
          · by_contra nonzero
            refine untelling fun _ code' read' => ?_
            cases read.symm.trans read'
            exact nonzero

/-- The error code tells success exactly if the report is telling. -/
lemma error_iff (m_ResBodyLength : UInt64) (writes : List Write) (report : Report) :
    ((transfer m_ResBodyLength writes report).m_ErrorCode = 0 ↔ Succeeded report) ↔ Telling report := by
  rw [transfer, finish_error]
  constructor
  · intro same ok code read zero
    have untelling : ¬ Telling report := fun telling => telling ok code read zero
    obtain ⟨-, code', read', low, high⟩ := same.mp (.inr untelling)
    cases read.symm.trans read'
    exact toInt32_ne_zero low high zero
  · intro telling
    exact or_iff_left fun untelling => untelling telling

/-- A task that fulfils its promise is right if and only if its length was 0 from the start, the chunks are
    less than `2 ^ 64` bytes in all, and the response code of a transfer without an error is not one that an
    `int` takes for 0. -/
theorem transfer_iff (m_ResBodyLength : UInt64) (writes : List Write) (report : Report) :
    Right (transfer m_ResBodyLength writes report) writes report ↔
      (m_ResBodyLength = 0 ∧ totalSize writes < 2 ^ 64) ∧ Telling report := by
  rw [← length_iff m_ResBodyLength writes report, ← error_iff m_ResBodyLength writes report]
  exact ⟨fun right => ⟨right.length, right.error⟩, fun ⟨length, error⟩ => ⟨length, error⟩⟩

/-- The member holds 7 when the task is made, and a transfer without a response code ends without an error. -/
theorem transfer_wrong :
    ¬ Right (transfer 7 [.body 1 5] ⟨CURLE_OK, none, some 200⟩) [.body 1 5] ⟨CURLE_OK, none, some 200⟩ ∧
      ¬ Right (transfer 0 [.body 1 5] ⟨CURLE_OK, none, some 0⟩) [.body 1 5] ⟨CURLE_OK, none, some 0⟩ := by
  constructor
  · exact fun right => absurd right.length (by decide)
  · intro right
    have zero : (transfer 0 [.body 1 5] ⟨CURLE_OK, none, some 0⟩).m_ErrorCode = 0 := by decide
    obtain ⟨-, code, read, low, -⟩ := right.error.mp zero
    cases read
    exact absurd low (by decide)

end CurlDownloadTask
end XLN
