import XLN.DebugHelper.Memory.AllocHashTable
import XLN.Lib.Transition

/-!
# The tracking allocator

`Core/DebugHelper/Memory/MemTrackAllocator.cpp`: `MemTrackAllocator` keeps a record of every allocation
that another allocator makes for it, and counts their number and size. What that allocator and
`XLN_ExternalAlloc` return comes from outside. Released records are chained in a list by `m_Next` and used
again.

`Records` is a sequence of operations on the records alone; in all its states the table stands for the map
of the records that were inserted and not removed (`represents_of_run`).
-/

namespace XLN
open Transition LinkedList

/-- `strcpy` into an array of `capacity` characters; gives `none` when it writes past the end. -/
def strcpy (capacity : Nat) (src : ByteString) : Option ByteString :=
  if (c_str src).length < capacity then some (c_str src) else none

/-- `MemTrackAllocator`, without the allocator it tracks. -/
structure MemTrackAllocator (ν : Type) where
  m_AllocHT : AllocHashTable ν
  m_FreeInfo : Option ν
  m_lAllocatedSize : UInt64
  m_lAllocatedCount : UInt64
  m_lPeakSize : UInt64
  m_lPeakCount : UInt64

namespace MemTrackAllocator

variable {ν : Type}

def XLN_ALLOCINFO_FILENAME_LEN : Nat := 255

def XLN_ALLOCINFO_FUNCNAME_LEN : Nat := 255

/-- The constructor, with arbitrary contents of the storage for the records. -/
def new (raw : ν → AllocateInfo ν) : MemTrackAllocator ν :=
  { m_AllocHT := { m_AllocInfo := fun _ => none, m_Size := 2 ^ 12, infos := raw }
    m_FreeInfo := none
    m_lAllocatedSize := 0
    m_lAllocatedCount := 0
    m_lPeakSize := 0
    m_lPeakCount := 0 }

/-- `MemTrackAllocator::GetNextFreeInfo`. -/
def getNextFreeInfo (m : MemTrackAllocator ν) : Option ν × MemTrackAllocator ν :=
  match m.m_FreeInfo with
  | some ret => (some ret, { m with m_FreeInfo := m.m_AllocHT.next ret })
  | none => (none, m)

/-- `GetNextFreeInfo` writes `m_FreeInfo` only. -/
lemma getNextFreeInfo_snd (m : MemTrackAllocator ν) :
    ∃ first, m.getNextFreeInfo.2 = { m with m_FreeInfo := first } := by
  rw [getNextFreeInfo]
  split <;> exact ⟨_, rfl⟩

variable [DecidableEq ν]

/-- `MemTrackAllocator::AddFreeInfo`. -/
def addFreeInfo (info : ν) (m : MemTrackAllocator ν) : MemTrackAllocator ν :=
  { m with
    m_AllocHT := (m.m_AllocHT.setNext info m.m_FreeInfo).setPrev info none
    m_FreeInfo := some info }

/-- Stores to the members of a record. -/
def write (info : ν) (contents : AllocateInfo ν) (m : MemTrackAllocator ν) : MemTrackAllocator ν :=
  { m with
    m_AllocHT := { m.m_AllocHT with infos := Function.update m.m_AllocHT.infos info contents } }

/-- The part of `Allocate` that fills in the new record. -/
def fill (newInfo : ν) (allocatedAddr : Ptr) (stSizeInBytes : UInt64) (file func : ByteString)
    (line : Int32) (m : MemTrackAllocator ν) : Option (MemTrackAllocator ν) := do
  let file ← strcpy XLN_ALLOCINFO_FILENAME_LEN file
  let func ← strcpy XLN_ALLOCINFO_FUNCNAME_LEN func
  return m.write newInfo
    { m_Addr := allocatedAddr
      m_Srcfile := file
      m_SrcFunc := func
      m_SrcLine := line
      m_AllocSize := stSizeInBytes.toUInt32.toInt32
      m_Next := none
      m_Prev := none }

/-- `m_lAllocatedSize.fetch_add` and the increment of `m_lAllocatedCount`. -/
def addAllocated (stSizeInBytes : UInt64) (m : MemTrackAllocator ν) : MemTrackAllocator ν :=
  { m with
    m_lAllocatedSize := m.m_lAllocatedSize + stSizeInBytes
    m_lAllocatedCount := m.m_lAllocatedCount + 1 }

/-- The two assignments of `std::max` to the peaks. -/
def raisePeaks (m : MemTrackAllocator ν) : MemTrackAllocator ν :=
  { m with
    m_lPeakSize := max m.m_lPeakSize m.m_lAllocatedSize
    m_lPeakCount := max m.m_lPeakCount m.m_lAllocatedCount }

/-- `m_lAllocatedSize.fetch_sub` and the decrement of `m_lAllocatedCount`. The argument of `fetch_sub` is
    converted from `Int32` to `UInt64`. -/
def subAllocated (m_AllocSize : Int32) (m : MemTrackAllocator ν) : MemTrackAllocator ν :=
  { m with
    m_lAllocatedSize := m.m_lAllocatedSize - m_AllocSize.toInt64.toUInt64
    m_lAllocatedCount := m.m_lAllocatedCount - 1 }

/-- The record that `Allocate` uses, when `XLN_ExternalAlloc` would return `externalAlloc`. -/
def newInfo (externalAlloc : Option ν) (m : MemTrackAllocator ν) : Option ν :=
  m.getNextFreeInfo.1.or externalAlloc

/-- `MemTrackAllocator::Allocate`, where `allocatedAddr` is what the tracked allocator returns and
    `externalAlloc` what `XLN_ExternalAlloc` does. -/
def allocate (ndebug : Bool) (fuel : Nat) (allocatedAddr : Option Ptr) (externalAlloc : Option ν)
    (stSizeInBytes : UInt64) (file func : ByteString) (line : Int32) (m : MemTrackAllocator ν) :
    Option (Option Ptr × MemTrackAllocator ν) :=
  match allocatedAddr with
  | none => some (none, m)
  | some allocatedAddr =>
    match m.newInfo externalAlloc with
    | none => some (some allocatedAddr, m)
    | some newInfo => do
      let m ← m.getNextFreeInfo.2.fill newInfo allocatedAddr stSizeInBytes file func line
      let m := (m.addAllocated stSizeInBytes).raisePeaks
      let m_AllocHT ← m.m_AllocHT.insert ndebug fuel newInfo
      return (some allocatedAddr, { m with m_AllocHT })

/-- `MemTrackAllocator::DeAllocate`, after the call of the tracked allocator. -/
def deAllocate (fuel : Nat) (p : Option Ptr) (m : MemTrackAllocator ν) :
    Option (MemTrackAllocator ν) :=
  match p with
  | none => some m
  | some p => do
    let (freeInfo, m_AllocHT) ← m.m_AllocHT.remove fuel p
    let m := { m with m_AllocHT }
    match freeInfo with
    | none => some m
    | some freeInfo =>
      some ((m.subAllocated (m.m_AllocHT.infos freeInfo).m_AllocSize).addFreeInfo freeInfo)

/-- `MemTrackAllocator::GetAllocatedSize`. -/
def getAllocatedSize (m : MemTrackAllocator ν) : UInt64 := m.m_lAllocatedSize

/-- `MemTrackAllocator::GetAllocatedCount`. -/
def getAllocatedCount (m : MemTrackAllocator ν) : UInt64 := m.m_lAllocatedCount

/-- `MemTrackAllocator::GetPeakSize`. -/
def getPeakSize (m : MemTrackAllocator ν) : UInt64 := m.m_lPeakSize

/-- `MemTrackAllocator::GetPeakCount`. -/
def getPeakCount (m : MemTrackAllocator ν) : UInt64 := m.m_lPeakCount

end MemTrackAllocator

/-! ## What the calls do -/

namespace MemTrackAllocator

variable {ν : Type} [DecidableEq ν] {m m' : MemTrackAllocator ν} {n : ν} {addr : Ptr}
  {size : UInt64} {file func : ByteString} {line : Int32} {externalAlloc : Option ν}
  {ndebug : Bool} {fuel fuel' : Nat} {r : Option Ptr}

/-- The contents of a record that was filled in. -/
structure Filled (info : AllocateInfo ν) (addr : Ptr) (size : UInt64) (line : Int32) : Prop where
  m_Addr : info.m_Addr = addr
  m_SrcLine : info.m_SrcLine = line
  m_AllocSize : info.m_AllocSize = size.toUInt32.toInt32
  m_Next : info.m_Next = none
  m_Prev : info.m_Prev = none

/-- `Allocate` fills the record with what it was called with. -/
lemma fill_cases (res : m.fill n addr size file func line = some m') :
    ∃ contents, Filled contents addr size line ∧ m' = m.write n contents := by
  simp only [fill, Option.bind_eq_bind, Option.bind_eq_some_iff] at res
  obtain ⟨file', -, func', -, e⟩ := res
  exact ⟨_, ⟨rfl, rfl, rfl, rfl, rfl⟩, (Option.some.inj e).symm⟩

/-- Texts that fit are filled in. -/
lemma exists_fill (m : MemTrackAllocator ν) (n : ν) (addr : Ptr) (size : UInt64) (line : Int32)
    (fits : (c_str file).length < XLN_ALLOCINFO_FILENAME_LEN)
    (fits' : (c_str func).length < XLN_ALLOCINFO_FUNCNAME_LEN) :
    ∃ m', m.fill n addr size file func line = some m' := by
  rw [fill, strcpy, strcpy, if_pos fits, if_pos fits']
  exact ⟨_, rfl⟩

/-- A record that is written holds it. -/
@[simp] lemma write_infos (contents : AllocateInfo ν) :
    (m.write n contents).m_AllocHT.infos n = contents :=
  Function.update_self ..

/-- `AddFreeInfo` leaves the data. -/
@[simp] lemma addFreeInfo_data (k : ν) :
    ((m.addFreeInfo n).m_AllocHT.infos k).data = (m.m_AllocHT.infos k).data := by
  simp [addFreeInfo]

/-- `Allocate` when a record could be had. -/
lemma allocate_cases (new : m.newInfo externalAlloc = some n)
    (res : m.allocate ndebug fuel (some addr) externalAlloc size file func line = some (r, m')) :
    ∃ contents t', Filled contents addr size line ∧
      (m.getNextFreeInfo.2.write n contents).m_AllocHT.insert ndebug fuel n = some t' ∧
      m' = { ((m.getNextFreeInfo.2.write n contents).addAllocated size).raisePeaks with
        m_AllocHT := t' } := by
  simp only [allocate, new, Option.bind_eq_bind, Option.bind_eq_some_iff] at res
  obtain ⟨m1, fill, t', inserted, e⟩ := res
  obtain ⟨contents, filled, rfl⟩ := fill_cases fill
  cases e
  exact ⟨contents, t', filled, inserted, rfl⟩

/-- A tracked allocation takes a record, fills it and puts it into the table. -/
lemma allocate_eq_some {m1 : MemTrackAllocator ν} {t' : AllocHashTable ν}
    (new : m.newInfo externalAlloc = some n)
    (fill : m.getNextFreeInfo.2.fill n addr size file func line = some m1)
    (inserted : m1.m_AllocHT.insert ndebug fuel n = some t') :
    m.allocate ndebug fuel (some addr) externalAlloc size file func line =
      some (some addr, { (m1.addAllocated size).raisePeaks with m_AllocHT := t' }) := by
  have inserted' : (m1.addAllocated size).raisePeaks.m_AllocHT.insert ndebug fuel n = some t' := inserted
  rw [allocate, new]
  simp only [fill, Option.bind_eq_bind, Option.bind_some, inserted']
  rfl

/-- Without a record the allocation is not tracked. -/
lemma allocate_untracked (new : m.newInfo externalAlloc = none) :
    m.allocate ndebug fuel (some addr) externalAlloc size file func line = some (some addr, m) := by
  rw [allocate, new]

/-- More fuel does not change the result of `Allocate`. -/
lemma allocate_mono {allocatedAddr : Option Ptr} {res : Option Ptr × MemTrackAllocator ν}
    (e : m.allocate ndebug fuel allocatedAddr externalAlloc size file func line = some res)
    (le : fuel ≤ fuel') :
    m.allocate ndebug fuel' allocatedAddr externalAlloc size file func line = some res := by
  unfold allocate at e ⊢
  split at e
  · exact e
  · split at e
    · exact e
    · simp only [Option.bind_eq_bind, Option.bind_eq_some_iff] at e ⊢
      obtain ⟨m1, filled, t', inserted, e⟩ := e
      exact ⟨m1, filled, t', AllocHashTable.insert_mono inserted le, e⟩

/-- The result of `Allocate` does not depend on the fuel. -/
lemma allocate_unique {allocatedAddr : Option Ptr} {res res' : Option Ptr × MemTrackAllocator ν}
    (e : m.allocate ndebug fuel allocatedAddr externalAlloc size file func line = some res)
    (e' : m.allocate ndebug fuel' allocatedAddr externalAlloc size file func line = some res') :
    res = res' := by
  rcases Nat.le_total fuel fuel' with le | le
  · exact Option.some.inj ((allocate_mono e le).symm.trans e')
  · exact Option.some.inj (e.symm.trans (allocate_mono e' le))

/-- `DeAllocate` takes the record out of the table and puts it to the free ones. -/
lemma deAllocate_cases (res : m.deAllocate fuel (some addr) = some m') :
    ∃ freeInfo t', m.m_AllocHT.remove fuel addr = some (freeInfo, t') ∧
      match freeInfo with
      | none => m' = { m with m_AllocHT := t' }
      | some n => m' =
          ({ m with m_AllocHT := t' }.subAllocated (t'.infos n).m_AllocSize).addFreeInfo n := by
  simp only [deAllocate, Option.bind_eq_bind, Option.bind_eq_some_iff] at res
  obtain ⟨⟨freeInfo, t'⟩, removed, e⟩ := res
  refine ⟨freeInfo, t', removed, ?_⟩
  cases freeInfo <;> exact (Option.some.inj e).symm

/-- More fuel does not change the result of `DeAllocate`. -/
lemma deAllocate_mono {p : Option Ptr} (e : m.deAllocate fuel p = some m') (le : fuel ≤ fuel') :
    m.deAllocate fuel' p = some m' := by
  unfold deAllocate at e ⊢
  split at e
  · exact e
  · simp only [Option.bind_eq_bind, Option.bind_eq_some_iff] at e ⊢
    obtain ⟨found, removed, e⟩ := e
    exact ⟨found, AllocHashTable.remove_mono removed le, e⟩

/-- The result of `DeAllocate` does not depend on the fuel. -/
lemma deAllocate_unique {p : Option Ptr} {m1 m2 : MemTrackAllocator ν}
    (e : m.deAllocate fuel p = some m1) (e' : m.deAllocate fuel' p = some m2) : m1 = m2 := by
  rcases Nat.le_total fuel fuel' with le | le
  · exact Option.some.inj ((deAllocate_mono e le).symm.trans e')
  · exact Option.some.inj (e.symm.trans (deAllocate_mono e' le))

end MemTrackAllocator

/-! ## The records -/

/-- The table stands for `live` and the list of free records is `free`; no record is in both. -/
structure MemTrackAllocator.Sound {ν : Type} (m : MemTrackAllocator ν) (live : Ptr → Option ν)
    (free : List ν) : Prop where
  table : ∃ chain, m.m_AllocHT.Linked chain live
  free_chain : Chain m.m_AllocHT.next m.m_FreeInfo free
  free_out : ∀ n ∈ free, ∀ a, live a ≠ some n

/-- The record is neither in the table nor free. -/
def Held {ν : Type} (live : Ptr → Option ν) (free : List ν) (n : ν) : Prop :=
  n ∉ free ∧ ∀ a, live a ≠ some n

namespace MemTrackAllocator.Sound

variable {ν : Type} {m m' : MemTrackAllocator ν} {live : Ptr → Option ν} {free : List ν} {n : ν}
  {addr : Ptr} {ndebug : Bool} {fuel : Nat} {t' : AllocHashTable ν}

/-- A new allocator has no records. -/
lemma new (raw : ν → AllocateInfo ν) : (new raw).Sound (fun _ => none) [] := by
  refine ⟨⟨fun _ => [], ?_⟩, .nil, by simp⟩
  constructor
  · exact ⟨fun _ _ => .nil, fun _ => List.nodup_nil, by simp, by simp⟩
  · exact fun _ => .nil
  · exact Nat.two_pow_pos 12

/-- `GetNextFreeInfo` takes the first free record. -/
lemma getNextFreeInfo (h : m.Sound live free) :
    m.getNextFreeInfo.1 = free.head? ∧ m.getNextFreeInfo.2.Sound live free.tail ∧
      m.getNextFreeInfo.2.m_AllocHT = m.m_AllocHT := by
  have links := h.free_chain
  generalize e : m.m_FreeInfo = first at links
  cases links with
  | nil =>
    rw [MemTrackAllocator.getNextFreeInfo, e]
    exact ⟨rfl, h, rfl⟩
  | @cons n rest links =>
    rw [MemTrackAllocator.getNextFreeInfo, e]
    exact ⟨rfl, ⟨h.table, links, fun k hk => h.free_out k (List.mem_cons_of_mem n hk)⟩, rfl⟩

/-- The counters play no part. -/
lemma counters (h : m.Sound live free) (table : m'.m_AllocHT = m.m_AllocHT)
    (first : m'.m_FreeInfo = m.m_FreeInfo) : m'.Sound live free := by
  constructor
  · exact table ▸ h.table
  · exact table ▸ first ▸ h.free_chain
  · exact h.free_out

/-- The record that `Allocate` uses comes from the list or from outside, and is held. -/
lemma held_of_newInfo (h : m.Sound live free) {externalAlloc : Option ν}
    (external : ∀ k, externalAlloc = some k → Held live free k)
    (new : m.newInfo externalAlloc = some n) :
    (n ∈ free ∨ externalAlloc = some n) ∧ Held live free.tail n := by
  rw [MemTrackAllocator.newInfo, h.getNextFreeInfo.1] at new
  cases free with
  | nil => exact ⟨.inr new, external n new⟩
  | cons k rest =>
    cases new
    exact ⟨.inl List.mem_cons_self, (List.nodup_cons.mp h.free_chain.nodup).1,
      h.free_out n List.mem_cons_self⟩

/-- Another table with the same free records. -/
lemma of_table (h : m.Sound live free) {live' : Ptr → Option ν}
    (table : ∃ chain, t'.Linked chain live')
    (same : ∀ n ∈ free, t'.infos n = m.m_AllocHT.infos n)
    (out : ∀ n ∈ free, ∀ a, live' a ≠ some n) : { m with m_AllocHT := t' }.Sound live' free :=
  ⟨table, h.free_chain.congr fun n hn => congrArg AllocateInfo.m_Next (same n hn), out⟩

/-- The record that `Remove` returns is held. -/
lemma held_of_removed (h : m.Sound live free) (hn : live addr = some n) :
    Held (Function.update live addr none) free n := by
  obtain ⟨chain, linked⟩ := h.table
  refine ⟨fun hm => h.free_out n hm addr hn, fun a ha => ?_⟩
  by_cases e : a = addr
  · rw [e, Function.update_self] at ha
    cases ha
  · rw [Function.update_of_ne e] at ha
    exact e ((linked.addr_eq a n ha).symm.trans (linked.addr_eq addr n hn))

variable [DecidableEq ν]

/-- A held record may be written. -/
lemma write (h : m.Sound live free) (held : Held live free n) (contents : AllocateInfo ν) :
    (m.write n contents).Sound live free := by
  have same : ∀ k, k ≠ n → (m.write n contents).m_AllocHT.infos k = m.m_AllocHT.infos k :=
    fun k ne => Function.update_of_ne ne ..
  obtain ⟨chain, linked⟩ := h.table
  refine ⟨⟨chain, linked.outside rfl rfl fun a k hk => same k ?_⟩, ?_, h.free_out⟩
  · rintro rfl
    exact held.2 a hk
  · refine h.free_chain.congr fun k hk => congrArg AllocateInfo.m_Next (same k ?_)
    rintro rfl
    exact held.1 hk

/-- `AddFreeInfo` puts a held record in front. -/
lemma addFreeInfo (h : m.Sound live free) (held : Held live free n) :
    (m.addFreeInfo n).Sound live (n :: free) := by
  have same : ∀ k, k ≠ n → (m.addFreeInfo n).m_AllocHT.infos k = m.m_AllocHT.infos k :=
    fun k ne => (AllocHashTable.setPrev_infos_of_ne ne).trans (AllocHashTable.setNext_infos_of_ne ne)
  obtain ⟨chain, linked⟩ := h.table
  refine ⟨⟨chain, linked.outside rfl rfl fun a k hk => same k ?_⟩, ?_, ?_⟩
  · rintro rfl
    exact held.2 a hk
  · simp only [MemTrackAllocator.addFreeInfo, AllocHashTable.setPrev_next, AllocHashTable.setNext_next]
    exact h.free_chain.push held.1
  · intro k hk a
    rcases List.mem_cons.mp hk with rfl | hk
    · exact held.2 a
    · exact h.free_out k hk a

/-- `Insert` of a held record whose address is not in the table. -/
lemma insert (h : m.Sound live free) (held : Held live free n)
    (fresh : live (m.m_AllocHT.infos n).m_Addr = none)
    (res : m.m_AllocHT.insert ndebug fuel n = some t') :
    { m with m_AllocHT := t' }.Sound
        (Function.update live (m.m_AllocHT.infos n).m_Addr (some n)) free ∧
      AllocHashTable.Keeps (Function.update live (m.m_AllocHT.infos n).m_Addr (some n))
        m.m_AllocHT t' := by
  obtain ⟨-, -, -, rfl⟩ := AllocHashTable.insert_eq_some_iff.mp res
  obtain ⟨chain, linked⟩ := h.table
  have keeps := linked.link_keeps fresh
  have out : ∀ k ∈ free, ∀ a,
      Function.update live (m.m_AllocHT.infos n).m_Addr (some n) a ≠ some k := by
    intro k hk a e
    by_cases ea : a = (m.m_AllocHT.infos n).m_Addr
    · rw [ea, Function.update_self] at e
      cases e
      exact held.1 hk
    · rw [Function.update_of_ne ea] at e
      exact h.free_out k hk a e
  exact ⟨h.of_table (linked.link fresh held.2) (fun k hk => keeps.outside k (out k hk)) out, keeps⟩

/-- `Remove` returns the record of the address. -/
lemma remove (h : m.Sound live free) {r : Option ν}
    (res : m.m_AllocHT.remove fuel addr = some (r, t')) :
    r = live addr ∧ { m with m_AllocHT := t' }.Sound (Function.update live addr none) free ∧
      AllocHashTable.Keeps live m.m_AllocHT t' := by
  obtain ⟨chain, linked⟩ := h.table
  obtain ⟨e, table, keeps⟩ := linked.remove_cases res
  refine ⟨e, h.of_table table (fun k hk => keeps.outside k (h.free_out k hk)) ?_, keeps⟩
  intro k hk a e
  by_cases ea : a = addr
  · rw [ea, Function.update_self] at e
    cases e
  · rw [Function.update_of_ne ea] at e
    exact h.free_out k hk a e

/-- `Allocate` returns when the texts fit into the record. -/
lemma exists_allocate (h : m.Sound live free) (ndebug : Bool) (fresh : live addr = none)
    {externalAlloc : Option ν} (external : ∀ k, externalAlloc = some k → Held live free k)
    (size : UInt64) (line : Int32) {file func : ByteString}
    (fits : (c_str file).length < XLN_ALLOCINFO_FILENAME_LEN)
    (fits' : (c_str func).length < XLN_ALLOCINFO_FUNCNAME_LEN) :
    ∃ fuel m', m.allocate ndebug fuel (some addr) externalAlloc size file func line =
      some (some addr, m') := by
  cases new : m.newInfo externalAlloc with
  | none => exact ⟨0, m, MemTrackAllocator.allocate_untracked new⟩
  | some n =>
    obtain ⟨-, held⟩ := h.held_of_newInfo external new
    obtain ⟨m1, fill⟩ := exists_fill m.getNextFreeInfo.2 n addr size line fits fits'
    obtain ⟨contents, filled, rfl⟩ := fill_cases fill
    have written := h.getNextFreeInfo.2.1.write held contents
    have addr_n : ((m.getNextFreeInfo.2.write n contents).m_AllocHT.infos n).m_Addr = addr := by
      rw [write_infos, filled.m_Addr]
    obtain ⟨chain, linked⟩ := written.table
    refine ⟨_, _, MemTrackAllocator.allocate_eq_some new fill (linked.insert_eq_some ?_ ?_ ?_
      (Nat.lt_succ_self _))⟩
    · rw [addr_n, fresh]
    · rw [write_infos, filled.m_Next]
    · rw [write_infos, filled.m_Prev]

/-- `DeAllocate` returns. -/
lemma exists_deAllocate (h : m.Sound live free) (addr : Ptr) :
    ∃ fuel m', m.deAllocate fuel (some addr) = some m' := by
  obtain ⟨chain, linked⟩ := h.table
  obtain ⟨t', removed, -⟩ := linked.remove (Nat.le_refl (chain (m.m_AllocHT.getHash addr)).length)
  refine ⟨(chain (m.m_AllocHT.getHash addr)).length, ?_⟩
  rw [deAllocate, removed]
  cases live addr <;> exact ⟨_, rfl⟩

end MemTrackAllocator.Sound

/-! ## Operations on the records -/

/-- The records, with the map of those that were inserted and not removed and the list of those that were
    given to `AddFreeInfo` and not taken back. -/
structure Records (ν : Type) where
  allocator : MemTrackAllocator ν
  live : Ptr → Option ν
  free : List ν

namespace Records

variable {ν : Type}

inductive Call (ν : Type) where
  | insert (n : ν)
  | remove (addr : Ptr)
  | addFreeInfo (n : ν)
  | getNextFreeInfo
  | write (n : ν) (contents : AllocateInfo ν)

/-- The table. -/
def table (s : Records ν) : AllocHashTable ν := s.allocator.m_AllocHT

/-- The state after the constructor. -/
def new (raw : ν → AllocateInfo ν) : Records ν :=
  { allocator := .new raw, live := fun _ => none, free := [] }

variable [DecidableEq ν]

/-- `Insert` may be called with a held record whose links are null and whose address is not in the table. -/
structure CanInsert (s : Records ν) (n : ν) : Prop where
  held : Held s.live s.free n
  next_null : (s.table.infos n).m_Next = none
  prev_null : (s.table.infos n).m_Prev = none
  fresh : s.live (s.table.infos n).m_Addr = none

/-- One call. -/
inductive Step (ndebug : Bool) : Records ν → Call ν → Records ν → Prop where
  | insert {s fuel n t'} :
    CanInsert s n →
    s.table.insert ndebug fuel n = some t' →
    Step ndebug s (.insert n)
      { s with
        allocator := { s.allocator with m_AllocHT := t' }
        live := Function.update s.live (s.table.infos n).m_Addr (some n) }
  | remove {s fuel addr r t'} :
    s.table.remove fuel addr = some (r, t') →
    Step ndebug s (.remove addr)
      { s with
        allocator := { s.allocator with m_AllocHT := t' }
        live := Function.update s.live addr none }
  | addFreeInfo {s n} :
    Held s.live s.free n →
    Step ndebug s (.addFreeInfo n)
      { s with allocator := s.allocator.addFreeInfo n, free := n :: s.free }
  | getNextFreeInfo {s r m'} :
    s.allocator.getNextFreeInfo = (r, m') →
    Step ndebug s .getNextFreeInfo
      { s with
        allocator := m'
        free := match r with
          | some n => s.free.erase n
          | none => s.free }
  | write {s n contents} :
    Held s.live s.free n →
    Step ndebug s (.write n contents) { s with allocator := s.allocator.write n contents }

variable {ndebug : Bool} {s s' : Records ν} {a : Call ν}

/-- A step keeps the allocator sound. -/
lemma sound_step (h : s.allocator.Sound s.live s.free) (st : Step ndebug s a s') :
    s'.allocator.Sound s'.live s'.free := by
  cases st with
  | insert can res => exact (h.insert can.held can.fresh res).1
  | remove res => exact (h.remove res).2.1
  | addFreeInfo held => exact h.addFreeInfo held
  | @getNextFreeInfo r m' res =>
    obtain ⟨first, sound, -⟩ := h.getNextFreeInfo
    rw [res] at first sound
    cases e : s.free with
    | nil =>
      rw [e] at first sound
      cases first
      exact sound
    | cons n rest =>
      rw [e] at first sound
      cases first
      simpa using sound
  | write held => exact h.write held _

/-- Whatever has been inserted, removed and used again: every bucket is a finite chain, the nodes of the
    chains are those that were inserted and not removed, each once and in the bucket of its address, and
    the next `Remove` or `Insert` keeps it so and returns the node of the address. -/
theorem represents_of_run {raw : ν → AllocateInfo ν} {l : List (Call ν)}
    (run : Run (Step ndebug) (new raw) l s) :
    (∃ chain, s.table.Represents chain s.live) ∧
    (∀ addr, ∃ k, ∀ fuel ≥ k, ∃ t', s.table.remove fuel addr = some (s.live addr, t') ∧
      ∃ chain, t'.Represents chain (Function.update s.live addr none)) ∧
    (∀ n, CanInsert s n → ∃ k, ∀ fuel ≥ k, ∃ t', s.table.insert ndebug fuel n = some t' ∧
      ∃ chain, t'.Represents chain
        (Function.update s.live (s.table.infos n).m_Addr (some n))) := by
  have sound : s.allocator.Sound s.live s.free :=
    run.invariant (MemTrackAllocator.Sound.new raw) sound_step
  obtain ⟨chain, linked⟩ := sound.table
  refine ⟨⟨chain, linked.toRepresents⟩, fun addr => ?_, fun n can => ?_⟩
  · refine ⟨(chain (s.table.getHash addr)).length, fun fuel enough => ?_⟩
    obtain ⟨t', res, ⟨chain', linked'⟩, -⟩ := linked.remove enough
    exact ⟨t', res, chain', linked'.toRepresents⟩
  · refine ⟨(chain (s.table.getHash (s.table.infos n).m_Addr)).length + 1, fun fuel enough => ?_⟩
    obtain ⟨chain', linked'⟩ := linked.link can.fresh can.held.2
    exact ⟨_, linked.insert_eq_some can.fresh can.next_null can.prev_null enough, chain',
      linked'.toRepresents⟩

/-- The statement above after two records went into one bucket and the first of the bucket was removed,
    which leaves a stale back link in the other. -/
theorem represents_of_run_stale :
    let raw : Bool → AllocateInfo Bool := fun n =>
      { m_Addr := if n then 17 else 16
        m_Srcfile := [], m_SrcFunc := [], m_SrcLine := 0, m_AllocSize := 0
        m_Next := none, m_Prev := none }
    ∃ s, Run (Step true) (new raw) [.insert false, .insert true, .remove 17] s ∧
      (∃ chain, s.table.Represents chain s.live) ∧
      (∀ addr, ∃ k, ∀ fuel ≥ k, ∃ t', s.table.remove fuel addr = some (s.live addr, t') ∧
        ∃ chain, t'.Represents chain (Function.update s.live addr none)) ∧
      (∀ n, CanInsert s n → ∃ k, ∀ fuel ≥ k, ∃ t', s.table.insert true fuel n = some t' ∧
        ∃ chain, t'.Represents chain
          (Function.update s.live (s.table.infos n).m_Addr (some n))) := by
  intro raw
  let t1 := (new raw).table.link false
  let s1 : Records Bool :=
    { allocator := { (new raw).allocator with m_AllocHT := t1 }
      live := Function.update (fun _ => none) 16 (some false)
      free := [] }
  have can1 : CanInsert (new raw) false := ⟨⟨List.not_mem_nil, fun _ => nofun⟩, rfl, rfl, rfl⟩
  have insert1 : Step true (new raw) (.insert false) s1 := @Step.insert Bool _ true _ 1 false t1 can1 rfl
  have can2 : CanInsert s1 true := by
    refine ⟨⟨List.not_mem_nil, fun a e => ?_⟩, rfl, rfl, rfl⟩
    by_cases ea : a = 16
    · subst ea
      cases e
    · simp [s1, Function.update_of_ne ea] at e
  let s2 : Records Bool :=
    { s1 with
      allocator := { s1.allocator with m_AllocHT := s1.table.link true }
      live := Function.update s1.live 17 (some true) }
  have inserted : s1.table.insert true 2 true = some s2.table :=
    AllocHashTable.insert_eq_some_iff.mpr ⟨.inl rfl, .inl rfl, by decide, rfl⟩
  have insert2 : Step true s1 (.insert true) s2 := Step.insert can2 inserted
  obtain ⟨⟨r, t3⟩, removed⟩ : ∃ res, s2.table.remove 2 17 = some res :=
    Option.isSome_iff_exists.mp (by decide)
  have remove1 : Step true s2 (.remove 17) _ := Step.remove removed
  have run := ((Run.single insert1).snoc insert2).snoc remove1
  exact ⟨_, run, represents_of_run run⟩

end Records
end XLN
