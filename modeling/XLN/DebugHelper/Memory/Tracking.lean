import XLN.DebugHelper.Memory.MemTrackAllocator
import Mathlib.Data.List.Nodup
import Mathlib.Data.List.Perm.Subperm
import Mathlib.Data.UInt

/-!
# The counters of the tracking allocator

A `Tracking` is a sequential run of `Allocate` and `DeAllocate` calls, with the allocations that are live.
`Allocate` adds the size it was given, a `size_t`; `DeAllocate` subtracts the size in the record, an
`Int32`. The counters are right in exactly the runs that release no allocation whose size gets lost on
this way (`accurate_along_iff`).
-/

namespace XLN
open Transition LinkedList

/-- A live allocation that is tracked. -/
structure Allocation where
  addr : Ptr
  size : UInt64
  line : Int32
  deriving DecidableEq

/-- The table has one entry for each of the allocations, with its size and line. -/
structure Mirrors {ν : Type} (t : AllocHashTable ν) (live : Ptr → Option ν) (tracked : List Allocation) :
    Prop where
  entry : ∀ x ∈ tracked, ∃ n, live x.addr = some n ∧
    (t.infos n).m_AllocSize = x.size.toUInt32.toInt32 ∧ (t.infos n).m_SrcLine = x.line
  only : ∀ a n, live a = some n → ∃ x ∈ tracked, x.addr = a

namespace Mirrors

variable {ν : Type} {t t' : AllocHashTable ν} {live : Ptr → Option ν} {tracked : List Allocation}
  {n : ν} {addr : Ptr} {x : Allocation}

/-- Only the data of the records matters. -/
lemma congr (h : Mirrors t live tracked)
    (data : ∀ a n, live a = some n → (t'.infos n).data = (t.infos n).data) :
    Mirrors t' live tracked := by
  refine ⟨fun x hx => ?_, h.only⟩
  obtain ⟨n, hn, size, line⟩ := h.entry x hx
  have same := data x.addr n hn
  refine ⟨n, hn, ?_, ?_⟩
  · exact (congrArg AllocateInfo.m_AllocSize same).trans size
  · exact (congrArg AllocateInfo.m_SrcLine same).trans line

/-- A new entry. -/
lemma insert (h : Mirrors t live tracked) (fresh : live x.addr = none)
    (size : (t.infos n).m_AllocSize = x.size.toUInt32.toInt32)
    (line : (t.infos n).m_SrcLine = x.line) :
    Mirrors t (Function.update live x.addr (some n)) (x :: tracked) := by
  constructor
  · intro y hy
    rcases List.mem_cons.mp hy with rfl | hy
    · exact ⟨n, Function.update_self .., size, line⟩
    · obtain ⟨k, hk, rest⟩ := h.entry y hy
      refine ⟨k, ?_, rest⟩
      rw [Function.update_of_ne, hk]
      intro e
      rw [e, fresh] at hk
      cases hk
  · intro a k hk
    by_cases e : a = x.addr
    · exact ⟨x, List.mem_cons_self, e.symm⟩
    · rw [Function.update_of_ne e] at hk
      obtain ⟨y, hy, ey⟩ := h.only a k hk
      exact ⟨y, List.mem_cons_of_mem x hy, ey⟩

/-- An entry taken out. -/
lemma remove (h : Mirrors t live tracked) (addr : Ptr) :
    Mirrors t (Function.update live addr none)
      (tracked.filter fun x => x.addr ≠ addr) := by
  constructor
  · intro y hy
    rw [List.mem_filter, decide_eq_true_eq] at hy
    obtain ⟨k, hk, rest⟩ := h.entry y hy.1
    exact ⟨k, by rw [Function.update_of_ne hy.2, hk], rest⟩
  · intro a k hk
    by_cases e : a = addr
    · rw [e, Function.update_self] at hk
      cases hk
    · rw [Function.update_of_ne e] at hk
      obtain ⟨y, hy, rfl⟩ := h.only a k hk
      exact ⟨y, by simp [hy, e], rfl⟩

end Mirrors

/-! ## Runs of calls -/

/-- The allocator, the records that `XLN_ExternalAlloc` has made, the live allocations with and without a
    record, and the greatest values that `GetAllocatedSize` and `GetAllocatedCount` have had. -/
structure Tracking (ν : Type) where
  allocator : MemTrackAllocator ν
  nodes : List ν
  tracked : List Allocation
  untracked : List Ptr
  maxSize : UInt64
  maxCount : UInt64

namespace Tracking

variable {ν : Type}

/-- A call, with what the tracked allocator and `XLN_ExternalAlloc` return in it. -/
inductive Call (ν : Type) where
  | allocate (allocatedAddr : Option Ptr) (externalAlloc : Option ν) (stSizeInBytes : UInt64)
      (file func : ByteString) (line : Int32)
  | deAllocate (p : Ptr)

def new (raw : ν → AllocateInfo ν) : Tracking ν :=
  { allocator := .new raw
    nodes := []
    tracked := []
    untracked := []
    maxSize := 0
    maxCount := 0 }

/-- The live addresses. -/
def addresses (s : Tracking ν) : List Ptr :=
  s.tracked.map Allocation.addr ++ s.untracked

/-- The sum of the requested sizes of the live tracked allocations. -/
def liveSum (s : Tracking ν) : Nat :=
  (s.tracked.map fun x => x.size.toNat).sum

/-- What the tracked allocator may return: an address that is not in use. -/
def Fresh (s : Tracking ν) (addr : Ptr) : Prop :=
  0 < addr ∧ addr < 2 ^ 64 ∧ addr ∉ s.addresses

/-- A call has returned. -/
def returned (s : Tracking ν) (m' : MemTrackAllocator ν) : Tracking ν :=
  { s with
    allocator := m'
    maxSize := max s.maxSize m'.getAllocatedSize
    maxCount := max s.maxCount m'.getAllocatedCount }

/-- One call. The sum of the sizes stays below `2 ^ 64`, and only live pointers are released. -/
inductive Step [DecidableEq ν] (ndebug : Bool) : Tracking ν → Call ν → Tracking ν → Prop where
  | allocate_null {s externalAlloc size file func line fuel m'} :
    s.allocator.allocate ndebug fuel none externalAlloc size file func line = some (none, m') →
    Step ndebug s (.allocate none externalAlloc size file func line) (s.returned m')
  | allocate_untracked {s addr externalAlloc size file func line fuel m'} :
    s.Fresh addr →
    s.allocator.newInfo externalAlloc = none →
    s.allocator.allocate ndebug fuel (some addr) externalAlloc size file func line =
      some (some addr, m') →
    Step ndebug s (.allocate (some addr) externalAlloc size file func line)
      { s.returned m' with untracked := addr :: s.untracked }
  | allocate_tracked {s addr externalAlloc size file func line n fuel m'} :
    s.Fresh addr →
    (∀ k, externalAlloc = some k → k ∉ s.nodes) →
    s.allocator.newInfo externalAlloc = some n →
    s.liveSum + size.toNat < 2 ^ 64 →
    s.allocator.allocate ndebug fuel (some addr) externalAlloc size file func line =
      some (some addr, m') →
    Step ndebug s (.allocate (some addr) externalAlloc size file func line)
      { s.returned m' with
        nodes := n :: s.nodes
        tracked := ⟨addr, size, line⟩ :: s.tracked }
  | deAllocate {s p fuel m'} :
    p ∈ s.addresses →
    s.allocator.deAllocate fuel (some p) = some m' →
    Step ndebug s (.deAllocate p)
      { s.returned m' with
        tracked := s.tracked.filter fun x => x.addr ≠ p
        untracked := s.untracked.erase p }

/-- The counters are what they say. -/
structure Accurate (s : Tracking ν) : Prop where
  size : s.allocator.getAllocatedSize.toNat = s.liveSum
  count : s.allocator.getAllocatedCount.toNat = s.tracked.length
  peakSize : s.allocator.getPeakSize = s.maxSize
  peakCount : s.allocator.getPeakCount = s.maxCount

/-- The size survives the way through `Int32` back to `UInt64`. -/
def SizeKept (size : UInt64) : Prop :=
  size.toNat < 2 ^ 31 ∨ 2 ^ 64 - 2 ^ 31 ≤ size.toNat

/-- The call does not release an allocation whose size gets lost. -/
def Kept (s : Tracking ν) : Call ν → Prop
  | .allocate .. => True
  | .deAllocate p => ∀ x ∈ s.tracked, x.addr = p → SizeKept x.size

/-- The records and the live allocations belong together. -/
structure Consistent (s : Tracking ν) (live : Ptr → Option ν) (free : List ν) : Prop where
  sound : s.allocator.Sound live free
  mirrors : Mirrors s.allocator.m_AllocHT live s.tracked
  live_nodes : ∀ a n, live a = some n → n ∈ s.nodes
  free_nodes : ∀ n ∈ free, n ∈ s.nodes
  nodup : s.addresses.Nodup
  range : ∀ a ∈ s.addresses, 0 < a ∧ a < 2 ^ 64
  count : s.allocator.getAllocatedCount = UInt64.ofNat s.tracked.length
  maxSize : s.allocator.getAllocatedSize ≤ s.maxSize
  maxCount : s.allocator.getAllocatedCount ≤ s.maxCount

variable {s s' : Tracking ν} {a : Call ν} {m m' : MemTrackAllocator ν} {live : Ptr → Option ν}
  {free : List ν} {tracked : List Allocation} {ndebug : Bool} {fuel : Nat} {addr : Ptr} {x : Allocation}

/-- The two conversions, on the bits. -/
lemma toBitVec_converted (size : UInt64) :
    size.toUInt32.toInt32.toInt64.toUInt64.toBitVec = (size.toBitVec.setWidth 32).signExtend 64 :=
  rfl

/-- A size goes through `Int32` unchanged exactly when it is kept. -/
lemma sizeKept_iff {size : UInt64} :
    size.toUInt32.toInt32.toInt64.toUInt64 = size ↔ SizeKept size := by
  have lt := size.toNat_lt
  rw [← UInt64.toBitVec_inj, toBitVec_converted, ← BitVec.toNat_inj, BitVec.toNat_signExtend,
    BitVec.msb_eq_decide]
  simp only [BitVec.toNat_setWidth, UInt64.toNat_toBitVec, SizeKept]
  split
  next negative =>
    simp only [Nat.add_one_sub_one, decide_eq_true_eq] at negative
    omega
  next positive =>
    simp only [Nat.add_one_sub_one, decide_eq_true_eq, not_le] at positive
    omega

/-- The allocation at an address and all others. -/
lemma perm_filter (nodup : (tracked.map Allocation.addr).Nodup) (hx : x ∈ tracked) :
    tracked.Perm (x :: tracked.filter fun y => y.addr ≠ x.addr) := by
  have distinct : tracked.Nodup := nodup.of_map _
  refine (List.perm_ext_iff_of_nodup distinct ?_).mpr fun y => ?_
  · exact List.nodup_cons.mpr ⟨by simp, distinct.filter _⟩
  · simp only [List.mem_cons, List.mem_filter, decide_eq_true_eq]
    constructor
    · intro hy
      by_cases e : y.addr = x.addr
      · exact .inl (List.inj_on_of_nodup_map nodup hy hx e)
      · exact .inr ⟨hy, e⟩
    · rintro (rfl | hy)
      · exact hx
      · exact hy.1

/-- `DeAllocate` of a tracked allocation. -/
lemma deAllocate_tracked [DecidableEq ν] (h : m.Sound live free) (mirrors : Mirrors m.m_AllocHT live tracked)
    (hx : x ∈ tracked) (res : m.deAllocate fuel (some x.addr) = some m') :
    ∃ n, live x.addr = some n ∧ m'.Sound (Function.update live x.addr none) (n :: free) ∧
      Mirrors m'.m_AllocHT (Function.update live x.addr none)
        (tracked.filter fun y => y.addr ≠ x.addr) ∧
      m'.m_lAllocatedSize = m.m_lAllocatedSize - x.size.toUInt32.toInt32.toInt64.toUInt64 ∧
      m'.m_lAllocatedCount = m.m_lAllocatedCount - 1 ∧
      m'.m_lPeakSize = m.m_lPeakSize ∧ m'.m_lPeakCount = m.m_lPeakCount := by
  obtain ⟨n, hn, size, -⟩ := mirrors.entry x hx
  obtain ⟨freeInfo, t', removed, e⟩ := MemTrackAllocator.deAllocate_cases res
  obtain ⟨er, sound, keeps⟩ := h.remove removed
  rw [hn] at er
  subst er e
  refine ⟨n, hn, ?_, ?_, ?_, rfl, rfl, rfl⟩
  · have counted : ({ m with m_AllocHT := t' }.subAllocated (t'.infos n).m_AllocSize).Sound
        (Function.update live x.addr none) free := sound.counters rfl rfl
    exact counted.addFreeInfo (h.held_of_removed hn)
  · refine (mirrors.remove x.addr).congr fun _ k _ => ?_
    rw [MemTrackAllocator.addFreeInfo_data]
    exact keeps.data k
  · have same : (t'.infos n).data.m_AllocSize = (m.m_AllocHT.infos n).data.m_AllocSize :=
      congrArg AllocateInfo.m_AllocSize (keeps.data n)
    rw [← size]
    exact congrArg (fun z : Int32 => m.m_lAllocatedSize - z.toInt64.toUInt64) same

/-- `DeAllocate` of an address without a record. -/
lemma deAllocate_untracked [DecidableEq ν] (h : m.Sound live free) (mirrors : Mirrors m.m_AllocHT live tracked)
    (absent : ∀ x ∈ tracked, x.addr ≠ addr) (res : m.deAllocate fuel (some addr) = some m') :
    m'.Sound live free ∧ Mirrors m'.m_AllocHT live tracked ∧
      m'.m_lAllocatedSize = m.m_lAllocatedSize ∧ m'.m_lAllocatedCount = m.m_lAllocatedCount ∧
      m'.m_lPeakSize = m.m_lPeakSize ∧ m'.m_lPeakCount = m.m_lPeakCount := by
  have none : live addr = none := by
    cases e : live addr with
    | none => rfl
    | some n =>
      obtain ⟨x, hx, ex⟩ := mirrors.only addr n e
      exact absurd ex (absent x hx)
  obtain ⟨freeInfo, t', removed, e⟩ := MemTrackAllocator.deAllocate_cases res
  obtain ⟨er, sound, keeps⟩ := h.remove removed
  rw [none] at er
  subst er e
  rw [← none, Function.update_eq_self] at sound
  exact ⟨sound, mirrors.congr fun _ k _ => keeps.data k, rfl, rfl, rfl, rfl⟩

/-- `Allocate` of an address that gets a record. -/
lemma allocate_tracked [DecidableEq ν] (h : m.Sound live free) (mirrors : Mirrors m.m_AllocHT live tracked)
    (fresh : live addr = none) {externalAlloc : Option ν}
    (external : ∀ k, externalAlloc = some k → Held live free k) {n : ν}
    (new : m.newInfo externalAlloc = some n) {size : UInt64} {file func : ByteString} {line : Int32}
    (res : m.allocate ndebug fuel (some addr) externalAlloc size file func line =
      some (some addr, m')) :
    (n ∈ free ∨ externalAlloc = some n) ∧ m'.Sound (Function.update live addr (some n)) free.tail ∧
      Mirrors m'.m_AllocHT (Function.update live addr (some n)) (⟨addr, size, line⟩ :: tracked) ∧
      m'.m_lAllocatedSize = m.m_lAllocatedSize + size ∧
      m'.m_lAllocatedCount = m.m_lAllocatedCount + 1 ∧
      m'.m_lPeakSize = max m.m_lPeakSize (m.m_lAllocatedSize + size) ∧
      m'.m_lPeakCount = max m.m_lPeakCount (m.m_lAllocatedCount + 1) := by
  obtain ⟨contents, t', filled, inserted, rfl⟩ := MemTrackAllocator.allocate_cases new res
  obtain ⟨-, sound, table⟩ := h.getNextFreeInfo
  obtain ⟨origin, held⟩ := h.held_of_newInfo external new
  have written := sound.write held contents
  have addr_eq : ((m.getNextFreeInfo.2.write n contents).m_AllocHT.infos n).m_Addr = addr := by
    rw [MemTrackAllocator.write_infos, filled.m_Addr]
  obtain ⟨inserted, keeps⟩ := written.insert held (by rw [addr_eq, fresh]) inserted
  rw [addr_eq] at inserted keeps
  obtain ⟨_, taken⟩ := m.getNextFreeInfo_snd
  refine ⟨origin, inserted.counters rfl rfl, ?_, ?_⟩
  · have other : Mirrors (m.getNextFreeInfo.2.write n contents).m_AllocHT live tracked := by
      refine mirrors.congr fun a k hk => congrArg AllocateInfo.data ?_
      rw [← table]
      refine Function.update_of_ne ?_ ..
      rintro rfl
      exact held.2 a hk
    refine (other.insert (x := ⟨addr, size, line⟩) fresh ?_ ?_).congr fun _ k _ => keeps.data k
    · rw [MemTrackAllocator.write_infos, filled.m_AllocSize]
    · rw [MemTrackAllocator.write_infos, filled.m_SrcLine]
  · rw [taken]
    exact ⟨rfl, rfl, rfl, rfl⟩

/-! ## The counters -/

/-- The greater of two numbers is that of their values. -/
lemma toNat_max (a b : UInt64) : (max a b).toNat = max a.toNat b.toNat := by
  change (if a ≤ b then b else a).toNat = max a.toNat b.toNat
  split
  next le =>
    rw [UInt64.le_iff_toNat_le] at le
    omega
  next gt =>
    rw [UInt64.le_iff_toNat_le] at gt
    omega

/-- The greater is not below the second. -/
lemma le_max_right (a b : UInt64) : b ≤ max a b := by
  rw [UInt64.le_iff_toNat_le, toNat_max]
  exact Nat.le_max_right ..

/-- The greater is the first if the second is not above it. -/
lemma max_eq_left {a b : UInt64} (le : b ≤ a) : max a b = a := by
  rw [UInt64.le_iff_toNat_le] at le
  rw [← UInt64.toNat_inj, toNat_max]
  omega

/-- Distinct positive numbers below a bound are fewer than the bound. -/
lemma length_lt_of_nodup {l : List Nat} {b : Nat} (pos : 0 < b) (nodup : l.Nodup)
    (range : ∀ a ∈ l, 0 < a ∧ a < b) : l.length < b := by
  have sub : l ⊆ List.range' 1 (b - 1) := by
    intro a ha
    have bounds := range a ha
    rw [List.mem_range'_1]
    omega
  have le := (nodup.subperm sub).length_le
  rw [List.length_range'] at le
  omega

/-- There are fewer live allocations than addresses. -/
lemma Consistent.length_lt (h : Consistent s live free) : s.tracked.length < 2 ^ 64 := by
  have lt := length_lt_of_nodup (Nat.two_pow_pos 64) h.nodup h.range
  rw [addresses, List.length_append, List.length_map] at lt
  exact Nat.lt_of_le_of_lt (Nat.le_add_right ..) lt

/-- The count is the number of tracked allocations. -/
lemma Consistent.count_eq (h : Consistent s live free) :
    s.allocator.getAllocatedCount.toNat = s.tracked.length := by
  rw [h.count, UInt64.toNat_ofNat', Nat.mod_eq_of_lt h.length_lt]

/-- What a call does to the live tracked allocations and to the counters. -/
inductive Effect (s s' : Tracking ν) : Call ν → Prop where
  | none {a : Call ν} :
    Kept s a →
    s'.tracked = s.tracked →
    s'.allocator.m_lAllocatedSize = s.allocator.m_lAllocatedSize →
    s'.allocator.m_lAllocatedCount = s.allocator.m_lAllocatedCount →
    s'.allocator.m_lPeakSize = s.allocator.m_lPeakSize →
    s'.allocator.m_lPeakCount = s.allocator.m_lPeakCount →
    Effect s s' a
  | add {addr : Ptr} {externalAlloc size file func line} :
    s.liveSum + size.toNat < 2 ^ 64 →
    s'.tracked = ⟨addr, size, line⟩ :: s.tracked →
    s'.allocator.m_lAllocatedSize = s.allocator.m_lAllocatedSize + size →
    s'.allocator.m_lAllocatedCount = s.allocator.m_lAllocatedCount + 1 →
    s'.allocator.m_lPeakSize = max s.allocator.m_lPeakSize s'.allocator.m_lAllocatedSize →
    s'.allocator.m_lPeakCount = max s.allocator.m_lPeakCount s'.allocator.m_lAllocatedCount →
    Effect s s' (.allocate (some addr) externalAlloc size file func line)
  | sub {x : Allocation} :
    (Kept s (.deAllocate x.addr) ↔ SizeKept x.size) →
    s.tracked.Perm (x :: s'.tracked) →
    s'.allocator.m_lAllocatedSize =
      s.allocator.m_lAllocatedSize - x.size.toUInt32.toInt32.toInt64.toUInt64 →
    s'.allocator.m_lAllocatedCount = s.allocator.m_lAllocatedCount - 1 →
    s'.allocator.m_lPeakSize = s.allocator.m_lPeakSize →
    s'.allocator.m_lPeakCount = s.allocator.m_lPeakCount →
    Effect s s' (.deAllocate x.addr)

/-- The maxima are those of the values after the calls. -/
lemma step_max [DecidableEq ν] (st : Step ndebug s a s') :
    s'.maxSize = max s.maxSize s'.allocator.m_lAllocatedSize ∧
      s'.maxCount = max s.maxCount s'.allocator.m_lAllocatedCount := by
  cases st <;> exact ⟨rfl, rfl⟩

/-- The sum of the sizes does not depend on the order. -/
lemma liveSum_of_perm (perm : s.tracked.Perm (x :: s'.tracked)) :
    s.liveSum = x.size.toNat + s'.liveSum := by
  rw [liveSum, (perm.map _).sum_nat, List.map_cons, List.sum_cons, ← liveSum]

/-- A step whose effect keeps the counters right. -/
lemma Consistent.accurate_of_effect (h : Consistent s live free) {live' : Ptr → Option ν}
    {free' : List ν} (h' : Consistent s' live' free') (acc : Accurate s) (kept : Kept s a)
    (effect : Effect s s' a)
    (max : s'.maxSize = max s.maxSize s'.allocator.m_lAllocatedSize ∧
      s'.maxCount = max s.maxCount s'.allocator.m_lAllocatedCount) : Accurate s' := by
  have size := acc.size
  have peakSize := acc.peakSize
  have peakCount := acc.peakCount
  have maxSize := h.maxSize
  have maxCount := h.maxCount
  simp only [MemTrackAllocator.getAllocatedSize, MemTrackAllocator.getAllocatedCount,
    MemTrackAllocator.getPeakSize, MemTrackAllocator.getPeakCount] at size peakSize peakCount maxSize maxCount
  cases effect with
  | none _ tracked e1 e2 e3 e4 =>
    refine ⟨?_, h'.count_eq, ?_, ?_⟩
    · rw [liveSum, tracked, ← liveSum, ← size]
      exact congrArg UInt64.toNat e1
    · rw [max.1, e1, max_eq_left maxSize, ← peakSize]
      exact e3
    · rw [max.2, e2, max_eq_left maxCount, ← peakCount]
      exact e4
  | @add addr _ added _ _ line lt tracked e1 e2 e3 e4 =>
    refine ⟨?_, h'.count_eq, ?_, ?_⟩
    · have sum : s'.liveSum = added.toNat + s.liveSum := by
        rw [liveSum, tracked, List.map_cons, List.sum_cons, ← liveSum]
      refine (congrArg UInt64.toNat e1).trans ?_
      rw [UInt64.toNat_add]
      omega
    · rw [max.1, ← peakSize]
      exact e3
    · rw [max.2, ← peakCount]
      exact e4
  | sub same perm e1 e2 e3 e4 =>
    have sum := liveSum_of_perm perm
    have size' : s'.allocator.m_lAllocatedSize.toNat = s'.liveSum := by
      rw [e1, sizeKept_iff.mpr (same.mp kept), UInt64.toNat_sub]
      have lt := s.allocator.m_lAllocatedSize.toNat_lt
      omega
    have le : s'.allocator.m_lAllocatedSize ≤ s.maxSize := by
      rw [UInt64.le_iff_toNat_le] at maxSize ⊢
      omega
    have le' : s'.allocator.m_lAllocatedCount ≤ s.maxCount := by
      have count := h.count_eq
      have count' := h'.count_eq
      have length := perm.length_eq
      rw [List.length_cons] at length
      simp only [MemTrackAllocator.getAllocatedCount] at count count'
      rw [UInt64.le_iff_toNat_le] at maxCount ⊢
      omega
    refine ⟨size', h'.count_eq, ?_, ?_⟩
    · rw [max.1, max_eq_left le, ← peakSize]
      exact e3
    · rw [max.2, max_eq_left le', ← peakCount]
      exact e4

/-- A step that releases an allocation whose size got lost makes the size wrong. -/
lemma not_accurate_of_effect (acc : Accurate s) (lost : ¬ Kept s a) (effect : Effect s s' a) :
    ¬ Accurate s' := by
  intro acc'
  have size := acc.size
  have size' := acc'.size
  simp only [MemTrackAllocator.getAllocatedSize] at size size'
  cases effect with
  | none kept => exact lost kept
  | add => exact lost trivial
  | @sub x same perm e1 =>
    refine lost (same.mpr (sizeKept_iff.mp ?_))
    have sum := liveSum_of_perm perm
    have lt := s.allocator.m_lAllocatedSize.toNat_lt
    have lt' := x.size.toUInt32.toInt32.toInt64.toUInt64.toNat_lt
    rw [e1, UInt64.toNat_sub] at size'
    rw [← UInt64.toNat_inj]
    omega

/-! ## Steps -/

/-- A new allocator has no allocations. -/
lemma Consistent.new (raw : ν → AllocateInfo ν) : Consistent (new raw) (fun _ => none) [] where
  sound := .new raw
  mirrors := ⟨nofun, nofun⟩
  live_nodes := nofun
  free_nodes := nofun
  nodup := List.nodup_nil
  range := nofun
  count := rfl
  maxSize := UInt64.le_refl 0
  maxCount := UInt64.le_refl 0

/-- A fresh address has no record. -/
lemma Consistent.live_none (h : Consistent s live free) (fresh : s.Fresh addr) : live addr = none := by
  cases e : live addr with
  | none => rfl
  | some n =>
    obtain ⟨x, hx, rfl⟩ := h.mirrors.only addr n e
    exact absurd (List.mem_append_left _ (List.mem_map_of_mem hx)) fresh.2.2

/-- A record made by `XLN_ExternalAlloc` is held. -/
lemma Consistent.held_external (h : Consistent s live free) {n : ν} (new : n ∉ s.nodes) :
    Held live free n :=
  ⟨fun hn => new (h.free_nodes n hn), fun a hn => new (h.live_nodes a n hn)⟩

/-- An allocation that is not tracked leaves the records. -/
lemma Consistent.allocate_untracked (h : Consistent s live free) (fresh : s.Fresh addr) :
    Consistent { s.returned s.allocator with untracked := addr :: s.untracked } live free where
  sound := h.sound
  mirrors := h.mirrors
  live_nodes := h.live_nodes
  free_nodes := h.free_nodes
  nodup := List.nodup_middle.mpr (List.nodup_cons.mpr ⟨fresh.2.2, h.nodup⟩)
  range := by
    intro a ha
    rcases List.mem_cons.mp (List.perm_middle.mem_iff.mp ha) with rfl | ha
    · exact ⟨fresh.1, fresh.2.1⟩
    · exact h.range a ha
  count := h.count
  maxSize := le_max_right ..
  maxCount := le_max_right ..

/-- A tracked allocation is recorded and counted. -/
lemma Consistent.allocate_tracked [DecidableEq ν] (h : Consistent s live free) (fresh : s.Fresh addr)
    {externalAlloc : Option ν} (external : ∀ k, externalAlloc = some k → k ∉ s.nodes) {n : ν}
    (new : s.allocator.newInfo externalAlloc = some n) {size : UInt64} {file func : ByteString}
    {line : Int32} (lt : s.liveSum + size.toNat < 2 ^ 64)
    (res : s.allocator.allocate ndebug fuel (some addr) externalAlloc size file func line =
      some (some addr, m')) :
    let s' := { s.returned m' with nodes := n :: s.nodes, tracked := ⟨addr, size, line⟩ :: s.tracked }
    (∃ live' free', Consistent s' live' free') ∧
      Effect s s' (.allocate (some addr) externalAlloc size file func line) := by
  intro s'
  obtain ⟨-, sound, mirrors, e1, e2, e3, e4⟩ := Tracking.allocate_tracked h.sound h.mirrors
    (h.live_none fresh) (fun k hk => h.held_external (external k hk)) new res
  refine ⟨⟨Function.update live addr (some n), free.tail, ?_⟩, .add lt rfl e1 e2 (e1 ▸ e3) (e2 ▸ e4)⟩
  constructor
  · exact sound
  · exact mirrors
  · intro a k hk
    by_cases e : a = addr
    · rw [e, Function.update_self] at hk
      cases hk
      exact List.mem_cons_self
    · rw [Function.update_of_ne e] at hk
      exact List.mem_cons_of_mem n (h.live_nodes a k hk)
  · exact fun k hk => List.mem_cons_of_mem n (h.free_nodes k (List.mem_of_mem_tail hk))
  · exact List.nodup_cons.mpr ⟨fresh.2.2, h.nodup⟩
  · intro a ha
    rcases List.mem_cons.mp ha with rfl | ha
    · exact ⟨fresh.1, fresh.2.1⟩
    · exact h.range a ha
  · refine e2.trans ?_
    rw [show s.allocator.m_lAllocatedCount = UInt64.ofNat s.tracked.length from h.count]
    simp [s']
  · exact le_max_right ..
  · exact le_max_right ..

/-- What `DeAllocate` leaves of the live addresses. -/
lemma deAllocate_sublist (s : Tracking ν) (p : Ptr) :
    ((s.tracked.filter fun x => x.addr ≠ p).map Allocation.addr ++ s.untracked.erase p).Sublist
      s.addresses :=
  (List.filter_sublist.map _).append List.erase_sublist

/-- A tracked allocation that is freed is no longer counted. -/
lemma Consistent.deAllocate [DecidableEq ν] (h : Consistent s live free)
    (res : s.allocator.deAllocate fuel (some addr) = some m') :
    let s' :=
      { s.returned m' with
        tracked := s.tracked.filter fun x => x.addr ≠ addr
        untracked := s.untracked.erase addr }
    (∃ live' free', Consistent s' live' free') ∧ Effect s s' (.deAllocate addr) := by
  intro s'
  have sub := deAllocate_sublist s addr
  by_cases tracked : ∃ x ∈ s.tracked, x.addr = addr
  · obtain ⟨x, hx, rfl⟩ := tracked
    obtain ⟨n, hn, sound, mirrors, e1, e2, e3, e4⟩ := deAllocate_tracked h.sound h.mirrors hx res
    have distinct := (List.nodup_append'.mp h.nodup).1
    have perm := perm_filter distinct hx
    refine ⟨⟨Function.update live x.addr none, n :: free, ?_⟩, .sub ?_ perm e1 e2 e3 e4⟩
    · constructor
      · exact sound
      · exact mirrors
      · intro a k hk
        by_cases e : a = x.addr
        · rw [e, Function.update_self] at hk
          cases hk
        · rw [Function.update_of_ne e] at hk
          exact h.live_nodes a k hk
      · intro k hk
        rcases List.mem_cons.mp hk with rfl | hk
        · exact h.live_nodes _ _ hn
        · exact h.free_nodes k hk
      · exact h.nodup.sublist sub
      · exact fun a ha => h.range a (sub.subset ha)
      · refine e2.trans ?_
        rw [show s.allocator.m_lAllocatedCount = UInt64.ofNat s.tracked.length from h.count,
          perm.length_eq]
        simp [s']
      · exact le_max_right ..
      · exact le_max_right ..
    · constructor
      · exact fun kept => kept x hx rfl
      · intro kept y hy e
        rwa [List.inj_on_of_nodup_map distinct hy hx e]
  · have absent : ∀ x ∈ s.tracked, x.addr ≠ addr := fun x hx e => tracked ⟨x, hx, e⟩
    obtain ⟨sound, mirrors, e1, e2, e3, e4⟩ := deAllocate_untracked h.sound h.mirrors absent res
    have same : s'.tracked = s.tracked := List.filter_eq_self.mpr (by simpa using absent)
    refine ⟨⟨live, free, ?_⟩, .none (fun x hx e => absurd e (absent x hx)) same e1 e2 e3 e4⟩
    constructor
    · exact sound
    · exact same.symm ▸ mirrors
    · exact h.live_nodes
    · exact h.free_nodes
    · exact h.nodup.sublist sub
    · exact fun a ha => h.range a (sub.subset ha)
    · rw [same]
      exact e2.trans h.count
    · exact le_max_right ..
    · exact le_max_right ..

/-- What one call does. -/
lemma Consistent.step [DecidableEq ν] (h : Consistent s live free) (st : Step ndebug s a s') :
    (∃ live' free', Consistent s' live' free') ∧ Effect s s' a := by
  cases st with
  | allocate_null res =>
    cases res
    refine ⟨⟨live, free, ?_⟩, .none trivial rfl rfl rfl rfl rfl⟩
    exact { h with maxSize := le_max_right .., maxCount := le_max_right .. }
  | allocate_untracked fresh new res =>
    rw [MemTrackAllocator.allocate_untracked new] at res
    cases res
    exact ⟨⟨live, free, h.allocate_untracked fresh⟩, .none trivial rfl rfl rfl rfl rfl⟩
  | allocate_tracked fresh external new lt res => exact h.allocate_tracked fresh external new lt res
  | deAllocate _ res => exact h.deAllocate res

/-- The results of a call are fixed by what comes from outside. -/
lemma step_deterministic [DecidableEq ν] : Deterministic (Step (ν := ν) ndebug) := by
  intro s a s1 s2 st1 st2
  cases st1 with
  | allocate_null res1 =>
    cases st2 with
    | allocate_null res2 =>
      cases MemTrackAllocator.allocate_unique res1 res2
      rfl
  | allocate_untracked _ new1 res1 =>
    cases st2 with
    | allocate_untracked _ _ res2 =>
      cases MemTrackAllocator.allocate_unique res1 res2
      rfl
    | allocate_tracked _ _ new2 => exact absurd (new1.symm.trans new2) nofun
  | allocate_tracked _ _ new1 _ res1 =>
    cases st2 with
    | allocate_untracked _ new2 => exact absurd (new2.symm.trans new1) nofun
    | allocate_tracked _ _ new2 _ res2 =>
      cases MemTrackAllocator.allocate_unique res1 res2
      cases new1.symm.trans new2
      rfl
  | deAllocate _ res1 =>
    cases st2 with
    | deAllocate _ res2 =>
      cases MemTrackAllocator.deAllocate_unique res1 res2
      rfl

/-- The counters are right after every call of a run exactly when no call of the run releases an allocation
    whose size gets lost in the record. -/
theorem accurate_along_iff [DecidableEq ν] (raw : ν → AllocateInfo ν) {l : List (Call ν)}
    (run : Run (Step ndebug) (new raw) l s) :
    Along (Step ndebug) Accurate (new raw) l ↔ Meets (Step ndebug) Kept (new raw) l := by
  refine along_iff_meets (J := fun s => ∃ live free, Consistent s live free) step_deterministic run
    ?_ ⟨_, _, .new raw⟩ ?_ ?_ ?_
  · exact ⟨rfl, rfl, rfl, rfl⟩
  · rintro s a s' ⟨live, free, h⟩ st
    exact (h.step st).1
  · rintro s a s' ⟨live, free, h⟩ acc kept st
    obtain ⟨⟨live', free', h'⟩, effect⟩ := h.step st
    exact h.accurate_of_effect h' acc kept effect (step_max st)
  · rintro s a s' ⟨live, free, h⟩ acc lost st
    exact not_accurate_of_effect acc lost (h.step st).2

/-- The record that the runs below use, with what happens to be in it. -/
def blank : AllocateInfo Unit :=
  { m_Addr := 0, m_Srcfile := [], m_SrcFunc := [], m_SrcLine := 0, m_AllocSize := 0
    m_Next := none, m_Prev := none }

/-- An allocation of `size` bytes at address 16. -/
def allocate16 (size : UInt64) : Call Unit :=
  .allocate (some 16) (some ()) size [] [] 1

/-- Allocating and releasing `size` bytes. -/
lemma run_allocate16 (size : UInt64) :
    ∃ s, Run (Step true) (new fun _ => blank) [allocate16 size, .deAllocate 16] s ∧
      s.tracked = [] ∧
      s.allocator.getAllocatedSize = size - size.toUInt32.toInt32.toInt64.toUInt64 := by
  have start := Consistent.new (fun _ : Unit => blank)
  have fresh : (new fun _ : Unit => blank).Fresh 16 := by
    refine ⟨by decide, by decide, List.not_mem_nil⟩
  have external : ∀ k, some () = some k → k ∉ (new fun _ : Unit => blank).nodes :=
    fun _ _ => List.not_mem_nil
  have lt : (new fun _ : Unit => blank).liveSum + size.toNat < 2 ^ 64 := by
    simpa [liveSum, new] using size.toNat_lt
  have fits : (c_str []).length < MemTrackAllocator.XLN_ALLOCINFO_FILENAME_LEN := by decide
  obtain ⟨_, m1, res1⟩ := start.sound.exists_allocate true (start.live_none fresh)
    (fun k hk => start.held_external (external k hk)) size 1 fits fits
  have st1 : Step true (new fun _ => blank) (allocate16 size) _ :=
    .allocate_tracked fresh external rfl lt res1
  obtain ⟨-, -, -, e1, -⟩ := allocate_tracked start.sound start.mirrors (start.live_none fresh)
    (fun k hk => start.held_external (external k hk)) rfl res1
  obtain ⟨⟨live, free, h1⟩, -⟩ := start.step st1
  obtain ⟨_, m2, res2⟩ := h1.sound.exists_deAllocate 16
  have live16 : (⟨16, size, 1⟩ : Allocation) ∈ [(⟨16, size, 1⟩ : Allocation)] := List.mem_cons_self
  have st2 : Step true _ (.deAllocate 16) _ := .deAllocate List.mem_cons_self res2
  obtain ⟨-, -, -, -, e2, -⟩ := deAllocate_tracked h1.sound h1.mirrors live16 res2
  refine ⟨_, (Run.single st1).snoc st2, rfl, e2.trans ?_⟩
  rw [show (returned _ m1).allocator.m_lAllocatedSize = size from e1.trans (UInt64.zero_add size)]

/-- The statement above for eight bytes that are allocated and released. -/
theorem accurate_along_iff_eight :
    ∃ s, Run (Step true) (new fun _ => blank) [allocate16 8, .deAllocate 16] s ∧
      (Along (Step true) Accurate (new fun _ => blank) [allocate16 8, .deAllocate 16] ↔
        Meets (Step true) Kept (new fun _ => blank) [allocate16 8, .deAllocate 16]) := by
  obtain ⟨s, run, -⟩ := run_allocate16 8
  exact ⟨s, run, accurate_along_iff _ run⟩

/-- After two gigabytes are allocated and released, four are counted as allocated. -/
theorem size_lost :
    ∃ s, Run (Step true) (new fun _ => blank) [allocate16 (2 ^ 31), .deAllocate 16] s ∧
      s.tracked = [] ∧ s.allocator.getAllocatedSize = 2 ^ 32 ∧ ¬ Accurate s := by
  obtain ⟨s, run, none, size⟩ := run_allocate16 (2 ^ 31)
  have four : s.allocator.getAllocatedSize = 2 ^ 32 := size.trans (by decide)
  refine ⟨s, run, none, four, fun acc => ?_⟩
  have zero := acc.size
  rw [four, liveSum, none] at zero
  exact absurd zero (by decide)

end Tracking
end XLN
