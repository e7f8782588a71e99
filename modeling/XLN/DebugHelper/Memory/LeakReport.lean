import XLN.DebugHelper.Memory.MemTrackAllocator
import Mathlib.Data.List.Nodup
import Mathlib.Data.List.Perm.Subperm
import Mathlib.Data.UInt

/-!
# The leak report and the shut-down of the tracking allocator

`ForAllAllocInfo` and `Clear` of the table, `DumpMemStatus`, `ShutDown` and the overload of `Allocate` that
keeps no record, in `Core/DebugHelper/Memory/MemTrackAllocator.cpp`. A `LeakRun` is a sequential run of all
calls of the allocator, with the records that `XLN_ExternalAlloc` has made and `XLN_ExternalFree` has not
freed. `Clear` gets stuck in the model when it reads or frees a record that is not among them.

The report is complete and has nothing else in it (`report_of_run`). `ShutDown` frees the records of the
table and forgets the chain of free records (`shutDown_of_run`); it leaves the counters as they are
(`storage_of_run`).
-/

namespace XLN
open Transition LinkedList

namespace AllocHashTable

variable {ν σ : Type}

/-- The inner loop of `ForAllAllocInfo`. The callback is given the record and what it keeps itself; its result
    is not used. -/
def forBucket (cb : AllocateInfo ν → σ → Bool × σ) (t : AllocHashTable ν) : Nat → Option ν → σ → Option σ
  | 0, _, _ => none
  | _ + 1, none, own => some own
  | fuel + 1, some info, own => forBucket cb t fuel (t.next info) (cb (t.infos info) own).2

/-- `AllocHashTable::ForAllAllocInfo`. -/
def forAllAllocInfo (cb : AllocateInfo ν → σ → Bool × σ) (fuel : Nat) (own : σ) (t : AllocHashTable ν) :
    Option σ :=
  (List.range t.m_Size).foldlM (fun own i => t.forBucket cb fuel (t.m_AllocInfo i) own) own

variable [DecidableEq ν]

/-- `XLN_ExternalFree` of a record, which has to be one of those in `storage`. -/
def externalFree (n : ν) (storage : List ν) : Option (List ν) :=
  if n ∈ storage then some (storage.erase n) else none

/-- The inner loop of `Clear`. -/
def clearBucket (t : AllocHashTable ν) : Nat → Option ν → List ν → Option (List ν)
  | 0, _, _ => none
  | _ + 1, none, storage => some storage
  | fuel + 1, some curInfo, storage => do
    let info := t.next curInfo
    let storage ← externalFree curInfo storage
    clearBucket t fuel info storage

/-- One pass of the outer loop of `Clear`. -/
def clearAt (fuel : Nat) (s : AllocHashTable ν × List ν) (i : Nat) : Option (AllocHashTable ν × List ν) := do
  let storage ← s.1.clearBucket fuel (s.1.m_AllocInfo i) s.2
  return ({ s.1 with m_AllocInfo := Function.update s.1.m_AllocInfo i none }, storage)

/-- `AllocHashTable::Clear`. -/
def clear (fuel : Nat) (t : AllocHashTable ν) (storage : List ν) : Option (AllocHashTable ν × List ν) :=
  (List.range t.m_Size).foldlM (clearAt fuel) (t, storage)

end AllocHashTable

namespace MemTrackAllocator

variable {ν σ : Type}

/-- `MemTrackAllocator::DumpMemStatus`. -/
def dumpMemStatus (ms_DumpAllocCB : Option (AllocateInfo ν → σ → Bool × σ)) (fuel : Nat) (own : σ)
    (m : MemTrackAllocator ν) : Option σ :=
  match ms_DumpAllocCB with
  | some cb => m.m_AllocHT.forAllAllocInfo cb fuel own
  | none => some own

/-- `MemTrackAllocator::ShutDown`. -/
def shutDown [DecidableEq ν] (fuel : Nat) (storage : List ν) (m : MemTrackAllocator ν) :
    Option (MemTrackAllocator ν × List ν) := do
  let (m_AllocHT, storage) ← m.m_AllocHT.clear fuel storage
  return ({ m with m_AllocHT }, storage)

/-- The overload of `MemTrackAllocator::Allocate` without a place in the source. -/
def allocateUnplaced (allocatedAddr : Option Ptr) (m : MemTrackAllocator ν) :
    Option Ptr × MemTrackAllocator ν :=
  (allocatedAddr, m)

end MemTrackAllocator

/-! ## The loops over the table -/

namespace AllocHashTable

variable {ν σ : Type} {t t' : AllocHashTable ν} {chain : Nat → List ν} {live : Ptr → Option ν}
  {l : List ν} {head : Option ν} {fuel : Nat} {cb : AllocateInfo ν → σ → Bool × σ}

/-- The nodes of the first `k` buckets. -/
def nodesBelow (chain : Nat → List ν) (k : Nat) : List ν :=
  (List.range k).flatMap chain

/-- All buckets together have every node of the map once. -/
lemma Linked.mem_nodesBelow (h : Linked t chain live) (n : ν) :
    n ∈ nodesBelow chain t.m_Size ↔ ∃ a, live a = some n := by
  rw [nodesBelow, List.mem_flatMap]
  constructor
  · rintro ⟨i, -, hn⟩
    exact ⟨_, ((h.mem_chain i n).mp hn).1⟩
  · rintro ⟨a, hn⟩
    exact ⟨_, List.mem_range.mpr (getHash_lt h.size_pos a), h.mem_of_live hn⟩

/-- The records of the buckets are distinct. -/
lemma Linked.nodup_nodesBelow (h : Linked t chain live) : (nodesBelow chain t.m_Size).Nodup := by
  rw [nodesBelow, List.nodup_flatMap]
  refine ⟨fun i _ => h.nodup i, List.nodup_range.imp_of_mem fun {i j} _ _ ne n hi hj => ne ?_⟩
  exact ((h.mem_chain i n).mp hi).2.symm.trans ((h.mem_chain j n).mp hj).2

/-- A length that no bucket exceeds. -/
lemma exists_length_lt (chain : Nat → List ν) (k : Nat) : ∃ b, ∀ i < k, (chain i).length < b := by
  induction k with
  | zero => exact ⟨0, nofun⟩
  | succ k ih =>
    obtain ⟨b, hb⟩ := ih
    refine ⟨max b ((chain k).length + 1), fun i lt => ?_⟩
    rcases Nat.lt_succ_iff_lt_or_eq.mp lt with lt | rfl
    · exact Nat.lt_of_lt_of_le (hb i lt) (Nat.le_max_left ..)
    · exact Nat.lt_of_lt_of_le (Nat.lt_succ_self _) (Nat.le_max_right ..)

/-- The walk over a bucket calls back for each of its records. -/
lemma forBucket_eq (links : Chain t.next head l) (enough : l.length < fuel) (own : σ) :
    t.forBucket cb fuel head own = some (l.foldl (fun own n => (cb (t.infos n) own).2) own) := by
  induction links generalizing fuel own with
  | nil =>
    obtain ⟨fuel, rfl⟩ : ∃ k, fuel = k + 1 := ⟨fuel - 1, by omega⟩
    rfl
  | cons _ ih =>
    obtain ⟨fuel, rfl⟩ : ∃ k, fuel = k + 1 := ⟨fuel - 1, by omega⟩
    exact ih (Nat.lt_of_succ_lt_succ enough) _

/-- `ForAllAllocInfo` goes through the buckets one after the other. -/
lemma Linked.forAllAllocInfo (h : Linked t chain live) (enough : ∀ i < t.m_Size, (chain i).length < fuel)
    (own : σ) :
    t.forAllAllocInfo cb fuel own =
      some (((nodesBelow chain t.m_Size).map t.infos).foldl (fun own info => (cb info own).2) own) := by
  have upTo : ∀ k ≤ t.m_Size,
      (List.range k).foldlM (fun own i => t.forBucket cb fuel (t.m_AllocInfo i) own) own =
        some ((nodesBelow chain k).foldl (fun own n => (cb (t.infos n) own).2) own) := by
    intro k le
    induction k with
    | zero => rfl
    | succ k ih =>
      have last : nodesBelow chain (k + 1) = nodesBelow chain k ++ chain k := by
        simp [nodesBelow, List.range_succ]
      rw [List.range_succ, List.foldlM_append, ih (Nat.le_of_succ_le le), last, List.foldl_append]
      simp only [Option.bind_eq_bind, Option.bind_some, List.foldlM_cons, List.foldlM_nil]
      rw [forBucket_eq (h.links k le) (enough k le)]
      rfl
  rw [List.foldl_map]
  exact upTo t.m_Size (Nat.le_refl _)

section Clear
variable [DecidableEq ν] {storage : List ν}

/-- The inner loop frees the nodes of the bucket. -/
lemma clearBucket_eq {rest : List ν} (links : Chain t.next head l) (enough : l.length < fuel)
    (owned : storage.Perm (l ++ rest)) :
    ∃ storage', t.clearBucket fuel head storage = some storage' ∧ storage'.Perm rest := by
  induction links generalizing fuel storage with
  | nil =>
    obtain ⟨fuel, rfl⟩ : ∃ k, fuel = k + 1 := ⟨fuel - 1, by omega⟩
    exact ⟨storage, rfl, owned⟩
  | @cons n l _ ih =>
    obtain ⟨fuel, rfl⟩ : ∃ k, fuel = k + 1 := ⟨fuel - 1, by omega⟩
    have mem : n ∈ storage := owned.mem_iff.mpr List.mem_cons_self
    have freed : (storage.erase n).Perm (l ++ rest) := by
      have less := owned.erase n
      rwa [List.cons_append, List.erase_cons_head] at less
    rw [clearBucket, externalFree, if_pos mem]
    exact ih (Nat.lt_of_succ_lt_succ enough) freed

/-- The outer loop over some of the buckets. -/
lemma foldlM_clearAt {rest : List ν} {buckets : List Nat} (distinct : buckets.Nodup)
    (links : ∀ i ∈ buckets, Chain t.next (t.m_AllocInfo i) (chain i))
    (enough : ∀ i ∈ buckets, (chain i).length < fuel)
    (owned : storage.Perm (buckets.flatMap chain ++ rest)) :
    ∃ storage', buckets.foldlM (clearAt fuel) (t, storage) =
        some ({ t with m_AllocInfo := fun i => if i ∈ buckets then none else t.m_AllocInfo i }, storage') ∧
      storage'.Perm rest := by
  induction buckets generalizing t storage with
  | nil => exact ⟨storage, by simp, owned⟩
  | cons i buckets ih =>
    rw [List.nodup_cons] at distinct
    rw [List.forall_mem_cons] at links enough
    rw [List.flatMap_cons, List.append_assoc] at owned
    obtain ⟨storage1, freed, owned1⟩ := clearBucket_eq links.1 enough.1 owned
    let t1 : AllocHashTable ν := { t with m_AllocInfo := Function.update t.m_AllocInfo i none }
    have links1 : ∀ j ∈ buckets, Chain t1.next (t1.m_AllocInfo j) (chain j) := by
      intro j hj
      have ne : j ≠ i := by
        rintro rfl
        exact distinct.1 hj
      rw [show t1.m_AllocInfo j = t.m_AllocInfo j from Function.update_of_ne ne ..]
      exact links.2 j hj
    obtain ⟨storage', res, owned'⟩ := ih distinct.2 links1 enough.2 owned1
    refine ⟨storage', ?_, owned'⟩
    rw [List.foldlM_cons, clearAt, freed]
    refine res.trans (congrArg (fun b => some ({ t with m_AllocInfo := b }, storage')) ?_)
    funext j
    by_cases e : j = i
    · simp [t1, e]
    · simp [t1, e]

/-- `Clear` frees the nodes of all buckets and leaves the buckets empty. -/
lemma Linked.clear (h : Linked t chain live) (enough : ∀ i < t.m_Size, (chain i).length < fuel)
    {rest : List ν} (owned : storage.Perm (nodesBelow chain t.m_Size ++ rest)) :
    ∃ t' storage', t.clear fuel storage = some (t', storage') ∧ storage'.Perm rest ∧
      t'.m_Size = t.m_Size ∧ t'.infos = t.infos ∧ ∀ i < t.m_Size, t'.m_AllocInfo i = none := by
  obtain ⟨storage', res, owned'⟩ := foldlM_clearAt List.nodup_range
    (fun i hi => h.links i (List.mem_range.mp hi)) (fun i hi => enough i (List.mem_range.mp hi)) owned
  refine ⟨_, storage', res, owned', rfl, rfl, fun i lt => ?_⟩
  exact if_pos (List.mem_range.mpr lt)

/-- A loop whose passes do not change with more fuel. -/
lemma foldlM_mono {α β : Type} {f g : β → α → Option β} (le : ∀ b a b', f b a = some b' → g b a = some b')
    {l : List α} {b b' : β} (res : l.foldlM f b = some b') : l.foldlM g b = some b' := by
  induction l generalizing b with
  | nil => exact res
  | cons a l ih =>
    simp only [List.foldlM_cons, Option.bind_eq_bind, Option.bind_eq_some_iff] at res ⊢
    obtain ⟨b1, first, rest⟩ := res
    exact ⟨b1, le b a b1 first, ih rest⟩

/-- More fuel changes nothing. -/
lemma clearBucket_mono {fuel' : Nat} {storage' : List ν}
    (res : t.clearBucket fuel head storage = some storage') (le : fuel ≤ fuel') :
    t.clearBucket fuel' head storage = some storage' := by
  induction fuel generalizing fuel' head storage with
  | zero => cases res
  | succ fuel ih =>
    obtain ⟨fuel', rfl⟩ : ∃ k, fuel' = k + 1 := ⟨fuel' - 1, by omega⟩
    cases head with
    | none => exact res
    | some n =>
      simp only [clearBucket, Option.bind_eq_bind, Option.bind_eq_some_iff] at res ⊢
      obtain ⟨storage1, freed, rest⟩ := res
      exact ⟨storage1, freed, ih rest (Nat.le_of_succ_le_succ le)⟩

/-- More fuel does not change the result of `Clear`. -/
lemma clear_mono {fuel' : Nat} {r : AllocHashTable ν × List ν} (res : t.clear fuel storage = some r)
    (le : fuel ≤ fuel') : t.clear fuel' storage = some r := by
  refine foldlM_mono (fun s i s' res => ?_) res
  simp only [clearAt, Option.bind_eq_bind, Option.bind_eq_some_iff] at res ⊢
  obtain ⟨storage1, freed, rest⟩ := res
  exact ⟨storage1, clearBucket_mono freed le, rest⟩

end Clear
end AllocHashTable

/-! ## The calls -/

namespace MemTrackAllocator

variable {ν σ : Type} [DecidableEq ν] {m m' : MemTrackAllocator ν} {live : Ptr → Option ν} {free : List ν}
  {n : ν} {addr : Ptr} {size : UInt64} {file func : ByteString} {line : Int32} {externalAlloc : Option ν}
  {ndebug : Bool} {fuel fuel' : Nat} {storage storage' : List ν}

/-- The record of an allocation, without links. -/
def record (addr : Ptr) (stSizeInBytes : UInt64) (file func : ByteString) (line : Int32) : AllocateInfo ν :=
  { m_Addr := addr
    m_Srcfile := c_str file
    m_SrcFunc := c_str func
    m_SrcLine := line
    m_AllocSize := stSizeInBytes.toUInt32.toInt32
    m_Next := none
    m_Prev := none }

/-- A record is filled with the allocation. -/
lemma fill_eq (res : m.fill n addr size file func line = some m') :
    m' = m.write n (record addr size file func line) := by
  simp only [fill, strcpy, Option.bind_eq_bind, Option.bind_eq_some_iff] at res
  obtain ⟨file', e1, func', e2, e⟩ := res
  split at e1
  · split at e2
    · cases e1
      cases e2
      exact (Option.some.inj e).symm
    · cases e2
  · cases e1

/-- `Allocate` with a record puts it in the table. -/
lemma Sound.allocate (h : m.Sound live free) (fresh : live addr = none)
    (external : ∀ k, externalAlloc = some k → Held live free k) (new : m.newInfo externalAlloc = some n)
    {r : Option Ptr}
    (res : m.allocate ndebug fuel (some addr) externalAlloc size file func line = some (r, m')) :
    m'.Sound (Function.update live addr (some n)) free.tail ∧
      (m'.m_AllocHT.infos n).data = record addr size file func line ∧
      (∀ k, k ≠ n → (m'.m_AllocHT.infos k).data = (m.m_AllocHT.infos k).data) ∧
      m'.m_lAllocatedCount = m.m_lAllocatedCount + 1 := by
  simp only [MemTrackAllocator.allocate, new, Option.bind_eq_bind, Option.bind_eq_some_iff] at res
  obtain ⟨m1, filled, t', inserted, e⟩ := res
  obtain rfl := fill_eq filled
  cases e
  obtain ⟨-, sound, table⟩ := h.getNextFreeInfo
  obtain ⟨-, held⟩ := h.held_of_newInfo external new
  have written := sound.write held (record addr size file func line)
  have addr_eq : ((m.getNextFreeInfo.2.write n (record addr size file func line)).m_AllocHT.infos n).m_Addr =
      addr := by
    rw [write_infos, record]
  obtain ⟨inserted, keeps⟩ := written.insert held (by rw [addr_eq, fresh]) inserted
  rw [addr_eq] at inserted keeps
  obtain ⟨_, taken⟩ := m.getNextFreeInfo_snd
  refine ⟨inserted.counters rfl rfl, ?_, fun k ne => ?_, by rw [taken]; rfl⟩
  · refine (keeps.data n).trans ?_
    rw [write_infos]
    rfl
  · refine (keeps.data k).trans ?_
    rw [← table]
    exact congrArg AllocateInfo.data (Function.update_of_ne ne ..)

/-- `DeAllocate` takes the record of the address, if there is one, out of the table. -/
lemma Sound.deAllocate (h : m.Sound live free) (res : m.deAllocate fuel (some addr) = some m') :
    m'.Sound (Function.update live addr none) ((live addr).toList ++ free) ∧
      (∀ k, (m'.m_AllocHT.infos k).data = (m.m_AllocHT.infos k).data) ∧
      m'.m_lAllocatedCount = m.m_lAllocatedCount - UInt64.ofNat (live addr).toList.length := by
  obtain ⟨freeInfo, t', removed, e⟩ := deAllocate_cases res
  obtain ⟨er, sound, keeps⟩ := h.remove removed
  subst er
  cases found : live addr with
  | none =>
    rw [found] at e
    subst e
    exact ⟨sound, keeps.data, (UInt64.sub_zero _).symm⟩
  | some n =>
    rw [found] at e
    subst e
    have counted : ({ m with m_AllocHT := t' }.subAllocated (t'.infos n).m_AllocSize).Sound
        (Function.update live addr none) free := sound.counters rfl rfl
    refine ⟨counted.addFreeInfo (h.held_of_removed found), fun k => ?_, rfl⟩
    rw [addFreeInfo_data]
    exact keeps.data k

/-- More fuel does not change the result of `ShutDown`. -/
lemma shutDown_mono {r : MemTrackAllocator ν × List ν} (res : m.shutDown fuel storage = some r)
    (le : fuel ≤ fuel') : m.shutDown fuel' storage = some r := by
  simp only [MemTrackAllocator.shutDown, Option.bind_eq_bind, Option.bind_eq_some_iff] at res ⊢
  obtain ⟨cleared, e, rest⟩ := res
  exact ⟨cleared, AllocHashTable.clear_mono e le, rest⟩

/-- What `ShutDown` does, with the records of the table and the free ones as the storage. -/
lemma Sound.shutDown (h : m.Sound live free) (distinct : storage.Nodup)
    (mem : ∀ n, n ∈ storage ↔ (∃ a, live a = some n) ∨ n ∈ free) :
    ∃ k m' storage', (∀ fuel ≥ k, m.shutDown fuel storage = some (m', storage')) ∧ storage'.Perm free ∧
      m'.Sound (fun _ => none) free ∧ m'.m_lAllocatedCount = m.m_lAllocatedCount ∧
      ∀ i < m'.m_AllocHT.m_Size, m'.m_AllocHT.m_AllocInfo i = none := by
  obtain ⟨chain, linked⟩ := h.table
  obtain ⟨b, enough⟩ := AllocHashTable.exists_length_lt chain m.m_AllocHT.m_Size
  have owned : storage.Perm (AllocHashTable.nodesBelow chain m.m_AllocHT.m_Size ++ free) := by
    refine (List.perm_ext_iff_of_nodup distinct ?_).mpr fun n => ?_
    · refine linked.nodup_nodesBelow.append h.free_chain.nodup fun n hn hf => ?_
      obtain ⟨a, ha⟩ := (linked.mem_nodesBelow n).mp hn
      exact h.free_out n hf a ha
    · rw [mem, List.mem_append, linked.mem_nodesBelow]
  obtain ⟨t', storage', res, left, size, infos, empty⟩ := linked.clear enough owned
  refine ⟨b, { m with m_AllocHT := t' }, storage', fun fuel le => ?_, left, ?_, rfl, ?_⟩
  · rw [MemTrackAllocator.shutDown, AllocHashTable.clear_mono res le]
    rfl
  · refine ⟨⟨fun _ => [], ⟨fun i lt => ?_, fun _ => List.nodup_nil, by simp, by simp⟩, fun _ => .nil, ?_⟩,
      h.free_chain.congr fun n _ => ?_, by simp⟩
    · rw [empty i (size ▸ lt)]
      exact .nil
    · exact size ▸ linked.size_pos
    · exact congrArg (fun f : ν → AllocateInfo ν => (f n).m_Next) infos
  · exact fun i lt => empty i (size ▸ lt)

end MemTrackAllocator

/-! ## Runs of calls -/

/-- The allocator with the records made by `XLN_ExternalAlloc` and not freed, what the records of the live
    allocations should say, and the live allocations without a record. `most` is the greatest number of
    allocations that had a record at a time since the last `ShutDown`, `kept` the number of records that it
    left, and `forgotten` counts the records that calls of `ShutDown` have freed. -/
structure LeakRun (ν : Type) where
  allocator : MemTrackAllocator ν
  storage : List ν
  tracked : List (AllocateInfo ν)
  untracked : List Ptr
  most : Nat
  kept : Nat
  forgotten : Nat

namespace LeakRun

variable {ν : Type}

/-- A call, with what the tracked allocator and `XLN_ExternalAlloc` return in it. -/
inductive Call (ν : Type) where
  | allocate (allocatedAddr : Option Ptr) (externalAlloc : Option ν) (stSizeInBytes : UInt64)
      (file func : ByteString) (line : Int32)
  | allocateUnplaced (allocatedAddr : Option Ptr)
  | deAllocate (p : Option Ptr)
  | dumpMemStatus
  | shutDown

def new (raw : ν → AllocateInfo ν) : LeakRun ν :=
  { allocator := .new raw
    storage := []
    tracked := []
    untracked := []
    most := 0
    kept := 0
    forgotten := 0 }

/-- The live addresses. -/
def addresses (s : LeakRun ν) : List Ptr :=
  s.tracked.map AllocateInfo.m_Addr ++ s.untracked

/-- The storage after `Allocate` has used the record `n`. -/
def grown (s : LeakRun ν) (n : ν) : List ν :=
  match s.allocator.getNextFreeInfo.1 with
  | some _ => s.storage
  | none => n :: s.storage

/-- One call. What the tracked allocator and `XLN_ExternalAlloc` return is not in use, and only live pointers
    and the null pointer are released. -/
inductive Step [DecidableEq ν] (ndebug : Bool) : LeakRun ν → Call ν → LeakRun ν → Prop where
  | allocate_null {s externalAlloc size file func line fuel m'} :
    s.allocator.allocate ndebug fuel none externalAlloc size file func line = some (none, m') →
    Step ndebug s (.allocate none externalAlloc size file func line) { s with allocator := m' }
  | allocate_untracked {s addr externalAlloc size file func line fuel m'} :
    addr ∉ s.addresses →
    s.allocator.newInfo externalAlloc = none →
    s.allocator.allocate ndebug fuel (some addr) externalAlloc size file func line =
      some (some addr, m') →
    Step ndebug s (.allocate (some addr) externalAlloc size file func line)
      { s with allocator := m', untracked := addr :: s.untracked }
  | allocate_tracked {s addr externalAlloc size file func line n fuel m'} :
    addr ∉ s.addresses →
    (∀ k, externalAlloc = some k → k ∉ s.storage) →
    s.allocator.newInfo externalAlloc = some n →
    s.allocator.allocate ndebug fuel (some addr) externalAlloc size file func line =
      some (some addr, m') →
    Step ndebug s (.allocate (some addr) externalAlloc size file func line)
      { s with
        allocator := m'
        storage := s.grown n
        tracked := MemTrackAllocator.record addr size file func line :: s.tracked
        most := max s.most (s.tracked.length + 1) }
  | allocateUnplaced {s allocatedAddr r m'} :
    (∀ addr, allocatedAddr = some addr → addr ∉ s.addresses) →
    s.allocator.allocateUnplaced allocatedAddr = (r, m') →
    Step ndebug s (.allocateUnplaced allocatedAddr)
      { s with allocator := m', untracked := r.toList ++ s.untracked }
  | deAllocate_null {s fuel m'} :
    s.allocator.deAllocate fuel none = some m' →
    Step ndebug s (.deAllocate none) { s with allocator := m' }
  | deAllocate {s p fuel m'} :
    p ∈ s.addresses →
    s.allocator.deAllocate fuel (some p) = some m' →
    Step ndebug s (.deAllocate (some p))
      { s with
        allocator := m'
        tracked := s.tracked.filter fun x => x.m_Addr ≠ p
        untracked := s.untracked.erase p }
  | dumpMemStatus {s} :
    Step ndebug s .dumpMemStatus s
  | shutDown {s fuel m' storage'} :
    s.allocator.shutDown fuel s.storage = some (m', storage') →
    Step ndebug s .shutDown
      { s with
        allocator := m'
        storage := storage'
        tracked := []
        untracked := s.addresses
        most := 0
        kept := storage'.length
        forgotten := s.forgotten + s.tracked.length }

/-- The table has the records of the tracked allocations, and these and the free ones are the storage. -/
structure Consistent (s : LeakRun ν) (live : Ptr → Option ν) (free : List ν) : Prop where
  sound : s.allocator.Sound live free
  entry : ∀ x ∈ s.tracked, ∃ n, live x.m_Addr = some n ∧ (s.allocator.m_AllocHT.infos n).data = x
  only : ∀ a n, live a = some n → ∃ x ∈ s.tracked, x.m_Addr = a
  distinct : (s.tracked.map AllocateInfo.m_Addr).Nodup
  storage_nodup : s.storage.Nodup
  mem_storage : ∀ n, n ∈ s.storage ↔ (∃ a, live a = some n) ∨ n ∈ free
  places : s.storage.length = s.tracked.length + free.length
  length : s.storage.length = max s.kept s.most
  count : s.allocator.getAllocatedCount = UInt64.ofNat (s.tracked.length + s.forgotten)

variable {s s' : LeakRun ν} {a : Call ν} {m' : MemTrackAllocator ν} {live : Ptr → Option ν} {free : List ν}
  {ndebug : Bool} {fuel : Nat} {addr : Ptr} {x : AllocateInfo ν} {n : ν}

/-- A new allocator has no records. -/
lemma Consistent.new (raw : ν → AllocateInfo ν) : Consistent (new raw) (fun _ => none) [] where
  sound := .new raw
  entry := nofun
  only := nofun
  distinct := List.nodup_nil
  storage_nodup := List.nodup_nil
  mem_storage := by simp [LeakRun.new]
  places := rfl
  length := rfl
  count := rfl

/-- A fresh address has no record. -/
lemma Consistent.live_none (h : Consistent s live free) (fresh : addr ∉ s.addresses) : live addr = none := by
  cases e : live addr with
  | none => rfl
  | some n =>
    obtain ⟨x, hx, rfl⟩ := h.only addr n e
    exact absurd (List.mem_append_left _ (List.mem_map_of_mem hx)) fresh

/-- A record made by `XLN_ExternalAlloc` is held. -/
lemma Consistent.held_external (h : Consistent s live free) (new : n ∉ s.storage) : Held live free n :=
  ⟨fun hn => new ((h.mem_storage n).mpr (.inr hn)), fun a hn => new ((h.mem_storage n).mpr (.inl ⟨a, hn⟩))⟩

/-- The storage grows by the record only if no record is free. -/
lemma Consistent.grown (h : Consistent s live free) {externalAlloc : Option ν}
    (external : ∀ k, externalAlloc = some k → k ∉ s.storage)
    (new : s.allocator.newInfo externalAlloc = some n) :
    (free = n :: free.tail ∧ s.grown n = s.storage) ∨
      (free = [] ∧ n ∉ s.storage ∧ s.grown n = n :: s.storage) := by
  rw [LeakRun.grown]
  rw [MemTrackAllocator.newInfo] at new
  rw [h.sound.getNextFreeInfo.1] at new ⊢
  cases free with
  | nil => exact .inr ⟨rfl, external n new, rfl⟩
  | cons k rest =>
    cases new
    exact .inl ⟨rfl, rfl⟩

/-- What `DeAllocate` leaves of the tracked allocations. -/
lemma Consistent.length_filter (h : Consistent s live free) (addr : Ptr) :
    (s.tracked.filter fun x => x.m_Addr ≠ addr).length + (live addr).toList.length = s.tracked.length := by
  have here : s.tracked.countP (fun x => x.m_Addr = addr) = (live addr).toList.length := by
    have count : s.tracked.countP (fun x => x.m_Addr = addr) =
        (s.tracked.map AllocateInfo.m_Addr).count addr := by
      rw [List.count, List.countP_map]
      exact List.countP_congr fun x _ => by simp
    cases found : live addr with
    | none =>
      rw [count, List.count_eq_zero_of_not_mem]
      · rfl
      · intro again
        obtain ⟨x, hx, rfl⟩ := List.mem_map.mp again
        obtain ⟨n, hn, -⟩ := h.entry x hx
        rw [found] at hn
        cases hn
    | some n =>
      obtain ⟨x, hx, rfl⟩ := h.only addr n found
      rw [count, List.count_eq_one_of_mem h.distinct (List.mem_map_of_mem hx)]
      rfl
  have parts := s.tracked.length_eq_countP_add_countP fun x => x.m_Addr = addr
  rw [← List.countP_eq_length_filter]
  simp only [decide_eq_true_eq] at parts
  simp only [ne_eq, decide_not] at parts ⊢
  omega

/-- Records with the data of the tracked allocations, in the order of the nodes. -/
lemma Consistent.perm_tracked (h : Consistent s live free) {nodes : List ν} (nodup : nodes.Nodup)
    (mem : ∀ n, n ∈ nodes ↔ ∃ a, live a = some n) :
    (nodes.map fun n => (s.allocator.m_AllocHT.infos n).data).Perm s.tracked := by
  obtain ⟨chain, linked⟩ := h.sound.table
  have addr_of : ∀ n ∈ nodes, live (s.allocator.m_AllocHT.infos n).m_Addr = some n := by
    intro n hn
    obtain ⟨a, ha⟩ := (mem n).mp hn
    rwa [linked.addr_eq a n ha]
  refine (List.perm_ext_iff_of_nodup ?_ (h.distinct.of_map _)).mpr fun x => ?_
  · refine nodup.map_on fun n hn k hk e => ?_
    have same : (s.allocator.m_AllocHT.infos n).m_Addr = (s.allocator.m_AllocHT.infos k).m_Addr := by
      rw [← AllocateInfo.data_addr, e, AllocateInfo.data_addr]
    exact Option.some.inj ((addr_of n hn).symm.trans (same ▸ addr_of k hk))
  · rw [List.mem_map]
    constructor
    · rintro ⟨n, hn, rfl⟩
      obtain ⟨x, hx, ex⟩ := h.only _ n (addr_of n hn)
      obtain ⟨k, hk, e⟩ := h.entry x hx
      rw [ex, addr_of n hn] at hk
      cases hk
      rwa [e]
    · intro hx
      obtain ⟨n, hn, e⟩ := h.entry x hx
      exact ⟨n, (mem n).mpr ⟨_, hn⟩, e⟩

/-! ## What a call does -/

section Steps
variable [DecidableEq ν]

/-- A tracked allocation is recorded. -/
lemma Consistent.allocate_tracked (h : Consistent s live free) (fresh : addr ∉ s.addresses)
    {externalAlloc : Option ν} (external : ∀ k, externalAlloc = some k → k ∉ s.storage)
    (new : s.allocator.newInfo externalAlloc = some n) {size : UInt64} {file func : ByteString}
    {line : Int32}
    (res : s.allocator.allocate ndebug fuel (some addr) externalAlloc size file func line =
      some (some addr, m')) :
    Consistent
      { s with
        allocator := m'
        storage := s.grown n
        tracked := MemTrackAllocator.record addr size file func line :: s.tracked
        most := max s.most (s.tracked.length + 1) }
      (Function.update live addr (some n)) free.tail := by
  have vacant := h.live_none fresh
  have held_external := fun k hk => h.held_external (n := k) (external k hk)
  obtain ⟨sound, data, others, count⟩ := h.sound.allocate vacant held_external new res
  obtain ⟨-, held⟩ := h.sound.held_of_newInfo held_external new
  have grown := h.grown external new
  have old : ∀ x ∈ s.tracked, x.m_Addr ≠ addr := fun x hx e =>
    fresh (List.mem_append_left _ (e ▸ List.mem_map_of_mem hx))
  constructor
  · exact sound
  · intro x hx
    rcases List.mem_cons.mp hx with rfl | hx
    · exact ⟨n, Function.update_self .., data⟩
    · obtain ⟨k, hk, e⟩ := h.entry x hx
      refine ⟨k, by rw [Function.update_of_ne (old x hx), hk], (others k ?_).trans e⟩
      rintro rfl
      exact held.2 _ hk
  · intro a k hk
    by_cases e : a = addr
    · exact ⟨_, List.mem_cons_self, e.symm⟩
    · rw [Function.update_of_ne e] at hk
      obtain ⟨x, hx, ex⟩ := h.only a k hk
      exact ⟨x, List.mem_cons_of_mem _ hx, ex⟩
  · refine List.nodup_cons.mpr ⟨fun again => ?_, h.distinct⟩
    exact fresh (List.mem_append_left _ again)
  · rcases grown with ⟨-, e⟩ | ⟨-, out, e⟩
    · exact e ▸ h.storage_nodup
    · exact e ▸ List.nodup_cons.mpr ⟨out, h.storage_nodup⟩
  · -- the storage has the new record once more, and `live` has got it
    have live_iff : ∀ k, (∃ a, Function.update live addr (some n) a = some k) ↔
        k = n ∨ ∃ a, live a = some k := by
      intro k
      constructor
      · rintro ⟨a, hk⟩
        by_cases e : a = addr
        · rw [e, Function.update_self] at hk
          exact .inl (Option.some.inj hk).symm
        · rw [Function.update_of_ne e] at hk
          exact .inr ⟨a, hk⟩
      · rintro (rfl | ⟨a, hk⟩)
        · exact ⟨addr, Function.update_self ..⟩
        · refine ⟨a, ?_⟩
          rw [Function.update_of_ne, hk]
          rintro rfl
          rw [vacant] at hk
          cases hk
    intro k
    rw [live_iff]
    rcases grown with ⟨e1, e2⟩ | ⟨e1, -, e2⟩
    · rw [e2, h.mem_storage, e1, List.mem_cons, List.tail_cons]
      tauto
    · rw [e2, List.mem_cons, h.mem_storage, e1]
      simp
  · rcases grown with ⟨e1, e2⟩ | ⟨e1, -, e2⟩
    · have places := h.places
      rw [e1, List.length_cons] at places
      simp only [e2, List.length_cons]
      omega
    · have places := h.places
      rw [e1, List.length_nil] at places
      simp only [e1, e2, List.length_cons, List.tail_nil, List.length_nil]
      omega
  · have length := h.length
    have places := h.places
    rcases grown with ⟨e1, e2⟩ | ⟨e1, -, e2⟩
    · rw [e1, List.length_cons] at places
      simp only [e2]
      omega
    · rw [e1, List.length_nil] at places
      simp only [e2, List.length_cons]
      omega
  · refine count.trans ?_
    rw [show s.allocator.m_lAllocatedCount = UInt64.ofNat (s.tracked.length + s.forgotten) from h.count]
    simp only [List.length_cons, Nat.succ_add, Nat.succ_eq_add_one, UInt64.ofNat_add]
    rfl

/-- An allocation that is freed is not recorded any more. -/
lemma Consistent.deAllocate (h : Consistent s live free)
    (res : s.allocator.deAllocate fuel (some addr) = some m') :
    Consistent
      { s with
        allocator := m'
        tracked := s.tracked.filter fun x => x.m_Addr ≠ addr
        untracked := s.untracked.erase addr }
      (Function.update live addr none) ((live addr).toList ++ free) := by
  obtain ⟨sound, data, count⟩ := h.sound.deAllocate res
  have shorter := h.length_filter addr
  constructor
  · exact sound
  · intro x hx
    rw [List.mem_filter, decide_eq_true_eq] at hx
    obtain ⟨k, hk, e⟩ := h.entry x hx.1
    exact ⟨k, by rw [Function.update_of_ne hx.2, hk], (data k).trans e⟩
  · intro a k hk
    by_cases e : a = addr
    · rw [e, Function.update_self] at hk
      cases hk
    · rw [Function.update_of_ne e] at hk
      obtain ⟨x, hx, rfl⟩ := h.only a k hk
      exact ⟨x, by simp [hx, e], rfl⟩
  · exact h.distinct.sublist (List.filter_sublist.map _)
  · exact h.storage_nodup
  · intro k
    rw [h.mem_storage, List.mem_append, Option.mem_toList]
    constructor
    · rintro (⟨a, hk⟩ | hk)
      · by_cases e : a = addr
        · exact .inr (.inl (e ▸ hk))
        · exact .inl ⟨a, by rw [Function.update_of_ne e, hk]⟩
      · exact .inr (.inr hk)
    · rintro (⟨a, hk⟩ | hk | hk)
      · by_cases e : a = addr
        · rw [e, Function.update_self] at hk
          cases hk
        · rw [Function.update_of_ne e] at hk
          exact .inl ⟨a, hk⟩
      · exact .inl ⟨addr, hk⟩
      · exact .inr hk
  · have places := h.places
    simp only [List.length_append]
    omega
  · exact h.length
  · refine count.trans ?_
    rw [show s.allocator.m_lAllocatedCount = UInt64.ofNat (s.tracked.length + s.forgotten) from h.count,
      ← shorter, Nat.add_right_comm, UInt64.ofNat_add, UInt64.add_sub_cancel]

/-- `ShutDown` frees the records. -/
lemma Consistent.shutDown (h : Consistent s live free) {storage' : List ν}
    (res : s.allocator.shutDown fuel s.storage = some (m', storage')) :
    Consistent
      { s with
        allocator := m'
        storage := storage'
        tracked := []
        untracked := s.addresses
        most := 0
        kept := storage'.length
        forgotten := s.forgotten + s.tracked.length }
      (fun _ => none) free := by
  obtain ⟨k, m1, storage1, returns, left, sound, count, -⟩ := h.sound.shutDown h.storage_nodup h.mem_storage
  have same : (m1, storage1) = (m', storage') := by
    refine Option.some.inj ((returns _ (Nat.le_max_left k fuel)).symm.trans ?_)
    exact MemTrackAllocator.shutDown_mono res (Nat.le_max_right k fuel)
  cases same
  constructor
  · exact sound
  · nofun
  · nofun
  · exact List.nodup_nil
  · exact left.nodup_iff.mpr h.sound.free_chain.nodup
  · intro n
    simp [left.mem_iff]
  · simp [left.length_eq]
  · exact (Nat.max_zero _).symm
  · refine count.trans (h.count.trans (congrArg UInt64.ofNat ?_))
    simp [Nat.add_comm]

/-- Every call keeps the records in their places. -/
lemma Consistent.step (h : Consistent s live free) (st : Step ndebug s a s') :
    ∃ live' free', Consistent s' live' free' := by
  cases st with
  | allocate_null res =>
    cases res
    exact ⟨live, free, h⟩
  | allocate_untracked _ new res =>
    rw [MemTrackAllocator.allocate_untracked new] at res
    cases res
    exact ⟨live, free, { h with }⟩
  | allocate_tracked fresh external new res => exact ⟨_, _, h.allocate_tracked fresh external new res⟩
  | allocateUnplaced _ res =>
    cases res
    exact ⟨live, free, { h with }⟩
  | deAllocate_null res =>
    cases res
    exact ⟨live, free, h⟩
  | deAllocate _ res => exact ⟨_, _, h.deAllocate res⟩
  | dumpMemStatus => exact ⟨live, free, h⟩
  | shutDown res => exact ⟨_, _, h.shutDown res⟩

end Steps

/-! ## All runs -/

section Runs
variable [DecidableEq ν] {raw : ν → AllocateInfo ν} {l : List (Call ν)}

/-- Every run keeps the records consistent. -/
lemma consistent_of_run (run : Run (Step ndebug) (new raw) l s) : ∃ live free, Consistent s live free := by
  refine run.invariant (I := fun s => ∃ live free, Consistent s live free) ⟨_, _, .new raw⟩ ?_
  rintro s a s' ⟨live, free, h⟩ st
  exact h.step st

/-- At any moment `DumpMemStatus` returns and calls the callback once for every allocation that got a record
    and was neither released nor forgotten by `ShutDown`, with the record of that allocation. -/
theorem report_of_run (run : Run (Step ndebug) (new raw) l s) :
    ∃ infos : List (AllocateInfo ν), (infos.map AllocateInfo.data).Perm s.tracked ∧
      ∀ (σ : Type) (cb : AllocateInfo ν → σ → Bool × σ) (own : σ), ∃ k, ∀ fuel ≥ k,
        s.allocator.dumpMemStatus (some cb) fuel own =
          some (infos.foldl (fun own info => (cb info own).2) own) := by
  obtain ⟨live, free, h⟩ := consistent_of_run run
  obtain ⟨chain, linked⟩ := h.sound.table
  obtain ⟨b, enough⟩ := AllocHashTable.exists_length_lt chain s.allocator.m_AllocHT.m_Size
  refine ⟨(AllocHashTable.nodesBelow chain s.allocator.m_AllocHT.m_Size).map s.allocator.m_AllocHT.infos,
    ?_, fun σ cb own => ⟨b, fun fuel le => ?_⟩⟩
  · rw [List.map_map]
    exact h.perm_tracked linked.nodup_nodesBelow linked.mem_nodesBelow
  · exact linked.forAllAllocInfo (fun i lt => Nat.lt_of_lt_of_le (enough i lt) le) own

/-- At any moment `ShutDown` would return. It frees the records of the tracked allocations, each once, and
    reads none that has been freed; all buckets are empty then. The free records stay, and nothing will ever
    free them. -/
theorem shutDown_of_run (run : Run (Step ndebug) (new raw) l s) :
    ∃ k m' storage' freed, (∀ fuel ≥ k, s.allocator.shutDown fuel s.storage = some (m', storage')) ∧
      s.storage.Perm (freed ++ storage') ∧
      (freed.map fun n => (s.allocator.m_AllocHT.infos n).data).Perm s.tracked ∧
      (∀ i < m'.m_AllocHT.m_Size, m'.m_AllocHT.m_AllocInfo i = none) ∧
      ∃ free, Chain m'.m_AllocHT.next m'.m_FreeInfo free ∧ storage'.Perm free := by
  obtain ⟨live, free, h⟩ := consistent_of_run run
  obtain ⟨k, m', storage', returns, left, sound, -, empty⟩ :=
    h.sound.shutDown h.storage_nodup h.mem_storage
  obtain ⟨chain, linked⟩ := h.sound.table
  refine ⟨k, m', storage', AllocHashTable.nodesBelow chain s.allocator.m_AllocHT.m_Size, returns, ?_,
    h.perm_tracked linked.nodup_nodesBelow linked.mem_nodesBelow, empty, free, sound.free_chain, left⟩
  refine (List.perm_ext_iff_of_nodup h.storage_nodup ?_).mpr fun n => ?_
  · refine linked.nodup_nodesBelow.append (left.nodup_iff.mpr h.sound.free_chain.nodup) fun n hn hf => ?_
    obtain ⟨a, ha⟩ := (linked.mem_nodesBelow n).mp hn
    exact h.sound.free_out n (left.mem_iff.mp hf) a ha
  · rw [h.mem_storage, List.mem_append, linked.mem_nodesBelow, left.mem_iff]

/-- Since the last `ShutDown` no more records were made than were needed at a time, and the count that
    `GetAllocatedCount` returns still has the allocations whose records `ShutDown` has freed. -/
theorem storage_of_run (run : Run (Step ndebug) (new raw) l s) :
    s.storage.length = max s.kept s.most ∧
      s.allocator.getAllocatedCount = UInt64.ofNat (s.tracked.length + s.forgotten) := by
  obtain ⟨live, free, h⟩ := consistent_of_run run
  exact ⟨h.length, h.count⟩

end Runs

/-! ## Eight bytes at address 16 -/

/-- Storage for one record. -/
def blank : AllocateInfo Unit :=
  { m_Addr := 0, m_Srcfile := [], m_SrcFunc := [], m_SrcLine := 0, m_AllocSize := 0
    m_Next := none, m_Prev := none }

def allocate16 : Call Unit :=
  .allocate (some 16) (some ()) 8 [] [] 1

/-- One allocation. -/
lemma run_allocate16 :
    ∃ s, Run (Step true) (new fun _ => blank) [allocate16] s ∧ s.tracked.length = 1 ∧ s.forgotten = 0 := by
  have start := Consistent.new fun _ : Unit => blank
  have fresh : 16 ∉ (new fun _ : Unit => blank).addresses := List.not_mem_nil
  have external : ∀ k, some () = some k → k ∉ (new fun _ : Unit => blank).storage :=
    fun _ _ => List.not_mem_nil
  have fits : (c_str []).length < MemTrackAllocator.XLN_ALLOCINFO_FILENAME_LEN := by decide
  obtain ⟨_, m1, res⟩ := start.sound.exists_allocate true (start.live_none fresh)
    (fun k hk => start.held_external (external k hk)) 8 1 fits fits
  exact ⟨_, .single (.allocate_tracked fresh external rfl res), rfl, rfl⟩

/-- The report has the one allocation. -/
theorem report_of_run_allocate16 :
    ∃ s, Run (Step true) (new fun _ => blank) [allocate16] s ∧ s.tracked.length = 1 ∧
      ∃ infos : List (AllocateInfo Unit), (infos.map AllocateInfo.data).Perm s.tracked ∧
        ∀ (σ : Type) (cb : AllocateInfo Unit → σ → Bool × σ) (own : σ), ∃ k, ∀ fuel ≥ k,
          s.allocator.dumpMemStatus (some cb) fuel own =
            some (infos.foldl (fun own info => (cb info own).2) own) := by
  obtain ⟨s, run, one, -⟩ := run_allocate16
  exact ⟨s, run, one, report_of_run run⟩

/-- `ShutDown` frees its record. -/
theorem shutDown_of_run_allocate16 :
    ∃ s, Run (Step true) (new fun _ => blank) [allocate16] s ∧
      ∃ k m' storage' freed, (∀ fuel ≥ k, s.allocator.shutDown fuel s.storage = some (m', storage')) ∧
        s.storage.Perm (freed ++ storage') ∧
        (freed.map fun n => (s.allocator.m_AllocHT.infos n).data).Perm s.tracked ∧
        (∀ i < m'.m_AllocHT.m_Size, m'.m_AllocHT.m_AllocInfo i = none) ∧
        ∃ free, Chain m'.m_AllocHT.next m'.m_FreeInfo free ∧ storage'.Perm free := by
  obtain ⟨s, run, -, -⟩ := run_allocate16
  exact ⟨s, run, shutDown_of_run run⟩

/-- After `ShutDown` the allocation is still counted. -/
theorem storage_of_run_forgotten :
    ∃ s, Run (Step true) (new fun _ => blank) [allocate16, .shutDown] s ∧ s.tracked = [] ∧ s.forgotten = 1 ∧
      s.storage.length = max s.kept s.most ∧
      s.allocator.getAllocatedCount = UInt64.ofNat (s.tracked.length + s.forgotten) := by
  obtain ⟨s, run, one, zero⟩ := run_allocate16
  obtain ⟨live, free, h⟩ := consistent_of_run run
  obtain ⟨k, m', storage', returns, -⟩ := h.sound.shutDown h.storage_nodup h.mem_storage
  have run' := run.snoc (.shutDown (returns k (Nat.le_refl k)))
  refine ⟨_, run', rfl, ?_, storage_of_run run'⟩
  change s.forgotten + s.tracked.length = 1
  rw [one, zero]

end LeakRun
end XLN
