import XLN.DebugHelper.Memory.Tracking
import Mathlib.Data.Fintype.Basic

/-!
# Threads that allocate and release

Any number of threads call `Allocate` and `DeAllocate` of one `MemTrackAllocator`. A step is one access to
what the threads share: a call of the tracked allocator, an operation on the table or on the list of free
records, or one atomic operation on a counter. `DeAllocate` gives the memory back before it removes the
record, so an address can be in the table and be handed out again.

`exact_of_safe`: when no `Insert` overtakes the `Remove` of an older allocation at the same address, and the
sizes fit into the record, the table of a quiet state has exactly the live tracked allocations.
-/

namespace XLN
open Transition LinkedList

namespace Threads

/-- The arguments of an `Allocate` call and the address it got. -/
structure Request extends Allocation where
  file : ByteString
  func : ByteString
  deriving DecidableEq

/-- The operations of `Allocate` on the counters, in their order, with the values loaded so far. The order
    of the two loads of a `std::max` is up to the compiler. -/
inductive Counting where
  | addSize
  | addCount
  | maxSize
  | loadSize (peak : UInt64)
  | loadPeakSize (allocated : UInt64)
  | storePeakSize (peak : UInt64)
  | maxCount
  | loadCount (peak : UInt64)
  | loadPeakCount (allocated : UInt64)
  | storePeakCount (peak : UInt64)
  deriving DecidableEq

/-- One operation on the counters and what comes next; of the two loads of a `std::max` it is that of the
    peak first. -/
def Counting.run {ν : Type} (stSizeInBytes : UInt64) (m : MemTrackAllocator ν) :
    Counting → MemTrackAllocator ν × Option Counting
  | addSize =>
    ({ m with m_lAllocatedSize := m.m_lAllocatedSize + stSizeInBytes }, some addCount)
  | addCount => ({ m with m_lAllocatedCount := m.m_lAllocatedCount + 1 }, some maxSize)
  | maxSize => (m, some (loadSize m.m_lPeakSize))
  | loadSize peak => (m, some (storePeakSize (max peak m.m_lAllocatedSize)))
  | loadPeakSize allocated => (m, some (storePeakSize (max m.m_lPeakSize allocated)))
  | storePeakSize peak => ({ m with m_lPeakSize := peak }, some maxCount)
  | maxCount => (m, some (loadCount m.m_lPeakCount))
  | loadCount peak => (m, some (storePeakCount (max peak m.m_lAllocatedCount)))
  | loadPeakCount allocated => (m, some (storePeakCount (max m.m_lPeakCount allocated)))
  | storePeakCount peak => ({ m with m_lPeakCount := peak }, none)

/-- The other order: the counter is loaded before its peak. -/
def Counting.allocatedFirst {ν : Type} (m : MemTrackAllocator ν) : Counting → Option Counting
  | maxSize => some (loadPeakSize m.m_lAllocatedSize)
  | maxCount => some (loadPeakCount m.m_lAllocatedCount)
  | _ => none

/-- Where a thread is: between two calls, in `Allocate` or in `DeAllocate`. -/
inductive Pc (ν : Type) where
  | idle
  | getNextFreeInfo (r : Request)
  | externalAlloc (r : Request)
  | fill (r : Request) (newInfo : ν)
  | count (r : Request) (newInfo : ν) (next : Counting)
  | insert (r : Request) (newInfo : ν)
  | remove (p : Ptr)
  | subSize (freeInfo : ν)
  | subCount (freeInfo : ν)
  | addFreeInfo (freeInfo : ν)
  deriving DecidableEq

/-- `Allocate` goes on with the counters or with `Insert`. -/
def Pc.counting {ν : Type} (r : Request) (newInfo : ν) : Option Counting → Pc ν
  | some next => .count r newInfo next
  | none => .insert r newInfo

/-- `DeAllocate` goes on after `Remove` when there was a record. -/
def Pc.removed {ν : Type} : Option ν → Pc ν
  | some freeInfo => .subSize freeInfo
  | none => .idle

/-- What a thread does next. Calls and the result of `XLN_ExternalAlloc` come from outside;
    `allocatedFirst` is the second order of the two loads. -/
inductive Move (ν : Type) where
  | allocate (allocatedAddr : Option Ptr) (stSizeInBytes : UInt64) (file func : ByteString)
      (line : Int32)
  | deAllocate (p : Ptr)
  | externalAlloc (result : Option ν)
  | allocatedFirst
  | run

end Threads

/-- The threads, known by a type `τ`, and the allocator they share. `inUse` are the addresses that the
    tracked allocator has handed out and not got back, `nodes` the records made by `XLN_ExternalAlloc`,
    `tracked` and `untracked` the allocations that were returned to a caller and not released. -/
structure Threads (τ ν : Type) where
  allocator : MemTrackAllocator ν
  pc : τ → Threads.Pc ν
  inUse : List Ptr
  nodes : List ν
  tracked : List Allocation
  untracked : List Ptr

namespace Threads

variable {τ ν : Type}

def new (raw : ν → AllocateInfo ν) : Threads τ ν :=
  { allocator := .new raw
    pc := fun _ => .idle
    inUse := []
    nodes := []
    tracked := []
    untracked := [] }

/-- The addresses that callers hold. -/
def owned (s : Threads τ ν) : List Ptr :=
  s.tracked.map Allocation.addr ++ s.untracked

/-- A thread gets to another place. -/
def goto [DecidableEq τ] (i : τ) (pc : Pc ν) (s : Threads τ ν) : Threads τ ν :=
  { s with pc := Function.update s.pc i pc }

/-- One step of thread `i`. Gives `none` when the thread cannot make the move, when an assertion fails or
    when the fuel does not suffice for the loops of the table. -/
def step [DecidableEq τ] [DecidableEq ν] (ndebug : Bool) (fuel : Nat) (s : Threads τ ν)
    (a : τ × Move ν) : Option (Threads τ ν) :=
  match s.pc a.1, a.2 with
  | .idle, .allocate allocatedAddr size file func line =>
    match allocatedAddr with
    | none => some s
    | some addr =>
      if addr ∈ s.inUse then none
      else some
        ({ s with inUse := addr :: s.inUse }.goto a.1
          (.getNextFreeInfo { addr, size, line, file, func }))
  | .getNextFreeInfo r, .run =>
    match s.allocator.getNextFreeInfo with
    | (some newInfo, m) => some ({ s with allocator := m }.goto a.1 (.fill r newInfo))
    | (none, _) => some (s.goto a.1 (.externalAlloc r))
  | .externalAlloc r, .externalAlloc result =>
    match result with
    | none => some ({ s with untracked := r.addr :: s.untracked }.goto a.1 .idle)
    | some newInfo =>
      if newInfo ∈ s.nodes then none
      else some ({ s with nodes := newInfo :: s.nodes }.goto a.1 (.fill r newInfo))
  | .fill r newInfo, .run => do
    let m ← s.allocator.fill newInfo r.addr r.size r.file r.func r.line
    return { s with allocator := m }.goto a.1 (.count r newInfo .addSize)
  | .count r newInfo next, .run =>
    let (m, next) := next.run r.size s.allocator
    some ({ s with allocator := m }.goto a.1 (.counting r newInfo next))
  | .count r newInfo next, .allocatedFirst => do
    let next ← next.allocatedFirst s.allocator
    return s.goto a.1 (.count r newInfo next)
  | .insert r newInfo, .run => do
    let t ← s.allocator.m_AllocHT.insert ndebug fuel newInfo
    return { s with
      allocator := { s.allocator with m_AllocHT := t }
      tracked := r.toAllocation :: s.tracked }.goto a.1 .idle
  | .idle, .deAllocate p =>
    if p ∈ s.owned then
      some ({ s with
        inUse := s.inUse.erase p
        tracked := s.tracked.filter fun x => x.addr ≠ p
        untracked := s.untracked.erase p }.goto a.1 (.remove p))
    else none
  | .remove p, .run => do
    let (freeInfo, t) ← s.allocator.m_AllocHT.remove fuel p
    return { s with allocator := { s.allocator with m_AllocHT := t } }.goto a.1 (.removed freeInfo)
  | .subSize freeInfo, .run =>
    let size := (s.allocator.m_AllocHT.infos freeInfo).m_AllocSize.toInt64.toUInt64
    some ({ s with
      allocator := { s.allocator with m_lAllocatedSize := s.allocator.m_lAllocatedSize - size } }.goto
        a.1 (.subCount freeInfo))
  | .subCount freeInfo, .run =>
    some ({ s with
      allocator := { s.allocator with m_lAllocatedCount := s.allocator.m_lAllocatedCount - 1 } }.goto
        a.1 (.addFreeInfo freeInfo))
  | .addFreeInfo freeInfo, .run =>
    some ({ s with allocator := s.allocator.addFreeInfo freeInfo }.goto a.1 .idle)
  | _, _ => none

/-- No call is in progress. -/
def Quiet (s : Threads τ ν) : Prop :=
  ∀ i, s.pc i = .idle

/-- The table has exactly one entry for each live tracked allocation, with its size and line. -/
structure Exact (s : Threads τ ν) : Prop where
  nodup : (s.tracked.map Allocation.addr).Nodup
  table : ∃ chain live, s.allocator.m_AllocHT.Represents chain live ∧
    (∀ x ∈ s.tracked, ∃ n, live x.addr = some n ∧
      (s.allocator.m_AllocHT.infos n).m_AllocSize.toInt = x.size.toNat ∧
      (s.allocator.m_AllocHT.infos n).m_SrcLine = x.line) ∧
    ∀ a n, live a = some n → ∃ x ∈ s.tracked, x.addr = a

/-- An `Insert` does not overtake the `Remove` of a released allocation at the same address, and the size
    fits into the record. -/
def Safe (s : Threads τ ν) (a : τ × Move ν) : Prop :=
  ∀ r newInfo, s.pc a.1 = .insert r newInfo →
    r.size.toNat < 2 ^ 31 ∧ ∀ j, s.pc j ≠ .remove r.addr

/-- With finitely many threads a step can be checked. -/
instance [Fintype τ] [DecidableEq ν] (s : Threads τ ν) (a : τ × Move ν) : Decidable (Safe s a) :=
  match e : s.pc a.1 with
  | .insert r n =>
    if safe : r.size.toNat < 2 ^ 31 ∧ ∀ j, s.pc j ≠ .remove r.addr then
      isTrue fun r' n' e' => by
        cases e.symm.trans e'
        exact safe
    else isFalse fun h => safe (h r n e)
  | .idle | .getNextFreeInfo _ | .externalAlloc _ | .fill _ _ | .count _ _ _ | .remove _
  | .subSize _ | .subCount _ | .addFreeInfo _ => isTrue fun _ _ e' => by
    rw [e] at e'
    cases e'

/-! ## What a place means -/

namespace Pc

/-- The address that an `Allocate` in progress has got. -/
def addr : Pc ν → Option Ptr
  | getNextFreeInfo r | externalAlloc r | fill r _ | count r _ _ | insert r _ => some r.addr
  | _ => none

/-- The record that the thread works on. -/
def node : Pc ν → Option ν
  | fill _ n | count _ n _ | insert _ n | subSize n | subCount n | addFreeInfo n => some n
  | _ => none

/-- The request whose record is filled in. -/
def ready : Pc ν → Option (Request × ν)
  | count r n _ | insert r n => some (r, n)
  | _ => none

/-- While `Allocate` counts, it keeps its address and its record. -/
lemma counting_eq (r : Request) (n : ν) (next : Option Counting) :
    (counting r n next).addr = some r.addr ∧ (counting r n next).node = some n ∧
      (counting r n next).ready = some (r, n) ∧ ∀ p, counting r n next ≠ .remove p := by
  cases next <;> exact ⟨rfl, rfl, rfl, fun _ => nofun⟩

end Pc

/-- The operations on the counters leave the records alone. -/
lemma Counting.run_keeps (stSizeInBytes : UInt64) (m : MemTrackAllocator ν) (next : Counting) :
    (next.run stSizeInBytes m).1.m_AllocHT = m.m_AllocHT ∧
      (next.run stSizeInBytes m).1.m_FreeInfo = m.m_FreeInfo := by
  cases next <;> exact ⟨rfl, rfl⟩

/-- Every address belongs to one caller or one call. -/
structure Owners (s : Threads τ ν) : Prop where
  nodup : s.owned.Nodup
  inUse : ∀ a ∈ s.owned, a ∈ s.inUse
  pending : ∀ i a, (s.pc i).addr = some a → a ∈ s.inUse ∧ a ∉ s.owned
  distinct : ∀ i j a, (s.pc i).addr = some a → (s.pc j).addr = some a → i = j

/-- Every record belongs to the table, to the list of free records or to one call. -/
structure Nodes (s : Threads τ ν) (live : Ptr → Option ν) (free : List ν) : Prop where
  sound : s.allocator.Sound live free
  held : ∀ i n, (s.pc i).node = some n → Held live free n
  distinct : ∀ i j n, (s.pc i).node = some n → (s.pc j).node = some n → i = j
  made : ∀ i n, (s.pc i).node = some n → n ∈ s.nodes
  live_made : ∀ a n, live a = some n → n ∈ s.nodes
  free_made : ∀ n ∈ free, n ∈ s.nodes
  filled : ∀ i r n, (s.pc i).ready = some (r, n) →
    MemTrackAllocator.Filled (s.allocator.m_AllocHT.infos n) r.addr r.size r.line

/-- The entries of the table are the live tracked allocations and those whose `Remove` is still to come. -/
structure Entries (s : Threads τ ν) (live : Ptr → Option ν) (entries : List Allocation) : Prop where
  mirrors : Mirrors s.allocator.m_AllocHT live entries
  cases : ∀ x ∈ entries, x ∈ s.tracked ∨ ∃ i, s.pc i = .remove x.addr
  tracked : ∀ x ∈ s.tracked, x ∈ entries
  released : ∀ i p, s.pc i = .remove p → ∀ x ∈ s.tracked, x.addr ≠ p
  small : ∀ x ∈ s.tracked, x.size.toNat < 2 ^ 31

variable {s t : Threads τ ν} {i j : τ} {a : τ × Move ν} {pc : Pc ν} {addr : Ptr} {n : ν}
  {live : Ptr → Option ν} {free : List ν} {entries : List Allocation} {ndebug : Bool} {fuel : Nat}

section Owners
variable [DecidableEq τ]

/-- What does not change where thread `i` is changes nowhere. -/
lemma same_of_update {β : Type} (f : Pc ν → β) (pcs : t.pc = Function.update s.pc i pc)
    (same : f pc = f (s.pc i)) (j : τ) : f (t.pc j) = f (s.pc j) := by
  rw [pcs]
  by_cases e : j = i
  · subst e
    rw [Function.update_self, same]
  · rw [Function.update_of_ne e]

/-- The other threads stay where they are. -/
lemma pc_of_ne (pcs : t.pc = Function.update s.pc i pc) (ne : j ≠ i) : t.pc j = s.pc j := by
  rw [pcs, Function.update_of_ne ne]

/-- The thread that moves. -/
lemma pc_self (pcs : t.pc = Function.update s.pc i pc) : t.pc i = pc := by
  rw [pcs, Function.update_self]

/-- Where thread `i` went, `f` is not `b`, so a thread at which it is was there before. -/
lemma before_update {β : Type} (f : Pc ν → β) (pcs : t.pc = Function.update s.pc i pc) {b : β}
    (after : f pc ≠ b) (hj : f (t.pc j) = b) : j ≠ i ∧ f (s.pc j) = b := by
  have ne : j ≠ i := by
    rintro rfl
    rw [pc_self pcs] at hj
    exact after hj
  rw [pc_of_ne pcs ne] at hj
  exact ⟨ne, hj⟩

/-- A thread at `q` stays there when thread `i` comes from elsewhere. -/
lemma after_update (pcs : t.pc = Function.update s.pc i pc) {q : Pc ν} (before : s.pc i ≠ q)
    (hj : s.pc j = q) : t.pc j = q := by
  have ne : j ≠ i := by
    rintro rfl
    exact before hj
  rwa [pc_of_ne pcs ne]

/-- What at most one thread has, and what thread `i` gets no other thread has, at most one thread has. -/
lemma distinct_of_update {β : Type} (f : Pc ν → Option β) (pcs : t.pc = Function.update s.pc i pc)
    (h : ∀ j k b, f (s.pc j) = some b → f (s.pc k) = some b → j = k)
    (mine : ∀ j b, f pc = some b → f (s.pc j) = some b → j = i) (j k : τ) (b : β)
    (hj : f (t.pc j) = some b) (hk : f (t.pc k) = some b) : j = k := by
  by_cases ej : j = i
  · subst ej
    rw [pc_self pcs] at hj
    by_contra ne
    rw [pc_of_ne pcs (Ne.symm ne)] at hk
    exact ne (mine k b hj hk).symm
  · rw [pc_of_ne pcs ej] at hj
    by_cases ek : k = i
    · subst ek
      rw [pc_self pcs] at hk
      exact mine j b hk hj
    · rw [pc_of_ne pcs ek] at hk
      exact h j k b hj hk

/-- A step that concerns no address. -/
lemma Owners.move (h : Owners s) (pcs : t.pc = Function.update s.pc i pc)
    (same : pc.addr = (s.pc i).addr) (owned : t.owned = s.owned) (inUse : t.inUse = s.inUse) :
    Owners t := by
  have addr := same_of_update Pc.addr pcs same
  constructor
  · exact owned ▸ h.nodup
  · exact owned ▸ inUse ▸ h.inUse
  · intro j a ha
    rw [owned, inUse]
    exact h.pending j a (addr j ▸ ha)
  · intro j k a hj hk
    exact h.distinct j k a (addr j ▸ hj) (addr k ▸ hk)

/-- The tracked allocator hands out an address. -/
lemma Owners.begin (h : Owners s) (pcs : t.pc = Function.update s.pc i pc) (new : addr ∉ s.inUse)
    (pending : pc.addr = some addr) (owned : t.owned = s.owned) (inUse : t.inUse = addr :: s.inUse) :
    Owners t := by
  constructor
  · exact owned ▸ h.nodup
  · intro a ha
    rw [inUse]
    exact List.mem_cons_of_mem addr (h.inUse a (owned ▸ ha))
  · intro j a ha
    rw [owned, inUse]
    by_cases e : j = i
    · subst e
      rw [pc_self pcs, pending] at ha
      cases ha
      exact ⟨List.mem_cons_self, fun hm => new (h.inUse addr hm)⟩
    · rw [pc_of_ne pcs e] at ha
      exact ⟨List.mem_cons_of_mem addr (h.pending j a ha).1, (h.pending j a ha).2⟩
  · refine distinct_of_update Pc.addr pcs h.distinct fun j a ha hj => ?_
    rw [pending] at ha
    cases ha
    exact absurd (h.pending j addr hj).1 new

/-- A call gives its address to its caller. -/
lemma Owners.settle (h : Owners s) (pcs : t.pc = Function.update s.pc i pc)
    (pending : (s.pc i).addr = some addr) (none : pc.addr = none)
    (owned : t.owned.Perm (addr :: s.owned)) (inUse : t.inUse = s.inUse) : Owners t := by
  have mine := h.pending i addr pending
  constructor
  · exact owned.nodup_iff.mpr (List.nodup_cons.mpr ⟨mine.2, h.nodup⟩)
  · intro a ha
    rw [inUse]
    rcases List.mem_cons.mp (owned.mem_iff.mp ha) with rfl | ha
    · exact mine.1
    · exact h.inUse a ha
  · intro j a ha
    obtain ⟨ne, ha⟩ := before_update Pc.addr pcs (by simp [none]) ha
    rw [inUse, owned.mem_iff, List.mem_cons, not_or]
    refine ⟨(h.pending j a ha).1, ?_, (h.pending j a ha).2⟩
    rintro rfl
    exact ne (h.distinct j i a ha pending)
  · exact distinct_of_update Pc.addr pcs h.distinct (by simp [none])

/-- A caller gives an address back. -/
lemma Owners.release (h : Owners s) (pcs : t.pc = Function.update s.pc i pc) (none : pc.addr = none)
    (mem : addr ∈ s.owned) (owned : t.owned.Sublist s.owned) (gone : addr ∉ t.owned)
    (inUse : t.inUse = s.inUse.erase addr) : Owners t := by
  constructor
  · exact h.nodup.sublist owned
  · intro a ha
    have ne : a ≠ addr := by
      rintro rfl
      exact gone ha
    rw [inUse]
    exact (List.mem_erase_of_ne ne).mpr (h.inUse a (owned.subset ha))
  · intro j a ha
    obtain ⟨-, ha⟩ := before_update Pc.addr pcs (by simp [none]) ha
    obtain ⟨used, other⟩ := h.pending j a ha
    rw [inUse]
    refine ⟨(List.mem_erase_of_ne ?_).mpr used, fun hm => other (owned.subset hm)⟩
    rintro rfl
    exact other mem
  · exact distinct_of_update Pc.addr pcs h.distinct (by simp [none])

end Owners

section Nodes

/-- A request with a filled record has the record. -/
lemma ready_node {pc : Pc ν} {r : Request} (ready : pc.ready = some (r, n)) :
    pc.node = some n := by
  cases pc <;> cases ready <;> rfl

variable [DecidableEq τ]

/-- A step in which no thread gets or gives a record. -/
lemma Nodes.move (h : Nodes s live free) (pcs : t.pc = Function.update s.pc i pc)
    (same : pc.node = (s.pc i).node) (ready : pc.ready = (s.pc i).ready) {live' : Ptr → Option ν}
    (sound : t.allocator.Sound live' free) (nodes : t.nodes = s.nodes)
    (live_sub : ∀ a k, live' a = some k → live a = some k)
    (data : ∀ j k, (s.pc j).node = some k →
      t.allocator.m_AllocHT.infos k = s.allocator.m_AllocHT.infos k) : Nodes t live' free := by
  have node := same_of_update Pc.node pcs same
  have ready := same_of_update Pc.ready pcs ready
  constructor
  · exact sound
  · intro j n hj
    obtain ⟨notFree, notLive⟩ := h.held j n (node j ▸ hj)
    exact ⟨notFree, fun a ha => notLive a (live_sub a n ha)⟩
  · exact fun j k n hj hk => h.distinct j k n (node j ▸ hj) (node k ▸ hk)
  · exact fun j n hj => nodes ▸ h.made j n (node j ▸ hj)
  · exact fun a n ha => nodes ▸ h.live_made a n (live_sub a n ha)
  · exact nodes ▸ h.free_made
  · intro j r n hj
    rw [ready j] at hj
    rw [data j n (ready_node hj)]
    exact h.filled j r n hj

/-- A thread takes a record from the list, makes one or gets one out of the table. -/
lemma Nodes.take (h : Nodes s live free) (pcs : t.pc = Function.update s.pc i pc)
    {live' : Ptr → Option ν} {free' : List ν} (sound : t.allocator.Sound live' free')
    (node : pc.node = some n) (ready : pc.ready = none) (held : Held live' free' n)
    (mine : ∀ j, j ≠ i → (s.pc j).node ≠ some n) (made : n ∈ t.nodes)
    (nodes : ∀ k ∈ s.nodes, k ∈ t.nodes) (live_sub : ∀ a k, live' a = some k → live a = some k)
    (free_sub : ∀ k ∈ free', k ∈ free)
    (data : ∀ j k, (s.pc j).node = some k →
      t.allocator.m_AllocHT.infos k = s.allocator.m_AllocHT.infos k) : Nodes t live' free' := by
  constructor
  · exact sound
  · intro j k hj
    by_cases e : j = i
    · subst e
      rw [pc_self pcs, node] at hj
      cases hj
      exact held
    · rw [pc_of_ne pcs e] at hj
      obtain ⟨notFree, notLive⟩ := h.held j k hj
      exact ⟨fun hm => notFree (free_sub k hm), fun a ha => notLive a (live_sub a k ha)⟩
  · refine distinct_of_update Pc.node pcs h.distinct fun j k hk hj => ?_
    by_contra e
    exact mine j e (hj.trans (hk.symm.trans node))
  · intro j k hj
    by_cases e : j = i
    · subst e
      rw [pc_self pcs, node] at hj
      cases hj
      exact made
    · rw [pc_of_ne pcs e] at hj
      exact nodes k (h.made j k hj)
  · exact fun a k hk => nodes k (h.live_made a k (live_sub a k hk))
  · exact fun k hk => nodes k (h.free_made k (free_sub k hk))
  · intro j r k hj
    obtain ⟨-, hj⟩ := before_update Pc.ready pcs (by simp [ready]) hj
    rw [data j k (ready_node hj)]
    exact h.filled j r k hj

/-- A thread gives its record to the table or to the list. -/
lemma Nodes.give (h : Nodes s live free) (pcs : t.pc = Function.update s.pc i pc)
    {live' : Ptr → Option ν} {free' : List ν} (sound : t.allocator.Sound live' free')
    (node : (s.pc i).node = some n) (none : pc.node = none) (nodes : t.nodes = s.nodes)
    (live_sub : ∀ a k, live' a = some k → live a = some k ∨ k = n)
    (free_sub : ∀ k ∈ free', k ∈ free ∨ k = n)
    (data : ∀ j k, j ≠ i → (s.pc j).node = some k →
      t.allocator.m_AllocHT.infos k = s.allocator.m_AllocHT.infos k) : Nodes t live' free' := by
  have other : ∀ j k, (t.pc j).node = some k → (s.pc j).node = some k ∧ k ≠ n := by
    intro j k hj
    obtain ⟨ne, hj⟩ := before_update Pc.node pcs (by simp [none]) hj
    refine ⟨hj, ?_⟩
    rintro rfl
    exact ne (h.distinct j i k hj node)
  have made := h.made i n node
  constructor
  · exact sound
  · intro j k hj
    obtain ⟨hj, ne⟩ := other j k hj
    obtain ⟨notFree, notLive⟩ := h.held j k hj
    exact ⟨fun hm => (free_sub k hm).elim notFree ne, fun a ha => (live_sub a k ha).elim (notLive a) ne⟩
  · exact fun j k n hj hk => h.distinct j k n (other j n hj).1 (other k n hk).1
  · exact fun j k hj => nodes ▸ h.made j k (other j k hj).1
  · intro a k hk
    rw [nodes]
    rcases live_sub a k hk with hk | rfl
    · exact h.live_made a k hk
    · exact made
  · intro k hk
    rw [nodes]
    rcases free_sub k hk with hk | rfl
    · exact h.free_made k hk
    · exact made
  · intro j r k hj
    obtain ⟨ne, node'⟩ := before_update Pc.node pcs (by simp [none]) (ready_node hj)
    rw [pc_of_ne pcs ne] at hj
    rw [data j k ne node']
    exact h.filled j r k hj

/-- A thread fills in its record. -/
lemma Nodes.fill [DecidableEq ν] (h : Nodes s live free) (pcs : t.pc = Function.update s.pc i pc)
    {r : Request} {contents : AllocateInfo ν} (node : (s.pc i).node = some n)
    (ready : pc.ready = some (r, n)) (nodes : t.nodes = s.nodes)
    (filled : MemTrackAllocator.Filled contents r.addr r.size r.line)
    (write : t.allocator = s.allocator.write n contents) : Nodes t live free := by
  have node' := same_of_update Pc.node pcs ((ready_node ready).trans node.symm)
  constructor
  · exact write ▸ h.sound.write (h.held i n node) contents
  · exact fun j k hj => h.held j k (node' j ▸ hj)
  · exact fun j k m hj hk => h.distinct j k m (node' j ▸ hj) (node' k ▸ hk)
  · exact fun j k hj => nodes ▸ h.made j k (node' j ▸ hj)
  · exact nodes ▸ h.live_made
  · exact nodes ▸ h.free_made
  · intro j r' k hj
    rw [write]
    by_cases e : j = i
    · subst e
      rw [pc_self pcs, ready] at hj
      cases hj
      rwa [MemTrackAllocator.write_infos]
    · rw [pc_of_ne pcs e] at hj
      have ne : k ≠ n := by
        rintro rfl
        exact e (h.distinct j i k (ready_node hj) node)
      rw [show (s.allocator.write n contents).m_AllocHT.infos k = s.allocator.m_AllocHT.infos k from
        Function.update_of_ne ne ..]
      exact h.filled j r' k hj

end Nodes

section Entries
variable [DecidableEq τ]

/-- A step that concerns no entry. -/
lemma Entries.move (h : Entries s live entries) (pcs : t.pc = Function.update s.pc i pc)
    (before : ∀ p, s.pc i ≠ .remove p) (after : ∀ p, pc ≠ .remove p) (tracked : t.tracked = s.tracked)
    (data : ∀ a n, live a = some n →
      (t.allocator.m_AllocHT.infos n).data = (s.allocator.m_AllocHT.infos n).data) :
    Entries t live entries := by
  constructor
  · exact h.mirrors.congr data
  · intro x hx
    rw [tracked]
    exact (h.cases x hx).imp id fun ⟨j, hj⟩ => ⟨j, after_update pcs (before x.addr) hj⟩
  · exact tracked ▸ h.tracked
  · intro j p hj x hx
    exact h.released j p (before_update id pcs (after p) hj).2 x (tracked ▸ hx)
  · exact tracked ▸ h.small

/-- A caller gives an address back; its entry waits for the `Remove`. -/
lemma Entries.release (h : Entries s live entries)
    (pcs : t.pc = Function.update s.pc i (.remove addr)) (idle : s.pc i = .idle)
    (tracked : t.tracked = s.tracked.filter fun x => x.addr ≠ addr)
    (table : t.allocator = s.allocator) : Entries t live entries := by
  have sub : ∀ x ∈ t.tracked, x ∈ s.tracked := fun x hx => (List.mem_filter.mp (tracked ▸ hx)).1
  constructor
  · exact table ▸ h.mirrors
  · intro x hx
    by_cases e : x.addr = addr
    · exact .inr ⟨i, by rw [pc_self pcs, e]⟩
    · rcases h.cases x hx with hx | ⟨j, hj⟩
      · exact .inl (by rw [tracked]; simp [hx, e])
      · exact .inr ⟨j, after_update pcs (by simp [idle]) hj⟩
  · exact fun x hx => h.tracked x (sub x hx)
  · intro j p hj x hx
    by_cases e : j = i
    · subst e
      rw [pc_self pcs] at hj
      cases hj
      rw [tracked, List.mem_filter, decide_eq_true_eq] at hx
      exact hx.2
    · rw [pc_of_ne pcs e] at hj
      exact h.released j p hj x (sub x hx)
  · exact fun x hx => h.small x (sub x hx)

/-- An entry is removed. -/
lemma Entries.remove (h : Entries s live entries) (pcs : t.pc = Function.update s.pc i pc)
    (at_i : s.pc i = .remove addr) (after : ∀ p, pc ≠ .remove p) (tracked : t.tracked = s.tracked)
    (data : ∀ n, (t.allocator.m_AllocHT.infos n).data = (s.allocator.m_AllocHT.infos n).data) :
    Entries t (Function.update live addr none) (entries.filter fun x => x.addr ≠ addr) := by
  constructor
  · exact (h.mirrors.remove addr).congr fun _ n _ => data n
  · intro x hx
    rw [List.mem_filter, decide_eq_true_eq] at hx
    rw [tracked]
    have ne : s.pc i ≠ .remove x.addr := by
      rw [at_i]
      rintro ⟨⟩
      exact hx.2 rfl
    exact (h.cases x hx.1).imp id fun ⟨j, hj⟩ => ⟨j, after_update pcs ne hj⟩
  · intro x hx
    rw [tracked] at hx
    simp [h.tracked x hx, h.released i addr at_i x hx]
  · intro j p hj x hx
    exact h.released j p (before_update id pcs (after p) hj).2 x (tracked ▸ hx)
  · exact tracked ▸ h.small

/-- A new entry, when no `Remove` of its address is to come. -/
lemma Entries.insert (h : Entries s live entries) (pcs : t.pc = Function.update s.pc i pc)
    (before : ∀ p, s.pc i ≠ .remove p) (after : ∀ p, pc ≠ .remove p) {x : Allocation}
    (tracked : t.tracked = x :: s.tracked) (fresh : live x.addr = none)
    (small : x.size.toNat < 2 ^ 31) (safe : ∀ j, s.pc j ≠ .remove x.addr)
    (size : (s.allocator.m_AllocHT.infos n).m_AllocSize = x.size.toUInt32.toInt32)
    (line : (s.allocator.m_AllocHT.infos n).m_SrcLine = x.line)
    (data : ∀ n, (t.allocator.m_AllocHT.infos n).data = (s.allocator.m_AllocHT.infos n).data) :
    Entries t (Function.update live x.addr (some n)) (x :: entries) := by
  constructor
  · exact (h.mirrors.insert fresh size line).congr fun _ n _ => data n
  · intro y hy
    rw [tracked]
    rcases List.mem_cons.mp hy with rfl | hy
    · exact .inl List.mem_cons_self
    · exact (h.cases y hy).imp (List.mem_cons_of_mem x) fun ⟨j, hj⟩ =>
        ⟨j, after_update pcs (before y.addr) hj⟩
  · intro y hy
    rw [tracked] at hy
    rcases List.mem_cons.mp hy with rfl | hy
    · exact List.mem_cons_self
    · exact List.mem_cons_of_mem x (h.tracked y hy)
  · intro j p hj y hy
    replace hj := (before_update id pcs (after p) hj).2
    rw [tracked] at hy
    rcases List.mem_cons.mp hy with rfl | hy
    · rintro rfl
      exact safe j hj
    · exact h.released j p hj y hy
  · intro y hy
    rw [tracked] at hy
    rcases List.mem_cons.mp hy with rfl | hy
    · exact small
    · exact h.small y hy

end Entries

/-! ## Steps -/

/-- The invariant of the runs in which every step is safe. -/
structure Inv (s : Threads τ ν) (live : Ptr → Option ν) (free : List ν) (entries : List Allocation) :
    Prop where
  owners : Owners s
  nodes : Nodes s live free
  entries : Entries s live entries

/-- A new allocator has neither records nor calls. -/
lemma Inv.new (raw : ν → AllocateInfo ν) : Inv (new raw : Threads τ ν) (fun _ => none) [] [] where
  owners := ⟨List.nodup_nil, nofun, nofun, nofun⟩
  nodes := ⟨.new raw, nofun, nofun, nofun, nofun, nofun, nofun⟩
  entries := ⟨⟨nofun, nofun⟩, nofun, nofun, nofun, nofun⟩

/-- The address of a safe `Insert` is not in the table. -/
lemma Inv.fresh (h : Inv s live free entries) {r : Request} (at_i : s.pc i = .insert r n)
    (safe : ∀ j, s.pc j ≠ .remove r.addr) : live r.addr = none := by
  cases e : live r.addr with
  | none => rfl
  | some k =>
    obtain ⟨x, hx, ex⟩ := h.entries.mirrors.only _ _ e
    rcases h.entries.cases x hx with tracked | ⟨j, hj⟩
    · have pending : (s.pc i).addr = some r.addr := by rw [at_i]; rfl
      have mem : r.addr ∈ s.owned := ex ▸ List.mem_append_left _ (List.mem_map_of_mem tracked)
      exact absurd mem (h.owners.pending i _ pending).2
    · exact absurd (ex ▸ hj) (safe j)

section Step
variable [DecidableEq τ]

/-- An operation on the counters, or none. -/
lemma Inv.step_counters (h : Inv s live free entries) {pc0 : Pc ν} (at_i : s.pc i = pc0)
    {m : MemTrackAllocator ν} (table : m.m_AllocHT = s.allocator.m_AllocHT)
    (first : m.m_FreeInfo = s.allocator.m_FreeInfo) (addr : pc.addr = pc0.addr)
    (node : pc.node = pc0.node) (ready : pc.ready = pc0.ready) (before : ∀ p, pc0 ≠ .remove p)
    (after : ∀ p, pc ≠ .remove p) : Inv ({ s with allocator := m }.goto i pc) live free entries := by
  subst at_i
  constructor
  · exact h.owners.move rfl addr rfl rfl
  · exact h.nodes.move rfl node ready (h.nodes.sound.counters table first) rfl (fun _ _ hk => hk)
      fun _ k _ => congrArg (fun t => t.infos k) table
  · exact h.entries.move rfl before after rfl fun _ k _ =>
      congrArg (fun t => (t.infos k).data) table

/-- `Allocate` begins with an address that is not in use. -/
lemma Inv.step_allocate (h : Inv s live free entries) {r : Request} (at_i : s.pc i = .idle)
    (new : r.addr ∉ s.inUse) :
    Inv ({ s with inUse := r.addr :: s.inUse }.goto i (.getNextFreeInfo r)) live free entries where
  owners := h.owners.begin rfl new rfl rfl rfl
  nodes := by
    refine h.nodes.move rfl ?_ ?_ h.nodes.sound rfl (fun _ _ hk => hk) (fun _ _ _ => rfl)
    · rw [at_i]; rfl
    · rw [at_i]; rfl
  entries := by
    refine h.entries.move rfl ?_ (fun _ => nofun) rfl (fun _ _ _ => rfl)
    rw [at_i]
    exact fun _ => nofun

/-- A record from the list of free ones. -/
lemma Inv.step_getNextFreeInfo (h : Inv s live free entries) {r : Request} {m : MemTrackAllocator ν}
    (at_i : s.pc i = .getNextFreeInfo r) (res : s.allocator.getNextFreeInfo = (some n, m)) :
    Inv ({ s with allocator := m }.goto i (.fill r n)) live free.tail entries := by
  obtain ⟨first, sound, table⟩ := h.nodes.sound.getNextFreeInfo
  have new : s.allocator.newInfo none = some n := by
    rw [MemTrackAllocator.newInfo, res]
    rfl
  obtain ⟨origin, held⟩ := h.nodes.sound.held_of_newInfo (fun k (e : none = some k) => by cases e) new
  have mem : n ∈ free := by
    rcases origin with mem | e
    · exact mem
    · cases e
  rw [res] at first sound table
  constructor
  · refine h.owners.move rfl ?_ rfl rfl
    rw [at_i]; rfl
  · refine h.nodes.take rfl sound rfl rfl held ?_ (h.nodes.free_made n mem) (fun k hk => hk)
      (fun _ _ hk => hk) (fun k hk => List.mem_of_mem_tail hk) ?_
    · intro j _ hj
      exact (h.nodes.held j n hj).1 mem
    · exact fun _ k _ => congrArg (fun t => t.infos k) table
  · refine h.entries.move rfl ?_ (fun _ e => by cases e) rfl
      fun _ k _ => congrArg (fun t => (t.infos k).data) table
    rw [at_i]
    exact fun _ e => by cases e

/-- A new record. -/
lemma Inv.step_externalAlloc (h : Inv s live free entries) {r : Request}
    (at_i : s.pc i = .externalAlloc r) (new : n ∉ s.nodes) :
    Inv ({ s with nodes := n :: s.nodes }.goto i (.fill r n)) live free entries := by
  constructor
  · refine h.owners.move rfl ?_ rfl rfl
    rw [at_i]; rfl
  · refine h.nodes.take rfl h.nodes.sound rfl rfl ?_ ?_ List.mem_cons_self
      (fun k hk => List.mem_cons_of_mem n hk) (fun _ _ hk => hk) (fun k hk => hk) (fun _ _ _ => rfl)
    · exact ⟨fun hn => new (h.nodes.free_made n hn), fun a hn => new (h.nodes.live_made a n hn)⟩
    · exact fun j _ hj => new (h.nodes.made j n hj)
  · refine h.entries.move rfl ?_ (fun _ => nofun) rfl (fun _ _ _ => rfl)
    rw [at_i]
    exact fun _ => nofun

/-- No record is to be had, so the allocation is not tracked. -/
lemma Inv.step_untracked (h : Inv s live free entries) {r : Request} (at_i : s.pc i = .externalAlloc r) :
    Inv ({ s with untracked := r.addr :: s.untracked }.goto i .idle) live free entries := by
  constructor
  · refine h.owners.settle rfl ?_ rfl List.perm_middle rfl
    rw [at_i]; rfl
  · refine h.nodes.move rfl ?_ ?_ h.nodes.sound rfl (fun _ _ hk => hk) (fun _ _ _ => rfl)
    · rw [at_i]; rfl
    · rw [at_i]; rfl
  · refine h.entries.move rfl ?_ (fun _ => nofun) rfl (fun _ _ _ => rfl)
    rw [at_i]
    exact fun _ => nofun

/-- `DeAllocate` begins with an address that is owned. -/
lemma Inv.step_deAllocate (h : Inv s live free entries) (at_i : s.pc i = .idle)
    (mem : addr ∈ s.owned) :
    Inv ({ s with
      inUse := s.inUse.erase addr
      tracked := s.tracked.filter fun x => x.addr ≠ addr
      untracked := s.untracked.erase addr }.goto i (.remove addr)) live free entries := by
  constructor
  · refine h.owners.release rfl rfl mem
      ((List.filter_sublist.map _).append List.erase_sublist) (fun hm => ?_) rfl
    rcases List.mem_append.mp hm with hm | hm
    · obtain ⟨x, hx, e⟩ := List.mem_map.mp hm
      exact of_decide_eq_true (List.mem_filter.mp hx).2 e
    · exact ((List.nodup_append'.mp h.owners.nodup).2.1.mem_erase_iff.mp hm).1 rfl
  · refine h.nodes.move rfl ?_ ?_ h.nodes.sound rfl (fun _ _ hk => hk) (fun _ _ _ => rfl)
    · rw [at_i]; rfl
    · rw [at_i]; rfl
  · exact h.entries.release rfl at_i rfl rfl

variable [DecidableEq ν]

/-- `Insert` makes a record live. -/
lemma Inv.step_insert (h : Inv s live free entries) {r : Request} {t' : AllocHashTable ν}
    (at_i : s.pc i = .insert r n) (small : r.size.toNat < 2 ^ 31)
    (safe : ∀ j, s.pc j ≠ .remove r.addr)
    (res : s.allocator.m_AllocHT.insert ndebug fuel n = some t') :
    ∃ live entries, Inv
      ({ s with
        allocator := { s.allocator with m_AllocHT := t' }
        tracked := r.toAllocation :: s.tracked }.goto i .idle) live free entries := by
  have fresh := h.fresh at_i safe
  have node : (s.pc i).node = some n := by rw [at_i]; rfl
  have ready : (s.pc i).ready = some (r, n) := by rw [at_i]; rfl
  have pending : (s.pc i).addr = some r.addr := by rw [at_i]; rfl
  have filled := h.nodes.filled i r n ready
  obtain ⟨sound, keeps⟩ := h.nodes.sound.insert (h.nodes.held i n node) (by rw [filled.m_Addr, fresh]) res
  rw [filled.m_Addr] at sound keeps
  have live_cases : ∀ a k, Function.update live r.addr (some n) a = some k → live a = some k ∨ k = n := by
    intro a k hk
    by_cases e : a = r.addr
    · rw [e, Function.update_self] at hk
      exact .inr (Option.some.inj hk).symm
    · rw [Function.update_of_ne e] at hk
      exact .inl hk
  refine ⟨Function.update live r.addr (some n), r.toAllocation :: entries, ?_, ?_, ?_⟩
  · exact h.owners.settle rfl pending rfl (.refl _) rfl
  · refine h.nodes.give rfl sound node rfl rfl live_cases (fun k hk => .inl hk) ?_
    intro j k ne hj
    refine keeps.outside k fun a ha => ?_
    rcases live_cases a k ha with ha | rfl
    · exact (h.nodes.held j k hj).2 a ha
    · exact ne (h.nodes.distinct j i k hj node)
  · refine h.entries.insert rfl ?_ ?_ rfl fresh small safe filled.m_AllocSize filled.m_SrcLine
      keeps.data
    · rw [at_i]
      exact fun _ => nofun
    · exact fun _ => nofun

/-- `Remove` takes a live record out. -/
lemma Inv.step_remove (h : Inv s live free entries) {t' : AllocHashTable ν} {freeInfo : Option ν}
    (at_i : s.pc i = .remove addr)
    (res : s.allocator.m_AllocHT.remove fuel addr = some (freeInfo, t')) :
    ∃ live entries, Inv
      ({ s with allocator := { s.allocator with m_AllocHT := t' } }.goto i (.removed freeInfo))
      live free entries := by
  obtain ⟨rfl, sound, keeps⟩ := h.nodes.sound.remove res
  have live_sub : ∀ a k, Function.update live addr none a = some k → live a = some k := by
    intro a k hk
    by_cases e : a = addr
    · rw [e, Function.update_self] at hk
      cases hk
    · rwa [Function.update_of_ne e] at hk
  refine ⟨Function.update live addr none, entries.filter fun x => x.addr ≠ addr, ?_, ?_, ?_⟩
  · refine h.owners.move rfl ?_ rfl rfl
    rw [at_i]
    cases live addr <;> rfl
  · have others : ∀ j k, (s.pc j).node = some k → t'.infos k = s.allocator.m_AllocHT.infos k :=
      fun j k hj => keeps.outside k (h.nodes.held j k hj).2
    cases e : live addr with
    | none =>
      rw [show Pc.removed (none : Option ν) = .idle from rfl]
      refine h.nodes.move rfl ?_ ?_ sound rfl live_sub others
      · rw [at_i]; rfl
      · rw [at_i]; rfl
    | some n =>
      refine h.nodes.take rfl sound rfl rfl (h.nodes.sound.held_of_removed e) ?_
        (h.nodes.live_made addr n e) (fun k hk => hk) live_sub (fun k hk => hk) others
      intro j _ hj
      exact (h.nodes.held j n hj).2 addr e
  · refine h.entries.remove rfl at_i ?_ rfl keeps.data
    cases live addr <;> exact fun _ => nofun

/-- The record of a thread is filled. -/
lemma Inv.step_fill (h : Inv s live free entries) {r : Request} {m : MemTrackAllocator ν}
    (at_i : s.pc i = .fill r n)
    (res : s.allocator.fill n r.addr r.size r.file r.func r.line = some m) :
    Inv ({ s with allocator := m }.goto i (.count r n .addSize)) live free entries := by
  obtain ⟨contents, filled, rfl⟩ := MemTrackAllocator.fill_cases res
  have node : (s.pc i).node = some n := by rw [at_i]; rfl
  constructor
  · refine h.owners.move rfl ?_ rfl rfl
    rw [at_i]; rfl
  · exact h.nodes.fill rfl node rfl rfl filled rfl
  · refine h.entries.move rfl ?_ (fun _ => nofun) rfl fun a k hk => congrArg AllocateInfo.data ?_
    · rw [at_i]
      exact fun _ => nofun
    · refine Function.update_of_ne ?_ ..
      rintro rfl
      exact (h.nodes.held i k node).2 a hk

/-- A record goes back to the free ones. -/
lemma Inv.step_addFreeInfo (h : Inv s live free entries) (at_i : s.pc i = .addFreeInfo n) :
    Inv ({ s with allocator := s.allocator.addFreeInfo n }.goto i .idle) live (n :: free) entries := by
  have node : (s.pc i).node = some n := by rw [at_i]; rfl
  constructor
  · refine h.owners.move rfl ?_ rfl rfl
    rw [at_i]; rfl
  · refine h.nodes.give rfl (h.nodes.sound.addFreeInfo (h.nodes.held i n node)) node rfl rfl
      (fun _ _ hk => .inl hk) (fun k hk => (List.mem_cons.mp hk).symm) fun j k ne hj => ?_
    have ne' : k ≠ n := by
      rintro rfl
      exact ne (h.nodes.distinct j i k hj node)
    exact (AllocHashTable.setPrev_infos_of_ne ne').trans (AllocHashTable.setNext_infos_of_ne ne')
  · refine h.entries.move rfl ?_ (fun _ => nofun) rfl
      fun _ k _ => MemTrackAllocator.addFreeInfo_data k
    rw [at_i]
    exact fun _ => nofun

/-- A safe step keeps the invariant. -/
lemma Inv.step (h : Inv s live free entries) (safe : Safe s a)
    (st : Exec (step ndebug fuel) s a t) : ∃ live free entries, Inv t live free entries := by
  obtain ⟨i, move⟩ := a
  simp only [Exec, Threads.step] at st
  split at st
  next allocatedAddr size file func line at_i =>
    cases allocatedAddr with
    | none =>
      cases st
      exact ⟨live, free, entries, h⟩
    | some addr =>
      simp only [Option.ite_none_left_eq_some, Option.some.injEq] at st
      obtain ⟨new, rfl⟩ := st
      exact ⟨live, free, entries, h.step_allocate at_i new⟩
  next r at_i =>
    split at st
    next newInfo m res =>
      cases st
      exact ⟨live, free.tail, entries, h.step_getNextFreeInfo at_i res⟩
    next =>
      cases st
      exact ⟨live, free, entries,
        h.step_counters at_i rfl rfl rfl rfl rfl (fun _ e => by cases e) (fun _ e => by cases e)⟩
  next r result at_i =>
    cases result with
    | none =>
      cases st
      exact ⟨live, free, entries, h.step_untracked at_i⟩
    | some newInfo =>
      simp only [Option.ite_none_left_eq_some, Option.some.injEq] at st
      obtain ⟨new, rfl⟩ := st
      exact ⟨live, free, entries, h.step_externalAlloc at_i new⟩
  next r newInfo at_i =>
    obtain ⟨m, res, e⟩ := Option.bind_eq_some_iff.mp st
    cases e
    exact ⟨live, free, entries, h.step_fill at_i res⟩
  next r newInfo next at_i =>
    cases st
    obtain ⟨table, first⟩ := next.run_keeps r.size s.allocator
    obtain ⟨addr, node, ready, after⟩ :=
      Pc.counting_eq r newInfo (next.run r.size s.allocator).2
    exact ⟨live, free, entries,
      h.step_counters at_i table first addr node ready (fun _ e => by cases e) after⟩
  next r newInfo next at_i =>
    obtain ⟨next', -, e⟩ := Option.bind_eq_some_iff.mp st
    cases e
    exact ⟨live, free, entries,
      h.step_counters at_i rfl rfl rfl rfl rfl (fun _ e => by cases e) (fun _ e => by cases e)⟩
  next r newInfo at_i =>
    obtain ⟨t', res, e⟩ := Option.bind_eq_some_iff.mp st
    cases e
    obtain ⟨small, overtaken⟩ := safe r newInfo at_i
    obtain ⟨live, entries, inv⟩ := h.step_insert at_i small overtaken res
    exact ⟨live, free, entries, inv⟩
  next p at_i =>
    simp only [Option.ite_none_right_eq_some, Option.some.injEq] at st
    obtain ⟨mem, rfl⟩ := st
    exact ⟨live, free, entries, h.step_deAllocate at_i mem⟩
  next p at_i =>
    obtain ⟨⟨freeInfo, t'⟩, res, e⟩ := Option.bind_eq_some_iff.mp st
    cases e
    obtain ⟨live, entries, inv⟩ := h.step_remove at_i res
    exact ⟨live, free, entries, inv⟩
  next freeInfo at_i =>
    cases st
    exact ⟨live, free, entries,
      h.step_counters at_i rfl rfl rfl rfl rfl (fun _ e => by cases e) (fun _ e => by cases e)⟩
  next freeInfo at_i =>
    cases st
    exact ⟨live, free, entries,
      h.step_counters at_i rfl rfl rfl rfl rfl (fun _ e => by cases e) (fun _ e => by cases e)⟩
  next freeInfo at_i =>
    cases st
    exact ⟨live, freeInfo :: free, entries, h.step_addFreeInfo at_i⟩
  next => cases st

end Step

/-! ## The table of a quiet state -/

/-- A size below two gigabytes is in the record as it is. -/
lemma toInt_converted {size : UInt64} (small : size.toNat < 2 ^ 31) :
    size.toUInt32.toInt32.toInt = size.toNat := by
  change (size.toBitVec.setWidth 32).toInt = size.toNat
  rw [BitVec.toInt_setWidth, UInt64.toNat_toBitVec, Int.bmod_def]
  omega

/-- When no call is in progress the numbers are exact. -/
lemma Inv.exact (h : Inv s live free entries) (quiet : Quiet s) : Exact s := by
  obtain ⟨chain, linked⟩ := h.nodes.sound.table
  refine ⟨(List.nodup_append'.mp h.owners.nodup).1, chain, live, linked.toRepresents, ?_, ?_⟩
  · intro x hx
    obtain ⟨n, hn, size, line⟩ := h.entries.mirrors.entry x (h.entries.tracked x hx)
    exact ⟨n, hn, by rw [size, toInt_converted (h.entries.small x hx)], line⟩
  · intro a n hn
    obtain ⟨x, hx, rfl⟩ := h.entries.mirrors.only a n hn
    rcases h.entries.cases x hx with tracked | ⟨i, hi⟩
    · exact ⟨x, tracked, rfl⟩
    · rw [quiet i] at hi
      cases hi

/-- In every run of safe steps, whenever no call is in progress the table has exactly one entry for each live
    tracked allocation, with its size and line. -/
theorem exact_of_safe [DecidableEq τ] [DecidableEq ν] (raw : ν → AllocateInfo ν)
    {l : List (τ × Move ν)} (safe : Meets (Exec (step ndebug fuel)) Safe (new raw) l) :
    Along (Exec (step ndebug fuel)) (fun s => Quiet s → Exact s) (new raw) l := by
  have along : Along (Exec (step ndebug fuel)) (fun s => ∃ live free entries, Inv s live free entries)
      (new raw) l := by
    refine safe.along ⟨_, _, _, .new raw⟩ ?_
    rintro s a s' ⟨live, free, entries, h⟩ safe st
    exact h.step safe st
  intro l1 s1 pre run quiet
  obtain ⟨live, free, entries, h⟩ := along l1 s1 pre run
  exact h.exact quiet

/-- The storage of the records before they are made. -/
def blank : Bool → AllocateInfo Bool := fun _ =>
  { m_Addr := 0, m_Srcfile := [], m_SrcFunc := [], m_SrcLine := 0, m_AllocSize := 0
    m_Next := none, m_Prev := none }

/-- A call of `Allocate` that gets address 16 and makes a new record. -/
def allocating (i : Bool) (size : UInt64) (line : Int32) (n : Bool) : List (Bool × Move Bool) :=
  [(i, .allocate (some 16) size [] [] line), (i, .run), (i, .externalAlloc (some n))] ++
    List.replicate 10 (i, .run)

/-- One thread allocates and releases, then another one allocates. -/
def inTurn : List (Bool × Move Bool) :=
  allocating false 8 1 false ++ [(false, .deAllocate 16)] ++ List.replicate 4 (false, .run) ++
    [(true, .allocate (some 16) 16 [] [] 2)] ++ List.replicate 11 (true, .run)

/-- The second thread allocates before the first one has removed its record. -/
def overtaking : List (Bool × Move Bool) :=
  allocating false 8 1 false ++ [(false, .deAllocate 16)] ++ allocating true 16 2 true ++
    List.replicate 4 (false, .run)

/-- The statement above for two threads that use one address in turn. -/
theorem exact_of_safe_inTurn :
    (exec (step true 9) (new blank) inTurn).isSome ∧
      Along (Exec (step true 9)) (fun s => Quiet s → Exact s) (new blank) inTurn :=
  ⟨by decide +kernel, exact_of_safe blank (meets_of_check (by decide +kernel))⟩

/-- The first thread has removed the record of the second one, and the record that stays is from line 1. -/
theorem overtaking_not_exact :
    ∃ s, Run (Exec (step true 9)) (new blank) overtaking s ∧ Quiet s ∧ ¬ Exact s := by
  have result : (exec (step true 9) (new blank) overtaking).any fun s =>
      s.pc false = .idle ∧ s.pc true = .idle ∧ s.tracked = [⟨16, 16, 2⟩] ∧
        s.allocator.m_AllocHT.m_Size = 4096 ∧ s.allocator.m_AllocHT.m_AllocInfo 1 = some false ∧
        s.allocator.m_AllocHT.next false = none ∧
        (s.allocator.m_AllocHT.infos false).m_SrcLine = 1 := by decide +kernel
  rw [Option.any_eq_true] at result
  obtain ⟨s, res, facts⟩ := result
  rw [decide_eq_true_eq] at facts
  obtain ⟨idle1, idle2, tracked, size, first, last, line1⟩ := facts
  refine ⟨s, run_exec_iff.mpr res, fun i => by cases i <;> assumption, fun exact => ?_⟩
  obtain ⟨chain, live, represents, entry, -⟩ := exact.table
  obtain ⟨n, hn, -, line2⟩ := entry ⟨16, 16, 2⟩ (tracked ▸ List.mem_cons_self)
  have hash : s.allocator.m_AllocHT.getHash 16 = 1 := by
    rw [AllocHashTable.getHash, size]
    rfl
  have mem : n ∈ chain 1 := by
    rw [represents.mem_chain, represents.addr_eq 16 n hn]
    exact ⟨hn, hash⟩
  have links := represents.links 1 (by rw [size]; decide)
  generalize chain 1 = nodes at mem links
  rw [first] at links
  cases links with
  | cons rest =>
    rw [last] at rest
    cases rest
    rw [List.mem_singleton] at mem
    subst mem
    rw [line1] at line2
    exact absurd line2 (by decide)

end Threads
end XLN
