import XLN.Foundation.DataStream
import XLN.Lib.LinkedList
import XLN.Utility.Pool
import Mathlib.Logic.Function.Basic

/-!
# The table of allocation records

`Core/DebugHelper/Memory/MemTrackAllocator.h` and `MemTrackAllocator.cpp`: `AllocHashTable` chains
`AllocateInfo` nodes in buckets by the hash of their address. A node is known by its pointer, a value of a
type `ν`; the storage of all nodes is kept with the table. `Linked` says which partial map from addresses
to nodes the table stands for; `Insert` and `Remove` do to it what they do to a map.

Removing the first node of a bucket leaves the back link of the next one as it was, so the back links of
first nodes mean nothing.
-/

namespace XLN
open LinkedList

/-- `MemTrackAllocator::AllocateInfo`. -/
structure AllocateInfo (ν : Type) where
  m_Addr : Ptr
  m_Srcfile : ByteString
  m_SrcFunc : ByteString
  m_SrcLine : Int32
  m_AllocSize : Int32
  m_Next : Option ν
  m_Prev : Option ν

/-- The record without its links. -/
def AllocateInfo.data {ν : Type} (info : AllocateInfo ν) : AllocateInfo ν :=
  { info with m_Next := none, m_Prev := none }

/-- The address is part of the data. -/
@[simp] lemma AllocateInfo.data_addr {ν : Type} (info : AllocateInfo ν) :
    info.data.m_Addr = info.m_Addr := rfl

/-- `MemTrackAllocator::AllocHashTable` and the storage of the nodes. `m_AllocInfo` has `m_Size` entries. -/
structure AllocHashTable (ν : Type) where
  m_AllocInfo : Nat → Option ν
  m_Size : Nat
  infos : ν → AllocateInfo ν

namespace AllocHashTable

variable {ν : Type}

/-- `AllocHashTable::GetHash`. -/
def getHash (addr : Ptr) (t : AllocHashTable ν) : Nat :=
  (addr >>> 4) &&& (t.m_Size - 1)

/-- The links of the nodes. -/
def next (t : AllocHashTable ν) (n : ν) : Option ν := (t.infos n).m_Next

/-- The back links of the nodes. -/
def prev (t : AllocHashTable ν) (n : ν) : Option ν := (t.infos n).m_Prev

/-- The loop of `Insert` that asserts that the address is not in its bucket. -/
def checkValid (ndebug : Bool) (addr : Ptr) (t : AllocHashTable ν) : Nat → Option ν → Option Unit
  | 0, _ => none
  | _ + 1, none => some ()
  | fuel + 1, some head => do
    assert ndebug ((t.infos head).m_Addr ≠ addr)
    checkValid ndebug addr t fuel (t.next head)

section Methods
variable [DecidableEq ν]

/-- `n->m_Next = link`. -/
def setNext (n : ν) (link : Option ν) (t : AllocHashTable ν) : AllocHashTable ν :=
  { t with infos := Function.update t.infos n { t.infos n with m_Next := link } }

/-- `n->m_Prev = link`. -/
def setPrev (n : ν) (link : Option ν) (t : AllocHashTable ν) : AllocHashTable ν :=
  { t with infos := Function.update t.infos n { t.infos n with m_Prev := link } }

/-- The writes of `Insert`, under the lock. -/
def link (allocInfo : ν) (t : AllocHashTable ν) : AllocHashTable ν :=
  let index := t.getHash (t.infos allocInfo).m_Addr
  let bucket := t.m_AllocInfo index
  let t := { t with m_AllocInfo := Function.update t.m_AllocInfo index (some allocInfo) }
  let t := t.setNext allocInfo bucket
  match bucket with
  | some bucket => t.setPrev bucket (some allocInfo)
  | none => t

/-- `AllocHashTable::Insert`. Gives `none` when an assertion fails or the fuel runs out. -/
def insert (ndebug : Bool) (fuel : Nat) (allocInfo : ν) (t : AllocHashTable ν) :
    Option (AllocHashTable ν) := do
  assert ndebug ((t.infos allocInfo).m_Next = none)
  assert ndebug ((t.infos allocInfo).m_Prev = none)
  let index := t.getHash (t.infos allocInfo).m_Addr
  t.checkValid ndebug (t.infos allocInfo).m_Addr fuel (t.m_AllocInfo index)
  return t.link allocInfo

/-- What `Remove` does to a node that is not the first of its bucket. -/
def unlink (bucket : ν) (t : AllocHashTable ν) : AllocHashTable ν :=
  let t :=
    match t.prev bucket with
    | some prev => t.setNext prev (t.next bucket)
    | none => t
  match t.next bucket with
  | some next => t.setPrev next (t.prev bucket)
  | none => t

/-- `AllocHashTable::Remove`. Gives `none` when the fuel runs out. -/
def remove (fuel : Nat) (addr : Ptr) (t : AllocHashTable ν) : Option (Option ν × AllocHashTable ν) :=
  let index := t.getHash addr
  match t.m_AllocInfo index with
  | none => some (none, t)
  | some bucket =>
    if (t.infos bucket).m_Addr = addr then
      some (some bucket, { t with m_AllocInfo := Function.update t.m_AllocInfo index (t.next bucket) })
    else
      (search (fun n => (t.infos n).m_Addr = addr) t.next fuel (t.next bucket)).map fun
        | some bucket => (some bucket, t.unlink bucket)
        | none => (none, t)

section Fields
variable {t : AllocHashTable ν} {n m : ν} {link : Option ν}

/-- `setNext` changes one record. -/
lemma setNext_infos_of_ne (ne : m ≠ n) : (t.setNext n link).infos m = t.infos m :=
  Function.update_of_ne ne ..

/-- `setPrev` changes one record. -/
lemma setPrev_infos_of_ne (ne : m ≠ n) : (t.setPrev n link).infos m = t.infos m :=
  Function.update_of_ne ne ..

/-- `setNext` sets one link. -/
@[simp] lemma setNext_next : (t.setNext n link).next = Function.update t.next n link := by
  funext m
  by_cases e : m = n
  · subst e
    simp [next, setNext]
  · simp [next, setNext_infos_of_ne e, Function.update_of_ne e]

/-- `setNext` leaves the links back. -/
@[simp] lemma setNext_prev : (t.setNext n link).prev = t.prev := by
  funext m
  by_cases e : m = n
  · subst e
    simp [prev, setNext]
  · simp [prev, setNext_infos_of_ne e]

/-- `setPrev` leaves the links on. -/
@[simp] lemma setPrev_next : (t.setPrev n link).next = t.next := by
  funext m
  by_cases e : m = n
  · subst e
    simp [next, setPrev]
  · simp [next, setPrev_infos_of_ne e]

/-- `setPrev` sets one link back. -/
@[simp] lemma setPrev_prev : (t.setPrev n link).prev = Function.update t.prev n link := by
  funext m
  by_cases e : m = n
  · subst e
    simp [prev, setPrev]
  · simp [prev, setPrev_infos_of_ne e, Function.update_of_ne e]

/-- `setNext` leaves the data. -/
@[simp] lemma setNext_data : ((t.setNext n link).infos m).data = (t.infos m).data := by
  by_cases e : m = n
  · subst e
    simp [setNext, AllocateInfo.data]
  · rw [setNext_infos_of_ne e]

/-- `setPrev` leaves the data. -/
@[simp] lemma setPrev_data : ((t.setPrev n link).infos m).data = (t.infos m).data := by
  by_cases e : m = n
  · subst e
    simp [setPrev, AllocateInfo.data]
  · rw [setPrev_infos_of_ne e]

end Fields
end Methods

/-! ## The map that a table stands for -/

/-- The nodes reachable from bucket `i` along `m_Next` are those of `chain i`, once each, and they are the
    nodes of `live` whose address has the hash `i`. -/
structure Represents (t : AllocHashTable ν) (chain : Nat → List ν) (live : Ptr → Option ν) : Prop where
  links : ∀ i < t.m_Size, Chain t.next (t.m_AllocInfo i) (chain i)
  nodup : ∀ i, (chain i).Nodup
  mem_chain : ∀ i n, n ∈ chain i ↔
    live (t.infos n).m_Addr = some n ∧ t.getHash (t.infos n).m_Addr = i
  addr_eq : ∀ a n, live a = some n → (t.infos n).m_Addr = a

/-- The invariant of the table: the back links are right, but for those of first nodes. -/
structure Linked (t : AllocHashTable ν) (chain : Nat → List ν) (live : Ptr → Option ν) : Prop
    extends Represents t chain live where
  back : ∀ i, BackLinked t.prev (chain i)
  size_pos : 0 < t.m_Size

/-- What a method leaves as it is: the number of buckets, the data of all records and everything about the
    nodes outside the table. -/
structure Keeps (live : Ptr → Option ν) (t t' : AllocHashTable ν) : Prop where
  size : t'.m_Size = t.m_Size
  data : ∀ n, (t'.infos n).data = (t.infos n).data
  outside : ∀ n, (∀ a, live a ≠ some n) → t'.infos n = t.infos n

variable {t t' : AllocHashTable ν} {chain : Nat → List ν} {live live' : Ptr → Option ν} {n m : ν}
  {addr : Ptr} {ndebug : Bool} {fuel : Nat} {l : List ν} {i : Nat}

/-- The hash is the number of a bucket. -/
lemma getHash_lt (pos : 0 < t.m_Size) (addr : Ptr) : t.getHash addr < t.m_Size := by
  have le : t.getHash addr ≤ t.m_Size - 1 := Nat.and_le_right
  omega

/-- The hash depends on the size of the table only. -/
lemma getHash_congr (size : t'.m_Size = t.m_Size) (addr : Ptr) : t'.getHash addr = t.getHash addr := by
  rw [getHash, getHash, size]

/-- Records with the same data have the same address. -/
lemma addr_congr (data : (t'.infos n).data = (t.infos n).data) :
    (t'.infos n).m_Addr = (t.infos n).m_Addr := by
  rw [← AllocateInfo.data_addr, data, AllocateInfo.data_addr]

/-- The chain of the bucket that `GetHash` selects. -/
lemma Linked.bucket (h : Linked t chain live) (addr : Ptr) :
    Chain t.next (t.m_AllocInfo (t.getHash addr)) (chain (t.getHash addr)) :=
  h.links _ (getHash_lt h.size_pos addr)

/-- The node of an address is in the bucket of the address. -/
lemma Linked.mem_of_live (h : Linked t chain live) (hn : live addr = some n) :
    n ∈ chain (t.getHash addr) := by
  have e := h.addr_eq addr n hn
  rw [h.mem_chain, e]
  exact ⟨hn, rfl⟩

/-- A record of a chain is the live one of its address. -/
lemma Linked.live_of_mem (h : Linked t chain live) (hn : n ∈ chain i)
    (e : (t.infos n).m_Addr = addr) : live addr = some n := by
  rw [← e]
  exact ((h.mem_chain i n).mp hn).1

/-- Only bucket `i` changes, and with it the map at addresses with this hash. -/
lemma Linked.change (h : Linked t chain live) (size : t'.m_Size = t.m_Size)
    (data : ∀ n, (t'.infos n).data = (t.infos n).data)
    (buckets : ∀ j, j ≠ i → t'.m_AllocInfo j = t.m_AllocInfo j)
    (frame : ∀ m, m ∉ chain i → m ∉ l → t'.next m = t.next m ∧ t'.prev m = t.prev m)
    (links : Chain t'.next (t'.m_AllocInfo i) l) (back : BackLinked t'.prev l)
    (mem : ∀ m, m ∈ l ↔ live' (t.infos m).m_Addr = some m ∧ t.getHash (t.infos m).m_Addr = i)
    (same : ∀ a, t.getHash a ≠ i → live' a = live a)
    (addr_eq : ∀ a n, live' a = some n → (t.infos n).m_Addr = a) :
    Linked t' (Function.update chain i l) live' := by
  have kept : ∀ j, j ≠ i → ∀ m ∈ chain j, t'.next m = t.next m ∧ t'.prev m = t.prev m := by
    intro j ne m hm
    have hash := ((h.mem_chain j m).mp hm).2
    refine frame m (fun hm' => ?_) (fun hm' => ?_)
    · exact ne (hash.symm.trans ((h.mem_chain i m).mp hm').2)
    · exact ne (hash.symm.trans ((mem m).mp hm').2)
  constructor
  · constructor
    · intro j lt
      by_cases e : j = i
      · subst e
        rwa [Function.update_self]
      · rw [Function.update_of_ne e, buckets j e]
        exact (h.links j (size ▸ lt)).congr fun m hm => (kept j e m hm).1
    · intro j
      by_cases e : j = i
      · subst e
        rw [Function.update_self]
        exact links.nodup
      · rw [Function.update_of_ne e]
        exact h.nodup j
    · intro j m
      rw [addr_congr (data m), getHash_congr size]
      by_cases e : j = i
      · subst e
        rw [Function.update_self, mem]
      · rw [Function.update_of_ne e, h.mem_chain]
        refine and_congr_left fun hash => ?_
        rw [same _ (hash.trans_ne e)]
    · intro a m hm
      rw [addr_congr (data m)]
      exact addr_eq a m hm
  · intro j
    by_cases e : j = i
    · subst e
      rwa [Function.update_self]
    · rw [Function.update_of_ne e]
      exact (h.back j).congr fun m hm => (kept j e m (List.mem_of_mem_tail hm)).2
  · exact size ▸ h.size_pos

/-- The table does not depend on the records of other nodes. -/
lemma Linked.outside (h : Linked t chain live) (size : t'.m_Size = t.m_Size)
    (buckets : t'.m_AllocInfo = t.m_AllocInfo)
    (same : ∀ a n, live a = some n → t'.infos n = t.infos n) : Linked t' chain live := by
  have kept : ∀ i, ∀ n ∈ chain i, t'.infos n = t.infos n :=
    fun i n hn => same _ n (h.live_of_mem hn rfl)
  constructor
  · constructor
    · intro i lt
      rw [buckets]
      exact (h.links i (size ▸ lt)).congr fun n hn => congrArg AllocateInfo.m_Next (kept i n hn)
    · exact h.nodup
    · intro i n
      rw [h.mem_chain, getHash_congr size]
      constructor
      · rintro ⟨hn, hash⟩
        rw [same _ n hn]
        exact ⟨hn, hash⟩
      · rintro ⟨hn, hash⟩
        rw [same _ n hn] at hn hash
        exact ⟨hn, hash⟩
    · intro a n hn
      rw [same a n hn]
      exact h.addr_eq a n hn
  · intro i
    exact (h.back i).congr fun n hn =>
      congrArg AllocateInfo.m_Prev (kept i n (List.mem_of_mem_tail hn))
  · exact size ▸ h.size_pos

section Insert

/-- `CheckValid` passes a chain that does not have the address. -/
lemma checkValid_eq {head : Option ν} (chain : Chain t.next head l) (enough : l.length < fuel)
    (valid : ∀ n ∈ l, (t.infos n).m_Addr ≠ addr) :
    t.checkValid ndebug addr fuel head = some () := by
  induction chain generalizing fuel with
  | nil =>
    cases fuel with
    | zero => omega
    | succ fuel => rfl
  | cons _ ih =>
    cases fuel with
    | zero => omega
    | succ fuel =>
      rw [List.forall_mem_cons] at valid
      rw [checkValid, assert, if_pos (.inr valid.1)]
      exact ih (Nat.lt_of_succ_lt_succ enough) valid.2

/-- `CheckValid` passes with more fuel too. -/
lemma checkValid_mono {head : Option ν} {fuel' : Nat}
    (res : t.checkValid ndebug addr fuel head = some ()) (le : fuel ≤ fuel') :
    t.checkValid ndebug addr fuel' head = some () := by
  induction fuel generalizing fuel' head with
  | zero => cases res
  | succ fuel ih =>
    obtain ⟨fuel', rfl⟩ : ∃ k, fuel' = k + 1 := ⟨fuel' - 1, by omega⟩
    cases head with
    | none => rfl
    | some n =>
      rw [checkValid, Option.bind_eq_bind, Option.bind_eq_some_iff] at res ⊢
      obtain ⟨u, valid, rest⟩ := res
      exact ⟨u, valid, ih rest (Nat.le_of_succ_le_succ le)⟩

variable [DecidableEq ν]

/-- `Insert` links the record if no assertion fails. -/
lemma insert_eq_some_iff : t.insert ndebug fuel n = some t' ↔
    (ndebug = true ∨ (t.infos n).m_Next = none) ∧ (ndebug = true ∨ (t.infos n).m_Prev = none) ∧
      t.checkValid ndebug (t.infos n).m_Addr fuel
        (t.m_AllocInfo (t.getHash (t.infos n).m_Addr)) = some () ∧ t.link n = t' := by
  simp only [insert, assert, Option.bind_eq_bind]
  split_ifs with h1 h2 h2
  · simp only [Option.bind_some, h1, h2, true_and, Option.bind_eq_some_iff]
    constructor
    · rintro ⟨_, valid, e⟩
      exact ⟨valid, Option.some.inj e⟩
    · rintro ⟨valid, e⟩
      exact ⟨(), valid, congrArg some e⟩
  · simp [h2]
  · simp [h1]
  · simp [h1]

/-- `Insert` leaves the size. -/
@[simp] lemma link_m_Size : (t.link n).m_Size = t.m_Size := by
  simp only [link]; split <;> rfl

/-- `Insert` puts the record at the head of its bucket. -/
lemma link_m_AllocInfo : (t.link n).m_AllocInfo =
    Function.update t.m_AllocInfo (t.getHash (t.infos n).m_Addr) (some n) := by
  simp only [link]; split <;> rfl

/-- `Insert` links the record to the old head. -/
lemma link_next : (t.link n).next =
    Function.update t.next n (t.m_AllocInfo (t.getHash (t.infos n).m_Addr)) := by
  simp only [link]
  split
  · rw [setPrev_next, setNext_next]
    rfl
  · rw [setNext_next]
    rfl

/-- `Insert` leaves the data. -/
lemma link_data : ((t.link n).infos m).data = (t.infos m).data := by
  simp only [link]
  split
  · rw [setPrev_data, setNext_data]
  · rw [setNext_data]

/-- `Insert` links the old head back to the record. -/
lemma link_prev : (t.link n).prev =
    match t.m_AllocInfo (t.getHash (t.infos n).m_Addr) with
    | some bucket => Function.update t.prev bucket (some n)
    | none => t.prev := by
  simp only [link]
  split
  next bucket e =>
    simp only [e, setPrev_prev, setNext_prev]
    rfl
  next e =>
    simp only [e, setNext_prev]
    rfl

/-- `Insert` changes two records. -/
lemma link_infos_of_ne (ne : m ≠ n) (nb : t.m_AllocInfo (t.getHash (t.infos n).m_Addr) ≠ some m) :
    (t.link n).infos m = t.infos m := by
  simp only [link]
  split
  next bucket e =>
    have ne' : m ≠ bucket := fun h => nb (h ▸ e)
    rw [setPrev_infos_of_ne ne', setNext_infos_of_ne ne]
  next e => rw [setNext_infos_of_ne ne]

/-- The chain of a bucket with a new first node. -/
lemma Linked.link_back (h : Linked t chain live) :
    BackLinked (t.link n).prev (n :: chain (t.getHash (t.infos n).m_Addr)) := by
  have head := (h.bucket (t.infos n).m_Addr).head?_eq
  have back := h.back (t.getHash (t.infos n).m_Addr)
  have nodup := h.nodup (t.getHash (t.infos n).m_Addr)
  rw [link_prev, ← head]
  cases e : chain (t.getHash (t.infos n).m_Addr) with
  | nil => exact .singleton n
  | cons bucket rest =>
    rw [e] at back nodup
    exact back.push nodup

/-- `Insert` of a node from outside the table whose address is not in it. -/
lemma Linked.link (h : Linked t chain live) (fresh : live (t.infos n).m_Addr = none)
    (out : ∀ a, live a ≠ some n) :
    ∃ chain, Linked (t.link n) chain (Function.update live (t.infos n).m_Addr (some n)) := by
  set addr := (t.infos n).m_Addr with addr_def
  have notMem : ∀ i, n ∉ chain i := fun i hm => out addr (h.live_of_mem hm rfl)
  refine ⟨_, h.change (i := t.getHash addr) (l := n :: chain (t.getHash addr)) link_m_Size
    (fun _ => link_data) ?_ ?_ ?_ h.link_back ?_ ?_ ?_⟩
  · intro j ne
    rw [link_m_AllocInfo, Function.update_of_ne ne]
  · intro m hm hm'
    have ne : m ≠ n := fun e => hm' (e ▸ List.mem_cons_self)
    have nb : t.m_AllocInfo (t.getHash addr) ≠ some m := by
      intro e
      rw [← (h.bucket addr).head?_eq] at e
      exact hm (List.mem_of_mem_head? e)
    have same := link_infos_of_ne ne nb
    exact ⟨congrArg AllocateInfo.m_Next same, congrArg AllocateInfo.m_Prev same⟩
  · rw [link_m_AllocInfo, Function.update_self, link_next]
    exact (h.bucket addr).push (notMem _)
  · intro m
    rw [List.mem_cons, h.mem_chain]
    by_cases e : m = n
    · subst e
      simp [← addr_def]
    · by_cases ea : (t.infos m).m_Addr = addr
      · simp [e, ea, fresh, Ne.symm e]
      · simp [e, Function.update_of_ne ea]
  · intro a ne
    refine Function.update_of_ne ?_ ..
    rintro rfl
    exact ne rfl
  · intro a m hm
    by_cases e : a = addr
    · subst e
      rw [Function.update_self] at hm
      cases hm
      rfl
    · rw [Function.update_of_ne e] at hm
      exact h.addr_eq a m hm

/-- `Insert` leaves the free records as they are. -/
lemma Linked.link_keeps (h : Linked t chain live) (fresh : live (t.infos n).m_Addr = none) :
    Keeps (Function.update live (t.infos n).m_Addr (some n)) t (t.link n) := by
  refine ⟨link_m_Size, fun _ => link_data, fun m out => link_infos_of_ne ?_ ?_⟩
  · rintro rfl
    exact out (t.infos m).m_Addr (Function.update_self ..)
  · intro e
    rw [← (h.bucket (t.infos n).m_Addr).head?_eq] at e
    have live_m := h.live_of_mem (List.mem_of_mem_head? e) rfl
    refine out (t.infos m).m_Addr ?_
    rwa [Function.update_of_ne]
    intro same
    rw [same, fresh] at live_m
    cases live_m

/-- With fuel for its bucket, `Insert` returns. -/
lemma Linked.insert_eq_some (h : Linked t chain live) (fresh : live (t.infos n).m_Addr = none)
    (next : (t.infos n).m_Next = none) (prev : (t.infos n).m_Prev = none)
    (enough : (chain (t.getHash (t.infos n).m_Addr)).length < fuel) :
    t.insert ndebug fuel n = some (t.link n) := by
  refine insert_eq_some_iff.mpr ⟨.inr next, .inr prev, ?_, rfl⟩
  refine checkValid_eq (h.bucket _) enough fun m hm e => ?_
  rw [h.live_of_mem hm e] at fresh
  cases fresh

end Insert

section Remove

/-- The map without an address, when its node has left the bucket. -/
lemma Linked.erase (h : Linked t chain live) (live_n : live addr = some n)
    (size : t'.m_Size = t.m_Size) (data : ∀ n, (t'.infos n).data = (t.infos n).data)
    (buckets : ∀ j, j ≠ t.getHash addr → t'.m_AllocInfo j = t.m_AllocInfo j)
    (frame : ∀ m, m ∉ chain (t.getHash addr) → t'.infos m = t.infos m)
    (links : Chain t'.next (t'.m_AllocInfo (t.getHash addr)) l) (back : BackLinked t'.prev l)
    (mem : ∀ m, m ∈ l ↔ m ∈ chain (t.getHash addr) ∧ m ≠ n) :
    (∃ chain, Linked t' chain (Function.update live addr none)) ∧ Keeps live t t' := by
  have addr_n := h.addr_eq addr n live_n
  constructor
  · refine ⟨_, h.change size data buckets ?_ links back ?_ ?_ ?_⟩
    · intro m hm _
      have same := frame m hm
      exact ⟨congrArg AllocateInfo.m_Next same, congrArg AllocateInfo.m_Prev same⟩
    · intro m
      rw [mem, h.mem_chain]
      by_cases e : (t.infos m).m_Addr = addr
      · rw [e, live_n, Function.update_self]
        simp [eq_comm]
      · have ne : m ≠ n := by
          rintro rfl
          exact e addr_n
        rw [Function.update_of_ne e]
        simp [ne]
    · intro a ne
      refine Function.update_of_ne ?_ ..
      rintro rfl
      exact ne rfl
    · intro a m hm
      by_cases e : a = addr
      · subst e
        rw [Function.update_self] at hm
        cases hm
      · rw [Function.update_of_ne e] at hm
        exact h.addr_eq a m hm
  · refine ⟨size, data, fun m out => frame m fun hm => ?_⟩
    exact out _ (h.live_of_mem hm rfl)

/-- The first node of a bucket is removed. -/
lemma Linked.remove_head (h : Linked t chain live) (head : t.m_AllocInfo (t.getHash addr) = some n)
    (addr_n : (t.infos n).m_Addr = addr) :
    let t' := { t with m_AllocInfo := Function.update t.m_AllocInfo (t.getHash addr) (t.next n) }
    (∃ chain, Linked t' chain (Function.update live addr none)) ∧ Keeps live t t' := by
  intro t'
  have bucket := h.bucket addr
  have nodup := h.nodup (t.getHash addr)
  have back := h.back (t.getHash addr)
  rw [head] at bucket
  generalize e : chain (t.getHash addr) = l at bucket nodup back
  cases bucket with
  | @cons _ rest links =>
    have mem_n : n ∈ chain (t.getHash addr) := e ▸ List.mem_cons_self
    rw [List.nodup_cons] at nodup
    refine h.erase (h.live_of_mem mem_n addr_n) rfl (fun _ => rfl) ?_ (fun _ _ => rfl) ?_ back.tail ?_
    · intro j ne
      exact Function.update_of_ne ne ..
    · rwa [show t'.m_AllocInfo (t.getHash addr) = t.next n from Function.update_self ..]
    · intro m
      rw [e, List.mem_cons]
      constructor
      · intro hm
        refine ⟨.inr hm, ?_⟩
        rintro rfl
        exact nodup.1 hm
      · exact fun ⟨hm, ne⟩ => hm.resolve_left ne

/-- An address whose bucket has no node with it is not in the table. -/
lemma Linked.remove_none (h : Linked t chain live)
    (absent : ∀ n ∈ chain (t.getHash addr), (t.infos n).m_Addr ≠ addr) :
    live addr = none ∧ (∃ chain, Linked t chain (Function.update live addr none)) ∧ Keeps live t t := by
  have none : live addr = none := by
    cases e : live addr with
    | none => rfl
    | some n => exact absurd (h.addr_eq addr n e) (absent n (h.mem_of_live e))
  refine ⟨none, ⟨chain, ?_⟩, ⟨rfl, fun _ => rfl, fun _ _ => rfl⟩⟩
  rwa [← none, Function.update_eq_self]

variable [DecidableEq ν]

/-- What `Remove` does to a record with a predecessor. -/
lemma unlink_eq {a : ν} (prev : t.prev n = some a) : t.unlink n =
    match t.next n with
    | some next => (t.setNext a (t.next n)).setPrev next (some a)
    | none => t.setNext a none := by
  simp only [unlink, prev]
  have same : (t.setNext a (t.next n)).next n = t.next n := by
    rw [setNext_next]
    by_cases e : n = a
    · rw [← e, Function.update_self]
    · rw [Function.update_of_ne e]
  rw [same]
  cases t.next n with
  | none => rfl
  | some next => simp only [setNext_prev, prev]

/-- The records that `unlink` changes are the neighbours. -/
lemma unlink_infos_of_ne {a : ν} (prev : t.prev n = some a) (ne : m ≠ a) (nn : t.next n ≠ some m) :
    (t.unlink n).infos m = t.infos m := by
  rw [unlink_eq prev]
  split
  next next e =>
    have ne' : m ≠ next := fun h => nn (h ▸ e)
    rw [setPrev_infos_of_ne ne', setNext_infos_of_ne ne]
  next => rw [setNext_infos_of_ne ne]

/-- `Remove` leaves the data. -/
lemma unlink_data : ((t.unlink n).infos m).data = (t.infos m).data := by
  simp only [unlink]
  split <;> split <;> simp

/-- `Remove` of a record with a predecessor leaves the heads. -/
@[simp] lemma unlink_m_AllocInfo : (t.unlink n).m_AllocInfo = t.m_AllocInfo := by
  simp only [unlink]
  split <;> split <;> rfl

/-- `Remove` leaves the size. -/
@[simp] lemma unlink_m_Size : (t.unlink n).m_Size = t.m_Size := by
  simp only [unlink]
  split <;> split <;> rfl

/-- `Remove` links the predecessor to the successor. -/
lemma unlink_next {a : ν} (prev : t.prev n = some a) :
    (t.unlink n).next = Function.update t.next a (t.next n) := by
  rw [unlink_eq prev]
  split
  next next e => rw [setPrev_next, setNext_next]
  next e => rw [setNext_next, e]

/-- `Remove` links the successor back to the predecessor. -/
lemma unlink_prev {a : ν} (prev : t.prev n = some a) : (t.unlink n).prev =
    match t.next n with
    | some next => Function.update t.prev next (some a)
    | none => t.prev := by
  rw [unlink_eq prev]
  split
  · rw [setPrev_prev, setNext_prev]
  · rw [setNext_prev]

/-- A node behind another one is removed. -/
lemma Linked.remove_middle (h : Linked t chain live) {a : ν} {l1 l2 : List ν}
    (e : chain (t.getHash addr) = l1 ++ a :: n :: l2) (addr_n : (t.infos n).m_Addr = addr) :
    (∃ chain, Linked (t.unlink n) chain (Function.update live addr none)) ∧
      Keeps live t (t.unlink n) := by
  have bucket := h.bucket addr
  have nodup := h.nodup (t.getHash addr)
  have back := h.back (t.getHash addr)
  have mem_n : n ∈ chain (t.getHash addr) := by
    rw [e]
    simp
  rw [e] at bucket nodup back
  have prev_n : t.prev n = some a := back.prev_eq
  have tail : Chain t.next (t.next n) l2 := by
    have links : Chain t.next (t.m_AllocInfo (t.getHash addr)) ((l1 ++ [a]) ++ n :: l2) := by
      simpa using bucket
    exact links.tail_of_append
  refine h.erase (h.live_of_mem mem_n addr_n) unlink_m_Size (fun _ => unlink_data)
    (l := l1 ++ a :: l2) ?_ ?_ ?_ ?_ ?_
  · intro j _
    rw [unlink_m_AllocInfo]
  · intro m hm
    rw [e] at hm
    refine unlink_infos_of_ne prev_n ?_ ?_
    · rintro rfl
      exact hm (by simp)
    · intro next
      rw [← tail.head?_eq] at next
      exact hm (by simp [List.mem_of_mem_head? next])
  · rw [unlink_m_AllocInfo, unlink_next prev_n]
    exact bucket.unlink
  · rw [unlink_prev prev_n, ← tail.head?_eq]
    cases l2 with
    | nil => exact back.unlink_last
    | cons c l2 =>
      rw [← prev_n]
      exact back.unlink nodup
  · intro m
    rw [e]
    have perm : (l1 ++ a :: n :: l2).Perm (n :: (l1 ++ a :: l2)) :=
      ((List.Perm.swap n a l2).append_left l1).trans List.perm_middle
    rw [perm.nodup_iff, List.nodup_cons] at nodup
    rw [perm.mem_iff, List.mem_cons]
    constructor
    · intro hm
      refine ⟨.inr hm, ?_⟩
      rintro rfl
      exact nodup.1 hm
    · exact fun ⟨hm, ne⟩ => hm.resolve_left ne

/-- With fuel for its bucket, `Remove` returns the node of the address. -/
lemma Linked.remove (h : Linked t chain live) (enough : (chain (t.getHash addr)).length ≤ fuel) :
    ∃ t', t.remove fuel addr = some (live addr, t') ∧
      (∃ chain, Linked t' chain (Function.update live addr none)) ∧ Keeps live t t' := by
  have bucket := h.bucket addr
  generalize e : chain (t.getHash addr) = l at bucket
  generalize head : t.m_AllocInfo (t.getHash addr) = first at bucket
  cases bucket with
  | nil =>
    have absent : ∀ n ∈ chain (t.getHash addr), (t.infos n).m_Addr ≠ addr := by simp [e]
    obtain ⟨none, rest⟩ := h.remove_none absent
    exact ⟨t, by rw [AllocHashTable.remove, head, none], rest⟩
  | @cons n l links =>
    have mem_n : n ∈ chain (t.getHash addr) := e ▸ List.mem_cons_self
    by_cases addr_n : (t.infos n).m_Addr = addr
    · refine ⟨_, ?_, h.remove_head head addr_n⟩
      rw [AllocHashTable.remove, head, h.live_of_mem mem_n addr_n]
      exact if_pos addr_n
    · rw [e, List.length_cons] at enough
      have found := search_eq (p := fun n => (t.infos n).m_Addr = addr) links enough
      rw [AllocHashTable.remove, head]
      simp only [if_neg addr_n, found, Option.map_some]
      cases f : l.find? (fun n => (t.infos n).m_Addr = addr) with
      | none =>
        have absent : ∀ n ∈ chain (t.getHash addr), (t.infos n).m_Addr ≠ addr := by
          rw [e, List.forall_mem_cons]
          exact ⟨addr_n, by simpa using List.find?_eq_none.mp f⟩
        obtain ⟨none, rest⟩ := h.remove_none absent
        exact ⟨t, by rw [none], rest⟩
      | some b =>
        obtain ⟨addr_b, l1, l2, rfl, -⟩ := List.find?_eq_some_iff_append.mp f
        rw [decide_eq_true_eq] at addr_b
        -- the node in front of `b` is the last one of `n :: l1`
        obtain ⟨l0, a, front⟩ := (List.eq_nil_or_concat (n :: l1)).resolve_left (List.cons_ne_nil n l1)
        have split : chain (t.getHash addr) = l0 ++ a :: b :: l2 := by
          rw [e, ← List.cons_append, front]
          simp
        have mem_b : b ∈ chain (t.getHash addr) := by
          rw [split]
          simp
        refine ⟨_, ?_, h.remove_middle split addr_b⟩
        rw [h.live_of_mem mem_b addr_b]

/-- More fuel does not change the result of `Insert`. -/
lemma insert_mono {fuel' : Nat} (res : t.insert ndebug fuel n = some t') (le : fuel ≤ fuel') :
    t.insert ndebug fuel' n = some t' := by
  rw [insert_eq_some_iff] at res ⊢
  obtain ⟨next, prev, valid, e⟩ := res
  exact ⟨next, prev, checkValid_mono valid le, e⟩

/-- More fuel does not change the result of `Remove`. -/
lemma remove_mono {fuel' : Nat} {r : Option ν × AllocHashTable ν} (res : t.remove fuel addr = some r)
    (le : fuel ≤ fuel') : t.remove fuel' addr = some r := by
  rw [AllocHashTable.remove] at res ⊢
  split at res
  next => exact res
  next bucket _ =>
    split_ifs at res ⊢
    · exact res
    · rw [Option.map_eq_some_iff] at res ⊢
      obtain ⟨found, e, er⟩ := res
      exact ⟨found, search_mono e le, er⟩

/-- Whatever fuel it took, `Remove` has returned the node of the address. -/
lemma Linked.remove_cases (h : Linked t chain live) {r : Option ν}
    (res : t.remove fuel addr = some (r, t')) :
    r = live addr ∧ (∃ chain, Linked t' chain (Function.update live addr none)) ∧ Keeps live t t' := by
  obtain ⟨t1, e, linked, keeps⟩ :=
    h.remove (Nat.le_max_right fuel (chain (t.getHash addr)).length)
  have same := remove_mono res (Nat.le_max_left fuel (chain (t.getHash addr)).length)
  rw [e] at same
  cases same
  exact ⟨rfl, linked, keeps⟩

end Remove

end AllocHashTable
end XLN
