import XLN.Lib.Transition
import Mathlib.Data.List.Nodup
import Mathlib.Data.List.Perm.Subperm
import Mathlib.Data.List.Range
import Mathlib.Logic.Function.Basic

/-!
# The object pool

`Core/Utility/Pool.h`: `FreeList<T, N>` hands out objects from a lock-free stack of capacity `N` and
takes them back. `FreeList` below is its data together with the heap its objects live on; `Aquire`,
`Release` and `Grow` are the methods. `Client` runs a sequence of calls and remembers what has been
acquired, and `Client.Sound` is the partition of all objects into acquired and free ones.

`Aquire` pushes the object it creates for an empty stack *and* returns it, so the partition holds
exactly in the runs that never exhaust the pool (`sound_along_iff`).
-/

namespace XLN
open Transition

/-- Address of a heap object. -/
abbrev Ptr := Nat

/-- What the constructor and the destructor of a C++ class do to the storage they run on. Both get
    the old contents: members without an initialiser keep what was there. -/
class Object (T : Type) where
  construct : T → T
  destruct : T → T

instance : Object Unit where
  construct := id
  destruct := id

/-- `FreeList<T, N>` and the heap behind `XLN_OBJ_NEW`: the addresses below `heap` are in use. The
    head of `m_FreeList` is the top of the stack. -/
structure FreeList (T : Type) where
  m_CurSize : Nat
  m_FreeList : List Ptr
  heap : Nat
  storage : Ptr → T

namespace FreeList

section Push
variable {T : Type} (N : Nat)

/-- `boost::lockfree::stack::push`, which fails when the stack already holds `N` elements. -/
def push (obj : Ptr) (f : FreeList T) : FreeList T :=
  if f.m_FreeList.length < N then { f with m_FreeList := obj :: f.m_FreeList } else f

variable {N} {f : FreeList T} {obj : Ptr}

/-- Pushing a slot leaves the heap. -/
@[simp] lemma push_heap : (f.push N obj).heap = f.heap := by
  unfold push; split <;> rfl

/-- Pushing a slot leaves the objects. -/
@[simp] lemma push_storage : (f.push N obj).storage = f.storage := by
  unfold push; split <;> rfl

/-- A full stack takes no slot. -/
lemma push_m_FreeList : (f.push N obj).m_FreeList =
    if f.m_FreeList.length < N then obj :: f.m_FreeList else f.m_FreeList := by
  unfold push; split <;> rfl

end Push

variable {T : Type} [Object T] (N : Nat)

/-- Placement `new (obj) T`. -/
def construct (obj : Ptr) (f : FreeList T) : FreeList T :=
  { f with storage := Function.update f.storage obj (Object.construct (f.storage obj)) }

/-- `obj->~T()`. -/
def destruct (obj : Ptr) (f : FreeList T) : FreeList T :=
  { f with storage := Function.update f.storage obj (Object.destruct (f.storage obj)) }

/-- `XLN_OBJ_NEW T()`. -/
def objNew (f : FreeList T) : Ptr × FreeList T :=
  (f.heap, construct f.heap { f with heap := f.heap + 1 })

/-- `FreeList::Aquire`. -/
def aquire (f : FreeList T) : Ptr × FreeList T :=
  match f.m_FreeList with
  | [] =>
    let newObj := f.objNew.1
    (newObj, (f.objNew.2.push N newObj).construct newObj)
  | ret :: rest => (ret, construct ret { f with m_FreeList := rest })

/-- `FreeList::Release`. -/
def release (releaseObj : Ptr) (f : FreeList T) : FreeList T :=
  (f.destruct releaseObj).push N releaseObj

/-- The loop of `FreeList::Grow`. -/
def growLoop : Nat → FreeList T → FreeList T
  | 0, f => f
  | sizeNeeded + 1, f => growLoop sizeNeeded (f.objNew.2.push N f.objNew.1)

/-- `FreeList::Grow`, which only the constructor calls. -/
def grow (targetSize : Nat) (f : FreeList T) : FreeList T :=
  { growLoop N (targetSize - f.m_CurSize) f with m_CurSize := targetSize }

/-- The constructor with `preAllocate = true`, on a heap with arbitrary contents. -/
def new (raw : Ptr → T) : FreeList T :=
  grow N N { m_CurSize := 0, m_FreeList := [], heap := 0, storage := raw }

/-- `XLN_OBJ_DELETE`: the destructor, before the memory is given back. -/
def objDelete (obj : Ptr) (f : FreeList T) : FreeList T :=
  f.destruct obj

/-- The loop of `FreeList::Free` over what is on the stack. -/
def freeLoop : List Ptr → FreeList T → FreeList T
  | [], f => { f with m_FreeList := [] }
  | ret :: rest, f => freeLoop rest ((destruct ret { f with m_FreeList := rest }).objDelete ret)

/-- `FreeList::Free`, which only the destructor calls. -/
def free (f : FreeList T) : FreeList T :=
  freeLoop f.m_FreeList f

variable {N} {f : FreeList T} {obj p : Ptr} {rest : List Ptr}

/-- A constructor leaves the stack. -/
@[simp] lemma construct_m_FreeList : (f.construct obj).m_FreeList = f.m_FreeList := rfl

/-- A constructor leaves the heap. -/
@[simp] lemma construct_heap : (f.construct obj).heap = f.heap := rfl

/-- A destructor leaves the stack. -/
@[simp] lemma destruct_m_FreeList : (f.destruct obj).m_FreeList = f.m_FreeList := rfl

/-- A destructor leaves the heap. -/
@[simp] lemma destruct_heap : (f.destruct obj).heap = f.heap := rfl

/-- `new` leaves the stack. -/
@[simp] lemma objNew_m_FreeList : f.objNew.2.m_FreeList = f.m_FreeList := rfl

/-- `new` takes a slot of the heap. -/
@[simp] lemma objNew_heap : f.objNew.2.heap = f.heap + 1 := rfl

/-- `Aquire` on a non-empty stack takes the top. -/
lemma aquire_cons (h : f.m_FreeList = obj :: rest) :
    f.aquire N = (obj, construct obj { f with m_FreeList := rest }) := by
  unfold aquire; rw [h]

/-- `Aquire` on an empty stack creates an object and pushes it. -/
lemma aquire_nil (h : f.m_FreeList = []) :
    f.aquire N = (f.heap, (f.objNew.2.push N f.heap).construct f.heap) := by
  unfold aquire; rw [h]; rfl

/-- `Release` leaves the heap. -/
@[simp] lemma release_heap : (f.release N obj).heap = f.heap := by
  simp [release]

/-- The pre-allocated addresses, the one pushed last on top. -/
lemma growLoop_spec (k : Nat) :
    ∀ {f : FreeList T}, f.m_FreeList = (List.range f.heap).reverse → f.heap + k ≤ N →
      (growLoop N k f).m_FreeList = (List.range (f.heap + k)).reverse ∧
        (growLoop N k f).heap = f.heap + k := by
  induction k with
  | zero => exact fun h _ => ⟨h, rfl⟩
  | succ k ih =>
    intro f h room
    have hlen : f.objNew.2.m_FreeList.length < N := by simp [h]; omega
    have hpush : (f.objNew.2.push N f.heap).m_FreeList = (List.range (f.heap + 1)).reverse := by
      rw [push_m_FreeList, if_pos hlen, objNew_m_FreeList, h, List.range_succ, List.reverse_concat]
    have := ih (f := f.objNew.2.push N f.heap) (by simpa using hpush) (by simp; omega)
    simp only [push_heap, objNew_heap] at this
    rw [show f.heap + (k + 1) = f.heap + 1 + k by omega]
    exact this

/-- All slots of a new pool are on its stack, the newest first. -/
lemma new_m_FreeList (raw : Ptr → T) : (new N raw).m_FreeList = (List.range N).reverse := by
  have := (growLoop_spec (N := N) N
    (f := { m_CurSize := 0, m_FreeList := [], heap := 0, storage := raw }) rfl (by simp)).1
  simpa [new, grow] using this

/-- A new pool has taken its slots from the heap. -/
@[simp] lemma new_heap (raw : Ptr → T) : (new N raw).heap = N := by
  have := (growLoop_spec (N := N) N
    (f := { m_CurSize := 0, m_FreeList := [], heap := 0, storage := raw }) rfl (by simp)).2
  simpa [new, grow] using this

/-! ## What happens to a slot -/

/-- A constructor runs on one object. -/
lemma construct_storage : (f.construct obj).storage p =
    if p = obj then Object.construct (f.storage p) else f.storage p := by
  show Function.update f.storage obj (Object.construct (f.storage obj)) p = _
  rw [Function.update_apply]
  split
  next e => rw [e]
  next => rfl

/-- A destructor runs on one object. -/
lemma destruct_storage : (f.destruct obj).storage p =
    if p = obj then Object.destruct (f.storage p) else f.storage p := by
  show Function.update f.storage obj (Object.destruct (f.storage obj)) p = _
  rw [Function.update_apply]
  split
  next e => rw [e]
  next => rfl

/-- `Aquire` constructs in the slot that it takes. -/
lemma aquire_slot (free : f.m_FreeList = obj :: rest) :
    (f.aquire N).2.storage obj = Object.construct (f.storage obj) := by
  rw [aquire_cons free, construct_storage, if_pos rfl]

/-- In a slot that it creates it constructs for the second time. -/
lemma aquire_created (free : f.m_FreeList = []) :
    (f.aquire N).2.storage f.heap = Object.construct (Object.construct (f.storage f.heap)) := by
  rw [aquire_nil free, construct_storage, if_pos rfl, push_storage]
  show Object.construct ((construct f.heap { f with heap := f.heap + 1 }).storage f.heap) = _
  rw [construct_storage, if_pos rfl]

/-- `Aquire` does nothing to the other slots. -/
lemma aquire_other (ne : p ≠ (f.aquire N).1) : (f.aquire N).2.storage p = f.storage p := by
  cases free : f.m_FreeList with
  | nil =>
    rw [aquire_nil free] at ne ⊢
    rw [construct_storage, if_neg ne, push_storage]
    show (construct f.heap { f with heap := f.heap + 1 }).storage p = _
    rw [construct_storage, if_neg ne]
  | cons ret rest =>
    rw [aquire_cons free] at ne ⊢
    rw [construct_storage, if_neg ne]

/-- `Release` destroys one object. -/
lemma release_storage : (f.release N obj).storage p =
    if p = obj then Object.destruct (f.storage p) else f.storage p := by
  rw [release, push_storage, destruct_storage]

/-- `Grow` constructs the slots that it makes. -/
lemma growLoop_storage {p : Nat} (k : Nat) : (growLoop N k f).storage p =
    if f.heap ≤ p ∧ p < f.heap + k then Object.construct (f.storage p) else f.storage p := by
  induction k generalizing f with
  | zero => exact (if_neg (by omega)).symm
  | succ k ih =>
    show (growLoop N k (f.objNew.2.push N f.objNew.1)).storage p = _
    rw [ih, push_heap, objNew_heap, push_storage]
    show (if _ then Object.construct ((construct f.heap { f with heap := f.heap + 1 }).storage p)
      else (construct f.heap { f with heap := f.heap + 1 }).storage p) = _
    rw [construct_storage]
    by_cases here : p = f.heap
    · rw [if_neg (by omega), if_pos here, if_pos (by omega)]
    · rw [if_neg here]
      by_cases later : f.heap + 1 ≤ p ∧ p < f.heap + 1 + k
      · rw [if_pos later, if_pos (by omega)]
      · rw [if_neg later, if_neg (by omega)]

/-- The constructor constructs the pre-allocated objects. -/
lemma new_storage {p : Nat} (raw : Ptr → T) :
    (new N raw).storage p = if p < N then Object.construct (raw p) else raw p := by
  have := growLoop_storage (N := N) (p := p) N
    (f := { m_CurSize := 0, m_FreeList := [], heap := 0, storage := raw })
  simpa [new, grow] using this

/-- `Free` runs the destructor of every free object twice. -/
lemma freeLoop_storage {l : List Ptr} (nodup : l.Nodup) : (freeLoop l f).storage p =
    if p ∈ l then Object.destruct (Object.destruct (f.storage p)) else f.storage p := by
  induction l generalizing f with
  | nil => rw [if_neg List.not_mem_nil]; rfl
  | cons ret rest ih =>
    rw [List.nodup_cons] at nodup
    rw [freeLoop, ih nodup.2, objDelete, destruct_storage, destruct_storage]
    by_cases e : p = ret
    · rw [if_neg (e ▸ nodup.1), if_pos e, if_pos e, if_pos (e ▸ List.mem_cons_self)]
    · rw [if_neg e, if_neg e]
      simp only [List.mem_cons, e, false_or]

/-- The destructor of the pool takes nothing from the heap. -/
@[simp] lemma freeLoop_heap {l : List Ptr} : (freeLoop l f).heap = f.heap := by
  induction l generalizing f with
  | nil => rfl
  | cons ret rest ih => exact ih

/-! ## Runs of `Aquire` and `Release` -/

/-- One call on the pool. -/
inductive Call where
  | aquire
  | release (obj : Ptr)

/-- A pool and the objects its callers hold. -/
structure Client (T : Type) where
  pool : FreeList T
  acquired : List Ptr

namespace Client

/-- A freshly constructed pool, with nothing acquired. -/
def init (N : Nat) (raw : Ptr → T) : Client T :=
  { pool := new N raw, acquired := [] }

/-- A call; only an object that is held can be released. -/
def step (N : Nat) (c : Client T) : Call → Option (Client T)
  | .aquire => some { pool := (c.pool.aquire N).2, acquired := (c.pool.aquire N).1 :: c.acquired }
  | .release obj =>
    if obj ∈ c.acquired then
      some { pool := c.pool.release N obj, acquired := c.acquired.erase obj }
    else none

/-- Acquired and free objects partition everything ever created. -/
structure Sound (c : Client T) : Prop where
  acquired_nodup : c.acquired.Nodup
  free_nodup : c.pool.m_FreeList.Nodup
  disjoint : ∀ p ∈ c.acquired, p ∉ c.pool.m_FreeList
  kept : ∀ p < c.pool.heap, p ∈ c.acquired ∨ p ∈ c.pool.m_FreeList

/-- The pool is neither exhausted by the call nor refilled past its capacity. -/
def Roomy (N : Nat) (c : Client T) : Call → Prop
  | .aquire => c.pool.m_FreeList ≠ [] ∨ N = 0
  | .release _ => c.pool.m_FreeList.length < N

/-- Every object in play has been created. -/
def Created (c : Client T) : Prop :=
  ∀ p, p ∈ c.acquired ∨ p ∈ c.pool.m_FreeList → p < c.pool.heap

variable {c c' : Client T} {a : Call}

/-- What a call can do. -/
lemma step_cases (st : Exec (step N) c a c') :
    (∃ obj rest, a = .aquire ∧ c.pool.m_FreeList = obj :: rest ∧ c'.acquired = obj :: c.acquired ∧
      c'.pool.m_FreeList = rest ∧ c'.pool.heap = c.pool.heap) ∨
    (a = .aquire ∧ c.pool.m_FreeList = [] ∧ c'.acquired = c.pool.heap :: c.acquired ∧
      c'.pool.m_FreeList = (if N = 0 then [] else [c.pool.heap]) ∧
      c'.pool.heap = c.pool.heap + 1) ∨
    (∃ obj, a = .release obj ∧ obj ∈ c.acquired ∧ c'.acquired = c.acquired.erase obj ∧
      c'.pool.m_FreeList =
        (if c.pool.m_FreeList.length < N then obj :: c.pool.m_FreeList else c.pool.m_FreeList) ∧
      c'.pool.heap = c.pool.heap) := by
  cases a with
  | aquire =>
    cases st
    cases hfree : c.pool.m_FreeList with
    | nil =>
      refine .inr (.inl ⟨rfl, rfl, ?_⟩)
      rw [aquire_nil hfree]
      rcases Nat.eq_zero_or_pos N with rfl | hN
      · simp [push_m_FreeList, hfree]
      · simp [push_m_FreeList, hfree, hN, hN.ne']
    | cons obj rest =>
      refine .inl ⟨obj, rest, rfl, rfl, ?_⟩
      rw [aquire_cons hfree]
      exact ⟨rfl, rfl, rfl⟩
  | release obj =>
    simp only [Exec, step] at st
    split at st
    next held =>
      cases st
      refine .inr (.inr ⟨obj, rfl, held, rfl, ?_, by simp⟩)
      rw [release, push_m_FreeList, destruct_m_FreeList]
    next => cases st

/-- What is on the stack or acquired was made by the pool. -/
lemma created_step (h : c.Created) (st : Exec (step N) c a c') : c'.Created := by
  intro p hp
  obtain ⟨obj, rest, -, hf, ha, hf', hh⟩ | ⟨-, hf, ha, hf', hh⟩ | ⟨obj, -, held, ha, hf', hh⟩ :=
    step_cases st
  · rw [ha, hf'] at hp
    rw [hh]
    rcases hp with hp | hp
    · rcases List.mem_cons.mp hp with rfl | hp
      · exact h p (.inr (by simp [hf]))
      · exact h p (.inl hp)
    · exact h p (.inr (by simp [hf, hp]))
  · rw [ha, hf'] at hp
    rw [hh]
    rcases hp with hp | hp
    · rcases List.mem_cons.mp hp with rfl | hp
      · exact Nat.lt_succ_self _
      · exact Nat.lt_succ_of_lt (h p (.inl hp))
    · split at hp
      · exact absurd hp List.not_mem_nil
      · rw [List.mem_singleton.mp hp]
        exact Nat.lt_succ_self _
  · rw [ha, hf'] at hp
    rw [hh]
    rcases hp with hp | hp
    · exact h p (.inl (List.mem_of_mem_erase hp))
    · split at hp
      · rcases List.mem_cons.mp hp with rfl | hp
        · exact h p (.inl held)
        · exact h p (.inr hp)
      · exact h p (.inr hp)

/-- Within its capacity the pool keeps the partition. -/
lemma sound_step (created : c.Created) (h : c.Sound) (room : c.Roomy N a)
    (st : Exec (step N) c a c') : c'.Sound := by
  obtain ⟨obj, rest, -, hf, ha, hf', hh⟩ | ⟨rfl, hf, ha, hf', hh⟩ | ⟨obj, rfl, held, ha, hf', hh⟩ :=
    step_cases st
  · -- the top of the stack becomes an acquired object
    have hnd := h.free_nodup
    rw [hf, List.nodup_cons] at hnd
    have hout : obj ∉ c.acquired := fun hm => h.disjoint obj hm (by simp [hf])
    refine ⟨?_, ?_, ?_, ?_⟩
    · rw [ha]; exact List.nodup_cons.mpr ⟨hout, h.acquired_nodup⟩
    · rw [hf']; exact hnd.2
    · intro p hp
      rw [ha] at hp
      rw [hf']
      rcases List.mem_cons.mp hp with rfl | hp
      · exact hnd.1
      · exact fun hr => h.disjoint p hp (by simp [hf, hr])
    · intro p hp
      rw [hh] at hp
      have := h.kept p hp
      rw [hf] at this
      rw [ha, hf']
      simp only [List.mem_cons] at this ⊢
      tauto
  · -- a stack without capacity: the new object is only acquired
    have hN : N = 0 := room.resolve_left (fun ne => ne hf)
    rw [if_pos hN] at hf'
    have hout : c.pool.heap ∉ c.acquired := fun hm => Nat.lt_irrefl _ (created _ (.inl hm))
    refine ⟨?_, ?_, ?_, ?_⟩
    · rw [ha]; exact List.nodup_cons.mpr ⟨hout, h.acquired_nodup⟩
    · simp [hf']
    · simp [hf']
    · intro p hp
      rw [hh] at hp
      rw [ha]
      rcases Nat.lt_succ_iff_lt_or_eq.mp hp with hp | rfl
      · have := h.kept p hp
        simp only [hf, List.not_mem_nil, or_false] at this
        exact .inl (List.mem_cons_of_mem _ this)
      · exact .inl List.mem_cons_self
  · -- an acquired object goes on top of the stack
    rw [if_pos (show c.pool.m_FreeList.length < N from room)] at hf'
    have hfree : obj ∉ c.pool.m_FreeList := h.disjoint obj held
    refine ⟨?_, ?_, ?_, ?_⟩
    · rw [ha]; exact h.acquired_nodup.erase obj
    · rw [hf']; exact List.nodup_cons.mpr ⟨hfree, h.free_nodup⟩
    · intro p hp
      rw [ha, h.acquired_nodup.mem_erase_iff] at hp
      rw [hf', List.mem_cons]
      rintro (e | hm)
      · exact hp.1 e
      · exact h.disjoint p hp.2 hm
    · intro p hp
      rw [hh] at hp
      rw [ha, hf', h.acquired_nodup.mem_erase_iff, List.mem_cons]
      rcases h.kept p hp with hm | hm
      · by_cases e : p = obj
        · exact .inr (.inl e)
        · exact .inl ⟨e, hm⟩
      · exact .inr (.inr hm)

/-- A call past the capacity breaks the partition: the created object is acquired and free at once,
    or the released object is neither. -/
lemma unsound_step (created : c.Created) (h : c.Sound) (full : ¬ c.Roomy N a)
    (st : Exec (step N) c a c') : ¬ c'.Sound := by
  intro h'
  obtain ⟨obj, rest, rfl, hf, -⟩ | ⟨rfl, hf, ha, hf', hh⟩ | ⟨obj, rfl, held, ha, hf', hh⟩ :=
    step_cases st
  · exact full (.inl (by simp [hf]))
  · -- the new object is pushed and handed out
    have hN : N ≠ 0 := fun e => full (.inr e)
    rw [if_neg hN] at hf'
    exact h'.disjoint c.pool.heap (by simp [ha]) (by simp [hf'])
  · rw [if_neg (show ¬ c.pool.m_FreeList.length < N from full)] at hf'
    have hlt := created obj (.inl held)
    rw [← hh] at hlt
    have hkept := h'.kept obj hlt
    rw [ha, hf', h.acquired_nodup.mem_erase_iff] at hkept
    rcases hkept with hm | hm
    · exact hm.1 rfl
    · exact h.disjoint obj held hm

/-- A new pool is sound. -/
lemma sound_init (N : Nat) (raw : Ptr → T) : (init N raw).Sound where
  acquired_nodup := List.nodup_nil
  free_nodup := by simp [init, new_m_FreeList, List.nodup_range]
  disjoint := by simp [init]
  kept := by simp [init, new_m_FreeList]

/-- The slots of a new pool were made by it. -/
lemma created_init (N : Nat) (raw : Ptr → T) : (init N raw).Created := by
  simp [Created, init, new_m_FreeList]

/-- The partition holds throughout a run exactly if no call of the run finds the stack empty
    (`Aquire`) or full (`Release`). -/
theorem sound_along_iff (N : Nat) (raw : Ptr → T) {l : List Call}
    (run : Run (Exec (step N)) (init N raw) l c) :
    Along (Exec (step N)) Sound (init N raw) l ↔ Meets (Exec (step N)) (Roomy N) (init N raw) l :=
  along_iff_meets (Exec.deterministic _) run (sound_init N raw) (created_init N raw)
    created_step sound_step unsound_step

/-- The statement above at a pool of one object that is acquired and given back. -/
theorem sound_along_iff_reuse :
    Along (Exec (step 1)) Sound (init 1 fun _ => ()) [.aquire, .release 0] ↔
      Meets (Exec (step 1)) (Roomy 1) (init 1 fun _ => ()) [.aquire, .release 0] :=
  sound_along_iff 1 (fun _ => ())
    (c := ⟨(((new 1 fun _ => ()).aquire 1).2).release 1 0, []⟩) (run_exec_iff.mpr rfl)

/-- With one pre-allocated object, the second of two `Aquire` calls returns an object that is also
    on the free stack. -/
theorem exhausted_unsound :
    ∃ c : Client Unit,
      Run (Exec (step 1)) (init 1 fun _ => ()) [.aquire, .aquire] c ∧ ¬ c.Sound := by
  refine ⟨⟨((((new 1 fun _ => ()).aquire 1).2).aquire 1).2, [1, 0]⟩, run_exec_iff.mpr rfl, ?_⟩
  intro h
  exact h.disjoint 1 (by decide) (by decide)

end Client
end FreeList
end XLN
