import XLN.Foundation.Task.TaskThread

/-!
# Who has a task

A task goes from its creator into the queue of one runner, into the hands of that runner, and from
there to the pool or, once, into the queue of the processor it was created on. `Stage` is the place
of a task on this way, and `Agrees` says that a system keeps every task at the place of its stage and
nowhere else. Every step moves at most one task to its next stage (`owned_step`), as long as
`SubmitTask` reaches a thread that is still in its loop (`OnTime`) and `TaskAllocator` is not
exhausted: then tasks in use have storage of their own (`Pooled`). For processors that are not stopped
this gives the account of all tasks (`settled_of_room`).
-/

namespace XLN
open Transition

/-- The place of a task: with its creator, in a queue or in hand and not yet handled, in hand and
    handled, handed back, or in the pool. -/
inductive Stage (ι : Type) where
  | idle
  | queued (p : ι)
  | settling (p : ι)
  | returning (p : ι)
  | released

/-- A thread with a runner exactly if it has not gone, and an empty one if it has left its loop. -/
def TaskThread.Sane {τ : Type} (thread : TaskThread τ) : Prop :=
  match thread.pc, thread.m_Runnable with
  | .loop, some runner => runner.returned = true
  | .run, some _ => True
  | .exit, some runner => runner.returned = true ∧ runner.queued = []
  | .gone, none => True
  | _, _ => False

namespace System

section Definitions
variable {ι : Type}

/-- The tasks that the processor `p` has and has not handled. -/
def queued (s : System ι) (p : ι) : List Nat :=
  (s.threads p).queued

/-- The task that the processor `p` has handled and not yet passed on. -/
def settling (s : System ι) (p : ι) : Option Nat :=
  (s.threads p).settling

/-- What has been done to the task `t` in each stage. -/
def Fits (s : System ι) (t : Nat) : Stage ι → Prop
  | .idle => s.posted t = false ∧ s.invoked t = 0 ∧ s.handedBack t = [] ∧ s.released t = 0 ∧
    (t < s.created → (s.memory t).m_SysAction ≠ .SA_RELEASE_TASK ∧
      (s.memory t).m_CurrentProcessor = s.creator t)
  | .queued _ => s.posted t = true ∧ s.invoked t = 0 ∧ s.handedBack t = [] ∧ s.released t = 0 ∧
    (s.memory t).m_SysAction ≠ .SA_RELEASE_TASK ∧ (s.memory t).m_CurrentProcessor = s.creator t
  | .settling _ => s.posted t = true ∧ s.invoked t ≤ 1 ∧ s.handedBack t = [] ∧ s.released t = 0 ∧
    (s.memory t).m_CurrentProcessor = s.creator t
  | .returning p => s.posted t = true ∧ s.invoked t ≤ 1 ∧ s.handedBack t = [p] ∧ s.released t = 0 ∧
    (s.memory t).m_SysAction = .SA_RELEASE_TASK ∧ s.creator t = some p
  | .released => s.posted t = true ∧ s.invoked t ≤ 1 ∧ (s.handedBack t).length ≤ 1 ∧
    s.released t = 1 ∧ ∀ p ∈ s.handedBack t, s.creator t = some p

/-- The tasks that have been acquired and not released. -/
def inUse (s : System ι) : List Nat :=
  (List.range s.created).filter fun t => s.released t = 0

/-- The slots of `TaskAllocator` are split among the tasks in use and the free list. -/
structure Pooled (s : System ι) : Prop where
  slots : (s.inUse.map s.pointer ++ s.m_TaskAllocator.m_FreeList).Perm
    (List.range TaskAllocator.capacity)

/-- Every task is where its stage says, once, and nowhere else. -/
structure Agrees (s : System ι) (stage : Nat → Stage ι) : Prop where
  pooled : s.Pooled
  nodup : ∀ p, (s.queued p).Nodup
  queued : ∀ p t, t ∈ s.queued p ↔ stage t = .queued p ∨ stage t = .returning p
  settling : ∀ p t, s.settling p = some t ↔ stage t = .settling p
  fits : ∀ t, s.Fits t (stage t)
  created : ∀ t, s.posted t = true → t < s.created

/-- The system has lost track of nothing. -/
structure Owned (s : System ι) : Prop where
  sane : ∀ p, (s.threads p).Sane
  alive : s.nullDereference = false
  agrees : ∃ stage, s.Agrees stage

/-- The same is recorded about the task `t`, and the same is in its storage while it is in use. -/
structure Untouched (s s' : System ι) (t : Nat) : Prop where
  memory : t ∈ s.inUse → s'.memory t = s.memory t
  creator : s'.creator t = s.creator t
  posted : s'.posted t = s.posted t
  invoked : s'.invoked t = s.invoked t
  handedBack : s'.handedBack t = s.handedBack t
  released : s'.released t = s.released t

variable [DecidableEq ι]

/-- The processor that a step calls `SubmitTask` on. -/
def submits (s : System ι) : Event ι → Option ι
  | .submitTask _ p => some p
  | .run p =>
    match (s.threads p).pc, s.settling p with
    | .run, some t =>
      match (s.memory t).m_CurrentProcessor with
      | some processor => if processor = p then none else some processor
      | none => none
    | _, _ => none
  | _ => none

/-- `SubmitTask` reaches a queue with room. -/
def RoomToSubmit (s : System ι) (a : Event ι) : Prop :=
  ∀ p ∈ s.submits a, (s.threads p).hasRoom = true

instance (s : System ι) (a : Event ι) : Decidable (s.RoomToSubmit a) :=
  inferInstanceAs (Decidable (∀ p ∈ s.submits a, (s.threads p).hasRoom = true))

/-- A task is acquired while `TaskAllocator` has a free one. -/
def RoomToAquire (s : System ι) : Event ι → Prop
  | .create _ => s.inUse.length < TaskAllocator.capacity
  | _ => True

instance (s : System ι) : (a : Event ι) → Decidable (s.RoomToAquire a)
  | .create _ => inferInstanceAs (Decidable (s.inUse.length < TaskAllocator.capacity))
  | .submitTask _ _ | .run _ | .setFinished _ | .threadExit _ => inferInstanceAs (Decidable True)

/-- The processor whose thread leaves its loop in a step. -/
def leaves (s : System ι) : Event ι → Option ι
  | .run p =>
    match (s.threads p).pc with
    | .loop => if (s.threads p).m_ThreadExit then some p else none
    | _ => none
  | _ => none

/-- The pool is not exhausted, `SubmitTask` reaches a thread that has not left its loop and a queue with
    room, and a thread leaves its loop with no task waiting. -/
structure OnTime (s : System ι) (a : Event ι) : Prop where
  pool : s.RoomToAquire a
  room : s.RoomToSubmit a
  inLoop : ∀ p ∈ s.submits a, (s.threads p).InLoop
  drained : ∀ p ∈ s.leaves a, s.queued p = []

instance (s : System ι) (a : Event ι) : Decidable (s.OnTime a) :=
  decidable_of_iff (s.RoomToAquire a ∧ s.RoomToSubmit a ∧
      (∀ p ∈ s.submits a, (s.threads p).InLoop) ∧ ∀ p ∈ s.leaves a, s.queued p = [])
    ⟨fun h => ⟨h.1, h.2.1, h.2.2.1, h.2.2.2⟩, fun h => ⟨h.pool, h.room, h.inLoop, h.drained⟩⟩

end Definitions

variable {ι : Type} {s s' : System ι} {stage : Nat → Stage ι} {st : Stage ι} {p q : ι} {t t' : Nat}
  {runner runner' : Runner Nat} {thread : TaskThread Nat}

/-! ## The pool -/

/-- A pointer is in use between its `Aquire` and its `Release`. -/
lemma mem_inUse : t ∈ s.inUse ↔ t < s.created ∧ s.released t = 0 := by
  simp [inUse]

/-- A system with the same tasks in use and the same free list is pooled, too. -/
lemma Pooled.of_same (h : s.Pooled) (inUse : s'.inUse = s.inUse) (pointer : s'.pointer = s.pointer)
    (free : s'.m_TaskAllocator.m_FreeList = s.m_TaskAllocator.m_FreeList) : s'.Pooled := by
  constructor
  rw [inUse, pointer, free]
  exact h.slots

/-- Each slot is in use or free. -/
lemma Pooled.length (h : s.Pooled) :
    s.inUse.length + s.m_TaskAllocator.m_FreeList.length = TaskAllocator.capacity := by
  simpa using h.slots.length_eq

/-- Tasks in use have storage of their own. -/
lemma Pooled.pointer_ne (h : s.Pooled) (mem : t ∈ s.inUse) (mem' : t' ∈ s.inUse) (ne : t' ≠ t) :
    s.pointer t' ≠ s.pointer t := by
  have nodup := (List.nodup_append.mp (h.slots.nodup_iff.mpr List.nodup_range)).1
  exact fun e => ne (List.inj_on_of_nodup_map nodup mem' mem e)

/-- The storage of a task in use is not free. -/
lemma Pooled.not_free (h : s.Pooled) (mem : t ∈ s.inUse) :
    s.pointer t ∉ s.m_TaskAllocator.m_FreeList := by
  have apart := (List.nodup_append.mp (h.slots.nodup_iff.mpr List.nodup_range)).2.2
  exact fun free => apart _ (List.mem_map_of_mem mem) _ free rfl

/-- What was written is read. -/
lemma memory_write_self {task : Task ι} : (s.write t task).memory t = task :=
  Function.update_self ..

/-- A write to one task in use leaves the others alone. -/
lemma Pooled.memory_write {task : Task ι} (h : s.Pooled) (mem : t ∈ s.inUse) (mem' : t' ∈ s.inUse)
    (ne : t' ≠ t) : (s.write t task).memory t' = s.memory t' :=
  Function.update_of_ne (h.pointer_ne mem mem' ne) ..

/-- So does the release of one. -/
lemma Pooled.memory_release (h : s.Pooled) (mem : t ∈ s.inUse) (mem' : t' ∈ s.inUse)
    (ne : t' ≠ t) : (s.release t).memory t' = s.memory t' := by
  let pool : Object (Task ι) := Task.object none
  show (s.m_TaskAllocator.release TaskAllocator.capacity (s.pointer t)).storage (s.pointer t') = _
  rw [FreeList.release_storage, if_neg (h.pointer_ne mem mem' ne)]
  rfl

/-- A released task gives its slot back. -/
lemma Pooled.release (h : s.Pooled) (mem : t ∈ s.inUse) : (s.release t).Pooled := by
  let pool : Object (Task ι) := Task.object none
  have room : s.m_TaskAllocator.m_FreeList.length < TaskAllocator.capacity := by
    have some := List.length_pos_of_mem mem
    have := h.length
    omega
  have free : (s.release t).m_TaskAllocator.m_FreeList =
      s.pointer t :: s.m_TaskAllocator.m_FreeList := by
    show (s.m_TaskAllocator.release TaskAllocator.capacity (s.pointer t)).m_FreeList = _
    rw [FreeList.release, FreeList.push_m_FreeList, FreeList.destruct_m_FreeList, if_pos room]
  have inUse : (s.release t).inUse = s.inUse.erase t := by
    have nodup : s.inUse.Nodup := List.nodup_range.filter _
    rw [nodup.erase_eq_filter, System.inUse, System.inUse, List.filter_filter]
    apply List.filter_congr
    intro t' _
    show decide (Function.update s.released t (s.released t + 1) t' = 0) = _
    by_cases e : t' = t
    · simp [e]
    · simp [e]
  constructor
  rw [free, inUse]
  refine .trans ?_ h.slots
  refine .trans List.perm_middle ?_
  exact (((List.perm_cons_erase mem).map s.pointer).append_right _).symm

/-- A task acquired from a pool with a free one gets the top of the stack. -/
lemma Pooled.aquire {task : Task ι} (h : s.Pooled) (room : s.RoomToAquire (.create task)) :
    ∃ ret rest, s.m_TaskAllocator.m_FreeList = ret :: rest ∧
      (s.create task).pointer = Function.update s.pointer s.created ret ∧
      (s.create task).m_TaskAllocator.m_FreeList = rest ∧
      ∀ ptr, (s.create task).m_TaskAllocator.storage ptr =
        if ptr = ret then task else s.m_TaskAllocator.storage ptr := by
  let pool := Task.object task.m_CurrentProcessor
  have some : s.m_TaskAllocator.m_FreeList ≠ [] := by
    intro none
    have full := h.length
    rw [none, List.length_nil, Nat.add_zero] at full
    exact absurd full (Nat.ne_of_lt room)
  obtain ⟨ret, rest, free⟩ := List.exists_cons_of_ne_nil some
  have taken := FreeList.aquire_cons (N := TaskAllocator.capacity) free
  refine ⟨ret, rest, free, ?_, ?_, fun ptr => ?_⟩
  · show Function.update s.pointer s.created
      (s.m_TaskAllocator.aquire TaskAllocator.capacity).1 = _
    rw [taken]
  · show (s.m_TaskAllocator.aquire TaskAllocator.capacity).2.m_FreeList = _
    rw [taken, FreeList.construct_m_FreeList]
  · show Function.update (s.m_TaskAllocator.aquire TaskAllocator.capacity).2.storage
      (s.m_TaskAllocator.aquire TaskAllocator.capacity).1 task ptr = _
    rw [Function.update_apply, taken]
    by_cases e : ptr = ret
    · rw [if_pos e, if_pos e]
    · rw [if_neg e, if_neg e, FreeList.construct_storage, if_neg e]

/-- The new task has its storage for itself. -/
lemma Pooled.create {task : Task ι} (h : s.Pooled) (room : s.RoomToAquire (.create task))
    (fresh : s.released s.created = 0) : (s.create task).Pooled ∧
      (s.create task).memory s.created = task ∧
      ∀ t ∈ s.inUse, (s.create task).memory t = s.memory t := by
  obtain ⟨ret, rest, free, pointer, left, storage⟩ := h.aquire room
  have inUse : (s.create task).inUse = s.inUse ++ [s.created] := by
    show (List.range (s.created + 1)).filter (fun t => s.released t = 0) = _
    rw [List.range_succ, List.filter_append]
    simp [System.inUse, fresh]
  have old : ∀ t ∈ s.inUse, (s.create task).pointer t = s.pointer t := by
    intro t mem
    rw [pointer]
    exact Function.update_of_ne (mem_inUse.mp mem).1.ne ..
  refine ⟨⟨?_⟩, ?_, fun t mem => ?_⟩
  · rw [inUse, left, List.map_append, List.map_congr_left old, List.map_singleton, pointer,
      Function.update_self, List.append_assoc, List.singleton_append, ← free]
    exact h.slots
  · show (s.create task).m_TaskAllocator.storage ((s.create task).pointer s.created) = task
    rw [pointer, Function.update_self, storage, if_pos rfl]
  · show (s.create task).m_TaskAllocator.storage ((s.create task).pointer t) = _
    have ne : s.pointer t ≠ ret := fun e => h.not_free mem (e ▸ free ▸ List.mem_cons_self)
    rw [old t mem, storage, if_neg ne]
    rfl

/-! ## The places of the tasks -/

/-- A task that has been created and not been released is in use. -/
lemma Fits.inUse (fits : s.Fits t st) (born : t < s.created) (out : st ≠ .released) :
    t ∈ s.inUse := by
  refine mem_inUse.mpr ⟨born, ?_⟩
  cases st with
  | idle | queued | settling | returning => exact fits.2.2.2.1
  | released => exact absurd rfl out

/-- An untouched pointer stays in use. -/
lemma Untouched.inUse (h : s.Untouched s' t) (created : s'.created = s.created)
    (mem : t ∈ s.inUse) : t ∈ s'.inUse := by
  rw [mem_inUse, created, h.released]
  exact mem_inUse.mp mem

/-- What is recorded about a task stays true of it. -/
lemma Untouched.fits (h : s.Untouched s' t) (created : s'.created = s.created)
    (born : s.posted t = true → t < s.created) (fits : s.Fits t st) : s'.Fits t st := by
  cases st with
  | idle =>
    simp only [Fits, h.creator, h.posted, h.invoked, h.handedBack, h.released, created]
    obtain ⟨posted, invoked, handedBack, released, filled⟩ := fits
    refine ⟨posted, invoked, handedBack, released, fun lt => ?_⟩
    rw [h.memory (mem_inUse.mpr ⟨lt, released⟩)]
    exact filled lt
  | released =>
    simpa only [Fits, h.creator, h.posted, h.invoked, h.handedBack, h.released] using fits
  | queued | settling | returning =>
    have mem := fits.inUse (born fits.1) nofun
    simpa only [Fits, h.memory mem, h.creator, h.posted, h.invoked, h.handedBack, h.released]
      using fits

/-- The tasks in the runner of a thread. -/
lemma queued_of_some (run : (s.threads p).m_Runnable = some runner) :
    s.queued p = runner.queued := by
  unfold queued TaskThread.queued
  rw [run]

/-- The task that the runner of a thread is settling. -/
lemma settling_of_some (run : (s.threads p).m_Runnable = some runner) :
    s.settling p = runner.settling := by
  unfold settling TaskThread.settling
  rw [run]

/-- The room in the runner of a thread. -/
lemma hasRoom_of_some (run : thread.m_Runnable = some runner) :
    thread.hasRoom = runner.hasRoom := by
  unfold TaskThread.hasRoom
  rw [run]

/-- One task moves to the stage `st`. -/
lemma Agrees.move (h : s.Agrees stage) (others : ∀ t' ≠ t, s.Untouched s' t') (pooled : s'.Pooled)
    (created : s'.created = s.created) (fresh : t < s.created) (fits : s'.Fits t st)
    (nodup : ∀ p, (s'.queued p).Nodup)
    (queued : ∀ p, ∀ t' ≠ t, (t' ∈ s'.queued p ↔ t' ∈ s.queued p))
    (queued_self : ∀ p, t ∈ s'.queued p ↔ st = .queued p ∨ st = .returning p)
    (settling : ∀ p, ∀ t' ≠ t, (s'.settling p = some t' ↔ s.settling p = some t'))
    (settling_self : ∀ p, s'.settling p = some t ↔ st = .settling p) :
    s'.Agrees (Function.update stage t st) := by
  refine ⟨pooled, nodup, fun p t' => ?_, fun p t' => ?_, fun t' => ?_, fun t' posted => ?_⟩
  all_goals by_cases same : t' = t
  · subst same
    rw [Function.update_self]
    exact queued_self p
  · rw [Function.update_of_ne same, queued p t' same]
    exact h.queued p t'
  · subst same
    rw [Function.update_self]
    exact settling_self p
  · rw [Function.update_of_ne same, settling p t' same]
    exact h.settling p t'
  · subst same
    rw [Function.update_self]
    exact fits
  · rw [Function.update_of_ne same]
    exact (others t' same).fits created (h.created t') (h.fits t')
  · subst same
    rw [created]
    exact fresh
  · rw [created]
    rw [(others t' same).posted] at posted
    exact h.created t' posted

/-! ## A step of a runner -/

/-- `s'` has what `s` has, but for the task `t`, which is in no queue. -/
structure Apart (s s' : System ι) (t : Nat) : Prop where
  pooled : s'.Pooled
  untouched : ∀ t' ≠ t, s.Untouched s' t'
  created : s'.created = s.created
  nodup : ∀ q, (s'.queued q).Nodup
  queued : ∀ q, ∀ t' ≠ t, (t' ∈ s'.queued q ↔ t' ∈ s.queued q)
  queued_self : ∀ q, t ∉ s'.queued q
  settling : ∀ q, ∀ t' ≠ t, (s'.settling q = some t' ↔ s.settling q = some t')

/-- The processor `p` has taken the task `t` out of its queue or hand, or has it in hand now. -/
structure Takes (s s' : System ι) (p : ι) (t : Nat) : Prop extends Apart s s' t where
  same : s.Untouched s' t
  settling_self : ∀ q ≠ p, s'.settling q ≠ some t

/-- What is known of a task that a processor has. -/
lemma Fits.of_held (fits : s.Fits t st) (held : st = .queued p ∨ st = .returning p ∨
    st = .settling p) : s.posted t = true ∧ s.invoked t ≤ 1 ∧ (s.handedBack t).length ≤ 1 ∧
      s.released t = 0 ∧ ∀ q ∈ s.handedBack t, s.creator t = some q := by
  rcases held with rfl | rfl | rfl
  · obtain ⟨posted, invoked, handedBack, released, -⟩ := fits
    exact ⟨posted, by omega, by simp [handedBack], released, by simp [handedBack]⟩
  · obtain ⟨posted, invoked, handedBack, released, -, creator⟩ := fits
    exact ⟨posted, invoked, by simp [handedBack], released, by simp [handedBack, creator]⟩
  · obtain ⟨posted, invoked, handedBack, released, -⟩ := fits
    exact ⟨posted, invoked, by simp [handedBack], released, by simp [handedBack]⟩

variable [DecidableEq ι] {address : Ptr → Nat} {a : Event ι} {effects : List (Effect Nat ι)}

/-- The tasks of one thread are set. -/
lemma queued_setThread :
    (s.setThread p thread).queued q = if q = p then thread.queued else s.queued q := by
  by_cases h : q = p
  · subst h
    rw [if_pos rfl, queued, setThread_threads_self]
  · rw [if_neg h, queued, setThread_threads_ne h, queued]

/-- The task that one thread is settling is set. -/
lemma settling_setThread :
    (s.setThread p thread).settling q = if q = p then thread.settling else s.settling q := by
  by_cases h : q = p
  · subst h
    rw [if_pos rfl, settling, setThread_threads_self]
  · rw [if_neg h, settling, setThread_threads_ne h, settling]

/-- A new state of a thread touches no task. -/
lemma untouched_setThread : s.Untouched (s.setThread p thread) t :=
  ⟨fun _ => rfl, rfl, rfl, rfl, rfl, rfl⟩

/-- A new state of a thread leaves the pool. -/
lemma pooled_setThread (h : s.Pooled) : (s.setThread p thread).Pooled :=
  ⟨h.slots⟩

/-- A runner that takes a task out of its queue takes no other. -/
lemma takes_setThread (h : s.Agrees stage) (run : (s.threads p).m_Runnable = some runner)
    (perm : runner'.queued.Perm (runner.queued.erase t))
    (held : stage t = .queued p ∨ stage t = .returning p ∨ stage t = .settling p)
    (hand : ∀ t', runner.settling = some t' → t' = t)
    (hand' : ∀ t', runner'.settling = some t' → t' = t) :
    Takes s (s.setThread p { s.threads p with m_Runnable := some runner' }) p t := by
  have nodup := h.nodup p
  have settling := settling_of_some run
  rw [queued_of_some run] at nodup
  refine ⟨⟨pooled_setThread h.pooled, fun _ _ => untouched_setThread, rfl, fun q => ?_,
    fun q t' ne => ?_, fun q => ?_, fun q t' ne => ?_⟩, untouched_setThread, fun q other => ?_⟩
  all_goals simp only [queued_setThread, settling_setThread]
  · split
    next => exact perm.nodup_iff.mpr (nodup.erase t)
    next => exact h.nodup q
  · split
    next here =>
      rw [here, queued_of_some run]
      exact perm.mem_iff.trans (List.mem_erase_of_ne ne)
    next => rfl
  · split
    next =>
      show t ∉ runner'.queued
      rw [perm.mem_iff, nodup.mem_erase_iff]
      exact fun mem => mem.1 rfl
    next other =>
      rw [h.queued]
      rcases held with e | e | e <;> rw [e] <;> simp [Ne.symm other]
  · split
    next here =>
      rw [here, settling]
      exact iff_of_false (fun e => ne (hand' t' e)) (fun e => ne (hand t' e))
    next => rfl
  · rw [if_neg other, Ne, h.settling]
    rcases held with e | e | e <;> rw [e] <;> simp [Ne.symm other]

variable (address) in
/-- The task goes to the pool. -/
lemma Takes.release (takes : s.Takes s' p t) (h : s.Agrees stage)
    (held : stage t = .queued p ∨ stage t = .returning p ∨ stage t = .settling p)
    (hand : s'.settling p = none) :
    (apply address s' (.release t)).Agrees (Function.update stage t .released) := by
  obtain ⟨posted, invoked, once, released, creator⟩ := (h.fits t).of_held held
  have same := takes.same
  have inUse := same.inUse takes.created (mem_inUse.mpr ⟨h.created t posted, released⟩)
  apply h.move
  · intro t' ne
    have other := takes.untouched t' ne
    refine ⟨fun mem => ?_, other.creator, other.posted, other.invoked, other.handedBack, ?_⟩
    · have mem' := other.inUse takes.created mem
      exact (takes.pooled.memory_release inUse mem' ne).trans (other.memory mem)
    · exact (Function.update_of_ne ne _ _).trans other.released
  · exact takes.pooled.release inUse
  · exact takes.created
  · exact h.created t posted
  · refine ⟨same.posted.trans posted, same.invoked.trans_le invoked, ?_, ?_, ?_⟩
    · exact (congrArg List.length same.handedBack).trans_le once
    · show Function.update s'.released t (s'.released t + 1) t = 1
      rw [Function.update_self, same.released, released]
    · show ∀ q ∈ s'.handedBack t, s'.creator t = some q
      rw [same.handedBack, same.creator]
      exact creator
  · exact takes.nodup
  · exact takes.queued
  · exact fun q => iff_of_false (takes.queued_self q) (by simp)
  · exact takes.settling
  · intro q
    refine iff_of_false ?_ (by simp)
    by_cases here : q = p
    · subst here
      show s'.settling q ≠ some t
      rw [hand]
      simp
    · exact takes.settling_self q here

/-- The task is handled, and its function called at most once. -/
lemma Takes.handle {invoked : Nat → Nat} {state : TaskState} (takes : s.Takes s' p t)
    (h : s.Agrees stage) (held : stage t = .queued p) (hand : s'.settling p = some t)
    (others : ∀ t' ≠ t, invoked t' = s'.invoked t') (once : invoked t ≤ s'.invoked t + 1) :
    Agrees { s'.write t { s'.memory t with m_State := state } with invoked := invoked }
      (Function.update stage t (.settling p)) := by
  have fits := h.fits t
  rw [held] at fits
  obtain ⟨posted, zero, handedBack, released, -, current⟩ := fits
  have same := takes.same
  have mem := mem_inUse.mpr ⟨h.created t posted, released⟩
  have inUse := same.inUse takes.created mem
  apply h.move
  · intro t' ne
    have other := takes.untouched t' ne
    refine ⟨fun mem => ?_, other.creator, other.posted, ?_, other.handedBack, other.released⟩
    · have mem' := other.inUse takes.created mem
      exact (takes.pooled.memory_write inUse mem' ne).trans (other.memory mem)
    · exact (others t' ne).trans other.invoked
  · exact takes.pooled.of_same rfl rfl rfl
  · exact takes.created
  · exact h.created t posted
  · refine ⟨same.posted.trans posted, ?_, same.handedBack.trans handedBack,
      same.released.trans released, ?_⟩
    · show invoked t ≤ 1
      rw [same.invoked, zero] at once
      exact once
    · show ((s'.write t _).memory t).m_CurrentProcessor = s'.creator t
      rw [memory_write_self, same.creator, ← current, ← same.memory mem]
  · exact takes.nodup
  · exact takes.queued
  · exact fun q => iff_of_false (takes.queued_self q) (by simp)
  · exact takes.settling
  · intro q
    show s'.settling q = some t ↔ Stage.settling p = Stage.settling q
    by_cases here : q = p
    · subst here
      exact iff_of_true hand rfl
    · exact iff_of_false (takes.settling_self q here) (by simp [Ne.symm here])

/-- A task that nobody has goes into a queue. -/
lemma Apart.enqueue (apart : s.Apart s' t) (h : s.Agrees stage)
    (hand : ∀ q, s'.settling q ≠ some t) (run : (s'.threads p).m_Runnable = some runner)
    (room : runner.hasRoom = true) (fresh : t < s.created) (fits : s'.Fits t st)
    (here : ∀ q, p = q ↔ st = .queued q ∨ st = .returning q) :
    (submit address t p s').Agrees (Function.update stage t st) := by
  have perm : (runner.postTask (fun t => address (s'.pointer t)) t).queued.Perm
      (t :: runner.queued) := Runner.postTask_queued room
  have queued := queued_of_some run
  have settling := settling_of_some run
  rw [submit_of_some run]
  apply h.move
  · intro t' ne
    have other := apart.untouched t' ne
    exact ⟨other.memory, other.creator, other.posted, other.invoked, other.handedBack,
      other.released⟩
  · exact pooled_setThread apart.pooled
  · exact apart.created
  · exact fresh
  · exact untouched_setThread.fits rfl (fun _ => apart.created ▸ fresh) fits
  · intro q
    rw [queued_setThread]
    split
    next =>
      refine perm.nodup_iff.mpr (List.nodup_cons.mpr ?_)
      rw [← queued]
      exact ⟨apart.queued_self p, apart.nodup p⟩
    next => exact apart.nodup q
  · intro q t' ne
    rw [← apart.queued q t' ne, queued_setThread]
    split
    next e =>
      rw [e, queued]
      exact perm.mem_iff.trans (List.mem_cons.trans (or_iff_right ne))
    next => rfl
  · intro q
    rw [← here q, queued_setThread]
    split
    next e => exact iff_of_true (perm.mem_iff.mpr List.mem_cons_self) e.symm
    next ne => exact iff_of_false (apart.queued_self q) (Ne.symm ne)
  · intro q t' ne
    rw [← apart.settling q t' ne, settling_setThread]
    split
    next e =>
      rw [e, settling]
      exact Eq.congr_left Runner.postTask_settling
    next => rfl
  · intro q
    rw [settling_setThread]
    refine iff_of_false ?_ ?_
    · split
      next e =>
        have none := hand p
        rw [settling] at none
        exact fun e => none (Runner.postTask_settling.symm.trans e)
      next => exact hand q
    · intro e
      have := (here p).mp rfl
      simp [e] at this

/-- The thread of `p` with another state of its runner. -/
def setRunner (p : ι) (runner : Runner Nat) (s : System ι) : System ι :=
  s.setThread p { s.threads p with m_Runnable := some runner }

/-- The runner that was set is settling its own task. -/
lemma settling_setRunner : (s.setRunner p runner).settling p = runner.settling := by
  unfold setRunner
  rw [settling_setThread, if_pos rfl]
  rfl

/-- The runner takes a task out of its queue. -/
lemma takes_queued (h : s.Agrees stage) (run : (s.threads p).m_Runnable = some runner)
    (perm : runner.queued.Perm (t :: runner'.queued)) (none : runner.settling = none)
    (hand : ∀ t', runner'.settling = some t' → t' = t) :
    (stage t = .queued p ∨ stage t = .returning p) ∧ s.Takes (s.setRunner p runner') p t := by
  have held := (h.queued p t).mp (queued_of_some run ▸ perm.mem_iff.mpr List.mem_cons_self)
  refine ⟨held, takes_setThread h run ?_ (held.imp_right .inl) (by simp [none]) hand⟩
  have erased := perm.erase t
  rw [List.erase_cons_head] at erased
  exact erased.symm

/-- The runner lets go of the task that it has handled. -/
lemma takes_settling (h : s.Agrees stage) (run : (s.threads p).m_Runnable = some runner)
    (same : runner'.queued = runner.queued) (hand : runner.settling = some t)
    (none : runner'.settling = none) :
    stage t = .settling p ∧ s.Takes (s.setRunner p runner') p t := by
  have held : stage t = .settling p := (h.settling p t).mp ((settling_of_some run).trans hand)
  have absent : t ∉ runner.queued := by
    rw [← queued_of_some run, h.queued, held]
    simp
  refine ⟨held, takes_setThread h run ?_ (.inr (.inr held)) (by simp [hand]) (by simp [none])⟩
  rw [List.erase_of_not_mem absent, same]

/-- The runner only moves tasks between its queues. -/
lemma agrees_internal (h : s.Agrees stage) (run : (s.threads p).m_Runnable = some runner)
    (perm : runner'.queued.Perm runner.queued) (same : runner'.settling = runner.settling) :
    (s.setRunner p runner').Agrees stage := by
  have queued := queued_of_some run
  have settling := settling_of_some run
  unfold setRunner
  refine ⟨pooled_setThread h.pooled, fun q => ?_, fun q t => ?_, fun q t => ?_, fun t => ?_,
    h.created⟩
  · rw [queued_setThread]
    split
    next => exact perm.nodup_iff.mpr (queued ▸ h.nodup p)
    next => exact h.nodup q
  · rw [← h.queued q t, queued_setThread]
    split
    next here =>
      rw [here, queued]
      exact perm.mem_iff
    next => rfl
  · rw [← h.settling q t, settling_setThread]
    split
    next here =>
      rw [here, settling, ← same]
      rfl
    next => rfl
  · exact untouched_setThread.fits rfl (h.created t) (h.fits t)

variable (address) in
/-- The task goes back to its creator. -/
lemma Takes.handBack (takes : s.Takes s' p t) (h : s.Agrees stage) (held : stage t = .settling p)
    (hand : s'.settling p = none) (current : (s.memory t).m_CurrentProcessor = some q)
    (run : (s'.threads q).m_Runnable = some runner) (room : runner.hasRoom = true) :
    (apply address s' (.handBack t q)).Agrees (Function.update stage t (.returning q)) := by
  have fits := h.fits t
  rw [held] at fits
  obtain ⟨posted, invoked, handedBack, released, creator⟩ := fits
  have same := takes.same
  have inUse := same.inUse takes.created (mem_inUse.mpr ⟨h.created t posted, released⟩)
  let s2 : System ι := { s'.write t { s'.memory t with m_SysAction := .SA_RELEASE_TASK } with
    handedBack := Function.update s'.handedBack t (q :: s'.handedBack t) }
  have apart : s.Apart s2 t := by
    refine ⟨takes.pooled.of_same rfl rfl rfl, fun t' ne => ?_, takes.created, takes.nodup,
      takes.queued, takes.queued_self, takes.settling⟩
    have other := takes.untouched t' ne
    refine ⟨fun mem => ?_, other.creator, other.posted, other.invoked, ?_, other.released⟩
    · have mem' := other.inUse takes.created mem
      exact (takes.pooled.memory_write inUse mem' ne).trans (other.memory mem)
    · exact (Function.update_of_ne ne _ _).trans other.handedBack
  have nobody : ∀ q', s2.settling q' ≠ some t := by
    intro q'
    by_cases here : q' = p
    · subst here
      show s'.settling q' ≠ some t
      rw [hand]
      simp
    · exact takes.settling_self q' here
  have fits' : s2.Fits t (.returning q) := by
    refine ⟨same.posted.trans posted, same.invoked.trans_le invoked, ?_,
      same.released.trans released, ?_, ?_⟩
    · show Function.update s'.handedBack t (q :: s'.handedBack t) t = [q]
      rw [Function.update_self, same.handedBack, handedBack]
    · show ((s'.write t _).memory t).m_SysAction = _
      rw [memory_write_self]
    · exact same.creator.trans (creator.symm.trans current)
  exact apart.enqueue h nobody run room (h.created t posted) fits' (by simp)

/-- What a step of a runner does to its tasks keeps the agreement. -/
lemma agrees_move (h : s.Agrees stage) (run : (s.threads p).m_Runnable = some runner)
    (move : Move p s.memory runner.queued runner.settling runner'.queued runner'.settling effects)
    (target : ∀ t q, runner.settling = some t → (s.memory t).m_CurrentProcessor = some q → q ≠ p →
      ∃ r, (s.threads q).m_Runnable = some r ∧ r.hasRoom = true) :
    ∃ stage', (effects.foldl (apply address) (s.setRunner p runner')).Agrees stage' := by
  have hand' : (s.setRunner p runner').settling p = runner'.settling := settling_setRunner
  generalize hq : runner'.queued = queued' at move
  generalize hs : runner'.settling = settling' at move hand'
  cases move with
  | internal perm => exact ⟨stage, agrees_internal h run (hq ▸ perm) hs⟩
  | @drop t _ _ perm none eff =>
    obtain ⟨held, takes⟩ := takes_queued h run (hq ▸ perm) none (by simp [hs])
    have agrees := takes.release address h (held.imp_right .inl) hand'
    rcases eff with rfl | rfl <;> exact ⟨_, agrees⟩
  | @handle t _ _ perm none fresh eff =>
    obtain ⟨held, takes⟩ := takes_queued h run (hq ▸ perm) none (by simp [hs])
    -- a task that has been handed back is only finished
    have held : stage t = .queued p := by
      refine held.resolve_right fun back => ?_
      have fits := h.fits t
      rw [back] at fits
      exact fresh fits.2.2.2.2.1
    rcases eff with rfl | rfl | rfl
    · exact ⟨_, takes.handle h held hand' (fun _ _ => rfl) (Nat.le_succ _)⟩
    · exact ⟨_, takes.handle h held hand' (fun _ ne => Function.update_of_ne ne _ _)
        (le_of_eq (Function.update_self _ _ _))⟩
    · exact ⟨_, takes.handle h held hand' (fun _ ne => Function.update_of_ne ne _ _)
        (le_of_eq (Function.update_self _ _ _))⟩
  | @release t _ some eff =>
    obtain ⟨held, takes⟩ := takes_settling h run hq some hs
    have agrees := takes.release address h (.inr (.inr held)) hand'
    rcases eff with rfl | rfl <;> exact ⟨_, agrees⟩
  | @handBack t q some current other =>
    obtain ⟨held, takes⟩ := takes_settling h run hq some hs
    obtain ⟨r, hr, room⟩ := target t q some current other
    have runs : ((s.setRunner p runner').threads q).m_Runnable = Option.some r := by
      unfold setRunner
      rw [setThread_threads_ne other]
      exact hr
    exact ⟨_, takes.handBack address h held hand' current runs room⟩

/-- A step that changes neither the queue nor the hand of a thread. -/
lemma agrees_setThread (h : s.Agrees stage) (queued : thread.queued = s.queued p)
    (settling : thread.settling = s.settling p) : (s.setThread p thread).Agrees stage := by
  have queued' : ∀ q, (s.setThread p thread).queued q = s.queued q := by
    intro q
    rw [queued_setThread]
    split
    next here => rw [here, queued]
    next => rfl
  have settling' : ∀ q, (s.setThread p thread).settling q = s.settling q := by
    intro q
    rw [settling_setThread]
    split
    next here => rw [here, settling]
    next => rfl
  refine ⟨pooled_setThread h.pooled, fun q => ?_, fun q t => ?_, fun q t => ?_, fun t => ?_,
    h.created⟩
  · rw [queued']
    exact h.nodup q
  · rw [queued']
    exact h.queued q t
  · rw [settling']
    exact h.settling q t
  · exact untouched_setThread.fits rfl (h.created t) (h.fits t)

/-! ## The threads -/

/-- The thread that was set is sane like the others. -/
lemma sane_setThread (sane : ∀ q, (s.threads q).Sane) (h : thread.Sane) :
    ∀ q, ((s.setThread p thread).threads q).Sane := by
  intro q
  by_cases here : q = p
  · subst here
    rw [setThread_threads_self]
    exact h
  · rw [setThread_threads_ne here]
    exact sane q

variable (t) in
/-- `PostTask` keeps a thread in its loop sane. -/
lemma sane_postTask (f : Nat → Nat) (sane : thread.Sane) (inLoop : thread.InLoop) :
    ∃ runner, thread.m_Runnable = some runner ∧
      ({ thread with m_Runnable := some (runner.postTask f t) } : TaskThread Nat).Sane := by
  obtain ⟨m_Runnable, m_ThreadExit, stopping, pc⟩ := thread
  cases m_Runnable with
  | none => rcases inLoop with h | h <;> cases h <;> exact sane.elim
  | some runner =>
    refine ⟨runner, rfl, ?_⟩
    rcases inLoop with h | h <;> cases h
    · exact Runner.postTask_returned.trans sane
    · trivial

variable (t address) in
/-- `SubmitTask` keeps the threads sane and finds a runner. -/
lemma sane_submit (sane : ∀ q, (s.threads q).Sane) (alive : s.nullDereference = false)
    (inLoop : (s.threads p).InLoop) : (∀ q, ((submit address t p s).threads q).Sane) ∧
      (submit address t p s).nullDereference = false := by
  obtain ⟨runner, run, sane'⟩ := sane_postTask t (fun t => address (s.pointer t)) (sane p) inLoop
  rw [submit_of_some run]
  exact ⟨sane_setThread sane sane', alive⟩

variable (address) in
/-- The threads around a step of a runner. -/
lemma sane_move (sane : ∀ q, (s.threads q).Sane) (alive : s.nullDereference = false)
    (running : (s.threads p).pc = .run)
    (move : Move p s.memory runner.queued runner.settling runner'.queued runner'.settling effects)
    (target : ∀ t q, runner.settling = some t → (s.memory t).m_CurrentProcessor = some q → q ≠ p →
      (s.threads q).InLoop) :
    (∀ q, ((effects.foldl (apply address) (s.setRunner p runner')).threads q).Sane) ∧
    (effects.foldl (apply address) (s.setRunner p runner')).nullDereference = false := by
  have sane' : ∀ q, ((s.setRunner p runner').threads q).Sane := by
    apply sane_setThread sane
    rw [TaskThread.Sane, running]
    trivial
  generalize runner'.queued = queued', runner'.settling = settling' at move
  cases move with
  | internal => exact ⟨sane', alive⟩
  | drop _ _ eff => rcases eff with rfl | rfl <;> exact ⟨sane', alive⟩
  | handle _ _ _ eff => rcases eff with rfl | rfl | rfl <;> exact ⟨sane', alive⟩
  | release _ eff => rcases eff with rfl | rfl <;> exact ⟨sane', alive⟩
  | @handBack t q some current other =>
    have inLoop : ((s.setRunner p runner').threads q).InLoop := by
      unfold setRunner
      rw [setThread_threads_ne other]
      exact target t q some current other
    exact sane_submit t address sane' alive inLoop

/-! ## Steps and runs -/

omit [DecidableEq ι] in
/-- A new task is with its creator. -/
lemma owned_create {task : Task ι} (h : s.Owned) (room : s.RoomToAquire (.create task))
    (action : task.m_SysAction = .SA_NONE ∨ task.m_SysAction = .SA_WAIT_NOTIFIER) :
    (s.create task).Owned := by
  obtain ⟨stage, h'⟩ := h.agrees
  have unposted : s.posted s.created = false := by
    rw [← Bool.not_eq_true]
    exact fun posted => Nat.lt_irrefl _ (h'.created _ posted)
  have idle : stage s.created = .idle := by
    have fits := h'.fits s.created
    cases hst : stage s.created with
    | idle => rfl
    | queued | settling | returning | released =>
      rw [hst] at fits
      exact absurd fits.1 (by simp [unposted])
  have fits := h'.fits s.created
  rw [idle] at fits
  obtain ⟨posted, invoked, handedBack, released, -⟩ := fits
  obtain ⟨pooled, own, others⟩ := h'.pooled.create room released
  refine ⟨h.sane, h.alive, stage, pooled, h'.nodup, h'.queued, h'.settling, fun t => ?_,
    fun t posted => Nat.lt_succ_of_lt (h'.created t posted)⟩
  by_cases new : t = s.created
  · subst new
    rw [idle]
    refine ⟨posted, invoked, handedBack, released, fun _ => ?_⟩
    have creator : (s.create task).creator s.created = task.m_CurrentProcessor :=
      Function.update_self ..
    rw [own, creator]
    exact ⟨by rcases action with e | e <;> simp [e], rfl⟩
  · have creator : (s.create task).creator t = s.creator t := Function.update_of_ne new ..
    have fits := h'.fits t
    cases hst : stage t with
    | idle =>
      rw [hst] at fits
      obtain ⟨posted, invoked, handedBack, released, filled⟩ := fits
      refine ⟨posted, invoked, handedBack, released, fun lt => ?_⟩
      have lt : t < s.created := Nat.lt_of_le_of_ne (Nat.lt_succ_iff.mp lt) new
      rw [others t (mem_inUse.mpr ⟨lt, released⟩), creator]
      exact filled lt
    | released =>
      rw [hst] at fits
      simp only [Fits, creator]
      exact fits
    | queued | settling | returning =>
      rw [hst] at fits
      have mem := fits.inUse (h'.created t fits.1) nofun
      simp only [Fits, others t mem, creator]
      exact fits

/-- A task that is submitted is in the queue of the thread. -/
lemma owned_submit (h : s.Owned) (created : t < s.created) (unposted : s.posted t = false)
    (inLoop : (s.threads p).InLoop) (room : (s.threads p).hasRoom = true) :
    (submit address t p { s with posted := Function.update s.posted t true }).Owned := by
  obtain ⟨stage, h'⟩ := h.agrees
  obtain ⟨sane, alive⟩ := sane_submit t address
    (s := { s with posted := Function.update s.posted t true }) h.sane h.alive inLoop
  obtain ⟨runner, run, -⟩ := sane_postTask t address (h.sane p) inLoop
  have fits := h'.fits t
  cases hst : stage t with
  | queued | settling | returning | released =>
    rw [hst] at fits
    exact absurd fits.1 (by simp [unposted])
  | idle =>
    rw [hst] at fits
    obtain ⟨-, invoked, handedBack, released, filled⟩ := fits
    obtain ⟨action, current⟩ := filled created
    let s1 : System ι := { s with posted := Function.update s.posted t true }
    have apart : s.Apart s1 t := by
      refine ⟨⟨h'.pooled.slots⟩, fun t' ne => ?_, rfl, h'.nodup, fun _ _ _ => Iff.rfl, fun q => ?_,
        fun _ _ _ => Iff.rfl⟩
      · exact ⟨fun _ => rfl, rfl, Function.update_of_ne ne _ _, rfl, rfl, rfl⟩
      · show t ∉ s.queued q
        rw [h'.queued, hst]
        simp
    have nobody : ∀ q, s1.settling q ≠ some t := by
      intro q
      show s.settling q ≠ some t
      rw [Ne, h'.settling, hst]
      simp
    have fits' : s1.Fits t (.queued p) :=
      ⟨Function.update_self _ _ _, invoked, handedBack, released, action, current⟩
    exact ⟨sane, alive, _,
      apart.enqueue h' nobody run (hasRoom_of_some run ▸ room) created fits' (by simp)⟩

/-- A thread that keeps its tasks changes no owner. -/
lemma Owned.setThread (h : s.Owned) (sane : thread.Sane) (queued : thread.queued = s.queued p)
    (settling : thread.settling = s.settling p) : (s.setThread p thread).Owned := by
  obtain ⟨stage, h'⟩ := h.agrees
  exact ⟨sane_setThread h.sane sane, h.alive, stage, agrees_setThread h' queued settling⟩

/-- The processor that a runner with a task in hand passes it on to. -/
lemma submits_run (running : (s.threads p).pc = .run)
    (run : (s.threads p).m_Runnable = some runner) (hand : runner.settling = some t)
    (current : (s.memory t).m_CurrentProcessor = some q) (other : q ≠ p) :
    s.submits (.run p) = some q := by
  have settling := (settling_of_some run).trans hand
  simp [submits, running, settling, current, other]

omit [DecidableEq ι] in
/-- The processors whose threads leave their loop. -/
lemma leaves_iff : p ∈ s.leaves a ↔
    a = .run p ∧ (s.threads p).pc = .loop ∧ (s.threads p).m_ThreadExit = true := by
  unfold leaves
  cases a with
  | run q =>
    simp only
    split
    next loop =>
      split
      next exit =>
        constructor
        · intro e
          cases e
          exact ⟨rfl, loop, exit⟩
        · rintro ⟨⟨⟩, -⟩
          rfl
      next exit =>
        refine ⟨nofun, ?_⟩
        rintro ⟨⟨⟩, -, e⟩
        exact absurd e exit
    next ne =>
      refine ⟨nofun, ?_⟩
      rintro ⟨⟨⟩, loop, -⟩
      exact absurd loop ne
  | create | submitTask | setFinished | threadExit => simp

/-- A step of a thread passes each task on as it should. -/
lemma owned_run (h : s.Owned) (onTime : s.OnTime (.run p)) (st : s.runThread address p = some s') :
    s'.Owned := by
  have sane := h.sane p
  obtain ⟨runner, run, cases⟩ := runThread_cases st
  have queued := queued_of_some run
  have settling := settling_of_some run
  obtain ⟨pc, exit, rfl⟩ | ⟨pc, -, rfl⟩ | ⟨pc, returned, rfl⟩ | ⟨pc, runner', effects, e, rfl⟩ |
    ⟨pc, runner', effects, e, -⟩ | ⟨pc, rfl⟩ := cases
  · -- the thread leaves its loop with nothing to do
    have empty := onTime.drained p (leaves_iff.mpr ⟨rfl, pc, exit⟩)
    rw [TaskThread.Sane, pc, run] at sane
    refine h.setThread ?_ rfl rfl
    rw [TaskThread.Sane, run]
    exact ⟨sane, queued ▸ empty⟩
  · -- it enters `DoRun`
    rw [TaskThread.Sane, pc, run] at sane
    apply h.setThread
    · trivial
    · rw [queued]
      exact Runner.enter_queued sane
    · rw [settling, Runner.returned_settling sane]
      exact Runner.enter_settling
  · refine h.setThread ?_ rfl rfl
    rw [TaskThread.Sane, run]
    exact returned
  · -- it makes a step in `DoRun`, whose hand-back is on time
    have move := Runner.doRun_move e
    obtain ⟨stage, h'⟩ := h.agrees
    have inLoop : ∀ t q, runner.settling = some t → (s.memory t).m_CurrentProcessor = some q →
        q ≠ p → (s.threads q).InLoop :=
      fun t q hand current other => onTime.inLoop q (submits_run pc run hand current other)
    obtain ⟨sane', alive⟩ := sane_move address h.sane h.alive pc move inLoop
    refine ⟨sane', alive, agrees_move h' run move fun t q hand current other => ?_⟩
    obtain ⟨r, hr, -⟩ := sane_postTask t address (h.sane q)
      (inLoop t q hand current other)
    have room := onTime.room q (submits_run pc run hand current other)
    exact ⟨r, hr, hasRoom_of_some hr ▸ room⟩
  · -- an empty runner has nothing left to release
    rw [TaskThread.Sane, pc, run] at sane
    rw [Runner.delete_of_empty sane.1 sane.2] at e
    cases e
  · rw [TaskThread.Sane, pc, run] at sane
    apply h.setThread
    · trivial
    · rw [queued, sane.2]
      rfl
    · rw [settling, Runner.returned_settling sane.1]
      rfl

/-- No step loses track of a task as long as every `SubmitTask` is on time. -/
lemma owned_step (h : s.Owned) (onTime : s.OnTime a) (st : Exec (step address) s a s') :
    s'.Owned := by
  obtain ⟨-, ⟨task, rfl, action, rfl⟩ | ⟨t, p, rfl, created, unposted, rfl⟩ | ⟨p, rfl, ran⟩ |
    ⟨p, -, rfl⟩ | ⟨p, -, -, rfl⟩⟩ := step_cases st
  · exact owned_create h onTime.pool action
  · exact owned_submit h created unposted (onTime.inLoop p rfl) (onTime.room p rfl)
  · exact owned_run h onTime ran
  · have sane := h.sane p
    cases run : (s.threads p).m_Runnable with
    | none =>
      apply h.setThread
      · rw [TaskThread.Sane, run] at sane
        rw [TaskThread.Sane]
        exact sane
      · simp [TaskThread.queued, System.queued, run]
      · simp [TaskThread.settling, System.settling, run]
    | some runner =>
      apply h.setThread
      · rw [TaskThread.Sane, run] at sane
        rw [TaskThread.Sane]
        cases pc : (s.threads p).pc <;> rw [pc] at sane
        · exact Runner.setFinished_returned.trans sane
        · trivial
        · exact ⟨Runner.setFinished_returned.trans sane.1, Runner.setFinished_queued.trans sane.2⟩
        · exact sane.elim
      · rw [queued_of_some run]
        exact Runner.setFinished_queued
      · rw [settling_of_some run]
        exact Runner.setFinished_settling
  · exact h.setThread (h.sane p) rfl rfl

/-- A new runner is not inside `DoRun`. -/
lemma new_returned {kind : RunnerKind} : (kind.new : Runner Nat).returned = true := by
  cases kind <;> rfl

/-- A new runner has no task. -/
lemma new_queued {kind : RunnerKind} : (kind.new : Runner Nat).queued = [] := by
  cases kind <;> rfl

omit [DecidableEq ι] in
/-- A new pool has all its slots on the free list. -/
lemma pooled_init (kind : ι → RunnerKind) (current : Option ι) (raw : Ptr → Task ι) :
    (init kind current raw).Pooled := by
  constructor
  have free : (init kind current raw).m_TaskAllocator.m_FreeList =
      (List.range TaskAllocator.capacity).reverse :=
    @FreeList.new_m_FreeList _ (Task.object current) TaskAllocator.capacity raw
  have none : (init kind current raw).inUse = [] := rfl
  rw [free, none, List.map_nil, List.nil_append]
  exact List.reverse_perm _

omit [DecidableEq ι] in
/-- In the beginning there is no task. -/
lemma owned_init (kind : ι → RunnerKind) (current : Option ι) (raw : Ptr → Task ι) :
    (init kind current raw).Owned := by
  have queued : ∀ p, (init kind current raw).queued p = [] := fun p => new_queued
  have settling : ∀ p, (init kind current raw).settling p = none :=
    fun p => Runner.returned_settling new_returned
  have born : ∀ t, ¬ t < (init kind current raw).created := fun t => Nat.not_lt_zero t
  refine ⟨fun p => new_returned, rfl, fun _ => .idle, pooled_init kind current raw, fun p => ?_,
    fun p t => ?_, fun p t => ?_, fun t => ?_, fun t posted => ?_⟩
  · rw [queued]
    exact List.nodup_nil
  · simp [queued]
  · simp [settling]
  · exact ⟨rfl, rfl, rfl, rfl, fun lt => absurd lt (born t)⟩
  · cases posted

/-! ## Processors that are not stopped -/

/-- What becomes of the tasks: they are called, handed back to their creator and released at most
    once, nobody has a released task, and with nothing queued and nothing in hand every posted task
    has been released. -/
structure Settled (s : System ι) : Prop where
  invoked : ∀ t, s.invoked t ≤ 1
  handedBack : ∀ t, (s.handedBack t).length ≤ 1 ∧ ∀ p ∈ s.handedBack t, s.creator t = some p
  released : ∀ t, s.released t ≤ 1
  gone : ∀ t, s.released t ≠ 0 → ∀ p, t ∉ s.queued p ∧ s.settling p ≠ some t
  quiet : (∀ p, s.queued p = [] ∧ s.settling p = none) → ∀ t, s.posted t = true → s.released t = 1

omit [DecidableEq ι] in
/-- What becomes of the tasks is told by their stages. -/
lemma Owned.settled (h : s.Owned) : s.Settled := by
  obtain ⟨stage, h⟩ := h.agrees
  have bounds : ∀ t, s.invoked t ≤ 1 ∧ (s.handedBack t).length ≤ 1 ∧ s.released t ≤ 1 ∧
      ∀ p ∈ s.handedBack t, s.creator t = some p := by
    intro t
    have fits := h.fits t
    cases hst : stage t with
    | idle =>
      rw [hst] at fits
      obtain ⟨-, invoked, handedBack, released, -⟩ := fits
      exact ⟨by omega, by simp [handedBack], by omega, by simp [handedBack]⟩
    | released =>
      rw [hst] at fits
      obtain ⟨-, invoked, once, released, creator⟩ := fits
      exact ⟨invoked, once, by omega, creator⟩
    | queued p | settling p | returning p =>
      obtain ⟨-, invoked, once, released, creator⟩ := fits.of_held (p := p) (by simp [hst])
      exact ⟨invoked, once, by omega, creator⟩
  refine ⟨fun t => (bounds t).1, fun t => ⟨(bounds t).2.1, (bounds t).2.2.2⟩,
    fun t => (bounds t).2.2.1, fun t released p => ?_, fun quiet t posted => ?_⟩
  · have free : ¬ (stage t = .queued p ∨ stage t = .returning p ∨ stage t = .settling p) :=
      fun held => released ((h.fits t).of_held held).2.2.2.1
    rw [h.queued, Ne, h.settling]
    tauto
  · have fits := h.fits t
    cases hst : stage t with
    | idle =>
      rw [hst] at fits
      exact absurd fits.1 (by simp [posted])
    | released =>
      rw [hst] at fits
      exact fits.2.2.2.1
    | queued p =>
      have mem := (h.queued p t).mpr (.inl hst)
      rw [(quiet p).1] at mem
      cases mem
    | returning p =>
      have mem := (h.queued p t).mpr (.inr hst)
      rw [(quiet p).1] at mem
      cases mem
    | settling p =>
      have hand := (h.settling p t).mpr hst
      rw [(quiet p).2] at hand
      cases hand

/-- No thread has been told to stop. -/
def Running (s : System ι) : Prop :=
  ∀ p, (s.threads p).m_ThreadExit = false ∧ (s.threads p).stopping = false ∧ (s.threads p).InLoop

/-- The members of a thread that say how far it is. -/
def flags (s : System ι) (p : ι) : Bool × Bool × ThreadPc :=
  ((s.threads p).m_ThreadExit, (s.threads p).stopping, (s.threads p).pc)

/-- A thread that keeps its flags keeps those of all. -/
lemma flags_setThread (same : (thread.m_ThreadExit, thread.stopping, thread.pc) = s.flags p) :
    (s.setThread p thread).flags q = s.flags q := by
  unfold flags
  by_cases here : q = p
  · rw [here, setThread_threads_self]
    exact same
  · rw [setThread_threads_ne here]

/-- `SubmitTask` sets no flag. -/
lemma flags_submit : (submit address t p s).flags q = s.flags q := by
  unfold submit
  split
  next => exact flags_setThread rfl
  next => rfl

/-- The effects of `DoRun` set no flag. -/
lemma flags_foldl : (effects.foldl (apply address) s).flags q = s.flags q := by
  induction effects generalizing s with
  | nil => rfl
  | cons effect effects ih =>
    rw [List.foldl_cons, ih]
    cases effect with
    | handBack t processor => exact flags_submit
    | follyFunc | handle | runTaskCB | onFinish | handled | release | deleteCB => rfl

omit [DecidableEq ι] in
/-- Whether the threads run is told by the flags. -/
lemma Running.of_flags (running : s.Running) (same : ∀ q, s'.flags q = s.flags q) :
    s'.Running := by
  intro q
  have e := same q
  simp only [flags, Prod.mk.injEq] at e
  unfold TaskThread.InLoop
  rw [e.1, e.2.1, e.2.2]
  exact running q

/-- A thread that goes on in its loop runs. -/
lemma Running.setPc {pc : ThreadPc} {m_Runnable : Option (Runner Nat)} (running : s.Running)
    (loop : pc = .loop ∨ pc = .run) :
    (s.setThread p { s.threads p with m_Runnable := m_Runnable, pc := pc }).Running := by
  intro q
  by_cases here : q = p
  · rw [here, setThread_threads_self]
    exact ⟨(running p).1, (running p).2.1, loop⟩
  · rw [setThread_threads_ne here]
    exact running q

/-- Only `Stop` stops a thread. -/
lemma Running.step (running : s.Running) (ne : ∀ p, a ≠ .setFinished p)
    (st : Exec (step address) s a s') : s'.Running := by
  obtain ⟨-, ⟨task, -, -, rfl⟩ | ⟨t, p, -, -, -, rfl⟩ | ⟨p, -, ran⟩ | ⟨p, rfl, -⟩ |
    ⟨p, -, stopping, -⟩⟩ := step_cases st
  · exact running
  · exact running.of_flags fun q => flags_submit
  · obtain ⟨exit, -, loop⟩ := running p
    obtain ⟨runner, run, ⟨-, left, -⟩ | ⟨-, -, rfl⟩ | ⟨-, -, rfl⟩ | ⟨-, runner', effects, -, rfl⟩ |
      ⟨left, -⟩ | ⟨left, -⟩⟩ := runThread_cases ran
    · simp [exit] at left
    · exact running.setPc (.inr rfl)
    · exact running.setPc (.inl rfl)
    · exact running.of_flags fun q => flags_foldl.trans (flags_setThread rfl)
    · simp [TaskThread.InLoop, left] at loop
    · simp [TaskThread.InLoop, left] at loop
  · exact absurd rfl (ne p)
  · simp [(running p).2.1] at stopping

/-- Without `Stop` it is enough that there is room. -/
lemma Running.onTime (running : s.Running) (pool : s.RoomToAquire a) (room : s.RoomToSubmit a) :
    s.OnTime a where
  pool := pool
  room := room
  inLoop p _ := (running p).2.2
  drained p left := by simpa [(running p).1] using (leaves_iff.mp left).2.2

/-- Whatever the order of the steps, if no queue is full when a task comes, no task is acquired from an
    exhausted pool and no processor is stopped, all tasks are accounted for. -/
theorem settled_of_room (address : Ptr → Nat) (kind : ι → RunnerKind) (current : Option ι)
    (raw : Ptr → Task ι) {l : List (Event ι)}
    (run : Run (Exec (step address)) (init kind current raw) l s)
    (pool : Meets (Exec (step address)) RoomToAquire (init kind current raw) l)
    (room : Meets (Exec (step address)) RoomToSubmit (init kind current raw) l)
    (unstopped : ∀ p, .setFinished p ∉ l) : s.Settled := by
  have along : Along (Exec (step address)) (fun s => s.Owned ∧ s.Running) (init kind current raw) l := by
    have meets : Meets (Exec (step address)) (fun s a =>
        s.RoomToAquire a ∧ s.RoomToSubmit a ∧ ∀ p, a ≠ .setFinished p) (init kind current raw) l := by
      intro l1 a s1 pre run1
      refine ⟨pool l1 a s1 pre run1, room l1 a s1 pre run1, fun p e => unstopped p ?_⟩
      exact pre.subset (by simp [e])
    refine meets.along ⟨owned_init kind current raw, fun p => ⟨rfl, rfl, .inl rfl⟩⟩ ?_
    rintro s1 a s2 ⟨owned, running⟩ ⟨pool, room, ne⟩ st
    exact ⟨owned_step owned (running.onTime pool room) st, running.step ne st⟩
  exact (along l s (List.prefix_refl l) run).1.settled

omit [DecidableEq ι] in
/-- The state before the first step, with the pool written out, as an evaluation needs it. -/
lemma init_eq (kind : ι → RunnerKind) (current : Option ι) (raw : Ptr → Task ι) :
    init kind current raw = { init kind current raw with
      m_TaskAllocator := {
        m_CurSize := 2048
        m_FreeList := 2047 :: (List.range 2047).reverse
        heap := 2048
        storage := fun ptr => if ptr < 2048 then (raw ptr).construct current else raw ptr } } := by
  let pool := Task.object current
  have size : (FreeList.new 2048 raw).m_CurSize = 2048 := rfl
  have free := FreeList.new_m_FreeList (N := 2048) raw
  have heap := FreeList.new_heap (N := 2048) raw
  have storage := funext fun ptr => FreeList.new_storage (N := 2048) (p := ptr) raw
  unfold init TaskAllocator.capacity
  rw [List.range_succ, List.reverse_concat] at free
  generalize FreeList.new 2048 raw = made at size free heap storage ⊢
  cases made
  cases size
  cases free
  cases heap
  cases storage
  rfl

/-- A task created on a consumer is handled by a frame runner, handed back and released. -/
theorem settled_of_room_handBack :
    let task : Task Bool := ⟨.SA_NONE, some false, some 0, none, none, .TS_QUEUED⟩
    let kind : Bool → RunnerKind := fun p => cond p .frameRunner .taskConsumer
    let events : List (Event Bool) := [.create task, .submitTask 0 true] ++
      List.replicate 4 (.run true) ++ List.replicate 6 (.run false)
    ∃ s, Run (Exec (step id)) (init kind none fun _ => task) events s ∧
      s.invoked 0 = 1 ∧ s.handedBack 0 = [false] ∧ s.released 0 = 1 ∧ s.Settled := by
  intro task kind events
  have state : (exec (step id) (init kind none fun _ => task) events).map
      (fun s => (s.invoked 0, s.handedBack 0, s.released 0)) = some (1, [false], 1) := by
    rw [init_eq]
    decide
  obtain ⟨s, run, fields⟩ := run_of_map state
  simp only [Prod.mk.injEq] at fields
  obtain ⟨invoked, handedBack, released⟩ := fields
  have pool : Meets (Exec (step id)) RoomToAquire (init kind none fun _ => task) events := by
    rw [init_eq]
    exact meets_of_check (by decide)
  have room : Meets (Exec (step id)) RoomToSubmit (init kind none fun _ => task) events := by
    rw [init_eq]
    exact meets_of_check (by decide)
  have unstopped : ∀ p, .setFinished p ∉ events := by simp [events]
  exact ⟨s, run, invoked, handedBack, released,
    settled_of_room id kind none _ run pool room unstopped⟩

/-- A task that its runner has just taken out of the queue is in no queue and not yet released. -/
theorem unreleased_in_hand :
    let task : Task Unit := ⟨.SA_NONE, none, some 0, none, none, .TS_QUEUED⟩
    let events : List (Event Unit) := [.create task, .submitTask 0 ()] ++
      List.replicate 5 (.run ())
    ∃ s, Run (Exec (step id)) (init (fun _ => .taskConsumer) none fun _ => task) events s ∧
      Meets (Exec (step id)) RoomToSubmit (init (fun _ => .taskConsumer) none fun _ => task) events ∧
      (∀ p, .setFinished p ∉ events) ∧ (∀ p, (s.threads p).waiting = []) ∧
      s.posted 0 = true ∧ s.released 0 = 0 := by
  intro task events
  have state : (exec (step id) (init (fun _ => .taskConsumer) none fun _ => task) events).map
      (fun s => ((s.threads ()).waiting, s.posted 0, s.released 0)) = some ([], true, 0) := by
    rw [init_eq]
    decide
  obtain ⟨s, run, fields⟩ := run_of_map state
  simp only [Prod.mk.injEq] at fields
  obtain ⟨waiting, posted, released⟩ := fields
  have room : Meets (Exec (step id)) RoomToSubmit (init (fun _ => .taskConsumer) none fun _ => task)
      events := by
    rw [init_eq]
    exact meets_of_check (by decide)
  exact ⟨s, run, room, by simp [events], fun _ => waiting, posted, released⟩

end System
end XLN
