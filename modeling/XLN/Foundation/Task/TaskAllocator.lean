import XLN.Foundation.Task.Basic
import XLN.Utility.Pool

/-!
# The allocator of tasks

`Core/Foundation/Task/TaskAllocator.h` and `Task.cpp`: `TaskAllocator` is a `FreeList` of 2048 tasks.
The constructor of `Task` leaves seven members as they are in the memory; it is the destructor that
resets them. So `Aquire` returns a task in the reset state exactly if the memory of the slot happens to
hold the reset values before (`reset_along_iff`). Within the capacity these are the slots that have been
released before and those whose memory came like that from the heap (`takesClean_iff_reuses`).
-/

namespace XLN
open Transition

/-- All members of `Task` but its number. Pointers, messages and the value of `m_Any` are known by
    numbers. -/
structure TaskMemory (ι : Type) extends Task ι where
  m_What : Int
  m_When : Int
  m_UserParam : Option Nat
  m_Any : Option Nat
  m_Category : Category
  m_Message : Option Nat

namespace TaskMemory

variable {ι : Type}

/-- The constructor, on storage that holds `task`. -/
def construct (current : Option ι) (task : TaskMemory ι) : TaskMemory ι :=
  { task with
    toTask := task.toTask.construct current
    m_Any := none
    m_Message := none }

/-- `Task::Reset`, which the destructor calls. -/
def reset (task : TaskMemory ι) : TaskMemory ι :=
  { task with
    toTask := task.toTask.reset
    m_What := 0
    m_When := 0
    m_UserParam := none
    m_Any := none
    m_Category := .CATEGORY_ALL
    m_Message := none }

/-- What the pool does to a task, in a thread whose processor is `current`. -/
abbrev object (current : Option ι) : Object (TaskMemory ι) where
  construct := construct current
  destruct := reset

/-- The members that the constructor leaves alone have their reset values. -/
structure Clean (task : TaskMemory ι) : Prop where
  m_What : task.m_What = 0
  m_When : task.m_When = 0
  m_UserParam : task.m_UserParam = none
  m_SysAction : task.m_SysAction = .SA_NONE
  m_Whom : task.m_Whom = none
  m_Category : task.m_Category = .CATEGORY_ALL
  m_State : task.m_State = .TS_QUEUED

/-- The reset state of a task. -/
structure IsReset (task : TaskMemory ι) : Prop extends Clean task where
  m_Message : task.m_Message = none
  m_FollyFunc : task.m_FollyFunc = none

/-- `Reset` cleans a task. -/
lemma reset_clean {task : TaskMemory ι} : task.reset.Clean :=
  ⟨rfl, rfl, rfl, rfl, rfl, rfl, rfl⟩

/-- The constructor leaves the fields that `Reset` cleans. -/
lemma construct_clean_iff {current : Option ι} {task : TaskMemory ι} :
    (task.construct current).Clean ↔ task.Clean := by
  constructor
  · rintro ⟨what, when, userParam, sysAction, whom, category, state⟩
    exact ⟨what, when, userParam, sysAction, whom, category, state⟩
  · rintro ⟨what, when, userParam, sysAction, whom, category, state⟩
    exact ⟨what, when, userParam, sysAction, whom, category, state⟩

/-- A task is as new if it was clean before its constructor. -/
lemma construct_isReset_iff {current : Option ι} {task : TaskMemory ι} :
    (task.construct current).IsReset ↔ task.Clean := by
  constructor
  · intro reset
    exact construct_clean_iff.mp reset.toClean
  · intro clean
    exact ⟨construct_clean_iff.mpr clean, rfl, rfl⟩

end TaskMemory

/-- The allocator with its users, the slots that have been released so far, and the tasks that `Aquire`
    has returned, as they were then. -/
structure TaskAllocator (ι : Type) where
  client : FreeList.Client (TaskMemory ι)
  released : List Ptr
  returned : List (TaskMemory ι)

namespace TaskAllocator
open FreeList TaskMemory

/-- A call of `Aquire` in a thread whose processor is `current`, a call of `Release`, or a user that
    sets the members of a task it holds. -/
inductive Event (ι : Type) where
  | aquire (current : Option ι)
  | release (task : Ptr)
  | write (task : Ptr) (value : TaskMemory ι)

/-- `FreeList<Task, 2048>`. -/
def capacity : Nat := 2048

section Definitions
variable {ι : Type}

/-- The allocator, made in a thread whose processor is `current`, on a heap with arbitrary contents. -/
def init (current : Option ι) (raw : Ptr → TaskMemory ι) : TaskAllocator ι where
  client := @Client.init _ (object current) capacity raw
  released := []
  returned := []

/-- `Aquire` in a thread whose processor is `current`. -/
def aquire (current : Option ι) (s : TaskAllocator ι) : TaskAllocator ι :=
  let r := @FreeList.aquire _ (object current) capacity s.client.pool
  { s with
    client := { pool := r.2, acquired := r.1 :: s.client.acquired }
    returned := s.returned ++ [r.2.storage r.1] }

/-- One step; only a task that is held can be released or written to. -/
def step (s : TaskAllocator ι) : Event ι → Option (TaskAllocator ι)
  | .aquire current => some (s.aquire current)
  | .release task =>
    if task ∈ s.client.acquired then
      some { s with
        client := {
          pool := @FreeList.release _ (object none) capacity task s.client.pool
          acquired := s.client.acquired.erase task }
        released := task :: s.released }
    else none
  | .write task value =>
    if task ∈ s.client.acquired then
      some { s with client := { s.client with
        pool := { s.client.pool with
          storage := Function.update s.client.pool.storage task value } } }
    else none

/-- The slot that the next `Aquire` is going to return. -/
def next (s : TaskAllocator ι) : Ptr :=
  match s.client.pool.m_FreeList with
  | [] => s.client.pool.heap
  | ret :: _ => ret

/-- Every task that `Aquire` has returned was in the reset state. -/
def AllReset (s : TaskAllocator ι) : Prop :=
  ∀ task ∈ s.returned, task.IsReset

/-- An `Aquire` takes a slot whose memory holds the reset values of the members that the constructor
    leaves alone. -/
def TakesClean (s : TaskAllocator ι) : Event ι → Prop
  | .aquire _ => (s.client.pool.storage s.next).Clean
  | .release _ | .write _ _ => True

/-- The calls stay within the capacity. -/
def InRoom (s : TaskAllocator ι) : Event ι → Prop
  | .aquire _ => s.client.pool.m_FreeList ≠ []
  | .release _ => s.client.pool.m_FreeList.length < capacity
  | .write _ _ => True

/-- An `Aquire` takes a slot that has been released before, or one whose memory already held the reset
    values when it came from the heap. -/
def Reuses (raw : Ptr → TaskMemory ι) (s : TaskAllocator ι) : Event ι → Prop
  | .aquire _ => s.next ∈ s.released ∨ (raw s.next).Clean
  | .release _ | .write _ _ => True

/-- What makes a free slot clean. -/
structure Ledger (raw : Ptr → TaskMemory ι) (s : TaskAllocator ι) : Prop where
  created : s.client.Created
  sound : s.client.Sound
  clean : ∀ task ∈ s.client.pool.m_FreeList,
    (s.client.pool.storage task).Clean ↔ task ∈ s.released ∨ (raw task).Clean

end Definitions

variable {ι : Type} {s s' : TaskAllocator ι} {a : Event ι} {current : Option ι}
  {raw : Ptr → TaskMemory ι}

/-- The task that `Aquire` returns is constructed on what the memory held. -/
lemma aquire_returned : (s.aquire current).returned =
    s.returned ++ [(s.client.pool.storage s.next).construct current] := by
  let pool := object current
  show s.returned ++ [(s.client.pool.aquire capacity).2.storage (s.client.pool.aquire capacity).1] = _
  unfold next
  cases free : s.client.pool.m_FreeList with
  | nil =>
    have slot := aquire_created (N := capacity) free
    rw [aquire_nil free] at slot ⊢
    rw [slot]
    rfl
  | cons ret rest =>
    have slot := aquire_slot (N := capacity) free
    rw [aquire_cons free] at slot ⊢
    rw [slot]
    rfl

/-- `Aquire` keeps the tasks as new if the next one is clean. -/
lemma aquire_allReset_iff :
    (s.aquire current).AllReset ↔ s.AllReset ∧ (s.client.pool.storage s.next).Clean := by
  unfold AllReset
  rw [aquire_returned]
  simp only [List.mem_append, List.mem_singleton, or_imp, forall_and, forall_eq,
    construct_isReset_iff]

/-- What a step can do. -/
inductive AllocatorMove (s : TaskAllocator ι) : Event ι → TaskAllocator ι → Prop where
  | aquire {processor} :
    AllocatorMove s (.aquire processor) (s.aquire processor)
  | release {task} :
    task ∈ s.client.acquired →
    AllocatorMove s (.release task) { s with
      client := {
        pool := @FreeList.release _ (object none) capacity task s.client.pool
        acquired := s.client.acquired.erase task }
      released := task :: s.released }
  | write {task value} :
    task ∈ s.client.acquired →
    AllocatorMove s (.write task value) { s with client := { s.client with
      pool := { s.client.pool with
        storage := Function.update s.client.pool.storage task value } } }

/-- Every step is one of these. -/
lemma step_move (st : Exec step s a s') : AllocatorMove s a s' := by
  unfold Exec step at st
  cases a with
  | aquire current =>
    cases st
    exact .aquire
  | release task =>
    simp only at st
    split at st
    next held =>
      cases st
      exact .release held
    next => cases st
  | write task value =>
    simp only at st
    split at st
    next held =>
      cases st
      exact .write held
    next => cases st

/-- A step that takes a clean task keeps them as new. -/
lemma allReset_step (h : s.AllReset) (clean : s.TakesClean a) (st : Exec step s a s') :
    s'.AllReset := by
  have move := step_move st
  cases move with
  | aquire => exact aquire_allReset_iff.mpr ⟨h, clean⟩
  | release | write => exact h

/-- A step that takes a task with remains does not. -/
lemma not_allReset_step (stale : ¬ s.TakesClean a) (st : Exec step s a s') : ¬ s'.AllReset := by
  have move := step_move st
  cases move with
  | aquire => exact fun reset => stale (aquire_allReset_iff.mp reset).2
  | release | write => exact absurd trivial stale

/-- Along a run every task that `Aquire` returns is in the reset state if and only if the memory of
    every slot that `Aquire` takes holds the reset values before. -/
theorem reset_along_iff (current : Option ι) (raw : Ptr → TaskMemory ι) {l : List (Event ι)}
    (run : Run (Exec step) (init current raw) l s) :
    Along (Exec step) AllReset (init current raw) l ↔
      Meets (Exec step) TakesClean (init current raw) l := by
  apply run.along_iff (Exec.deterministic step)
  · exact fun _ mem => absurd mem List.not_mem_nil
  · exact allReset_step
  · exact fun _ => not_allReset_step

/-- All tasks are free in the beginning. -/
lemma init_m_FreeList :
    (init current raw).client.pool.m_FreeList = (List.range capacity).reverse :=
  @new_m_FreeList _ (object current) capacity raw

/-- The task on the top of the stack is the next one. -/
lemma next_of_cons {task : Ptr} {rest : List Ptr} (free : s.client.pool.m_FreeList = task :: rest) :
    s.next = task := by
  unfold next
  rw [free]

/-- The last task is the first to be taken. -/
lemma next_init : (init current raw).next = 2047 := by
  have top : ∀ n, (List.range (n + 1)).reverse = n :: (List.range n).reverse := by
    intro n
    rw [List.range_succ, List.reverse_concat]
  have pred : capacity = 2047 + 1 := by decide
  have free : (init current raw).client.pool.m_FreeList = 2047 :: (List.range 2047).reverse := by
    rw [init_m_FreeList, pred, top]
  exact next_of_cons free

/-- The constructor has run on the tasks of the pool. -/
lemma init_storage {task : Nat} (below : task < capacity) :
    (init current raw).client.pool.storage task = (raw task).construct current := by
  have storage := @new_storage _ (object current) capacity task raw
  rw [if_pos below] at storage
  exact storage

/-- The first task is clean if it is the memory of slot 2047 that holds the reset values. -/
lemma takesClean_init {processor : Option ι} :
    (init current raw).TakesClean (.aquire processor) ↔ (raw 2047).Clean := by
  show ((init current raw).client.pool.storage (init current raw).next).Clean ↔ _
  rw [next_init, init_storage (by decide), construct_clean_iff]

/-- The first `Aquire`, on memory that holds the reset values. -/
theorem reset_along_iff_clean :
    let task : TaskMemory Unit :=
      ⟨⟨.SA_NONE, none, none, none, none, .TS_QUEUED⟩, 0, 0, none, none, .CATEGORY_ALL, none⟩
    ∃ s, Run (Exec step) (init none fun _ => task) [.aquire none] s ∧
      Along (Exec step) AllReset (init none fun _ => task) [.aquire none] := by
  intro task
  have clean : task.reset.Clean := reset_clean
  have run : Run (Exec step) (init none fun _ => task) [.aquire none] _ := .single rfl
  refine ⟨_, run, (reset_along_iff none _ run).mpr ?_⟩
  exact .single (Exec.deterministic step) (takesClean_init.mpr clean)

/-- Where the memory holds something else, the first `Aquire` returns just that: here a task that makes
    its runner quit. -/
theorem first_task_not_reset :
    let task : TaskMemory Unit :=
      ⟨⟨.SA_QUIT_RUNNER, none, some 1, none, none, .TS_INVALID⟩, 5, 6, some 7, none,
        .CATEGORY_SYSTEM, none⟩
    ∃ s, Run (Exec step) (init none fun _ => task) [.aquire none] s ∧ s.returned = [task] ∧
      ¬ s.AllReset := by
  intro task
  have returned : ((init none fun _ => task).aquire none).returned = [task] := by
    rw [aquire_returned, next_init, init_storage (by decide)]
    rfl
  refine ⟨_, .single rfl, returned, fun reset => ?_⟩
  have first := reset task (returned ▸ List.mem_singleton_self task)
  exact nomatch first.m_SysAction

/-! ## Slots that have been released -/

/-- In the beginning no task was released. -/
lemma ledger_init : (init current raw).Ledger raw where
  created := @Client.created_init _ (object current) capacity raw
  sound := @Client.sound_init _ (object current) capacity raw
  clean task mem := by
    rw [init_m_FreeList, List.mem_reverse, List.mem_range] at mem
    rw [init_storage mem, construct_clean_iff]
    exact ⟨.inr, fun h => h.resolve_left List.not_mem_nil⟩

/-- A step keeps account of where the remains come from. -/
lemma ledger_step (h : s.Ledger raw) (room : s.InRoom a) (st : Exec step s a s') :
    s'.Ledger raw := by
  have move := step_move st
  cases move with
  | @aquire processor =>
    let pool := object processor
    obtain ⟨ret, rest, free⟩ := List.exists_cons_of_ne_nil room
    have call : Exec (Client.step capacity) s.client .aquire (s.aquire processor).client := rfl
    have roomy : s.client.Roomy capacity .aquire := .inl room
    refine ⟨Client.created_step h.created call, Client.sound_step h.created h.sound roomy call,
      fun task mem => ?_⟩
    -- the slots that stay on the stack are others
    have taken := aquire_cons (N := capacity) free
    have nodup := h.sound.free_nodup
    rw [free, List.nodup_cons] at nodup
    have stays : task ∈ (s.client.pool.aquire capacity).2.m_FreeList := mem
    rw [taken, construct_m_FreeList] at stays
    have ne : task ≠ (s.client.pool.aquire capacity).1 := by
      rw [taken]
      exact ne_of_mem_of_not_mem stays nodup.1
    show ((s.client.pool.aquire capacity).2.storage task).Clean ↔ _
    rw [aquire_other ne]
    exact h.clean task (free ▸ List.mem_cons_of_mem ret stays)
  | @release task held =>
    let pool : Object (TaskMemory ι) := object none
    have call : Exec (Client.step capacity) s.client (.release task) _ := if_pos held
    have below : s.client.pool.m_FreeList.length < capacity := room
    have roomy : s.client.Roomy capacity (.release task) := below
    refine ⟨Client.created_step h.created call, Client.sound_step h.created h.sound roomy call,
      fun task' mem => ?_⟩
    show ((s.client.pool.release capacity task).storage task').Clean ↔ task' ∈ task :: s.released ∨ _
    rw [release_storage, List.mem_cons]
    split
    next e =>
      have clean : (s.client.pool.storage task').reset.Clean := reset_clean
      exact ⟨fun _ => .inl (.inl e), fun _ => clean⟩
    next ne =>
      have either : task' ∈ (s.client.pool.release capacity task).m_FreeList := mem
      rw [release, push_m_FreeList, destruct_m_FreeList, if_pos below, List.mem_cons] at either
      rw [h.clean task' (either.resolve_left ne), or_iff_right ne]
  | @write task value held =>
    refine ⟨h.created, ⟨h.sound.acquired_nodup, h.sound.free_nodup, h.sound.disjoint, h.sound.kept⟩,
      fun task' mem => ?_⟩
    have other : task' ≠ task := fun e => h.sound.disjoint task held (e ▸ mem)
    show (Function.update s.client.pool.storage task value task').Clean ↔ _
    rw [Function.update_of_ne other]
    exact h.clean task' mem

/-- Within the capacity, the slots that `Aquire` takes are clean if and only if each of them has been
    released before or came like that from the heap. -/
theorem takesClean_iff_reuses (current : Option ι) (raw : Ptr → TaskMemory ι) {l : List (Event ι)}
    (room : Meets (Exec step) InRoom (init current raw) l) :
    Meets (Exec step) TakesClean (init current raw) l ↔
      Meets (Exec step) (Reuses raw) (init current raw) l := by
  have ledger : Along (Exec step) (Ledger raw) (init current raw) l :=
    room.along ledger_init ledger_step
  have same : ∀ l1 a s, l1 ++ [a] <+: l → Run (Exec step) (init current raw) l1 s →
      (s.TakesClean a ↔ s.Reuses raw a) := by
    intro l1 a s pre run
    have h := ledger l1 s ((List.prefix_append l1 [a]).trans pre) run
    cases a with
    | release | write => exact .rfl
    | aquire processor =>
      obtain ⟨ret, rest, free⟩ := List.exists_cons_of_ne_nil (room l1 _ s pre run)
      have top : s.next ∈ s.client.pool.m_FreeList := by
        rw [next_of_cons free, free]
        exact List.mem_cons_self
      exact h.clean _ top
  exact ⟨fun meets l1 a s pre run => (same l1 a s pre run).mp (meets l1 a s pre run),
    fun meets l1 a s pre run => (same l1 a s pre run).mpr (meets l1 a s pre run)⟩

end TaskAllocator
end XLN
