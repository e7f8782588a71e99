import Mathlib.Tactic.Common

/-!
# The blocking queues

`Core/Foundation/Task/LifoSemBlockingQueue.h` and `TaskBarrierBlockingQueue.h`, one definition for each
step that a thread makes alone: an operation of `folly::MPMCQueue` (a bounded first-in-first-out queue)
or of `folly::LifoSem` (a counting semaphore), or a block under the mutex.
-/

namespace XLN

/-- `QueueBehaviorIfFull`. -/
inductive QueueBehaviorIfFull where
  | THROW
  | BLOCK
  deriving DecidableEq

/-- `LifoSemBlockingQueue`; the oldest item is the head of `m_Queue`. -/
structure LifoSemBlockingQueue (T : Type) where
  capacity : Nat
  m_LifoSem : Nat
  m_Queue : List T

/-- Where a thread is in `LifoSemBlockingQueue::Add`: at the `switch`, at `blockingWrite`, at `post`,
    back, or out with a `QueueFullException`. -/
inductive AddPc where
  | start
  | blockingWrite
  | post
  | returned
  | thrown
  deriving DecidableEq

namespace LifoSemBlockingQueue

/-- `s_DefultCapacity`. -/
def s_DefultCapacity : Nat := 1 <<< 16

variable {T : Type}

/-- The constructor. -/
def new (capacity : Nat) : LifoSemBlockingQueue T where
  capacity := capacity
  m_LifoSem := 0
  m_Queue := []

/-- `MPMCQueue::write`, which fails on a full queue; `blockingWrite` waits instead. -/
def write (item : T) (q : LifoSemBlockingQueue T) : Option (LifoSemBlockingQueue T) :=
  if q.m_Queue.length < q.capacity then some { q with m_Queue := q.m_Queue ++ [item] } else none

/-- `LifoSem::post`. -/
def post (q : LifoSemBlockingQueue T) : LifoSemBlockingQueue T :=
  { q with m_LifoSem := q.m_LifoSem + 1 }

/-- `LifoSem::wait`, or `none` while the thread has to wait. -/
def wait (q : LifoSemBlockingQueue T) : Option (LifoSemBlockingQueue T) :=
  match q.m_LifoSem with
  | 0 => none
  | n + 1 => some { q with m_LifoSem := n }

/-- `MPMCQueue::readIfNotEmpty`. -/
def readIfNotEmpty (q : LifoSemBlockingQueue T) : Option (T × LifoSemBlockingQueue T) :=
  match q.m_Queue with
  | [] => none
  | item :: items => some (item, { q with m_Queue := items })

/-- One step of `Add`. The case `THROW` has no `break` and goes on with the case `BLOCK`. -/
def add (kBehavior : QueueBehaviorIfFull) (item : T) (q : LifoSemBlockingQueue T) :
    AddPc → Option (AddPc × LifoSemBlockingQueue T)
  | .start =>
    match kBehavior, q.write item with
    -- written, and about to be written once more
    | .THROW, some q' => some (.blockingWrite, q')
    | .THROW, none => some (.thrown, q)
    | .BLOCK, some q' => some (.post, q')
    | .BLOCK, none => none
  | .blockingWrite => (q.write item).map fun q' => (.post, q')
  | .post => some (.returned, q.post)
  | .returned | .thrown => none

variable {item : T} {q q' : LifoSemBlockingQueue T}

/-- What is written is the last. -/
lemma write_some (h : q.write item = some q') : q'.m_Queue = q.m_Queue ++ [item] := by
  unfold write at h
  split at h
  · cases h
    rfl
  · cases h

/-- Waiting takes no item. -/
lemma wait_m_Queue (h : q.wait = some q') : q'.m_Queue = q.m_Queue := by
  unfold wait at h
  split at h
  · cases h
  · cases h
    rfl

/-- What is read was the first. -/
lemma readIfNotEmpty_some (h : q.readIfNotEmpty = some (item, q')) :
    q.m_Queue = item :: q'.m_Queue := by
  unfold readIfNotEmpty at h
  split at h
  next => cases h
  next e =>
    cases h
    exact e

/-- A step of `Add` writes the item once more or leaves the queue alone. -/
lemma add_cases {kBehavior : QueueBehaviorIfFull} {pc pc' : AddPc}
    (h : q.add kBehavior item pc = some (pc', q')) :
    pc' ≠ .start ∧ (q'.m_Queue = q.m_Queue ∨ q'.m_Queue = q.m_Queue ++ [item]) := by
  unfold add at h
  split at h
  · split at h
    next written =>
      cases h
      exact ⟨nofun, .inr (write_some written)⟩
    next =>
      cases h
      exact ⟨nofun, .inl rfl⟩
    next written =>
      cases h
      exact ⟨nofun, .inr (write_some written)⟩
    next => cases h
  · obtain ⟨q1, written, e⟩ := Option.map_eq_some_iff.mp h
    cases e
    exact ⟨nofun, .inr (write_some written)⟩
  · cases h
    exact ⟨nofun, .inl rfl⟩
  · cases h
  · cases h

end LifoSemBlockingQueue

/-- `TaskBarrierBlockingQueue`. -/
structure TaskBarrierBlockingQueue (T : Type) where
  m_Sem : Nat
  m_Tasks : List T

namespace TaskBarrierBlockingQueue

variable {T : Type}

/-- The constructor. -/
def new : TaskBarrierBlockingQueue T where
  m_Sem := 0
  m_Tasks := []

/-- The locked block of `Add`. -/
def push (task : T) (q : TaskBarrierBlockingQueue T) : TaskBarrierBlockingQueue T :=
  { q with m_Tasks := q.m_Tasks ++ [task] }

/-- `m_Sem.post()`. -/
def post (q : TaskBarrierBlockingQueue T) : TaskBarrierBlockingQueue T :=
  { q with m_Sem := q.m_Sem + 1 }

/-- The locked block of `Take`, or `none` if it goes on to `m_Sem.wait()`. -/
def pop (q : TaskBarrierBlockingQueue T) : Option (T × TaskBarrierBlockingQueue T) :=
  match q.m_Tasks with
  | [] => none
  | task :: tasks => some (task, { q with m_Tasks := tasks })

/-- `m_Sem.wait()`, or `none` while the thread has to wait. -/
def wait (q : TaskBarrierBlockingQueue T) : Option (TaskBarrierBlockingQueue T) :=
  match q.m_Sem with
  | 0 => none
  | n + 1 => some { q with m_Sem := n }

end TaskBarrierBlockingQueue
end XLN
