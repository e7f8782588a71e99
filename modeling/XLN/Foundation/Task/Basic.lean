import Mathlib.Data.List.Sort
import Mathlib.Data.List.Perm.Basic
import Mathlib.Tactic.Common

/-!
# Tasks and their queue

`Core/Foundation/Task/Task.h`, `Task.cpp` and `TaskQueue.cpp`. A task is known by its pointer, a value
of a type `τ`; what the pointer points to is a `Task`. Processors are values of a type `ι`. `Effect`
lists what a runner does to a task, so that the runners can be stated without the rest of the system.
-/

namespace XLN

/-- `Task::SystemAction`. -/
inductive SystemAction where
  | SA_NONE
  | SA_QUIT_RUNNER
  | SA_RELEASE_TASK
  | SA_WAIT_NOTIFIER
  | SA_TIMER
  deriving DecidableEq

/-- `Task::TaskState`. -/
inductive TaskState where
  | TS_INVALID
  | TS_QUEUED
  | TS_CANCELD
  | TS_HANDLED
  deriving DecidableEq

/-- `Task::Category`. The last enumerator of the source, `CATEGORY_MAX`, is the number of categories. -/
inductive Category where
  | CATEGORY_SYSTEM
  | CATEGORY_USER
  | CATEGORY_ALL
  deriving DecidableEq

/-- The members of `Task` that the runners read or write. Handlers and functions are known by
    numbers; `none` is a null pointer or an empty function. -/
structure Task (ι : Type) where
  m_SysAction : SystemAction
  m_CurrentProcessor : Option ι
  m_Whom : Option Nat
  m_FollyFunc : Option Nat
  m_DeleteCB : Option Nat
  m_State : TaskState

namespace Task

variable {ι : Type}

/-- The constructor, on storage that holds `task`: `m_CurrentProcessor` becomes
    `TaskProcessor::GetCurrent()` and the functions become empty, the other members have no
    initialiser. -/
def construct (current : Option ι) (task : Task ι) : Task ι :=
  { task with m_CurrentProcessor := current, m_FollyFunc := none, m_DeleteCB := none }

/-- `Task::Reset`, which the destructor calls. -/
def reset (task : Task ι) : Task ι :=
  { task with
    m_SysAction := .SA_NONE
    m_CurrentProcessor := none
    m_Whom := none
    m_FollyFunc := none
    m_State := .TS_QUEUED }

/-- `Task::SetPosion`. -/
def setPosion (task : Task ι) : Task ι :=
  { task with m_SysAction := .SA_QUIT_RUNNER }

end Task

/-- What a runner does to a task: `m_FollyFunc()`, `m_Whom->Handle`, the run callback of the runner,
    `m_Whom->OnFinish`, `SetState(TS_HANDLED)`, `TaskAllocator::Release`, `m_DeleteCB`, and the
    hand-back: setting `SA_RELEASE_TASK` and calling `SubmitTask` of the processor the task was
    created on. -/
inductive Effect (τ ι : Type) where
  | follyFunc (task : τ)
  | handle (task : τ)
  | runTaskCB (task : τ)
  | onFinish (task : τ)
  | handled (task : τ)
  | release (task : τ)
  | deleteCB (task : τ)
  | handBack (task : τ) (processor : ι)

namespace Effect

variable {τ ι : Type}

/-- The task that something is done to. -/
def task : Effect τ ι → τ
  | follyFunc t | handle t | runTaskCB t | onFinish t | handled t | release t | deleteCB t
  | handBack t _ => t

/-- The task that the runner is done with after the effect. -/
def done : Effect τ ι → Option τ
  | release t | deleteCB t | handBack t _ => some t
  | _ => none

end Effect

namespace Task

variable {τ ι : Type} {task : Task ι} {t : τ}

/-- The branch for `SA_RELEASE_TASK` of `TaskConsumer::DoRun` and `FrameRunner::DoRun`. -/
def finish (task : Task ι) (t : τ) : List (Effect τ ι) :=
  if task.m_Whom.isSome then [.onFinish t, .release t] else [.release t]

/-- The end of a task is its release, after `OnFinish` if it has a handler. -/
lemma finish_cases : task.finish t = [.release t] ∨ task.finish t = [.onFinish t, .release t] := by
  unfold finish
  split
  · exact .inr rfl
  · exact .inl rfl

end Task

section Move
variable {τ ι : Type}

/-- What one step of a runner on `self` does with the tasks it holds. `queued` are the ones that have
    not been handled, `settling` is the one that has. -/
inductive Move (self : ι) (memory : τ → Task ι) (queued : List τ) (settling : Option τ) :
    List τ → Option τ → List (Effect τ ι) → Prop where
  | internal {queued'} :
    queued'.Perm queued →
    Move self memory queued settling queued' settling []
  | drop {t queued' effects} :
    queued.Perm (t :: queued') →
    settling = none →
    effects = [.release t] ∨ effects = [.onFinish t, .release t] →
    Move self memory queued settling queued' none effects
  | handle {t queued' effects} :
    queued.Perm (t :: queued') →
    settling = none →
    (memory t).m_SysAction ≠ .SA_RELEASE_TASK →
    effects = [.handled t] ∨ effects = [.follyFunc t, .handled t] ∨
      effects = [.handle t, .handled t] →
    Move self memory queued settling queued' (some t) effects
  | release {t effects} :
    settling = some t →
    effects = [.release t] ∨ effects = [.onFinish t, .release t] →
    Move self memory queued settling queued none effects
  | handBack {t processor} :
    settling = some t →
    (memory t).m_CurrentProcessor = some processor →
    processor ≠ self →
    Move self memory queued settling queued none [.handBack t processor]

variable {self : ι} {memory : τ → Task ι} {queued queued' : List τ} {settling settling' : Option τ}
  {effects : List (Effect τ ι)}

/-- The task is done. -/
lemma done_release {t : τ} (h : effects = [.release t] ∨ effects = [.onFinish t, .release t]) :
    effects.filterMap Effect.done = [t] := by
  rcases h with rfl | rfl <;> rfl

/-- The task is not done yet. -/
lemma done_handle {t : τ} (h : effects = [.handled t] ∨ effects = [.follyFunc t, .handled t] ∨
    effects = [.handle t, .handled t]) : effects.filterMap Effect.done = [] := by
  rcases h with rfl | rfl | rfl <;> rfl

/-- No task gets lost or copied. -/
lemma Move.perm (move : Move self memory queued settling queued' settling' effects) :
    (queued ++ settling.toList).Perm
      (effects.filterMap Effect.done ++ (queued' ++ settling'.toList)) := by
  cases move with
  | internal perm => exact perm.symm.append_right _
  | drop perm none effects =>
    rw [none, done_release effects]
    simpa using perm
  | handle perm none _ effects =>
    rw [none, done_handle effects, Option.toList_none, List.append_nil]
    exact perm.trans (List.perm_append_singleton _ _).symm
  | release some effects =>
    rw [some, done_release effects, Option.toList_none, List.append_nil]
    exact List.perm_append_singleton _ _
  | handBack some =>
    rw [some, Option.toList_none, List.append_nil]
    exact List.perm_append_singleton _ _

end Move

/-- `TaskQueue`: a `std::priority_queue` of pointers, its elements by falling address. -/
structure TaskQueue (τ : Type) where
  m_Tasks : List τ

namespace TaskQueue

variable {τ : Type} (address : τ → Nat)

/-- `TaskQueue::Enqueue`. -/
def enqueue (task : τ) (queue : TaskQueue τ) : TaskQueue τ where
  m_Tasks := queue.m_Tasks.orderedInsert (fun t t' => address t' ≤ address t) task

/-- `TaskQueue::Dequeue`: the task with the highest address, if any. -/
def dequeue (queue : TaskQueue τ) : Option τ × TaskQueue τ :=
  match queue.m_Tasks with
  | [] => (none, queue)
  | task :: tasks => (some task, ⟨tasks⟩)

/-- `TaskQueue::Empty`. -/
def empty (queue : TaskQueue τ) : Bool :=
  queue.m_Tasks.isEmpty

variable {address} {task : τ} {queue queue' : TaskQueue τ}

/-- A task that is enqueued is in the queue. -/
lemma enqueue_perm : (queue.enqueue address task).m_Tasks.Perm (task :: queue.m_Tasks) :=
  List.perm_orderedInsert _ _ _

/-- The task that comes out was the first. -/
lemma dequeue_some (h : queue.dequeue = (some task, queue')) :
    queue.m_Tasks = task :: queue'.m_Tasks := by
  unfold dequeue at h
  split at h
  next => cases h
  next e =>
    cases h
    exact e

/-- Nothing comes out of an empty queue only. -/
lemma dequeue_none (h : queue.dequeue = (none, queue')) : queue.m_Tasks = [] := by
  unfold dequeue at h
  split at h
  next e => exact e
  next => cases h

/-- `Empty` tells that there is no task. -/
lemma empty_iff : queue.empty = true ↔ queue.m_Tasks = [] :=
  List.isEmpty_iff

end TaskQueue
end XLN
