import XLN.Lib.Transition
import XLN.Foundation.Task.TaskAllocator
import XLN.Foundation.Task.TaskConsumer
import XLN.Foundation.Task.FrameRunner

/-!
# Task threads

`Core/Foundation/Task/TaskThread.cpp` on top of `ThreadedExecutor.cpp`, and a system of them. Every
processor has a thread that calls `Run` of its runner until it is stopped and then deletes the
runner. Tasks are numbered in the order in which they are acquired, so that the ones can be told apart
whose storage `TaskAllocator` has handed out again; the code sees only their pointers. `System` holds
the allocator, the threads, and a record of what has been done to each task. `System.step` is one step
of one thread.
-/

namespace XLN
open Transition

/-- What drives a `TaskThread`. -/
inductive Runner (τ : Type) where
  | consumer (c : TaskConsumer τ)
  | frame (f : FrameRunner τ)

namespace Runner

section Methods
variable {τ ι : Type}

/-- `TaskRunner::PostTask`. -/
def postTask (address : τ → Nat) (task : τ) : Runner τ → Runner τ
  | consumer c => consumer (c.postTask address task)
  | frame f => frame (f.postTask task)

/-- `TaskRunner::SetFinished`, which does nothing for a `FrameRunner`. -/
def setFinished : Runner τ → Runner τ
  | consumer c => consumer c.setFinished
  | frame f => frame f

/-- Enters `DoRun`. -/
def enter : Runner τ → Runner τ
  | consumer c => consumer { c with pc := .testFinished }
  | frame f => frame { f with pc := .pop }

/-- The thread is not inside `DoRun`. -/
def returned : Runner τ → Bool
  | consumer c =>
    match c.pc with
    | .returned => true
    | _ => false
  | frame f =>
    match f.pc with
    | .returned => true
    | _ => false

/-- One step inside `DoRun`. -/
def doRun [DecidableEq ι] (self : ι) (memory : τ → Task ι) :
    Runner τ → Option (Runner τ × List (Effect τ ι))
  | consumer c => (c.doRun self memory).map fun r => (consumer r.1, r.2)
  | frame f => (f.doRun self memory).map fun r => (frame r.1, r.2)

/-- One step of `XLN_OBJ_DELETE m_Runnable`. The destructor of `TaskConsumer` deletes its queues with
    what is in them. -/
def delete : Runner τ → Option (Runner τ) × List (Effect τ ι)
  | consumer _ => (none, [])
  | frame f =>
    match f.destroy with
    | (some f', effects) => (some (frame f'), effects)
    | (none, effects) => (none, effects)

/-- The tasks in its queues and in hand but not yet handled. -/
def queued : Runner τ → List τ
  | consumer c => c.queued
  | frame f => f.queued

/-- The tasks in its queues. -/
def waiting : Runner τ → List τ
  | consumer c => c.m_IncomingQueue.m_Tasks ++ c.m_WorkingQueue.m_Tasks
  | frame f => f.m_WaitingTasks

/-- The task in hand once it has been handled. -/
def settling : Runner τ → Option τ
  | consumer c => c.settling
  | frame f => f.settling

/-- A `PostTask` now would find room. -/
def hasRoom : Runner τ → Bool
  | consumer _ => true
  | frame f => f.m_WaitingTasks.length < FrameRunner.capacity

end Methods

variable {τ ι : Type} {address : τ → Nat} {runner runner' : Runner τ} {task : τ}

/-- A task that is posted is queued where there is room. -/
lemma postTask_queued (room : runner.hasRoom = true) :
    (runner.postTask address task).queued.Perm (task :: runner.queued) := by
  cases runner with
  | consumer c => exact TaskConsumer.postTask_queued
  | frame f => exact FrameRunner.postTask_queued (by simpa [hasRoom] using room)

/-- `PostTask` changes nothing of the task in hand. -/
lemma postTask_settling : (runner.postTask address task).settling = runner.settling := by
  cases runner with
  | consumer c => rfl
  | frame f =>
    show (f.postTask task).settling = f.settling
    unfold FrameRunner.postTask
    split <;> rfl

/-- `PostTask` does not enter `DoRun`. -/
lemma postTask_returned : (runner.postTask address task).returned = runner.returned := by
  cases runner with
  | consumer c => rfl
  | frame f =>
    show (Runner.frame (f.postTask task)).returned = (Runner.frame f).returned
    unfold FrameRunner.postTask
    split <;> rfl

/-- `SetFinished` leaves the queue. -/
lemma setFinished_queued : runner.setFinished.queued = runner.queued := by
  cases runner <;> rfl

/-- `SetFinished` leaves the task in hand. -/
lemma setFinished_settling : runner.setFinished.settling = runner.settling := by
  cases runner <;> rfl

/-- `SetFinished` does not enter `DoRun`. -/
lemma setFinished_returned : runner.setFinished.returned = runner.returned := by
  cases runner <;> rfl

/-- Outside `DoRun` nothing is in hand. -/
lemma returned_settling (h : runner.returned = true) : runner.settling = none := by
  cases runner with
  | consumer c =>
    cases hpc : c.pc <;> simp [returned, hpc] at h
    simp [settling, TaskConsumer.settling, hpc]
  | frame f =>
    cases hpc : f.pc <;> simp [returned, hpc] at h
    simp [settling, FrameRunner.settling, hpc]

/-- At the begin of `DoRun` no task is in hand. -/
lemma enter_settling : runner.enter.settling = none := by
  cases runner <;> rfl

/-- Entering `DoRun` leaves the queue. -/
lemma enter_queued (h : runner.returned = true) : runner.enter.queued = runner.queued := by
  cases runner with
  | consumer c =>
    cases hpc : c.pc <;> simp [returned, hpc] at h
    simp [enter, queued, TaskConsumer.queued, hpc]
  | frame f =>
    cases hpc : f.pc <;> simp [returned, hpc] at h
    simp [enter, queued, FrameRunner.queued, hpc]

/-- `DoRun` of each runner takes a task, settles one or returns. -/
lemma doRun_move [DecidableEq ι] {self : ι} {memory : τ → Task ι} {effects : List (Effect τ ι)}
    (e : runner.doRun self memory = some (runner', effects)) :
    Move self memory runner.queued runner.settling runner'.queued runner'.settling effects := by
  cases runner with
  | consumer c =>
    obtain ⟨r, h, e⟩ := Option.map_eq_some_iff.mp e
    cases e
    exact TaskConsumer.doRun_move h
  | frame f =>
    obtain ⟨r, h, e⟩ := Option.map_eq_some_iff.mp e
    cases e
    exact FrameRunner.doRun_move h

/-- An empty runner is deleted at once. -/
lemma delete_of_empty (returned : runner.returned = true) (empty : runner.queued = []) :
    (runner.delete : Option (Runner τ) × List (Effect τ ι)) = (none, []) := by
  cases runner with
  | consumer c => rfl
  | frame f =>
    cases hpc : f.pc <;> simp [Runner.returned, hpc] at returned
    have waiting : f.m_WaitingTasks = [] := by
      simpa [queued, FrameRunner.queued, hpc] using empty
    simp [delete, FrameRunner.destroy, waiting, hpc]

end Runner

/-- Where a thread is in `ThreadRun`: at the test of the loop, in `OnThreadRun`, in `OnThreadExit`, or
    at its end. -/
inductive ThreadPc where
  | loop
  | run
  | exit
  | gone
  deriving DecidableEq

/-- The two kinds of runners a `TaskThread` is constructed with. -/
inductive RunnerKind where
  | taskConsumer
  | frameRunner

/-- The new runner; its thread has not entered `DoRun`. -/
def RunnerKind.new {τ : Type} : RunnerKind → Runner τ
  | taskConsumer => .consumer { TaskConsumer.new with pc := .returned }
  | frameRunner => .frame .new

/-- `TaskThread` after `Start`. `stopping` says that `Stop` has come past `SetFinished`. -/
structure TaskThread (τ : Type) where
  m_Runnable : Option (Runner τ)
  m_ThreadExit : Bool
  stopping : Bool
  pc : ThreadPc

/-- The constructors and `Start`. -/
def TaskThread.start {τ : Type} (runner : Runner τ) : TaskThread τ where
  m_Runnable := some runner
  m_ThreadExit := false
  stopping := false
  pc := .loop

namespace TaskThread

variable {τ : Type}

/-- The tasks in the queues of the runner. -/
def waiting (thread : TaskThread τ) : List τ :=
  match thread.m_Runnable with
  | some runner => runner.waiting
  | none => []

/-- The tasks in the queues of the runner and in hand but not yet handled. -/
def queued (thread : TaskThread τ) : List τ :=
  match thread.m_Runnable with
  | some runner => runner.queued
  | none => []

/-- The task in hand once it has been handled. -/
def settling (thread : TaskThread τ) : Option τ :=
  match thread.m_Runnable with
  | some runner => runner.settling
  | none => none

/-- The thread has not left the loop of `ThreadRun`. -/
def InLoop (thread : TaskThread τ) : Prop :=
  thread.pc = .loop ∨ thread.pc = .run

instance (thread : TaskThread τ) : Decidable thread.InLoop :=
  inferInstanceAs (Decidable (_ ∨ _))

/-- A `PostTask` to the runner would find room. -/
def hasRoom (thread : TaskThread τ) : Bool :=
  match thread.m_Runnable with
  | some runner => runner.hasRoom
  | none => true

end TaskThread

/-- What the pool does to a task, in a thread whose `TaskProcessor::GetCurrent()` is `current`. -/
abbrev Task.object {ι : Type} (current : Option ι) : Object (Task ι) where
  construct := construct current
  destruct := reset

/-- A set of processors and the tasks created so far, with the pointer that `Aquire` has returned for
    each. `creator`, `posted`, `invoked`, `handedBack` and `released` record what has happened to each
    task; `nullDereference` that `SubmitTask` was called on a processor without a runner. -/
structure System (ι : Type) where
  threads : ι → TaskThread Nat
  m_TaskAllocator : FreeList (Task ι)
  pointer : Nat → Ptr
  created : Nat
  creator : Nat → Option ι
  posted : Nat → Bool
  invoked : Nat → Nat
  handedBack : Nat → List ι
  released : Nat → Nat
  nullDereference : Bool

namespace System

variable {ι : Type} [DecidableEq ι]

/-- The next step of the system: a task is acquired and filled in, a task is posted, a thread makes a
    step, or `Stop` runs up to one of its two effects. -/
inductive Event (ι : Type) where
  | create (task : Task ι)
  | submitTask (task : Nat) (processor : ι)
  | run (processor : ι)
  | setFinished (processor : ι)
  | threadExit (processor : ι)

/-- Threads that have just been started, and a `TaskAllocator` made in a thread whose processor is
    `current`, on a heap with arbitrary contents. -/
def init (kind : ι → RunnerKind) (current : Option ι) (raw : Ptr → Task ι) : System ι where
  threads := fun p => .start (kind p).new
  m_TaskAllocator := @FreeList.new _ (Task.object current) TaskAllocator.capacity raw
  pointer := fun _ => 0
  created := 0
  creator := fun _ => none
  posted := fun _ => false
  invoked := fun _ => 0
  handedBack := fun _ => []
  released := fun _ => 0
  nullDereference := false

/-- The members of a task. -/
def memory (s : System ι) (t : Nat) : Task ι :=
  s.m_TaskAllocator.storage (s.pointer t)

/-- Writes to the members of a task. -/
def write (t : Nat) (task : Task ι) (s : System ι) : System ι :=
  { s with m_TaskAllocator := { s.m_TaskAllocator with
      storage := Function.update s.m_TaskAllocator.storage (s.pointer t) task } }

/-- `Aquire`, and the creator fills the task in. -/
def create (task : Task ι) (s : System ι) : System ι :=
  let ret := @FreeList.aquire _ (Task.object task.m_CurrentProcessor) TaskAllocator.capacity
    s.m_TaskAllocator
  { s with
    m_TaskAllocator := { ret.2 with storage := Function.update ret.2.storage ret.1 task }
    pointer := Function.update s.pointer s.created ret.1
    creator := Function.update s.creator s.created task.m_CurrentProcessor
    created := s.created + 1 }

/-- `TaskAllocator::Release`. -/
def release (t : Nat) (s : System ι) : System ι :=
  { s with
    m_TaskAllocator := @FreeList.release _ (Task.object none) TaskAllocator.capacity (s.pointer t)
      s.m_TaskAllocator
    released := Function.update s.released t (s.released t + 1) }

/-- Writes the state of a thread. -/
def setThread (p : ι) (thread : TaskThread Nat) (s : System ι) : System ι :=
  { s with threads := Function.update s.threads p thread }

/-- `TaskThread::SubmitTask`. -/
def submit (address : Ptr → Nat) (task : Nat) (p : ι) (s : System ι) : System ι :=
  match (s.threads p).m_Runnable with
  | some runner =>
    s.setThread p { s.threads p with
      m_Runnable := some (runner.postTask (fun t => address (s.pointer t)) task) }
  | none => { s with nullDereference := true }

/-- What a runner does to a task. -/
def apply (address : Ptr → Nat) (s : System ι) : Effect Nat ι → System ι
  | .follyFunc t | .handle t => { s with invoked := Function.update s.invoked t (s.invoked t + 1) }
  | .runTaskCB _ | .onFinish _ | .deleteCB _ => s
  | .handled t => s.write t { s.memory t with m_State := .TS_HANDLED }
  | .release t => s.release t
  | .handBack t p =>
    submit address t p { s.write t { s.memory t with m_SysAction := .SA_RELEASE_TASK } with
      handedBack := Function.update s.handedBack t (p :: s.handedBack t) }

/-- One step of the thread of the processor `p`. -/
def runThread (address : Ptr → Nat) (p : ι) (s : System ι) : Option (System ι) :=
  let thread := s.threads p
  match thread.pc, thread.m_Runnable with
  | .loop, some runner =>
    if thread.m_ThreadExit then some (s.setThread p { thread with pc := .exit })
    else some (s.setThread p { thread with m_Runnable := some runner.enter, pc := .run })
  | .run, some runner =>
    if runner.returned then some (s.setThread p { thread with pc := .loop })
    else
      (runner.doRun p s.memory).map fun r =>
        r.2.foldl (apply address) (s.setThread p { thread with m_Runnable := some r.1 })
  | .exit, some runner =>
    match runner.delete with
    | (some runner', effects) =>
      some (effects.foldl (apply address) (s.setThread p { thread with m_Runnable := some runner' }))
    | (none, _) => some (s.setThread p { thread with m_Runnable := none, pc := .gone })
  | _, _ => none

/-- One step of the system, until a null pointer is dereferenced. -/
def step (address : Ptr → Nat) (s : System ι) (a : Event ι) : Option (System ι) :=
  if s.nullDereference then none
  else
    match a with
    | .create task =>
      if task.m_SysAction = .SA_NONE ∨ task.m_SysAction = .SA_WAIT_NOTIFIER then
        some (s.create task)
      else none
    | .submitTask t p =>
      if t < s.created ∧ s.posted t = false then
        some (submit address t p { s with posted := Function.update s.posted t true })
      else none
    | .run p => s.runThread address p
    | .setFinished p =>
      let thread := s.threads p
      some (s.setThread p
        { thread with m_Runnable := thread.m_Runnable.map Runner.setFinished, stopping := true })
    | .threadExit p =>
      if (s.threads p).stopping then some (s.setThread p { s.threads p with m_ThreadExit := true })
      else none

variable {address : Ptr → Nat} {s s' : System ι} {a : Event ι} {p q : ι} {t : Nat}
  {runner : Runner Nat} {thread : TaskThread Nat}

/-- The thread that is set. -/
@[simp] lemma setThread_threads_self : (s.setThread p thread).threads p = thread :=
  Function.update_self ..

/-- The other threads stay. -/
lemma setThread_threads_ne (ne : q ≠ p) : (s.setThread p thread).threads q = s.threads q :=
  Function.update_of_ne ne ..

/-- `SubmitTask` posts to the runner of the thread. -/
lemma submit_of_some (h : (s.threads p).m_Runnable = some runner) : submit address t p s =
    s.setThread p { s.threads p with
      m_Runnable := some (runner.postTask (fun t => address (s.pointer t)) t) } := by
  unfold submit
  rw [h]

/-- What one step of the system can do. -/
lemma step_cases (st : Exec (step address) s a s') : s.nullDereference = false ∧
    ((∃ task, a = .create task ∧
      (task.m_SysAction = .SA_NONE ∨ task.m_SysAction = .SA_WAIT_NOTIFIER) ∧ s' = s.create task) ∨
    (∃ t p, a = .submitTask t p ∧ t < s.created ∧ s.posted t = false ∧
      s' = submit address t p { s with posted := Function.update s.posted t true }) ∨
    (∃ p, a = .run p ∧ s.runThread address p = some s') ∨
    (∃ p, a = .setFinished p ∧ s' = s.setThread p { s.threads p with
      m_Runnable := (s.threads p).m_Runnable.map Runner.setFinished, stopping := true }) ∨
    (∃ p, a = .threadExit p ∧ (s.threads p).stopping = true ∧
      s' = s.setThread p { s.threads p with m_ThreadExit := true })) := by
  unfold Exec step at st
  split at st
  next => cases st
  next alive =>
    refine ⟨by simpa using alive, ?_⟩
    cases a with
    | create task =>
      simp only at st
      split at st
      next h =>
        cases st
        exact .inl ⟨task, rfl, h, rfl⟩
      next => cases st
    | submitTask t p =>
      simp only at st
      split at st
      next h =>
        cases st
        exact .inr (.inl ⟨t, p, rfl, h.1, h.2, rfl⟩)
      next => cases st
    | run p => exact .inr (.inr (.inl ⟨p, rfl, st⟩))
    | setFinished p =>
      cases st
      exact .inr (.inr (.inr (.inl ⟨p, rfl, rfl⟩)))
    | threadExit p =>
      simp only at st
      split at st
      next h =>
        cases st
        exact .inr (.inr (.inr (.inr ⟨p, rfl, h, rfl⟩)))
      next => cases st

/-- What one step of a thread can do. -/
lemma runThread_cases (st : s.runThread address p = some s') :
    ∃ runner, (s.threads p).m_Runnable = some runner ∧
    (((s.threads p).pc = .loop ∧ (s.threads p).m_ThreadExit = true ∧
      s' = s.setThread p { s.threads p with pc := .exit }) ∨
    ((s.threads p).pc = .loop ∧ (s.threads p).m_ThreadExit = false ∧
      s' = s.setThread p { s.threads p with m_Runnable := some runner.enter, pc := .run }) ∨
    ((s.threads p).pc = .run ∧ runner.returned = true ∧
      s' = s.setThread p { s.threads p with pc := .loop }) ∨
    ((s.threads p).pc = .run ∧ ∃ runner' effects,
      runner.doRun p s.memory = some (runner', effects) ∧
      s' = effects.foldl (apply address)
        (s.setThread p { s.threads p with m_Runnable := some runner' })) ∨
    ((s.threads p).pc = .exit ∧ ∃ runner' effects, runner.delete = (some runner', effects) ∧
      s' = effects.foldl (apply address)
        (s.setThread p { s.threads p with m_Runnable := some runner' })) ∨
    ((s.threads p).pc = .exit ∧
      s' = s.setThread p { s.threads p with m_Runnable := none, pc := .gone })) := by
  unfold runThread at st
  simp only at st
  split at st
  next runner hpc hrun =>
    refine ⟨runner, hrun, ?_⟩
    split at st
    next h =>
      cases st
      exact .inl ⟨hpc, h, rfl⟩
    next h =>
      cases st
      exact .inr (.inl ⟨hpc, by simpa using h, rfl⟩)
  next runner hpc hrun =>
    refine ⟨runner, hrun, ?_⟩
    split at st
    next h =>
      cases st
      exact .inr (.inr (.inl ⟨hpc, h, rfl⟩))
    next h =>
      obtain ⟨⟨runner', effects⟩, e, rfl⟩ := Option.map_eq_some_iff.mp st
      exact .inr (.inr (.inr (.inl ⟨hpc, runner', effects, e, rfl⟩)))
  next runner hpc hrun =>
    refine ⟨runner, hrun, ?_⟩
    split at st
    next runner' effects e =>
      cases st
      exact .inr (.inr (.inr (.inr (.inl ⟨hpc, runner', effects, e, rfl⟩))))
    next =>
      cases st
      exact .inr (.inr (.inr (.inr (.inr ⟨hpc, rfl⟩))))
  next => cases st

end System
end XLN
