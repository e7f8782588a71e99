import XLN.Lib.Transition
import XLN.Utility.Pool
import XLN.Foundation.ThreadPool
import XLN.Foundation.Task.MPMCTaskRunner

/-!
# The thread pool executor

`Core/Foundation/Executor/ThreadPoolExecutor.cpp` and `CPUThreadPoolExecutor.cpp`: a list of calls that
one thread makes on an executor, together with the worker threads of its pool. `step` is one step of one
of these threads. A pointer in the queue carries the number of the acquisition it comes from, so that
`TaskRecord` can tell the tasks apart whose storage `TaskAllocator` has handed out again; the code does
not see this number.
-/

namespace XLN
open Transition

/-- A pointer to a task, and which acquisition it comes from. -/
structure TaskPtr where
  task : Ptr
  acquisition : Nat
  deriving DecidableEq

/-- `TaskAllocator`, and what has been done to the tasks acquired from it: how many there are, how often
    each function has been run, how often each task has been released, and which ones another
    processor has been handed back. -/
structure TaskRecord (ι : Type) where
  m_TaskAllocator : FreeList (Task ι)
  acquired : Nat
  ran : Nat → Nat
  released : Nat → Nat
  handedBack : List TaskPtr

namespace TaskRecord

variable {ι : Type}

/-- The constructor on a thread whose `TaskProcessor::GetCurrent()` is `current`, and the destructor. -/
abbrev object (current : Option ι) : Object (Task ι) where
  construct := Task.construct current
  destruct := Task.reset

/-- `TaskAllocator` is a `FreeList<Task, 2048>`. -/
def capacity : Nat := 2048

/-- What a pointer points to. -/
def memory (r : TaskRecord ι) (t : TaskPtr) : Task ι :=
  r.m_TaskAllocator.storage t.task

/-- Writes to a task. -/
def write (t : TaskPtr) (task : Task ι) (r : TaskRecord ι) : TaskRecord ι :=
  { r with m_TaskAllocator := { r.m_TaskAllocator with
      storage := Function.update r.m_TaskAllocator.storage t.task task } }

/-- `CPUThreadPoolExecutor::AllocateTask`. -/
def allocateTask (current : Option ι) (r : TaskRecord ι) : TaskPtr × TaskRecord ι :=
  letI := object current
  let ret := r.m_TaskAllocator.aquire capacity
  (⟨ret.1, r.acquired⟩, { r with m_TaskAllocator := ret.2, acquired := r.acquired + 1 })

/-- `CPUThreadPoolExecutor::DeallocateTask`. -/
def deallocateTask (t : TaskPtr) (r : TaskRecord ι) : TaskRecord ι :=
  letI := object (none : Option ι)
  { r with
    m_TaskAllocator := r.m_TaskAllocator.release capacity t.task
    released := Function.update r.released t.acquisition (r.released t.acquisition + 1) }

/-- What a worker does to a task. Every `m_DeleteCB` is `DeallocateTask`. -/
def apply (r : TaskRecord ι) : Effect TaskPtr ι → TaskRecord ι
  | .follyFunc t =>
    match (r.memory t).m_FollyFunc with
    | some func => { r with ran := Function.update r.ran func (r.ran func + 1) }
    | none => r
  | .handle _ | .runTaskCB _ | .onFinish _ => r
  | .handled t => r.write t { r.memory t with m_State := .TS_HANDLED }
  | .release t | .deleteCB t => r.deallocateTask t
  | .handBack t _ =>
    let r' := r.write t { r.memory t with m_SysAction := .SA_RELEASE_TASK }
    { r' with handedBack := t :: r'.handedBack }

end TaskRecord

/-- Where a worker thread is: in `DoRun`, at the `post` of `AddStoppingThread`, or at its end. With
    `RunPc.returned` it is at the `push` of `AddStoppingThread`. -/
inductive WorkerPc where
  | doRun (pc : RunPc TaskPtr)
  | post
  | ended
  deriving DecidableEq

/-- The calls on the executor. -/
inductive CPUThreadPoolExecutor.Call where
  | setMaxThread (numOfThread : Nat)
  | add (func : Nat)
  | stopAllThread
  deriving DecidableEq

/-- Where a `Post` goes on: after `add`, or in the loop of `ThreadPool::RemoveThread` with `left` more
    calls of `Exit`. -/
inductive AfterPost where
  | add
  | exit (left num : Nat)
  deriving DecidableEq

/-- Where the thread is that makes the calls: between two of them, in the loop of `AddThread`, in `add`
    after `AllocateTask`, in `Post`, in the loop of `RemoveThread`, in `Exit` after `AllocateTask`, at
    the `Take`, its `wait` and the `join` of `JoinStoppedThread`, or out with an exception. `left` is
    what a loop has yet to do, `num` the argument of `RemoveThread`. -/
inductive CallerPc where
  | ready
  | addThread (left : Nat)
  | fill (t : TaskPtr) (func : Nat)
  | post (t : TaskPtr) (pc : AddPc) (after : AfterPost)
  | exit (left num : Nat)
  | posion (t : TaskPtr) (left num : Nat)
  | take (left num : Nat)
  | wait (left num : Nat)
  | join (thread left num : Nat)
  | thrown
  deriving DecidableEq

/-- `CPUThreadPoolExecutor` with its threads and the calls yet to be made. -/
structure CPUThreadPoolExecutor (ι : Type) where
  m_TaskQueue : LifoSemBlockingQueue TaskPtr
  m_ThreadPool : ThreadPool
  m_CurThreadCount : Nat
  nextUID : Nat
  workers : Nat → WorkerPc
  calls : List CPUThreadPoolExecutor.Call
  pc : CallerPc
  tasks : TaskRecord ι

namespace CPUThreadPoolExecutor

variable {ι : Type} [DecidableEq ι]

omit [DecidableEq ι] in
/-- The constructor, with `TaskAllocator` in any state. -/
def new (m_TaskAllocator : FreeList (Task ι)) (calls : List Call) : CPUThreadPoolExecutor ι where
  m_TaskQueue := .new LifoSemBlockingQueue.s_DefultCapacity
  m_ThreadPool := .new
  m_CurThreadCount := 0
  nextUID := 0
  workers := fun _ => .ended
  calls := calls
  pc := .ready
  tasks := {
    m_TaskAllocator := m_TaskAllocator
    acquired := 0
    ran := fun _ => 0
    released := fun _ => 0
    handedBack := [] }

omit [DecidableEq ι] in
/-- `ThreadPoolExecutor::RemoveThread` begins: `m_ThreadPool.RemoveThread(threadToRemove)` calls `Exit`
    as often as there are threads, `JoinStoppedThread` waits for all of `threadToRemove`. -/
def removeThread (threadToRemove : Nat) (s : CPUThreadPoolExecutor ι) : CPUThreadPoolExecutor ι :=
  { s with pc := .exit (min s.m_ThreadPool.m_Threads.size threadToRemove) threadToRemove }

omit [DecidableEq ι] in
/-- `ThreadPoolExecutor::SetMaxThread` begins. -/
def setMaxThread (numOfThread : Nat) (s : CPUThreadPoolExecutor ι) : CPUThreadPoolExecutor ι :=
  if s.m_CurThreadCount ≠ numOfThread then
    if s.m_CurThreadCount > numOfThread then s.removeThread (s.m_CurThreadCount - numOfThread)
    else { s with pc := .addThread (numOfThread - s.m_CurThreadCount) }
  else s

omit [DecidableEq ι] in
/-- A call begins; `add` with `AllocateTask`. -/
def begin (current : Option ι) (s : CPUThreadPoolExecutor ι) : Call → CPUThreadPoolExecutor ι
  | .setMaxThread numOfThread => s.setMaxThread numOfThread
  | .add func =>
    let ret := s.tasks.allocateTask current
    { s with tasks := ret.2, pc := .fill ret.1 func }
  | .stopAllThread => s.removeThread s.m_CurThreadCount

omit [DecidableEq ι] in
/-- One step of the thread that makes the calls. -/
def caller (current : Option ι) (s : CPUThreadPoolExecutor ι) : Option (CPUThreadPoolExecutor ι) :=
  match s.pc with
  | .ready =>
    match s.calls with
    | call :: calls => some ({ s with calls := calls }.begin current call)
    | [] => none
  | .addThread 0 => some { s with m_CurThreadCount := s.m_ThreadPool.m_Threads.size, pc := .ready }
  | .addThread (left + 1) =>
    -- the thread starts before it is added to the list, which only this thread reads
    some { s with
      m_ThreadPool := { s.m_ThreadPool with m_Threads := s.m_ThreadPool.m_Threads.add s.nextUID }
      nextUID := s.nextUID + 1
      workers := Function.update s.workers s.nextUID (.doRun .read)
      pc := .addThread left }
  | .fill t func =>
    some { s with
      tasks := s.tasks.write t
        { s.tasks.memory t with m_DeleteCB := some 0, m_FollyFunc := some func }
      pc := .post t .start .add }
  | .post t pc after =>
    match pc, after with
    | .returned, .add => some { s with pc := .ready }
    | .returned, .exit left num => some { s with pc := .exit left num }
    | .thrown, _ => some { s with pc := .thrown }
    | _, _ =>
      (s.m_TaskQueue.add .THROW t pc).map fun r =>
        { s with m_TaskQueue := r.2, pc := .post t r.1 after }
  | .exit 0 num => some { s with pc := .take num num }
  | .exit (left + 1) num =>
    let ret := s.tasks.allocateTask current
    some { s with tasks := ret.2, pc := .posion ret.1 left num }
  | .posion t left num =>
    some { s with
      tasks := s.tasks.write t (s.tasks.memory t).setPosion
      pc := .post t .start (.exit left num) }
  | .take 0 _ => some { s with m_CurThreadCount := s.m_ThreadPool.m_Threads.size, pc := .ready }
  | .take (left + 1) num =>
    match s.m_ThreadPool.m_StoppedThread.pop with
    | some (thread, queue) =>
      some { s with
        m_ThreadPool := { s.m_ThreadPool with m_StoppedThread := queue }
        pc := .join thread left num }
    | none => some { s with pc := .wait (left + 1) num }
  | .wait left num =>
    s.m_ThreadPool.m_StoppedThread.wait.map fun queue =>
      { s with
        m_ThreadPool := { s.m_ThreadPool with m_StoppedThread := queue }
        pc := .take left num }
  | .join thread left num =>
    -- a failed `CHECK` ends the process
    if s.workers thread = .ended then
      (s.m_ThreadPool.m_Threads.remove thread).map fun threads =>
        { s with
          m_ThreadPool := { s.m_ThreadPool with m_Threads := threads }
          pc := .take left num }
    else none
  | .thrown => none

/-- One step of `CPUThreadPoolExecutor::RunThread` on the thread `w`, which has no processor. -/
def runThread (w : Nat) (s : CPUThreadPoolExecutor ι) : Option (CPUThreadPoolExecutor ι) :=
  match s.workers w with
  | .doRun .returned =>
    some { s with
      m_ThreadPool := { s.m_ThreadPool with
        m_StoppedThread := s.m_ThreadPool.m_StoppedThread.push w }
      workers := Function.update s.workers w .post }
  | .doRun pc =>
    (MPMCTaskRunner.doRun none true s.tasks.memory s.m_TaskQueue pc).map fun r =>
      { s with
        m_TaskQueue := r.2.1
        workers := Function.update s.workers w (.doRun r.1)
        tasks := r.2.2.foldl TaskRecord.apply s.tasks }
  | .post =>
    some { s with
      m_ThreadPool := { s.m_ThreadPool with
        m_StoppedThread := s.m_ThreadPool.m_StoppedThread.post }
      workers := Function.update s.workers w .ended }
  | .ended => none

/-- The next step: of the thread that makes the calls, of a worker, or of a processor that finishes a
    task which it has been handed back. -/
inductive Event where
  | caller
  | worker (w : Nat)
  | finish (t : TaskPtr)

/-- One step of one thread; `current` is the `TaskProcessor::GetCurrent()` of the calling one. -/
def step (current : Option ι) (s : CPUThreadPoolExecutor ι) :
    Event → Option (CPUThreadPoolExecutor ι)
  | .caller => s.caller current
  | .worker w => s.runThread w
  | .finish t =>
    if t ∈ s.tasks.handedBack then
      let tasks := s.tasks.deallocateTask t
      some { s with tasks := { tasks with handedBack := tasks.handedBack.erase t } }
    else none

variable {current : Option ι} {s s' : CPUThreadPoolExecutor ι} {w : Nat}

omit [DecidableEq ι] in
/-- What one step of the calling thread can do. -/
inductive CallerMove (current : Option ι) (s : CPUThreadPoolExecutor ι) :
    CPUThreadPoolExecutor ι → Prop where
  | begin {call calls} :
    s.pc = .ready →
    s.calls = call :: calls →
    CallerMove current s ({ s with calls := calls }.begin current call)
  | threadsAdded :
    s.pc = .addThread 0 →
    CallerMove current s { s with m_CurThreadCount := s.m_ThreadPool.m_Threads.size, pc := .ready }
  | createThread {left} :
    s.pc = .addThread (left + 1) →
    CallerMove current s { s with
      m_ThreadPool := { s.m_ThreadPool with m_Threads := s.m_ThreadPool.m_Threads.add s.nextUID }
      nextUID := s.nextUID + 1
      workers := Function.update s.workers s.nextUID (.doRun .read)
      pc := .addThread left }
  | fill {t func} :
    s.pc = .fill t func →
    CallerMove current s { s with
      tasks := s.tasks.write t
        { s.tasks.memory t with m_DeleteCB := some 0, m_FollyFunc := some func }
      pc := .post t .start .add }
  | added {t} :
    s.pc = .post t .returned .add →
    CallerMove current s { s with pc := .ready }
  | exited {t left num} :
    s.pc = .post t .returned (.exit left num) →
    CallerMove current s { s with pc := .exit left num }
  | thrown {t after} :
    s.pc = .post t .thrown after →
    CallerMove current s { s with pc := .thrown }
  | post {t pc pc' after queue} :
    s.pc = .post t pc after →
    s.m_TaskQueue.add .THROW t pc = some (pc', queue) →
    CallerMove current s { s with m_TaskQueue := queue, pc := .post t pc' after }
  | exitsDone {num} :
    s.pc = .exit 0 num →
    CallerMove current s { s with pc := .take num num }
  | exit {left num} :
    s.pc = .exit (left + 1) num →
    CallerMove current s { s with
      tasks := (s.tasks.allocateTask current).2
      pc := .posion (s.tasks.allocateTask current).1 left num }
  | posion {t left num} :
    s.pc = .posion t left num →
    CallerMove current s { s with
      tasks := s.tasks.write t (s.tasks.memory t).setPosion
      pc := .post t .start (.exit left num) }
  | joined {num} :
    s.pc = .take 0 num →
    CallerMove current s { s with m_CurThreadCount := s.m_ThreadPool.m_Threads.size, pc := .ready }
  | take {thread queue left num} :
    s.pc = .take (left + 1) num →
    s.m_ThreadPool.m_StoppedThread.pop = some (thread, queue) →
    CallerMove current s { s with
      m_ThreadPool := { s.m_ThreadPool with m_StoppedThread := queue }
      pc := .join thread left num }
  | await {left num} :
    s.pc = .take (left + 1) num →
    CallerMove current s { s with pc := .wait (left + 1) num }
  | wait {queue left num} :
    s.pc = .wait left num →
    s.m_ThreadPool.m_StoppedThread.wait = some queue →
    CallerMove current s { s with
      m_ThreadPool := { s.m_ThreadPool with m_StoppedThread := queue }
      pc := .take left num }
  | join {thread threads left num} :
    s.pc = .join thread left num →
    s.workers thread = .ended →
    s.m_ThreadPool.m_Threads.remove thread = some threads →
    CallerMove current s { s with
      m_ThreadPool := { s.m_ThreadPool with m_Threads := threads }
      pc := .take left num }

omit [DecidableEq ι] in
/-- A step of the caller is one of the moves. -/
lemma caller_move (st : s.caller current = some s') : CallerMove current s s' := by
  unfold caller at st
  split at st
  next pc =>
    split at st
    next calls =>
      cases st
      exact .begin pc calls
    next => cases st
  next pc =>
    cases st
    exact .threadsAdded pc
  next pc =>
    cases st
    exact .createThread pc
  next pc =>
    cases st
    exact .fill pc
  next pc =>
    split at st
    next =>
      cases st
      exact .added pc
    next =>
      cases st
      exact .exited pc
    next =>
      cases st
      exact .thrown pc
    next =>
      obtain ⟨r, e, rfl⟩ := Option.map_eq_some_iff.mp st
      exact .post pc e
  next pc =>
    cases st
    exact .exitsDone pc
  next pc =>
    cases st
    exact .exit pc
  next pc =>
    cases st
    exact .posion pc
  next pc =>
    cases st
    exact .joined pc
  next pc =>
    split at st
    next e =>
      cases st
      exact .take pc e
    next =>
      cases st
      exact .await pc
  next pc =>
    obtain ⟨queue, e, rfl⟩ := Option.map_eq_some_iff.mp st
    exact .wait pc e
  next pc =>
    split at st
    next ended =>
      obtain ⟨threads, e, rfl⟩ := Option.map_eq_some_iff.mp st
      exact .join pc ended e
    next => cases st
  next => cases st

/-- What one step of the worker `w` can do. -/
inductive WorkerMove (w : Nat) (s : CPUThreadPoolExecutor ι) : CPUThreadPoolExecutor ι → Prop where
  | read {t queue} :
    s.workers w = .doRun .read →
    s.m_TaskQueue.readIfNotEmpty = some (t, queue) →
    WorkerMove w s { s with
      m_TaskQueue := queue
      workers := Function.update s.workers w (.doRun (.dispatch t)) }
  | await :
    s.workers w = .doRun .read →
    WorkerMove w s { s with workers := Function.update s.workers w (.doRun .wait) }
  | wait {queue} :
    s.workers w = .doRun .wait →
    s.m_TaskQueue.wait = some queue →
    WorkerMove w s { s with
      m_TaskQueue := queue
      workers := Function.update s.workers w (.doRun .read) }
  | quit {t} :
    s.workers w = .doRun (.dispatch t) →
    (s.tasks.memory t).m_SysAction = .SA_QUIT_RUNNER →
    WorkerMove w s { s with workers := Function.update s.workers w (.doRun .returned) }
  | dispatch {t pc} {effects : List (Effect TaskPtr ι)} :
    s.workers w = .doRun (.dispatch t) →
    (s.tasks.memory t).m_SysAction ≠ .SA_QUIT_RUNNER →
    pc = .read ∨ pc = .settle t →
    (∀ e ∈ effects, e.task = t) →
    WorkerMove w s { s with
      workers := Function.update s.workers w (.doRun pc)
      tasks := effects.foldl TaskRecord.apply s.tasks }
  | settle {t} {effects : List (Effect TaskPtr ι)} :
    s.workers w = .doRun (.settle t) →
    (∀ e ∈ effects, e.task = t) →
    WorkerMove w s { s with
      workers := Function.update s.workers w (.doRun .read)
      tasks := effects.foldl TaskRecord.apply s.tasks }
  | stopping :
    s.workers w = .doRun .returned →
    WorkerMove w s { s with
      m_ThreadPool := { s.m_ThreadPool with
        m_StoppedThread := s.m_ThreadPool.m_StoppedThread.push w }
      workers := Function.update s.workers w .post }
  | stopped :
    s.workers w = .post →
    WorkerMove w s { s with
      m_ThreadPool := { s.m_ThreadPool with
        m_StoppedThread := s.m_ThreadPool.m_StoppedThread.post }
      workers := Function.update s.workers w .ended }

/-- A step of a worker is one of the moves. -/
lemma runThread_move (st : s.runThread w = some s') : WorkerMove w s s' := by
  unfold runThread at st
  split at st
  next here =>
    cases st
    exact .stopping here
  next pc _ here =>
    obtain ⟨r, e, rfl⟩ := Option.map_eq_some_iff.mp st
    cases pc with
    | read =>
      simp only [MPMCTaskRunner.doRun] at e
      split at e
      next taken =>
        cases e
        exact .read here taken
      next =>
        cases e
        exact .await here
    | wait =>
      obtain ⟨queue, waited, e⟩ := Option.map_eq_some_iff.mp e
      cases e
      exact .wait here waited
    | dispatch t =>
      simp only [MPMCTaskRunner.doRun] at e
      split at e
      next quit =>
        cases e
        exact .quit here quit
      next action =>
        split at e
        next =>
          cases e
          exact .dispatch here action (.inl rfl) fun _ => MPMCTaskRunner.finish_task
        next =>
          cases e
          refine .dispatch here action (.inr rfl) fun e mem => ?_
          rcases List.mem_append.mp mem with mem | mem
          · exact MPMCTaskRunner.invoke_task mem
          · cases List.mem_singleton.mp mem
            rfl
    | settle t =>
      cases e
      exact .settle here fun _ => MPMCTaskRunner.settle_task
    | returned => cases e
  next here =>
    cases st
    exact .stopped here
  next => cases st

/-- A processor releases a task that it has been handed back. -/
lemma finish_move {t : TaskPtr} (st : Exec (step current) s (.finish t) s') :
    t ∈ s.tasks.handedBack ∧ s' = { s with tasks := { s.tasks.deallocateTask t with
      handedBack := (s.tasks.deallocateTask t).handedBack.erase t } } := by
  simp only [Exec, step] at st
  split at st
  next mem =>
    cases st
    exact ⟨mem, rfl⟩
  next => cases st

end CPUThreadPoolExecutor
end XLN
