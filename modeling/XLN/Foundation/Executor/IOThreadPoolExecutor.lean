import Mathlib.Algebra.Ring.Nat
import XLN.Lib.Transition
import XLN.Foundation.ThreadPool

/-!
# The IO thread pool executor

`Core/Foundation/Executor/IOThreadPoolExecutor.cpp` with its base class: a list of calls that one thread
outside the pool makes on an executor, together with the threads of the pool, which run the functions
on their event bases and may call `add` themselves. A function is known by the number of its `add`; for
each `add` that reaches an event base the state records which one.
-/

namespace XLN
open Transition

/-- Where a thread of the pool is: in `loopForever`, which ends after `terminateLoopSoon`, at the `push`
    or the `post` of `AddStoppingThread`, or at its end. -/
inductive IOThreadPc where
  | loopForever (stop : Bool)
  | push
  | post
  | ended
  deriving DecidableEq

/-- `IOThread::Exit`. -/
def IOThreadPc.exit : IOThreadPc → IOThreadPc
  | loopForever _ => loopForever true
  | pc => pc

/-- A function that has been handed to the event base of `thread`, and the threads of the pool then. -/
structure Handing where
  func : Nat
  thread : Nat
  m_Threads : List Nat

/-- The calls on the executor. `wait` is a `barrier->wait()` of the caller, for the end of the function
    that it has passed to `add` last. -/
inductive IOThreadPoolExecutor.Call where
  | setMaxThread (numOfThread : Nat)
  | add
  | wait
  | stopAllThread
  deriving DecidableEq

/-- Where the thread is that makes the calls: between two of them, in the loop of `AddThread`, in the loop
    of `ThreadPool::RemoveThread` with the threads that have yet to `Exit`, at the `Take`, its `wait`
    and the `join` of `JoinStoppedThread`. `num` and `left` are the threads to be joined. -/
inductive IOCallerPc where
  | ready
  | addThread (left : Nat)
  | exit (threads : List Nat) (num : Nat)
  | take (left : Nat)
  | wait (left : Nat)
  | join (thread left : Nat)
  deriving DecidableEq

/-- `IOThreadPoolExecutor` with its threads and the calls yet to be made. -/
structure IOThreadPoolExecutor where
  m_ThreadPool : ThreadPool
  m_CurrentPickThread : Nat
  m_CurThreadCount : Nat
  nextUID : Nat
  threads : Nat → IOThreadPc
  m_EventBase : Nat → List Nat
  calls : List IOThreadPoolExecutor.Call
  pc : IOCallerPc
  adds : Nat
  barrier : Nat
  handed : List Handing
  ran : List Nat

namespace IOThreadPoolExecutor

/-- The constructor. -/
def new (calls : List Call) : IOThreadPoolExecutor where
  m_ThreadPool := .new
  m_CurrentPickThread := 0
  m_CurThreadCount := 0
  nextUID := 0
  threads := fun _ => .ended
  m_EventBase := fun _ => []
  calls := calls
  pc := .ready
  adds := 0
  barrier := 0
  handed := []
  ran := []

/-- `ThreadPool::PickThread`, with a null pointer if there is no thread. -/
def pickThread (s : IOThreadPoolExecutor) : Option Nat × IOThreadPoolExecutor :=
  let count := s.m_ThreadPool.m_Threads.size
  if count = 0 then (none, s)
  else
    let pickCount := s.m_CurrentPickThread % count
    (s.m_ThreadPool.m_Threads.m_Threads[pickCount]?,
      { s with m_CurrentPickThread := (s.m_CurrentPickThread + 1) % 2 ^ 64 })

/-- `EventBase::runInEventBaseThread`. -/
def runInEventBaseThread (ioThread func : Nat) (s : IOThreadPoolExecutor) : IOThreadPoolExecutor :=
  { s with
    m_EventBase := Function.update s.m_EventBase ioThread (s.m_EventBase ioThread ++ [func])
    handed := s.handed ++ [⟨func, ioThread, s.m_ThreadPool.m_Threads.m_Threads⟩] }

/-- `add`, called where `m_ThisThread` is null or a thread of the pool. -/
def add (m_ThisThread : Option Nat) (s : IOThreadPoolExecutor) : IOThreadPoolExecutor :=
  let func := s.adds
  let s := { s with adds := s.adds + 1 }
  let ret := match m_ThisThread with
    | some ioThread => (some ioThread, s)
    | none => s.pickThread
  match ret.1 with
  | some ioThread => ret.2.runInEventBaseThread ioThread func
  | none => ret.2

/-- `ThreadPoolExecutor::RemoveThread` begins: `m_ThreadPool.RemoveThread(threadToRemove)` lets the first
    threads of the list `Exit`, `JoinStoppedThread` waits for all of `threadToRemove`. -/
def removeThread (threadToRemove : Nat) (s : IOThreadPoolExecutor) : IOThreadPoolExecutor :=
  let actualRemove := min s.m_ThreadPool.m_Threads.size threadToRemove
  { s with pc := .exit (s.m_ThreadPool.m_Threads.m_Threads.take actualRemove) threadToRemove }

/-- `ThreadPoolExecutor::SetMaxThread` begins. -/
def setMaxThread (numOfThread : Nat) (s : IOThreadPoolExecutor) : IOThreadPoolExecutor :=
  if s.m_CurThreadCount ≠ numOfThread then
    if s.m_CurThreadCount > numOfThread then s.removeThread (s.m_CurThreadCount - numOfThread)
    else { s with pc := .addThread (numOfThread - s.m_CurThreadCount) }
  else s

/-- A call begins; an `add` is made in one step. -/
def begin (s : IOThreadPoolExecutor) : Call → Option IOThreadPoolExecutor
  | .setMaxThread numOfThread => some (s.setMaxThread numOfThread)
  | .add => some { s.add none with barrier := s.adds }
  | .wait => if s.barrier ∈ s.ran then some s else none
  | .stopAllThread => some (s.removeThread s.m_CurThreadCount)

/-- One step of the thread that makes the calls. -/
def caller (s : IOThreadPoolExecutor) : Option IOThreadPoolExecutor :=
  match s.pc with
  | .ready =>
    match s.calls with
    | call :: calls => { s with calls := calls }.begin call
    | [] => none
  | .addThread 0 => some { s with m_CurThreadCount := s.m_ThreadPool.m_Threads.size, pc := .ready }
  | .addThread (left + 1) =>
    -- `SetThread` waits until the thread is about to enter its loop
    some { s with
      m_ThreadPool := { s.m_ThreadPool with m_Threads := s.m_ThreadPool.m_Threads.add s.nextUID }
      nextUID := s.nextUID + 1
      threads := Function.update s.threads s.nextUID (.loopForever false)
      pc := .addThread left }
  | .exit [] num => some { s with pc := .take num }
  | .exit (thread :: threads) num =>
    some { s with
      threads := Function.update s.threads thread (s.threads thread).exit
      pc := .exit threads num }
  | .take 0 => some { s with m_CurThreadCount := s.m_ThreadPool.m_Threads.size, pc := .ready }
  | .take (left + 1) =>
    match s.m_ThreadPool.m_StoppedThread.pop with
    | some (thread, queue) =>
      some { s with
        m_ThreadPool := { s.m_ThreadPool with m_StoppedThread := queue }
        pc := .join thread left }
    | none => some { s with pc := .wait (left + 1) }
  | .wait left =>
    s.m_ThreadPool.m_StoppedThread.wait.map fun queue =>
      { s with
        m_ThreadPool := { s.m_ThreadPool with m_StoppedThread := queue }
        pc := .take left }
  | .join thread left =>
    -- a failed `CHECK` ends the process
    if s.threads thread = .ended then
      (s.m_ThreadPool.m_Threads.remove thread).map fun threads =>
        { s with
          m_ThreadPool := { s.m_ThreadPool with m_Threads := threads }
          pc := .take left }
    else none

/-- One step of `RunThread` on the thread `w`, but for the functions that its event base runs. -/
def runThread (w : Nat) (s : IOThreadPoolExecutor) : Option IOThreadPoolExecutor :=
  match s.threads w with
  | .loopForever true => some { s with threads := Function.update s.threads w .push }
  | .loopForever false => none
  | .push =>
    some { s with
      m_ThreadPool := { s.m_ThreadPool with
        m_StoppedThread := s.m_ThreadPool.m_StoppedThread.push w }
      threads := Function.update s.threads w .post }
  | .post =>
    some { s with
      m_ThreadPool := { s.m_ThreadPool with
        m_StoppedThread := s.m_ThreadPool.m_StoppedThread.post }
      threads := Function.update s.threads w .ended }
  | .ended => none

/-- The event base of `w` runs its next function. -/
def loop (w : Nat) (s : IOThreadPoolExecutor) : Option IOThreadPoolExecutor :=
  match s.threads w, s.m_EventBase w with
  | .loopForever _, func :: funcs =>
    some { s with
      m_EventBase := Function.update s.m_EventBase w funcs
      ran := func :: s.ran }
  | _, _ => none

/-- The next step: of the thread that makes the calls, of a thread of the pool, of its event base, or an
    `add` in a function that this runs. -/
inductive Event where
  | caller
  | thread (w : Nat)
  | loop (w : Nat)
  | add (w : Nat)

/-- One step of one thread. -/
def step (s : IOThreadPoolExecutor) : Event → Option IOThreadPoolExecutor
  | .caller => s.caller
  | .thread w => s.runThread w
  | .loop w => s.loop w
  | .add w =>
    match s.threads w with
    | .loopForever _ => some (s.add (some w))
    | _ => none

variable {s s' : IOThreadPoolExecutor} {a : Event}

/-- What one step can do. -/
inductive Move (s : IOThreadPoolExecutor) : Event → IOThreadPoolExecutor → Prop where
  | setMaxThread {numOfThread calls} :
    s.pc = .ready →
    s.calls = .setMaxThread numOfThread :: calls →
    Move s .caller ({ s with calls := calls }.setMaxThread numOfThread)
  | add {calls} :
    s.pc = .ready →
    s.calls = .add :: calls →
    Move s .caller { { s with calls := calls }.add none with barrier := s.adds }
  | waited {calls} :
    s.pc = .ready →
    s.calls = .wait :: calls →
    s.barrier ∈ s.ran →
    Move s .caller { s with calls := calls }
  | stopAllThread {calls} :
    s.pc = .ready →
    s.calls = .stopAllThread :: calls →
    Move s .caller ({ s with calls := calls }.removeThread s.m_CurThreadCount)
  | threadsAdded :
    s.pc = .addThread 0 →
    Move s .caller
      { s with m_CurThreadCount := s.m_ThreadPool.m_Threads.size, pc := .ready }
  | createThread {left} :
    s.pc = .addThread (left + 1) →
    Move s .caller { s with
      m_ThreadPool := { s.m_ThreadPool with m_Threads := s.m_ThreadPool.m_Threads.add s.nextUID }
      nextUID := s.nextUID + 1
      threads := Function.update s.threads s.nextUID (.loopForever false)
      pc := .addThread left }
  | exitsDone {num} :
    s.pc = .exit [] num →
    Move s .caller { s with pc := .take num }
  | exit {thread threads num} :
    s.pc = .exit (thread :: threads) num →
    Move s .caller { s with
      threads := Function.update s.threads thread (s.threads thread).exit
      pc := .exit threads num }
  | joined :
    s.pc = .take 0 →
    Move s .caller { s with m_CurThreadCount := s.m_ThreadPool.m_Threads.size, pc := .ready }
  | take {thread queue left} :
    s.pc = .take (left + 1) →
    s.m_ThreadPool.m_StoppedThread.pop = some (thread, queue) →
    Move s .caller { s with
      m_ThreadPool := { s.m_ThreadPool with m_StoppedThread := queue }
      pc := .join thread left }
  | await {left} :
    s.pc = .take (left + 1) →
    Move s .caller { s with pc := .wait (left + 1) }
  | wait {queue left} :
    s.pc = .wait left →
    s.m_ThreadPool.m_StoppedThread.wait = some queue →
    Move s .caller { s with
      m_ThreadPool := { s.m_ThreadPool with m_StoppedThread := queue }
      pc := .take left }
  | join {thread threads left} :
    s.pc = .join thread left →
    s.threads thread = .ended →
    s.m_ThreadPool.m_Threads.remove thread = some threads →
    Move s .caller { s with
      m_ThreadPool := { s.m_ThreadPool with m_Threads := threads }
      pc := .take left }
  | thread {w pc queue} :
    s.threads w ≠ .ended →
    Move s (.thread w) { s with
      m_ThreadPool := { s.m_ThreadPool with m_StoppedThread := queue }
      threads := Function.update s.threads w pc }
  | loop {w func funcs} :
    s.threads w ≠ .ended →
    s.m_EventBase w = func :: funcs →
    Move s (.loop w) { s with
      m_EventBase := Function.update s.m_EventBase w funcs
      ran := func :: s.ran }
  | addThis {w} :
    s.threads w ≠ .ended →
    Move s (.add w) (s.add (some w))

/-- A call that begins is one of the moves. -/
lemma begin_move {call : Call} {calls : List Call} (pc : s.pc = .ready)
    (pending : s.calls = call :: calls) (st : { s with calls := calls }.begin call = some s') :
    Move s .caller s' := by
  cases call with
  | setMaxThread numOfThread =>
    cases st
    exact .setMaxThread pc pending
  | add =>
    cases st
    exact .add pc pending
  | wait =>
    simp only [begin] at st
    split at st
    next ran =>
      cases st
      exact .waited pc pending ran
    next => cases st
  | stopAllThread =>
    cases st
    exact .stopAllThread pc pending

/-- A step of the caller is one of the moves. -/
lemma caller_move (st : s.caller = some s') : Move s .caller s' := by
  unfold caller at st
  split at st
  next pc =>
    split at st
    next pending => exact begin_move pc pending st
    next => cases st
  next pc =>
    cases st
    exact .threadsAdded pc
  next pc =>
    cases st
    exact .createThread pc
  next pc =>
    cases st
    exact .exitsDone pc
  next pc =>
    cases st
    exact .exit pc
  next pc =>
    cases st
    exact .joined pc
  next pc =>
    split at st
    next e =>
      cases st
      exact .take pc e
    next =>
      cases st
      exact .await pc
  next pc =>
    obtain ⟨queue, e, rfl⟩ := Option.map_eq_some_iff.mp st
    exact .wait pc e
  next pc =>
    split at st
    next ended =>
      obtain ⟨threads, e, rfl⟩ := Option.map_eq_some_iff.mp st
      exact .join pc ended e
    next => cases st

/-- A step of a thread is one of the moves. -/
lemma runThread_move {w : Nat} (st : s.runThread w = some s') : Move s (.thread w) s' := by
  unfold runThread at st
  split at st
  next here =>
    cases st
    exact .thread (by rw [here]; exact nofun)
  next => cases st
  next here =>
    cases st
    exact .thread (by rw [here]; exact nofun)
  next here =>
    cases st
    exact .thread (by rw [here]; exact nofun)
  next => cases st

/-- A round of an event base is one of the moves. -/
lemma loop_move {w : Nat} (st : s.loop w = some s') : Move s (.loop w) s' := by
  unfold loop at st
  split at st
  next here pending =>
    cases st
    exact .loop (by rw [here]; exact nofun) pending
  next => cases st

/-- Every step is one of the moves. -/
lemma step_move (st : Exec step s a s') : Move s a s' := by
  cases a with
  | caller => exact caller_move st
  | thread w => exact runThread_move st
  | loop w => exact loop_move st
  | add w =>
    simp only [Exec, step] at st
    split at st
    next here =>
      cases st
      exact .addThis (by rw [here]; exact nofun)
    next => cases st

/-! ## The number of threads -/

/-- The number of threads after a call, if there are `m` before it. -/
def Call.threads (m : Nat) : Call → Nat
  | .setMaxThread numOfThread => numOfThread
  | .add | .wait => m
  | .stopAllThread => 0

/-- There will be `m` threads when the current call returns. -/
def Counted (s : IOThreadPoolExecutor) (m : Nat) : Prop :=
  match s.pc with
  | .ready => s.m_CurThreadCount = m ∧ s.m_ThreadPool.m_Threads.size = m
  | .addThread left => s.m_ThreadPool.m_Threads.size + left = m
  | .exit _ num => s.m_ThreadPool.m_Threads.size = m + num
  | .take left | .wait left => s.m_ThreadPool.m_Threads.size = m + left
  | .join _ left => s.m_ThreadPool.m_Threads.size = m + left + 1

/-- A thread that has not ended is in the list. -/
def Accounted (s : IOThreadPoolExecutor) : Prop :=
  ∀ w, s.threads w ≠ .ended → w ∈ s.m_ThreadPool.m_Threads.m_Threads

variable {w m : Nat} {m_ThisThread : Option Nat}

/-- Between the calls both counters say how many threads there are. -/
lemma Counted.ready (h : s.Counted m) (ready : s.pc = .ready) :
    s.m_CurThreadCount = m ∧ s.m_ThreadPool.m_Threads.size = m := by
  unfold Counted at h
  rwa [ready] at h

/-- What `add` does, with the thread that it finds and without. -/
inductive Added (m_ThisThread : Option Nat) (s : IOThreadPoolExecutor) : IOThreadPoolExecutor → Prop where
  | handed {pick ioThread events} :
    m_ThisThread = some ioThread ∨ ioThread ∈ s.m_ThreadPool.m_Threads.m_Threads →
    Added m_ThisThread s { s with
      m_CurrentPickThread := pick
      adds := s.adds + 1
      m_EventBase := events
      handed := s.handed ++ [⟨s.adds, ioThread, s.m_ThreadPool.m_Threads.m_Threads⟩] }
  | dropped :
    m_ThisThread = none →
    s.m_ThreadPool.m_Threads.size = 0 →
    Added m_ThisThread s { s with adds := s.adds + 1 }

/-- What `add` does. -/
lemma add_added (m_ThisThread : Option Nat) (s : IOThreadPoolExecutor) :
    Added m_ThisThread s (s.add m_ThisThread) := by
  cases m_ThisThread with
  | some ioThread => exact .handed (.inl rfl)
  | none =>
    simp only [add, pickThread]
    by_cases empty : s.m_ThreadPool.m_Threads.size = 0
    · rw [if_pos empty]
      exact .dropped rfl empty
    · rw [if_neg empty]
      -- the index is in range
      have lt : s.m_CurrentPickThread % s.m_ThreadPool.m_Threads.size <
          s.m_ThreadPool.m_Threads.m_Threads.length :=
        Nat.mod_lt _ (Nat.pos_of_ne_zero empty)
      simp only [List.getElem?_eq_getElem lt]
      exact .handed (.inr (List.getElem_mem lt))

/-- Without threads an `add` from outside does nothing but count. -/
lemma add_none (empty : s.m_ThreadPool.m_Threads.size = 0) :
    s.add none = { s with adds := s.adds + 1 } := by
  simp only [add, pickThread, if_pos empty]

/-- `add` changes no thread. -/
lemma Added.frame (h : Added m_ThisThread s s') :
    s'.m_ThreadPool = s.m_ThreadPool ∧ s'.m_CurThreadCount = s.m_CurThreadCount ∧
      s'.threads = s.threads ∧ s'.calls = s.calls ∧ s'.pc = s.pc ∧ s'.adds = s.adds + 1 := by
  cases h with
  | handed | dropped => exact ⟨rfl, rfl, rfl, rfl, rfl, rfl⟩

/-- The counters depend on nothing else. -/
lemma counted_of_same (h : s.Counted m) (pool : s'.m_ThreadPool.m_Threads = s.m_ThreadPool.m_Threads)
    (count : s'.m_CurThreadCount = s.m_CurThreadCount) (pc : s'.pc = s.pc) : s'.Counted m := by
  unfold Counted at h ⊢
  rwa [pool, count, pc]

/-- `SetMaxThread` is going to make or stop as many threads as it should. -/
lemma setMaxThread_counted (numOfThread : Nat) (ready : s.pc = .ready)
    (h : s.Counted m) : (s.setMaxThread numOfThread).Counted numOfThread := by
  obtain ⟨count, size⟩ := h.ready ready
  unfold setMaxThread
  split
  next ne =>
    split
    next more =>
      show s.m_ThreadPool.m_Threads.size = numOfThread + (s.m_CurThreadCount - numOfThread)
      omega
    next less =>
      show s.m_ThreadPool.m_Threads.size + (numOfThread - s.m_CurThreadCount) = numOfThread
      omega
  next e =>
    unfold Counted
    rw [ready]
    have same : s.m_CurThreadCount = numOfThread := by omega
    exact ⟨same, by omega⟩

/-- `SetMaxThread` changes the place of the caller and the counter only. -/
lemma setMaxThread_frame (numOfThread : Nat) (s : IOThreadPoolExecutor) :
    ∃ pc, s.setMaxThread numOfThread = { s with pc := pc } := by
  unfold setMaxThread
  split
  · split
    · exact ⟨_, rfl⟩
    · exact ⟨_, rfl⟩
  · exact ⟨s.pc, rfl⟩

/-- Every step leaves the calls alone or begins the next one. -/
lemma counted_move (h : s.Counted m) (move : Move s a s') :
    s'.calls = s.calls ∧ s'.Counted m ∨
    ∃ call, s.pc = .ready ∧ s.calls = call :: s'.calls ∧ s'.Counted (call.threads m) := by
  cases move with
  | @setMaxThread numOfThread calls ready pending =>
    obtain ⟨pc, e⟩ := setMaxThread_frame numOfThread { s with calls := calls }
    refine .inr ⟨.setMaxThread numOfThread, ready, by rw [e]; exact pending, ?_⟩
    exact setMaxThread_counted numOfThread ready (counted_of_same h rfl rfl rfl)
  | @add calls ready pending =>
    obtain ⟨pool, count, -, calls', pc, -⟩ := (add_added none { s with calls := calls }).frame
    refine .inr ⟨.add, ready, pending.trans (congrArg _ calls'.symm), ?_⟩
    exact counted_of_same h (congrArg ThreadPool.m_Threads pool) count pc
  | waited ready pending => exact .inr ⟨.wait, ready, pending, counted_of_same h rfl rfl rfl⟩
  | stopAllThread ready pending =>
    obtain ⟨count, size⟩ := h.ready ready
    refine .inr ⟨.stopAllThread, ready, pending, ?_⟩
    show s.m_ThreadPool.m_Threads.size = 0 + s.m_CurThreadCount
    omega
  | threadsAdded pc =>
    unfold Counted at h
    rw [pc] at h
    exact .inl ⟨rfl, h, h⟩
  | createThread pc =>
    unfold Counted at h
    rw [pc] at h
    have more : (s.m_ThreadPool.m_Threads.add s.nextUID).size = s.m_ThreadPool.m_Threads.size + 1 :=
      ThreadList.add_perm.length_eq
    refine .inl ⟨rfl, ?_⟩
    show (s.m_ThreadPool.m_Threads.add s.nextUID).size + _ = m
    omega
  | exitsDone pc | exit pc | await pc | wait pc | take pc =>
    unfold Counted at h
    rw [pc] at h
    exact .inl ⟨rfl, h⟩
  | joined pc =>
    unfold Counted at h
    rw [pc] at h
    exact .inl ⟨rfl, h, h⟩
  | @join thread threads left pc ended removed =>
    unfold Counted at h
    rw [pc] at h
    have fewer : s.m_ThreadPool.m_Threads.size = threads.size + 1 :=
      (ThreadList.remove_perm removed).length_eq
    refine .inl ⟨rfl, ?_⟩
    show threads.size = m + left
    omega
  | thread | loop => exact .inl ⟨rfl, counted_of_same h rfl rfl rfl⟩
  | @addThis w here =>
    obtain ⟨pool, count, -, calls, pc, -⟩ := (add_added (some w) s).frame
    exact .inl ⟨calls, counted_of_same h (congrArg ThreadPool.m_Threads pool) count pc⟩

/-- The account of the threads depends on nothing else. -/
lemma accounted_of_same (h : s.Accounted)
    (pool : s'.m_ThreadPool.m_Threads = s.m_ThreadPool.m_Threads) (threads : s'.threads = s.threads) :
    s'.Accounted := by
  unfold Accounted
  rw [pool, threads]
  exact h

/-- A thread that can be told to exit has not ended. -/
lemma exit_ended {pc : IOThreadPc} (running : pc.exit ≠ .ended) : pc ≠ .ended := by
  rintro rfl
  exact running rfl

/-- A move keeps the account of the threads. -/
lemma accounted_move (h : s.Accounted) (move : Move s a s') : s'.Accounted := by
  cases move with
  | @setMaxThread numOfThread calls =>
    obtain ⟨pc, e⟩ := setMaxThread_frame numOfThread { s with calls := calls }
    rw [e]
    exact h
  | @add calls =>
    obtain ⟨pool, -, threads, -⟩ := (add_added none { s with calls := calls }).frame
    exact accounted_of_same h (congrArg ThreadPool.m_Threads pool) threads
  | createThread pc => exact ThreadList.Covers.add h
  | exit pc => exact ThreadList.Covers.update h exit_ended
  | join pc ended removed => exact ThreadList.Covers.remove h ended removed
  | thread running => exact ThreadList.Covers.update h fun _ => running
  | @addThis w here =>
    obtain ⟨pool, -, threads, -⟩ := (add_added (some w) s).frame
    exact accounted_of_same h (congrArg ThreadPool.m_Threads pool) threads
  | waited | stopAllThread | threadsAdded | exitsDone | joined | take | await | wait | loop => exact h

/-! ## What becomes of a function -/

/-- Every function passed to `add` so far has been handed to exactly one event base, once, and its thread
    was a thread of the pool. -/
def Delivered (s : IOThreadPoolExecutor) : Prop :=
  ∀ func < s.adds, ∃ h, s.handed.filter (·.func = func) = [h] ∧ h.thread ∈ h.m_Threads

/-- If an `add` from outside the pool is next, there are threads. -/
def HasThread (s : IOThreadPoolExecutor) : Event → Prop
  | .caller => s.pc = .ready → s.calls.head? = some .add → s.m_CurThreadCount ≠ 0
  | _ => True

instance (s : IOThreadPoolExecutor) (a : Event) : Decidable (HasThread s a) := by
  cases a with
  | caller =>
    unfold HasThread
    infer_instance
  | thread | loop | add => exact instDecidableTrue

/-- Only functions passed to `add` are handed on. -/
def Numbered (s : IOThreadPoolExecutor) : Prop :=
  ∀ h ∈ s.handed, h.func < s.adds

/-- What a step means for the functions. -/
inductive Recorded (s : IOThreadPoolExecutor) (a : Event) (s' : IOThreadPoolExecutor) : Prop where
  | silent :
    s'.adds = s.adds →
    s'.handed = s.handed →
    Recorded s a s'
  | handed {ioThread} :
    ioThread ∈ s.m_ThreadPool.m_Threads.m_Threads →
    s'.adds = s.adds + 1 →
    s'.handed = s.handed ++ [⟨s.adds, ioThread, s.m_ThreadPool.m_Threads.m_Threads⟩] →
    Recorded s a s'
  | dropped :
    a = .caller →
    s.pc = .ready →
    s.calls.head? = some .add →
    s.m_ThreadPool.m_Threads.size = 0 →
    s'.adds = s.adds + 1 →
    s'.handed = s.handed →
    Recorded s a s'

/-- What a move adds to the records. -/
lemma move_recorded (h : s.Accounted) (move : Move s a s') : Recorded s a s' := by
  cases move with
  | @setMaxThread numOfThread calls =>
    obtain ⟨pc, e⟩ := setMaxThread_frame numOfThread { s with calls := calls }
    rw [e]
    exact .silent rfl rfl
  | @add calls ready pending =>
    have added := add_added none { s with calls := calls }
    generalize { s with calls := calls }.add none = s1 at added ⊢
    cases added with
    | handed found =>
      obtain this | mem := found
      · cases this
      · exact .handed mem rfl rfl
    | dropped _ empty => exact .dropped rfl ready (by rw [pending]; rfl) empty rfl rfl
  | @addThis w here =>
    have added := add_added (some w) s
    generalize s.add (some w) = s1 at added ⊢
    cases added with
    | handed found =>
      obtain this | mem := found
      · cases this
        exact .handed (h w here) rfl rfl
      · exact .handed mem rfl rfl
    | dropped none => cases none
  | waited | stopAllThread | threadsAdded | createThread | exitsDone | exit | joined | take | await
  | wait | join | thread | loop => exact .silent rfl rfl

/-- A move keeps the numbers of the functions. -/
lemma numbered_recorded (h : s.Numbered) (rec : Recorded s a s') : s'.Numbered := by
  unfold Numbered at h ⊢
  cases rec with
  | silent adds handed =>
    rw [adds, handed]
    exact h
  | handed _ adds handed =>
    rw [adds, handed]
    intro x mem
    rcases List.mem_append.mp mem with mem | mem
    · exact Nat.lt_succ_of_lt (h x mem)
    · cases List.mem_singleton.mp mem
      exact Nat.lt_succ_self _
  | dropped _ _ _ _ adds handed =>
    rw [adds, handed]
    exact fun x mem => Nat.lt_succ_of_lt (h x mem)

/-- The next function has not been handed to anyone. -/
lemma Numbered.fresh (h : s.Numbered) : s.handed.filter (·.func = s.adds) = [] := by
  apply List.filter_eq_nil_iff.mpr
  intro x mem same
  have lt := h x mem
  simp only [decide_eq_true_eq] at same
  omega

/-- A function that is handed to a thread is delivered. -/
lemma Delivered.hand {ioThread : Nat} (h : s.Delivered) (numbered : s.Numbered)
    (mem : ioThread ∈ s.m_ThreadPool.m_Threads.m_Threads) (adds : s'.adds = s.adds + 1)
    (handed : s'.handed =
      s.handed ++ [⟨s.adds, ioThread, s.m_ThreadPool.m_Threads.m_Threads⟩]) : s'.Delivered := by
  intro func lt
  rw [adds] at lt
  rw [handed, List.filter_append]
  obtain rfl | old := Nat.eq_or_lt_of_le (Nat.le_of_lt_succ lt)
  · refine ⟨⟨s.adds, ioThread, _⟩, ?_, mem⟩
    rw [numbered.fresh]
    simp
  · obtain ⟨x, only, mem⟩ := h func old
    refine ⟨x, ?_, mem⟩
    have other : ¬ s.adds = func := by omega
    rw [only]
    simp [other]

/-- What the code keeps right in any case. -/
structure Invariant (s : IOThreadPoolExecutor) : Prop where
  counted : ∃ m, s.Counted m
  accounted : s.Accounted
  numbered : s.Numbered

/-- A new executor has no thread. -/
lemma invariant_new (calls : List Call) : (new calls).Invariant :=
  ⟨⟨0, rfl, rfl⟩, fun _ running => absurd rfl running, nofun⟩

/-- A move keeps the counters, the threads and the numbers right. -/
lemma invariant_move (h : s.Invariant) (move : Move s a s') : s'.Invariant := by
  obtain ⟨m, counted⟩ := h.counted
  refine ⟨?_, accounted_move h.accounted move,
    numbered_recorded h.numbered (move_recorded h.accounted move)⟩
  obtain ⟨-, counted⟩ | ⟨call, -, -, counted⟩ := counted_move counted move
  · exact ⟨m, counted⟩
  · exact ⟨_, counted⟩

/-- Between the calls the pool has as many threads as are counted. -/
lemma Invariant.size (h : s.Invariant) (ready : s.pc = .ready) :
    s.m_ThreadPool.m_Threads.size = s.m_CurThreadCount := by
  obtain ⟨m, counted⟩ := h.counted
  obtain ⟨count, size⟩ := counted.ready ready
  exact size.trans count.symm

/-- A move with a thread delivers the function of an `add`. -/
lemma delivered_move (h : s.Invariant) (delivered : s.Delivered) (has : HasThread s a)
    (move : Move s a s') : s'.Delivered := by
  cases move_recorded h.accounted move with
  | silent adds handed =>
    unfold Delivered
    rw [adds, handed]
    exact delivered
  | handed mem adds handed => exact delivered.hand h.numbered mem adds handed
  | dropped caller ready pending empty =>
    subst caller
    exact absurd ((h.size ready).symm.trans empty) (has ready pending)

/-- `add` hands the function to a thread. -/
lemma caller_add {calls : List Call} (ready : s.pc = .ready) (pending : s.calls = .add :: calls) :
    s.caller = some { { s with calls := calls }.add none with barrier := s.adds } := by
  obtain ⟨_, _, _, _, _, _, _, _, _, _, _, _⟩ := s
  cases ready
  cases pending
  rfl

/-- `add` with no thread drops the function. -/
lemma caller_dropped {calls : List Call} (ready : s.pc = .ready) (pending : s.calls = .add :: calls)
    (empty : s.m_ThreadPool.m_Threads.size = 0) :
    s.caller = some { s with calls := calls, adds := s.adds + 1, barrier := s.adds } := by
  have dropped : { s with calls := calls }.add none = { s with calls := calls, adds := s.adds + 1 } :=
    add_none empty
  exact (caller_add ready pending).trans
    (congrArg (fun s1 => some { s1 with barrier := s.adds }) dropped)

/-- An `add` that finds no thread drops the function. -/
lemma not_delivered_step (h : s.Invariant) (has : ¬ HasThread s a) (st : Exec step s a s') :
    ¬ s'.Delivered := by
  intro delivered
  cases a with
  | caller =>
    simp only [HasThread, ne_eq, Classical.not_imp, not_not] at has
    obtain ⟨ready, pending, none⟩ := has
    obtain ⟨calls, e⟩ := List.head?_eq_some_iff.mp pending
    have empty := (h.size ready).trans none
    cases (caller_dropped ready e empty).symm.trans st
    obtain ⟨x, only, -⟩ := delivered s.adds (Nat.lt_succ_self _)
    cases h.numbered.fresh.symm.trans only
  | thread | loop | add => exact has trivial

/-- In a run of any calls, and of any `add`s from the pool, every function is delivered if and only if
    each `add` from outside the pool finds a thread. -/
lemma delivered_along_iff_hasThread {calls : List Call} {l : List Event}
    (run : Run (Exec step) (new calls) l s) :
    Along (Exec step) Delivered (new calls) l ↔ Meets (Exec step) HasThread (new calls) l := by
  apply along_iff_meets (Exec.deterministic step) run
  · exact nofun
  · exact invariant_new calls
  · exact fun h st => invariant_move h (step_move st)
  · exact fun h delivered has st => delivered_move h delivered has (step_move st)
  · exact fun h _ has st => not_delivered_step h has st

end IOThreadPoolExecutor
end XLN
