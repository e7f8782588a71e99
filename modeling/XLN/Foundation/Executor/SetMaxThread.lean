import XLN.Foundation.Executor.StopAllThread

/-!
# Resizing the executor

A sequence of calls of `SetMaxThread`. The counts come out right after every call that returns. But
`Post` writes each poison task twice, so every call that removes threads leaves poison behind, for the
threads that stay as for those that a later call adds. The threads of the pool are safe from it as long
as no call removes threads, and when none is left.
-/

namespace XLN
open Transition

/-- A worker that waits in `DoRun` for its first task. -/
inductive WorkerPc.Idle : WorkerPc → Prop where
  | read :
    Idle (.doRun .read)
  | wait :
    Idle (.doRun .wait)

namespace CPUThreadPoolExecutor

section Definitions
variable {ι : Type} [DecidableEq ι]

/-- The calls `SetMaxThread(k)` for the numbers of a list. -/
def resizes (ks : List Nat) : List Call := ks.map .setMaxThread

omit [DecidableEq ι] in
/-- The thread `w` is in the loop of `DoRun` and has not taken a poison task. -/
def InLoop (w : Nat) (s : CPUThreadPoolExecutor ι) : Prop :=
  ∃ pc, s.workers w = .doRun pc ∧ pc ≠ .returned ∧
    ∀ t, pc = .dispatch t → (s.tasks.memory t).m_SysAction ≠ .SA_QUIT_RUNNER

/-- What `SetMaxThread(k)` is to leave behind: `k` threads, and none of them stops before the next call. -/
structure Resized (current : Option ι) (k : Nat) (s : CPUThreadPoolExecutor ι) : Prop where
  count : s.m_CurThreadCount = k
  size : s.m_ThreadPool.m_Threads.size = k
  inLoop : ∀ l s', Run (Exec (step current)) s l s' → (∀ a ∈ l, a ≠ .caller) →
    ∀ w ∈ s.m_ThreadPool.m_Threads.m_Threads, s'.InLoop w

/-- `SetMaxThread` leaves that behind whenever it has returned and no later call has begun. -/
def AlwaysResized (current : Option ι) (m_TaskAllocator : FreeList (Task ι)) (ks : List Nat) : Prop :=
  ∀ l s, Run (Exec (step current)) (new m_TaskAllocator (resizes ks)) l s →
    ∀ before k rest, ks = before ++ k :: rest → s.calls = resizes rest → s.pc = .ready →
      s.Resized current k

/-- With `m` threads, no call of the list removes threads, except for one that removes all, and no call
    adds threads after that one. -/
inductive Gentle : Nat → List Nat → Prop where
  | done {m} :
    Gentle m []
  | grow {m k ks} :
    m ≤ k →
    Gentle k ks →
    Gentle m (k :: ks)
  | stop {m ks} :
    (∀ k ∈ ks, k = 0) →
    Gentle m (0 :: ks)

/-- Of the calls for `ks`, those for `before` have been made, those for `rest` have not. -/
structure Made (ks before rest : List Nat) (s : CPUThreadPoolExecutor ι) : Prop where
  split : ks = before ++ rest
  calls : s.calls = resizes rest
  counted : s.Counted (before.getLastD 0)

/-- No thread has been removed, and no task made. -/
structure Growing (s : CPUThreadPoolExecutor ι) : Prop where
  pc : s.pc = .ready ∨ ∃ left, s.pc = .addThread left
  queue : s.m_TaskQueue.m_Queue = []
  threads : ∀ w ∈ s.m_ThreadPool.m_Threads.m_Threads, (s.workers w).Idle
  others : ∀ w, s.workers w = .ended ∨ (s.workers w).Idle

/-- How far a gentle sequence is, with `m` threads after the current call. -/
inductive Phase (m : Nat) (rest : List Nat) (s : CPUThreadPoolExecutor ι) : Prop where
  | growing :
    Gentle m rest →
    s.Growing →
    Phase m rest s
  | stopping :
    m = 0 →
    (∀ k ∈ rest, k = 0) →
    Phase m rest s

end Definitions

variable {ι : Type} {s s' : CPUThreadPoolExecutor ι} {current : Option ι} {w m k : Nat}
  {ks before rest : List Nat}

/-- The calls tell the numbers that are asked for. -/
lemma resizes_injective : Function.Injective resizes :=
  List.map_injective_iff.mpr fun _ _ e => Call.setMaxThread.inj e

/-! ## The workers -/

/-- A worker goes on waiting. -/
lemma Growing.setWorker {pc : WorkerPc} {queue : LifoSemBlockingQueue TaskPtr} (h : s.Growing)
    (empty : queue.m_Queue = []) (idle : pc.Idle) :
    { s with m_TaskQueue := queue, workers := Function.update s.workers w pc }.Growing := by
  refine ⟨h.pc, empty, fun w' mem => ?_, fun w' => ?_⟩
  all_goals
    simp only [Function.update_apply]
    split
  · exact idle
  · exact h.threads w' mem
  · exact .inr idle
  · exact h.others w'

/-- A step of a worker leaves the threads alone while they only grow in number. -/
lemma growing_worker (h : s.Growing) (move : WorkerMove w s s') :
    s'.Growing ∧ s'.m_ThreadPool.m_Threads = s.m_ThreadPool.m_Threads := by
  -- nothing but the wait for a task is possible
  have waiting : s.workers w = .ended ∨ (s.workers w).Idle := h.others w
  cases move with
  | read here taken =>
    have e := LifoSemBlockingQueue.readIfNotEmpty_some taken
    cases h.queue.symm.trans e
  | await here => exact ⟨h.setWorker h.queue .wait, rfl⟩
  | wait here waited =>
    have e := LifoSemBlockingQueue.wait_m_Queue waited
    exact ⟨h.setWorker (e.trans h.queue) .read, rfl⟩
  | quit here | dispatch here | settle here | stopping here | stopped here =>
    rw [here] at waiting
    obtain ended | idle := waiting
    · cases ended
    · cases idle

/-- The tasks do not matter for this. -/
lemma Growing.setTasks {tasks : TaskRecord ι} (h : s.Growing) : { s with tasks := tasks }.Growing :=
  ⟨h.pc, h.queue, h.threads, h.others⟩

/-- Between two calls the threads wait for ever. -/
lemma growing_waits [DecidableEq ι] {l : List Event} (h : s.Growing)
    (run : Run (Exec (step current)) s l s') (noCall : ∀ a ∈ l, a ≠ .caller) :
    s'.Growing ∧ s'.m_ThreadPool.m_Threads = s.m_ThreadPool.m_Threads := by
  induction run with
  | nil => exact ⟨h, rfl⟩
  | @snoc l s1 a s2 run st ih =>
    obtain ⟨h1, same⟩ := ih fun b mem => noCall b (List.mem_append_left _ mem)
    cases a with
    | caller => exact absurd rfl (noCall .caller (by simp))
    | worker w =>
      obtain ⟨h2, same'⟩ := growing_worker h1 (runThread_move st)
      exact ⟨h2, same'.trans same⟩
    | finish t =>
      obtain ⟨-, rfl⟩ := finish_move st
      exact ⟨h1.setTasks, same⟩

/-! ## The calls -/

/-- Between two calls the calling thread can only begin the next one. -/
lemma ready_caller (ready : s.pc = .ready) (move : CallerMove current s s') :
    ∃ call calls, s.calls = call :: calls ∧ s' = { s with calls := calls }.begin current call := by
  cases move with
  | begin pc pending => exact ⟨_, _, pending, rfl⟩
  | threadsAdded pc | createThread pc | fill pc | added pc | exited pc | thrown pc | post pc
  | exitsDone pc | exit pc | posion pc | joined pc | take pc | await pc | wait pc | join pc =>
    cases ready.symm.trans pc

/-- A step of the calling thread begins the next call, or else the calls stay what they are. -/
lemma made_caller (h : s.Made ks before rest) (move : CallerMove current s s') :
    s.pc ≠ .ready ∧ s'.Made ks before rest ∨
    ∃ k ks', rest = k :: ks' ∧ s.pc = .ready ∧
      s' = { s with calls := resizes ks' }.setMaxThread k ∧ s'.Made ks (before ++ [k]) ks' := by
  by_cases ready : s.pc = .ready
  · obtain ⟨call, calls, next, rfl⟩ := ready_caller ready move
    rw [h.calls] at next
    cases rest with
    | nil => cases next
    | cons k ks' =>
      cases next
      refine .inr ⟨k, ks', rfl, ready, rfl, ?_, begin_calls, ?_⟩
      · rw [h.split, List.append_assoc]
        rfl
      · rw [List.getLastD_concat]
        exact counted_begin h.counted ready
  · obtain ⟨same, counted⟩ | ⟨_, _, ready', -⟩ := counted_caller h.counted move
    · exact .inl ⟨ready, h.split, same.trans h.calls, counted⟩
    · exact absurd ready' ready

/-- A step of a worker makes no call. -/
lemma made_worker (h : s.Made ks before rest) (move : WorkerMove w s s') :
    s'.Made ks before rest := by
  obtain ⟨calls, -, counted⟩ := counted_worker h.counted move
  exact ⟨h.split, calls.trans h.calls, counted⟩

/-- In the beginning no call has been made. -/
lemma made_new {m_TaskAllocator : FreeList (Task ι)} (ks : List Nat) :
    (new m_TaskAllocator (resizes ks)).Made ks [] ks :=
  ⟨rfl, rfl, rfl, rfl⟩

/-- When a call has returned and the next one has not begun, its number counts. -/
lemma made_returned (h : ∃ before rest, s.Made ks before rest) (split : ks = before ++ k :: rest)
    (calls : s.calls = resizes rest) : s.Made ks (before ++ [k]) rest := by
  obtain ⟨before', rest', h⟩ := h
  obtain rfl : rest' = rest := resizes_injective (h.calls.symm.trans calls)
  have same : before' ++ rest' = before ++ [k] ++ rest' := by
    rw [← h.split, split, List.append_assoc]
    rfl
  rwa [List.append_cancel_right same] at h

/-- A step inside a call that adds threads. -/
lemma growing_caller (h : s.Growing) (busy : s.pc ≠ .ready) (move : CallerMove current s s') :
    s'.Growing := by
  have here := h.pc
  cases move with
  | begin pc => exact absurd pc busy
  | threadsAdded pc => exact ⟨.inl rfl, h.queue, h.threads, h.others⟩
  | @createThread left pc =>
    refine ⟨.inr ⟨left, rfl⟩, h.queue, fun w mem => ?_, fun w => ?_⟩
    all_goals
      simp only [Function.update_apply]
      split
    · exact .read
    next other =>
      have mem := ThreadList.add_perm.mem_iff.mp mem
      cases mem with
      | head => exact absurd rfl other
      | tail _ mem => exact h.threads w mem
    · exact .inr .read
    · exact h.others w
  | fill pc | added pc | exited pc | thrown pc | post pc | exitsDone pc | exit pc | posion pc
  | joined pc | take pc | await pc | wait pc | join pc =>
    rw [pc] at here
    obtain ready | ⟨left, adding⟩ := here
    · cases ready
    · cases adding

/-- `SetMaxThread` begins in a gentle sequence. -/
lemma phase_begin (h : s.Phase m (k :: ks)) (ready : s.pc = .ready)
    (counted : s.Counted m) : ({ s with calls := resizes ks }.setMaxThread k).Phase k ks := by
  cases h with
  | growing gentle growing =>
    cases gentle with
    | grow more gentle =>
      refine .growing gentle ?_
      unfold Counted at counted
      rw [ready] at counted
      obtain ⟨-, e⟩ | ⟨fewer, -⟩ | ⟨-, e⟩ :=
        setMaxThread_cases (s := { s with calls := resizes ks }) k
      · rw [e]
        exact ⟨growing.pc, growing.queue, growing.threads, growing.others⟩
      · change k < s.m_CurThreadCount at fewer
        omega
      · rw [e]
        exact ⟨.inr ⟨_, rfl⟩, growing.queue, growing.threads, growing.others⟩
    | stop zeros => exact .stopping rfl zeros
  | stopping none zeros =>
    obtain rfl := zeros k List.mem_cons_self
    exact .stopping rfl fun j mem => zeros j (List.mem_cons_of_mem _ mem)

/-! ## Runs -/

/-- Every step leaves the calls to be made in order. -/
lemma made_step [DecidableEq ι] {a : Event} (h : ∃ before rest, s.Made ks before rest)
    (st : Exec (step current) s a s') : ∃ before rest, s'.Made ks before rest := by
  obtain ⟨before, rest, h⟩ := h
  cases a with
  | caller =>
    obtain ⟨-, made⟩ | ⟨k, ks', -, -, -, made⟩ := made_caller h (caller_move st)
    · exact ⟨before, rest, made⟩
    · exact ⟨before ++ [k], ks', made⟩
  | worker w => exact ⟨before, rest, made_worker h (runThread_move st)⟩
  | finish t =>
    obtain ⟨-, rfl⟩ := finish_move st
    exact ⟨before, rest, h.split, h.calls, h.counted⟩

/-- In any sequence of calls, each one leaves as many threads in the list as it was asked for. -/
theorem counted_of_returned [DecidableEq ι] {m_TaskAllocator : FreeList (Task ι)} {l : List Event}
    (run : Run (Exec (step current)) (new m_TaskAllocator (resizes ks)) l s)
    (split : ks = before ++ k :: rest) (calls : s.calls = resizes rest) (ready : s.pc = .ready) :
    s.m_CurThreadCount = k ∧ s.m_ThreadPool.m_Threads.size = k := by
  have made := made_returned (run.invariant ⟨[], ks, made_new ks⟩ made_step) split calls
  have counted := made.counted
  rw [List.getLastD_concat] at counted
  unfold Counted at counted
  rwa [ready] at counted

/-- The state of a gentle sequence of calls. -/
def Resizing (ks : List Nat) (s : CPUThreadPoolExecutor ι) : Prop :=
  ∃ before rest, s.Made ks before rest ∧ s.Phase (before.getLastD 0) rest

/-- A new executor is going to be resized. -/
lemma resizing_new {m_TaskAllocator : FreeList (Task ι)} (gentle : Gentle 0 ks) :
    (new m_TaskAllocator (resizes ks)).Resizing ks := by
  refine ⟨[], ks, made_new ks, .growing gentle ?_⟩
  exact ⟨.inl rfl, rfl, nofun, fun _ => .inl rfl⟩

/-- A step of the caller goes on with the resizing. -/
lemma resizing_caller (h : s.Resizing ks) (move : CallerMove current s s') : s'.Resizing ks := by
  obtain ⟨before, rest, made, phase⟩ := h
  obtain ⟨busy, made'⟩ | ⟨k, ks', rfl, ready, begun, made'⟩ := made_caller made move
  · refine ⟨before, rest, made', ?_⟩
    cases phase with
    | growing gentle growing => exact .growing gentle (growing_caller growing busy move)
    | stopping none zeros => exact .stopping none zeros
  · refine ⟨before ++ [k], ks', made', ?_⟩
    rw [List.getLastD_concat, begun]
    exact phase_begin phase ready made.counted

/-- A step of a worker does not disturb the resizing. -/
lemma resizing_worker (h : s.Resizing ks) (move : WorkerMove w s s') : s'.Resizing ks := by
  obtain ⟨before, rest, made, phase⟩ := h
  refine ⟨before, rest, made_worker made move, ?_⟩
  cases phase with
  | growing gentle growing => exact .growing gentle (growing_worker growing move).1
  | stopping none zeros => exact .stopping none zeros

/-- Every step goes on with the resizing. -/
lemma resizing_step [DecidableEq ι] {a : Event} (h : s.Resizing ks)
    (st : Exec (step current) s a s') : s'.Resizing ks := by
  cases a with
  | caller => exact resizing_caller h (caller_move st)
  | worker w => exact resizing_worker h (runThread_move st)
  | finish t =>
    obtain ⟨before, rest, made, phase⟩ := h
    obtain ⟨-, rfl⟩ := finish_move st
    refine ⟨before, rest, ⟨made.split, made.calls, made.counted⟩, ?_⟩
    cases phase with
    | growing gentle growing => exact .growing gentle growing.setTasks
    | stopping none zeros => exact .stopping none zeros

/-- A thread that waits is in the loop. -/
lemma inLoop_of_idle (idle : (s.workers w).Idle) : s.InLoop w := by
  unfold InLoop
  generalize s.workers w = worker at idle ⊢
  cases idle with
  | read => exact ⟨.read, rfl, nofun, nofun⟩
  | wait => exact ⟨.wait, rfl, nofun, nofun⟩

/-- The threads of a gentle sequence stay in their loops until the next call. -/
lemma inLoop_of_resizing [DecidableEq ι] {l : List Event} (h : s.Resizing ks) (ready : s.pc = .ready)
    (run : Run (Exec (step current)) s l s') (noCall : ∀ a ∈ l, a ≠ .caller)
    (mem : w ∈ s.m_ThreadPool.m_Threads.m_Threads) : s'.InLoop w := by
  obtain ⟨before, rest, made, phase⟩ := h
  cases phase with
  | growing _ growing =>
    obtain ⟨growing', same⟩ := growing_waits growing run noCall
    exact inLoop_of_idle (growing'.threads w (same ▸ mem))
  | stopping none =>
    -- there are no threads
    have counted := made.counted
    unfold Counted at counted
    rw [ready] at counted
    have empty := List.length_eq_zero_iff.mp (counted.2.trans none)
    rw [empty] at mem
    cases mem

/-- In every run of a gentle sequence of calls, each call of `SetMaxThread` leaves as many threads as it
    was asked for, and they stay in their loops until the next call. -/
theorem resized_of_gentle [DecidableEq ι] (current : Option ι) (m_TaskAllocator : FreeList (Task ι))
    (ks : List Nat) (gentle : Gentle 0 ks) : AlwaysResized current m_TaskAllocator ks := by
  intro l s run before k rest split calls ready
  have resizing : s.Resizing ks := run.invariant (resizing_new gentle) resizing_step
  obtain ⟨count, size⟩ := counted_of_returned run split calls ready
  refine ⟨count, size, fun l' s' run' noCall w mem => ?_⟩
  exact inLoop_of_resizing resizing ready run' noCall mem

/-- The statement above where threads are added twice and then all removed. -/
theorem resized_of_gentle_stop :
    AlwaysResized (none : Option Unit)
      ⟨2048, [], 2048, fun _ => ⟨.SA_NONE, none, none, none, none, .TS_QUEUED⟩⟩ [1, 3, 0] :=
  resized_of_gentle none _ [1, 3, 0]
    (.grow (by decide) (.grow (by decide) (.stop nofun)))

/-- One of two threads is removed. The thread that stays takes the second copy of the poison. -/
theorem second_thread_stops :
    ¬ AlwaysResized (none : Option Unit)
      ⟨2048, [1, 0], 2048, fun _ => ⟨.SA_NONE, none, none, none, none, .TS_QUEUED⟩⟩ [2, 1] := by
  intro always
  have state : (exec (step none) (new ⟨2048, [1, 0], 2048, fun _ =>
      (⟨.SA_NONE, none, none, none, none, .TS_QUEUED⟩ : Task Unit)⟩ (resizes [2, 1]))
      (List.replicate 12 .caller ++ List.replicate 4 (.worker 0) ++ List.replicate 3 .caller)).map
        (fun s => (s.calls, s.pc, s.m_ThreadPool.m_Threads.m_Threads,
          (exec (step none) s (List.replicate 2 (.worker 1))).map (·.workers 1))) =
      some ([], .ready, [1], some (.doRun .returned)) := by decide
  obtain ⟨s, run, fields⟩ := run_of_map state
  simp only [Prod.mk.injEq] at fields
  obtain ⟨calls, ready, threads, stops⟩ := fields
  obtain ⟨s', run', returned⟩ := run_of_map stops
  have resized := always _ s run [2] 1 [] rfl calls ready
  obtain ⟨pc, here, inLoop, -⟩ := resized.inLoop _ s' run'
    (fun a mem => by cases List.eq_of_mem_replicate mem; exact nofun) 1 (by rw [threads]; simp)
  rw [returned] at here
  cases here
  exact inLoop rfl

end CPUThreadPoolExecutor
end XLN
