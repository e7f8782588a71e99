import XLN.Foundation.Executor.CPUThreadPoolExecutor

/-!
# Stopping the executor

What `StopAllThread` leaves behind. A worker ends only by taking a task with `SA_QUIT_RUNNER`, and it
does not release that one. So the poison task that was posted last either is still posted or ended a
worker, or else (if its storage was overwritten by a stale pointer to the same storage) some worker
never ends, because nothing but copies of this task is left for it: `Last` is the invariant that says
so, `Stage` follows the calls until it holds. When `StopAllThread` returns, all workers have ended, and
the task has not been released (`not_completed_of_returned`).
-/

namespace XLN
open Transition

/-- The task that a worker has in hand. -/
def WorkerPc.hand : WorkerPc → Option TaskPtr
  | .doRun (.dispatch t) | .doRun (.settle t) => some t
  | _ => none

/-- A worker that is in its loop, with nothing but the task `t` still to be dispatched. -/
inductive WorkerPc.Endless (t : TaskPtr) : WorkerPc → Prop where
  | read :
    Endless t (.doRun .read)
  | wait :
    Endless t (.doRun .wait)
  | dispatch :
    Endless t (.doRun (.dispatch t))
  | settle {t'} :
    Endless t (.doRun (.settle t'))

/-- The number of threads after a call, if there are `m` before it. -/
def CPUThreadPoolExecutor.Call.threads (m : Nat) : Call → Nat
  | .setMaxThread numOfThread => numOfThread
  | .add _ => m
  | .stopAllThread => 0

/-- The task acquired last, while it is being posted. -/
def CallerPc.newest : CallerPc → Option TaskPtr
  | .fill t _ | .posion t _ _ | .post t _ _ => some t
  | _ => none

/-- In the loop of `RemoveThread`, with a poison task still to be made. -/
def CallerPc.ExitsLeft : CallerPc → Prop
  | .exit (_ + 1) _ | .posion _ _ _ | .post _ _ (.exit (_ + 1) _) => True
  | _ => False

/-- In `RemoveThread` or behind it, with `t` the last poison task. -/
def CallerPc.Final (t : TaskPtr) : CallerPc → Prop
  | .post t' _ (.exit 0 _) => t' = t
  | .exit 0 _ | .take _ _ | .wait _ _ | .join _ _ _ | .ready | .thrown => True
  | _ => False

/-- What a task of its own does to the others. -/
structure TaskRecord.Handles {ι : Type} (t : TaskPtr) (r r' : TaskRecord ι) : Prop where
  acquired : r'.acquired = r.acquired
  released : ∀ n ≠ t.acquisition, r'.released n = r.released n
  handedBack : ∀ x ∈ r'.handedBack, x ∈ r.handedBack ∨ x = t
  action : ∀ x, (r.memory x).m_SysAction ≠ .SA_QUIT_RUNNER →
    (r'.memory x).m_SysAction ≠ .SA_QUIT_RUNNER

namespace TaskRecord

variable {ι : Type} {r r' r'' : TaskRecord ι} {t x : TaskPtr} {task : Task ι}

/-- A write to a task is seen through every pointer to it. -/
lemma memory_write : (r.write t task).memory x = if x.task = t.task then task else r.memory x := by
  unfold memory write
  exact Function.update_apply ..

/-- `DeallocateTask` resets the task that the pointer is to. -/
lemma memory_deallocateTask :
    (r.deallocateTask t).memory x = if x.task = t.task then (r.memory t).reset else r.memory x := by
  unfold memory deallocateTask FreeList.release
  simp only [FreeList.push_storage]
  exact Function.update_apply ..

namespace Handles

/-- Nothing is done to the task. -/
lemma refl : Handles t r r :=
  ⟨rfl, fun _ _ => rfl, fun _ mem => .inl mem, fun _ action => action⟩

/-- What is done to a task one after the other. -/
lemma trans (h : Handles t r r') (h' : Handles t r' r'') : Handles t r r'' where
  acquired := h'.acquired.trans h.acquired
  released n ne := (h'.released n ne).trans (h.released n ne)
  handedBack x mem := by
    rcases h'.handedBack x mem with mem | e
    · exact h.handedBack x mem
    · exact .inr e
  action x action := h'.action x (h.action x action)

/-- `DeallocateTask` keeps to its task. -/
lemma deallocateTask : Handles t r (r.deallocateTask t) where
  acquired := rfl
  released _ ne := Function.update_of_ne ne ..
  handedBack _ mem := .inl mem
  action x action := by
    rw [memory_deallocateTask]
    split
    · exact nofun
    · exact action

/-- A write keeps to its task if it makes no quit task of it. -/
lemma write (h : (r.memory t).m_SysAction ≠ .SA_QUIT_RUNNER → task.m_SysAction ≠ .SA_QUIT_RUNNER) :
    Handles t r (r.write t task) where
  acquired := rfl
  released _ _ := rfl
  handedBack _ mem := .inl mem
  action x action := by
    rw [memory_write]
    split
    next same =>
      apply h
      rwa [memory, ← same]
    next => exact action

/-- An effect keeps to its task. -/
lemma apply {effect : Effect TaskPtr ι} : Handles effect.task r (r.apply effect) := by
  cases effect with
  | follyFunc t =>
    unfold TaskRecord.apply
    simp only
    split
    · exact ⟨rfl, fun _ _ => rfl, fun _ mem => .inl mem, fun _ action => action⟩
    · exact refl
  | handle | runTaskCB | onFinish => exact refl
  | handled t => exact write id
  | release t | deleteCB t => exact deallocateTask
  | handBack t processor =>
    have written : Handles t r (r.write t { r.memory t with m_SysAction := .SA_RELEASE_TASK }) :=
      write fun _ => nofun
    refine ⟨written.acquired, written.released, fun x mem => ?_, written.action⟩
    cases mem with
    | head => exact .inr rfl
    | tail _ mem => exact written.handedBack x mem

/-- The effects of one task keep to it. -/
lemma foldl {effects : List (Effect TaskPtr ι)} (h : ∀ e ∈ effects, e.task = t) :
    Handles t r (effects.foldl TaskRecord.apply r) := by
  induction effects generalizing r with
  | nil => exact refl
  | cons e effects ih =>
    have first : Handles t r (r.apply e) := by
      rw [← h e List.mem_cons_self]
      exact apply
    exact first.trans (ih fun e' mem => h e' (List.mem_cons_of_mem _ mem))

/-- The end of a task keeps to it. -/
lemma finish : Handles t r
    { r.deallocateTask t with handedBack := (r.deallocateTask t).handedBack.erase t } where
  acquired := rfl
  released := deallocateTask.released
  handedBack _ mem := .inl (List.mem_of_mem_erase mem)
  action := deallocateTask.action

end Handles
end TaskRecord

namespace CPUThreadPoolExecutor

section Definitions
variable {ι : Type}

/-- A bound on the acquisitions that have been posted. -/
def posted (s : CPUThreadPoolExecutor ι) : Nat :=
  match s.pc with
  | .fill t _ | .posion t _ _ | .post t .start _ => t.acquisition
  | _ => s.tasks.acquired

/-- Tasks are taken in the order in which they have been acquired. -/
structure Ordered (s : CPUThreadPoolExecutor ι) : Prop where
  newest : ∀ t, s.pc.newest = some t → t.acquisition + 1 = s.tasks.acquired
  sorted : s.m_TaskQueue.m_Queue.Pairwise fun x y => x.acquisition ≤ y.acquisition
  queue : ∀ x ∈ s.m_TaskQueue.m_Queue, x.acquisition < s.posted
  hand : ∀ w x, (s.workers w).hand = some x →
    x.acquisition < s.posted ∧ ∀ y ∈ s.m_TaskQueue.m_Queue, x.acquisition ≤ y.acquisition
  handedBack : ∀ x ∈ s.tasks.handedBack, x.acquisition < s.posted
  released : ∀ n, s.posted ≤ n → s.tasks.released n = 0

/-- A worker that has not ended is a thread of the pool. -/
def Accounted (s : CPUThreadPoolExecutor ι) : Prop :=
  ∀ w, s.workers w ≠ .ended → w ∈ s.m_ThreadPool.m_Threads.m_Threads

/-- There will be `m` threads when the current call returns. -/
def Counted (s : CPUThreadPoolExecutor ι) (m : Nat) : Prop :=
  match s.pc with
  | .ready | .fill _ _ | .post _ _ .add =>
    s.m_CurThreadCount = m ∧ s.m_ThreadPool.m_Threads.size = m
  | .addThread left => s.m_ThreadPool.m_Threads.size + left = m
  | .exit _ num | .posion _ _ num | .post _ _ (.exit _ num) =>
    s.m_ThreadPool.m_Threads.size = m + num
  | .take left _ | .wait left _ => s.m_ThreadPool.m_Threads.size = m + left
  | .join _ left _ => s.m_ThreadPool.m_Threads.size = m + left + 1
  | .thrown => True

/-- No worker has found anything but `SA_QUIT_RUNNER` in the task `t`. -/
structure Untried (t : TaskPtr) (s : CPUThreadPoolExecutor ι) : Prop where
  released : s.tasks.released t.acquisition = 0
  handedBack : ∀ x ∈ s.tasks.handedBack, x.acquisition ≠ t.acquisition
  settle : ∀ w x, s.workers w = .doRun (.settle x) → x.acquisition ≠ t.acquisition
  dispatch : ∀ w x, s.workers w = .doRun (.dispatch x) → x.acquisition = t.acquisition → x = t

/-- A worker has, and only copies of `t` are left that could end it, and cannot. -/
structure Stuck (t : TaskPtr) (s : CPUThreadPoolExecutor ι) : Prop where
  action : (s.tasks.memory t).m_SysAction ≠ .SA_QUIT_RUNNER
  queue : ∀ x ∈ s.m_TaskQueue.m_Queue, x = t
  worker : ∃ w, (s.workers w).Endless t

/-- The task `t` is the last one, and it is untried or a worker is stuck. -/
structure Last (t : TaskPtr) (s : CPUThreadPoolExecutor ι) : Prop where
  newest : t.acquisition + 1 = s.tasks.acquired
  same : ∀ x ∈ s.m_TaskQueue.m_Queue, x.acquisition = t.acquisition → x = t
  fate : s.Untried t ∨ s.Stuck t

/-- How far the calls are: `StopAllThread` is yet to come, and there will be `n` threads then; it is
    in its loop with poison tasks to be made; the last one, `t`, is made; or `Add` has thrown. -/
inductive Stage (n : Nat) (s : CPUThreadPoolExecutor ι) : Prop where
  | before {calls m} :
    s.calls = calls ++ [.stopAllThread] →
    s.Counted m →
    calls.foldl Call.threads m = n →
    Stage n s
  | stopping :
    s.calls = [] →
    s.Counted 0 →
    s.pc.ExitsLeft →
    Stage n s
  | last {t} :
    s.calls = [] →
    s.Counted 0 →
    s.pc.Final t →
    s.Last t →
    Stage n s
  | thrown :
    s.pc = .thrown →
    Stage n s

/-- Each function has been run exactly once, and each task released exactly once. -/
structure Completed (funcs : List Nat) (s : CPUThreadPoolExecutor ι) : Prop where
  ran : ∀ func, s.tasks.ran func = funcs.count func
  released : ∀ n < s.tasks.acquired, s.tasks.released n = 1

end Definitions

variable {ι : Type} {s s' : CPUThreadPoolExecutor ι} {t : TaskPtr} {w n m : Nat}

/-- A task is acquired before it is posted. -/
lemma Ordered.posted_le (h : s.Ordered) : s.posted ≤ s.tasks.acquired := by
  have below : ∀ t, s.pc.newest = some t → t.acquisition ≤ s.tasks.acquired := by
    intro t e
    have := h.newest t e
    omega
  unfold posted
  split
  next t _ pc => exact below t (by rw [pc]; rfl)
  next t _ _ pc => exact below t (by rw [pc]; rfl)
  next t _ pc => exact below t (by rw [pc]; rfl)
  next => exact Nat.le_refl _

/-! ## The workers -/

/-- What was posted does not depend on the state of the tasks. -/
lemma posted_setTasks {tasks : TaskRecord ι} (e : tasks.acquired = s.tasks.acquired) :
    { s with tasks := tasks }.posted = s.posted := by
  unfold posted
  simp only [e]

/-- Something is done to a task that has been posted. -/
lemma Ordered.setTasks {tasks : TaskRecord ι} (h : s.Ordered) (bound : t.acquisition < s.posted)
    (handles : s.tasks.Handles t tasks) : { s with tasks := tasks }.Ordered := by
  have same := posted_setTasks (s := s) handles.acquired
  refine ⟨fun x newest => ?_, h.sorted, fun x mem => ?_, fun w x hand => ?_, fun x mem => ?_,
    fun n le => ?_⟩
  · exact (h.newest x newest).trans handles.acquired.symm
  · rw [same]
    exact h.queue x mem
  · rw [same]
    exact h.hand w x hand
  · rw [same]
    rcases handles.handedBack x mem with mem | rfl
    · exact h.handedBack x mem
    · exact bound
  · rw [same] at le
    exact (handles.released n (by omega)).trans (h.released n le)

/-- A worker goes on, with a task in hand that is older than all in the queue, or with none. -/
lemma Ordered.setWorker {pool : ThreadPool} {pc : WorkerPc} (h : s.Ordered)
    (self : ∀ x, pc.hand = some x →
      x.acquisition < s.posted ∧ ∀ y ∈ s.m_TaskQueue.m_Queue, x.acquisition ≤ y.acquisition) :
    { s with m_ThreadPool := pool, workers := Function.update s.workers w pc }.Ordered := by
  refine ⟨h.newest, h.sorted, h.queue, fun w' x hand => ?_, h.handedBack, h.released⟩
  simp only [Function.update_apply] at hand
  split at hand
  · exact self x hand
  · exact h.hand w' x hand

/-- A worker that has put its task away keeps the order. -/
lemma Ordered.setIdle {pool : ThreadPool} {pc : WorkerPc} (h : s.Ordered) (idle : pc.hand = none) :
    { s with m_ThreadPool := pool, workers := Function.update s.workers w pc }.Ordered :=
  h.setWorker fun _ hand => nomatch idle.symm.trans hand

/-- The queue loses its oldest tasks. -/
lemma Ordered.setQueue {queue : LifoSemBlockingQueue TaskPtr} (h : s.Ordered)
    (suffix : queue.m_Queue <:+ s.m_TaskQueue.m_Queue) :
    { s with m_TaskQueue := queue }.Ordered := by
  refine ⟨h.newest, h.sorted.sublist suffix.sublist, fun x mem => h.queue x (suffix.subset mem),
    fun w x hand => ?_, h.handedBack, h.released⟩
  obtain ⟨bound, least⟩ := h.hand w x hand
  exact ⟨bound, fun y mem => least y (suffix.subset mem)⟩

/-- A step of a worker keeps the order. -/
lemma ordered_worker (h : s.Ordered) (move : WorkerMove w s s') : s'.Ordered := by
  cases move with
  | @read t queue here taken =>
    have e := LifoSemBlockingQueue.readIfNotEmpty_some taken
    have sorted := h.sorted
    rw [e, List.pairwise_cons] at sorted
    have rest : { s with m_TaskQueue := queue }.Ordered := by
      apply h.setQueue
      rw [e]
      exact List.suffix_cons ..
    apply rest.setWorker
    intro x hand
    cases hand
    exact ⟨h.queue t (by rw [e]; exact List.mem_cons_self), sorted.1⟩
  | await here => exact h.setIdle rfl
  | @wait queue here waited =>
    have e := LifoSemBlockingQueue.wait_m_Queue waited
    have rest : { s with m_TaskQueue := queue }.Ordered := h.setQueue (e ▸ List.suffix_refl _)
    exact rest.setIdle rfl
  | quit here quit => exact h.setIdle rfl
  | dispatch here action pc effects =>
    have held := h.hand w _ (by rw [here]; rfl)
    refine (h.setWorker fun x hand => ?_).setTasks held.1 (.foldl effects)
    rcases pc with rfl | rfl <;> cases hand
    exact held
  | settle here effects =>
    have held := h.hand w _ (by rw [here]; rfl)
    exact (h.setIdle rfl).setTasks held.1 (.foldl effects)
  | stopping here => exact h.setIdle rfl
  | stopped here => exact h.setIdle rfl

/-- The worker `w` goes on; it was not stuck, or it still is. -/
lemma Stuck.setWorker {pool : ThreadPool} {pc : WorkerPc} (h : s.Stuck t)
    (endless : (s.workers w).Endless t → pc.Endless t) :
    { s with m_ThreadPool := pool, workers := Function.update s.workers w pc }.Stuck t := by
  obtain ⟨w', worker⟩ := h.worker
  refine ⟨h.action, h.queue, w', ?_⟩
  simp only [Function.update_apply]
  split
  next here => exact endless (here ▸ worker)
  next => exact worker

/-- The worker `w` goes on, and does not begin to handle the task `t`. -/
lemma Untried.setWorker {pool : ThreadPool} {pc : WorkerPc} (h : s.Untried t)
    (settle : ∀ x, pc = .doRun (.settle x) → x.acquisition ≠ t.acquisition)
    (dispatch : ∀ x, pc = .doRun (.dispatch x) → x.acquisition = t.acquisition → x = t) :
    { s with m_ThreadPool := pool, workers := Function.update s.workers w pc }.Untried t := by
  refine ⟨h.released, h.handedBack, fun w' x e => ?_, fun w' x e => ?_⟩
  all_goals
    simp only [Function.update_apply] at e
    split at e
  · exact settle x e
  · exact h.settle w' x e
  · exact dispatch x e
  · exact h.dispatch w' x e

/-- Something is done to another task. -/
lemma Untried.setTasks {tasks : TaskRecord ι} {x : TaskPtr} (h : s.Untried t)
    (other : x.acquisition ≠ t.acquisition) (handles : s.tasks.Handles x tasks) :
    { s with tasks := tasks }.Untried t where
  released := (handles.released _ other.symm).trans h.released
  handedBack y mem := by
    rcases handles.handedBack y mem with mem | rfl
    · exact h.handedBack y mem
    · exact other
  settle := h.settle
  dispatch := h.dispatch

/-- A queue that is stuck on one task stays so when another is handled. -/
lemma Stuck.setTasks {tasks : TaskRecord ι} {x : TaskPtr} (h : s.Stuck t)
    (handles : s.tasks.Handles x tasks) : { s with tasks := tasks }.Stuck t where
  action := handles.action t h.action
  queue := h.queue
  worker := h.worker

/-- A task is still untried when the workers and the tasks stay as they are. -/
lemma Untried.of_same (h : s.Untried t) (workers : s'.workers = s.workers)
    (tasks : s'.tasks = s.tasks) : s'.Untried t where
  released := tasks ▸ h.released
  handedBack := tasks ▸ h.handedBack
  settle := workers ▸ h.settle
  dispatch := workers ▸ h.dispatch

/-- The queue changes by copies of `t` only, or loses tasks. -/
lemma Stuck.of_same (h : s.Stuck t)
    (copies : ∀ x ∈ s'.m_TaskQueue.m_Queue, x ∈ s.m_TaskQueue.m_Queue ∨ x = t)
    (workers : s'.workers = s.workers) (tasks : s'.tasks = s.tasks) : s'.Stuck t where
  action := tasks ▸ h.action
  queue x mem := (copies x mem).elim (h.queue x) id
  worker := workers ▸ h.worker

/-- A task is still the last one when only copies of it are added. -/
lemma Last.of_same (h : s.Last t)
    (copies : ∀ x ∈ s'.m_TaskQueue.m_Queue, x ∈ s.m_TaskQueue.m_Queue ∨ x = t)
    (workers : s'.workers = s.workers) (tasks : s'.tasks = s.tasks) : s'.Last t where
  newest := tasks ▸ h.newest
  same x mem newest := (copies x mem).elim (fun mem => h.same x mem newest) id
  fate := h.fate.imp (·.of_same workers tasks) (·.of_same copies workers tasks)

/-- A worker without a task goes on, and it still is in its loop if it was. -/
lemma Last.setIdle {pool : ThreadPool} {pc : WorkerPc} (h : s.Last t) (idle : pc.hand = none)
    (endless : s.Stuck t → (s.workers w).Endless t → pc.Endless t) :
    { s with m_ThreadPool := pool, workers := Function.update s.workers w pc }.Last t where
  newest := h.newest
  same := h.same
  fate := by
    rcases h.fate with untried | stuck
    · refine .inl (untried.setWorker (fun x e => ?_) fun x e => ?_)
      all_goals
        rw [e] at idle
        cases idle
    · exact .inr (stuck.setWorker (endless stuck))

/-- A worker that has the last poison task in hand and goes on is stuck: only copies of it are left. -/
lemma Last.stuck {pc : WorkerPc} (h : s.Last t) (ordered : s.Ordered)
    (here : (s.workers w).hand = some t)
    (action : (s.tasks.memory t).m_SysAction ≠ .SA_QUIT_RUNNER) (endless : pc.Endless t) :
    { s with workers := Function.update s.workers w pc }.Stuck t := by
  refine ⟨action, fun x mem => ?_, w, ?_⟩
  · have older := (ordered.hand w t here).2 x mem
    have bound := Nat.lt_of_lt_of_le (ordered.queue x mem) ordered.posted_le
    have newest := h.newest
    exact h.same x mem (by omega)
  · simp only [Function.update_self]
    exact endless

/-- A worker never releases the last poison task unless another worker, or itself, is stuck. -/
lemma last_worker (h : s.Last t) (ordered : s.Ordered) (move : WorkerMove w s s') : s'.Last t := by
  cases move with
  | @read x queue here taken =>
    have e := LifoSemBlockingQueue.readIfNotEmpty_some taken
    have same := h.same
    rw [e] at same
    refine ⟨h.newest, fun y mem => same y (List.mem_cons_of_mem _ mem), ?_⟩
    -- whoever takes a copy has yet to look at it
    rcases h.fate with untried | stuck
    · have rest : { s with m_TaskQueue := queue }.Untried t := untried.of_same rfl rfl
      refine .inl (rest.setWorker nofun fun y e newest => ?_)
      cases e
      exact same x List.mem_cons_self newest
    · have rest : { s with m_TaskQueue := queue }.Stuck t :=
        stuck.of_same (fun y mem => .inl (e ▸ List.mem_cons_of_mem _ mem)) rfl rfl
      refine .inr (rest.setWorker fun _ => ?_)
      rw [stuck.queue x (e ▸ List.mem_cons_self)]
      exact .dispatch
  | await here => exact h.setIdle rfl fun _ _ => .wait
  | @wait queue here waited =>
    have e := LifoSemBlockingQueue.wait_m_Queue waited
    have rest : { s with m_TaskQueue := queue }.Last t :=
      h.of_same (fun x mem => .inl (e ▸ mem)) rfl rfl
    exact rest.setIdle rfl fun _ _ => .read
  | quit here quit =>
    apply h.setIdle rfl
    intro stuck endless
    rw [here] at endless
    cases endless
    exact absurd quit stuck.action
  | @dispatch x pc effects here action next own =>
    have handles := TaskRecord.Handles.foldl (r := s.tasks) own
    have endless : (WorkerPc.doRun pc).Endless t := by
      rcases next with rfl | rfl
      · exact .read
      · exact .settle
    refine ⟨h.newest.trans handles.acquired.symm, h.same, ?_⟩
    rcases h.fate with untried | stuck
    · by_cases last : x.acquisition = t.acquisition
      · -- its storage has been overwritten, and no one writes `SA_QUIT_RUNNER` again
        obtain rfl := untried.dispatch w x here last
        have stuck := h.stuck ordered (w := w) (by rw [here]; rfl) action endless
        exact .inr (stuck.setTasks handles)
      · refine .inl ((untried.setWorker (fun y e => ?_) fun y e => ?_).setTasks last handles)
        · rcases next with rfl | rfl <;> cases e
          exact last
        · rcases next with rfl | rfl <;> cases e
    · exact .inr ((stuck.setWorker fun _ => endless).setTasks handles)
  | @settle x effects here own =>
    have handles := TaskRecord.Handles.foldl (r := s.tasks) own
    refine ⟨h.newest.trans handles.acquired.symm, h.same, ?_⟩
    rcases h.fate with untried | stuck
    · -- the task that a worker settles is not the last one
      refine .inl ((untried.setWorker ?_ ?_).setTasks (untried.settle w x here) handles)
      all_goals exact nofun
    · exact .inr ((stuck.setWorker fun _ => .read).setTasks handles)
  | stopping here | stopped here =>
    apply h.setIdle rfl
    intro _ endless
    rw [here] at endless
    cases endless

/-! ## The calls -/

variable {current : Option ι}

/-- The order does not depend on anything else. -/
lemma Ordered.of_same (h : s.Ordered) (queue : s'.m_TaskQueue.m_Queue = s.m_TaskQueue.m_Queue)
    (hand : ∀ w x, (s'.workers w).hand = some x → (s.workers w).hand = some x)
    (released : s'.tasks.released = s.tasks.released)
    (handedBack : s'.tasks.handedBack = s.tasks.handedBack) (posted : s.posted ≤ s'.posted)
    (newest : ∀ t, s'.pc.newest = some t → t.acquisition + 1 = s'.tasks.acquired) :
    s'.Ordered := by
  refine ⟨newest, queue ▸ h.sorted, fun x mem => ?_, fun w x held => ?_, fun x mem => ?_,
    fun n le => ?_⟩
  · rw [queue] at mem
    exact Nat.lt_of_lt_of_le (h.queue x mem) posted
  · obtain ⟨bound, least⟩ := h.hand w x (hand w x held)
    exact ⟨Nat.lt_of_lt_of_le bound posted, queue ▸ least⟩
  · rw [handedBack] at mem
    exact Nat.lt_of_lt_of_le (h.handedBack x mem) posted
  · rw [released]
    exact h.released n (Nat.le_trans posted le)

/-- A task counts as posted when its `Post` has begun. -/
lemma posted_post {queue : LifoSemBlockingQueue TaskPtr} {pc : AddPc} {after : AfterPost}
    (left : pc ≠ .start) :
    { s with m_TaskQueue := queue, pc := .post t pc after }.posted = s.tasks.acquired := by
  unfold posted
  cases pc with
  | start => exact absurd rfl left
  | blockingWrite | post | returned | thrown => rfl

/-- The newest task is written to the queue. -/
lemma Ordered.append {queue : LifoSemBlockingQueue TaskPtr} {pc pc' : AddPc} {after : AfterPost}
    (h : s.Ordered) (here : s.pc = .post t pc after) (left : pc' ≠ .start)
    (e : queue.m_Queue = s.m_TaskQueue.m_Queue ++ [t]) :
    { s with m_TaskQueue := queue, pc := .post t pc' after }.Ordered := by
  have newest : t.acquisition + 1 = s.tasks.acquired := h.newest t (by rw [here]; rfl)
  have posted : { s with m_TaskQueue := queue, pc := .post t pc' after }.posted =
      s.tasks.acquired := posted_post left
  have le := h.posted_le
  have mem_queue : ∀ {x}, x ∈ queue.m_Queue → x ∈ s.m_TaskQueue.m_Queue ∨ x = t := by
    intro x mem
    rw [e] at mem
    simpa using mem
  refine ⟨fun x e => ?_, ?_, fun x mem => ?_, fun w x held => ?_, fun x mem => ?_, fun n le => ?_⟩
  · cases e
    exact newest
  · show queue.m_Queue.Pairwise _
    rw [e, List.pairwise_append]
    refine ⟨h.sorted, List.pairwise_singleton _ _, fun x mem y last => ?_⟩
    cases List.mem_singleton.mp last
    have := h.queue x mem
    omega
  · rw [posted]
    rcases mem_queue mem with mem | rfl
    · exact Nat.lt_of_lt_of_le (h.queue x mem) le
    · omega
  · obtain ⟨bound, least⟩ := h.hand w x held
    rw [posted]
    refine ⟨Nat.lt_of_lt_of_le bound le, fun y mem => ?_⟩
    rcases mem_queue mem with mem | rfl
    · exact least y mem
    · omega
  · rw [posted]
    exact Nat.lt_of_lt_of_le (h.handedBack x mem) le
  · rw [posted] at le
    exact h.released n (Nat.le_trans h.posted_le le)

/-- `SetMaxThread` does nothing, takes threads out or adds some. -/
lemma setMaxThread_cases (numOfThread : Nat) :
    s.m_CurThreadCount = numOfThread ∧ s.setMaxThread numOfThread = s ∨
    numOfThread < s.m_CurThreadCount ∧
      s.setMaxThread numOfThread = s.removeThread (s.m_CurThreadCount - numOfThread) ∨
    s.m_CurThreadCount < numOfThread ∧ s.setMaxThread numOfThread =
      { s with pc := .addThread (numOfThread - s.m_CurThreadCount) } := by
  unfold setMaxThread
  split
  next ne =>
    split
    next lt => exact .inr (.inl ⟨lt, rfl⟩)
    next le => exact .inr (.inr ⟨by omega, rfl⟩)
  next e => exact .inl ⟨by omega, rfl⟩

/-- A step of the caller keeps the order. -/
lemma ordered_caller (h : s.Ordered) (move : CallerMove current s s') : s'.Ordered := by
  cases move with
  | @begin call calls pc pending =>
    cases call with
    | setMaxThread numOfThread =>
      have begun : { s with calls := calls }.Ordered := h.of_same rfl (fun _ _ => id) rfl rfl
        (Nat.le_refl _) h.newest
      unfold begin
      obtain ⟨-, e⟩ | ⟨-, e⟩ | ⟨-, e⟩ :=
        setMaxThread_cases (s := { s with calls := calls }) numOfThread
      · simp only [e]
        exact begun
      · simp only [e]
        exact begun.of_same rfl (fun _ _ => id) rfl rfl h.posted_le nofun
      · simp only [e]
        exact begun.of_same rfl (fun _ _ => id) rfl rfl h.posted_le nofun
    | add func =>
      refine h.of_same rfl (fun _ _ => id) rfl rfl h.posted_le fun x e => ?_
      cases e
      rfl
    | stopAllThread => exact h.of_same rfl (fun _ _ => id) rfl rfl h.posted_le nofun
  | createThread pc =>
    refine h.of_same rfl (fun w x held => ?_) rfl rfl h.posted_le nofun
    simp only [Function.update_apply] at held
    split at held
    · cases held
    · exact held
  | fill pc | posion pc =>
    refine h.of_same rfl (fun _ _ => id) rfl rfl ?_ fun x e => ?_
    · unfold posted
      rw [pc]
    · cases e
      exact h.newest _ (by rw [pc]; rfl)
  | post pc written =>
    obtain ⟨left, same | more⟩ := LifoSemBlockingQueue.add_cases written
    · refine h.of_same same (fun _ _ => id) rfl rfl ?_ fun x e => ?_
      · rw [posted_post left]
        exact h.posted_le
      · cases e
        exact h.newest _ (by rw [pc]; rfl)
    · exact h.append pc left more
  | exit pc =>
    refine h.of_same rfl (fun _ _ => id) rfl rfl h.posted_le fun x e => ?_
    cases e
    rfl
  | threadsAdded | added | exited | thrown | exitsDone | joined | take | await | wait | join =>
    exact h.of_same rfl (fun _ _ => id) rfl rfl h.posted_le nofun

/-- Inside a call the count is kept, and a call changes it to its own. -/
lemma counted_caller (h : s.Counted m) (move : CallerMove current s s') :
    s'.calls = s.calls ∧ s'.Counted m ∨
    ∃ call calls, s.pc = .ready ∧ s.calls = call :: calls ∧
      s' = { s with calls := calls }.begin current call := by
  unfold Counted at h ⊢
  cases move with
  | begin pc pending => exact .inr ⟨_, _, pc, pending, rfl⟩
  | threadsAdded pc =>
    rw [pc] at h
    exact .inl ⟨rfl, h, h⟩
  | createThread pc =>
    rw [pc] at h
    refine .inl ⟨rfl, ?_⟩
    have more : (s.m_ThreadPool.m_Threads.add s.nextUID).size = s.m_ThreadPool.m_Threads.size + 1 :=
      ThreadList.add_perm.length_eq
    show (s.m_ThreadPool.m_Threads.add s.nextUID).size + _ = m
    omega
  | fill pc | added pc | exited pc | posion pc | exitsDone pc | exit pc | await pc | wait pc =>
    rw [pc] at h
    exact .inl ⟨rfl, h⟩
  | thrown pc => exact .inl ⟨rfl, trivial⟩
  | @post t pc0 pc' after queue pc written =>
    rw [pc] at h
    refine .inl ⟨rfl, ?_⟩
    cases after <;> exact h
  | joined pc =>
    rw [pc] at h
    exact .inl ⟨rfl, h, h⟩
  | take pc popped =>
    rw [pc] at h
    exact .inl ⟨rfl, h⟩
  | @join thread threads left num pc ended removed =>
    rw [pc] at h
    refine .inl ⟨rfl, ?_⟩
    have fewer : s.m_ThreadPool.m_Threads.size = threads.size + 1 :=
      (ThreadList.remove_perm removed).length_eq
    show threads.size = m + left
    omega

/-- A call does not change the calls after it. -/
lemma begin_calls {call : Call} : (s.begin current call).calls = s.calls := by
  cases call with
  | setMaxThread numOfThread =>
    show (s.setMaxThread numOfThread).calls = s.calls
    obtain ⟨-, e⟩ | ⟨-, e⟩ | ⟨-, e⟩ := setMaxThread_cases (s := s) numOfThread
    all_goals simp only [e, removeThread]
  | add | stopAllThread => rfl

/-- A call that begins is going to make the threads that it should. -/
lemma counted_begin {call : Call} {calls : List Call} (h : s.Counted m) (ready : s.pc = .ready) :
    ({ s with calls := calls }.begin current call).Counted (call.threads m) := by
  unfold Counted at h
  rw [ready] at h
  obtain ⟨current, size⟩ := h
  cases call with
  | setMaxThread numOfThread =>
    obtain ⟨same, e⟩ | ⟨lt, e⟩ | ⟨lt, e⟩ :=
      setMaxThread_cases (s := { s with calls := calls }) numOfThread
    all_goals
      show Counted (setMaxThread _ _) numOfThread
      rw [e]
      unfold Counted
    · simp only [ready]
      exact ⟨same, by rw [size, ← current, same]⟩
    · show s.m_ThreadPool.m_Threads.size = numOfThread + (s.m_CurThreadCount - numOfThread)
      change numOfThread < s.m_CurThreadCount at lt
      omega
    · show s.m_ThreadPool.m_Threads.size + (numOfThread - s.m_CurThreadCount) = numOfThread
      change s.m_CurThreadCount < numOfThread at lt
      omega
  | add func => exact ⟨current, size⟩
  | stopAllThread =>
    show s.m_ThreadPool.m_Threads.size = 0 + s.m_CurThreadCount
    omega

/-- The calling thread makes no other task after the last poison task. -/
lemma last_caller (h : s.Last t) (final : s.pc.Final t) (calls : s.calls = [])
    (move : CallerMove current s s') : s'.pc.Final t ∧ s'.Last t := by
  cases move with
  | begin pc pending => cases calls.symm.trans pending
  | threadsAdded pc | createThread pc | fill pc | added pc | exit pc | posion pc =>
    rw [pc] at final
    exact final.elim
  | @exited t' left num pc =>
    rw [pc] at final
    cases left with
    | zero => exact ⟨trivial, h.of_same (fun _ => .inl) rfl rfl⟩
    | succ left => exact final.elim
  | @post t' pc0 pc' after queue pc written =>
    rw [pc] at final
    cases after with
    | add => exact final.elim
    | exit left num =>
      cases left with
      | succ left => exact final.elim
      | zero =>
        cases final
        refine ⟨rfl, h.of_same ?_ rfl rfl⟩
        obtain ⟨-, same | more⟩ := LifoSemBlockingQueue.add_cases written
        · rw [same]
          exact fun x => .inl
        · rw [more]
          simp
  | thrown | exitsDone | joined | take | await | wait | join =>
    exact ⟨trivial, h.of_same (fun _ => .inl) rfl rfl⟩

/-- The loop of `RemoveThread` goes on, or makes its last poison task. -/
lemma exitsLeft_caller (h : s.Ordered) (left : s.pc.ExitsLeft)
    (move : CallerMove current s s') :
    s'.pc.ExitsLeft ∨ s'.pc = .thrown ∨ ∃ t, s'.pc.Final t ∧ s'.Last t := by
  cases move with
  | begin pc | threadsAdded pc | createThread pc | fill pc | added pc | exitsDone pc | joined pc
  | take pc | await pc | wait pc | join pc =>
    rw [pc] at left
    exact left.elim
  | @exited t left' num pc =>
    rw [pc] at left
    cases left' with
    | zero => exact left.elim
    | succ left' => exact .inl trivial
  | thrown => exact .inr (.inl rfl)
  | @post t pc0 pc' after queue pc written =>
    rw [pc] at left
    cases after with
    | add => exact left.elim
    | exit left' num =>
      cases left' with
      | zero => exact left.elim
      | succ left' => exact .inl trivial
  | exit => exact .inl trivial
  | @posion t left' num pc =>
    cases left' with
    | succ left' => exact .inl trivial
    | zero =>
      -- no pointer from this acquisition has been posted
      have posted : s.posted = t.acquisition := by
        unfold CPUThreadPoolExecutor.posted
        rw [pc]
      have older : ∀ {x : TaskPtr}, x.acquisition < s.posted → x.acquisition ≠ t.acquisition := by
        intro x bound
        omega
      refine .inr (.inr ⟨t, rfl, h.newest t (by rw [pc]; rfl), fun x mem e => ?_, .inl ?_⟩)
      · exact absurd e (older (h.queue x mem))
      · refine ⟨h.released _ (Nat.le_of_eq posted), fun x mem => older (h.handedBack x mem),
          fun w x e => ?_, fun w x e same => ?_⟩
        · exact older (h.hand w x (by rw [e]; rfl)).1
        · exact absurd same (older (h.hand w x (by rw [e]; rfl)).1)

/-- A step of the caller leads to the next stage. -/
lemma stage_caller (pos : 0 < n) (h : s.Stage n) (ordered : s.Ordered)
    (move : CallerMove current s s') : s'.Stage n := by
  cases h with
  | @before calls m pending counted final =>
    obtain ⟨same, counted⟩ | ⟨call, rest, ready, next, rfl⟩ := counted_caller counted move
    · exact .before (same.trans pending) counted final
    · have begun : ({ s with calls := rest }.begin current call).Counted (call.threads m) :=
        counted_begin counted ready
      rw [next] at pending
      cases calls with
      | nil =>
        -- `StopAllThread` begins, with as many poison tasks to make as there are threads
        cases pending
        unfold Counted at counted
        rw [ready] at counted
        obtain ⟨count, size⟩ := counted
        cases final
        refine .stopping rfl begun ?_
        show (CallerPc.exit (min s.m_ThreadPool.m_Threads.size s.m_CurThreadCount) _).ExitsLeft
        rw [size, count, Nat.min_self]
        cases m with
        | zero => cases pos
        | succ m => trivial
      | cons call' calls =>
        cases pending
        exact .before begin_calls begun final
  | stopping none counted left =>
    obtain ⟨same, counted⟩ | ⟨call, rest, -, next, -⟩ := counted_caller counted move
    · have none := same.trans none
      obtain left | thrown | ⟨t, final, last⟩ := exitsLeft_caller ordered left move
      · exact .stopping none counted left
      · exact .thrown thrown
      · exact .last none counted final last
    · cases none.symm.trans next
  | last none counted final last =>
    obtain ⟨same, counted⟩ | ⟨call, rest, -, next, -⟩ := counted_caller counted move
    · obtain ⟨final, last⟩ := last_caller last final none move
      exact .last (same.trans none) counted final last
    · cases none.symm.trans next
  | thrown pc =>
    cases move with
    | begin pc' | threadsAdded pc' | createThread pc' | fill pc' | added pc' | exited pc' | thrown pc'
    | post pc' | exitsDone pc' | exit pc' | posion pc' | joined pc' | take pc' | await pc' | wait pc'
    | join pc' => cases pc.symm.trans pc'

/-! ## Runs -/

/-- A step of the caller keeps the account. -/
lemma accounted_caller (h : s.Accounted) (move : CallerMove current s s') : s'.Accounted := by
  cases move with
  | @begin call calls =>
    cases call with
    | setMaxThread numOfThread =>
      show (setMaxThread _ _).Accounted
      obtain ⟨-, e⟩ | ⟨-, e⟩ | ⟨-, e⟩ :=
        setMaxThread_cases (s := { s with calls := calls }) numOfThread
      all_goals
        rw [e]
        exact h
    | add | stopAllThread => exact h
  | createThread pc => exact ThreadList.Covers.add h
  | join pc ended removed => exact ThreadList.Covers.remove h ended removed
  | threadsAdded | fill | added | exited | thrown | post | exitsDone | exit | posion | joined | take
  | await | wait => exact h

/-- A step of a worker keeps the account. -/
lemma accounted_worker (h : s.Accounted) (move : WorkerMove w s s') : s'.Accounted := by
  cases move with
  | read here | await here | wait here | quit here | dispatch here | settle here | stopping here
  | stopped here => exact ThreadList.Covers.update h fun _ => by rw [here]; exact nofun

/-- A step of a worker makes no call. -/
lemma counted_worker (h : s.Counted m) (move : WorkerMove w s s') :
    s'.calls = s.calls ∧ s'.pc = s.pc ∧ s'.Counted m := by
  cases move with
  | read | await | wait | quit | dispatch | settle | stopping | stopped => exact ⟨rfl, rfl, h⟩

/-- A step of a worker keeps the stage or leads to the next one. -/
lemma stage_worker (h : s.Stage n) (ordered : s.Ordered) (move : WorkerMove w s s') :
    s'.Stage n := by
  cases h with
  | before pending counted final =>
    obtain ⟨calls, pc, counted⟩ := counted_worker counted move
    exact .before (calls.trans pending) counted final
  | stopping none counted left =>
    obtain ⟨calls, pc, counted⟩ := counted_worker counted move
    exact .stopping (calls.trans none) counted (pc ▸ left)
  | last none counted final last =>
    obtain ⟨calls, pc, counted⟩ := counted_worker counted move
    exact .last (calls.trans none) counted (pc ▸ final) (last_worker last ordered move)
  | thrown thrown =>
    cases move with
    | read | await | wait | quit | dispatch | settle | stopping | stopped => exact .thrown thrown

/-- A task that is handed back does not take the last quit task away. -/
lemma Last.setTasks {tasks : TaskRecord ι} {x : TaskPtr} (h : s.Last t)
    (mem : x ∈ s.tasks.handedBack) (handles : s.tasks.Handles x tasks) :
    { s with tasks := tasks }.Last t where
  newest := h.newest.trans handles.acquired.symm
  same := h.same
  fate := by
    rcases h.fate with untried | stuck
    · exact .inl (untried.setTasks (untried.handedBack x mem) handles)
    · exact .inr (stuck.setTasks handles)

/-- The end of a task keeps the stage. -/
lemma stage_finish {tasks : TaskRecord ι} {x : TaskPtr} (h : s.Stage n)
    (mem : x ∈ s.tasks.handedBack) (handles : s.tasks.Handles x tasks) :
    { s with tasks := tasks }.Stage n := by
  cases h with
  | before pending counted final => exact .before pending counted final
  | stopping none counted left => exact .stopping none counted left
  | last none counted final last => exact .last none counted final (last.setTasks mem handles)
  | thrown pc => exact .thrown pc

/-- The whole invariant. -/
structure Invariant (n : Nat) (s : CPUThreadPoolExecutor ι) : Prop where
  ordered : s.Ordered
  accounted : s.Accounted
  stage : s.Stage n

/-- The calls begin with no thread. -/
lemma invariant_new {m_TaskAllocator : FreeList (Task ι)} {calls : List Call}
    (final : calls.foldl Call.threads 0 = n) :
    (new m_TaskAllocator (calls ++ [.stopAllThread])).Invariant n where
  ordered := ⟨nofun, .nil, nofun, nofun, nofun, fun _ _ => rfl⟩
  accounted _ running := absurd rfl running
  stage := .before rfl ⟨rfl, rfl⟩ final

/-- No step of any thread breaks the invariant. -/
lemma invariant_step [DecidableEq ι] {a : Event} (pos : 0 < n) (h : s.Invariant n)
    (st : Exec (step current) s a s') : s'.Invariant n := by
  cases a with
  | caller =>
    have move := caller_move st
    exact ⟨ordered_caller h.ordered move, accounted_caller h.accounted move,
      stage_caller pos h.stage h.ordered move⟩
  | worker w =>
    have move := runThread_move st
    exact ⟨ordered_worker h.ordered move, accounted_worker h.accounted move,
      stage_worker h.stage h.ordered move⟩
  | finish x =>
    obtain ⟨mem, rfl⟩ := finish_move st
    have handles := TaskRecord.Handles.finish (r := s.tasks) (t := x)
    exact ⟨h.ordered.setTasks (h.ordered.handedBack x mem) handles, h.accounted,
      stage_finish h.stage mem handles⟩

/-- When everything has returned, the last poison task has not been released. -/
lemma Invariant.unreleased (h : s.Invariant n) (none : s.calls = []) (ready : s.pc = .ready) :
    ∃ k < s.tasks.acquired, s.tasks.released k = 0 := by
  cases h.stage with
  | before pending => simp [none] at pending
  | stopping _ _ left =>
    rw [ready] at left
    exact left.elim
  | thrown pc => cases pc.symm.trans ready
  | @last t _ counted _ last =>
    rcases last.fate with untried | stuck
    · exact ⟨t.acquisition, by have := last.newest; omega, untried.released⟩
    · -- a worker that is stuck is still a thread of the pool
      obtain ⟨w, endless⟩ := stuck.worker
      unfold Counted at counted
      rw [ready] at counted
      have empty := List.length_eq_zero_iff.mp counted.2
      have mem := h.accounted w fun ended => by
        rw [ended] at endless
        cases endless
      rw [empty] at mem
      cases mem

/-- `add` starts no thread. -/
lemma threads_add (funcs : List Nat) : (funcs.map Call.add).foldl Call.threads n = n := by
  induction funcs with
  | nil => rfl
  | cons func funcs ih => exact ih

/-- With at least one worker, no run of the executor in which `StopAllThread` returns has released
    each task exactly once. -/
theorem not_completed_of_returned [DecidableEq ι] (m_TaskAllocator : FreeList (Task ι))
    (current : Option ι) (n : Nat) (pos : 0 < n) (funcs : List Nat) {l : List Event}
    (run : Run (Exec (step current)) (new m_TaskAllocator
      (.setMaxThread n :: funcs.map .add ++ [.stopAllThread])) l s)
    (none : s.calls = []) (ready : s.pc = .ready) : ¬ s.Completed funcs := by
  have final : (Call.setMaxThread n :: funcs.map .add).foldl Call.threads 0 = n :=
    threads_add funcs
  have h : s.Invariant n := run.invariant (invariant_new final) (invariant_step pos)
  obtain ⟨k, lt, zero⟩ := h.unreleased none ready
  intro completed
  have one := completed.released k lt
  omega

/-- Two workers are started and stopped, with two objects left in `TaskAllocator`. -/
theorem not_completed_of_returned_idle :
    let task : Task Unit := ⟨.SA_NONE, none, none, none, none, .TS_QUEUED⟩
    let allocator : FreeList (Task Unit) := ⟨2048, [1, 0], 2048, fun _ => task⟩
    let events : List Event := List.replicate 18 .caller ++ List.replicate 4 (.worker 0) ++
      List.replicate 4 (.worker 1) ++ List.replicate 5 .caller
    ∃ s, Run (Exec (step none)) (new allocator [.setMaxThread 2, .stopAllThread]) events s ∧
      s.calls = [] ∧ s.pc = .ready ∧ ¬ s.Completed [] := by
  intro task allocator events
  have state : (exec (step none) (new allocator [.setMaxThread 2, .stopAllThread]) events).map
      (fun s => (s.calls, s.pc)) = some ([], .ready) := by decide
  obtain ⟨s, run, fields⟩ := run_of_map state
  simp only [Prod.mk.injEq] at fields
  obtain ⟨none, ready⟩ := fields
  exact ⟨s, run, none, ready,
    not_completed_of_returned allocator .none 2 (by decide) [] run none ready⟩

/-- One worker and one function: the function's task is released twice, the poison task never. -/
theorem posion_not_released :
    let task : Task Unit := ⟨.SA_NONE, none, none, none, none, .TS_QUEUED⟩
    let allocator : FreeList (Task Unit) := ⟨2048, [1, 0], 2048, fun _ => task⟩
    let events : List Event := List.replicate 9 .caller ++ List.replicate 6 (.worker 0) ++
      List.replicate 7 .caller ++ List.replicate 4 (.worker 0) ++ List.replicate 4 .caller
    ∃ s, Run (Exec (step none)) (new allocator [.setMaxThread 1, .add 7, .stopAllThread]) events s ∧
      s.calls = [] ∧ s.pc = .ready ∧ s.tasks.acquired = 2 ∧ s.tasks.ran 7 = 1 ∧
      s.tasks.released 0 = 2 ∧ s.tasks.released 1 = 0 ∧ ¬ s.Completed [7] := by
  intro task allocator events
  have state : (exec (step none) (new allocator [.setMaxThread 1, .add 7, .stopAllThread])
      events).map (fun s => (s.calls, s.pc, s.tasks.acquired, s.tasks.ran 7, s.tasks.released 0,
        s.tasks.released 1)) = some ([], .ready, 2, 1, 2, 0) := by decide
  obtain ⟨s, run, fields⟩ := run_of_map state
  simp only [Prod.mk.injEq] at fields
  obtain ⟨none, ready, acquired, ran, twice, never⟩ := fields
  refine ⟨s, run, none, ready, acquired, ran, twice, never, fun completed => ?_⟩
  have once := completed.released 1 (by omega)
  omega

end CPUThreadPoolExecutor
end XLN
