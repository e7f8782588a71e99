import XLN.Foundation.Task.Basic
import XLN.Foundation.Task.BlockingQueue

/-!
# The runner with many threads

`Core/Foundation/Task/MPMCTaskRunner.cpp`: any number of threads run `DoRun` on one blocking queue.
`doRun` is one step of one of them. A task with `SA_QUIT_RUNNER` ends the thread that takes it.
-/

namespace XLN

/-- Where a thread is in `DoRun`: at the `readIfNotEmpty` and the `wait` of `Take`, with a task in hand
    before and after it has been handled, or back. -/
inductive RunPc (τ : Type) where
  | read
  | wait
  | dispatch (task : τ)
  | settle (task : τ)
  | returned
  deriving DecidableEq

namespace MPMCTaskRunner

variable {τ ι : Type}

/-- The end of a task: its `m_DeleteCB` if there is one. -/
def delete (task : Task ι) (t : τ) : List (Effect τ ι) :=
  if task.m_DeleteCB.isSome then [.deleteCB t] else [.release t]

/-- The branch for `SA_RELEASE_TASK`. -/
def finish (task : Task ι) (t : τ) : List (Effect τ ι) :=
  if task.m_Whom.isSome then .onFinish t :: delete task t else delete task t

/-- What `DoRun` runs for any other task; `m_RunTaskCB` says whether there is a run callback. -/
def invoke (m_RunTaskCB : Bool) (task : Task ι) (t : τ) : List (Effect τ ι) :=
  if task.m_SysAction = .SA_WAIT_NOTIFIER then []
  else
    (if task.m_FollyFunc.isSome then [.follyFunc t]
      else if task.m_Whom.isSome then [.handle t]
      else []) ++
    if m_RunTaskCB then [.runTaskCB t] else []

variable [DecidableEq ι]

/-- The end of that branch, on a thread whose `TaskProcessor::GetCurrent()` is `self`. -/
def settle (self : Option ι) (task : Task ι) (t : τ) : List (Effect τ ι) :=
  match task.m_CurrentProcessor with
  | none => delete task t
  | some processor => if some processor = self then delete task t else [.handBack t processor]

/-- One step of `DoRun`, or `none` while the thread has to wait. -/
def doRun (self : Option ι) (m_RunTaskCB : Bool) (memory : τ → Task ι)
    (m_TaskQueue : LifoSemBlockingQueue τ) :
    RunPc τ → Option (RunPc τ × LifoSemBlockingQueue τ × List (Effect τ ι))
  | .read =>
    match m_TaskQueue.readIfNotEmpty with
    | some (t, queue) => some (.dispatch t, queue, [])
    | none => some (.wait, m_TaskQueue, [])
  | .wait => m_TaskQueue.wait.map fun queue => (.read, queue, [])
  | .dispatch t =>
    if (memory t).m_SysAction = .SA_QUIT_RUNNER then some (.returned, m_TaskQueue, [])
    else if (memory t).m_SysAction = .SA_RELEASE_TASK then
      some (.read, m_TaskQueue, finish (memory t) t)
    else some (.settle t, m_TaskQueue, invoke m_RunTaskCB (memory t) t ++ [.handled t])
  | .settle t => some (.read, m_TaskQueue, settle self (memory t) t)
  | .returned => none

variable {self : Option ι} {m_RunTaskCB : Bool} {task : Task ι} {t : τ} {e : Effect τ ι}

omit [DecidableEq ι] in
/-- The deletion of a task concerns this task. -/
lemma delete_task (mem : e ∈ delete task t) : e.task = t := by
  unfold delete at mem
  split at mem <;> cases List.mem_singleton.mp mem <;> rfl

omit [DecidableEq ι] in
/-- The end of a task concerns this task. -/
lemma finish_task (mem : e ∈ finish task t) : e.task = t := by
  unfold finish at mem
  split at mem
  · cases mem with
    | head => rfl
    | tail _ mem => exact delete_task mem
  · exact delete_task mem

omit [DecidableEq ι] in
/-- The call of a task concerns this task. -/
lemma invoke_task (mem : e ∈ invoke m_RunTaskCB task t) : e.task = t := by
  unfold invoke at mem
  split at mem
  · cases mem
  · rcases List.mem_append.mp mem with mem | mem
    · split at mem
      · cases List.mem_singleton.mp mem
        rfl
      · split at mem
        · cases List.mem_singleton.mp mem
          rfl
        · cases mem
    · split at mem
      · cases List.mem_singleton.mp mem
        rfl
      · cases mem

/-- The settling of a task concerns this task. -/
lemma settle_task (mem : e ∈ settle self task t) : e.task = t := by
  unfold settle at mem
  split at mem
  · exact delete_task mem
  · split at mem
    · exact delete_task mem
    · cases List.mem_singleton.mp mem
      rfl

end MPMCTaskRunner
end XLN
