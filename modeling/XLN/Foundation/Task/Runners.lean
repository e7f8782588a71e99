import XLN.Lib.Transition
import XLN.Lib.Before
import XLN.Foundation.Task.TaskConsumer
import XLN.Foundation.Task.FrameRunner
import XLN.Foundation.Task.MPMCTaskRunner

/-!
# The runners compared

The three loops `DoRun` on the same sequence of tasks. What each of them does is put together from what
it does to one task (`outputs_process`), which ends with the only effect that the runner is done with
the task by. So the loops agree on a sequence exactly if they agree on each of its tasks, and
`sameEffects_iff` says which tasks these are: the `FrameRunner` never runs a function and finishes a
task of its own processor, and only the `MPMCTaskRunner` heeds `m_DeleteCB`.
-/

namespace XLN
open Transition

/-- What can be seen of an effect from outside: everything but `SetState`. -/
def Effect.observable {τ ι : Type} : Effect τ ι → Bool
  | handled _ => false
  | _ => true

/-- The runner is done with a task. -/
def Effect.isDone {τ ι : Type} (effect : Effect τ ι) : Bool :=
  effect.done.isSome

variable {τ ι : Type}

/-- What settles a task is a block that ends the task. -/
lemma Task.finish_block (task : Task ι) (t : τ) :
    List.Block Effect.isDone (task.finish t : List (Effect τ ι)) := by
  rcases (Task.finish_cases : task.finish t = _ ∨ _) with h | h
  · rw [h]
    exact .last rfl
  · rw [h]
    exact .cons rfl (.last rfl)

/-- The end of a task can be observed. -/
lemma Effect.observable_of_isDone (effect : Effect τ ι) (done : effect.isDone = true) :
    effect.observable = true := by
  cases effect with
  | handled t => cases done
  | _ => rfl

variable [DecidableEq ι]

/-! ## One loop after the other -/

namespace TaskConsumer

/-- What the loop does to one task. -/
def process (self : ι) (task : Task ι) (t : τ) : List (Effect τ ι) :=
  if task.m_SysAction = .SA_RELEASE_TASK then task.finish t
  else invoke task t ++ [.handled t] ++ settle self task t

omit [DecidableEq ι] in
/-- The thread has just swapped the queues. -/
def holding (tasks : List τ) : TaskConsumer τ where
  m_Finished := false
  m_NewTaskReady := false
  m_IncomingQueue := ⟨[]⟩
  m_WorkingQueue := ⟨tasks⟩
  pc := .innerTest

/-- One round of the inner loop. -/
lemma puts_process (self : ι) (memory : τ → Task ι) (t : τ) (tasks : List τ) :
    Puts (doRun self memory) (holding (t :: tasks)) (process self (memory t) t) (holding tasks) := by
  have dequeue : doRun self memory (holding (t :: tasks)) =
      some ({ holding (t :: tasks) with pc := .dequeue }, []) := rfl
  have dispatch : doRun self memory { holding (t :: tasks) with pc := .dequeue } =
      some ({ holding tasks with pc := .dispatch t }, []) := rfl
  refine .silent dequeue (.silent dispatch ?_)
  unfold process
  split
  next back =>
    have finish : doRun self memory { holding tasks with pc := .dispatch t } =
        some (holding tasks, (memory t).finish t) := if_pos back
    exact .single finish
  next back =>
    have invoke : doRun self memory { holding tasks with pc := .dispatch t } =
        some ({ holding tasks with pc := .settle t }, invoke (memory t) t ++ [.handled t]) :=
      if_neg back
    have settle : doRun self memory { holding tasks with pc := .settle t } =
        some (holding tasks, settle self (memory t) t) := rfl
    exact .next invoke (.single settle)

/-- The loop processes one task after the other. -/
lemma outputs_process (self : ι) (memory : τ → Task ι) (tasks : List τ) :
    Outputs (doRun self memory) (holding tasks)
      (tasks.flatMap fun t => process self (memory t) t) := by
  apply Outputs.flatMap holding
  · -- out of the inner loop, and then the ready flag is not set
    have dequeue : doRun self memory (holding ([] : List τ)) =
        some ({ holding [] with pc := .dequeue }, []) := rfl
    have test : doRun self memory { holding ([] : List τ) with pc := .dequeue } =
        some ({ holding [] with pc := .testFinished }, []) := rfl
    have await : doRun self memory { holding ([] : List τ) with pc := .testFinished } =
        some ({ holding [] with pc := .awaitTask }, []) := rfl
    exact .silent dequeue (.silent test (.silent await (.stop rfl)))
  · exact fun t _ => puts_process self memory t

omit [DecidableEq ι] in
/-- What comes before the settling ends no task. -/
lemma invoke_plain {task : Task ι} {t : τ} :
    ∀ e ∈ invoke task t ++ [.handled t], e.isDone = false := by
  rcases (invoke_cases : invoke task t = _ ∨ _) with h | h | h
  all_goals
    rw [h]
    simp [Effect.isDone, Effect.done]

/-- Whatever the loop does to a task, it is done with it last. -/
lemma process_block (self : ι) (task : Task ι) (t : τ) :
    List.Block Effect.isDone (process self task t) := by
  unfold process
  split
  · exact Task.finish_block task t
  · refine .append_left ?_ invoke_plain
    rcases (settle_cases : settle self task t = _ ∨ _) with h | ⟨_, -, -, h⟩
    all_goals
      rw [h]
      exact .last rfl

end TaskConsumer

namespace FrameRunner

/-- What the loop does to one task. -/
def process (self : ι) (task : Task ι) (t : τ) : List (Effect τ ι) :=
  if task.m_SysAction = .SA_RELEASE_TASK then task.finish t
  else invoke task t ++ [.handled t] ++ settle self task t

omit [DecidableEq ι] in
/-- The thread has just entered the loop. -/
def holding (tasks : List τ) : FrameRunner τ where
  m_WaitingTasks := tasks
  pc := .pop

/-- One round of the loop. -/
lemma puts_process (self : ι) (memory : τ → Task ι) (t : τ) (tasks : List τ) :
    Puts (doRun self memory) (holding (t :: tasks)) (process self (memory t) t) (holding tasks) := by
  have pop : doRun self memory (holding (t :: tasks)) =
      some ({ holding tasks with pc := .dispatch t }, []) := rfl
  refine .silent pop ?_
  unfold process
  split
  next back =>
    have finish : doRun self memory { holding tasks with pc := .dispatch t } =
        some (holding tasks, (memory t).finish t) := if_pos back
    exact .single finish
  next back =>
    have invoke : doRun self memory { holding tasks with pc := .dispatch t } =
        some ({ holding tasks with pc := .settle t }, invoke (memory t) t ++ [.handled t]) :=
      if_neg back
    have settle : doRun self memory { holding tasks with pc := .settle t } =
        some (holding tasks, settle self (memory t) t) := rfl
    exact .next invoke (.single settle)

/-- The loop processes one task after the other. -/
lemma outputs_process (self : ι) (memory : τ → Task ι) (tasks : List τ) :
    Outputs (doRun self memory) (holding tasks)
      (tasks.flatMap fun t => process self (memory t) t) := by
  apply Outputs.flatMap holding
  · have back : doRun self memory (holding ([] : List τ)) =
        some ({ holding [] with pc := .returned }, []) := rfl
    exact .silent back (.stop rfl)
  · exact fun t _ => puts_process self memory t

omit [DecidableEq ι] in
/-- What comes before the settling ends no task. -/
lemma invoke_plain {task : Task ι} {t : τ} :
    ∀ e ∈ invoke task t ++ [.handled t], e.isDone = false := by
  rcases (invoke_cases : invoke task t = _ ∨ _) with h | h
  all_goals
    rw [h]
    simp [Effect.isDone, Effect.done]

/-- Whatever the loop does to a task, it is done with it last. -/
lemma process_block (self : ι) (task : Task ι) (t : τ) :
    List.Block Effect.isDone (process self task t) := by
  unfold process
  split
  · exact Task.finish_block task t
  · refine .append_left ?_ invoke_plain
    rcases (settle_cases : (settle self task t = _ ∨ _) ∨ _) with (h | h) | ⟨_, -, -, h⟩
    · rw [h]
      exact .last rfl
    · rw [h]
      exact .cons rfl (.last rfl)
    · rw [h]
      exact .last rfl

end FrameRunner

namespace MPMCTaskRunner

/-- What the loop does to one task. -/
def process (self : ι) (task : Task ι) (t : τ) : List (Effect τ ι) :=
  if task.m_SysAction = .SA_RELEASE_TASK then finish task t
  else invoke false task t ++ [.handled t] ++ settle (some self) task t

/-- The loop of one thread without a run callback, together with the queue. -/
def loop (self : ι) (memory : τ → Task ι) (s : LifoSemBlockingQueue τ × RunPc τ) :
    Option ((LifoSemBlockingQueue τ × RunPc τ) × List (Effect τ ι)) :=
  (doRun (some self) false memory s.1 s.2).map fun r => ((r.2.1, r.1), r.2.2)

omit [DecidableEq ι] in
/-- The thread is at the top of the loop. -/
def holding (capacity sem : Nat) (tasks : List τ) : LifoSemBlockingQueue τ × RunPc τ :=
  (⟨capacity, sem, tasks⟩, .read)

/-- An empty queue is waited for as often as the semaphore lets the thread through. -/
lemma outputs_nil {self : ι} {memory : τ → Task ι} {capacity sem : Nat} :
    Outputs (loop self memory) (holding capacity sem []) [] := by
  have read : ∀ sem, loop self memory (holding capacity sem []) =
      some ((⟨capacity, sem, []⟩, .wait), []) := fun _ => rfl
  induction sem with
  | zero => exact .silent (read 0) (.stop rfl)
  | succ sem ih =>
    have wait : loop self memory (⟨capacity, sem + 1, []⟩, .wait) =
        some (holding capacity sem [], []) := rfl
    exact .silent (read _) (.silent wait ih)

/-- One round of the loop. -/
lemma puts_process (self : ι) {memory : τ → Task ι} {capacity sem : Nat} {t : τ}
    (stay : (memory t).m_SysAction ≠ .SA_QUIT_RUNNER) (tasks : List τ) :
    Puts (loop self memory) (holding capacity sem (t :: tasks)) (process self (memory t) t)
      (holding capacity sem tasks) := by
  have read : loop self memory (holding capacity sem (t :: tasks)) =
      some ((⟨capacity, sem, tasks⟩, .dispatch t), []) := rfl
  refine .silent read ?_
  have dispatch : ∀ queue, doRun (some self) false memory queue (.dispatch t) =
      if (memory t).m_SysAction = .SA_RELEASE_TASK then
        some (.read, queue, finish (memory t) t)
      else some (.settle t, queue, invoke false (memory t) t ++ [.handled t]) :=
    fun _ => if_neg stay
  unfold process
  split
  next back =>
    have finish : loop self memory (⟨capacity, sem, tasks⟩, .dispatch t) =
        some (holding capacity sem tasks, finish (memory t) t) := by
      rw [loop, dispatch, if_pos back]
      rfl
    exact .single finish
  next back =>
    have invoke : loop self memory (⟨capacity, sem, tasks⟩, .dispatch t) =
        some ((⟨capacity, sem, tasks⟩, .settle t),
          invoke false (memory t) t ++ [.handled t]) := by
      rw [loop, dispatch, if_neg back]
      rfl
    have settle : loop self memory (⟨capacity, sem, tasks⟩, .settle t) =
        some (holding capacity sem tasks, settle (some self) (memory t) t) := rfl
    exact .next invoke (.single settle)

/-- The loop processes one task after the other until the queue is empty. -/
lemma outputs_process (self : ι) (memory : τ → Task ι) (queue : LifoSemBlockingQueue τ)
    (stay : ∀ t ∈ queue.m_Queue, (memory t).m_SysAction ≠ .SA_QUIT_RUNNER) :
    Outputs (loop self memory) (queue, .read)
      (queue.m_Queue.flatMap fun t => process self (memory t) t) := by
  obtain ⟨capacity, sem, tasks⟩ := queue
  apply Outputs.flatMap (holding capacity sem)
  · exact outputs_nil
  · exact fun t mem => puts_process self (stay t mem)

omit [DecidableEq ι] in
/-- What the destructor does to a task is a block that ends it. -/
lemma delete_block (task : Task ι) (t : τ) : List.Block Effect.isDone (delete task t) := by
  unfold delete
  split
  · exact .last rfl
  · exact .last rfl

omit [DecidableEq ι] in
/-- What comes before the settling ends no task. -/
lemma invoke_plain {task : Task ι} {t : τ} :
    ∀ e ∈ invoke false task t ++ [.handled t], e.isDone = false := by
  unfold invoke
  split
  · simp [Effect.isDone, Effect.done]
  · split
    · simp [Effect.isDone, Effect.done]
    · split
      · simp [Effect.isDone, Effect.done]
      · simp [Effect.isDone, Effect.done]

/-- Whatever the loop does to a task, it is done with it last. -/
lemma process_block (self : ι) (task : Task ι) (t : τ) :
    List.Block Effect.isDone (process self task t) := by
  unfold process
  split
  · unfold finish
    split
    · exact .cons rfl (delete_block task t)
    · exact delete_block task t
  · refine .append_left ?_ invoke_plain
    unfold settle
    split
    · exact delete_block task t
    · split
      · exact delete_block task t
      · exact .last rfl

end MPMCTaskRunner

/-! ## One task -/

namespace Runners

section Definitions

/-- The tasks of a queue have the same observable effects in all three loops. -/
def SameEffects (self : ι) (memory : τ → Task ι) (queue : LifoSemBlockingQueue τ) : Prop :=
  ∃ consumer frame mpmc,
    Outputs (TaskConsumer.doRun self memory) (TaskConsumer.holding queue.m_Queue) consumer ∧
    Outputs (FrameRunner.doRun self memory) (FrameRunner.holding queue.m_Queue) frame ∧
    Outputs (MPMCTaskRunner.loop self memory) (queue, .read) mpmc ∧
    consumer.filter Effect.observable = frame.filter Effect.observable ∧
    consumer.filter Effect.observable = mpmc.filter Effect.observable

omit [DecidableEq ι] in
/-- Nothing is in the task that the runners treat differently on `processor`: no function that is to
    be run, no handler that is to be told on the own processor, no deleter that is to be called. -/
structure Uniform (processor : ι) (task : Task ι) : Prop where
  function : task.m_SysAction = .SA_NONE → task.m_FollyFunc = none
  handler : task.m_SysAction ≠ .SA_RELEASE_TASK → task.m_CurrentProcessor = some processor →
    task.m_Whom = none
  deleter : task.m_SysAction = .SA_RELEASE_TASK ∨ task.m_CurrentProcessor = none ∨
    task.m_CurrentProcessor = some processor → task.m_DeleteCB = none

end Definitions

variable {self : ι} {task : Task ι} {t : τ}

/-- A task on its own processor, on none, or on another one. -/
lemma processor_cases (self : ι) (task : Task ι) : task.m_CurrentProcessor = none ∨
    task.m_CurrentProcessor = some self ∨
    ∃ processor, task.m_CurrentProcessor = some processor ∧ processor ≠ self := by
  cases own : task.m_CurrentProcessor with
  | none => exact .inl rfl
  | some processor =>
    by_cases e : processor = self
    · exact .inr (.inl (by rw [e]))
    · exact .inr (.inr ⟨processor, rfl, e⟩)

omit [DecidableEq ι] in
/-- The actions that the three loops know. -/
abbrev Plain (task : Task ι) : Prop :=
  task.m_SysAction = .SA_NONE ∨ task.m_SysAction = .SA_RELEASE_TASK ∨
    task.m_SysAction = .SA_WAIT_NOTIFIER

/-- `TaskConsumer` and `FrameRunner` on a task, by the members that they look at. -/
lemma consumer_eq_frame (plain : Plain task) :
    (TaskConsumer.process self task t).filter Effect.observable =
      (FrameRunner.process self task t).filter Effect.observable ↔
    (task.m_SysAction = .SA_NONE → task.m_FollyFunc = none) ∧
      (task.m_SysAction ≠ .SA_RELEASE_TASK → task.m_CurrentProcessor = some self →
        task.m_Whom = none) := by
  obtain action | action | action := plain
  all_goals
    simp only [TaskConsumer.process, FrameRunner.process, TaskConsumer.invoke, FrameRunner.invoke,
      TaskConsumer.settle, FrameRunner.settle, action]
    cases whom : task.m_Whom <;> cases func : task.m_FollyFunc <;>
      obtain own | own | ⟨processor, own, other⟩ := processor_cases self task <;>
      simp [Effect.observable, List.filter_cons, *]

/-- `TaskConsumer` and `MPMCTaskRunner` on a task. -/
lemma consumer_eq_mpmc (plain : Plain task) :
    (TaskConsumer.process self task t).filter Effect.observable =
      (MPMCTaskRunner.process self task t).filter Effect.observable ↔
    (task.m_SysAction = .SA_RELEASE_TASK ∨ task.m_CurrentProcessor = none ∨
      task.m_CurrentProcessor = some self → task.m_DeleteCB = none) := by
  obtain action | action | action := plain
  all_goals
    simp only [TaskConsumer.process, MPMCTaskRunner.process, TaskConsumer.invoke,
      MPMCTaskRunner.invoke, TaskConsumer.settle, MPMCTaskRunner.settle, Task.finish,
      MPMCTaskRunner.finish, MPMCTaskRunner.delete, action]
    cases whom : task.m_Whom <;> cases func : task.m_FollyFunc <;>
      cases deleter : task.m_DeleteCB <;>
      obtain own | own | ⟨processor, own, other⟩ := processor_cases self task <;>
      simp [Effect.observable, List.filter_cons, *]

/-! ## Whole sequences -/

variable {memory : τ → Task ι} {queue : LifoSemBlockingQueue τ}

/-- The three loops, put out side by side. -/
lemma sameEffects_iff_flatMap (plain : ∀ t ∈ queue.m_Queue, Plain (memory t)) :
    SameEffects self memory queue ↔
      (queue.m_Queue.flatMap fun t =>
        (TaskConsumer.process self (memory t) t).filter Effect.observable) =
      (queue.m_Queue.flatMap fun t =>
        (FrameRunner.process self (memory t) t).filter Effect.observable) ∧
      (queue.m_Queue.flatMap fun t =>
        (TaskConsumer.process self (memory t) t).filter Effect.observable) =
      queue.m_Queue.flatMap fun t =>
        (MPMCTaskRunner.process self (memory t) t).filter Effect.observable := by
  have stay : ∀ t ∈ queue.m_Queue, (memory t).m_SysAction ≠ .SA_QUIT_RUNNER := by
    intro t mem quit
    have := plain t mem
    simp [Plain, quit] at this
  have consumer := TaskConsumer.outputs_process self memory queue.m_Queue
  have frame := FrameRunner.outputs_process self memory queue.m_Queue
  have mpmc := MPMCTaskRunner.outputs_process self memory queue stay
  simp only [← List.filter_flatMap]
  constructor
  · rintro ⟨_, _, _, consumer', frame', mpmc', same⟩
    cases consumer.unique consumer'
    cases frame.unique frame'
    cases mpmc.unique mpmc'
    exact same
  · exact fun same => ⟨_, _, _, consumer, frame, mpmc, same⟩

/-- The three loops have the same effects on a sequence of tasks if and only if each of its tasks is
    uniform. -/
theorem sameEffects_iff (self : ι) (memory : τ → Task ι) (queue : LifoSemBlockingQueue τ)
    (plain : ∀ t ∈ queue.m_Queue, Plain (memory t)) :
    SameEffects self memory queue ↔ ∀ t ∈ queue.m_Queue, Uniform self (memory t) := by
  have keep := Effect.observable_of_isDone (τ := τ) (ι := ι)
  rw [sameEffects_iff_flatMap plain,
    List.flatMap_eq_iff_of_block (fun t _ => (TaskConsumer.process_block self _ t).filter keep)
      (fun t _ => (FrameRunner.process_block self _ t).filter keep),
    List.flatMap_eq_iff_of_block (fun t _ => (TaskConsumer.process_block self _ t).filter keep)
      (fun t _ => (MPMCTaskRunner.process_block self _ t).filter keep), ← forall₂_and]
  refine forall₂_congr fun t mem => ?_
  rw [consumer_eq_frame (plain t mem), consumer_eq_mpmc (plain t mem)]
  constructor
  · rintro ⟨⟨function, handler⟩, deleter⟩
    exact ⟨function, handler, deleter⟩
  · exact fun h => ⟨⟨h.function, h.handler⟩, h.deleter⟩

/-- A function posted to no particular processor, and a task of another one that waits for a
    notification and is handed back. -/
theorem sameEffects_iff_two :
    SameEffects true
        (fun t : Nat =>
          if t = 0 then ⟨.SA_NONE, none, some 3, none, none, .TS_QUEUED⟩
          else ⟨.SA_WAIT_NOTIFIER, some false, some 3, some 5, some 0, .TS_QUEUED⟩)
        ⟨4, 2, [0, 1]⟩ := by
  apply (sameEffects_iff true _ ⟨4, 2, [0, 1]⟩ (by decide)).mpr
  intro t mem
  obtain rfl | rfl := List.mem_pair.mp mem
  · exact ⟨fun _ => rfl, fun _ => nofun, fun _ => rfl⟩
  · refine ⟨nofun, fun _ => nofun, fun own => ?_⟩
    rcases own with own | own | own
    all_goals cases own

/-- A function that is posted to a `FrameRunner` is not run. -/
theorem function_not_run :
    let task : Task Unit := ⟨.SA_NONE, none, none, some 7, none, .TS_QUEUED⟩
    ¬ SameEffects () (fun _ : Nat => task) ⟨4, 1, [0]⟩ := by
  intro task same
  rw [sameEffects_iff_flatMap (by decide)] at same
  have effects : [Effect.follyFunc 0, .release 0] = ([.release 0] : List (Effect Nat Unit)) := same.1
  cases effects

end Runners
end XLN
