import XLN.Foundation.Task.Basic

/-!
# The frame runner

`Core/Foundation/Task/FrameRunner.cpp`: a lock-free queue of fixed capacity that `DoRun` empties on
every frame. `doRun` is one step of that thread; a lock-free operation is one step. `destroy` is one
step of the destructor, whose `pop` leaves `waitingTask` as it was when the queue is empty.
-/

namespace XLN

/-- Where the thread is: at the `pop` of `DoRun`, with a task in hand before and after it has been
    handled, back from `DoRun`, or in the destructor with the value of `waitingTask`. -/
inductive FramePc (τ : Type) where
  | pop
  | dispatch (task : τ)
  | settle (task : τ)
  | returned
  | destroying (waitingTask : Option τ)
  deriving DecidableEq

/-- `FrameRunner`, with the position of its thread; the oldest task is the head of the queue. -/
structure FrameRunner (τ : Type) where
  m_WaitingTasks : List τ
  pc : FramePc τ

namespace FrameRunner

/-- `boost::lockfree::capacity<2048>`. -/
def capacity : Nat := 2048

section Methods
variable {τ ι : Type}

/-- A new runner. -/
def new : FrameRunner τ where
  m_WaitingTasks := []
  pc := .returned

/-- `FrameRunner::PostTask` ignores that `push` fails on a full queue. -/
def postTask (task : τ) (f : FrameRunner τ) : FrameRunner τ :=
  if f.m_WaitingTasks.length < capacity then
    { f with m_WaitingTasks := f.m_WaitingTasks ++ [task] }
  else f

/-- What `DoRun` runs for a task that has not been handled: never `m_FollyFunc`. -/
def invoke (task : Task ι) (t : τ) : List (Effect τ ι) :=
  if task.m_SysAction = .SA_WAIT_NOTIFIER then []
  else if task.m_Whom.isSome then [.handle t]
  else []

variable [DecidableEq ι]

/-- What follows: on the processor it was created on, the task is also finished. -/
def settle (self : ι) (task : Task ι) (t : τ) : List (Effect τ ι) :=
  match task.m_CurrentProcessor with
  | none => [.release t]
  | some processor =>
    if processor = self then
      if task.m_Whom.isSome then [.onFinish t, .release t] else [.release t]
    else [.handBack t processor]

/-- One step of `DoRun` on the processor `self`. -/
def doRun (self : ι) (memory : τ → Task ι) (f : FrameRunner τ) :
    Option (FrameRunner τ × List (Effect τ ι)) :=
  match f.pc with
  | .pop =>
    match f.m_WaitingTasks with
    | t :: tasks => some ({ m_WaitingTasks := tasks, pc := .dispatch t }, [])
    | [] => some ({ f with pc := .returned }, [])
  | .dispatch t =>
    if (memory t).m_SysAction = .SA_RELEASE_TASK then
      some ({ f with pc := .pop }, (memory t).finish t)
    else some ({ f with pc := .settle t }, invoke (memory t) t ++ [.handled t])
  | .settle t => some ({ f with pc := .pop }, settle self (memory t) t)
  | .returned | .destroying _ => none

omit [DecidableEq ι] in
/-- One step of the destructor, and whether it is not over. -/
def destroy (f : FrameRunner τ) : Option (FrameRunner τ) × List (Effect τ ι) :=
  match f.m_WaitingTasks, f.pc with
  | t :: tasks, _ => (some { m_WaitingTasks := tasks, pc := .destroying (some t) }, [.release t])
  | [], .destroying (some t) => (some f, [.release t])
  | [], _ => (none, [])

end Methods

variable {τ ι : Type} {f f' : FrameRunner τ} {task : τ}

/-- The tasks in the queue and in hand but not yet handled. -/
def queued (f : FrameRunner τ) : List τ :=
  f.m_WaitingTasks ++
    match f.pc with
    | .dispatch t => [t]
    | _ => []

/-- The task in hand once it has been handled. -/
def settling (f : FrameRunner τ) : Option τ :=
  match f.pc with
  | .settle t => some t
  | _ => none

/-- A task that is posted waits where there is room. -/
lemma postTask_queued (room : f.m_WaitingTasks.length < capacity) :
    (f.postTask task).queued.Perm (task :: f.queued) := by
  unfold queued postTask
  rw [if_pos room, ← List.cons_append]
  exact (List.perm_append_singleton _ _).append_right _

/-- A task has a handler to call or nothing. -/
lemma invoke_cases {task : Task ι} {t : τ} :
    invoke task t = [] ∨ invoke task t = [.handle t] := by
  unfold invoke
  split
  · exact .inl rfl
  · split
    · exact .inr rfl
    · exact .inl rfl

variable [DecidableEq ι] {self : ι} {memory : τ → Task ι} {effects : List (Effect τ ι)}

/-- A task is released, with or without `OnFinish`, or handed back to another processor. -/
lemma settle_cases {task : Task ι} {t : τ} :
    (settle self task t = [.release t] ∨ settle self task t = [.onFinish t, .release t]) ∨
    ∃ processor, task.m_CurrentProcessor = some processor ∧ processor ≠ self ∧
      settle self task t = [.handBack t processor] := by
  unfold settle
  split
  next => exact .inl (.inl rfl)
  next processor h =>
    split
    next =>
      split
      next => exact .inl (.inr rfl)
      next => exact .inl (.inl rfl)
    next other => exact .inr ⟨processor, h, other, rfl⟩

/-- What a step of `DoRun` does with the tasks. -/
lemma doRun_move (e : f.doRun self memory = some (f', effects)) :
    Move self memory f.queued f.settling f'.queued f'.settling effects := by
  unfold doRun at e
  unfold queued settling
  cases hpc : f.pc with
  | pop =>
    simp only [hpc] at e
    split at e
    next t tasks h =>
      cases e
      apply Move.internal
      rw [h, List.append_nil]
      exact List.perm_append_singleton _ _
    next h =>
      cases e
      exact .internal (.refl _)
  | dispatch t =>
    simp only [hpc] at e
    split at e
    next back =>
      cases e
      refine .drop ?_ rfl Task.finish_cases
      rw [List.append_nil]
      exact List.perm_append_singleton _ _
    next back =>
      cases e
      refine .handle ?_ rfl back ?_
      · rw [List.append_nil]
        exact List.perm_append_singleton _ _
      · rcases (invoke_cases : invoke (memory t) t = _ ∨ _) with h | h
        · exact .inl (by rw [h]; rfl)
        · exact .inr (.inr (by rw [h]; rfl))
  | settle t =>
    simp only [hpc] at e
    cases e
    rcases (settle_cases : (settle self (memory t) t = _ ∨ _) ∨ _) with h | ⟨processor, h1, h2, h⟩
    · exact .release rfl h
    · rw [h]
      exact .handBack rfl h1 h2
  | returned | destroying =>
    simp only [hpc] at e
    cases e

end FrameRunner
end XLN
