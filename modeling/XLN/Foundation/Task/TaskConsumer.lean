import XLN.Lib.Transition
import XLN.Lib.Before
import XLN.Foundation.Task.Basic

/-!
# The consumer

`Core/Foundation/Task/TaskConsumer.cpp`. Posters put tasks into the incoming queue under a mutex;
`DoRun` waits for the ready flag, swaps the queues and works through its own one without a lock.
`doRun` makes one step of that thread, where a critical section is one step. `ConsumerRun` is a
consumer with any number of posters around it. Its invariant `Accounted` gives the results about it
(`consumer_accounted`): no swap buries a task, no wake-up is lost, no task is left behind.
-/

namespace XLN
open Transition

/-- Where the thread is in `DoRun`: at the test of the outer loop, at the critical section, at the
    test and at the `Dequeue` of the inner loop, with a task in hand before and after it has been
    handled, in one of the two loops of `ClearTasks`, or back. -/
inductive DoRunPc (τ : Type) where
  | testFinished
  | awaitTask
  | innerTest
  | dequeue
  | dispatch (task : τ)
  | settle (task : τ)
  | clearWorking
  | clearIncoming
  | returned
  deriving DecidableEq

/-- `TaskConsumer`, with the position of its thread. -/
structure TaskConsumer (τ : Type) where
  m_Finished : Bool
  m_NewTaskReady : Bool
  m_IncomingQueue : TaskQueue τ
  m_WorkingQueue : TaskQueue τ
  pc : DoRunPc τ

namespace TaskConsumer

section Methods
variable {τ ι : Type} (address : τ → Nat)

/-- The constructor; the thread is about to enter `DoRun`. -/
def new : TaskConsumer τ where
  m_Finished := false
  m_NewTaskReady := false
  m_IncomingQueue := ⟨[]⟩
  m_WorkingQueue := ⟨[]⟩
  pc := .testFinished

/-- `TaskConsumer::PostTask`. -/
def postTask (task : τ) (c : TaskConsumer τ) : TaskConsumer τ :=
  { c with m_IncomingQueue := c.m_IncomingQueue.enqueue address task, m_NewTaskReady := true }

/-- `TaskConsumer::SetFinished`. -/
def setFinished (c : TaskConsumer τ) : TaskConsumer τ :=
  { c with m_Finished := true, m_NewTaskReady := true }

/-- `TaskConsumer::ReloadWorkQueue`. -/
def reloadWorkQueue (c : TaskConsumer τ) : TaskConsumer τ :=
  if c.m_IncomingQueue.empty then c
  else { c with m_IncomingQueue := c.m_WorkingQueue, m_WorkingQueue := c.m_IncomingQueue }

/-- What `DoRun` runs for any other task. -/
def invoke (task : Task ι) (t : τ) : List (Effect τ ι) :=
  if task.m_SysAction = .SA_WAIT_NOTIFIER then []
  else if task.m_FollyFunc.isSome then [.follyFunc t]
  else if task.m_Whom.isSome then [.handle t]
  else []

variable [DecidableEq ι]

/-- The end of that branch: the task is released on the processor it was created on. -/
def settle (self : ι) (task : Task ι) (t : τ) : List (Effect τ ι) :=
  match task.m_CurrentProcessor with
  | none => [.release t]
  | some processor => if processor = self then [.release t] else [.handBack t processor]

/-- One step of `DoRun` on the processor `self`, or `none` while the thread has to wait. -/
def doRun (self : ι) (memory : τ → Task ι) (c : TaskConsumer τ) :
    Option (TaskConsumer τ × List (Effect τ ι)) :=
  match c.pc with
  | .testFinished => some ({ c with pc := if c.m_Finished then .clearWorking else .awaitTask }, [])
  | .awaitTask =>
    -- the wait and the swap are one critical section
    if c.m_NewTaskReady then
      some ({ c.reloadWorkQueue with m_NewTaskReady := false, pc := .innerTest }, [])
    else none
  | .innerTest => some ({ c with pc := if c.m_Finished then .testFinished else .dequeue }, [])
  | .dequeue =>
    match c.m_WorkingQueue.dequeue with
    | (some t, queue) => some ({ c with m_WorkingQueue := queue, pc := .dispatch t }, [])
    | (none, _) => some ({ c with pc := .testFinished }, [])
  | .dispatch t =>
    if (memory t).m_SysAction = .SA_RELEASE_TASK then
      some ({ c with pc := .innerTest }, (memory t).finish t)
    else some ({ c with pc := .settle t }, invoke (memory t) t ++ [.handled t])
  | .settle t => some ({ c with pc := .innerTest }, settle self (memory t) t)
  | .clearWorking =>
    match c.m_WorkingQueue.dequeue with
    | (some t, queue) => some ({ c with m_WorkingQueue := queue }, [.release t])
    | (none, _) => some ({ c with pc := .clearIncoming }, [])
  | .clearIncoming =>
    match c.m_IncomingQueue.dequeue with
    | (some t, queue) => some ({ c with m_IncomingQueue := queue }, [.release t])
    | (none, _) => some ({ c with pc := .returned }, [])
  | .returned => none

end Methods

variable {τ ι : Type} {address : τ → Nat} {c c' : TaskConsumer τ} {task : τ}

/-- The tasks in the queues and in hand but not yet handled. -/
def queued (c : TaskConsumer τ) : List τ :=
  c.m_IncomingQueue.m_Tasks ++ c.m_WorkingQueue.m_Tasks ++
    match c.pc with
    | .dispatch t => [t]
    | _ => []

/-- The task in hand once it has been handled. -/
def settling (c : TaskConsumer τ) : Option τ :=
  match c.pc with
  | .settle t => some t
  | _ => none

/-- Reloading does not finish the consumer. -/
lemma reloadWorkQueue_m_Finished : c.reloadWorkQueue.m_Finished = c.m_Finished := by
  unfold reloadWorkQueue
  split <;> rfl

/-- Reloading moves tasks and loses none. -/
lemma reloadWorkQueue_perm :
    (c.reloadWorkQueue.m_IncomingQueue.m_Tasks ++ c.reloadWorkQueue.m_WorkingQueue.m_Tasks).Perm
      (c.m_IncomingQueue.m_Tasks ++ c.m_WorkingQueue.m_Tasks) := by
  unfold reloadWorkQueue
  split
  · exact .refl _
  · exact List.perm_append_comm

/-- With an empty working queue, nothing stays in the incoming one. -/
lemma reloadWorkQueue_incoming (h : c.m_WorkingQueue.m_Tasks = []) :
    c.reloadWorkQueue.m_IncomingQueue.m_Tasks = [] := by
  unfold reloadWorkQueue
  split
  next empty => exact TaskQueue.empty_iff.mp empty
  next => exact h

/-- A task that is posted is queued. -/
lemma postTask_queued : (c.postTask address task).queued.Perm (task :: c.queued) := by
  unfold queued postTask
  rw [← List.cons_append, ← List.cons_append]
  exact (TaskQueue.enqueue_perm.append_right _).append_right _

/-- A task has a function, a handler or nothing to call. -/
lemma invoke_cases {task : Task ι} {t : τ} : invoke task t = [] ∨ invoke task t = [.follyFunc t] ∨
    invoke task t = [.handle t] := by
  unfold invoke
  split
  · exact .inl rfl
  · split
    · exact .inr (.inl rfl)
    · split
      · exact .inr (.inr rfl)
      · exact .inl rfl

variable [DecidableEq ι] {self : ι} {memory : τ → Task ι} {effects : List (Effect τ ι)}

/-- A task is released, or handed back to another processor. -/
lemma settle_cases {task : Task ι} {t : τ} : settle self task t = [.release t] ∨
    ∃ processor, task.m_CurrentProcessor = some processor ∧ processor ≠ self ∧
      settle self task t = [.handBack t processor] := by
  unfold settle
  split
  next => exact .inl rfl
  next processor h =>
    split
    next => exact .inl rfl
    next other => exact .inr ⟨processor, h, other, rfl⟩

/-- What a step of `DoRun` does with the tasks. -/
lemma doRun_move (e : doRun self memory c = some (c', effects)) :
    Move self memory c.queued c.settling c'.queued c'.settling effects := by
  unfold doRun at e
  unfold queued settling
  cases hpc : c.pc with
  | testFinished =>
    simp only [hpc] at e
    cases e
    cases c.m_Finished <;> exact .internal (.refl _)
  | awaitTask =>
    simp only [hpc] at e
    split at e
    next =>
      cases e
      exact .internal (reloadWorkQueue_perm.append_right _)
    next => cases e
  | innerTest =>
    simp only [hpc] at e
    cases e
    cases c.m_Finished <;> exact .internal (.refl _)
  | dequeue =>
    simp only [hpc] at e
    split at e
    next t queue h =>
      cases e
      apply Move.internal
      rw [TaskQueue.dequeue_some h, List.append_nil, List.append_assoc]
      exact (List.perm_append_singleton _ _).append_left _
    next h =>
      cases e
      exact .internal (.refl _)
  | dispatch t =>
    simp only [hpc] at e
    split at e
    next back =>
      cases e
      refine .drop ?_ rfl Task.finish_cases
      rw [List.append_nil]
      exact List.perm_append_singleton _ _
    next back =>
      cases e
      refine .handle ?_ rfl back ?_
      · rw [List.append_nil]
        exact List.perm_append_singleton _ _
      · rcases (invoke_cases : invoke (memory t) t = _ ∨ _) with h | h | h
        · exact .inl (by rw [h]; rfl)
        · exact .inr (.inl (by rw [h]; rfl))
        · exact .inr (.inr (by rw [h]; rfl))
  | settle t =>
    simp only [hpc] at e
    cases e
    rcases (settle_cases : settle self (memory t) t = _ ∨ _) with h | ⟨processor, h1, h2, h⟩
    · exact .release rfl (.inl h)
    · rw [h]
      exact .handBack rfl h1 h2
  | clearWorking =>
    simp only [hpc] at e
    split at e
    next t queue h =>
      cases e
      refine .drop ?_ rfl (.inl rfl)
      simp only [List.append_nil]
      rw [TaskQueue.dequeue_some h]
      exact List.perm_middle
    next h =>
      cases e
      exact .internal (.refl _)
  | clearIncoming =>
    simp only [hpc] at e
    split at e
    next t queue h =>
      cases e
      refine .drop ?_ rfl (.inl rfl)
      simp only [List.append_nil]
      rw [TaskQueue.dequeue_some h]
      exact .refl _
    next h =>
      cases e
      exact .internal (.refl _)
  | returned =>
    simp only [hpc] at e
    cases e

/-! ## The flags and the queues -/

/-- The working queue is empty whenever the thread is on its way to the swap, and the ready flag is
    set whenever something is waiting. -/
structure Coherent (c : TaskConsumer τ) : Prop where
  ready : c.m_IncomingQueue.m_Tasks ≠ [] → c.m_NewTaskReady = true
  awaiting : c.pc = .awaitTask → c.m_WorkingQueue.m_Tasks = []
  tested : c.pc = .testFinished → c.m_WorkingQueue.m_Tasks = [] ∨ c.m_Finished = true
  finished : c.pc = .clearWorking ∨ c.pc = .clearIncoming ∨ c.pc = .returned → c.m_Finished = true
  cleared : c.pc = .clearIncoming ∨ c.pc = .returned → c.m_WorkingQueue.m_Tasks = []

/-- A new consumer has no tasks. -/
lemma coherent_new : (new : TaskConsumer τ).Coherent := by
  constructor <;> simp [new]

/-- `PostTask` keeps the order of the queues. -/
lemma Coherent.postTask (h : c.Coherent) : (c.postTask address task).Coherent :=
  ⟨fun _ => rfl, h.awaiting, h.tested, h.finished, h.cleared⟩

/-- `SetFinished` keeps the order of the queues. -/
lemma Coherent.setFinished (h : c.Coherent) : c.setFinished.Coherent :=
  ⟨fun _ => rfl, h.awaiting, fun _ => .inr rfl, fun _ => rfl, h.cleared⟩

omit [DecidableEq ι] in
/-- While the thread is inside the inner loop only the incoming queue and its flag matter. -/
lemma coherent_inner (ready : c.m_IncomingQueue.m_Tasks ≠ [] → c.m_NewTaskReady = true)
    (inner : c.pc = .innerTest ∨ c.pc = .dequeue ∨ (∃ t, c.pc = .dispatch t) ∨
      ∃ t, c.pc = .settle t) : c.Coherent := by
  refine ⟨ready, ?_, ?_, ?_, ?_⟩
  all_goals rcases inner with h | h | ⟨t, h⟩ | ⟨t, h⟩ <;> simp [h]

/-- `DoRun` keeps the order of the queues. -/
lemma Coherent.doRun (h : c.Coherent) (e : c.doRun self memory = some (c', effects)) :
    c'.Coherent := by
  unfold TaskConsumer.doRun at e
  cases hpc : c.pc with
  | testFinished =>
    simp only [hpc] at e
    cases e
    cases hf : c.m_Finished with
    | true => exact ⟨h.ready, by simp, by simp, fun _ => rfl, by simp⟩
    | false =>
      have empty : c.m_WorkingQueue.m_Tasks = [] := (h.tested hpc).resolve_right (by simp [hf])
      exact ⟨h.ready, fun _ => empty, by simp, by simp, by simp⟩
  | awaitTask =>
    simp only [hpc] at e
    split at e
    next =>
      cases e
      apply coherent_inner _ (.inl rfl)
      intro ne
      exact absurd (reloadWorkQueue_incoming (h.awaiting hpc)) ne
    next => cases e
  | innerTest =>
    simp only [hpc] at e
    cases e
    cases hf : c.m_Finished with
    | true => exact ⟨h.ready, by simp, fun _ => .inr rfl, by simp, by simp⟩
    | false => exact coherent_inner h.ready (.inr (.inl rfl))
  | dequeue =>
    simp only [hpc] at e
    split at e
    next t queue _ =>
      cases e
      exact coherent_inner h.ready (.inr (.inr (.inl ⟨t, rfl⟩)))
    next he =>
      cases e
      exact ⟨h.ready, by simp, fun _ => .inl (TaskQueue.dequeue_none he), by simp, by simp⟩
  | dispatch t =>
    simp only [hpc] at e
    split at e
    next =>
      cases e
      exact coherent_inner h.ready (.inl rfl)
    next =>
      cases e
      exact coherent_inner h.ready (.inr (.inr (.inr ⟨t, rfl⟩)))
  | settle t =>
    simp only [hpc] at e
    cases e
    exact coherent_inner h.ready (.inl rfl)
  | clearWorking =>
    have finished := h.finished (.inl hpc)
    simp only [hpc] at e
    split at e
    next t queue _ =>
      cases e
      exact ⟨h.ready, by simp, fun _ => .inr finished, fun _ => finished, by simp⟩
    next he =>
      cases e
      exact ⟨h.ready, by simp, by simp, fun _ => finished, fun _ => TaskQueue.dequeue_none he⟩
  | clearIncoming =>
    have finished := h.finished (.inr (.inl hpc))
    have cleared := h.cleared (.inl hpc)
    simp only [hpc] at e
    split at e
    next t queue he =>
      cases e
      have ready := h.ready (by simp [TaskQueue.dequeue_some he])
      exact ⟨fun _ => ready, by simp, by simp, fun _ => finished, fun _ => cleared⟩
    next he =>
      cases e
      exact ⟨h.ready, by simp, by simp, fun _ => finished, fun _ => cleared⟩
  | returned =>
    simp only [hpc] at e
    cases e

/-- `DoRun` does not finish the consumer. -/
lemma doRun_m_Finished (e : c.doRun self memory = some (c', effects)) :
    c'.m_Finished = c.m_Finished := by
  unfold TaskConsumer.doRun at e
  split at e
  case h_2 =>
    split at e <;> cases e
    exact reloadWorkQueue_m_Finished
  case h_4 | h_5 | h_7 | h_8 => split at e <;> cases e <;> rfl
  all_goals cases e
  all_goals rfl

/-- `DoRun` returns with nothing left in the incoming queue. -/
lemma doRun_returned (e : c.doRun self memory = some (c', effects)) (returned : c'.pc = .returned) :
    c'.m_IncomingQueue.m_Tasks = [] := by
  unfold TaskConsumer.doRun at e
  cases hpc : c.pc with
  | testFinished | innerTest =>
    simp only [hpc] at e
    cases e
    cases hf : c.m_Finished <;> simp [hf] at returned
  | awaitTask =>
    simp only [hpc] at e
    split at e <;> cases e
    cases returned
  | dequeue | clearWorking =>
    simp only [hpc] at e
    split at e <;> cases e <;> cases returned
  | dispatch t =>
    simp only [hpc] at e
    split at e <;> cases e <;> cases returned
  | settle t =>
    simp only [hpc] at e
    cases e
    cases returned
  | clearIncoming =>
    simp only [hpc] at e
    split at e
    next =>
      cases e
      cases returned
    next he =>
      cases e
      exact TaskQueue.dequeue_none he
  | returned =>
    simp only [hpc] at e
    cases e

end TaskConsumer

/-! ## Posters, `SetFinished` and the thread together -/

/-- A consumer and what became of the tasks posted to it: `processed` are the ones `DoRun` is done
    with, `cleared` the ones `ClearTasks` has released. -/
structure ConsumerRun (τ : Type) where
  consumer : TaskConsumer τ
  posted : List τ
  processed : List τ
  cleared : List τ

namespace ConsumerRun

/-- A call of `PostTask` or `SetFinished`, or a step of the thread, which reads the tasks as they are
    at that moment. -/
inductive Event (τ ι : Type) where
  | postTask (task : τ)
  | setFinished
  | doRun (memory : τ → Task ι)

variable {τ ι : Type}

/-- A new consumer. -/
def init : ConsumerRun τ where
  consumer := .new
  posted := []
  processed := []
  cleared := []

/-- The thread is in `ClearTasks`. -/
def isClearing (c : TaskConsumer τ) : Bool :=
  match c.pc with
  | .clearWorking | .clearIncoming => true
  | _ => false

/-- One step of anybody. -/
def step [DecidableEq ι] (address : τ → Nat) (self : ι) (s : ConsumerRun τ) :
    Event τ ι → Option (ConsumerRun τ)
  | .postTask task =>
    some { s with consumer := s.consumer.postTask address task, posted := s.posted ++ [task] }
  | .setFinished => some { s with consumer := s.consumer.setFinished }
  | .doRun memory =>
    (s.consumer.doRun self memory).map fun r =>
      let done := r.2.filterMap Effect.done
      if isClearing s.consumer then { s with consumer := r.1, cleared := s.cleared ++ done }
      else { s with consumer := r.1, processed := s.processed ++ done }

/-- What holds after the events `l`. -/
structure Accounted (l : List (Event τ ι)) (s : ConsumerRun τ) : Prop where
  coherent : s.consumer.Coherent
  perm : s.posted.Perm (s.processed ++ s.cleared ++
    (s.consumer.queued ++ s.consumer.settling.toList))
  finished : s.consumer.m_Finished = true → .setFinished ∈ l
  drained : (∀ task, ¬ l.Before .setFinished (.postTask task)) → s.consumer.pc = .returned →
    s.consumer.m_IncomingQueue.m_Tasks = []

variable [DecidableEq ι] {address : τ → Nat} {self : ι} {l : List (Event τ ι)}
  {s s' : ConsumerRun τ} {a : Event τ ι}

omit [DecidableEq ι] in
/-- In the beginning there is nothing to account for. -/
lemma accounted_init : Accounted ([] : List (Event τ ι)) (init : ConsumerRun τ) where
  coherent := TaskConsumer.coherent_new
  perm := .refl _
  finished := fun h => by cases h
  drained := fun _ _ => rfl

omit [DecidableEq ι] in
/-- What is not before in a longer run was not before. -/
lemma not_before_of_snoc {task : τ} (h : ¬ (l ++ [a]).Before .setFinished (.postTask task)) :
    ¬ l.Before .setFinished (.postTask task) :=
  fun before => h (before.trans (List.sublist_append_left _ _))

omit [DecidableEq ι] in
/-- A task that is posted is accounted for. -/
lemma Accounted.postTask (h : Accounted l s) (task : τ) : Accounted (l ++ [.postTask task])
    { s with consumer := s.consumer.postTask address task, posted := s.posted ++ [task] } where
  coherent := h.coherent.postTask
  perm := by
    have queued : (s.consumer.postTask address task).queued.Perm (task :: s.consumer.queued) :=
      TaskConsumer.postTask_queued
    have perm := (List.perm_append_singleton task s.posted).trans (h.perm.cons task)
    refine perm.trans (List.perm_middle.symm.trans ?_)
    exact (queued.symm.append_right s.consumer.settling.toList).append_left _
  finished := fun finished => List.mem_append_left _ (h.finished finished)
  drained := by
    intro none returned
    have finished := h.finished (h.coherent.finished (.inr (.inr returned)))
    have last : [(.postTask task : Event τ ι)].Sublist [.postTask task] := .refl _
    exact absurd ((List.singleton_sublist.mpr finished).append last) (none task)

/-- Every event keeps the account. -/
lemma accounted_step (h : Accounted l s) (st : Exec (step address self) s a s') :
    Accounted (l ++ [a]) s' := by
  cases a with
  | postTask task =>
    cases st
    exact h.postTask task
  | setFinished =>
    cases st
    refine ⟨h.coherent.setFinished, h.perm, fun _ => List.mem_append_right _ (by simp), ?_⟩
    exact fun none => h.drained fun task => not_before_of_snoc (none task)
  | doRun memory =>
    obtain ⟨⟨c', effects⟩, e, rfl⟩ := Option.map_eq_some_iff.mp st
    have coherent := h.coherent.doRun e
    have perm := h.perm.trans ((TaskConsumer.doRun_move e).perm.append_left _)
    have finished : c'.m_Finished = true → .setFinished ∈ l ++ [.doRun memory] := by
      rw [TaskConsumer.doRun_m_Finished e]
      exact fun finished => List.mem_append_left _ (h.finished finished)
    simp only
    split
    next =>
      refine ⟨coherent, ?_, finished, fun _ => TaskConsumer.doRun_returned e⟩
      simpa only [List.append_assoc] using perm
    next =>
      refine ⟨coherent, ?_, finished, fun _ => TaskConsumer.doRun_returned e⟩
      simp only [List.append_assoc] at perm ⊢
      exact perm.trans ((List.perm_append_comm_assoc _ _ _).append_left _)

/-- The queues are swapped only when the working one is empty, waiting tasks are announced, and a
    thread that has returned has left no task behind unless one was posted after `SetFinished`. -/
theorem consumer_accounted (address : τ → Nat) (self : ι)
    (run : Run (Exec (step address self)) init l s) :
    (s.consumer.pc = .awaitTask → s.consumer.m_NewTaskReady = true →
      s.consumer.m_IncomingQueue.empty = false → s.consumer.m_WorkingQueue.empty = true) ∧
    (s.consumer.m_IncomingQueue.empty = false → s.consumer.m_NewTaskReady = true) ∧
    ((∀ task, ¬ l.Before .setFinished (.postTask task)) → s.consumer.pc = .returned →
      s.posted.Perm (s.processed ++ s.cleared)) := by
  have h : Accounted l s := run.invariant_labels accounted_init accounted_step
  refine ⟨fun await _ _ => ?_, fun waiting => ?_, fun none returned => ?_⟩
  · exact TaskQueue.empty_iff.mpr (h.coherent.awaiting await)
  · apply h.coherent.ready
    intro empty
    rw [TaskQueue.empty_iff.mpr empty] at waiting
    cases waiting
  · have incoming := h.drained none returned
    have working := h.coherent.cleared (.inr returned)
    have perm := h.perm
    simpa [TaskConsumer.queued, TaskConsumer.settling, incoming, working, returned] using perm

/-- One task is processed, a second one is posted just before `SetFinished` and cleared. -/
theorem consumer_accounted_shutdown :
    let task : Task Unit := ⟨.SA_NONE, none, none, some 1, none, .TS_QUEUED⟩
    let turn : Event Nat Unit := .doRun fun _ => task
    ∃ s, Run (Exec (step id ())) init ([.postTask 1, turn, turn, turn, turn, turn, turn,
        .postTask 2, .setFinished, turn, turn, turn, turn, turn]) s ∧
      s.processed = [1] ∧ s.cleared = [2] ∧ s.posted.Perm (s.processed ++ s.cleared) := by
  intro task turn
  have state : (exec (step id ()) init [.postTask 1, turn, turn, turn, turn, turn, turn,
      .postTask 2, .setFinished, turn, turn, turn, turn, turn]).map
        (fun s => (s.consumer.pc, s.processed, s.cleared)) = some (.returned, [1], [2]) := by decide
  obtain ⟨s, run, fields⟩ := run_of_map state
  simp only [Prod.mk.injEq] at fields
  obtain ⟨returned, processed, cleared⟩ := fields
  refine ⟨s, run, processed, cleared, (consumer_accounted id () run).2.2 ?_ returned⟩
  -- the kinds of the events suffice to see that nothing is posted after `SetFinished`
  let kind : Event Nat Unit → Nat := fun
    | .postTask _ => 0
    | .setFinished => 1
    | .doRun _ => 2
  intro t before
  have kinds : [1, 0].Sublist [0, 2, 2, 2, 2, 2, 2, 0, 1, 2, 2, 2, 2, 2] := before.map kind
  revert kinds
  decide

end ConsumerRun
end XLN
