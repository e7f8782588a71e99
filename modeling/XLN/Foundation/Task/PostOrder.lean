import XLN.Foundation.Task.TaskConsumer

/-!
# The order of a consumer's tasks

Whether a `TaskConsumer`, and with it `EventExecutor::add`, handles the tasks of a thread in the order
in which the thread posts them. Its queues are priority queues of pointers, so a batch is handled by
falling address. A posted task carries the thread that has posted it, which the code does not see.
`inOrder_of_behind` says that the order is kept as long as no thread posts a task while an earlier one
of its own with a lower address is waiting to be swapped in.
-/

namespace XLN
open Transition

/-- A task that has been posted, and by which thread. -/
structure Post (θ τ : Type) where
  thread : θ
  task : τ
  deriving DecidableEq

/-- A consumer, the calls of `PostTask` so far, and the tasks that `DoRun` has handled. -/
structure PostOrder (θ τ : Type) where
  consumer : TaskConsumer (Post θ τ)
  posted : List (Post θ τ)
  handled : List (Post θ τ)

namespace TaskConsumer

variable {τ : Type}

/-- The task that the next step of `DoRun` handles. -/
def inHand (c : TaskConsumer τ) : List τ :=
  match c.pc with
  | .dispatch t => [t]
  | _ => []

/-- The thread has come to `ClearTasks`. -/
def cleared (c : TaskConsumer τ) : Bool :=
  match c.pc with
  | .clearWorking | .clearIncoming | .returned => true
  | _ => false

/-- What `DoRun` still has to take up, in the order in which it will. -/
def toTake (c : TaskConsumer τ) : List τ :=
  c.m_WorkingQueue.m_Tasks ++ c.m_IncomingQueue.m_Tasks

variable {ι : Type} [DecidableEq ι] {self : ι} {memory : τ → Task ι} {c c' : TaskConsumer τ}
  {effects : List (Effect τ ι)}

omit [DecidableEq ι] in
/-- A cleared consumer has no task in hand. -/
lemma inHand_of_cleared (h : c.cleared = true) : c.inHand = [] := by
  unfold cleared at h
  unfold inHand
  cases hpc : c.pc <;> simp_all

/-- A swap with an empty working queue keeps the order. -/
lemma reloadWorkQueue_toTake (h : c.m_WorkingQueue.m_Tasks = []) :
    c.reloadWorkQueue.m_WorkingQueue.m_Tasks ++ c.reloadWorkQueue.m_IncomingQueue.m_Tasks =
      c.toTake := by
  rw [reloadWorkQueue_incoming h, List.append_nil, toTake, h, List.nil_append]
  unfold reloadWorkQueue
  split
  next empty => rw [h, TaskQueue.empty_iff.mp empty]
  next => rfl

/-- Until the queues are cleared, `DoRun` takes the tasks up one after the other. -/
lemma doRun_line (coherent : c.Coherent) (e : c.doRun self memory = some (c', effects))
    (going : c'.cleared = false) :
    c.cleared = false ∧ c.inHand ++ c'.inHand ++ c'.toTake = c.inHand ++ c.toTake := by
  unfold doRun at e
  cases hpc : c.pc with
  | testFinished | innerTest =>
    simp only [hpc] at e
    cases e
    cases hf : c.m_Finished with
    | true | false => simp_all [cleared, inHand, toTake]
  | awaitTask =>
    simp only [hpc] at e
    split at e
    next =>
      cases e
      refine ⟨by simp [cleared, hpc], ?_⟩
      show c.inHand ++ [] ++ (c.reloadWorkQueue.m_WorkingQueue.m_Tasks ++ _) = _
      rw [reloadWorkQueue_toTake (coherent.awaiting hpc), List.append_nil]
    next => cases e
  | dequeue =>
    simp only [hpc] at e
    split at e
    next t queue h =>
      cases e
      simp [cleared, inHand, hpc, toTake, TaskQueue.dequeue_some h]
    next h =>
      cases e
      simp [cleared, inHand, hpc, toTake]
  | dispatch t =>
    simp only [hpc] at e
    split at e <;> cases e <;> simp [cleared, inHand, hpc, toTake]
  | settle t =>
    simp only [hpc] at e
    cases e
    simp [cleared, inHand, hpc, toTake]
  | clearWorking | clearIncoming =>
    simp only [hpc] at e
    split at e <;> cases e <;> simp_all [cleared]
  | returned =>
    simp only [hpc] at e
    cases e

/-- Only `PostTask` puts something into the incoming queue. -/
lemma doRun_incoming (coherent : c.Coherent) (e : c.doRun self memory = some (c', effects)) :
    c'.m_IncomingQueue.m_Tasks.Sublist c.m_IncomingQueue.m_Tasks := by
  unfold doRun at e
  split at e
  case h_2 hpc =>
    split at e
    next =>
      cases e
      show c.reloadWorkQueue.m_IncomingQueue.m_Tasks.Sublist _
      rw [reloadWorkQueue_incoming (coherent.awaiting hpc)]
      exact List.nil_sublist _
    next => cases e
  case h_8 =>
    split at e
    next t queue h =>
      cases e
      rw [TaskQueue.dequeue_some h]
      exact List.sublist_cons_self _ _
    next =>
      cases e
      exact .refl _
  case h_4 | h_5 | h_7 =>
    split at e <;> cases e <;> exact .refl _
  all_goals cases e
  all_goals exact .refl _

end TaskConsumer

namespace PostOrder

/-- A call of `PostTask` or `SetFinished`, or a step of the thread. -/
inductive Event (θ τ ι : Type) where
  | postTask (thread : θ) (task : τ)
  | setFinished
  | doRun (memory : τ → Task ι)

section Definitions
variable {θ τ ι : Type}

/-- A new consumer. -/
def init : PostOrder θ τ where
  consumer := .new
  posted := []
  handled := []

/-- One step of anybody. -/
def step [DecidableEq ι] (address : τ → Nat) (self : ι) (s : PostOrder θ τ) :
    Event θ τ ι → Option (PostOrder θ τ)
  | .postTask thread task =>
    some { s with
      consumer := s.consumer.postTask (fun t => address t.task) ⟨thread, task⟩
      posted := s.posted ++ [⟨thread, task⟩] }
  | .setFinished => some { s with consumer := s.consumer.setFinished }
  | .doRun memory =>
    (s.consumer.doRun self fun t => memory t.task).map fun r =>
      { s with consumer := r.1, handled := s.handled ++ s.consumer.inHand }

variable [DecidableEq θ]

/-- The tasks of one thread. -/
def of (thread : θ) (tasks : List (Post θ τ)) : List (Post θ τ) :=
  tasks.filter fun t => t.thread = thread

/-- For each thread, the tasks handled so far are the first ones that it has posted. -/
def InOrder (s : PostOrder θ τ) : Prop :=
  ∀ thread, of thread s.handled <+: of thread s.posted

omit [DecidableEq θ] in
/-- The earlier tasks of the same thread that are waiting to be swapped in have higher addresses. -/
def Behind (address : τ → Nat) (s : PostOrder θ τ) : Event θ τ ι → Prop
  | .postTask thread task => ∀ t ∈ s.consumer.m_IncomingQueue.m_Tasks, t.thread = thread →
      address task < address t.task
  | .setFinished | .doRun _ => True

instance (address : τ → Nat) (s : PostOrder θ τ) :
    (a : Event θ τ ι) → Decidable (s.Behind address a)
  | .postTask _ _ => inferInstanceAs (Decidable (∀ _ ∈ _, _ → _))
  | .setFinished | .doRun _ => inferInstanceAs (Decidable True)

omit [DecidableEq θ] in
/-- The tasks in the order in which they are handled, as far as it is settled. -/
def line (s : PostOrder θ τ) : List (Post θ τ) :=
  s.handled ++ (s.consumer.inHand ++ s.consumer.toTake)

/-- Until the queues are cleared each thread's tasks stand in line as it has posted them. -/
structure InLine (address : τ → Nat) (s : PostOrder θ τ) : Prop where
  coherent : s.consumer.Coherent
  sorted : s.consumer.m_IncomingQueue.m_Tasks.Pairwise fun t t' => address t'.task ≤ address t.task
  line : s.consumer.cleared = false → ∀ thread, of thread s.line = of thread s.posted
  inOrder : s.InOrder

end Definitions

variable {θ τ ι : Type} [DecidableEq θ] {address : τ → Nat} {s s' : PostOrder θ τ}
  {a : Event θ τ ι} {thread : θ}

/-- The posts of a thread, one part after the other. -/
lemma of_append (l l' : List (Post θ τ)) : of thread (l ++ l') = of thread l ++ of thread l' :=
  List.filter_append ..

/-- In the beginning no task is in line. -/
lemma inLine_init (address : τ → Nat) : (init : PostOrder θ τ).InLine address where
  coherent := TaskConsumer.coherent_new
  sorted := .nil
  line _ _ := rfl
  inOrder _ := List.prefix_refl _

/-- A task that is behind the others of its thread comes last in the line of the thread. -/
lemma of_enqueue (thread : θ) {t : Post θ τ} {queue : TaskQueue (Post θ τ)}
    (sorted : queue.m_Tasks.Pairwise fun t t' => address t'.task ≤ address t.task)
    (behind : ∀ t' ∈ queue.m_Tasks, t'.thread = t.thread → address t.task < address t'.task) :
    of thread (queue.enqueue (fun t => address t.task) t).m_Tasks =
      of thread (queue.m_Tasks ++ [t]) := by
  have trans : IsTrans (Post θ τ) fun t t' => address t'.task ≤ address t.task :=
    ⟨fun _ _ _ le le' => Nat.le_trans le' le⟩
  by_cases own : t.thread = thread
  · subst own
    rw [of_append]
    refine (List.filter_orderedInsert_of_pos sorted (by simp) ?_).trans ?_
    · intro t' mem own
      exact Nat.not_le.mpr (behind t' mem (by simpa using own))
    · simp [of]
  · refine (List.filter_orderedInsert_of_neg (by simpa using own)).trans ?_
    simp [of, own]

variable [DecidableEq ι] {self : ι}

/-- A task that is posted behind the others keeps them in line. -/
lemma inLine_step (h : s.InLine address) (behind : s.Behind address a)
    (st : Exec (step address self) s a s') : s'.InLine address := by
  cases a with
  | postTask thread task =>
    cases st
    refine ⟨h.coherent.postTask, h.sorted.orderedInsert _ _, fun going other => ?_, fun other => ?_⟩
    · have same := h.line going other
      have last := of_enqueue other (t := ⟨thread, task⟩) h.sorted behind
      unfold line TaskConsumer.toTake at same ⊢
      simp only [of_append] at same last ⊢
      rw [← same]
      show _ ++ (_ ++ (_ ++ of other (TaskQueue.enqueue _ _ _).m_Tasks)) = _
      rw [last]
      simp only [List.append_assoc]
      rfl
    · rw [of_append]
      exact (h.inOrder other).trans (List.prefix_append _ _)
  | setFinished =>
    cases st
    exact ⟨h.coherent.setFinished, h.sorted, h.line, h.inOrder⟩
  | doRun memory =>
    obtain ⟨⟨c', effects⟩, e, rfl⟩ := Option.map_eq_some_iff.mp st
    refine ⟨h.coherent.doRun e, h.sorted.sublist (TaskConsumer.doRun_incoming h.coherent e),
      fun going thread => ?_, fun thread => ?_⟩
    · obtain ⟨before, same⟩ := TaskConsumer.doRun_line h.coherent e going
      rw [← h.line before thread]
      unfold line
      rw [← same]
      simp only [List.append_assoc]
    · cases before : s.consumer.cleared with
      | true =>
        show of thread (s.handled ++ s.consumer.inHand) <+: _
        rw [TaskConsumer.inHand_of_cleared before, List.append_nil]
        exact h.inOrder thread
      | false =>
        show of thread (s.handled ++ s.consumer.inHand) <+: of thread s.posted
        rw [← h.line before thread, line, ← List.append_assoc, of_append (_ ++ _)]
        exact List.prefix_append _ _

/-- The tasks of each thread are handled in the order in which it posts them, if each is behind the
    earlier ones that are waiting. -/
theorem inOrder_of_behind (address : τ → Nat) (self : ι) {l : List (Event θ τ ι)}
    (behind : Meets (Exec (step address self)) (Behind address) init l) :
    Along (Exec (step address self)) InOrder init l := by
  have along : Along (Exec (step address self)) (InLine address) init l :=
    behind.along (inLine_init address) inLine_step
  intro l1 s pre run
  exact (along l1 s pre run).inOrder

/-- Two threads post in turn; the tasks of each have falling addresses. -/
theorem inOrder_of_behind_two :
    let task : Task Unit := ⟨.SA_NONE, none, none, some 1, none, .TS_QUEUED⟩
    let turn : Event Bool Nat Unit := .doRun fun _ => task
    let events := [.postTask false 4, .postTask true 9, .postTask false 2, .postTask true 7] ++
      List.replicate 17 turn
    ∃ s, Run (Exec (step id ())) init events s ∧
      s.handled = [⟨true, 9⟩, ⟨true, 7⟩, ⟨false, 4⟩, ⟨false, 2⟩] ∧
      Along (Exec (step id ())) InOrder init events := by
  intro task turn events
  have state : (exec (step id ()) init events).map PostOrder.handled =
      some [⟨true, 9⟩, ⟨true, 7⟩, ⟨false, 4⟩, ⟨false, 2⟩] := by decide
  obtain ⟨s, run, handled⟩ := run_of_map state
  exact ⟨s, run, handled, inOrder_of_behind id () (meets_of_check (by decide))⟩

/-- A thread posts the task at address 1 and then the one at address 2, which is handled first. -/
theorem handled_out_of_order :
    let task : Task Unit := ⟨.SA_NONE, none, none, some 1, none, .TS_QUEUED⟩
    let turn : Event Unit Nat Unit := .doRun fun _ => task
    ∃ s, Run (Exec (step id ())) init
        ([.postTask () 1, .postTask () 2] ++ List.replicate 9 turn) s ∧
      s.posted = [⟨(), 1⟩, ⟨(), 2⟩] ∧ s.handled = [⟨(), 2⟩, ⟨(), 1⟩] ∧ ¬ s.InOrder := by
  intro task turn
  have state : (exec (step id ()) init
      ([.postTask () 1, .postTask () 2] ++ List.replicate 9 turn)).map
        (fun s => (s.posted, s.handled)) = some ([⟨(), 1⟩, ⟨(), 2⟩], [⟨(), 2⟩, ⟨(), 1⟩]) := by decide
  obtain ⟨s, run, fields⟩ := run_of_map state
  simp only [Prod.mk.injEq] at fields
  obtain ⟨posted, handled⟩ := fields
  refine ⟨s, run, posted, handled, fun inOrder => ?_⟩
  have order := inOrder ()
  rw [posted, handled] at order
  revert order
  decide

end PostOrder
end XLN
