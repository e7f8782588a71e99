import Mathlib.Algebra.BigOperators.Group.Finset.Basic
import Mathlib.Data.Finset.Card
import Mathlib.Logic.Function.Basic
import XLN.Lib.Transition
import XLN.Foundation.Task.BlockingQueue

/-!
# Producers and consumers of a task barrier queue

Any number of threads call `Add` and `Take` of one `TaskBarrierBlockingQueue`, as `AddStoppingThread`
and `JoinStoppedThread` of the thread pool do; a label says which of them goes on. A consumer that
finds an item at once takes no permit, so there may be more permits than items. `Awake` is what rules
out a lost wake-up all the same: each item has a permit, a producer about to post one, or a consumer
about to look at the queue. So an item comes out as long as a thread is in `Take` (`Delivers`), and as
the calls make no more than a bounded number of steps (`settles`), it does so in every run that goes on.
-/

namespace XLN
open Transition

/-- Where a thread is: in none of the two methods, in `Add` at the locked block or at `post`, in `Take`
    at the locked block or at `wait`. -/
inductive BarrierPc (T : Type) where
  | idle
  | push (task : T)
  | post
  | take
  | wait

/-- A queue and its threads; `taken` are the items that the calls of `Take` have returned. -/
structure TaskBarrier (τ T : Type) where
  queue : TaskBarrierBlockingQueue T
  pc : τ → BarrierPc T
  taken : List T

/-- The calls of `Add` of a run: the item that a thread has not pushed yet, and those pushed so far. -/
structure Additions (τ T : Type) where
  begun : τ → Option T
  pushed : List T

namespace TaskBarrier

/-- A thread begins one of the methods, or makes its next step. -/
inductive Action (T : Type) where
  | add (task : T)
  | take
  | step

section Definitions
variable {τ T : Type}

/-- A new queue. -/
def init : TaskBarrier τ T where
  queue := .new
  pc := fun _ => .idle
  taken := []

/-- Thread `t` goes to `pc`. -/
def goto [DecidableEq τ] (t : τ) (pc : BarrierPc T) (s : TaskBarrier τ T) : TaskBarrier τ T :=
  { s with pc := Function.update s.pc t pc }

/-- One step of a thread; a thread at `wait` waits while there is no permit. -/
def step [DecidableEq τ] (s : TaskBarrier τ T) : τ × Action T → Option (TaskBarrier τ T)
  | (t, .add task) =>
    match s.pc t with
    | .idle => some (s.goto t (.push task))
    | _ => none
  | (t, .take) =>
    match s.pc t with
    | .idle => some (s.goto t .take)
    | _ => none
  | (t, .step) =>
    match s.pc t with
    | .idle => none
    | .push task =>
      some { s.goto t .post with queue := s.queue.push task }
    | .post => some { s.goto t .idle with queue := s.queue.post }
    | .take =>
      match s.queue.pop with
      | some (task, queue) =>
        some { s.goto t .idle with queue := queue, taken := s.taken ++ [task] }
      | none => some (s.goto t .wait)
    | .wait => s.queue.wait.map fun queue => { s.goto t .take with queue := queue }

/-- What a label tells about the calls of `Add`: the first step of a thread after the begin of the call
    pushes the item. -/
def addition [DecidableEq τ] (x : Additions τ T) : τ × Action T → Additions τ T
  | (t, .add task) => { x with begun := Function.update x.begun t (some task) }
  | (_, .take) => x
  | (t, .step) =>
    { begun := Function.update x.begun t none, pushed := x.pushed ++ (x.begun t).toList }

/-- The calls of `Add` in a run. -/
def additions [DecidableEq τ] (l : List (τ × Action T)) : Additions τ T :=
  l.foldl addition { begun := fun _ => none, pushed := [] }

/-- The items in the order in which the run pushes them. -/
def pushed [DecidableEq τ] (l : List (τ × Action T)) : List T :=
  (additions l).pushed

/-- How many steps the threads make in a run. -/
def steps (l : List (τ × Action T)) : Nat :=
  l.countP fun a => a.2 matches .step

/-- How many calls of `Add` begin in a run. -/
def adds (l : List (τ × Action T)) : Nat :=
  l.countP fun a => a.2 matches .add _

/-- How many calls of `Take` begin in a run. -/
def takes (l : List (τ × Action T)) : Nat :=
  l.countP fun a => a.2 matches .take

/-- There are items, but no producer is about to post, and every consumer waits for a permit that is not
    there. -/
def LostWakeUp (s : TaskBarrier τ T) : Prop :=
  s.queue.m_Tasks ≠ [] ∧ s.queue.m_Sem = 0 ∧ ∀ t, s.pc t ≠ .post ∧ s.pc t ≠ .take

/-- While there are items and a thread is in `Take`, threads can go on so that the first item comes out. -/
def Delivers [DecidableEq τ] (s : TaskBarrier τ T) : Prop :=
  ∀ t task rest, s.queue.m_Tasks = task :: rest → s.pc t = .take ∨ s.pc t = .wait →
    ∃ l s', Run (Exec step) s l s' ∧ (∀ a ∈ l, a.2 = .step) ∧ s'.taken = s.taken ++ [task]

/-- The steps that are left to a thread, with the two that its permit allows a consumer. -/
def left : BarrierPc T → Nat
  | .idle | .wait => 0
  | .push _ => 4
  | .post => 3
  | .take => 1

/-- The threads `up` are about to post a permit or to look at the queue, and with the permits there are
    at least as many of them as items. -/
structure Awake (s : TaskBarrier τ T) (up : Finset τ) : Prop where
  pc : ∀ t ∈ up, s.pc t = .post ∨ s.pc t = .take
  covered : s.queue.m_Tasks.length ≤ s.queue.m_Sem + up.card

end Definitions

variable {τ T : Type} [DecidableEq τ]

/-- What a step can do. -/
inductive BarrierMove (s : TaskBarrier τ T) : τ × Action T → TaskBarrier τ T → Prop where
  | add {t task} :
    s.pc t = .idle →
    BarrierMove s (t, .add task) (s.goto t (.push task))
  | take {t} :
    s.pc t = .idle →
    BarrierMove s (t, .take) (s.goto t .take)
  | push {t task} :
    s.pc t = .push task →
    BarrierMove s (t, .step) { s.goto t .post with queue := s.queue.push task }
  | post {t} :
    s.pc t = .post →
    BarrierMove s (t, .step) { s.goto t .idle with queue := s.queue.post }
  | pop {t task tasks} :
    s.pc t = .take →
    s.queue.m_Tasks = task :: tasks →
    BarrierMove s (t, .step) { s.goto t .idle with
      queue := { s.queue with m_Tasks := tasks }
      taken := s.taken ++ [task] }
  | sleep {t} :
    s.pc t = .take →
    s.queue.m_Tasks = [] →
    BarrierMove s (t, .step) (s.goto t .wait)
  | wait {t sem} :
    s.pc t = .wait →
    s.queue.m_Sem = sem + 1 →
    BarrierMove s (t, .step) { s.goto t .take with queue := { s.queue with m_Sem := sem } }

variable {s s' : TaskBarrier τ T} {a : τ × Action T} {t : τ}
  {task : T} {up threads : Finset τ} {l : List (τ × Action T)}

/-- Every step is one of these moves. -/
lemma step_move (st : Exec step s a s') : BarrierMove s a s' := by
  obtain ⟨t, action⟩ := a
  unfold Exec step at st
  cases action with
  | add task =>
    simp only at st
    split at st
    next pc =>
      cases st
      exact .add pc
    next => cases st
  | take =>
    simp only at st
    split at st
    next pc =>
      cases st
      exact .take pc
    next => cases st
  | step =>
    simp only at st
    split at st
    next => cases st
    next pc =>
      cases st
      exact .push pc
    next pc =>
      cases st
      exact .post pc
    next pc =>
      unfold TaskBarrierBlockingQueue.pop at st
      cases tasks : s.queue.m_Tasks with
      | nil =>
        rw [tasks] at st
        cases st
        exact .sleep pc tasks
      | cons task rest =>
        rw [tasks] at st
        cases st
        exact .pop pc tasks
    next pc =>
      unfold TaskBarrierBlockingQueue.wait at st
      cases sem : s.queue.m_Sem with
      | zero =>
        rw [sem] at st
        cases st
      | succ n =>
        rw [sem] at st
        cases st
        exact .wait pc sem

/-- The program counter of another thread stays. -/
lemma pc_goto_of_ne {pc : BarrierPc T} {t' : τ} (ne : t' ≠ t) : (s.goto t pc).pc t' = s.pc t' :=
  Function.update_of_ne ne ..

/-- The program counter of the thread that moves. -/
lemma pc_goto_self {pc : BarrierPc T} : (s.goto t pc).pc t = pc :=
  Function.update_self ..

/-! ## First in, first out -/

/-- The calls of `Add` after one more label. -/
lemma additions_snoc : additions (l ++ [a]) = addition (additions l) a :=
  List.foldl_append ..

/-- The labels and the threads agree about the items that have not been pushed, and all others are in the
    queue or have been taken. -/
structure InOrder (s : TaskBarrier τ T) (x : Additions τ T) : Prop where
  begun : ∀ t task, x.begun t = some task ↔ s.pc t = .push task
  fifo : s.taken ++ s.queue.m_Tasks = x.pushed

omit [DecidableEq τ] in
/-- Only a thread that is about to push has an item. -/
lemma InOrder.none {x : Additions τ T} (h : s.InOrder x) (other : ∀ task, s.pc t ≠ .push task) :
    x.begun t = none :=
  Option.eq_none_iff_forall_ne_some.mpr fun task begun => other task ((h.begun t task).mp begun)

/-- A thread that goes where it has nothing to push. -/
lemma InOrder.begun_goto {x : Additions τ T} {pc : BarrierPc T} (h : s.InOrder x)
    (pushes : ∀ task, pc ≠ .push task) (t' : τ) (task : T) :
    Function.update x.begun t Option.none t' = some task ↔ (s.goto t pc).pc t' = .push task := by
  by_cases e : t' = t
  · rw [e, pc_goto_self, Function.update_self]
    exact iff_of_false nofun (pushes task)
  · rw [pc_goto_of_ne e, Function.update_of_ne e]
    exact h.begun t' task

/-- A step of a thread that has nothing to push and takes nothing. -/
lemma InOrder.pass {x : Additions τ T} {queue : TaskBarrierBlockingQueue T} {pc : BarrierPc T}
    (h : s.InOrder x) (other : ∀ task, s.pc t ≠ .push task) (pushes : ∀ task, pc ≠ .push task)
    (same : queue.m_Tasks = s.queue.m_Tasks) :
    { s.goto t pc with queue := queue }.InOrder (addition x (t, .step)) where
  begun := h.begun_goto pushes
  fifo := by
    show s.taken ++ queue.m_Tasks = x.pushed ++ (x.begun t).toList
    rw [same, h.none other, h.fifo]
    exact (List.append_nil _).symm

/-- A step keeps the order. -/
lemma inOrder_move {x : Additions τ T} (h : s.InOrder x) (move : BarrierMove s a s') :
    s'.InOrder (addition x a) := by
  cases move with
  | @add t task idle =>
    refine ⟨fun t' task' => ?_, h.fifo⟩
    show Function.update x.begun t (some task) t' = some task' ↔ _
    by_cases e : t' = t
    · rw [e, pc_goto_self, Function.update_self]
      simp
    · rw [pc_goto_of_ne e, Function.update_of_ne e]
      exact h.begun t' task'
  | @take t idle =>
    refine ⟨fun t' task' => ?_, h.fifo⟩
    show x.begun t' = some task' ↔ _
    by_cases e : t' = t
    · rw [e, pc_goto_self, h.none (t := t) (by simp [idle])]
      simp
    · rw [pc_goto_of_ne e]
      exact h.begun t' task'
  | @push t task pc =>
    refine ⟨h.begun_goto nofun, ?_⟩
    show s.taken ++ (s.queue.m_Tasks ++ [task]) = x.pushed ++ (x.begun t).toList
    rw [← List.append_assoc, h.fifo, (h.begun t task).mpr pc]
    rfl
  | post pc => exact h.pass (by simp [pc]) nofun rfl
  | @pop t task tasks pc items =>
    refine ⟨h.begun_goto nofun, ?_⟩
    show s.taken ++ [task] ++ tasks = x.pushed ++ (x.begun t).toList
    rw [List.append_assoc, h.none (t := t) (by simp [pc]), ← h.fifo, items]
    exact (List.append_nil _).symm
  | sleep pc => exact h.pass (by simp [pc]) nofun (rfl : s.queue.m_Tasks = _)
  | wait pc => exact h.pass (by simp [pc]) nofun rfl

/-! ## No lost wake-up -/

/-- The threads that are up, but for the one that moves. -/
lemma Awake.others (h : s.Awake up) (pc : BarrierPc T) :
    ∀ t' ∈ up.erase t, (s.goto t pc).pc t' = .post ∨ (s.goto t pc).pc t' = .take := by
  intro t' mem
  obtain ⟨ne, mem⟩ := Finset.mem_erase.mp mem
  rw [pc_goto_of_ne ne]
  exact h.pc t' mem

/-- The thread that moves gets up. -/
lemma Awake.rise (h : s.Awake up) {pc : BarrierPc T} (rises : pc = .post ∨ pc = .take) :
    ∀ t' ∈ insert t up, (s.goto t pc).pc t' = .post ∨ (s.goto t pc).pc t' = .take := by
  intro t' mem
  by_cases e : t' = t
  · rw [e, pc_goto_self]
    exact rises
  · rw [pc_goto_of_ne e]
    exact h.pc t' (Finset.mem_of_mem_insert_of_ne mem e)

omit [DecidableEq τ] in
/-- A thread that neither posts nor looks at the queue is not up. -/
lemma Awake.not_mem (h : s.Awake up) (post : s.pc t ≠ .post) (take : s.pc t ≠ .take) : t ∉ up :=
  fun mem => (h.pc t mem).elim post take

/-- A step leaves a thread for each item. -/
lemma awake_move (h : s.Awake up) (move : BarrierMove s a s') : ∃ up', s'.Awake up' := by
  have covered := h.covered
  cases move with
  | @add t task idle =>
    have away := h.not_mem (t := t) (by simp [idle]) (by simp [idle])
    refine ⟨up, fun t' mem => ?_, covered⟩
    rw [pc_goto_of_ne (ne_of_mem_of_not_mem mem away)]
    exact h.pc t' mem
  | @take t idle =>
    refine ⟨insert t up, h.rise (.inr rfl), covered.trans ?_⟩
    exact Nat.add_le_add_left (Finset.card_le_card (Finset.subset_insert t up)) _
  | @push t task pc =>
    -- the producer answers for its item until it has posted the permit
    have away := h.not_mem (t := t) (by simp [pc]) (by simp [pc])
    refine ⟨insert t up, h.rise (.inl rfl), ?_⟩
    show (s.queue.m_Tasks ++ [task]).length ≤ s.queue.m_Sem + (insert t up).card
    rw [Finset.card_insert_of_notMem away, List.length_append, List.length_singleton]
    omega
  | @post t pc =>
    refine ⟨up.erase t, h.others .idle, ?_⟩
    show s.queue.m_Tasks.length ≤ s.queue.m_Sem + 1 + (up.erase t).card
    have := Finset.pred_card_le_card_erase (s := up) (a := t)
    omega
  | @pop t task tasks pc items =>
    refine ⟨up.erase t, h.others .idle, ?_⟩
    show tasks.length ≤ s.queue.m_Sem + (up.erase t).card
    rw [items, List.length_cons] at covered
    have := Finset.pred_card_le_card_erase (s := up) (a := t)
    omega
  | sleep pc empty =>
    refine ⟨∅, nofun, ?_⟩
    show s.queue.m_Tasks.length ≤ _
    rw [empty]
    exact Nat.zero_le _
  | @wait t sem pc permit =>
    -- the consumer answers for the permit until it has looked at the queue
    have away := h.not_mem (t := t) (by simp [pc]) (by simp [pc])
    refine ⟨insert t up, h.rise (.inr rfl), ?_⟩
    show s.queue.m_Tasks.length ≤ sem + (insert t up).card
    rw [Finset.card_insert_of_notMem away]
    omega

omit [DecidableEq τ] in
/-- With a thread up for each item no wake-up is lost. -/
lemma Awake.not_lostWakeUp (h : s.Awake up) : ¬ s.LostWakeUp := by
  rintro ⟨items, permits, asleep⟩
  have none : up = ∅ := Finset.eq_empty_of_forall_notMem fun t mem =>
    (h.pc t mem).elim (asleep t).1 (asleep t).2
  have covered := h.covered
  rw [permits, none, Finset.card_empty] at covered
  exact items (List.length_eq_zero_iff.mp (Nat.le_zero.mp covered))

/-! ## The items come out -/

/-- A consumer that looks at the queue takes the first item. -/
lemma run_take {rest : List T} (pc : s.pc t = .take) (items : s.queue.m_Tasks = task :: rest) :
    ∃ s', Run (Exec step) s [(t, .step)] s' ∧ s'.taken = s.taken ++ [task] := by
  have takes : Exec step s (t, .step) { s.goto t .idle with
      queue := { s.queue with m_Tasks := rest }, taken := s.taken ++ [task] } := by
    simp [Exec, step, pc, TaskBarrierBlockingQueue.pop, items]
  exact ⟨_, .single takes, rfl⟩

/-- A consumer with a permit looks at the queue again. -/
lemma run_wait {rest : List T} (pc : s.pc t = .wait) (permit : s.queue.m_Sem ≠ 0)
    (items : s.queue.m_Tasks = task :: rest) :
    ∃ s', Run (Exec step) s [(t, .step), (t, .step)] s' ∧ s'.taken = s.taken ++ [task] := by
  obtain ⟨sem, permits⟩ := Nat.exists_eq_succ_of_ne_zero permit
  let woken : TaskBarrier τ T := { s.goto t .take with queue := { s.queue with m_Sem := sem } }
  have wakes : Exec step s (t, .step) woken := by
    simp [Exec, step, pc, TaskBarrierBlockingQueue.wait, permits, woken]
  obtain ⟨s', run, taken⟩ := run_take (s := woken) pc_goto_self items
  exact ⟨s', (Run.single wakes).append run, taken⟩

/-- The first item comes out: the consumer takes it, or another thread that is up gives it a permit or
    takes the item itself. -/
lemma Awake.delivers (h : s.Awake up) : s.Delivers := by
  intro t task rest items inTake
  rcases inTake with pc | pc
  · obtain ⟨s', run, taken⟩ := run_take pc items
    exact ⟨_, s', run, by simp, taken⟩
  · by_cases permit : s.queue.m_Sem = 0
    · have covered := h.covered
      rw [items, permit, List.length_cons] at covered
      obtain ⟨u, mem⟩ := Finset.card_pos.mp (show 0 < up.card by omega)
      rcases h.pc u mem with post | take
      · let posted : TaskBarrier τ T := { s.goto u .idle with queue := s.queue.post }
        have posts : Exec step s (u, .step) posted := by
          simp [Exec, step, post, posted]
        have other : t ≠ u := by
          rintro rfl
          rw [pc] at post
          cases post
        obtain ⟨s', run, taken⟩ := run_wait (s := posted) ((pc_goto_of_ne other).trans pc)
          (Nat.succ_ne_zero _) items
        exact ⟨_, s', (Run.single posts).append run, by simp, taken⟩
      · obtain ⟨s', run, taken⟩ := run_take take items
        exact ⟨_, s', run, by simp, taken⟩
    · obtain ⟨s', run, taken⟩ := run_wait pc permit items
      exact ⟨_, s', run, by simp, taken⟩

/-- The steps that are left to the threads, where a permit stands for two of them. -/
def stepsLeft (threads : Finset τ) (s : TaskBarrier τ T) : Nat :=
  ∑ t ∈ threads, left (s.pc t) + 2 * s.queue.m_Sem

/-- The account is the one of the thread that moves. -/
lemma stepsLeft_goto {pc : BarrierPc T} {begun made : Nat} (mem : t ∈ threads)
    (moved : s'.pc = (s.goto t pc).pc)
    (account : left pc + 2 * s'.queue.m_Sem + made = left (s.pc t) + 2 * s.queue.m_Sem + begun) :
    s'.stepsLeft threads + made = s.stepsLeft threads + begun := by
  have others : ∑ t' ∈ threads.erase t, left (s'.pc t') = ∑ t' ∈ threads.erase t, left (s.pc t') :=
    Finset.sum_congr rfl fun t' other => by
      rw [moved, pc_goto_of_ne (Finset.ne_of_mem_erase other)]
  have before := Finset.add_sum_erase threads (fun t' => left (s.pc t')) mem
  have after := Finset.add_sum_erase threads (fun t' => left (s'.pc t')) mem
  have self : left (s'.pc t) = left pc := by rw [moved, pc_goto_self]
  unfold stepsLeft
  omega

/-- A call begins with the steps it has left, and each step uses up one. -/
lemma stepsLeft_move (move : BarrierMove s a s') (mem : a.1 ∈ threads) :
    s'.stepsLeft threads + steps [a] = s.stepsLeft threads + (4 * adds [a] + takes [a]) := by
  cases move with
  | add pc =>
    refine stepsLeft_goto mem rfl ?_
    rw [pc]
    show 4 + 2 * s.queue.m_Sem + 0 = 0 + 2 * s.queue.m_Sem + 4
    omega
  | take pc =>
    refine stepsLeft_goto mem rfl ?_
    rw [pc]
    show 1 + 2 * s.queue.m_Sem + 0 = 0 + 2 * s.queue.m_Sem + 1
    omega
  | push pc =>
    refine stepsLeft_goto mem rfl ?_
    rw [pc]
    show 3 + 2 * s.queue.m_Sem + 1 = 4 + 2 * s.queue.m_Sem + 0
    omega
  | post pc =>
    refine stepsLeft_goto mem rfl ?_
    rw [pc]
    show 0 + 2 * (s.queue.m_Sem + 1) + 1 = 3 + 2 * s.queue.m_Sem + 0
    omega
  | pop pc | sleep pc =>
    refine stepsLeft_goto mem rfl ?_
    rw [pc]
    show 0 + 2 * s.queue.m_Sem + 1 = 1 + 2 * s.queue.m_Sem + 0
    omega
  | @wait t sem pc permit =>
    refine stepsLeft_goto mem rfl ?_
    rw [pc, permit]
    show 1 + 2 * sem + 1 = 0 + 2 * (sem + 1) + 0
    omega

/-- The calls of a run make no more steps than these: four for each `Add`, with those that its permit
    allows a consumer, and one for each `Take`. -/
lemma settles (run : Run (Exec step) (init : TaskBarrier τ T) l s) :
    steps l ≤ 4 * adds l + takes l := by
  have account : ∀ threads : Finset τ, (∀ a ∈ l, a.1 ∈ threads) →
      s.stepsLeft threads + steps l = 4 * adds l + takes l := by
    intro threads
    apply run.invariant_labels (I := fun l s => (∀ a ∈ l, a.1 ∈ threads) →
      s.stepsLeft threads + steps l = 4 * adds l + takes l)
    · intro _
      simp [stepsLeft, init, left, TaskBarrierBlockingQueue.new, steps, adds, takes]
    · intro l s a s' ih st mem
      have before := ih fun b old => mem b (List.mem_append_left _ old)
      have now := stepsLeft_move (step_move st) (mem a (by simp))
      simp only [steps, adds, takes, List.countP_append] at before now ⊢
      omega
  have all := account (l.map Prod.fst).toFinset fun a mem =>
    List.mem_toFinset.mpr (List.mem_map_of_mem mem)
  omega

/-- However the threads interleave, the items come out in the order in which they are pushed, each once,
    and no wake-up is lost: while there are items and a thread is in `Take`, an item comes out within the
    steps that are left. -/
theorem fifo_without_lost_wake_up (run : Run (Exec step) (init : TaskBarrier τ T) l s) :
    s.taken ++ s.queue.m_Tasks = pushed l ∧ ¬ s.LostWakeUp ∧ s.Delivers ∧
      steps l ≤ 4 * adds l + takes l := by
  have both : s.InOrder (additions l) ∧ ∃ up, s.Awake up := by
    apply run.invariant_labels (I := fun l s => s.InOrder (additions l) ∧ ∃ up, s.Awake up)
    · exact ⟨⟨fun _ _ => iff_of_false nofun nofun, rfl⟩, ∅, nofun, Nat.zero_le _⟩
    · rintro l s a s' ⟨order, up, awake⟩ st
      rw [additions_snoc]
      exact ⟨inOrder_move order (step_move st), awake_move awake (step_move st)⟩
  obtain ⟨order, up, awake⟩ := both
  exact ⟨order.fifo, awake.not_lostWakeUp, awake.delivers, settles run⟩

/-- Two producers and two consumers: thread 2 finds the queue empty and waits, thread 3 takes its item
    without a permit, and so thread 2 is woken twice. -/
theorem fifo_without_lost_wake_up_two :
    let l : List (Fin 4 × Action Nat) := [(2, .take), (2, .step), (0, .add 10), (0, .step), (3, .take),
      (3, .step), (0, .step), (2, .step), (2, .step), (1, .add 20), (1, .step), (1, .step), (2, .step),
      (2, .step)]
    ∃ s, Run (Exec step) (init : TaskBarrier (Fin 4) Nat) l s ∧ s.taken = [10, 20] ∧
      s.taken ++ s.queue.m_Tasks = pushed l ∧ s.Delivers := by
  intro l
  have state : (exec step (init : TaskBarrier (Fin 4) Nat) l).map TaskBarrier.taken =
      some [10, 20] := by decide
  obtain ⟨s, run, taken⟩ := run_of_map state
  obtain ⟨fifo, -, delivers, -⟩ := fifo_without_lost_wake_up run
  exact ⟨s, run, taken, fifo, delivers⟩

end TaskBarrier
end XLN
