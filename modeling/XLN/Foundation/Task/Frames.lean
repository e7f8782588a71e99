import XLN.Lib.Transition
import XLN.Foundation.Task.FrameRunner

/-!
# Frames

A `FrameRunner` with its posters, from its construction on. The queue has a fixed capacity and is
emptied once a frame; `PostTask` drops the task that finds no room. So the tasks are conserved along a
run exactly if every `PostTask` finds room (`conserved_along_iff`), and what the queue keeps of a burst
between two frames are its first `capacity` tasks (`run_burst`).

The destructor is meant to release the tasks that are left. Its loop ends only if there are none
(`destructor_ends_iff`): a `pop` that finds nothing leaves `waitingTask` as it was.
-/

namespace XLN
open Transition

/-- A frame runner, the tasks passed to `PostTask`, and those that `DoRun` is done with. -/
structure FrameRun (τ : Type) where
  runner : FrameRunner τ
  posted : List τ
  processed : List τ

namespace FrameRun

/-- A call of `PostTask`, the begin of a frame, or a step of `DoRun`, which reads the tasks as they are
    at that moment. -/
inductive Event (τ ι : Type) where
  | postTask (task : τ)
  | frame
  | doRun (memory : τ → Task ι)

section Definitions
variable {τ ι : Type}

/-- A new runner. -/
def init : FrameRun τ where
  runner := .new
  posted := []
  processed := []

/-- One step of a poster or of the thread. -/
def step [DecidableEq ι] (self : ι) (s : FrameRun τ) : Event τ ι → Option (FrameRun τ)
  | .postTask task =>
    some { s with runner := s.runner.postTask task, posted := s.posted ++ [task] }
  | .frame =>
    match s.runner.pc with
    | .returned => some { s with runner := { s.runner with pc := .pop } }
    | _ => none
  | .doRun memory =>
    (s.runner.doRun self memory).map fun r =>
      { s with runner := r.1, processed := s.processed ++ r.2.filterMap Effect.done }

/-- The tasks that `DoRun` has taken out and is not done with. -/
def inHand (s : FrameRun τ) : List τ :=
  match s.runner.pc with
  | .dispatch t | .settle t => [t]
  | _ => []

/-- Each posted task is waiting, in the hands of `DoRun`, or processed, once for each `PostTask`. -/
def Conserved (s : FrameRun τ) : Prop :=
  s.posted.Perm (s.processed ++ s.inHand ++ s.runner.m_WaitingTasks)

/-- A `PostTask` finds fewer than 2048 tasks waiting. -/
def HasRoom (s : FrameRun τ) : Event τ ι → Prop
  | .postTask _ => s.runner.m_WaitingTasks.length < FrameRunner.capacity
  | .frame | .doRun _ => True

instance (s : FrameRun τ) : (a : Event τ ι) → Decidable (s.HasRoom a)
  | .postTask _ => inferInstanceAs (Decidable (_ < _))
  | .frame | .doRun _ => inferInstanceAs (Decidable True)

end Definitions

variable {τ ι : Type} {s s' : FrameRun τ} {a : Event τ ι}

/-- The tasks of the runner, as they are counted for the runners together. -/
lemma queued_perm :
    (s.runner.queued ++ s.runner.settling.toList).Perm (s.inHand ++ s.runner.m_WaitingTasks) := by
  unfold FrameRunner.queued FrameRunner.settling inHand
  cases s.runner.pc with
  | dispatch t =>
    simp only [Option.toList_none, List.append_nil]
    exact List.perm_append_comm
  | settle t =>
    simp only [List.append_nil, Option.toList_some]
    exact List.perm_append_comm
  | pop | returned | destroying => simp

/-- Every posted task is in one place. -/
lemma conserved_iff : s.Conserved ↔
    s.posted.Perm (s.processed ++ (s.runner.queued ++ s.runner.settling.toList)) := by
  unfold Conserved
  rw [List.append_assoc]
  have perm := (queued_perm (s := s)).append_left s.processed
  exact ⟨fun h => h.trans perm.symm, fun h => h.trans perm⟩

/-- What an event can do. -/
inductive FrameMove [DecidableEq ι] (self : ι) (s : FrameRun τ) :
    Event τ ι → FrameRun τ → Prop where
  | postTask {task} :
    s.runner.m_WaitingTasks.length < FrameRunner.capacity →
    FrameMove self s (.postTask task) { s with
      runner := { s.runner with m_WaitingTasks := s.runner.m_WaitingTasks ++ [task] }
      posted := s.posted ++ [task] }
  | drop {task} :
    ¬ s.runner.m_WaitingTasks.length < FrameRunner.capacity →
    FrameMove self s (.postTask task) { s with posted := s.posted ++ [task] }
  | frame :
    s.runner.pc = .returned →
    FrameMove self s .frame { s with runner := { s.runner with pc := .pop } }
  | doRun {memory runner' effects} :
    s.runner.doRun self memory = some (runner', effects) →
    FrameMove self s (.doRun memory)
      { s with runner := runner', processed := s.processed ++ effects.filterMap Effect.done }

variable [DecidableEq ι] {self : ι}

/-- Every step is one of these moves. -/
lemma step_move (st : Exec (step self) s a s') : FrameMove self s a s' := by
  cases a with
  | postTask task =>
    cases st
    unfold FrameRunner.postTask
    split
    next room => exact .postTask room
    next full => exact .drop full
  | frame =>
    unfold Exec step at st
    simp only at st
    split at st
    next returned =>
      cases st
      exact .frame returned
    next => cases st
  | doRun memory =>
    obtain ⟨⟨runner', effects⟩, e, rfl⟩ := Option.map_eq_some_iff.mp st
    exact .doRun e

/-- No step loses a task unless a `PostTask` finds no room. -/
lemma conserved_step (h : s.Conserved) (room : s.HasRoom a) (st : Exec (step self) s a s') :
    s'.Conserved := by
  have move := step_move st
  cases move with
  | @postTask task here =>
    show (s.posted ++ [task]).Perm (s.processed ++ s.inHand ++ (s.runner.m_WaitingTasks ++ [task]))
    rw [← List.append_assoc]
    exact h.append_right [task]
  | drop full => exact absurd room full
  | frame returned =>
    have hand : s.inHand = [] := by
      unfold inHand
      rw [returned]
    show s.posted.Perm (s.processed ++ [] ++ s.runner.m_WaitingTasks)
    rw [← hand]
    exact h
  | @doRun memory runner' effects e =>
    rw [conserved_iff] at h ⊢
    have perm := h.trans ((FrameRunner.doRun_move e).perm.append_left s.processed)
    show s.posted.Perm (s.processed ++ effects.filterMap Effect.done ++ _)
    rw [List.append_assoc]
    exact perm

/-- The task of a `PostTask` that finds no room is nowhere. -/
lemma not_conserved_step (h : s.Conserved) (full : ¬ s.HasRoom a) (st : Exec (step self) s a s') :
    ¬ s'.Conserved := by
  have move := step_move st
  cases move with
  | postTask room => exact absurd room full
  | @drop task here =>
    intro conserved
    -- one task more has been posted, and none has come in
    have before := h.length_eq
    have after : (s.posted ++ [task]).length = _ := conserved.length_eq
    rw [List.length_append] at after
    have same : (s.posted.length + [task].length) = s.posted.length := after.trans before.symm
    simp at same
  | frame => exact absurd trivial full
  | doRun => exact absurd trivial full

/-- Along a run no task is lost if and only if every `PostTask` finds fewer than 2048 tasks waiting. -/
theorem conserved_along_iff (self : ι) {l : List (Event τ ι)}
    (run : Run (Exec (step self)) init l s) :
    Along (Exec (step self)) Conserved init l ↔ Meets (Exec (step self)) HasRoom init l := by
  apply run.along_iff (Exec.deterministic (step self))
  · exact .nil
  · exact conserved_step
  · exact not_conserved_step

/-- Two tasks are posted, one of them in the middle of a frame, which takes both. -/
theorem conserved_along_iff_two :
    let task : Task Unit := ⟨.SA_NONE, none, some 1, none, none, .TS_QUEUED⟩
    let turn : Event Nat Unit := .doRun fun _ => task
    let events := [.postTask 1, .frame, turn, turn, .postTask 2] ++ List.replicate 5 turn
    ∃ s, Run (Exec (step ())) init events s ∧ s.processed = [1, 2] ∧
      Along (Exec (step ())) Conserved init events := by
  intro task turn events
  have state : (exec (step ()) init events).map FrameRun.processed = some [1, 2] := by decide
  obtain ⟨s, run, processed⟩ := run_of_map state
  exact ⟨s, run, processed, (conserved_along_iff () run).mpr (meets_of_check (by decide))⟩

/-- Of a burst of tasks between two frames the queue keeps the first 2048. -/
lemma run_burst (self : ι) (tasks : List τ) :
    Run (Exec (step self)) init (tasks.map .postTask)
      { runner := { m_WaitingTasks := tasks.take FrameRunner.capacity, pc := .returned }
        posted := tasks
        processed := [] } := by
  induction tasks using List.reverseRecOn with
  | nil => exact .nil
  | append_singleton tasks task ih =>
    rw [List.map_append]
    refine .snoc ih ?_
    show some _ = some _
    unfold FrameRunner.postTask
    simp only [List.length_take]
    by_cases room : tasks.length < FrameRunner.capacity
    · rw [if_pos (by omega), List.take_of_length_le (Nat.le_of_lt room),
        List.take_of_length_le (by simp; omega)]
    · rw [if_neg (by omega), List.take_append_of_le_length (Nat.le_of_not_lt room)]

/-- A task behind them is lost. -/
lemma burst_lost (self : ι) {tasks : List τ} {task : τ} (posted : task ∈ tasks)
    (late : task ∉ tasks.take FrameRunner.capacity) :
    ∃ s, Run (Exec (step self)) init (tasks.map .postTask) s ∧ task ∈ s.posted ∧
      task ∉ s.processed ++ s.inHand ++ s.runner.m_WaitingTasks ∧ ¬ s.Conserved :=
  ⟨_, run_burst self tasks, posted, late, fun conserved => late (conserved.mem_iff.mp posted)⟩

/-- The last one of 2049 tasks that are posted between two frames is lost. -/
theorem task_lost :
    ∃ s : FrameRun Nat, Run (Exec (step ())) init ((List.range 2049).map .postTask) s ∧
      2048 ∈ s.posted ∧ 2048 ∉ s.processed ++ s.inHand ++ s.runner.m_WaitingTasks ∧
      ¬ s.Conserved := by
  apply burst_lost
  · exact List.mem_range.mpr (Nat.lt_succ_self 2048)
  · intro mem
    rw [FrameRunner.capacity, List.take_range] at mem
    have lt := List.mem_range.mp mem
    omega

end FrameRun

/-! ## The destructor -/

namespace FrameRunner

section Definitions
variable {τ ι : Type}

/-- The loop of `~FrameRunner`: its next step, until it is over. -/
def destroyLoop (f : FrameRunner τ) : Option (FrameRunner τ × List (Effect τ ι)) :=
  match f.destroy with
  | (some f', effects) => some (f', effects)
  | (none, _) => none

/-- A runner whose destructor begins, with `waitingTask` null. -/
def destructor (tasks : List τ) : FrameRunner τ where
  m_WaitingTasks := tasks
  pc := .destroying none

/-- Each of the pending tasks has been released once, and nothing else has been done. -/
def ReleasesEach (tasks : List τ) (effects : List (Effect τ ι)) : Prop :=
  effects.Perm (tasks.map .release)

/-- There is a pending task, or the last `pop` that took one has left it in `waitingTask`. -/
def Busy (f : FrameRunner τ) : Prop :=
  f.m_WaitingTasks ≠ [] ∨ ∃ t, f.pc = .destroying (some t)

end Definitions

variable {τ ι : Type} {f : FrameRunner τ} {t : τ} {tasks : List τ} {pc : FramePc τ}

/-- The destructor releases the tasks that wait. -/
lemma destroyLoop_pop : destroyLoop ⟨t :: tasks, pc⟩ =
    some (⟨tasks, .destroying (some t)⟩, [(.release t : Effect τ ι)]) :=
  rfl

/-- With an empty queue `waitingTask` is still the task of the iteration before. -/
lemma destroyLoop_again : destroyLoop ⟨[], .destroying (some t)⟩ =
    some (⟨[], .destroying (some t)⟩, [(.release t : Effect τ ι)]) :=
  rfl

/-- Every iteration that releases a task is followed by another one. -/
lemma destroyLoop_busy (busy : f.Busy) :
    ∃ f', ∃ effects : List (Effect τ ι), destroyLoop f = some (f', effects) ∧ f'.Busy := by
  obtain ⟨tasks, pc⟩ := f
  cases tasks with
  | cons t tasks => exact ⟨_, _, destroyLoop_pop, .inr ⟨t, rfl⟩⟩
  | nil =>
    obtain ⟨t, rfl⟩ := busy.resolve_left (fun ne => ne rfl)
    exact ⟨_, _, destroyLoop_again, .inr ⟨t, rfl⟩⟩

/-- The last pending task is released again and again. -/
lemma destroyLoop_repeats (n : Nat) : Puts destroyLoop ⟨[], .destroying (some t)⟩
    (List.replicate n (.release t : Effect τ ι)) ⟨[], .destroying (some t)⟩ := by
  induction n with
  | zero => exact .done
  | succ n ih => exact .next destroyLoop_again ih

/-- Before that each pending task has been released once. -/
lemma destroyLoop_releases (tasks : List τ) (n : Nat) : Puts destroyLoop ⟨tasks ++ [t], pc⟩
    ((tasks ++ [t]).map .release ++ List.replicate n (.release t : Effect τ ι))
    ⟨[], .destroying (some t)⟩ := by
  induction tasks generalizing pc with
  | nil => exact .next destroyLoop_pop (destroyLoop_repeats n)
  | cons t' tasks ih =>
    rw [List.cons_append, List.map_cons, List.cons_append]
    exact .next destroyLoop_pop ih

/-- The destructor ends, with each pending task released once, if and only if there is none. -/
theorem destructor_ends_iff (tasks : List τ) :
    (∃ effects : List (Effect τ ι), Outputs destroyLoop (destructor tasks) effects ∧
      ReleasesEach tasks effects) ↔ tasks = [] := by
  constructor
  · rintro ⟨effects, outputs, -⟩
    by_contra pending
    exact outputs.exits destroyLoop_busy (.inl pending)
  · rintro rfl
    exact ⟨[], .stop rfl, .refl _⟩

/-- With one pending task the destructor releases it a second time, and so on. -/
theorem destructor_endless :
    (¬ ∃ effects : List (Effect Nat Unit), Outputs destroyLoop (destructor [1]) effects ∧
      ReleasesEach [1] effects) ∧
    ∀ n, ∃ f : FrameRunner Nat, Puts destroyLoop (destructor [1])
      (List.replicate (n + 1) (.release 1 : Effect Nat Unit)) f := by
  refine ⟨?_, fun n => ⟨_, destroyLoop_releases [] n⟩⟩
  rintro ⟨effects, outputs, -⟩
  exact outputs.exits destroyLoop_busy (.inl (List.cons_ne_nil 1 []))

end FrameRunner
end XLN
