import XLN.Lib.Transition
import Mathlib.Logic.Function.Basic
import Mathlib.Data.Fintype.Basic

/-!
# Starting and stopping an executor

`Core/Foundation/ThreadedExecutor.cpp`: `Start` makes a thread that runs until `Stop` sets `m_ThreadExit` and
joins it; `TaskThread` and the executors below it are started and stopped by these. The flag is the only
atomic, so two calls at once may both find it set and assign to `m_RunningThread`, which ends the program if
there is a thread in it already. Callers are other threads than the one that is started.

If calls are made in turn, one thread runs at a time and calls its hooks in order (`hooks_of_run`), and the
program goes on if and only if the destructor finds the executor stopped (`goesOn_along_iff`).
-/

namespace XLN
open Transition

namespace ThreadedExecutor

/-- Where a thread is in `ThreadRun`. -/
inductive LoopPc where
  | preRun
  | test
  | run
  | exit
  | ended
  deriving DecidableEq

/-- Where a caller is in `Start` or `Stop`. -/
inductive CallPc where
  | idle
  | clear
  | create
  | assign (t : Nat)
  | set
  | joinable
  | join (t : Nat)
  deriving DecidableEq

/-- A call of a virtual method by a thread. -/
inductive Hook where
  | onThreadPreRun (t : Nat)
  | onThreadRun (t : Nat)
  | onThreadExit (t : Nat)
  deriving DecidableEq

inductive Event (κ : Type) where
  | start (caller : κ)
  | stop (caller : κ)
  | goOn (caller : κ)
  | thread (t : Nat)
  | destruct
  deriving DecidableEq

end ThreadedExecutor

open ThreadedExecutor in
/-- A `ThreadedExecutor` with its threads, its callers and what the threads have called. Threads that are not
    made yet count as ended. -/
structure ThreadedExecutor (κ : Type) where
  m_ThreadExit : Bool
  m_RunningThread : Option Nat
  nextThread : Nat
  threads : Nat → LoopPc
  calls : κ → CallPc
  hooks : List Hook
  destroyed : Bool
  terminated : Bool

namespace ThreadedExecutor

section Step

variable {κ : Type}

/-- The constructor. -/
def new : ThreadedExecutor κ where
  m_ThreadExit := true
  m_RunningThread := none
  nextThread := 0
  threads := fun _ => .ended
  calls := fun _ => .idle
  hooks := []
  destroyed := false
  terminated := false

/-- `ThreadRun` of a thread goes on. -/
def threadRun (s : ThreadedExecutor κ) (t : Nat) : Option (ThreadedExecutor κ) :=
  match s.threads t with
  | .preRun => some
    { s with threads := Function.update s.threads t .test, hooks := s.hooks ++ [.onThreadPreRun t] }
  | .test => some
    { s with threads := Function.update s.threads t (if s.m_ThreadExit then .exit else .run) }
  | .run => some
    { s with threads := Function.update s.threads t .test, hooks := s.hooks ++ [.onThreadRun t] }
  | .exit => some
    { s with threads := Function.update s.threads t .ended, hooks := s.hooks ++ [.onThreadExit t] }
  | .ended => none

variable [DecidableEq κ]

def call (s : ThreadedExecutor κ) (c : κ) (pc : CallPc) : ThreadedExecutor κ :=
  { s with calls := Function.update s.calls c pc }

/-- A call goes on. -/
def goOn (s : ThreadedExecutor κ) (c : κ) : Option (ThreadedExecutor κ) :=
  match s.calls c with
  | .idle => none
  | .clear => some { s.call c .create with m_ThreadExit := false }
  | .create => some
    { s.call c (.assign s.nextThread) with
      nextThread := s.nextThread + 1
      threads := Function.update s.threads s.nextThread .preRun }
  | .assign t =>
    -- the assignment to a `std::thread` that is joinable
    if s.m_RunningThread.isSome then some { s with terminated := true }
    else some { s.call c .idle with m_RunningThread := some t }
  | .set => some { s.call c .joinable with m_ThreadExit := true }
  | .joinable =>
    match s.m_RunningThread with
    | some t => some (s.call c (.join t))
    | none => some (s.call c .idle)
  | .join t =>
    if s.threads t = .ended then
      -- an exception if another call was faster
      if s.m_RunningThread = some t then some { s.call c .idle with m_RunningThread := none }
      else some { s with terminated := true }
    else none

/-- A step; there is none after the destructor or the end of the program. -/
def step (s : ThreadedExecutor κ) (e : Event κ) : Option (ThreadedExecutor κ) :=
  if s.destroyed ∨ s.terminated then none else
  match e with
  | .start c => if s.calls c = .idle then some (if s.m_ThreadExit then s.call c .clear else s) else none
  | .stop c => if s.calls c = .idle then some (if s.m_ThreadExit then s else s.call c .set) else none
  | .goOn c => s.goOn c
  | .thread t => s.threadRun t
  -- the destructor of `m_RunningThread`
  | .destruct => some { s with destroyed := true, terminated := s.m_RunningThread.isSome }

/-- `Start`, `Stop` and the destructor are called when no other call is under way. -/
def InTurn (s : ThreadedExecutor κ) : Event κ → Prop
  | .start _ | .stop _ | .destruct => ∀ c, s.calls c = .idle
  | _ => True

/-- The destructor finds the executor stopped. -/
def Stopped (s : ThreadedExecutor κ) (e : Event κ) : Prop :=
  e = .destruct → s.m_ThreadExit = true

end Step

/-- All that a thread calls if its loop has `n` rounds. -/
def block (t n : Nat) : List Hook :=
  .onThreadPreRun t :: List.replicate n (.onThreadRun t) ++ [.onThreadExit t]

/-- What a thread has called after `n` rounds. -/
def called (t n : Nat) : LoopPc → List Hook
  | .preRun => []
  | .test | .run | .exit => .onThreadPreRun t :: List.replicate n (.onThreadRun t)
  | .ended => block t n

/-! ## Threads -/

section Threads
variable {κ : Type} {s s' : ThreadedExecutor κ} {pc : CallPc} {t n : Nat}

/-- The steps of `ThreadRun`, with what they call. -/
inductive Next (t : Nat) : Bool → LoopPc → LoopPc → List Hook → Prop where
  | preRun {exit} : Next t exit .preRun .test [.onThreadPreRun t]
  | again : Next t false .test .run []
  | stop : Next t true .test .exit []
  | run {exit} : Next t exit .run .test [.onThreadRun t]
  | exit {exit} : Next t exit .exit .ended [.onThreadExit t]

/-- A step of a thread reads `m_ThreadExit` and changes nothing but its own place and the hooks. -/
lemma threadRun_cases (st : s.threadRun t = some s') :
    ∃ pc out, Next t s.m_ThreadExit (s.threads t) pc out ∧
      s' = { s with threads := Function.update s.threads t pc, hooks := s.hooks ++ out } := by
  rw [threadRun] at st
  split at st
  next e =>
    cases st
    exact ⟨_, _, e ▸ .preRun, rfl⟩
  next e =>
    cases st
    cases flag : s.m_ThreadExit with
    | true => exact ⟨.exit, [], e ▸ .stop, by simp⟩
    | false => exact ⟨.run, [], e ▸ .again, by simp⟩
  next e =>
    cases st
    exact ⟨_, _, e ▸ .run, rfl⟩
  next e =>
    cases st
    exact ⟨_, _, e ▸ .exit, rfl⟩
  next => cases st

/-- The thread is not past its loop. -/
def LoopPc.InLoop : LoopPc → Prop
  | .preRun | .test | .run => True
  | .exit | .ended => False

/-- A thread that is not told to exit stays in its loop. -/
lemma Next.inLoop {pc pc' : LoopPc} {out : List Hook} (next : Next t false pc pc' out)
    (loop : pc.InLoop) : pc'.InLoop := by
  cases next with
  | exit => cases loop
  | _ => trivial

/-- A step adds the hooks of the thread's place to those that it has called. -/
lemma Next.called {exit : Bool} {pc pc' : LoopPc} {out : List Hook} (next : Next t exit pc pc' out)
    (n : Nat) :
    ∃ n', called t n' pc' = called t n pc ++ out := by
  cases next with
  | preRun => exact ⟨0, rfl⟩
  | again | stop => exact ⟨n, (List.append_nil _).symm⟩
  | run =>
    refine ⟨n + 1, ?_⟩
    rw [ThreadedExecutor.called, List.replicate_succ']
    rfl
  | exit => exact ⟨n, rfl⟩

/-- What a thread has called is the beginning of its block. -/
lemma called_isPrefix_block (t n : Nat) (pc : LoopPc) : called t n pc <+: block t n := by
  cases pc with
  | preRun => exact List.nil_prefix
  | ended => exact List.prefix_refl _
  | _ => exact List.prefix_append _ _

/-- All threads but `t`, which was made last, have ended. -/
structure Last (s : ThreadedExecutor κ) (t : Nat) : Prop where
  next : s.nextThread = t + 1
  ended : ∀ u, u ≠ t → s.threads u = .ended

/-- What was called is what the threads have called, one after the other. -/
def Ordered (s : ThreadedExecutor κ) : Prop :=
  ∃ rounds : Nat → Nat,
    s.hooks = (List.range s.nextThread).flatMap fun t => called t (rounds t) (s.threads t)

/-- The threads before the last one have called whole blocks. -/
lemma Last.hooks (last : s.Last t) (rounds : Nat → Nat) :
    ((List.range s.nextThread).flatMap fun u => called u (rounds u) (s.threads u)) =
      (List.range t).flatMap (fun u => block u (rounds u)) ++ called t (rounds t) (s.threads t) := by
  have before : ∀ u ∈ List.range t, called u (rounds u) (s.threads u) = block u (rounds u) := by
    intro u mem
    rw [last.ended u (List.mem_range.mp mem).ne]
    rfl
  rw [last.next, List.range_succ, List.flatMap_append, List.flatMap_singleton]
  congr 1
  exact List.flatMap_congr before

/-- There is no thread. -/
structure Resting (exit : Bool) (s : ThreadedExecutor κ) : Prop where
  exit : s.m_ThreadExit = exit
  running : s.m_RunningThread = none
  ended : ∀ t, s.threads t = .ended

/-- A thread is in its loop and is not told to leave it. -/
structure Working (running : Option Nat) (t : Nat) (s : ThreadedExecutor κ) : Prop where
  exit : s.m_ThreadExit = false
  running : s.m_RunningThread = running
  last : s.Last t
  loop : (s.threads t).InLoop

/-- The thread is told to leave its loop. -/
structure Stopping (t : Nat) (s : ThreadedExecutor κ) : Prop where
  exit : s.m_ThreadExit = true
  running : s.m_RunningThread = some t
  last : s.Last t

/-- A thread that has ended takes no step. -/
lemma Resting.threadRun {exit : Bool} {t : Nat} (resting : s.Resting exit) : s.threadRun t = none := by
  rw [ThreadedExecutor.threadRun, resting.ended]

/-- Only the last thread has steps. -/
lemma Last.thread {t u : Nat} (last : s.Last t) (st : s.threadRun u = some s') : u = t := by
  by_contra ne
  rw [ThreadedExecutor.threadRun, last.ended u ne] at st
  cases st

/-- Only the last thread takes a step. -/
lemma Last.threadRun {t : Nat} (last : s.Last t) (st : s.threadRun t = some s') : s'.Last t := by
  obtain ⟨pc, out, -, rfl⟩ := threadRun_cases st
  refine ⟨last.next, ?_⟩
  intro u ne
  exact (Function.update_of_ne ne ..).trans (last.ended u ne)

/-- A step of the last thread keeps the order of the hooks. -/
lemma Last.ordered {t : Nat} (last : s.Last t) (ordered : s.Ordered) (st : s.threadRun t = some s') :
    s'.Ordered := by
  have last' := last.threadRun st
  obtain ⟨rounds, e⟩ := ordered
  rw [last.hooks] at e
  obtain ⟨pc, out, next, rfl⟩ := threadRun_cases st
  obtain ⟨n, more⟩ := next.called (rounds t)
  refine ⟨Function.update rounds t n, ?_⟩
  rw [last'.hooks]
  have before : ∀ u ∈ List.range t, block u (Function.update rounds t n u) = block u (rounds u) := by
    intro u mem
    rw [Function.update_of_ne (List.mem_range.mp mem).ne]
  simp only [Function.update_self]
  rw [List.flatMap_congr before, more, e, List.append_assoc]

/-- A step of the thread does not stop it while it is to go on. -/
lemma Working.threadRun {running : Option Nat} {t u : Nat} (working : s.Working running t)
    (st : s.threadRun u = some s') : s'.Working running t := by
  obtain rfl := working.last.thread st
  have last := working.last.threadRun st
  obtain ⟨pc, out, next, rfl⟩ := threadRun_cases st
  rw [working.exit] at next
  refine ⟨working.exit, working.running, last, ?_⟩
  change (Function.update s.threads u pc u).InLoop
  rw [Function.update_self]
  exact next.inLoop working.loop

/-- A step of the thread does not keep a `Stop` from its end. -/
lemma Stopping.threadRun {t u : Nat} (stopping : s.Stopping t) (st : s.threadRun u = some s') :
    s'.Stopping t := by
  obtain rfl := stopping.last.thread st
  have last := stopping.last.threadRun st
  obtain ⟨pc, out, next, rfl⟩ := threadRun_cases st
  exact ⟨stopping.exit, stopping.running, last⟩

/-- What holds where a call is, if the calls are made in turn. -/
def Stage (s : ThreadedExecutor κ) : CallPc → Prop
  | .idle => s.Resting true ∨ ∃ t, s.Working (some t) t
  | .clear => s.Resting true
  | .create => s.Resting false
  | .assign t => s.Working none t
  | .set => ∃ t, s.Working (some t) t
  | .joinable => ∃ t, s.Stopping t
  | .join t => s.Stopping t

/-- A step of the thread keeps the stage of the calls. -/
lemma Stage.threadRun {t : Nat} (stage : s.Stage pc) (st : s.threadRun t = some s') : s'.Stage pc := by
  cases pc with
  | idle =>
    obtain resting | ⟨u, working⟩ := stage
    · cases resting.threadRun.symm.trans st
    · exact .inr ⟨u, working.threadRun st⟩
  | clear => cases (Resting.threadRun stage).symm.trans st
  | create => cases (Resting.threadRun stage).symm.trans st
  | assign u => exact Working.threadRun stage st
  | set =>
    obtain ⟨u, working⟩ := stage
    exact ⟨u, working.threadRun st⟩
  | joinable =>
    obtain ⟨u, stopping⟩ := stage
    exact ⟨u, stopping.threadRun st⟩
  | join u => exact Stopping.threadRun stage st

/-- All threads have ended, or the last one runs. -/
lemma Stage.resting_or_last (stage : s.Stage pc) : (∃ exit, s.Resting exit) ∨ ∃ t, s.Last t := by
  cases pc with
  | idle =>
    obtain resting | ⟨t, working⟩ := stage
    · exact .inl ⟨true, resting⟩
    · exact .inr ⟨t, working.last⟩
  | clear => exact .inl ⟨true, stage⟩
  | create => exact .inl ⟨false, stage⟩
  | assign t => exact .inr ⟨t, Working.last stage⟩
  | set =>
    obtain ⟨t, working⟩ := stage
    exact .inr ⟨t, working.last⟩
  | joinable =>
    obtain ⟨t, stopping⟩ := stage
    exact .inr ⟨t, stopping.last⟩
  | join t => exact .inr ⟨t, Stopping.last stage⟩

end Threads

/-! ## Calls in turn -/

section Calls
variable {κ : Type} [DecidableEq κ] {s s' : ThreadedExecutor κ} {c : κ} {pc pc' : CallPc} {e : Event κ}

/-- At most one call is under way; `pc` is where it is. -/
def Only (calls : κ → CallPc) (pc : CallPc) : Prop :=
  (∀ c, calls c = .idle) ∧ pc = .idle ∨ ∃ c, calls = Function.update (fun _ => .idle) c pc

/-- Without a call there is no place of one. -/
lemma Only.idle {calls : κ → CallPc} (only : Only calls pc) (idle : ∀ c, calls c = .idle) : pc = .idle := by
  obtain ⟨-, e⟩ | ⟨c, rfl⟩ := only
  · exact e
  · have at_c := idle c
    rwa [Function.update_self] at at_c

/-- The first call is the only one. -/
lemma Only.enter {calls : κ → CallPc} (idle : ∀ c, calls c = .idle) :
    Only (Function.update calls c pc') pc' := by
  have e : calls = fun _ => .idle := funext idle
  exact .inr ⟨c, by rw [e]⟩

/-- The place of the call that is in progress. -/
lemma Only.at_call {calls : κ → CallPc} (only : Only calls pc) (busy : calls c ≠ .idle) : calls c = pc := by
  obtain ⟨idle, -⟩ | ⟨d, rfl⟩ := only
  · exact absurd (idle c) busy
  · rcases eq_or_ne c d with rfl | ne
    · exact Function.update_self ..
    · exact absurd (Function.update_of_ne ne ..) busy

/-- The call that goes on is still the only one. -/
lemma Only.next {calls : κ → CallPc} (only : Only calls pc) (busy : calls c ≠ .idle) :
    Only (Function.update calls c pc') pc' := by
  obtain ⟨idle, -⟩ | ⟨d, rfl⟩ := only
  · exact absurd (idle c) busy
  · rcases eq_or_ne c d with rfl | ne
    · exact .inr ⟨c, Function.update_idem ..⟩
    · exact absurd (Function.update_of_ne ne ..) busy

/-- What the steps of a call do where the calls are made in turn. -/
inductive Goes (s : ThreadedExecutor κ) (c : κ) : CallPc → CallPc → ThreadedExecutor κ → Prop where
  | clear : Goes s c .clear .create { s.call c .create with m_ThreadExit := false }
  | create : Goes s c .create (.assign s.nextThread)
      { s.call c (.assign s.nextThread) with
        nextThread := s.nextThread + 1
        threads := Function.update s.threads s.nextThread .preRun }
  | assign {t} : Goes s c (.assign t) .idle { s.call c .idle with m_RunningThread := some t }
  | set : Goes s c .set .joinable { s.call c .joinable with m_ThreadExit := true }
  | joinable {t} : s.m_RunningThread = some t → Goes s c .joinable (.join t) (s.call c (.join t))
  | join {t} : s.threads t = .ended →
    Goes s c (.join t) .idle { s.call c .idle with m_RunningThread := none }

/-- A step of a call in progress is one of these. -/
lemma Stage.goOn (stage : s.Stage (s.calls c)) (st : s.goOn c = some s') :
    ∃ pc', Goes s c (s.calls c) pc' s' := by
  rw [ThreadedExecutor.goOn] at st
  generalize s.calls c = pc at stage st
  cases pc with
  | idle => cases st
  | clear =>
    cases st
    exact ⟨_, .clear⟩
  | create =>
    cases st
    exact ⟨_, .create⟩
  | assign t =>
    have working : s.Working none t := stage
    rw [working.running] at st
    cases st
    exact ⟨_, .assign⟩
  | set =>
    cases st
    exact ⟨_, .set⟩
  | joinable =>
    obtain ⟨t, stopping⟩ := stage
    simp only [stopping.running] at st
    cases st
    exact ⟨_, .joinable stopping.running⟩
  | join t =>
    have stopping : s.Stopping t := stage
    simp only [stopping.running, if_true] at st
    split at st
    next ended =>
      cases st
      exact ⟨_, .join ended⟩
    next => cases st

/-- A step of a call changes the place of this call only. -/
lemma Goes.calls (goes : Goes s c pc pc' s') : s'.calls = Function.update s.calls c pc' := by
  cases goes <;> rfl

/-- A call in progress that is in turn ends no program. -/
lemma Goes.terminated (goes : Goes s c pc pc' s') : s'.terminated = s.terminated := by
  cases goes <;> rfl

/-- A step of a call leads to the next stage. -/
lemma Goes.stage (goes : Goes s c pc pc' s') (stage : s.Stage pc) : s'.Stage pc' := by
  cases goes with
  | clear =>
    have resting : s.Resting true := stage
    exact ⟨rfl, resting.running, resting.ended⟩
  | create =>
    have resting : s.Resting false := stage
    refine ⟨resting.exit, resting.running, ⟨rfl, ?_⟩, ?_⟩
    · intro u ne
      exact (Function.update_of_ne ne ..).trans (resting.ended u)
    · change (Function.update s.threads s.nextThread .preRun s.nextThread).InLoop
      rw [Function.update_self]
      trivial
  | @assign t =>
    have working : s.Working none t := stage
    exact .inr ⟨t, working.exit, rfl, ⟨working.last.next, working.last.ended⟩, working.loop⟩
  | set =>
    obtain ⟨t, working⟩ := stage
    exact ⟨t, rfl, working.running, working.last.next, working.last.ended⟩
  | joinable some =>
    obtain ⟨t, stopping⟩ := stage
    cases stopping.running.symm.trans some
    exact ⟨stopping.exit, stopping.running, stopping.last.next, stopping.last.ended⟩
  | @join t ended =>
    have stopping : s.Stopping t := stage
    refine .inl ⟨stopping.exit, rfl, ?_⟩
    intro u
    rcases eq_or_ne u t with rfl | ne
    · exact ended
    · exact stopping.last.ended u ne

/-- A step of a call keeps the order of the hooks. -/
lemma Goes.ordered (goes : Goes s c pc pc' s') (ordered : s.Ordered) : s'.Ordered := by
  obtain ⟨rounds, e⟩ := ordered
  cases goes with
  | create =>
    refine ⟨rounds, ?_⟩
    -- the new thread has called nothing
    have before : ∀ u ∈ List.range s.nextThread,
        called u (rounds u) (Function.update s.threads s.nextThread .preRun u) =
          called u (rounds u) (s.threads u) := by
      intro u mem
      rw [Function.update_of_ne (List.mem_range.mp mem).ne]
    have fresh : called s.nextThread (rounds s.nextThread)
        (Function.update s.threads s.nextThread .preRun s.nextThread) = [] := by
      rw [Function.update_self]
      rfl
    change s.hooks = (List.range (s.nextThread + 1)).flatMap fun u =>
      called u (rounds u) (Function.update s.threads s.nextThread .preRun u)
    rw [List.range_succ, List.flatMap_append, List.flatMap_singleton, fresh, List.append_nil,
      List.flatMap_congr before, e]
  | _ => exact ⟨rounds, e⟩

/-- The calls are made in turn, and the threads have been made and have run one after the other. -/
structure InOrder (s : ThreadedExecutor κ) (pc : CallPc) : Prop where
  only : Only s.calls pc
  stage : s.Stage pc
  ordered : s.Ordered

/-- A new executor has neither thread nor hooks. -/
lemma InOrder.new : InOrder (new : ThreadedExecutor κ) .idle where
  only := .inl ⟨fun _ => rfl, rfl⟩
  stage := .inl ⟨rfl, rfl, fun _ => rfl⟩
  ordered := ⟨fun _ => 0, rfl⟩

/-- A step of a thread keeps the order of the hooks. -/
lemma InOrder.thread {t : Nat} (order : s.InOrder pc) (st : s.threadRun t = some s') : s'.InOrder pc := by
  have ordered : s'.Ordered := by
    obtain ⟨exit, resting⟩ | ⟨u, last⟩ := order.stage.resting_or_last
    · cases resting.threadRun.symm.trans st
    · obtain rfl := last.thread st
      exact last.ordered order.ordered st
  have stage := order.stage.threadRun st
  have calls : s'.calls = s.calls := by
    obtain ⟨pc', out, -, rfl⟩ := threadRun_cases st
    rfl
  exact ⟨calls ▸ order.only, stage, ordered⟩

/-- A step of a call keeps the order of the hooks and ends no program. -/
lemma InOrder.goOn (order : s.InOrder pc) (st : s.goOn c = some s') :
    (∃ pc', s'.InOrder pc') ∧ s'.terminated = s.terminated := by
  have busy : s.calls c ≠ .idle := by
    intro idle
    rw [ThreadedExecutor.goOn, idle] at st
    cases st
  cases order.only.at_call busy
  obtain ⟨pc', goes⟩ := order.stage.goOn st
  have only : Only s'.calls pc' := goes.calls ▸ order.only.next busy
  exact ⟨⟨pc', only, goes.stage order.stage, goes.ordered order.ordered⟩, goes.terminated⟩

/-- A `Start` with nothing running keeps the order of the hooks. -/
lemma InOrder.start (order : s.InOrder pc) (idle : ∀ c, s.calls c = .idle)
    (exit : s.m_ThreadExit = true) : (s.call c .clear).InOrder .clear := by
  cases order.only.idle idle
  obtain resting | ⟨t, working⟩ := order.stage
  · exact ⟨.enter idle, ⟨resting.exit, resting.running, resting.ended⟩, order.ordered⟩
  · cases working.exit.symm.trans exit

/-- A `Stop` of a running thread keeps the order of the hooks. -/
lemma InOrder.stop (order : s.InOrder pc) (idle : ∀ c, s.calls c = .idle)
    (exit : s.m_ThreadExit ≠ true) : (s.call c .set).InOrder .set := by
  cases order.only.idle idle
  obtain resting | ⟨t, working⟩ := order.stage
  · exact absurd resting.exit exit
  · have last : (s.call c .set).Last t := ⟨working.last.next, working.last.ended⟩
    exact ⟨.enter idle, ⟨t, working.exit, working.running, last, working.loop⟩, order.ordered⟩

/-- Between calls there is a thread if and only if the flag is not set. -/
lemma InOrder.running (order : s.InOrder pc) (idle : ∀ c, s.calls c = .idle) :
    s.m_RunningThread.isSome = true ↔ ¬ s.m_ThreadExit = true := by
  cases order.only.idle idle
  obtain resting | ⟨t, working⟩ := order.stage
  · simp [resting.exit, resting.running]
  · simp [working.exit, working.running]

/-- The destructor keeps the order of the hooks. -/
lemma InOrder.destruct {terminated : Bool} (order : s.InOrder pc) (idle : ∀ c, s.calls c = .idle) :
    { s with destroyed := true, terminated }.InOrder .idle := by
  cases order.only.idle idle
  refine ⟨order.only, ?_, order.ordered⟩
  obtain resting | ⟨t, working⟩ := order.stage
  · exact .inl ⟨resting.exit, resting.running, resting.ended⟩
  · exact .inr ⟨t, working.exit, working.running, ⟨working.last.next, working.last.ended⟩, working.loop⟩

/-- A step in turn keeps the order of the hooks, and ends the program only if it destroys a running thread. -/
lemma InOrder.step (order : s.InOrder pc) (turn : s.InTurn e) (st : Exec step s e s') :
    (∃ pc', s'.InOrder pc') ∧ (s'.terminated = true ↔ e = .destruct ∧ ¬ s.m_ThreadExit = true) := by
  rw [Exec, ThreadedExecutor.step.eq_def] at st
  split at st
  next => cases st
  next on =>
    have alive : s.terminated = false := by simpa using (not_or.mp on).2
    cases e with
    | start c =>
      simp only [turn c, if_true] at st
      split at st
      next exit =>
        cases st
        exact ⟨⟨_, order.start turn exit⟩, by simp [ThreadedExecutor.call, alive]⟩
      next =>
        cases st
        exact ⟨⟨pc, order⟩, by simp [alive]⟩
    | stop c =>
      simp only [turn c, if_true] at st
      split at st
      next =>
        cases st
        exact ⟨⟨pc, order⟩, by simp [alive]⟩
      next exit =>
        cases st
        exact ⟨⟨_, order.stop turn exit⟩, by simp [ThreadedExecutor.call, alive]⟩
    | goOn c =>
      obtain ⟨order', same⟩ := order.goOn st
      exact ⟨order', by simp [same, alive]⟩
    | thread t =>
      have order' := order.thread st
      obtain ⟨pc', out, -, rfl⟩ := threadRun_cases st
      exact ⟨⟨pc, order'⟩, by simp [alive]⟩
    | destruct =>
      cases st
      have running := order.running turn
      exact ⟨⟨_, order.destruct turn⟩, by simpa using running⟩

variable {l : List (Event κ)}

/-- The hooks of every run in turn are in order. -/
lemma inOrder_of_run (run : Run (Within (Exec step) InTurn) new l s) : ∃ pc, s.InOrder pc := by
  refine run.invariant (I := fun s : ThreadedExecutor κ => ∃ pc, s.InOrder pc) ⟨_, .new⟩ ?_
  rintro s e s' ⟨pc, order⟩ ⟨turn, st⟩
  exact (order.step turn st).1

/-- If calls are made in turn, the hooks are called by one thread after the other, each of which starts with
    `OnThreadPreRun` and ends with `OnThreadExit`. While the executor is stopped no thread is left. -/
theorem hooks_of_run (turns : Meets (Exec step) InTurn new l) (run : Run (Exec step) new l s) :
    ∃ rounds : Nat → Nat,
      s.hooks <+: (List.range s.nextThread).flatMap (fun t => block t (rounds t)) ∧
      ((∀ c, s.calls c = .idle) → s.m_ThreadExit = true →
        s.hooks = (List.range s.nextThread).flatMap (fun t => block t (rounds t)) ∧
        ∀ t, s.threads t = .ended) := by
  obtain ⟨pc, order⟩ := inOrder_of_run ((turns.run_within (List.prefix_refl l)).mpr run)
  obtain ⟨rounds, hooks⟩ := order.ordered
  have complete : (∀ t, s.threads t = .ended) →
      s.hooks = (List.range s.nextThread).flatMap fun t => block t (rounds t) := by
    intro ended
    rw [hooks]
    simp only [ended]
    rfl
  refine ⟨rounds, ?_, ?_⟩
  · obtain ⟨exit, resting⟩ | ⟨t, last⟩ := order.stage.resting_or_last
    · rw [complete resting.ended]
    · rw [hooks, last.hooks, last.next, List.range_succ, List.flatMap_append, List.flatMap_singleton]
      exact (List.prefix_append_right_inj _).mpr (called_isPrefix_block ..)
  · intro idle exit
    cases order.only.idle idle
    obtain resting | ⟨t, working⟩ := order.stage
    · exact ⟨complete resting.ended, resting.ended⟩
    · cases working.exit.symm.trans exit

instance [Fintype κ] (s : ThreadedExecutor κ) (e : Event κ) : Decidable (s.InTurn e) :=
  match e with
  | .start _ | .stop _ | .destruct => inferInstanceAs (Decidable (∀ c, s.calls c = .idle))
  | .goOn _ | .thread _ => isTrue trivial

/-- The executor is started and stopped twice. -/
def twice : List (Event Unit) :=
  [.start (), .goOn (), .goOn (), .thread 0, .thread 0, .goOn (), .thread 0, .stop (), .goOn (), .thread 0,
    .goOn (), .thread 0, .goOn (), .start (), .goOn (), .goOn (), .goOn (), .stop (), .goOn (), .goOn (),
    .thread 1, .thread 1, .thread 1, .goOn ()]

/-- An executor that is started and stopped twice. -/
theorem hooks_of_run_twice :
    ∃ s : ThreadedExecutor Unit,
      s.hooks = [.onThreadPreRun 0, .onThreadRun 0, .onThreadExit 0, .onThreadPreRun 1, .onThreadExit 1] ∧
      ∃ rounds : Nat → Nat,
        s.hooks <+: (List.range s.nextThread).flatMap (fun t => block t (rounds t)) ∧
        ((∀ c, s.calls c = .idle) → s.m_ThreadExit = true →
          s.hooks = (List.range s.nextThread).flatMap (fun t => block t (rounds t)) ∧
          ∀ t, s.threads t = .ended) := by
  obtain ⟨s, run, hooks⟩ := run_of_map (f := step) (s := (new : ThreadedExecutor Unit)) (l := twice)
    (g := fun s => s.hooks) (v := [.onThreadPreRun 0, .onThreadRun 0, .onThreadExit 0, .onThreadPreRun 1,
      .onThreadExit 1]) (by decide)
  exact ⟨s, hooks, hooks_of_run (meets_of_check (by decide)) run⟩

/-- If calls are made in turn, only a destructor that finds the executor started ends the program. -/
theorem goesOn_along_iff (turns : Meets (Exec step) InTurn new l) (run : Run (Exec step) new l s) :
    Along (Exec step) (fun s => s.terminated = false) new l ↔ Meets (Exec step) Stopped new l := by
  rw [← turns.along_within, ← turns.meets_within]
  have run' := (turns.run_within (List.prefix_refl l)).mpr run
  refine along_iff_meets (J := fun s : ThreadedExecutor κ => ∃ pc, s.InOrder pc)
    (Exec.deterministic step).within run' rfl ⟨_, .new⟩ ?_ ?_ ?_
  · rintro s e s' ⟨pc, order⟩ ⟨turn, st⟩
    exact (order.step turn st).1
  · rintro s e s' ⟨pc, order⟩ - stopped ⟨turn, st⟩
    by_contra terminated
    obtain ⟨rfl, exit⟩ := (order.step turn st).2.mp (by simpa using terminated)
    exact exit (stopped rfl)
  · rintro s e s' ⟨pc, order⟩ - started ⟨turn, st⟩
    obtain ⟨rfl, exit⟩ := Classical.not_imp.mp started
    rw [(order.step turn st).2.mpr ⟨rfl, exit⟩]
    decide

/-- The statement above at an executor that is destroyed after it was stopped twice. -/
theorem goesOn_along_iff_twice :
    Along (Exec step) (fun s => s.terminated = false) (new : ThreadedExecutor Unit) (twice ++ [.destruct]) ↔
      Meets (Exec step) Stopped new (twice ++ [.destruct]) := by
  obtain ⟨s, run, -⟩ := run_of_map (f := step) (s := (new : ThreadedExecutor Unit))
    (l := twice ++ [.destruct]) (g := fun s => s.terminated) (v := false) (by decide)
  exact goesOn_along_iff (meets_of_check (by decide)) run

end Calls

end ThreadedExecutor
end XLN
