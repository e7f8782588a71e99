import XLN.Foundation.Executor.IOThreadPoolExecutor

/-!
# The executor service of the server

`Server/ServerExecutorService.cpp`, as the calls that it makes on `m_AcceptorExectuor`, an
`IOThreadPoolExecutor` with no threads at first. `StartAccpet` sets the number of threads, `OnDestroy`
relies on that and waits for a function that it passes to `add`.
-/

namespace XLN
open Transition

namespace ServerExecutorService
open IOThreadPoolExecutor

/-- `StartAccpet`. -/
def startAccpet : List Call := [.setMaxThread 1, .add, .wait]

/-- `OnDestroy`. -/
def onDestroy : List Call := [.add, .wait, .stopAllThread]

/-- Some calls of `StartAccpet`, and then `OnDestroy`. -/
def calls : Nat → List Call
  | 0 => onDestroy
  | starts + 1 => startAccpet ++ calls starts

/-- `OnDestroy` is at its `barrier->wait()`. -/
def Waiting (s : IOThreadPoolExecutor) : Prop :=
  s.pc = .ready ∧ s.calls = [.wait, .stopAllThread]

/-- The function has been handed to some thread. -/
def Handed (func : Nat) (s : IOThreadPoolExecutor) : Prop :=
  ∃ h ∈ s.handed, h.func = func

/-- With `m` threads, no `add` of the list is made without threads. -/
def Fed : Nat → List Call → Prop
  | _, [] => True
  | m, call :: calls => (call = .add → m ≠ 0) ∧ Fed (call.threads m) calls

variable {s s' : IOThreadPoolExecutor} {a : Event} {l : List Event} {m : Nat} {all : List Call}

/-! ## Started services -/

/-- A service that is started makes its threads before anything is added. -/
lemma fed_calls (starts : Nat) : Fed 1 (calls starts) := by
  induction starts with
  | zero => exact ⟨fun _ => Nat.one_ne_zero, nofun, nofun, trivial⟩
  | succ starts ih => exact ⟨nofun, fun _ => Nat.one_ne_zero, nofun, ih⟩

/-- The first `StartAccpet` starts the thread. -/
lemma fed_started {starts : Nat} (pos : 0 < starts) : Fed 0 (calls starts) := by
  cases starts with
  | zero => cases pos
  | succ starts => exact ⟨nofun, fun _ => Nat.one_ne_zero, nofun, fed_calls starts⟩

/-- A move keeps threads for what is still to be added. -/
lemma fed_move (h : ∃ m, s.Counted m ∧ Fed m s.calls) (move : IOThreadPoolExecutor.Move s a s') :
    ∃ m, s'.Counted m ∧ Fed m s'.calls := by
  obtain ⟨m, counted, fed⟩ := h
  obtain ⟨same, counted⟩ | ⟨call, -, next, counted⟩ := counted_move counted move
  · exact ⟨m, counted, same ▸ fed⟩
  · rw [next] at fed
    exact ⟨_, counted, fed.2⟩

/-- Such calls find a thread each time. -/
lemma meets_of_fed (fed : Fed 0 all) : Meets (Exec step) HasThread (new all) l := by
  intro l1 a s1 _ run
  obtain ⟨m, counted, fed⟩ := run.invariant (I := fun s => ∃ m, s.Counted m ∧ Fed m s.calls)
    ⟨0, ⟨rfl, rfl⟩, fed⟩ fun h st => fed_move h (step_move st)
  cases a with
  | caller =>
    intro ready pending
    obtain ⟨rest, e⟩ := List.head?_eq_some_iff.mp pending
    rw [e] at fed
    rw [(counted.ready ready).1]
    exact fed.1 rfl
  | thread | loop | add => trivial

/-- An `add` of the calling thread says for which function its next `wait` is. -/
lemma barrier_move (move : IOThreadPoolExecutor.Move s a s') :
    s'.calls = s.calls ∧ s'.barrier = s.barrier ∧ s.adds ≤ s'.adds ∨
    ∃ call, s.calls = call :: s'.calls ∧
      (s'.barrier < s'.adds ∨ call ≠ .add ∧ s'.barrier = s.barrier ∧ s.adds ≤ s'.adds) := by
  cases move with
  | @setMaxThread numOfThread calls ready pending =>
    obtain ⟨pc, e⟩ := setMaxThread_frame numOfThread { s with calls := calls }
    rw [e]
    exact .inr ⟨_, pending, .inr ⟨nofun, rfl, Nat.le_refl _⟩⟩
  | @add calls ready pending =>
    obtain ⟨-, -, -, calls', -, adds⟩ := (add_added none { s with calls := calls }).frame
    refine .inr ⟨.add, pending.trans (congrArg _ calls'.symm), .inl ?_⟩
    show s.adds < ({ s with calls := calls }.add none).adds
    rw [adds]
    exact Nat.lt_succ_self _
  | waited ready pending => exact .inr ⟨_, pending, .inr ⟨nofun, rfl, Nat.le_refl _⟩⟩
  | stopAllThread ready pending => exact .inr ⟨_, pending, .inr ⟨nofun, rfl, Nat.le_refl _⟩⟩
  | @addThis w here =>
    have added := add_added (some w) s
    generalize s.add (some w) = s1 at added ⊢
    cases added with
    | handed => exact .inl ⟨rfl, rfl, Nat.le_succ _⟩
    | dropped none => cases none
  | threadsAdded | createThread | exitsDone | exit | joined | take | await | wait | join | thread
  | loop => exact .inl ⟨rfl, rfl, Nat.le_refl _⟩

/-- The calls made so far; after an `add` the barrier is for a function that has been passed to it. -/
def Barred (all : List Call) (s : IOThreadPoolExecutor) : Prop :=
  ∃ before, all = before ++ s.calls ∧ (.add ∈ before → s.barrier < s.adds)

/-- A move keeps the barrier with the functions that are handed over. -/
lemma barred_move (h : Barred all s) (move : IOThreadPoolExecutor.Move s a s') : Barred all s' := by
  obtain ⟨before, split, barrier⟩ := h
  obtain ⟨calls, same, more⟩ | ⟨call, next, fate⟩ := barrier_move move
  · refine ⟨before, calls ▸ split, fun made => ?_⟩
    have lt := barrier made
    omega
  · refine ⟨before ++ [call], by rw [split, next, List.append_assoc]; rfl, fun made => ?_⟩
    obtain new | ⟨other, same, more⟩ := fate
    · exact new
    · have lt := barrier (by simpa [Ne.symm other] using made)
      omega

/-- With a thread for every `add`, the function that `OnDestroy` waits for is with some thread. -/
lemma handed_of_started {starts : Nat} (pos : 0 < starts)
    (run : Run (Exec step) (new (calls starts)) l s) (waiting : Waiting s) : Handed s.barrier s := by
  obtain ⟨before, split, barrier⟩ := run.invariant (I := Barred (calls starts))
    ⟨[], rfl, nofun⟩ fun h st => barred_move h (step_move st)
  -- the last call before the `wait` is an `add`
  have suffix : [.add] <:+ before := by
    rw [waiting.2] at split
    have tail : onDestroy <:+ calls starts := by
      clear run split pos
      induction starts with
      | zero => exact List.suffix_refl _
      | succ starts ih => exact ih.trans (List.suffix_append startAccpet _)
    rw [split] at tail
    obtain ⟨front, e⟩ := tail
    have cut : front ++ [.add] ++ [.wait, .stopAllThread] = before ++ [.wait, .stopAllThread] := by
      rw [← e, List.append_assoc]
      rfl
    exact ⟨front, List.append_cancel_right cut⟩
  have lt := barrier (suffix.subset List.mem_cons_self)
  have along := (delivered_along_iff_hasThread run).mpr (meets_of_fed (fed_started pos))
  obtain ⟨x, only, -⟩ := along l s (List.prefix_refl l) run s.barrier lt
  have mem : x ∈ s.handed.filter (·.func = s.barrier) := by
    rw [only]
    exact List.mem_singleton_self x
  obtain ⟨mem, same⟩ := List.mem_filter.mp mem
  exact ⟨x, mem, of_decide_eq_true same⟩

/-! ## A service that was not started -/

/-- No thread has been made for `OnDestroy`. -/
structure Lost (s : IOThreadPoolExecutor) : Prop where
  threads : ∀ w, s.threads w = .ended
  empty : s.m_ThreadPool.m_Threads.size = 0
  handed : s.handed = []
  ran : s.ran = []
  pc : s.pc = .ready
  calls : s.calls = onDestroy ∨ s.calls = [.wait, .stopAllThread]

/-- The only step is the `add`, and that drops the function. -/
lemma lost_step (h : Lost s) (st : Exec step s a s') :
    s.calls = onDestroy ∧
      s' = { s with calls := [.wait, .stopAllThread], adds := s.adds + 1, barrier := s.adds } := by
  have here := h.pc
  have move := step_move st
  cases move with
  | setMaxThread _ pending | stopAllThread _ pending =>
    obtain e | e := h.calls
    · cases e.symm.trans pending
    · cases e.symm.trans pending
  | add _ pending =>
    obtain e | e := h.calls
    · exact ⟨e, Option.some.inj (st.symm.trans (caller_dropped h.pc e h.empty))⟩
    · cases e.symm.trans pending
  | waited _ pending ran =>
    rw [h.ran] at ran
    cases ran
  | threadsAdded pc | createThread pc | exitsDone pc | exit pc | joined pc | take pc | await pc
  | wait pc | join pc => cases here.symm.trans pc
  | thread running | loop running | addThis running => exact absurd (h.threads _) running

/-- Without a start no run makes a thread. -/
lemma lost_of_run (run : Run (Exec step) (new (calls 0)) l s) : Lost s := by
  apply run.invariant (I := Lost)
  · exact ⟨fun _ => rfl, rfl, rfl, rfl, rfl, .inl rfl⟩
  · intro s a s' h st
    obtain ⟨-, rfl⟩ := lost_step h st
    exact ⟨h.threads, h.empty, h.handed, h.ran, h.pc, .inr rfl⟩

/-- `OnDestroy` waits for ever. -/
lemma lost_waits (h : Lost s) (waiting : Waiting s) (a : Event) : step s a = none := by
  apply Option.eq_none_iff_forall_ne_some.mpr
  intro s' st
  obtain ⟨calls, -⟩ := lost_step h st
  cases calls.symm.trans waiting.2

/-- A function that is lost is handed to nobody. -/
lemma not_handed_of_lost (h : Lost s) : ¬ Handed s.barrier s := by
  rintro ⟨x, mem, -⟩
  rw [h.handed] at mem
  cases mem

/-- In a service that is started a number of times and then destroyed, the function that `OnDestroy`
    waits for has reached a thread if and only if that number is not zero. -/
lemma handed_iff_started {starts : Nat} (run : Run (Exec step) (new (calls starts)) l s)
    (waiting : Waiting s) : Handed s.barrier s ↔ 0 < starts := by
  constructor
  · intro handed
    cases starts with
    | zero => exact absurd handed (not_handed_of_lost (lost_of_run run))
    | succ starts => exact Nat.succ_pos starts
  · intro pos
    exact handed_of_started pos run waiting

/-- Along a run of an executor every function passed to `add` reaches exactly one thread if and only if
    each `add` from outside the pool is made while there are threads; and if the calls are those of a
    service, the function that `OnDestroy` waits for has reached one if and only if `StartAccpet` has
    been called. -/
theorem delivered_along_iff (all : List Call) {l : List Event}
    (run : Run (Exec step) (new all) l s) :
    (Along (Exec step) Delivered (new all) l ↔ Meets (Exec step) HasThread (new all) l) ∧
      ∀ starts, all = calls starts → Waiting s → (Handed s.barrier s ↔ 0 < starts) := by
  constructor
  · exact delivered_along_iff_hasThread run
  · rintro starts rfl waiting
    exact handed_iff_started run waiting

/-- The service is started and destroyed. -/
theorem delivered_along_iff_once :
    let events : List Event := List.replicate 4 .caller ++ [.loop 0] ++ List.replicate 2 .caller
    ∃ s, Run (Exec step) (new (calls 1)) events s ∧ Waiting s ∧ Handed s.barrier s ∧
      Along (Exec step) Delivered (new (calls 1)) events := by
  intro events
  have state : (exec step (new (calls 1)) events).map (fun s => (s.pc, s.calls)) =
      some (.ready, [.wait, .stopAllThread]) := by decide
  obtain ⟨s, run, fields⟩ := run_of_map state
  simp only [Prod.mk.injEq] at fields
  obtain ⟨delivered, started⟩ := delivered_along_iff (calls 1) run
  exact ⟨s, run, fields, (started 1 rfl fields).mpr Nat.one_pos,
    delivered.mpr (meets_of_check (by decide))⟩

/-- The service is destroyed without having been started. -/
theorem onDestroy_waits :
    ∃ s, Run (Exec step) (new (calls 0)) [.caller] s ∧ Waiting s ∧ ¬ Handed s.barrier s ∧
      ¬ Delivered s ∧ ∀ a, step s a = none := by
  have run : Run (Exec step) (new (calls 0)) [.caller]
      { new [.wait, .stopAllThread] with adds := 1 } := .single rfl
  have lost := lost_of_run run
  refine ⟨_, run, ⟨rfl, rfl⟩, not_handed_of_lost lost, fun delivered => ?_,
    lost_waits lost ⟨rfl, rfl⟩⟩
  obtain ⟨x, only, -⟩ := delivered 0 Nat.one_pos
  cases only

end ServerExecutorService
end XLN
