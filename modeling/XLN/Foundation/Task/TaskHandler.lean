import XLN.Lib.Transition
import XLN.Lib.Cells

/-!
# Observers of a task handler

`Core/Foundation/Task/TaskHandler.cpp`, in one thread. `SignalObserver` and `OnFinish` go over `m_Observers`
with an iterator and call `OnEvent` of each observer. In `OnEvent` an observer may do with the handler what it
likes: register and unregister observers, itself too, and signal again. So `signals` is the stack of the loops
in progress, and a step in between is a step of the `OnEvent` of the innermost one.

`UnRegisterObserver` erases a cell of a `std::list`. A loop that stands at that cell reads a link of a freed
node when `OnEvent` returns, so `step` has no next state there. `delivered_of_run` says what a loop that
comes to its end has done.
-/

namespace XLN
open Transition Iteration

/-- A call of `OnEvent`: the number of the loop that makes it, its place in the list, and what it passes. -/
structure OnEvent (ω : Type) where
  signal : Nat
  registration : Nat × ω
  eventID : UInt32
  param : Option Nat

/-- A loop of `SignalObserver` or `OnFinish`. -/
structure Signal (ω : Type) where
  number : Nat
  eventID : UInt32
  param : Option Nat
  loop : Loop ω

def Signal.onEvent {ω : Type} (sig : Signal ω) (c : Nat × ω) : OnEvent ω :=
  { signal := sig.number, registration := c, eventID := sig.eventID, param := sig.param }

/-- The observers of a handler, the loops in progress, innermost first, the number of the next loop, and the
    calls of `OnEvent` so far. -/
structure TaskHandler (ω : Type) where
  m_Observers : Cells ω
  signals : List (Signal ω)
  nextSignal : Nat
  called : List (OnEvent ω)

namespace TaskHandler
variable {ω : Type}

def initial : TaskHandler ω :=
  { m_Observers := .empty, signals := [], nextSignal := 0, called := [] }

/-- `RegisterObserver`. -/
def registerObserver (ob : ω) (s : TaskHandler ω) : TaskHandler ω :=
  { s with m_Observers := s.m_Observers.pushBack ob }

/-- Where the loop of `UnRegisterObserver` breaks. -/
def findObserver [DecidableEq ω] (ob : ω) (s : TaskHandler ω) : Option (Nat × ω) :=
  s.m_Observers.cells.find? fun c => c.2 = ob

/-- `UnRegisterObserver`. -/
def unRegisterObserver [DecidableEq ω] (ob : ω) (s : TaskHandler ω) : TaskHandler ω :=
  match s.findObserver ob with
  | some c => { s with m_Observers := s.m_Observers.erase c.1 }
  | none => s

/-- The loop `while(iter != m_Observers.end())` comes to a cell, if there is one. -/
def enter (eventID : UInt32) (param : Option Nat) (s : TaskHandler ω) (number : Nat) :
    Option (Loop ω) → TaskHandler ω
  | none => s
  | some loop =>
    let sig := { number, eventID, param, loop : Signal ω }
    { s with
      signals := sig :: s.signals
      called := s.called ++ (loop.visited.getLast?.map sig.onEvent).toList }

/-- `SignalObserver`. -/
def signalObserver (eventID : UInt32) (param : Option Nat) (s : TaskHandler ω) : TaskHandler ω :=
  enter eventID param { s with nextSignal := s.nextSignal + 1 } s.nextSignal (Loop.start s.m_Observers)

/-- `OnFinish` of a task: the event is `-1`. -/
def onFinish (task : Nat) (s : TaskHandler ω) : TaskHandler ω :=
  signalObserver (-1) (some task) s

/-- `OnEvent` returns to the innermost loop, which does `++iter`. Gives `none` if there is no loop, and if
    the iterator is at a cell that has been erased. -/
def onEventReturns (s : TaskHandler ω) : Option (TaskHandler ω) :=
  match s.signals with
  | [] => none
  | sig :: rest =>
    if s.m_Observers.Has sig.loop.here then
      some (enter sig.eventID sig.param { s with signals := rest } sig.number
        (sig.loop.advance s.m_Observers))
    else none

inductive Event (ω : Type) where
  | registerObserver (ob : ω)
  | unRegisterObserver (ob : ω)
  | signalObserver (eventID : UInt32) (param : Option Nat)
  | onFinish (task : Nat)
  | onEventReturns

def step [DecidableEq ω] (s : TaskHandler ω) : Event ω → Option (TaskHandler ω)
  | .registerObserver ob => some (s.registerObserver ob)
  | .unRegisterObserver ob => some (s.unRegisterObserver ob)
  | .signalObserver eventID param => some (s.signalObserver eventID param)
  | .onFinish task => some (s.onFinish task)
  | .onEventReturns => s.onEventReturns

variable {s s' : TaskHandler ω} {l : List (Event ω)} {a : Event ω} {eventID : UInt32}
  {param : Option Nat} {number : Nat} {ob : ω} {loop : Loop ω}

/-- An observer that is found is taken out. -/
lemma unRegisterObserver_of_some [DecidableEq ω] {c : Nat × ω} (e : s.findObserver ob = some c) :
    s.unRegisterObserver ob = { s with m_Observers := s.m_Observers.erase c.1 } := by
  rw [unRegisterObserver, e]

/-- An observer that is not found is not taken out. -/
lemma unRegisterObserver_of_none [DecidableEq ω] (e : s.findObserver ob = none) :
    s.unRegisterObserver ob = s := by
  rw [unRegisterObserver, e]

/-- What the return of an `OnEvent` says about the state. -/
lemma onEventReturns_cases (h : s.onEventReturns = some s') :
    ∃ sig rest, s.signals = sig :: rest ∧ s.m_Observers.Has sig.loop.here ∧
      s' = enter sig.eventID sig.param { s with signals := rest } sig.number
        (sig.loop.advance s.m_Observers) := by
  unfold onEventReturns at h
  split at h
  · cases h
  · rename_i sig rest signals
    split at h
    · exact ⟨sig, rest, signals, ‹_›, (Option.some.inj h).symm⟩
    · cases h

/-- The calls of a loop are the cells that it has visited, and nobody else uses its number. -/
structure Kept (s : TaskHandler ω) : Prop where
  passed : ∀ sig ∈ s.signals, Loop.Passed s.m_Observers sig.loop
  calls : ∀ sig ∈ s.signals,
    (s.called.filter fun call => call.signal = sig.number) = sig.loop.visited.map sig.onEvent
  fresh : ∀ sig ∈ s.signals, sig.number < s.nextSignal
  made : ∀ call ∈ s.called, call.signal < s.nextSignal
  apart : s.signals.Pairwise fun sig sig' => sig.number ≠ sig'.number

/-- A loop comes to the next cell. -/
lemma Kept.enter (kept : Kept s) (visited : List (Nat × ω)) {c : Nat × ω} (lt : number < s.nextSignal)
    (other : ∀ sig ∈ s.signals, sig.number ≠ number)
    (passed : Loop.Passed s.m_Observers { here := c.1, visited := visited ++ [c] })
    (calls : (s.called.filter fun call => call.signal = number) =
      visited.map fun c => { signal := number, registration := c, eventID, param }) :
    Kept (enter eventID param s number (some { here := c.1, visited := visited ++ [c] })) := by
  have called : (TaskHandler.enter eventID param s number
      (some { here := c.1, visited := visited ++ [c] })).called =
        s.called ++ [{ signal := number, registration := c, eventID, param }] := by
    simp [TaskHandler.enter, Signal.onEvent]
  constructor
  · intro sig mem
    rcases List.mem_cons.mp mem with rfl | mem
    · exact passed
    · exact kept.passed sig mem
  · intro sig mem
    rw [called, List.filter_append]
    rcases List.mem_cons.mp mem with rfl | mem
    · rw [calls, List.map_append]
      simp [Signal.onEvent]
    · rw [kept.calls sig mem]
      simp [(other sig mem).symm]
  · intro sig mem
    rcases List.mem_cons.mp mem with rfl | mem
    · exact lt
    · exact kept.fresh sig mem
  · intro call mem
    rw [called] at mem
    rcases List.mem_append.mp mem with mem | mem
    · exact kept.made call mem
    · rw [List.mem_singleton.mp mem]
      exact lt
  · exact List.pairwise_cons.mpr ⟨fun sig mem => (other sig mem).symm, kept.apart⟩

/-- A new loop keeps the others. -/
lemma Kept.signalObserver (kept : Kept s) : Kept (s.signalObserver eventID param) := by
  have later : Kept { s with nextSignal := s.nextSignal + 1 } :=
    ⟨kept.passed, kept.calls, fun sig mem => Nat.lt_succ_of_lt (kept.fresh sig mem),
      fun call mem => Nat.lt_succ_of_lt (kept.made call mem), kept.apart⟩
  rw [TaskHandler.signalObserver]
  cases e : Loop.start s.m_Observers with
  | none => exact later
  | some loop =>
    obtain ⟨c, -, rfl⟩ := Option.map_eq_some_iff.mp e
    refine later.enter [] (Nat.lt_succ_self _) (fun sig mem => ?_) (.start e) ?_
    · exact (kept.fresh sig mem).ne
    · exact List.filter_eq_nil_iff.mpr fun call mem => by simpa using (kept.made call mem).ne

/-- A loop that goes on keeps the others. -/
lemma Kept.onEventReturns (kept : Kept s) (h : s.onEventReturns = some s') : Kept s' := by
  obtain ⟨sig, rest, signals, here, rfl⟩ := onEventReturns_cases h
  have top : sig ∈ s.signals := by rw [signals]; exact List.mem_cons_self
  have old : ∀ sig' ∈ rest, sig' ∈ s.signals := by
    rw [signals]
    exact fun sig' mem => List.mem_cons_of_mem _ mem
  have apart := kept.apart
  rw [signals, List.pairwise_cons] at apart
  have popped : Kept { s with signals := rest } :=
    ⟨fun sig' mem => kept.passed sig' (old sig' mem), fun sig' mem => kept.calls sig' (old sig' mem),
      fun sig' mem => kept.fresh sig' (old sig' mem), kept.made, apart.2⟩
  cases e : sig.loop.advance s.m_Observers with
  | none => exact popped
  | some loop =>
    have passed := (kept.passed sig top).advance here e
    obtain ⟨c, -, rfl⟩ := Option.map_eq_some_iff.mp e
    exact popped.enter _ (kept.fresh sig top) (fun sig' mem => (apart.1 sig' mem).symm) passed
      (kept.calls sig top)

/-- A step keeps the loops. -/
lemma Kept.step [DecidableEq ω] (kept : Kept s) (h : step s a = some s') : Kept s' := by
  cases a with
  | registerObserver ob =>
    cases h
    exact ⟨fun sig mem => (kept.passed sig mem).pushBack, kept.calls, kept.fresh, kept.made, kept.apart⟩
  | unRegisterObserver ob =>
    cases h
    cases e : s.findObserver ob with
    | none =>
      rw [unRegisterObserver_of_none e]
      exact kept
    | some c =>
      rw [unRegisterObserver_of_some e]
      exact ⟨fun sig mem => (kept.passed sig mem).erase, kept.calls, kept.fresh, kept.made, kept.apart⟩
  | signalObserver eventID param =>
    cases h
    exact kept.signalObserver
  | onFinish task =>
    cases h
    exact kept.signalObserver
  | onEventReturns => exact kept.onEventReturns h

/-- The loops are kept in every run. -/
lemma kept_of_run [DecidableEq ω] (run : Run (Exec step) initial l s) : Kept s :=
  run.invariant ⟨nofun, nofun, nofun, nofun, .nil⟩ Kept.step

/-- The calls that loop `sig` has made are calls with its event and its parameter, in the order of the
    registrations and at most one for each, and one for each that is in the list now. -/
def Delivered [DecidableEq ω] (sig : Signal ω) (s : TaskHandler ω) : Prop :=
  ∃ cells : List (Nat × ω),
    (s.called.filter fun call => call.signal = sig.number) = cells.map sig.onEvent ∧
    (cells.Pairwise fun c d => c.1 < d.1) ∧
    (cells.filter fun c => c ∈ s.m_Observers.cells) = s.m_Observers.cells

/-- When a loop of `SignalObserver` or `OnFinish` comes to its end, whatever the observers have done in
    between, it has called each observer that is registered now, once for each of its registrations and in
    their order. -/
theorem delivered_of_run [DecidableEq ω] {sig : Signal ω} {rest : List (Signal ω)}
    (run : Run (Exec step) initial l s) (top : s.signals = sig :: rest)
    (ended : step s .onEventReturns = some s') (popped : s'.signals = rest) : Delivered sig s := by
  have kept := kept_of_run run
  have mem : sig ∈ s.signals := by rw [top]; exact List.mem_cons_self
  obtain ⟨sig', rest', signals, here, rfl⟩ := onEventReturns_cases ended
  obtain ⟨rfl, rfl⟩ := List.cons.inj (top.symm.trans signals)
  have last : sig.loop.advance s.m_Observers = none := by
    cases e : sig.loop.advance s.m_Observers with
    | none => rfl
    | some loop =>
      rw [e] at popped
      exact absurd popped (List.cons_ne_self _ _)
  exact ⟨sig.loop.visited, kept.calls sig mem, (kept.passed sig mem).rising,
    (kept.passed sig mem).all here last⟩

/-- The first observer unregisters the second one and registers a third one. -/
theorem delivered_of_run_change : ∃ s : TaskHandler Nat, ∃ sig, Delivered sig s ∧ s.called.length = 2 :=
  ⟨_, _, delivered_of_run (l := [.registerObserver 7, .registerObserver 8, .signalObserver 1 none,
    .unRegisterObserver 8, .registerObserver 9, .onEventReturns]) (run_exec_iff.mpr rfl) rfl rfl rfl, rfl⟩

end TaskHandler
end XLN
