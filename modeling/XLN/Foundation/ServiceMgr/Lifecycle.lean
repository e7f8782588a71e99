import XLN.Lib.Transition
import XLN.Foundation.ServiceMgr.Init

/-!
# Registrations from inside `OnInit`

A service may register others while its own `OnInit` runs. A `Lifecycle` is a manager in the middle
of such calls: its stack holds the calls that wait for an `OnInit` to return. The list of operations
grows when a late `RegisterService` gets past the `OnInit` it waits for, and `Init` walks over the
list as it is at that moment. `fulfilled_along_iff` says when every service is initialised once and
the services are destroyed in the reverse order: if no registration comes from inside an `OnInit`.
-/

namespace XLN
open Transition

/-- A call that waits for an `OnInit` to return: the loop of `Init` at the `i`-th entry of the list,
    or `RegisterService`. -/
inductive Frame where
  | init (i : Nat)
  | registering (service : Service)

/-- A manager with calls in progress. `accepted` are the services that `RegisterService` did not turn
    away, `onInit` and `onDestroy` the calls made so far. -/
structure Lifecycle where
  mgr : ServiceMgr
  stack : List Frame
  accepted : List Service
  onInit : List Service
  onDestroy : List Service
  finished : Bool

namespace Lifecycle
open ServiceMgr

/-- What happens next: a call to the manager, or the return of the `OnInit` that runs. -/
inductive Event where
  | registerService (service : Service)
  | init
  | onInitReturn
  | shutDown

/-- A new manager. -/
def new (lastTime : UInt32) : Lifecycle where
  mgr := .new lastTime
  stack := []
  accepted := []
  onInit := []
  onDestroy := []
  finished := false

/-- The services on the operation list. -/
def ops (mgr : ServiceMgr) : List Service :=
  mgr.m_ServiceOpList.map ServiceOpInfo.m_Service

/-- The loop of `Init` at the `i`-th entry. -/
def initLoop (i : Nat) (c : Lifecycle) : Lifecycle :=
  match (ops c.mgr)[i]? with
  | some service => { c with stack := .init i :: c.stack, onInit := c.onInit ++ [service] }
  | none => c

/-- The service an `OnDestroy` runs on. -/
def destroyed : Callback → Option Service
  | .onDestroy service => some service
  | _ => none

/-- `ShutDown` is the last call and `Init` is called once. -/
def step (less : ServiceID → ServiceID → Bool) (c : Lifecycle) (a : Event) : Option Lifecycle :=
  if c.finished then none
  else
    match a, c.stack with
    | .registerService service, _ =>
      if c.mgr.isRegistered service then some c
      else if c.mgr.m_Initialized then
        some { c with
          stack := .registering service :: c.stack
          accepted := c.accepted ++ [service]
          onInit := c.onInit ++ [service] }
      else
        some { c with
          mgr := c.mgr.addService less service
          accepted := c.accepted ++ [service] }
    | .init, _ =>
      if c.mgr.m_Initialized then none
      else
        (buildDep { c.mgr with m_Initialized := true }).map fun r => initLoop 0 { c with mgr := r.1 }
    | .onInitReturn, .init i :: stack => some (initLoop (i + 1) { c with stack := stack })
    | .onInitReturn, .registering service :: stack =>
      some { c with mgr := c.mgr.addService less service, stack := stack }
    | .onInitReturn, [] => none
    | .shutDown, [] =>
      if c.mgr.m_Initialized then
        some { c with
          mgr := c.mgr.shutDown.1
          onDestroy := c.mgr.shutDown.2.filterMap destroyed
          finished := true }
      else none
    | .shutDown, _ :: _ => none

/-- Services are initialised once by the time `Init` and their registration have returned, and
    destroyed once, in the reverse order. -/
structure Fulfilled (c : Lifecycle) : Prop where
  once : c.mgr.m_Initialized = true → (∀ i, .init i ∉ c.stack) →
    ∀ service ∈ c.accepted, .registering service ∉ c.stack → c.onInit.count service = 1
  reversed : c.finished = true → c.onDestroy = c.onInit.reverse ∧
    ∀ service ∈ c.accepted, c.onDestroy.count service = 1

/-- No service is accepted while an `OnInit` runs. -/
def TopLevel (c : Lifecycle) (a : Event) : Prop :=
  ∀ service, a = .registerService service → c.mgr.isRegistered service = false → c.stack = []

variable {less : ServiceID → ServiceID → Bool} {c c' : Lifecycle} {a : Event} {service : Service}

/-- A service that is registered after `Init` is put at the end of the operation list. -/
lemma ops_addService {mgr : ServiceMgr} (initialized : mgr.m_Initialized = true) :
    ops (mgr.addService less service) = ops mgr ++ [service] := by
  simp [ops, addService, initialized]

/-- `Init` does not finish the run. -/
lemma initLoop_finished {i : Nat} : (initLoop i c).finished = c.finished := by
  unfold initLoop
  split <;> rfl

/-- `ShutDown` destroys along the operation list backwards. -/
lemma shutDown_destroyed : c.mgr.shutDown.2.filterMap destroyed = (ops c.mgr).reverse := by
  show (c.mgr.m_ServiceOpList.reverse.flatMap _).filterMap destroyed = _
  rw [ops, ← List.map_reverse]
  induction c.mgr.m_ServiceOpList.reverse with
  | nil => rfl
  | cons op l ih =>
    rw [List.flatMap_cons, List.filterMap_append, ih]
    rfl

/-- What an event can do. -/
lemma step_cases (st : Exec (step less) c a c') : c.finished = false ∧
    ((∃ service, a = .registerService service ∧ c.mgr.isRegistered service = true ∧ c' = c) ∨
    (∃ service, a = .registerService service ∧ c.mgr.isRegistered service = false ∧
      c.mgr.m_Initialized = false ∧ c' = { c with
        mgr := c.mgr.addService less service, accepted := c.accepted ++ [service] }) ∨
    (∃ service, a = .registerService service ∧ c.mgr.isRegistered service = false ∧
      c.mgr.m_Initialized = true ∧ c' = { c with
        stack := .registering service :: c.stack, accepted := c.accepted ++ [service],
        onInit := c.onInit ++ [service] }) ∨
    (a = .init ∧ c.mgr.m_Initialized = false ∧ ∃ mgr' log,
      buildDep { c.mgr with m_Initialized := true } = some (mgr', log) ∧
      c' = initLoop 0 { c with mgr := mgr' }) ∨
    (∃ i stack, a = .onInitReturn ∧ c.stack = .init i :: stack ∧
      c' = initLoop (i + 1) { c with stack := stack }) ∨
    (∃ service stack, a = .onInitReturn ∧ c.stack = .registering service :: stack ∧
      c' = { c with mgr := c.mgr.addService less service, stack := stack }) ∨
    (a = .shutDown ∧ c.stack = [] ∧ c.mgr.m_Initialized = true ∧ c' = { c with
      mgr := c.mgr.shutDown.1, onDestroy := (ops c.mgr).reverse, finished := true })) := by
  unfold Exec step at st
  split at st
  next => cases st
  next running =>
    refine ⟨by simpa using running, ?_⟩
    split at st
    next stack service =>
      split at st
      next known =>
        cases st
        exact .inl ⟨service, rfl, known, rfl⟩
      next fresh =>
        have fresh : c.mgr.isRegistered service = false := by simpa using fresh
        split at st
        next initialized =>
          cases st
          exact .inr (.inr (.inl ⟨service, rfl, fresh, initialized, rfl⟩))
        next early =>
          cases st
          exact .inr (.inl ⟨service, rfl, fresh, by simpa using early, rfl⟩)
    next stack =>
      split at st
      next => cases st
      next early =>
        obtain ⟨⟨mgr', log⟩, e, rfl⟩ := Option.map_eq_some_iff.mp st
        exact .inr (.inr (.inr (.inl ⟨rfl, by simpa using early, mgr', log, e, rfl⟩)))
    next i stack hstack =>
      cases st
      exact .inr (.inr (.inr (.inr (.inl ⟨i, stack, rfl, hstack, rfl⟩))))
    next service stack hstack =>
      cases st
      exact .inr (.inr (.inr (.inr (.inr (.inl ⟨service, stack, rfl, hstack, rfl⟩)))))
    next => cases st
    next hstack =>
      split at st
      next initialized =>
        cases st
        rw [shutDown_destroyed]
        exact .inr (.inr (.inr (.inr (.inr (.inr ⟨rfl, hstack, initialized, rfl⟩)))))
      next => cases st
    next => cases st

/-! ## Without nested registrations -/

/-- What the operation list holds once `Init` has built it, while `RegisterService` waits for
    `current`. -/
structure Listed (c : Lifecycle) (current : List Service) : Prop where
  initialized : c.mgr.m_Initialized = true
  running : c.finished = false
  perm : (ops c.mgr ++ current).Perm c.accepted
  nodup : (c.accepted.map Service.getID).Nodup
  registered : ∀ service, c.mgr.isRegistered service = true ↔
    service.getID ∈ (ops c.mgr).map Service.getID

/-- The states of a run in which no `OnInit` registers a service. -/
inductive Orderly (c : Lifecycle) : Prop where
  | fresh :
    PreInit c.mgr c.accepted →
    c.stack = [] →
    c.onInit = [] →
    c.finished = false →
    Orderly c
  | initialising (i : Nat) :
    Listed c [] →
    c.stack = [.init i] →
    i < (ops c.mgr).length →
    c.onInit = (ops c.mgr).take (i + 1) →
    Orderly c
  | idle :
    Listed c [] →
    c.stack = [] →
    c.onInit = ops c.mgr →
    Orderly c
  | registering (service : Service) :
    Listed c [service] →
    c.stack = [.registering service] →
    c.onInit = ops c.mgr ++ [service] →
    Orderly c
  | finished :
    c.finished = true →
    c.stack = [] →
    c.onInit.Perm c.accepted →
    (c.accepted.map Service.getID).Nodup →
    c.onDestroy = c.onInit.reverse →
    Orderly c

/-- A new manager is in order. -/
lemma orderly_new (lastTime : UInt32) : (new lastTime).Orderly :=
  .fresh (preInit_new lastTime) rfl rfl rfl

/-- One more round of the loop of `Init`. -/
lemma Listed.initLoop {i : Nat} (listed : Listed c []) (stack : c.stack = [])
    (onInit : c.onInit = (ops c.mgr).take i) :
    (initLoop i c).Orderly := by
  unfold Lifecycle.initLoop
  cases h : (ops c.mgr)[i]? with
  | none =>
    rw [List.getElem?_eq_none_iff] at h
    rw [List.take_of_length_le h] at onInit
    exact .idle listed stack onInit
  | some service =>
    obtain ⟨lt, e⟩ := List.getElem?_eq_some_iff.mp h
    refine .initialising i ⟨listed.initialized, listed.running, listed.perm, listed.nodup,
      listed.registered⟩ ?_ lt ?_
    · show .init i :: c.stack = _
      rw [stack]
    · show c.onInit ++ [service] = (ops c.mgr).take (i + 1)
      rw [List.take_add_one, h, onInit]
      rfl

/-- `BuildDep` lists what has been accepted. -/
lemma listed_buildDep {mgr' : ServiceMgr} {log : List BuildDepError}
    (pre : PreInit c.mgr c.accepted) (running : c.finished = false)
    (e : buildDep { c.mgr with m_Initialized := true } = some (mgr', log)) :
    Listed { c with mgr := mgr' } [] := by
  obtain ⟨shape, -, initialized, perm⟩ := buildDep_cases e
  have hops : (ops mgr').Perm mgr'.m_Services.services := by
    have perm := perm.map ServiceOpInfo.m_Service
    rw [pre.opList, List.nil_append, List.map_map] at perm
    exact perm
  have hids : (ops mgr').Perm c.accepted := by
    rw [shape.services] at hops
    exact hops.trans pre.services
  refine ⟨initialized, running, ?_, ?_, fun service => ?_⟩
  · show (ops mgr' ++ []).Perm c.accepted
    rw [List.append_nil]
    exact hids
  · exact pre.keys.nodup_iff.mp pre.nodup
  · show mgr'.isRegistered service = true ↔ service.getID ∈ (ops mgr').map Service.getID
    rw [isRegistered_iff, shape.keys, pre.keys.mem_iff]
    exact (hids.map Service.getID).mem_iff.symm

/-- A service that is added is registered. -/
lemma isRegistered_addService {mgr : ServiceMgr} {service' : Service}
    (fresh : mgr.isRegistered service = false) :
    (mgr.addService less service).isRegistered service' = true ↔
      mgr.isRegistered service' = true ∨ service'.getID = service.getID := by
  have absent := find_of_not_registered (by simp [fresh] : ¬ mgr.isRegistered service = true)
  rw [isRegistered_iff, isRegistered_iff, addService, List.mem_map, List.mem_map]
  simp only [ServiceMap.mem_assign absent, or_and_right, exists_or, exists_eq_left]
  exact or_comm.trans (or_congr_right eq_comm)

/-- A late registration puts the service on the list when its `OnInit` returns. -/
lemma Listed.addService {stack : List Frame} (listed : Listed c [service]) :
    Listed { c with mgr := c.mgr.addService less service, stack := stack } [] := by
  have hops : ops (c.mgr.addService less service) = ops c.mgr ++ [service] :=
    ops_addService listed.initialized
  have fresh : c.mgr.isRegistered service = false := by
    rw [← Bool.not_eq_true, listed.registered]
    have nodup := listed.nodup
    rw [← (listed.perm.map Service.getID).nodup_iff, List.map_append] at nodup
    exact fun mem => List.disjoint_of_nodup_append nodup mem List.mem_cons_self
  refine ⟨listed.initialized, listed.running, ?_, listed.nodup, fun service' => ?_⟩
  · show (ops (c.mgr.addService less service) ++ []).Perm c.accepted
    rw [hops, List.append_nil]
    exact listed.perm
  · show (c.mgr.addService less service).isRegistered service' = true ↔
      service'.getID ∈ (ops (c.mgr.addService less service)).map Service.getID
    rw [isRegistered_addService fresh, listed.registered, hops, List.map_append, List.mem_append]
    simp

/-- Steps that register nothing from inside an `OnInit` stay orderly. -/
lemma orderly_step (orderly : c.Orderly) (top : c.TopLevel a) (st : Exec (step less) c a c') :
    c'.Orderly := by
  obtain ⟨running, ⟨_, -, -, rfl⟩ | ⟨service, -, fresh, early, rfl⟩ |
    ⟨service, rfl, fresh, initialized, rfl⟩ | ⟨-, early, mgr', log, e, rfl⟩ |
    ⟨i, stack, -, hstack, rfl⟩ | ⟨service, stack, -, hstack, rfl⟩ | ⟨-, hstack, initialized, rfl⟩⟩ :=
    step_cases st
  · exact orderly
  · -- a registration before `Init`
    cases orderly with
    | fresh pre stack onInit running =>
      exact .fresh (pre.addService less (by simp [fresh])) stack onInit running
    | initialising _ listed | idle listed | registering _ listed =>
      exact absurd listed.initialized (by simp [early])
    | finished done => exact absurd done (by simp [running])
  · -- a registration after `Init`, which is not called from inside an `OnInit`
    have empty := top service rfl fresh
    cases orderly with
    | fresh pre => exact absurd pre.initialized (by simp [initialized])
    | initialising _ _ stack | registering _ _ stack => exact absurd stack (by simp [empty])
    | idle listed stack onInit =>
      refine .registering service ⟨initialized, running, ?_, ?_, listed.registered⟩ ?_ ?_
      · have perm := listed.perm
        rw [List.append_nil] at perm
        exact perm.append_right [service]
      · show ((c.accepted ++ [service]).map Service.getID).Nodup
        have perm := listed.perm
        rw [List.append_nil] at perm
        have new : service.getID ∉ c.accepted.map Service.getID := by
          rw [← (perm.map Service.getID).mem_iff, ← listed.registered]
          simp [fresh]
        rw [List.map_append]
        exact List.nodup_append_comm.mp (List.nodup_cons.mpr ⟨new, listed.nodup⟩)
      · show .registering service :: c.stack = _
        rw [stack]
      · show c.onInit ++ [service] = _
        rw [onInit]
    | finished done => exact absurd done (by simp [running])
  · cases orderly with
    | fresh pre stack onInit running =>
      -- `Init` calls the first `OnInit`
      exact (listed_buildDep pre running e).initLoop stack onInit
    | initialising _ listed | idle listed | registering _ listed =>
      exact absurd listed.initialized (by simp [early])
    | finished done => exact absurd done (by simp [running])
  · cases orderly with
    | initialising _ listed hstack' lt onInit =>
      rw [hstack, List.cons.injEq, Frame.init.injEq] at hstack'
      obtain ⟨rfl, rfl⟩ := hstack'
      have listed' : Listed { c with stack := [] } [] :=
        ⟨listed.initialized, listed.running, listed.perm, listed.nodup, listed.registered⟩
      exact listed'.initLoop rfl onInit
    | fresh _ stack | idle _ stack | registering _ _ stack | finished _ stack =>
      exact absurd stack (by simp [hstack])
  · cases orderly with
    | registering _ listed hstack' onInit =>
      rw [hstack, List.cons.injEq, Frame.registering.injEq] at hstack'
      obtain ⟨rfl, rfl⟩ := hstack'
      refine .idle listed.addService rfl ?_
      exact onInit.trans (ops_addService listed.initialized).symm
    | fresh _ stack | idle _ stack | initialising _ _ stack | finished _ stack =>
      exact absurd stack (by simp [hstack])
  · cases orderly with
    | fresh pre => exact absurd pre.initialized (by simp [initialized])
    | initialising _ _ stack | registering _ _ stack => exact absurd stack (by simp [hstack])
    | idle listed stack onInit =>
      refine .finished rfl stack ?_ listed.nodup ?_
      · have perm := listed.perm
        rw [List.append_nil] at perm
        exact onInit ▸ perm
      · show (ops c.mgr).reverse = _
        rw [onInit]
    | finished done => exact absurd done (by simp [running])

/-- In order, everything is as it should be. -/
lemma Orderly.fulfilled (orderly : c.Orderly) : c.Fulfilled := by
  have exact_once : ∀ {l : List Service}, l.Perm c.accepted → (c.accepted.map Service.getID).Nodup →
      ∀ service ∈ c.accepted, l.count service = 1 := by
    intro l perm nodup service mem
    have nodup := perm.nodup_iff.mpr (.of_map _ nodup)
    exact List.count_eq_one_of_mem nodup (perm.mem_iff.mpr mem)
  cases orderly with
  | fresh pre _ _ running =>
    constructor
    · exact fun initialized => absurd pre.initialized (by simp [initialized])
    · exact fun done => absurd done (by simp [running])
  | initialising i listed stack =>
    constructor
    · exact fun _ none => absurd (none i) (by simp [stack])
    · exact fun done => absurd done (by simp [listed.running])
  | idle listed _ onInit =>
    constructor
    · intro _ _ service mem _
      rw [onInit]
      apply exact_once _ listed.nodup service mem
      simpa using listed.perm
    · exact fun done => absurd done (by simp [listed.running])
  | registering service listed _ onInit =>
    constructor
    · intro _ _ service' mem _
      rw [onInit]
      exact exact_once listed.perm listed.nodup service' mem
    · exact fun done => absurd done (by simp [listed.running])
  | finished _ _ perm nodup onDestroy =>
    constructor
    · exact fun _ _ service mem _ => exact_once perm nodup service mem
    · intro _
      refine ⟨onDestroy, fun service mem => ?_⟩
      rw [onDestroy]
      exact exact_once ((List.reverse_perm _).trans perm) nodup service mem

/-! ## After a nested registration -/

/-- What a registration from inside an `OnInit` leads to: more calls of `OnInit` than entries on the
    list if `Init` is running, and otherwise a list in which the inner service overtakes the outer
    one. -/
inductive Disordered (c : Lifecycle) : Prop where
  | initialising (waiting : List Service) (i : Nat) :
    c.mgr.m_Initialized = true →
    c.stack = waiting.map .registering ++ [.init i] →
    i < (ops c.mgr).length →
    i + 1 < c.onInit.length →
    Disordered c
  | surplus (waiting : List Service) :
    c.mgr.m_Initialized = true →
    c.stack = waiting.map .registering →
    (ops c.mgr).length + waiting.length < c.onInit.length →
    Disordered c
  | nested (inner : List Service) (outer : Service) :
    c.mgr.m_Initialized = true →
    c.stack = (inner ++ [outer]).map .registering →
    inner ≠ [] →
    c.onInit = ops c.mgr ++ outer :: inner.reverse →
    c.onInit ⊆ c.accepted →
    Disordered c
  | overtaken (waiting before rest more : List Service) (outer inner : Service) :
    c.mgr.m_Initialized = true →
    c.stack = waiting.map .registering →
    c.onInit = before ++ outer :: rest →
    ops c.mgr = before ++ inner :: more →
    inner ≠ outer ∨ outer ∈ rest →
    c.onInit ⊆ c.accepted →
    Disordered c

/-- Disorder while calls go on, and broken promises at the end. -/
structure Spoiled (c : Lifecycle) : Prop where
  disordered : c.finished = false → c.Disordered
  broken : c.finished = true → ¬ c.Fulfilled

/-- Orders that do not mirror each other do not fulfil it. -/
lemma not_fulfilled_of_ne (done : c.finished = true) (ne : c.onDestroy ≠ c.onInit.reverse) :
    ¬ c.Fulfilled :=
  fun h => ne (h.reversed done).1

/-- An accepted service that is initialised twice. -/
lemma not_fulfilled_of_twice {before rest : List Service} (done : c.finished = true)
    (onInit : c.onInit = before ++ service :: rest) (twice : service ∈ rest)
    (accepted : c.onInit ⊆ c.accepted) : ¬ c.Fulfilled := by
  intro h
  obtain ⟨reversed, count⟩ := h.reversed done
  have mem : service ∈ c.onInit := by simp [onInit]
  have one := count service (accepted mem)
  have pos := List.count_pos_iff.mpr twice
  rw [reversed, List.count_reverse, onInit, List.count_append, List.count_cons_self] at one
  omega

/-- Disorder spoils a run that goes on. -/
lemma Disordered.spoiled (dis : c.Disordered) (running : c.finished = false) : c.Spoiled :=
  ⟨fun _ => dis, fun done => absurd done (by simp [running])⟩

/-- A registration from inside an `OnInit` spoils the order. -/
lemma spoiled_of_nested (orderly : c.Orderly) (nested : ¬ c.TopLevel a)
    (st : Exec (step less) c a c') : c'.Spoiled := by
  simp only [TopLevel, not_forall] at nested
  obtain ⟨service, rfl, fresh, busy⟩ := nested
  obtain ⟨running, ⟨_, e, known, -⟩ | ⟨_, -, -, early, -⟩ | ⟨_, e, -, initialized, rfl⟩ |
    ⟨e, -⟩ | ⟨_, _, e, -⟩ | ⟨_, _, e, -⟩ | ⟨e, -⟩⟩ := step_cases st
  · cases e
    rw [fresh] at known
    cases known
  · cases orderly with
    | fresh _ stack => exact absurd stack busy
    | initialising _ listed | idle listed | registering _ listed =>
      exact absurd listed.initialized (by simp [early])
    | finished done => exact absurd done (by simp [running])
  · cases e
    refine ⟨fun _ => ?_, fun done => absurd done (by simp [running])⟩
    cases orderly with
    | fresh _ stack | idle _ stack | finished _ stack => exact absurd stack busy
    | initialising i listed stack lt onInit =>
      refine .initialising [service] i initialized ?_ lt ?_
      · show .registering service :: c.stack = _
        rw [stack]
        rfl
      · show i + 1 < (c.onInit ++ [service]).length
        rw [onInit, List.length_append, List.length_take, List.length_singleton]
        omega
    | registering outer listed stack onInit =>
      refine .nested [service] outer initialized ?_ (List.cons_ne_nil _ _) ?_ ?_
      · show .registering service :: c.stack = _
        rw [stack]
        rfl
      · show c.onInit ++ [service] = _
        rw [onInit, List.append_assoc]
        rfl
      · apply List.append_subset.mpr
        rw [onInit]
        exact ⟨fun _ mem => List.mem_append_left _ (listed.perm.mem_iff.mp mem), by simp⟩
  · cases e
  · cases e
  · cases e
  · cases e

/-- Disorder stays when a registration begins. -/
lemma disordered_registerService (dis : c.Disordered) : Disordered { c with
      stack := .registering service :: c.stack, accepted := c.accepted ++ [service],
      onInit := c.onInit ++ [service] } := by
  have accepted : ∀ {l : List Service}, l ⊆ c.accepted → l ++ [service] ⊆ c.accepted ++ [service] :=
    fun sub => List.append_subset.mpr
      ⟨List.Subset.trans sub (List.subset_append_left _ _), List.subset_append_right _ _⟩
  cases dis with
  | initialising waiting i initialized stack lt more =>
    refine .initialising (service :: waiting) i initialized ?_ lt ?_
    · show .registering service :: c.stack = _
      rw [stack]
      rfl
    · show i + 1 < (c.onInit ++ [service]).length
      rw [List.length_append]
      omega
  | surplus waiting initialized stack more =>
    refine .surplus (service :: waiting) initialized ?_ ?_
    · show .registering service :: c.stack = _
      rw [stack]
      rfl
    · show (ops c.mgr).length + (service :: waiting).length < (c.onInit ++ [service]).length
      rw [List.length_append, List.length_cons, List.length_singleton]
      omega
  | nested inner outer initialized stack _ onInit sub =>
    refine .nested (service :: inner) outer initialized ?_ (List.cons_ne_nil _ _) ?_ (accepted sub)
    · show .registering service :: c.stack = _
      rw [stack]
      rfl
    · show c.onInit ++ [service] = _
      rw [onInit, List.append_assoc, List.reverse_cons]
      rfl
  | overtaken waiting before rest more outer inner initialized stack onInit hops swap sub =>
    refine .overtaken (service :: waiting) before (rest ++ [service]) more outer inner initialized
      ?_ ?_ hops ?_ (accepted sub)
    · show .registering service :: c.stack = _
      rw [stack]
      rfl
    · show c.onInit ++ [service] = _
      rw [onInit, List.append_assoc]
      rfl
    · exact swap.imp_right (List.mem_append_left _)

/-- Disorder stays when `Init` goes on. -/
lemma disordered_initLoop {i : Nat} {stack : List Frame} (dis : c.Disordered)
    (hstack : c.stack = .init i :: stack) :
    (initLoop (i + 1) { c with stack := stack }).Disordered := by
  have waits : ∀ {waiting : List Service}, c.stack ≠ waiting.map .registering := by
    intro waiting e
    rw [hstack] at e
    cases waiting <;> cases e
  cases dis with
  | initialising waiting j initialized stack' lt more =>
    rw [hstack] at stack'
    cases waiting with
    | cons service waiting => cases stack'
    | nil =>
      cases stack'
      unfold initLoop
      cases h : (ops c.mgr)[i + 1]? with
      | none =>
        -- the loop ends, and there were more calls than entries
        rw [List.getElem?_eq_none_iff] at h
        refine .surplus [] initialized rfl ?_
        show (ops c.mgr).length + 0 < c.onInit.length
        omega
      | some service =>
        obtain ⟨lt', -⟩ := List.getElem?_eq_some_iff.mp h
        refine .initialising [] (i + 1) initialized rfl lt' ?_
        show i + 1 + 1 < (c.onInit ++ [service]).length
        rw [List.length_append, List.length_singleton]
        omega
  | surplus _ _ stack' | nested _ _ _ stack' | overtaken _ _ _ _ _ _ _ stack' =>
    exact absurd stack' waits

/-- Disorder stays when a service is added. -/
lemma disordered_addService {stack : List Frame} (dis : c.Disordered)
    (hstack : c.stack = .registering service :: stack) :
    Disordered { c with mgr := c.mgr.addService less service, stack := stack } := by
  have hops : c.mgr.m_Initialized = true →
      ops (c.mgr.addService less service) = ops c.mgr ++ [service] := ops_addService
  cases dis with
  | initialising waiting i initialized stack' lt more =>
    rw [hstack] at stack'
    cases waiting with
    | nil => cases stack'
    | cons service' waiting =>
      cases stack'
      refine .initialising waiting i initialized rfl ?_ more
      show i < (ops (c.mgr.addService less service)).length
      rw [hops initialized, List.length_append]
      omega
  | surplus waiting initialized stack' more =>
    rw [hstack] at stack'
    cases waiting with
    | nil => cases stack'
    | cons service' waiting =>
      cases stack'
      refine .surplus waiting initialized rfl ?_
      show (ops (c.mgr.addService less service)).length + waiting.length < c.onInit.length
      rw [hops initialized, List.length_append, List.length_singleton]
      rw [List.length_cons] at more
      omega
  | nested inner outer initialized stack' ne onInit sub =>
    rw [hstack] at stack'
    cases inner with
    | nil => exact absurd rfl ne
    | cons service' inner =>
      -- the inner service gets the place of the outer one
      cases stack'
      refine .overtaken (inner ++ [outer]) (ops c.mgr) (service :: inner).reverse [] outer service
        initialized rfl onInit (hops initialized) ?_ sub
      by_cases same : service = outer
      · exact .inr (by simp [same])
      · exact .inl same
  | overtaken waiting before rest more outer inner initialized stack' onInit list swap sub =>
    rw [hstack] at stack'
    cases waiting with
    | nil => cases stack'
    | cons service' waiting =>
      cases stack'
      refine .overtaken waiting before rest (more ++ [service]) outer inner initialized rfl onInit
        ?_ swap sub
      show ops (c.mgr.addService less service) = _
      rw [hops initialized, list, List.append_assoc]
      rfl

/-- Disorder comes out at `ShutDown`. -/
lemma not_fulfilled_shutDown (dis : c.Disordered) (hstack : c.stack = []) : ¬ Fulfilled { c with
    mgr := c.mgr.shutDown.1, onDestroy := (ops c.mgr).reverse, finished := true } := by
  cases dis with
  | initialising _ _ _ stack => exact absurd stack (by simp [hstack])
  | nested _ _ _ stack => exact absurd stack (by simp [hstack])
  | surplus waiting _ stack more =>
    apply not_fulfilled_of_ne rfl
    intro e
    have same : ops c.mgr = c.onInit := List.reverse_injective e
    rw [same] at more
    omega
  | overtaken _ before rest _ outer inner _ _ onInit list swap sub =>
    cases swap with
    | inl ne =>
      apply not_fulfilled_of_ne rfl
      intro e
      have same : ops c.mgr = c.onInit := List.reverse_injective e
      rw [list, onInit] at same
      exact ne (List.cons.inj (List.append_cancel_left same)).1
    | inr twice => exact not_fulfilled_of_twice rfl onInit twice sub

/-- There is no disorder before `Init`. -/
lemma Disordered.initialized (dis : c.Disordered) : c.mgr.m_Initialized = true := by
  cases dis with
  | initialising _ _ h | surplus _ h | nested _ _ h | overtaken _ _ _ _ _ _ h => exact h

/-- Disorder is never repaired. -/
lemma spoiled_step (spoiled : c.Spoiled) (st : Exec (step less) c a c') : c'.Spoiled := by
  obtain ⟨running, cases⟩ := step_cases st
  have dis := spoiled.disordered running
  obtain ⟨_, -, -, rfl⟩ | ⟨_, -, -, early, -⟩ | ⟨service, -, -, -, rfl⟩ | ⟨-, early, -⟩ |
    ⟨i, stack, -, hstack, rfl⟩ | ⟨service, stack, -, hstack, rfl⟩ | ⟨-, hstack, -, rfl⟩ := cases
  · exact spoiled
  · exact absurd dis.initialized (by simp [early])
  · exact (disordered_registerService dis).spoiled running
  · exact absurd dis.initialized (by simp [early])
  · apply (disordered_initLoop dis hstack).spoiled
    rw [initLoop_finished]
    exact running
  · exact (disordered_addService dis hstack).spoiled running
  · exact ⟨fun h => absurd h (by simp), fun _ => not_fulfilled_shutDown dis hstack⟩

/-- In a run that ends with `ShutDown`, every accepted service is initialised once and destroyed in
    the reverse order if and only if no service is accepted while an `OnInit` runs. -/
theorem fulfilled_along_iff (less : ServiceID → ServiceID → Bool) (lastTime : UInt32)
    {l : List Event} (run : Run (Exec (step less)) (new lastTime) l c)
    (finished : c.finished = true) :
    Along (Exec (step less)) Fulfilled (new lastTime) l ↔
      Meets (Exec (step less)) TopLevel (new lastTime) l := by
  apply along_iff_meets_of_last (B := Spoiled) (Exec.deterministic _) run (orderly_new lastTime)
  · exact orderly_step
  · exact spoiled_of_nested
  · exact spoiled_step
  · exact Orderly.fulfilled
  · exact fun spoiled => spoiled.broken finished

/-- The statement above for a registration before and one after `Init`. -/
theorem fulfilled_along_iff_late :
    let config : Service := ⟨1, .root 1 "Config", []⟩
    let console : Service := ⟨2, .root 2 "Console", []⟩
    let events : List Event := [.registerService config, .init, .onInitReturn,
      .registerService console, .onInitReturn, .shutDown]
    Along (Exec (step RTTI.less)) Fulfilled (new 0) events ↔
      Meets (Exec (step RTTI.less)) TopLevel (new 0) events := by
  intro config console events
  have done : (exec (step RTTI.less) (new 0) events).map Lifecycle.finished = some true := by decide
  obtain ⟨c, run, finished⟩ := run_of_map done
  exact fulfilled_along_iff RTTI.less 0 run finished

/-- A service registered by another one's `OnInit` while `Init` runs is initialised twice. -/
theorem initialised_twice :
    let config : Service := ⟨1, .root 1 "Config", []⟩
    let console : Service := ⟨2, .root 2 "Console", []⟩
    ∃ c, Run (Exec (step RTTI.less)) (new 0) [.registerService config, .init,
        .registerService console, .onInitReturn, .onInitReturn, .onInitReturn, .shutDown] c ∧
      console ∈ c.accepted ∧ c.onInit = [config, console, console] ∧ ¬ c.Fulfilled := by
  intro config console
  have state : (exec (step RTTI.less) (new 0) [.registerService config, .init,
      .registerService console, .onInitReturn, .onInitReturn, .onInitReturn, .shutDown]).map
        (fun c => (c.accepted, c.onInit, c.onDestroy, c.finished)) =
      some ([config, console], [config, console, console], [console, config], true) := by decide
  obtain ⟨c, run, fields⟩ := run_of_map state
  simp only [Prod.mk.injEq] at fields
  obtain ⟨accepted, onInit, onDestroy, finished⟩ := fields
  refine ⟨c, run, by simp [accepted], onInit, not_fulfilled_of_ne finished ?_⟩
  rw [onDestroy, onInit]
  decide

end Lifecycle
end XLN
