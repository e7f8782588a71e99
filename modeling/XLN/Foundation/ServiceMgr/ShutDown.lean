import XLN.Lib.Transition
import XLN.Foundation.ServiceMgr.Lifecycle

/-!
# Lookups while the services are destroyed

`ShutDown` destroys the services one after the other and clears the lookup map only at the end. A
`Teardown` is a manager on which services are registered, initialised and shut down, and on which the
`OnDestroy` of a service may call `GetService`. `safe_along_iff` says when such a call never gets a
service that has already been deleted: if the last registered service of the class does not come behind
the one that asks on the operation list.
-/

namespace XLN
open Transition

/-- Whether `ServiceMgr::ShutDown` runs: then it is in the `OnDestroy` of a service, and has others to
    destroy after it. -/
inductive Phase where
  | up
  | destroying (service : Service) (rest : List Service)

/-- A manager, the services that `RegisterService` has accepted since the last `ShutDown`, and those
    that have been deleted. `answer` is what the last event has got from `GetService`. -/
structure Teardown where
  mgr : ServiceMgr
  registered : List Service
  phase : Phase
  deleted : List Service
  answer : Option Service

namespace Teardown
open ServiceMgr Lifecycle

/-- A call on the manager, or the return of the `OnDestroy` that runs. -/
inductive Event where
  | registerService (service : Service)
  | init
  | getService (id : ServiceID)
  | shutDown
  | onDestroyReturn

/-- A new manager. -/
def new (lastTime : UInt32) : Teardown where
  mgr := .new lastTime
  registered := []
  phase := .up
  deleted := []
  answer := none

/-- The loop of `ShutDown`, with the services that it has not come to. -/
def shutDownLoop (s : Teardown) : List Service → Teardown
  | [] => { s with mgr := s.mgr.shutDown.1, registered := [], phase := .up }
  | service :: rest => { s with phase := .destroying service rest }

/-- One event. A service that is registered is a new object, and `Init` is called once. -/
def step (less : ServiceID → ServiceID → Bool) (s : Teardown) (a : Event) : Option Teardown :=
  match a, s.phase with
  | .registerService service, .up =>
    if service ∈ s.deleted then none
    else
      some { s with
        mgr := (s.mgr.registerService less service).1
        registered := accept s.registered service
        answer := none }
  | .init, .up =>
    if s.mgr.m_Initialized then none
    else s.mgr.init.map fun r => { s with mgr := r.1, answer := none }
  | .getService id, _ => some { s with answer := s.mgr.getService id }
  | .shutDown, .up => some (shutDownLoop { s with answer := none } (ops s.mgr).reverse)
  | .onDestroyReturn, .destroying service rest =>
    some (shutDownLoop { s with deleted := s.deleted ++ [service], answer := none } rest)
  | _, _ => none

/-- `GetService` has not returned a deleted service. -/
def Safe (s : Teardown) : Prop :=
  ∀ service, s.answer = some service → service ∉ s.deleted

/-- The service that is being destroyed. -/
def current (s : Teardown) : Option Service :=
  match s.phase with
  | .up => none
  | .destroying service _ => some service

/-- The last registered service of the class that an `OnDestroy` asks for does not come behind its own
    service on the operation list. -/
def InTime (s : Teardown) : Event → Prop
  | .getService id =>
    ∀ service ∈ s.current, ∀ provider ∈ lastProvider s.registered id,
      ¬ (ops s.mgr).Before service provider
  | .registerService _ | .init | .shutDown | .onDestroyReturn => True

instance (s : Teardown) : (a : Event) → Decidable (s.InTime a)
  | .getService _ => inferInstanceAs (Decidable (∀ _ ∈ _, ∀ _ ∈ _, ¬ List.Sublist _ _))
  | .registerService _ | .init | .shutDown | .onDestroyReturn => inferInstanceAs (Decidable True)

/-- What the containers hold for the services that are registered. -/
structure Known (mgr : ServiceMgr) (regs : List Service) : Prop where
  fast : ∀ id, mgr.getService id = lastProvider regs id
  keys : (mgr.m_Services.map Prod.fst).Perm (regs.map Service.getID)
  services : mgr.m_Services.services.Perm regs
  nodup : (regs.map Service.getID).Nodup
  listed : mgr.m_Initialized = true → (ops mgr).Perm regs
  unlisted : mgr.m_Initialized = false → ops mgr = []

/-- The deleted services: of the registered ones, those that the loop of `ShutDown` is past. -/
def Passed (s : Teardown) : Prop :=
  match s.phase with
  | .up => ∀ service ∈ s.registered, service ∉ s.deleted
  | .destroying service rest =>
    ∃ old done, s.deleted = old ++ done ∧ ops s.mgr = rest.reverse ++ service :: done.reverse ∧
      ∀ service ∈ s.registered, service ∉ old

variable {less : ServiceID → ServiceID → Bool} {s s' : Teardown} {a : Event} {service : Service}
  {mgr : ServiceMgr} {regs : List Service}

/-- A new manager knows no service. -/
lemma known_new (lastTime : UInt32) : Known (.new lastTime) [] where
  fast _ := rfl
  keys := .nil
  services := .nil
  nodup := .nil
  listed := nofun
  unlisted _ := rfl

/-- A service is registered if its class is known. -/
lemma Known.registered_iff (h : Known mgr regs) :
    mgr.isRegistered service = true ↔ service.getID ∈ regs.map Service.getID := by
  rw [isRegistered_iff]
  exact h.keys.mem_iff

/-- A new service becomes known. -/
lemma Known.addService (h : Known mgr regs) (less : ServiceID → ServiceID → Bool)
    (fresh : ¬ mgr.isRegistered service = true) :
    Known (mgr.addService less service) (regs ++ [service]) := by
  have absent := find_of_not_registered fresh
  obtain ⟨info, own, entries⟩ : ∃ info : ServiceInfo, info.m_Service = service ∧
      (mgr.addService less service).m_Services.Perm ((service.getID, info) :: mgr.m_Services) :=
    ⟨_, rfl, ServiceMap.assign_perm absent⟩
  refine ⟨fun id => ?_, ?_, ?_, ?_, fun initialized => ?_, fun early => ?_⟩
  · have same := h.fast id
    rw [getService] at same
    rw [getService, ServiceMgr.addService]
    simp only
    by_cases kind : service.getID.isKindOf id = true
    · rw [if_pos (RTTI.isKindOf_iff.mp kind)]
      simp [lastProvider, kind]
    · rw [if_neg fun mem => kind (RTTI.isKindOf_iff.mpr mem), same]
      simp [lastProvider, kind]
  · rw [List.map_append]
    exact ((entries.map Prod.fst).trans (h.keys.cons _)).trans
      (List.perm_append_singleton _ _).symm
  · have services := entries.map fun e => e.2.m_Service
    rw [List.map_cons, own] at services
    exact (services.trans (h.services.cons service)).trans (List.perm_append_singleton _ _).symm
  · rw [List.map_append]
    refine List.nodup_append_comm.mp (List.nodup_cons.mpr ⟨fun mem => ?_, h.nodup⟩)
    exact fresh (h.registered_iff.mpr mem)
  · rw [ops_addService (show mgr.m_Initialized = true from initialized)]
    exact (h.listed initialized).append_right [service]
  · have none := h.unlisted early
    unfold ops at none ⊢
    simpa [ServiceMgr.addService, show mgr.m_Initialized = false from early] using none

/-- `RegisterService` makes the service known unless its class is. -/
lemma Known.registerService (h : Known mgr regs) (less : ServiceID → ServiceID → Bool)
    (service : Service) : Known (mgr.registerService less service).1 (accept regs service) := by
  unfold ServiceMgr.registerService accept
  by_cases known : mgr.isRegistered service = true
  · rw [if_pos known, if_pos (h.registered_iff.mp known)]
    exact h
  · rw [if_neg known, if_neg fun mem => known (h.registered_iff.mpr mem)]
    exact h.addService less known

/-- `Init` changes no service. -/
lemma Known.init {mgr' : ServiceMgr} {calls : List Callback} (h : Known mgr regs)
    (early : mgr.m_Initialized = false) (e : mgr.init = some (mgr', calls)) :
    Known mgr' regs := by
  obtain ⟨log, e, -⟩ := init_cases e
  obtain ⟨shape, fast, initialized, perm⟩ := buildDep_cases e
  refine ⟨fun id => ?_, ?_, ?_, h.nodup, fun _ => ?_, fun late => ?_⟩
  · rw [getService, fast]
    exact h.fast id
  · rw [shape.keys]
    exact h.keys
  · rw [shape.services]
    exact h.services
  · have none : mgr.m_ServiceOpList = [] := List.map_eq_nil_iff.mp (h.unlisted early)
    have listed := perm.map ServiceOpInfo.m_Service
    rw [show ServiceMgr.m_ServiceOpList _ = [] from none, List.nil_append, List.map_map] at listed
    have services : mgr'.m_Services.services.Perm regs := by
      rw [shape.services]
      exact h.services
    exact listed.trans services
  · exact absurd (initialized.symm.trans late) nofun

/-- After `ShutDown` no service is known. -/
lemma known_shutDown (mgr : ServiceMgr) : Known mgr.shutDown.1 [] where
  fast _ := rfl
  keys := .nil
  services := .nil
  nodup := .nil
  listed _ := .nil
  unlisted _ := rfl

/-- What an event can do. -/
inductive Move (less : ServiceID → ServiceID → Bool) (s : Teardown) : Event → Teardown → Prop where
  | registerService {added} :
    s.phase = .up →
    added ∉ s.deleted →
    Move less s (.registerService added) { s with
      mgr := (s.mgr.registerService less added).1
      registered := accept s.registered added
      answer := none }
  | init {mgr' calls} :
    s.phase = .up →
    s.mgr.m_Initialized = false →
    s.mgr.init = some (mgr', calls) →
    Move less s .init { s with mgr := mgr', answer := none }
  | getService {id} :
    Move less s (.getService id) { s with answer := s.mgr.getService id }
  | shutDown :
    s.phase = .up →
    Move less s .shutDown (shutDownLoop { s with answer := none } (ops s.mgr).reverse)
  | onDestroyReturn {current rest} :
    s.phase = .destroying current rest →
    Move less s .onDestroyReturn
      (shutDownLoop { s with deleted := s.deleted ++ [current], answer := none } rest)

/-- Every step is one of these. -/
lemma step_move (st : Exec (step less) s a s') : Move less s a s' := by
  unfold Exec step at st
  split at st
  next service up =>
    split at st
    next => cases st
    next fresh =>
      cases st
      exact .registerService up fresh
  next up =>
    split at st
    next => cases st
    next early =>
      obtain ⟨⟨mgr', calls⟩, e, rfl⟩ := Option.map_eq_some_iff.mp st
      exact .init up (by simpa using early) e
  next =>
    cases st
    exact .getService
  next up =>
    cases st
    exact .shutDown up
  next service rest phase =>
    cases st
    exact .onDestroyReturn phase
  next => cases st

/-- The invariant of the containers. -/
structure Kept (s : Teardown) : Prop where
  known : Known s.mgr s.registered
  passed : s.Passed

/-- A new manager has deleted nothing. -/
lemma kept_new (lastTime : UInt32) : (new lastTime).Kept where
  known := known_new lastTime
  passed := nofun

/-- The loop goes on behind the services `done`. -/
lemma kept_shutDownLoop {rest : List Service} (old done : List Service) (known : Known s.mgr s.registered)
    (deleted : s.deleted = old ++ done) (list : ops s.mgr = rest.reverse ++ done.reverse)
    (fresh : ∀ service ∈ s.registered, service ∉ old) : (shutDownLoop s rest).Kept := by
  cases rest with
  | nil => exact ⟨known_shutDown s.mgr, nofun⟩
  | cons service rest =>
    refine ⟨known, old, done, deleted, ?_, fresh⟩
    show ops s.mgr = _
    rw [list, List.reverse_cons, List.append_assoc]
    rfl

/-- A step keeps track of the services. -/
lemma kept_step (h : s.Kept) (st : Exec (step less) s a s') : s'.Kept := by
  have passed := h.passed
  unfold Passed at passed
  have move := step_move st
  cases move with
  | @registerService service up new =>
    rw [up] at passed
    refine ⟨h.known.registerService less service, ?_⟩
    unfold Passed
    simp only [up]
    intro service' mem
    unfold accept at mem
    split at mem
    · exact passed service' mem
    · rcases List.mem_append.mp mem with mem | mem
      · exact passed service' mem
      · cases List.mem_singleton.mp mem
        exact new
  | init up early e =>
    refine ⟨h.known.init early e, ?_⟩
    unfold Passed
    simpa only [up] using passed
  | getService => exact ⟨h.known, h.passed⟩
  | shutDown up =>
    rw [up] at passed
    exact kept_shutDownLoop s.deleted [] h.known (by simp) (by simp) passed
  | @onDestroyReturn service rest phase =>
    rw [phase] at passed
    obtain ⟨old, done, deleted, list, fresh⟩ := passed
    refine kept_shutDownLoop old (done ++ [service]) h.known ?_ ?_ fresh
    · show s.deleted ++ [service] = _
      rw [deleted, List.append_assoc]
    · show ops s.mgr = _
      rw [list, List.reverse_append]
      rfl

/-- Only `RegisterService` adds to what is registered. -/
lemma registered_step (st : Exec (step less) s a s') (mem : service ∈ s'.registered) :
    service ∈ s.registered ∨ a = .registerService service := by
  have loop : ∀ {s : Teardown} {rest}, service ∈ (shutDownLoop s rest).registered →
      service ∈ s.registered := by
    intro s rest mem
    cases rest with
    | nil => cases mem
    | cons => exact mem
  have move := step_move st
  cases move with
  | registerService =>
    simp only [accept] at mem
    split at mem
    · exact .inl mem
    · rcases List.mem_append.mp mem with mem | mem
      · exact .inl mem
      · cases List.mem_singleton.mp mem
        exact .inr rfl
  | init | getService => exact .inl mem
  | shutDown | onDestroyReturn =>
    have mem := loop mem
    exact .inl mem

/-! ## Lookups -/

/-- `GetService` finds registered services only. -/
lemma Known.mem_of_getService {id : ServiceID} (h : Known mgr regs)
    (found : mgr.getService id = some service) : service ∈ regs := by
  rw [h.fast] at found
  exact (List.mem_filter.mp (List.mem_of_getLast? found)).1

/-- While a service is destroyed, the deleted ones are those behind it on the list. -/
lemma Kept.deleted_iff {current provider : Service} {rest : List Service} (h : s.Kept)
    (phase : s.phase = .destroying current rest) (reg : provider ∈ s.registered) :
    provider ∈ s.deleted ↔ (ops s.mgr).Before current provider := by
  have passed := h.passed
  unfold Passed at passed
  rw [phase] at passed
  obtain ⟨old, done, deleted, list, fresh⟩ := passed
  have initialized : s.mgr.m_Initialized = true := by
    cases early : s.mgr.m_Initialized with
    | true => rfl
    | false => simp [h.known.unlisted early] at list
  have nodup : (ops s.mgr).Nodup := nodup_of_perm_ids (h.known.listed initialized) h.known.nodup
  rw [list] at nodup ⊢
  rw [List.before_iff_mem_right nodup, List.mem_reverse, deleted, List.mem_append]
  exact or_iff_right (fresh provider reg)

/-- Outside `ShutDown`, nothing that is registered has been deleted. -/
lemma Kept.not_deleted (h : s.Kept) (up : s.phase = .up) (reg : service ∈ s.registered) :
    service ∉ s.deleted := by
  have passed := h.passed
  unfold Passed at passed
  rw [up] at passed
  exact passed service reg

/-- What `GetService` returns has been deleted exactly if it comes too late. -/
lemma Kept.getService_iff {id : ServiceID} (h : s.Kept) :
    (∀ service, s.mgr.getService id = some service → service ∉ s.deleted) ↔
      s.InTime (.getService id) := by
  show _ ↔ ∀ service ∈ s.current, ∀ provider ∈ lastProvider s.registered id, _
  rw [← h.known.fast id]
  unfold current
  cases phase : s.phase with
  | up =>
    refine iff_of_true (fun service found => ?_) nofun
    exact h.not_deleted phase (h.known.mem_of_getService found)
  | destroying service rest =>
    have behind : ∀ provider, s.mgr.getService id = some provider →
        (provider ∈ s.deleted ↔ (ops s.mgr).Before service provider) :=
      fun provider found => h.deleted_iff phase (h.known.mem_of_getService found)
    constructor
    · intro kept _ same provider found
      cases same
      exact fun before => kept provider found ((behind provider found).mpr before)
    · intro inTime provider found deleted
      exact inTime service rfl provider found ((behind provider found).mp deleted)

/-- The loop answers nothing. -/
lemma shutDownLoop_answer {rest : List Service} : (shutDownLoop s rest).answer = s.answer := by
  cases rest <;> rfl

/-- Without an answer there is nothing unsafe. -/
lemma safe_of_no_answer (none : s.answer = none) : s.Safe := by
  intro service found
  rw [none] at found
  cases found

/-- An answer that comes in time is safe. -/
lemma safe_step (h : s.Kept) (inTime : s.InTime a) (st : Exec (step less) s a s') : s'.Safe := by
  have move := step_move st
  cases move with
  | getService => exact h.getService_iff.mpr inTime
  | registerService | init => exact safe_of_no_answer rfl
  | shutDown => exact safe_of_no_answer shutDownLoop_answer
  | onDestroyReturn => exact safe_of_no_answer shutDownLoop_answer

/-- An answer that comes too late is not safe. -/
lemma not_safe_step (h : s.Kept) (late : ¬ s.InTime a) (st : Exec (step less) s a s') :
    ¬ s'.Safe := by
  have move := step_move st
  cases move with
  | getService => exact fun safe => late (h.getService_iff.mp safe)
  | registerService | init | shutDown | onDestroyReturn => exact absurd trivial late

/-- No `GetService` returns a deleted service if and only if each `OnDestroy` asks only for services
    that do not come behind its own one. -/
theorem safe_along_iff (less : ServiceID → ServiceID → Bool) (lastTime : UInt32) {l : List Event}
    (run : Run (Exec (step less)) (new lastTime) l s) :
    Along (Exec (step less)) Safe (new lastTime) l ↔
      Meets (Exec (step less)) InTime (new lastTime) l := by
  apply along_iff_meets (Exec.deterministic _) run (safe_of_no_answer rfl) (kept_new lastTime)
  · exact kept_step
  · exact fun h _ => safe_step h
  · exact fun h _ => not_safe_step h

/-- A service asks for its dependency, which comes before it, and is destroyed first. -/
theorem safe_along_iff_dependency :
    let log : Service := ⟨1, .root 1 "Log", []⟩
    let net : Service := ⟨2, .root 2 "Net", [.root 1 "Log"]⟩
    let events : List Event := [.registerService net, .registerService log, .init, .shutDown,
      .getService (.root 1 "Log"), .onDestroyReturn, .onDestroyReturn]
    ∃ s, Run (Exec (step RTTI.less)) (new 0) events s ∧ s.deleted = [net, log] ∧
      Along (Exec (step RTTI.less)) Safe (new 0) events := by
  intro log net events
  have state : (exec (step RTTI.less) (new 0) events).map Teardown.deleted = some [net, log] := by
    decide
  obtain ⟨s, run, deleted⟩ := run_of_map state
  exact ⟨s, run, deleted, (safe_along_iff RTTI.less 0 run).mpr (meets_of_check (by decide))⟩

/-- Without the declaration `Log` comes behind `Net` and is gone when `Net` asks for it. -/
theorem deleted_service_found :
    let log : Service := ⟨2, .root 2 "Log", []⟩
    let net : Service := ⟨1, .root 1 "Net", []⟩
    ∃ s, Run (Exec (step RTTI.less)) (new 0) [.registerService log, .registerService net, .init,
        .shutDown, .onDestroyReturn, .getService (.root 2 "Log")] s ∧
      s.current = some net ∧ s.answer = some log ∧ s.deleted = [log] ∧ ¬ s.Safe := by
  intro log net
  have state : (exec (step RTTI.less) (new 0) [.registerService log, .registerService net, .init,
      .shutDown, .onDestroyReturn, .getService (.root 2 "Log")]).map
        (fun s => (s.current, s.answer, s.deleted)) = some (some net, some log, [log]) := by decide
  obtain ⟨s, run, fields⟩ := run_of_map state
  simp only [Prod.mk.injEq] at fields
  obtain ⟨current, answer, deleted⟩ := fields
  refine ⟨s, run, current, answer, deleted, fun safe => safe log answer ?_⟩
  rw [deleted]
  exact List.mem_singleton.mpr rfl

end Teardown
end XLN
