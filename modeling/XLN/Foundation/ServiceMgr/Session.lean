import XLN.Lib.Transition
import XLN.Foundation.ServiceMgr.Init

/-!
# Runs of calls

A `Session` is a manager together with the services that are registered with it, as the calls made so
far have it: `RegisterService` adds a service of a new class, both `UnRegisterService` functions take
the service of a class out, `ShutDown` ends with none. Three things are asked of the containers in
every state of a run: that `RunOnce` and `ShutDown` touch registered services only
(`callbacks_registered_along_iff`), that what `GetService` returns is registered and can be cast to the
class it was asked for (`casts_to_base_along`), and that `GetService` finds a service exactly for the
classes that a registered one belongs to (`available_along_iff`).
-/

namespace XLN
open Transition

/-- A call on a manager. -/
inductive ServiceMgr.Call where
  | registerService (service : Service)
  | unRegisterService (service : Service)
  | unRegisterServiceT (id : ServiceID)
  | init
  | runOnce (now : UInt32)
  | shutDown

/-- The service a callback runs on. -/
def Callback.service : Callback → Service
  | onPreInit service | onInit service | onTick service _ | onRender service | onDestroy service
  | delete service => service

/-- A manager, and what is registered with it. -/
structure Session where
  mgr : ServiceMgr
  registered : List Service

namespace Session
open ServiceMgr

/-- A new manager. -/
def init (lastTime : UInt32) : Session :=
  { mgr := .new lastTime, registered := [] }

/-- Takes the service of the class `id` out of a list. -/
def without (id : ServiceID) (registered : List Service) : List Service :=
  registered.filter fun service => service.getID ≠ id

/-- One call. -/
def step (less : ServiceID → ServiceID → Bool) (s : Session) : Call → Option Session
  | .registerService service =>
    some { mgr := (s.mgr.registerService less service).1
           registered := accept s.registered service }
  | .unRegisterService service =>
    some { mgr := s.mgr.unRegisterService service
           registered := without service.getID s.registered }
  | .unRegisterServiceT id =>
    some { mgr := (s.mgr.unRegisterServiceT id).1, registered := without id s.registered }
  | .init => s.mgr.init.map fun r => { s with mgr := r.1 }
  | .runOnce now => some { s with mgr := (s.mgr.runOnce now).1 }
  | .shutDown => some { mgr := s.mgr.shutDown.1, registered := [] }

/-- The class that a call unregisters. -/
def unregisters : Call → Option ServiceID
  | .unRegisterService service => some service.getID
  | .unRegisterServiceT id => some id
  | _ => none

/-- `m_Services` holds exactly the registered services. -/
structure Tracked (s : Session) : Prop where
  entry : ∀ e ∈ s.mgr.m_Services, e.2.m_Service.getID = e.1
  services : ∀ service, service ∈ s.mgr.m_Services.services ↔ service ∈ s.registered

/-- If `RunOnce` or `ShutDown` were called now, they would call registered services only. -/
def CallsRegistered (s : Session) : Prop :=
  (∀ now, ∀ call ∈ (s.mgr.runOnce now).2, call.service ∈ s.registered) ∧
    ∀ call ∈ s.mgr.shutDown.2, call.service ∈ s.registered

/-- No class is unregistered that has an entry in the operation list. -/
def Unlisted (s : Session) (a : Call) : Prop :=
  ∀ id ∈ unregisters a, ∀ op ∈ s.mgr.m_ServiceOpList, op.m_Service.getID ≠ id

/-- `GetService` finds a service for exactly the classes of the registered ones. -/
def Available (s : Session) : Prop :=
  ∀ T, (s.mgr.getService T).isSome ↔ ∃ service ∈ s.registered, service.getID.isKindOf T = true

/-- Nothing registered shares a class with what is unregistered. -/
def Unshared (s : Session) (a : Call) : Prop :=
  ∀ id ∈ unregisters a, ∀ service ∈ s.registered, service.getID ≠ id →
    ∀ T ∈ id.chain, ¬ service.getID.isKindOf T = true

variable {less : ServiceID → ServiceID → Bool} {s s' : Session} {a : Call} {id : ServiceID}
  {service : Service} {regs : List Service}

/-- What is left has another class. -/
lemma mem_without : service ∈ without id regs ↔ service ∈ regs ∧ service.getID ≠ id := by
  simp [without]

/-- A service is registered if its class is one of those registered. -/
lemma Tracked.isRegistered_iff (tracked : s.Tracked) :
    s.mgr.isRegistered service = true ↔ service.getID ∈ s.registered.map Service.getID := by
  rw [ServiceMgr.isRegistered_iff, List.mem_map, List.mem_map]
  constructor
  · intro h
    obtain ⟨e, he, key⟩ := h
    refine ⟨e.2.m_Service, (tracked.services _).mp (List.mem_map_of_mem he), ?_⟩
    rw [tracked.entry e he, key]
  · intro h
    obtain ⟨service', mem, key⟩ := h
    obtain ⟨e, he, rfl⟩ := List.mem_map.mp ((tracked.services _).mpr mem)
    exact ⟨e, he, by rw [← tracked.entry e he, key]⟩

/-- What a call can do. -/
lemma step_cases (tracked : s.Tracked) (st : Exec (step less) s a s') :
    (∃ service, a = .registerService service ∧ s' = s) ∨
    (∃ service, a = .registerService service ∧ s.mgr.m_Services.find service.getID = none ∧
      s' = ⟨s.mgr.addService less service, s.registered ++ [service]⟩) ∨
    (∃ id, unregisters a = some id ∧
      s' = ⟨eraseFastSearch id { s.mgr with m_Services := s.mgr.m_Services.erase id },
        without id s.registered⟩) ∨
    (a = .init ∧ ∃ mgr' calls, s.mgr.init = some (mgr', calls) ∧ s' = ⟨mgr', s.registered⟩) ∨
    (∃ now, a = .runOnce now ∧ s' = ⟨(s.mgr.runOnce now).1, s.registered⟩) ∨
    (a = .shutDown ∧ s' = ⟨s.mgr.shutDown.1, []⟩) := by
  cases a with
  | registerService service =>
    cases st
    by_cases known : s.mgr.isRegistered service = true
    · refine .inl ⟨service, rfl, ?_⟩
      rw [registerService, accept, if_pos known, if_pos (tracked.isRegistered_iff.mp known)]
    · refine .inr (.inl ⟨service, rfl, find_of_not_registered known, ?_⟩)
      rw [registerService, accept, if_neg known,
        if_neg fun mem => known (tracked.isRegistered_iff.mpr mem)]
  | unRegisterService service =>
    cases st
    exact .inr (.inr (.inl ⟨_, rfl, rfl⟩))
  | unRegisterServiceT id =>
    cases st
    refine .inr (.inr (.inl ⟨id, rfl, ?_⟩))
    rw [unRegisterServiceT_fst]
  | init =>
    obtain ⟨⟨mgr', calls⟩, e, rfl⟩ := Option.map_eq_some_iff.mp st
    exact .inr (.inr (.inr (.inl ⟨rfl, mgr', calls, e, rfl⟩)))
  | runOnce now =>
    cases st
    exact .inr (.inr (.inr (.inr (.inl ⟨now, rfl, rfl⟩))))
  | shutDown =>
    cases st
    exact .inr (.inr (.inr (.inr (.inr ⟨rfl, rfl⟩))))

/-- What a call that unregisters a class does. -/
lemma step_unregisters (tracked : s.Tracked) (st : Exec (step less) s a s') (hid : unregisters a = some id) :
    s' = ⟨eraseFastSearch id { s.mgr with m_Services := s.mgr.m_Services.erase id },
      without id s.registered⟩ := by
  obtain ⟨_, rfl, -⟩ | ⟨_, rfl, -⟩ | ⟨id', hid', rfl⟩ | ⟨rfl, -⟩ | ⟨_, rfl, -⟩ | ⟨rfl, -⟩ :=
    step_cases tracked st
  · cases hid
  · cases hid
  · cases hid'.symm.trans hid
    rfl
  · cases hid
  · cases hid
  · cases hid

/-- In the beginning nothing is registered. -/
lemma tracked_init (lastTime : UInt32) : (init lastTime).Tracked where
  entry := by simp [init, ServiceMgr.new]
  services := by simp [init, ServiceMgr.new, ServiceMap.services]

/-- The services of a map are those of its entries. -/
lemma mem_services {m : ServiceMap} : service ∈ m.services ↔ ∃ e ∈ m, e.2.m_Service = service :=
  List.mem_map

/-- Every call keeps `m_Services` in step with what is registered. -/
lemma tracked_step (tracked : s.Tracked) (st : Exec (step less) s a s') : s'.Tracked := by
  obtain ⟨_, -, rfl⟩ | ⟨service, -, absent, rfl⟩ | ⟨id, -, rfl⟩ | ⟨-, mgr', calls, e, rfl⟩ |
    ⟨now, -, rfl⟩ | ⟨-, rfl⟩ := step_cases tracked st
  · exact tracked
  · constructor
    · intro e he
      rcases (ServiceMap.mem_assign absent).mp he with rfl | he
      · rfl
      · exact tracked.entry e he
    · intro service'
      show service' ∈ ServiceMap.services (ServiceMap.assign _ _ _ _) ↔ _
      rw [mem_services, List.mem_append, ← tracked.services, mem_services, List.mem_singleton]
      simp only [ServiceMap.mem_assign absent, or_and_right, exists_or, exists_eq_left]
      exact or_comm.trans (or_congr_right eq_comm)
  · constructor
    · intro e he
      exact tracked.entry e (ServiceMap.mem_erase.mp he).1
    · intro service'
      rw [mem_without, ← tracked.services, mem_services, mem_services]
      constructor
      · intro h
        obtain ⟨e, he, rfl⟩ := h
        obtain ⟨he, ne⟩ := ServiceMap.mem_erase.mp he
        exact ⟨⟨e, he, rfl⟩, tracked.entry e he ▸ ne⟩
      · intro h
        obtain ⟨⟨e, he, rfl⟩, ne⟩ := h
        exact ⟨e, ServiceMap.mem_erase.mpr ⟨he, tracked.entry e he ▸ ne⟩, rfl⟩
  · obtain ⟨log, e, -⟩ := init_cases e
    obtain ⟨shape, -⟩ := buildDep_cases e
    constructor
    · intro e he
      obtain ⟨e0, he0, key, service⟩ := shape.exists_entry he
      rw [← service, ← key]
      exact tracked.entry e0 he0
    · intro service'
      rw [shape.services]
      exact tracked.services service'
  · exact ⟨by simpa using tracked.entry, by simpa using tracked.services⟩
  · exact ⟨by simp [shutDown], by simp [shutDown, ServiceMap.services]⟩

/-! ## Callbacks -/

/-- Only registered services are called if all on the operation list are. -/
lemma callsRegistered_iff :
    s.CallsRegistered ↔ ∀ op ∈ s.mgr.m_ServiceOpList, op.m_Service ∈ s.registered := by
  constructor
  · intro h op hop
    apply h.2 (.onDestroy op.m_Service)
    exact List.mem_flatMap.mpr ⟨op, List.mem_reverse.mpr hop, by simp⟩
  · intro h
    constructor
    · intro now call hcall
      unfold runOnce at hcall
      split at hcall
      next =>
        rcases List.mem_append.mp hcall with hcall | hcall
        all_goals
          obtain ⟨op, hop, rfl⟩ := List.mem_map.mp hcall
          exact h op hop
      next => cases hcall
    · intro call hcall
      obtain ⟨op, hop, hcall⟩ := List.mem_flatMap.mp hcall
      have hop := h op (List.mem_reverse.mp hop)
      rcases List.mem_pair.mp hcall with rfl | rfl
      · exact hop
      · exact hop

/-- After a call that unregisters no listed service the listed ones are still registered. -/
lemma callsRegistered_step (tracked : s.Tracked) (h : s.CallsRegistered) (unlisted : s.Unlisted a)
    (st : Exec (step less) s a s') : s'.CallsRegistered := by
  rw [callsRegistered_iff] at h ⊢
  obtain ⟨_, -, rfl⟩ | ⟨service, -, absent, rfl⟩ | ⟨id, hid, rfl⟩ | ⟨-, mgr', calls, e, rfl⟩ |
    ⟨now, -, rfl⟩ | ⟨-, rfl⟩ := step_cases tracked st
  · exact h
  · intro op hop
    simp only [addService] at hop
    split at hop
    next =>
      rcases List.mem_append.mp hop with hop | hop
      · exact List.mem_append_left _ (h op hop)
      · cases List.mem_singleton.mp hop
        exact List.mem_append_right _ List.mem_cons_self
    next => exact List.mem_append_left _ (h op hop)
  · intro op hop
    exact mem_without.mpr ⟨h op hop, unlisted id hid op hop⟩
  · -- `Init` lists what is registered
    obtain ⟨log, e, -⟩ := init_cases e
    obtain ⟨shape, -, -, perm⟩ := buildDep_cases e
    intro op hop
    rcases List.mem_append.mp (perm.mem_iff.mp hop) with hop | hop
    · exact h op hop
    · obtain ⟨e, he, rfl⟩ := List.mem_map.mp hop
      rw [← tracked.services, ← shape.services]
      exact mem_services.mpr ⟨e, he, rfl⟩
  · simpa using h
  · simp [shutDown]

/-- Unregistering a class with an entry in the operation list leaves the entry there. -/
lemma not_callsRegistered_step (tracked : s.Tracked) (listed : ¬ s.Unlisted a)
    (st : Exec (step less) s a s') : ¬ s'.CallsRegistered := by
  simp only [Unlisted, not_forall, not_not] at listed
  obtain ⟨id, hid, op, hop, key⟩ := listed
  rw [callsRegistered_iff]
  intro h
  obtain rfl := step_unregisters tracked st hid
  exact (mem_without.mp (h op hop)).2 key

/-- In the beginning the operation list is empty. -/
lemma callsRegistered_init (lastTime : UInt32) : (init lastTime).CallsRegistered := by
  rw [callsRegistered_iff]
  simp [init, ServiceMgr.new]

/-- Every call returns. -/
lemma step_isSome (less : ServiceID → ServiceID → Bool) (s : Session) (a : Call) :
    (step less s a).isSome := by
  cases a with
  | init =>
    rw [step, Option.isSome_map]
    exact s.mgr.init_isSome
  | registerService | unRegisterService | unRegisterServiceT | runOnce | shutDown => rfl

/-- `RunOnce` and `ShutDown` only ever touch registered services if and only if no class is
    unregistered while the operation list has an entry for it. -/
theorem callbacks_registered_along_iff (less : ServiceID → ServiceID → Bool) (lastTime : UInt32)
    (l : List Call) :
    Along (Exec (step less)) CallsRegistered (init lastTime) l ↔
      Meets (Exec (step less)) Unlisted (init lastTime) l := by
  obtain ⟨s, run⟩ := exists_run (step_isSome less) (init lastTime) l
  apply along_iff_meets (Exec.deterministic _) run (callsRegistered_init lastTime)
    (tracked_init lastTime)
  · exact tracked_step
  · exact callsRegistered_step
  · exact fun tracked _ listed st => not_callsRegistered_step tracked listed st

/-- A service that is unregistered after `Init` is still ticked by `RunOnce`. -/
theorem unregistered_ticked :
    let log : Service := ⟨1, .root 1 "Log", []⟩
    ∃ s, Run (Exec (step RTTI.less)) (init 0)
        [.registerService log, .init, .unRegisterService log] s ∧
      .onTick log 5 ∈ (s.mgr.runOnce 5).2 ∧ log ∉ s.registered := by
  intro log
  obtain ⟨s, run⟩ := exists_run (step_isSome RTTI.less) (init 0)
    [.registerService log, .init, .unRegisterService log]
  refine ⟨s, run, ?_⟩
  have calls : (exec (step RTTI.less) (init 0) [.registerService log, .init,
      .unRegisterService log]).map (fun s => ((s.mgr.runOnce 5).2, s.registered)) =
        some ([.onTick log 5, .onRender log], []) := by decide
  rw [run_exec_iff.mp run, Option.map_some, Option.some.injEq, Prod.mk.injEq] at calls
  rw [calls.1, calls.2]
  decide

/-! ## Lookups -/

/-- The erased chain is gone, everything else is still found. -/
lemma getService_eraseFastSearch {mgr : ServiceMgr} {T : ServiceID} :
    (eraseFastSearch id mgr).getService T = if T ∈ id.chain then none else mgr.getService T := rfl

/-- A service that is added is found under each class of its chain. -/
lemma getService_addService {mgr : ServiceMgr} {T : ServiceID} :
    (mgr.addService less service).getService T =
      if T ∈ service.getID.chain then some service else mgr.getService T := rfl

/-- What `GetService` returns is registered, and a base of its class or that itself is what it was asked
    for. -/
def CastsToBase (s : Session) : Prop :=
  ∀ T service, s.mgr.getService T = some service →
    service ∈ s.registered ∧ T ∈ service.getID.chain

/-- What is found can be cast, after each call. -/
lemma castsToBase_step (tracked : s.Tracked) (h : s.CastsToBase) (st : Exec (step less) s a s') :
    s'.CastsToBase := by
  obtain ⟨_, -, rfl⟩ | ⟨service, -, -, rfl⟩ | ⟨id, -, rfl⟩ | ⟨-, mgr', calls, e, rfl⟩ |
    ⟨now, -, rfl⟩ | ⟨-, rfl⟩ := step_cases tracked st
  · exact h
  · intro T service' found
    rw [getService_addService] at found
    split at found
    next mem =>
      cases found
      exact ⟨List.mem_append_right _ List.mem_cons_self, mem⟩
    next =>
      obtain ⟨reg, mem⟩ := h T service' found
      exact ⟨List.mem_append_left _ reg, mem⟩
  · -- all entries for the service of the class `id` are on the chain that is erased
    intro T service' found
    change getService T (eraseFastSearch id s.mgr) = some service' at found
    rw [getService_eraseFastSearch] at found
    split at found
    next => cases found
    next off =>
      obtain ⟨reg, mem⟩ := h T service' found
      refine ⟨mem_without.mpr ⟨reg, ?_⟩, mem⟩
      rintro rfl
      exact off mem
  · obtain ⟨log, e, -⟩ := init_cases e
    obtain ⟨-, fast, -⟩ := buildDep_cases e
    intro T service found
    rw [getService, fast] at found
    exact h T service found
  · intro T service found
    rw [getService, runOnce_m_FastSearchMap] at found
    exact h T service found
  · intro T service found
    cases found

/-- Whatever is called, `GetService` returns registered services only, and the cast to the class it was
    asked for is one to the class of the service or to a base of it. -/
theorem casts_to_base_along (less : ServiceID → ServiceID → Bool) (lastTime : UInt32) (l : List Call) :
    Along (Exec (step less)) CastsToBase (init lastTime) l := by
  intro l1 s _ run
  have both : s.Tracked ∧ s.CastsToBase := by
    apply run.invariant
    · exact ⟨tracked_init lastTime, nofun⟩
    · exact fun h st => ⟨tracked_step h.1 st, castsToBase_step h.1 h.2 st⟩
  exact both.2

/-- A call that erases no entry of another service keeps them available. -/
lemma available_step (tracked : s.Tracked) (h : s.Available) (unshared : s.Unshared a)
    (st : Exec (step less) s a s') : s'.Available := by
  obtain ⟨_, -, rfl⟩ | ⟨service, -, -, rfl⟩ | ⟨id, hid, rfl⟩ | ⟨-, mgr', calls, e, rfl⟩ |
    ⟨now, -, rfl⟩ | ⟨-, rfl⟩ := step_cases tracked st
  · exact h
  · -- the new service takes over all classes of its chain
    intro T
    rw [getService_addService]
    by_cases mem : T ∈ service.getID.chain
    · rw [if_pos mem]
      exact iff_of_true rfl ⟨service, by simp, RTTI.isKindOf_iff.mpr mem⟩
    · rw [if_neg mem, h T]
      simp [or_and_right, exists_or, RTTI.isKindOf_iff, mem]
  · -- the classes of the erased chain have no other provider
    intro T
    show (getService T (eraseFastSearch id s.mgr)).isSome ↔ _
    rw [getService_eraseFastSearch]
    by_cases mem : T ∈ id.chain
    · rw [if_pos mem]
      refine iff_of_false (by simp) ?_
      intro found
      obtain ⟨service, reg, kind⟩ := found
      obtain ⟨reg, ne⟩ := mem_without.mp reg
      exact unshared id hid service reg ne T mem kind
    · rw [if_neg mem, h T]
      constructor
      · intro found
        obtain ⟨service, reg, kind⟩ := found
        refine ⟨service, mem_without.mpr ⟨reg, ?_⟩, kind⟩
        intro same
        exact mem (same ▸ RTTI.isKindOf_iff.mp kind)
      · intro found
        obtain ⟨service, reg, kind⟩ := found
        exact ⟨service, (mem_without.mp reg).1, kind⟩
  · obtain ⟨log, e, -⟩ := init_cases e
    obtain ⟨-, fast, -⟩ := buildDep_cases e
    intro T
    rw [getService, fast]
    exact h T
  · intro T
    rw [getService, runOnce_m_FastSearchMap]
    exact h T
  · simp [Available, shutDown, getService]

/-- Unregistering a class next to a registered relative makes a common base unavailable. -/
lemma not_available_step (tracked : s.Tracked) (shared : ¬ s.Unshared a)
    (st : Exec (step less) s a s') : ¬ s'.Available := by
  simp only [Unshared, not_forall, not_not] at shared
  obtain ⟨id, hid, service, reg, ne, T, mem, kind⟩ := shared
  intro h
  obtain rfl := step_unregisters tracked st hid
  have found := (h T).mpr ⟨service, mem_without.mpr ⟨reg, ne⟩, kind⟩
  rw [getService_eraseFastSearch, if_pos mem] at found
  cases found

/-- `GetService` stays exact if and only if nothing is unregistered while a service of another class
    with a class in common is registered. -/
theorem available_along_iff (less : ServiceID → ServiceID → Bool) (lastTime : UInt32)
    (l : List Call) :
    Along (Exec (step less)) Available (init lastTime) l ↔
      Meets (Exec (step less)) Unshared (init lastTime) l := by
  obtain ⟨s, run⟩ := exists_run (step_isSome less) (init lastTime) l
  apply along_iff_meets (Exec.deterministic _) run _ (tracked_init lastTime)
  · exact tracked_step
  · exact available_step
  · exact fun tracked _ shared st => not_available_step tracked shared st
  · simp [Available, init, ServiceMgr.new, getService]

/-- Of two renderers the second is still registered, but `GetService` has none. -/
theorem sibling_unavailable :
    let renderer : RTTI := .root 1 "Renderer"
    let software : Service := ⟨1, .derived 2 "Software" renderer, []⟩
    let hardware : Service := ⟨2, .derived 3 "Hardware" renderer, []⟩
    ∃ s, Run (Exec (step RTTI.less)) (init 0)
        [.registerService software, .registerService hardware, .unRegisterService software] s ∧
      s.mgr.getService renderer = none ∧ hardware ∈ s.registered ∧
        hardware.getID.isKindOf renderer = true := by
  intro renderer software hardware
  exact ⟨_, run_exec_iff.mpr rfl, by decide, by decide, by decide⟩

end Session
end XLN
