import XLN.Utility.RTTI
import Mathlib.Data.List.Basic
import Mathlib.Data.List.Nodup
import Mathlib.Logic.Function.Basic

/-!
# The service manager

`Core/Foundation/ServiceMgr.h` and `.cpp`: the three containers of a `ServiceMgr` and the calls that
do not build the dependency order. `m_Services` is a `std::map` over the addresses of the class
descriptors; it is kept as the list of its entries in iteration order, and `less` is the order of
these addresses, about which nothing is assumed. Calls that run service callbacks return them in the
order in which they run, for callbacks that do not call back into the manager.
-/

namespace XLN

abbrev ServiceID := RTTI

/-- A service instance: its address, its class, and what its `GetDependency` appends. -/
structure Service where
  address : Nat
  getID : ServiceID
  getDependency : List ServiceID
  deriving DecidableEq

/-- `ServiceMgr::ServiceInfo`. -/
structure ServiceInfo where
  m_Dep : List ServiceID
  m_Order : Int
  m_Service : Service
  deriving DecidableEq

/-- `ServiceMgr::ServiceOpInfo`. -/
structure ServiceOpInfo where
  m_ServiceID : ServiceID
  m_Order : Int
  m_Priority : Int
  m_Service : Service
  deriving DecidableEq

/-- `std::map<ServiceID, ServiceInfo>`, its entries in iteration order. -/
abbrev ServiceMap := List (ServiceID × ServiceInfo)

namespace ServiceMap

/-- `std::map::find`. -/
def find : ServiceMap → ServiceID → Option ServiceInfo
  | [], _ => none
  | (key, info) :: m, id => if key = id then some info else find m id

/-- Puts a new entry where the order of the keys has it. -/
def insert (less : ServiceID → ServiceID → Bool) (id : ServiceID) (info : ServiceInfo) :
    ServiceMap → ServiceMap
  | [] => [(id, info)]
  | e :: m => if less id e.1 then (id, info) :: e :: m else e :: insert less id info m

/-- `m[id] = info`. -/
def assign (less : ServiceID → ServiceID → Bool) (id : ServiceID) (info : ServiceInfo)
    (m : ServiceMap) : ServiceMap :=
  if (m.find id).isSome then m.map fun e => if e.1 = id then (id, info) else e
  else m.insert less id info

/-- `std::map::erase`. -/
def erase (m : ServiceMap) (id : ServiceID) : ServiceMap :=
  m.filter fun e => e.1 ≠ id

/-- The services of a map. -/
def services (m : ServiceMap) : List Service :=
  m.map fun e => e.2.m_Service

variable {m : ServiceMap} {id id' : ServiceID} {info : ServiceInfo} {e : ServiceID × ServiceInfo}
  {less : ServiceID → ServiceID → Bool}

/-- A class that is not in the map is not found. -/
lemma find_eq_none : m.find id = none ↔ id ∉ m.map Prod.fst := by
  induction m with
  | nil => simp [find]
  | cons e m ih =>
    obtain ⟨key, info⟩ := e
    by_cases h : key = id
    · simp [find, h]
    · simp [find, h, ih, Ne.symm h]

/-- A class of the map is found. -/
lemma find_isSome : (m.find id).isSome ↔ id ∈ m.map Prod.fst := by
  rw [← not_iff_not, ← find_eq_none]
  simp

/-- What is found is in the map. -/
lemma mem_of_find (h : m.find id = some info) : (id, info) ∈ m := by
  induction m with
  | nil => cases h
  | cons e m ih =>
    obtain ⟨key, info'⟩ := e
    by_cases hk : key = id
    · simp only [find, if_pos hk, Option.some.injEq] at h
      simp [hk, h]
    · simp only [find, if_neg hk] at h
      exact List.mem_cons_of_mem _ (ih h)

/-- An entry of a map with distinct classes is found. -/
lemma find_of_mem (nodup : (m.map Prod.fst).Nodup) (h : (id, info) ∈ m) : m.find id = some info := by
  induction m with
  | nil => cases h
  | cons e m ih =>
    obtain ⟨key, info'⟩ := e
    rw [List.map_cons, List.nodup_cons] at nodup
    rcases List.mem_cons.mp h with h | h
    · cases h
      simp [find]
    · have hk : key ≠ id := by
        rintro rfl
        exact nodup.1 (List.mem_map.mpr ⟨_, h, rfl⟩)
      rw [find, if_neg hk]
      exact ih nodup.2 h

/-- `insert` adds an entry. -/
lemma insert_perm : (m.insert less id info).Perm ((id, info) :: m) := by
  induction m with
  | nil => exact .refl _
  | cons e m ih =>
    unfold insert
    split
    · exact .refl _
    · exact (ih.cons e).trans (.swap _ _ _)

/-- Assigning to an absent key adds one entry. -/
lemma assign_perm (absent : m.find id = none) :
    (m.assign less id info).Perm ((id, info) :: m) := by
  rw [assign, absent]
  exact insert_perm

/-- Assigning to a new class adds an entry. -/
lemma mem_assign (absent : m.find id = none) :
    e ∈ m.assign less id info ↔ e = (id, info) ∨ e ∈ m := by
  rw [(assign_perm absent).mem_iff, List.mem_cons]

/-- Erasing a class that is not there does nothing. -/
lemma erase_of_find_eq_none (absent : m.find id = none) : m.erase id = m := by
  apply List.filter_eq_self.mpr
  intro e he
  have ne : e.1 ≠ id := fun h => find_eq_none.mp absent (List.mem_map.mpr ⟨e, he, h⟩)
  simpa using ne

/-- `erase` takes out the entries of the class. -/
lemma mem_erase : e ∈ m.erase id ↔ e ∈ m ∧ e.1 ≠ id := by
  simp [erase]

end ServiceMap

/-- `XCr::ServiceMgr`. `m_LastTime` is the tick `RunOnce` read last. -/
structure ServiceMgr where
  m_Services : ServiceMap
  m_FastSearchMap : ServiceID → Option Service
  m_ServiceOpList : List ServiceOpInfo
  m_Initialized : Bool
  m_LastTime : UInt32

/-- What a call of the manager does to a service. -/
inductive Callback where
  | onPreInit (service : Service)
  | onInit (service : Service)
  | onTick (service : Service) (delta : UInt32)
  | onRender (service : Service)
  | onDestroy (service : Service)
  | delete (service : Service)
  deriving DecidableEq

namespace ServiceMgr

/-- The constructor, at tick `lastTime`. -/
def new (lastTime : UInt32) : ServiceMgr where
  m_Services := []
  m_FastSearchMap := fun _ => none
  m_ServiceOpList := []
  m_Initialized := false
  m_LastTime := lastTime

/-- The test at the head of `RegisterService`. -/
def isRegistered (mgr : ServiceMgr) (service : Service) : Bool :=
  (mgr.m_Services.find service.getID).isSome

/-- The part of `RegisterService` after the callbacks. A late service enters the operation list with
    the order `numeric_limits<Int32>::infinity()`, which is 0. -/
def addService (less : ServiceID → ServiceID → Bool) (service : Service) (mgr : ServiceMgr) :
    ServiceMgr :=
  let id := service.getID
  { mgr with
    m_ServiceOpList :=
      if mgr.m_Initialized then
        mgr.m_ServiceOpList ++
          [{ m_ServiceID := id, m_Order := 0, m_Priority := -1, m_Service := service }]
      else mgr.m_ServiceOpList
    m_Services := mgr.m_Services.assign less id
      { m_Dep := service.getDependency
        m_Order := if mgr.m_Initialized then 0 else -1
        m_Service := service }
    m_FastSearchMap := fun key =>
      if key ∈ id.chain then some service else mgr.m_FastSearchMap key }

/-- `ServiceMgr::RegisterService`. -/
def registerService (less : ServiceID → ServiceID → Bool) (service : Service) (mgr : ServiceMgr) :
    ServiceMgr × List Callback :=
  if mgr.isRegistered service then (mgr, [])
  else
    (mgr.addService less service,
      .onPreInit service :: if mgr.m_Initialized then [.onInit service] else [])

/-- The loop at the end of both `UnRegisterService` functions. -/
def eraseFastSearch (id : ServiceID) (mgr : ServiceMgr) : ServiceMgr :=
  { mgr with m_FastSearchMap := fun key => if key ∈ id.chain then none else mgr.m_FastSearchMap key }

/-- `ServiceMgr::UnRegisterService(Service*)`. -/
def unRegisterService (service : Service) (mgr : ServiceMgr) : ServiceMgr :=
  eraseFastSearch service.getID { mgr with m_Services := mgr.m_Services.erase service.getID }

/-- `ServiceMgr::UnRegisterService<T>()` for the class `id`. The entry is erased before `delete` reads the
    service out of it, and `~ServiceInfo` has set the pointer to null by then: nothing is deleted. -/
def unRegisterServiceT (id : ServiceID) (mgr : ServiceMgr) : ServiceMgr × List Callback :=
  match mgr.m_Services.find id with
  | some _ => (eraseFastSearch id { mgr with m_Services := mgr.m_Services.erase id }, [])
  | none => (eraseFastSearch id mgr, [])

/-- `ServiceMgr::GetService<T>()` for the class `id`. -/
def getService (id : ServiceID) (mgr : ServiceMgr) : Option Service :=
  mgr.m_FastSearchMap id

/-- `ServiceMgr::RunOnce` at tick `now`; `OnTick` gets the difference in milliseconds. -/
def runOnce (now : UInt32) (mgr : ServiceMgr) : ServiceMgr × List Callback :=
  if mgr.m_Initialized then
    ({ mgr with m_LastTime := now },
      mgr.m_ServiceOpList.map (fun op => .onTick op.m_Service (now - mgr.m_LastTime)) ++
        mgr.m_ServiceOpList.map (fun op => .onRender op.m_Service))
  else (mgr, [])

/-- `ServiceMgr::ShutDown`. -/
def shutDown (mgr : ServiceMgr) : ServiceMgr × List Callback :=
  ({ mgr with m_Services := [], m_FastSearchMap := fun _ => none, m_ServiceOpList := [] },
    mgr.m_ServiceOpList.reverse.flatMap fun op => [.onDestroy op.m_Service, .delete op.m_Service])

variable {mgr : ServiceMgr} {service : Service} {less : ServiceID → ServiceID → Bool}

/-- A service is registered if its class is in the map. -/
lemma isRegistered_iff :
    mgr.isRegistered service = true ↔ service.getID ∈ mgr.m_Services.map Prod.fst :=
  ServiceMap.find_isSome

/-- The class of a service that is not registered is not found. -/
lemma find_of_not_registered (h : ¬ mgr.isRegistered service = true) :
    mgr.m_Services.find service.getID = none := by
  simpa [isRegistered] using h

/-- Where nothing is registered there is nothing to erase. -/
lemma unRegisterServiceT_fst {id : ServiceID} : (mgr.unRegisterServiceT id).1 =
    eraseFastSearch id { mgr with m_Services := mgr.m_Services.erase id } := by
  unfold unRegisterServiceT
  cases h : mgr.m_Services.find id with
  | some info => rfl
  | none => rw [ServiceMap.erase_of_find_eq_none h]

section RunOnce
variable {now : UInt32}

/-- `RunOnce` leaves the services. -/
@[simp] lemma runOnce_m_Services : (mgr.runOnce now).1.m_Services = mgr.m_Services := by
  unfold runOnce; split <;> rfl

/-- `RunOnce` leaves the search map. -/
@[simp] lemma runOnce_m_FastSearchMap :
    (mgr.runOnce now).1.m_FastSearchMap = mgr.m_FastSearchMap := by
  unfold runOnce; split <;> rfl

/-- `RunOnce` leaves the operation list. -/
@[simp] lemma runOnce_m_ServiceOpList :
    (mgr.runOnce now).1.m_ServiceOpList = mgr.m_ServiceOpList := by
  unfold runOnce; split <;> rfl

end RunOnce

end ServiceMgr
end XLN
