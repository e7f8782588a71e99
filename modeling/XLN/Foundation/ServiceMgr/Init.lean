import XLN.Lib.Before
import XLN.Foundation.ServiceMgr.Order
import Mathlib.Data.List.Induction

/-!
# Initialisation order

What `Init` does for a set of services registered before it. `registerAll` makes the registrations,
`PreInit` is what they establish, and `InitSpec` what `BuildDep` then makes of it. Two results about
the order of the `OnInit` calls follow: well-formed services come after everything they depend on
when no two services provide one declared id (`init_after_dependencies`), and with several providers
`GetService` finds initialised services exactly if the last registered provider is one that comes
first anyway (`dependencies_ready_iff`).
-/

namespace XLN
open Relation Graph

/-- `RegisterService` before `Init`: one service for each class id. -/
def accept (regs : List Service) (service : Service) : List Service :=
  if service.getID ∈ regs.map Service.getID then regs else regs ++ [service]

/-- The services that are registered after a sequence of calls, oldest first. -/
def accepted (services : List Service) : List Service :=
  services.foldl accept []

/-- The registered service of the class `id`, or of a class derived from it, that came last. -/
def lastProvider (regs : List Service) (id : ServiceID) : Option Service :=
  (regs.filter fun service => service.getID.isKindOf id).getLast?

namespace ServiceMap

variable (m : ServiceMap)

/-- Below `id` every declared id is provided and nothing is cyclic. -/
def WellFormed (id : ServiceID) : Prop :=
  ∀ id', ReflTransGen m.DependsOn id id' →
    (∀ depID ∈ m.deps id', ∃ t, m.Provides t depID) ∧ ¬ TransGen m.DependsOn id' id'

/-- No declared id is provided by two services. -/
def UniqueProviders : Prop :=
  ∀ id, ∀ depID ∈ m.deps id, ∀ t t', m.Provides t depID → m.Provides t' depID → t = t'

/-- Every declared id is provided by some service. -/
def AllProvided : Prop :=
  ∀ id, ∀ depID ∈ m.deps id, ∃ t, m.Provides t depID

/-- The longest chain of resolved dependencies is shorter below `id'` than below `id`, or equally
    long and `id'` comes first in the map. -/
def InitFirst (id' id : ServiceID) : Prop :=
  ∃ k n, Height m.ResolvesTo id' k ∧ Height m.ResolvesTo id n ∧
    (k < n ∨ k = n ∧ (m.map Prod.fst).Before id' id)

/-- `m_Order` of the entry of `id`. -/
def storedOrder (id : ServiceID) : Int :=
  match m.find id with
  | some info => info.m_Order
  | none => -1

/-- The order `BuildDep` gives to a service whose longest chain has length `n`. -/
def orderOf (id : ServiceID) (n : Nat) : Int :=
  if m.deps id = [] then -1 else n

variable {m} {id id' : ServiceID} {n k : Nat}

/-- A well-formed class has an order that is right for it. -/
lemma WellFormed.exists_good (wf : m.WellFormed id) : ∃ n, m.Good id n := by
  have reach : ∀ {id'}, ReflTransGen m.ResolvesTo id id' → ReflTransGen m.DependsOn id id' :=
    fun h => ReflTransGen.mono (fun _ _ res => ResolvesTo.dependsOn res) _ _ h
  apply ServiceMap.exists_good
  · exact fun id' h => (wf id' (reach h)).1
  · intro id' h cycle
    exact (wf id' (reach h)).2 (TransGen.mono (fun _ _ res => ResolvesTo.dependsOn res) _ _ cycle)

/-- With all dependencies provided and no cycle every class is well formed. -/
lemma AllProvided.wellFormed (provided : m.AllProvided) (acyclic : ∀ id, ¬ TransGen m.DependsOn id id) :
    m.WellFormed id :=
  fun id' _ => ⟨provided id', acyclic id'⟩

/-- A dependency has one provider if the entries say so. -/
lemma uniqueProviders_of_entries
    (h : ∀ e ∈ m, ∀ depID ∈ e.2.m_Dep, ∀ t ∈ m.map Prod.fst, ∀ t' ∈ m.map Prod.fst,
      t.isKindOf depID = true → t'.isKindOf depID = true → t = t') : m.UniqueProviders := by
  intro id depID hdep t t' ht ht'
  cases hfind : m.find id with
  | none => simp [deps, hfind] at hdep
  | some info =>
    rw [find_deps hfind] at hdep
    exact h _ (mem_of_find hfind) depID hdep t ht.1 t' ht'.1 ht.2 ht'.2

/-- A rank that drops along the dependencies of the services in `part` makes all of them
    well-formed. -/
lemma wellFormed_of_rank (part : ServiceID → Bool) (rank : ServiceID → Nat)
    (h : ∀ e ∈ m, part e.1 = true → ∀ depID ∈ e.2.m_Dep,
      (∃ t ∈ m.map Prod.fst, t.isKindOf depID = true) ∧
        ∀ t ∈ m.map Prod.fst, t.isKindOf depID = true → part t = true ∧ rank t < rank e.1)
    (mem : part id = true) : m.WellFormed id := by
  have entry : ∀ {id depID}, part id = true → depID ∈ m.deps id →
      (∃ t, m.Provides t depID) ∧ ∀ t, m.Provides t depID → part t = true ∧ rank t < rank id := by
    intro id depID mem hdep
    cases hfind : m.find id with
    | none => simp [deps, hfind] at hdep
    | some info =>
      rw [find_deps hfind] at hdep
      obtain ⟨⟨t, ht⟩, all⟩ := h _ (mem_of_find hfind) mem depID hdep
      exact ⟨⟨t, ht⟩, fun t ht => all t ht.1 ht.2⟩
  have down : ∀ {id id'}, part id = true → TransGen m.DependsOn id id' →
      part id' = true ∧ rank id' < rank id := by
    intro id id' mem dep
    induction dep with
    | single dep =>
      obtain ⟨depID, hdep, prov⟩ := dep
      exact (entry mem hdep).2 _ prov
    | tail _ dep ih =>
      obtain ⟨depID, hdep, prov⟩ := dep
      obtain ⟨mem', lt⟩ := (entry ih.1 hdep).2 _ prov
      exact ⟨mem', by omega⟩
  intro id' reach
  have mem' : part id' = true := by
    rcases reflTransGen_iff_eq_or_transGen.mp reach with rfl | dep
    · exact mem
    · exact (down mem dep).1
  exact ⟨fun depID hdep => (entry mem' hdep).1, fun cycle => Nat.lt_irrefl _ (down mem' cycle).2⟩

/-- A unique provider is the one that is found. -/
lemma UniqueProviders.resolvesTo (unique : m.UniqueProviders) (dep : m.DependsOn id id') :
    m.ResolvesTo id id' := by
  obtain ⟨depID, mem, prov⟩ := dep
  obtain ⟨t, res⟩ := prov.resolve
  have e := unique id depID mem _ _ prov (mem_of_resolve res)
  subst e
  exact ⟨depID, mem, res⟩

/-- A class with a positive order has dependencies. -/
lemma Good.deps_ne_nil (good : m.Good id n) (pos : 0 < n) : m.deps id ≠ [] := by
  intro leaf
  have := good.unique (good_leaf leaf)
  omega

/-- What is reached has a smaller order. -/
lemma Good.of_transGen (good : m.Good id n) (reach : TransGen m.ResolvesTo id id') :
    ∃ k, m.Good id' k ∧ k < n := by
  induction reach with
  | single res => exact good.of_resolvesTo res
  | tail _ res ih =>
    obtain ⟨k, good', lt⟩ := ih
    obtain ⟨k', good'', lt'⟩ := good'.of_resolvesTo res
    exact ⟨k', good'', by omega⟩

/-- Shorter chains get smaller orders, leaves included. -/
lemma orderOf_lt (inner : m.deps id ≠ []) (lt : k < n) : m.orderOf id' k < m.orderOf id n := by
  rw [orderOf, orderOf, if_neg inner]
  split <;> omega

/-- Orders count the same from both ends of a dependency. -/
lemma Good.orderOf_eq (good' : m.Good id' n) (good : m.Good id n) (inner : m.deps id ≠ []) :
    m.orderOf id' n = m.orderOf id n := by
  have inner' := good'.deps_ne_nil (good.pos_of_deps inner)
  rw [orderOf, orderOf, if_neg inner, if_neg inner']

/-- What is stored for a good service. -/
lemma storedOrder_of_good {m' : ServiceMap} (shape : SameShape m m') (sound : Sound m m')
    (memo : ∀ n, m.Good id n → m.deps id ≠ [] → Memo m m' id) (good : m.Good id n) :
    m'.storedOrder id = m.orderOf id n := by
  unfold storedOrder orderOf
  by_cases leaf : m.deps id = []
  · rw [if_pos leaf]
    cases hfind : m'.find id with
    | none => rfl
    | some info =>
      have hdeps : m.deps id = info.m_Dep := by rw [← shape.deps, find_deps hfind]
      exact (sound good hfind).resolve_right fun h => h.1 (hdeps ▸ leaf)
  · rw [if_neg leaf]
    obtain ⟨k, info, good', hfind, e⟩ := memo n good leaf
    rw [hfind, good.unique good']
    exact e

end ServiceMap

namespace ServiceMgr

/-- Registering `services` one after another in a new manager. -/
def registerAll (less : ServiceID → ServiceID → Bool) (lastTime : UInt32)
    (services : List Service) : ServiceMgr :=
  services.foldl (fun mgr service => (mgr.registerService less service).1) (new lastTime)

/-- A manager before `Init` that has accepted `regs`. -/
structure PreInit (mgr : ServiceMgr) (regs : List Service) : Prop where
  initialized : mgr.m_Initialized = false
  opList : mgr.m_ServiceOpList = []
  nodup : (mgr.m_Services.map Prod.fst).Nodup
  entry : ∀ e ∈ mgr.m_Services, e.2.m_Service.getID = e.1 ∧
    e.2.m_Dep = e.2.m_Service.getDependency ∧ e.2.m_Order = -1
  services : mgr.m_Services.services.Perm regs
  fast : ∀ id, mgr.m_FastSearchMap id = lastProvider regs id

variable {mgr mgr' : ServiceMgr} {regs : List Service} {service : Service}
  {less : ServiceID → ServiceID → Bool}

/-- A new manager. -/
lemma preInit_new (lastTime : UInt32) : PreInit (new lastTime) [] where
  initialized := rfl
  opList := rfl
  nodup := List.nodup_nil
  entry := by simp [new]
  services := .refl _
  fast := fun _ => rfl

/-- The classes of the map are those of the services. -/
lemma PreInit.keys (pre : PreInit mgr regs) :
    (mgr.m_Services.map Prod.fst).Perm (regs.map Service.getID) := by
  have e : mgr.m_Services.map Prod.fst = mgr.m_Services.services.map Service.getID := by
    rw [ServiceMap.services, List.map_map]
    apply List.map_congr_left
    intro e he
    exact (pre.entry e he).1.symm
  rw [e]
  exact pre.services.map _

/-- A service that was registered is in the map. -/
lemma PreInit.mem_keys (pre : PreInit mgr regs) (mem : service ∈ regs) :
    service.getID ∈ mgr.m_Services.map Prod.fst :=
  pre.keys.mem_iff.mpr (List.mem_map_of_mem mem)

/-- A service is registered if its class was. -/
lemma PreInit.registered_iff (pre : PreInit mgr regs) :
    mgr.isRegistered service = true ↔ service.getID ∈ regs.map Service.getID := by
  rw [isRegistered_iff]
  exact pre.keys.mem_iff

/-- A new service is added to both. -/
lemma PreInit.addService (pre : PreInit mgr regs) (less : ServiceID → ServiceID → Bool)
    (new : ¬ mgr.isRegistered service = true) :
    PreInit (mgr.addService less service) (regs ++ [service]) := by
  have absent := find_of_not_registered new
  let info : ServiceInfo :=
    { m_Dep := service.getDependency, m_Order := -1, m_Service := service }
  have hperm : (mgr.m_Services.assign less service.getID info).Perm
      ((service.getID, info) :: mgr.m_Services) := ServiceMap.assign_perm absent
  refine ⟨pre.initialized, ?_, ?_, ?_, ?_, ?_⟩
  · simp [ServiceMgr.addService, pre.initialized, pre.opList]
  · simp only [ServiceMgr.addService, pre.initialized, Bool.false_eq_true, if_false]
    rw [(hperm.map Prod.fst).nodup_iff, List.map_cons, List.nodup_cons]
    exact ⟨ServiceMap.find_eq_none.mp absent, pre.nodup⟩
  · intro e he
    simp only [ServiceMgr.addService, pre.initialized, Bool.false_eq_true, if_false] at he
    rcases (ServiceMap.mem_assign absent).mp he with rfl | he
    · exact ⟨rfl, rfl, rfl⟩
    · exact pre.entry e he
  · simp only [ServiceMgr.addService, pre.initialized, Bool.false_eq_true, if_false]
    refine (hperm.map fun e => e.2.m_Service).trans ?_
    rw [List.map_cons]
    exact (pre.services.cons service).trans (List.perm_append_singleton _ _).symm
  · intro id
    have hf := pre.fast id
    simp only [ServiceMgr.addService]
    by_cases hid : id ∈ service.getID.chain
    · rw [if_pos hid]
      simp [lastProvider, RTTI.isKindOf_iff.mpr hid]
    · rw [if_neg hid, hf]
      have : ¬ service.getID.isKindOf id = true := fun h => hid (RTTI.isKindOf_iff.mp h)
      simp [lastProvider, this]

/-- A service is added unless its class was registered. -/
lemma PreInit.registerService (pre : PreInit mgr regs) (less : ServiceID → ServiceID → Bool)
    (service : Service) : PreInit (mgr.registerService less service).1 (accept regs service) := by
  unfold ServiceMgr.registerService accept
  by_cases h : mgr.isRegistered service = true
  · rw [if_pos h, if_pos (pre.registered_iff.mp h)]
    exact pre
  · rw [if_neg h, if_neg fun mem => h (pre.registered_iff.mpr mem)]
    exact pre.addService less h

/-- After any registrations the manager is as they say. -/
lemma preInit_registerAll (less : ServiceID → ServiceID → Bool) (lastTime : UInt32)
    (services : List Service) :
    PreInit (registerAll less lastTime services) (accepted services) := by
  induction services using List.reverseRecOn with
  | nil => exact preInit_new lastTime
  | append_singleton services service ih =>
    rw [registerAll, accepted, List.foldl_append, List.foldl_append]
    exact ih.registerService less service

/-- What `Init` leaves and calls after the registrations `regs`, if the entries of the map have got the
    orders `order`. -/
structure OrderSpec (mgr : ServiceMgr) (regs : List Service) (order : ServiceID → Int)
    (mgr' : ServiceMgr) (calls : List Callback) : Prop where
  calls : calls = (mgr'.m_ServiceOpList.map ServiceOpInfo.m_Service).map .onInit
  fast : ∀ id, mgr'.getService id = lastProvider regs id
  perm : (mgr'.m_ServiceOpList.map ServiceOpInfo.m_Service).Perm regs
  nodup : (mgr'.m_ServiceOpList.map ServiceOpInfo.m_Service).Nodup
  before_lt : ∀ S ∈ regs, ∀ T ∈ regs, order T.getID < order S.getID →
    (mgr'.m_ServiceOpList.map ServiceOpInfo.m_Service).Before T S
  before_eq : ∀ S ∈ regs, ∀ T ∈ regs, order T.getID = order S.getID →
    (mgr.m_Services.map Prod.fst).Before T.getID S.getID →
    (mgr'.m_ServiceOpList.map ServiceOpInfo.m_Service).Before T S

/-- What `Init` leaves and calls after the registrations `regs`. -/
structure InitSpec (mgr : ServiceMgr) (regs : List Service) (mgr' : ServiceMgr)
    (calls : List Callback) : Prop where
  calls : calls = (mgr'.m_ServiceOpList.map ServiceOpInfo.m_Service).map .onInit
  fast : ∀ id, mgr'.getService id = lastProvider regs id
  perm : (mgr'.m_ServiceOpList.map ServiceOpInfo.m_Service).Perm regs
  nodup : (mgr'.m_ServiceOpList.map ServiceOpInfo.m_Service).Nodup
  before_lt : ∀ S ∈ regs, ∀ T ∈ regs, ∀ n k, mgr.m_Services.Good S.getID n →
    mgr.m_Services.Good T.getID k →
    mgr.m_Services.orderOf T.getID k < mgr.m_Services.orderOf S.getID n →
    (mgr'.m_ServiceOpList.map ServiceOpInfo.m_Service).Before T S
  before_eq : ∀ S ∈ regs, ∀ T ∈ regs, ∀ n k, mgr.m_Services.Good S.getID n →
    mgr.m_Services.Good T.getID k →
    mgr.m_Services.orderOf T.getID k = mgr.m_Services.orderOf S.getID n →
    (mgr.m_Services.map Prod.fst).Before T.getID S.getID →
    (mgr'.m_ServiceOpList.map ServiceOpInfo.m_Service).Before T S

/-- The entry pushed for a registered service. -/
lemma PreInit.exists_op (pre : PreInit mgr regs) {st : BuildState}
    (shape : ServiceMap.SameShape mgr.m_Services st.infoMap) {S : Service} (mem : S ∈ regs) :
    ∃ op ∈ st.infoMap.map opInfoOf, op.m_Service = S ∧ op.m_ServiceID = S.getID ∧
      op.m_Order = st.infoMap.storedOrder S.getID := by
  rw [← pre.services.mem_iff, ← shape.services] at mem
  obtain ⟨e, he, rfl⟩ := List.mem_map.mp mem
  obtain ⟨id, info⟩ := e
  have nodup' : (st.infoMap.map Prod.fst).Nodup := shape.keys ▸ pre.nodup
  have hfind := ServiceMap.find_of_mem nodup' he
  -- the key of the entry is still the id of its service
  have hkey : info.m_Service.getID = id := by
    have h := (shape.find : (st.infoMap.find id).map _ = _)
    rw [hfind] at h
    obtain ⟨info0, hfind0, e0⟩ := Option.map_eq_some_iff.mp h.symm
    have same : info0.m_Service = info.m_Service := congrArg Prod.snd e0
    rw [← same]
    exact (pre.entry _ (ServiceMap.mem_of_find hfind0)).1
  refine ⟨opInfoOf (id, info), List.mem_map.mpr ⟨_, he, rfl⟩, rfl, hkey.symm, ?_⟩
  rw [hkey, ServiceMap.storedOrder, hfind]
  rfl

/-- Services with distinct classes are distinct. -/
lemma nodup_of_perm_ids {l : List Service} (perm : l.Perm regs)
    (nodup : (regs.map Service.getID).Nodup) : l.Nodup := by
  rw [← (perm.map Service.getID).nodup_iff] at nodup
  exact .of_map _ nodup

/-- `Init` after registrations, whatever their dependencies. -/
lemma PreInit.init_order (pre : PreInit mgr regs) :
    ∃ st mgr' calls, buildOrders (mgr.m_Services.declared.length + 1) (mgr.m_Services.map Prod.fst)
        { infoMap := mgr.m_Services, log := [] } = some st ∧
      mgr.init = some (mgr', calls) ∧ OrderSpec mgr regs st.infoMap.storedOrder mgr' calls := by
  have shape0 : ServiceMap.SameShape mgr.m_Services mgr.m_Services := .refl
  obtain ⟨st, hst⟩ : ∃ st, buildOrders (mgr.m_Services.declared.length + 1)
      (mgr.m_Services.map Prod.fst) { infoMap := mgr.m_Services, log := [] } = some st :=
    buildOrders_isSome (Nat.lt_succ_self _) (List.Subset.refl _) shape0
  have shape := buildOrders_shape hst
  have exists_op := fun {S} => pre.exists_op shape (S := S)
  refine ⟨st, _, _, hst, by rw [init, buildDep, hst], ?_⟩
  have hperm : ((st.infoMap.map opInfoOf).map ServiceOpInfo.m_Service).Perm regs := by
    have e : (st.infoMap.map opInfoOf).map ServiceOpInfo.m_Service = mgr.m_Services.services := by
      rw [← shape.services, ServiceMap.services, List.map_map]
      rfl
    rw [e]
    exact pre.services
  have hids : ((st.infoMap.map opInfoOf).map ServiceOpInfo.m_ServiceID) =
      mgr.m_Services.map Prod.fst := by
    rw [← shape.keys, List.map_map]
    rfl
  have hsorted := hperm
  rw [← ((List.perm_insertionSort (fun op1 op2 : ServiceOpInfo => op1.m_Order ≤ op2.m_Order)
    _).map ServiceOpInfo.m_Service).congr_left] at hsorted
  have hnodup := nodup_of_perm_ids hsorted (pre.keys.nodup_iff.mp pre.nodup)
  constructor
  · rw [List.map_map]
    rfl
  · exact pre.fast
  · simpa [pre.opList] using hsorted
  · simpa [pre.opList] using hnodup
  · intro S hS T hT lt
    obtain ⟨opS, memS, rfl, -, ordS⟩ := exists_op hS
    obtain ⟨opT, memT, rfl, -, ordT⟩ := exists_op hT
    rw [← ordS, ← ordT] at lt
    simp only [pre.opList, List.nil_append]
    exact (List.before_insertionSort_of_lt memT memS lt).map _
  · intro S hS T hT e h
    obtain ⟨opS, memS, rfl, idS, ordS⟩ := exists_op hS
    obtain ⟨opT, memT, rfl, idT, ordT⟩ := exists_op hT
    rw [← ordS, ← ordT] at e
    rw [← idS, ← idT, ← hids] at h
    simp only [pre.opList, List.nil_append]
    exact (List.before_insertionSort_of_eq (.of_map (hids ▸ pre.nodup) memT memS h) e).map _

/-- `Init` after registrations whose dependencies never lead back. -/
lemma PreInit.init_spec (pre : PreInit mgr regs) (back : mgr.m_Services.NoBack) :
    ∃ mgr' calls, mgr.init = some (mgr', calls) ∧ InitSpec mgr regs mgr' calls := by
  obtain ⟨st, mgr', calls, hst, e, spec⟩ := pre.init_order
  have sound0 : ServiceMap.Sound mgr.m_Services mgr.m_Services := by
    intro id n info _ hfind
    exact .inl (pre.entry _ (ServiceMap.mem_of_find hfind)).2.2
  obtain ⟨shape, sound, -, memo⟩ := buildOrders_spec back hst (List.Subset.refl _) .refl sound0
  have order : ∀ {S}, S ∈ regs → ∀ n, mgr.m_Services.Good S.getID n →
      st.infoMap.storedOrder S.getID = mgr.m_Services.orderOf S.getID n :=
    fun mem n good => ServiceMap.storedOrder_of_good shape sound (memo _ (pre.mem_keys mem)) good
  refine ⟨mgr', calls, e, spec.calls, spec.fast, spec.perm, spec.nodup, ?_, ?_⟩
  · intro S hS T hT n k goodS goodT lt
    rw [← order hS n goodS, ← order hT k goodT] at lt
    exact spec.before_lt S hS T hT lt
  · intro S hS T hT n k goodS goodT e h
    rw [← order hS n goodS, ← order hT k goodT] at e
    exact spec.before_eq S hS T hT e h

variable {calls : List Callback}

/-- A service whose dependencies are complete and acyclic comes after all of them, whatever is
    wrong with the dependencies of other services. -/
theorem init_after_dependencies (less : ServiceID → ServiceID → Bool) (lastTime : UInt32)
    (services : List Service)
    (unique : (registerAll less lastTime services).m_Services.UniqueProviders) :
    ∃ mgr' calls, (registerAll less lastTime services).init = some (mgr', calls) ∧
      calls = (mgr'.m_ServiceOpList.map ServiceOpInfo.m_Service).map .onInit ∧
      (mgr'.m_ServiceOpList.map ServiceOpInfo.m_Service).Perm (accepted services) ∧
      (mgr'.m_ServiceOpList.map ServiceOpInfo.m_Service).Nodup ∧
      ∀ S ∈ accepted services, (registerAll less lastTime services).m_Services.WellFormed S.getID →
        ∀ T ∈ accepted services,
          TransGen (registerAll less lastTime services).m_Services.DependsOn S.getID T.getID →
            (mgr'.m_ServiceOpList.map ServiceOpInfo.m_Service).Before T S := by
  have pre := preInit_registerAll less lastTime services
  obtain ⟨mgr', calls, e, spec⟩ := pre.init_spec (ServiceMap.noBack_of_unique unique)
  refine ⟨mgr', calls, e, spec.calls, spec.perm, spec.nodup, ?_⟩
  intro S hS wf T hT dep
  obtain ⟨n, goodS⟩ := wf.exists_good
  have reach := TransGen.mono (fun _ _ dep => unique.resolvesTo dep) _ _ dep
  obtain ⟨k, goodT, lt⟩ := goodS.of_transGen reach
  apply spec.before_lt S hS T hT n k goodS goodT
  exact ServiceMap.orderOf_lt (goodS.deps_ne_nil (by omega)) lt

/-- A registry with a missing and a cyclic dependency: `Config` before `Network`, which needs it. -/
theorem init_after_dependencies_broken :
    let config : Service := ⟨1, .root 4 "Config", []⟩
    let network : Service := ⟨2, .root 1 "Network", [.root 4 "Config"]⟩
    let sound : Service := ⟨3, .root 2 "Sound", [.root 9 "Mixer"]⟩
    let script : Service := ⟨4, .root 3 "Script", [.root 3 "Script"]⟩
    ∃ mgr' calls, (registerAll RTTI.less 0 [network, sound, script, config]).init =
        some (mgr', calls) ∧
      (mgr'.m_ServiceOpList.map ServiceOpInfo.m_Service).Before config network := by
  intro config network sound script
  have unique : (registerAll RTTI.less 0 [network, sound, script, config]).m_Services.UniqueProviders :=
    ServiceMap.uniqueProviders_of_entries (by decide)
  have wf : (registerAll RTTI.less 0 [network, sound, script, config]).m_Services.WellFormed
      network.getID := by
    apply ServiceMap.wellFormed_of_rank (fun id => id = config.getID ∨ id = network.getID)
      (fun id => if id = network.getID then 1 else 0)
    · decide
    · decide
  obtain ⟨mgr', calls, e, -, -, -, order⟩ :=
    init_after_dependencies RTTI.less 0 [network, sound, script, config] unique
  refine ⟨mgr', calls, e, order network (by decide) wf config (by decide) (.single ?_)⟩
  exact ⟨config.getID, by decide, by decide, by decide⟩

/-! ## Several providers -/

/-- The last provider was registered and is of the kind. -/
lemma lastProvider_spec {depID : ServiceID} {g : Service} (h : lastProvider regs depID = some g) :
    g ∈ regs ∧ g.getID.isKindOf depID = true :=
  List.mem_filter.mp (List.mem_of_getLast? h)

/-- Where a service is of the kind there is a last one. -/
lemma exists_lastProvider {depID : ServiceID} (mem : service ∈ regs)
    (kind : service.getID.isKindOf depID = true) : ∃ g, lastProvider regs depID = some g := by
  have ne : regs.filter (fun service => service.getID.isKindOf depID) ≠ [] :=
    List.ne_nil_of_mem (List.mem_filter.mpr ⟨mem, kind⟩)
  exact ⟨_, List.getLast?_eq_some_getLast ne⟩

/-- The dependencies of a registered service are those it declares. -/
lemma PreInit.deps (pre : PreInit mgr regs) (mem : service ∈ regs) :
    mgr.m_Services.deps service.getID = service.getDependency := by
  obtain ⟨e, he, rfl⟩ := List.mem_map.mp (pre.services.mem_iff.mpr mem)
  obtain ⟨key, dep, -⟩ := pre.entry e he
  rw [key, ServiceMap.find_deps (ServiceMap.find_of_mem pre.nodup he), dep]

/-- Whenever `Init` calls an `OnInit`, the services that `GetService` returns for the declared ids
    have had theirs. -/
def DependenciesReady (mgr : ServiceMgr) : Prop :=
  ∀ mgr' calls, mgr.init = some (mgr', calls) →
    ∀ S called rest, calls = called ++ .onInit S :: rest →
      ∀ depID ∈ S.getDependency, ∃ g, mgr'.getService depID = some g ∧ .onInit g ∈ called

/-- Readiness in terms of the operation list. -/
lemma InitSpec.ready_iff (spec : InitSpec mgr regs mgr' calls)
    (e : mgr.init = some (mgr', calls)) :
    mgr.DependenciesReady ↔ ∀ S ∈ regs, ∀ depID ∈ S.getDependency,
      ∃ g, lastProvider regs depID = some g ∧
        (mgr'.m_ServiceOpList.map ServiceOpInfo.m_Service).Before g S := by
  have nodup : calls.Nodup := by
    rw [spec.calls]
    exact spec.nodup.map fun _ _ => Callback.onInit.inj
  have mem_calls : ∀ {S}, .onInit S ∈ calls ↔ S ∈ regs := by
    intro S
    rw [spec.calls, List.mem_map_of_injective fun _ _ => Callback.onInit.inj]
    exact spec.perm.mem_iff
  constructor
  · intro ready S hS depID hdep
    obtain ⟨called, rest, split⟩ := List.append_of_mem (mem_calls.mpr hS)
    obtain ⟨g, hg, before⟩ := ready mgr' calls e S called rest split depID hdep
    rw [spec.fast] at hg
    refine ⟨g, hg, ?_⟩
    rw [split] at nodup
    have before := (List.before_iff_mem_left nodup).mpr before
    rw [← split, spec.calls] at before
    apply List.Before.of_map _ _ _ before
    · rw [← spec.calls, split]
      exact nodup
    · exact spec.perm.mem_iff.mpr (lastProvider_spec hg).1
    · exact spec.perm.mem_iff.mpr hS
  · intro order mgr1 calls1 e1 S called rest split depID hdep
    rw [e] at e1
    cases e1
    have hS : S ∈ regs := mem_calls.mp (by simp [split])
    obtain ⟨g, hg, before⟩ := order S hS depID hdep
    refine ⟨g, by rw [spec.fast, hg], ?_⟩
    have before := before.map Callback.onInit
    rw [← spec.calls, split] at before
    rw [split] at nodup
    exact (List.before_iff_mem_left nodup).mp before

/-- Two good services, one of them with dependencies, are initialised in the order of their
    heights, then of the map. -/
lemma InitSpec.before_iff (spec : InitSpec mgr regs mgr' calls) (pre : PreInit mgr regs)
    {S T : Service} (hS : S ∈ regs) (hT : T ∈ regs) {n k : Nat}
    (goodS : mgr.m_Services.Good S.getID n) (goodT : mgr.m_Services.Good T.getID k)
    (inner : mgr.m_Services.deps S.getID ≠ []) (ne : T.getID ≠ S.getID) :
    (mgr'.m_ServiceOpList.map ServiceOpInfo.m_Service).Before T S ↔
      mgr.m_Services.InitFirst T.getID S.getID := by
  have comes_first : (k < n ∨ k = n ∧ (mgr.m_Services.map Prod.fst).Before T.getID S.getID) →
      (mgr'.m_ServiceOpList.map ServiceOpInfo.m_Service).Before T S := by
    intro h
    cases h with
    | inl lt => exact spec.before_lt S hS T hT n k goodS goodT (ServiceMap.orderOf_lt inner lt)
    | inr h =>
      obtain ⟨rfl, before⟩ := h
      exact spec.before_eq S hS T hT _ _ goodS goodT (goodT.orderOf_eq goodS inner) before
  constructor
  · intro before
    refine ⟨k, n, goodT.height, goodS.height, ?_⟩
    by_contra h
    rw [not_or, not_lt] at h
    have after : (mgr'.m_ServiceOpList.map ServiceOpInfo.m_Service).Before S T := by
      rcases Nat.lt_or_eq_of_le h.1 with lt | rfl
      · have innerT := goodT.deps_ne_nil (by omega)
        exact spec.before_lt T hT S hS k n goodT goodS (ServiceMap.orderOf_lt innerT lt)
      · have swap := (List.Before.or ne (pre.mem_keys hT) (pre.mem_keys hS)).resolve_left
          fun before => h.2 ⟨rfl, before⟩
        exact spec.before_eq T hT S hS _ _ goodT goodS (goodT.orderOf_eq goodS inner).symm swap
    exact before.asymm spec.nodup after
  · rintro ⟨k', n', hk, hn, h⟩
    cases goodT.height.unique hk
    cases goodS.height.unique hn
    exact comes_first h

/-- With every id provided and no cycle among the possible dependencies, `Init` finds what each
    service needs initialised exactly if the last registered provider of a declared id always comes
    first in the order of the first-match dependencies. -/
theorem dependencies_ready_iff (less : ServiceID → ServiceID → Bool) (lastTime : UInt32)
    (services : List Service)
    (provided : (registerAll less lastTime services).m_Services.AllProvided)
    (acyclic : ∀ id, ¬ TransGen (registerAll less lastTime services).m_Services.DependsOn id id) :
    (registerAll less lastTime services).DependenciesReady ↔
      ∀ S ∈ accepted services, ∀ depID ∈ S.getDependency, ∀ g,
        lastProvider (accepted services) depID = some g →
          (registerAll less lastTime services).m_Services.InitFirst g.getID S.getID := by
  have pre := preInit_registerAll less lastTime services
  obtain ⟨mgr', calls, e, spec⟩ := pre.init_spec (ServiceMap.noBack_of_acyclic acyclic)
  have order : ∀ S ∈ accepted services, ∀ depID ∈ S.getDependency, ∀ g,
      lastProvider (accepted services) depID = some g →
        ((mgr'.m_ServiceOpList.map ServiceOpInfo.m_Service).Before g S ↔
          (registerAll less lastTime services).m_Services.InitFirst g.getID S.getID) := by
    intro S hS depID hdep g hg
    obtain ⟨memg, kind⟩ := lastProvider_spec hg
    rw [← pre.deps hS] at hdep
    have wf : ∀ id, (registerAll less lastTime services).m_Services.WellFormed id :=
      fun _ => provided.wellFormed acyclic
    obtain ⟨n, goodS⟩ := (wf S.getID).exists_good
    obtain ⟨k, goodg⟩ := (wf g.getID).exists_good
    apply spec.before_iff pre hS memg goodS goodg (List.ne_nil_of_mem hdep)
    intro same
    apply acyclic S.getID
    exact .single ⟨depID, hdep, pre.mem_keys hS, same ▸ kind⟩
  rw [spec.ready_iff e]
  constructor
  · intro ready S hS depID hdep g hg
    obtain ⟨g', hg', before⟩ := ready S hS depID hdep
    rw [hg] at hg'
    cases hg'
    exact (order S hS depID hdep g hg).mp before
  · intro first S hS depID hdep
    obtain ⟨t, ht⟩ := provided S.getID depID (pre.deps hS ▸ hdep)
    obtain ⟨p, hp, rfl⟩ := List.mem_map.mp (pre.keys.mem_iff.mp ht.1)
    obtain ⟨g, hg⟩ := exists_lastProvider hp ht.2
    exact ⟨g, hg, (order S hS depID hdep g hg).mpr (first S hS depID hdep g hg)⟩

/-- The statement above where the provider that is registered last comes last in the map. -/
theorem dependencies_ready_iff_two_readers :
    let reader : RTTI := .root 10 "Reader"
    let file : Service := ⟨1, .derived 1 "File" reader, []⟩
    let network : Service := ⟨2, .derived 2 "Network" reader, []⟩
    let loader : Service := ⟨3, .root 3 "Loader", [reader]⟩
    let services := [loader, file, network]
    (registerAll RTTI.less 0 services).DependenciesReady ↔
      ∀ S ∈ accepted services, ∀ depID ∈ S.getDependency, ∀ g,
        lastProvider (accepted services) depID = some g →
          (registerAll RTTI.less 0 services).m_Services.InitFirst g.getID S.getID := by
  intro reader file network loader services
  have wf : ∀ id, (registerAll RTTI.less 0 services).m_Services.WellFormed id := by
    intro id
    apply ServiceMap.wellFormed_of_rank (fun _ => true)
      (fun id => if id = loader.getID then 1 else 0)
    · decide
    · rfl
  exact dependencies_ready_iff RTTI.less 0 services (fun id => (wf id id .refl).1)
    fun id => (wf id id .refl).2

/-- `GetService` returns `Network`, the second reader to be registered, while `BuildDep` resolves to
    `File`; `Network` waits for `Socket` and is initialised after `Loader`. -/
theorem dependencies_not_ready :
    let reader : RTTI := .root 10 "Reader"
    let file : Service := ⟨1, .derived 1 "File" reader, []⟩
    let network : Service := ⟨2, .derived 3 "Network" reader, [.root 4 "Socket"]⟩
    let socket : Service := ⟨3, .root 4 "Socket", []⟩
    let loader : Service := ⟨4, .root 2 "Loader", [reader]⟩
    let mgr := registerAll RTTI.less 0 [file, network, socket, loader]
    mgr.m_Services.AllProvided ∧ (∀ id, ¬ TransGen mgr.m_Services.DependsOn id id) ∧
      ¬ mgr.DependenciesReady := by
  intro reader file network socket loader mgr
  have wf : ∀ id, mgr.m_Services.WellFormed id := by
    intro id
    apply ServiceMap.wellFormed_of_rank (fun _ => true)
      (fun id => if id = loader.getID then 2 else if id = network.getID then 1 else 0)
    · decide
    · rfl
  refine ⟨fun id => (wf id id .refl).1, fun id => (wf id id .refl).2, fun ready => ?_⟩
  have run : mgr.init.map (fun r => (r.1.getService reader, r.2)) = some (some network,
      [.onInit file, .onInit socket, .onInit loader, .onInit network]) := by decide
  obtain ⟨⟨mgr', calls⟩, e, run⟩ := Option.map_eq_some_iff.mp run
  simp only [Prod.mk.injEq] at run
  obtain ⟨hfast, rfl⟩ := run
  obtain ⟨g, hg, called⟩ := ready mgr' _ e loader [.onInit file, .onInit socket]
    [.onInit network] rfl reader (by decide)
  rw [hfast] at hg
  cases hg
  revert called
  decide

end ServiceMgr
end XLN
