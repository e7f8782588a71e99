import XLN.Foundation.ServiceMgr.Basic
import Mathlib.Data.List.Sort
import Mathlib.Data.List.Perm.Basic
import Mathlib.Logic.Relation

/-!
# Building the operation order

`RecurrsiveBuildDep`, `ServiceMgr::BuildDep` and `ServiceMgr::Init` of `ServiceMgr.cpp`. The
recursion memoises into `ServiceInfo::m_Order`, where -1 stands for "not computed", for "leaf" and
for "error" alike, so it threads the map. It has no measure of its own; `recurrsiveBuildDep` takes
fuel, and `buildDep_isSome` shows that the fuel `buildDep` passes never runs out, because the ids on
`parentIDs` are distinct declared ids.
-/

namespace XLN
open Relation

/-- The two messages `RecurrsiveBuildDep` logs with `XLN_LOGE`. -/
inductive BuildDepError where
  | acyclicDependencies
  | notRegistered (serviceName : String)
  deriving DecidableEq

/-- What `RecurrsiveBuildDep` writes to: the map and the log. -/
structure BuildState where
  infoMap : ServiceMap
  log : List BuildDepError

namespace ServiceMap

/-- The `find_if` of `RecurrsiveBuildDep`: the first key that is `depID` or derives from it. -/
def resolve (m : ServiceMap) (depID : ServiceID) : Option ServiceID :=
  (m.find? fun e => e.1.isKindOf depID).map Prod.fst

/-- `info.m_Order = order` for the entry of `id`. -/
def setOrder (id : ServiceID) (order : Int) (m : ServiceMap) : ServiceMap :=
  m.map fun e => if e.1 = id then (e.1, { e.2 with m_Order := order }) else e

/-- `m_Dep` of the entry of `id`. -/
def deps (m : ServiceMap) (id : ServiceID) : List ServiceID :=
  match m.find id with
  | some info => info.m_Dep
  | none => []

/-- All declared ids. -/
def declared (m : ServiceMap) : List ServiceID :=
  m.flatMap fun e => e.2.m_Dep

end ServiceMap

/-- The loop over `dep` in `RecurrsiveBuildDep`, with the recursive call passed in. `none` in the
    first component is one of the two early `return -1`. -/
def depLoop (recurse : List ServiceID → ServiceID → BuildState → Option (Int × BuildState))
    (parentIDs : List ServiceID) (service : Service) :
    List ServiceID → Int → BuildState → Option (Option Int × BuildState)
  | [], maxDep, st => some (some maxDep, st)
  | depID :: dep, maxDep, st =>
    if depID ∈ parentIDs then
      some (none, { st with log := st.log ++ [.acyclicDependencies] })
    else
      match st.infoMap.resolve depID with
      | some id =>
        match recurse (parentIDs ++ [depID]) id st with
        | some (order, st') =>
          depLoop recurse parentIDs service dep (max maxDep (1 + order)) st'
        | none => none
      | none =>
        some (none, { st with log := st.log ++ [.notRegistered service.getID.getName] })

/-- `RecurrsiveBuildDep(parentIDs, infoMap[id], infoMap)`. -/
def recurrsiveBuildDep :
    Nat → List ServiceID → ServiceID → BuildState → Option (Int × BuildState)
  | 0, _, _, _ => none
  | fuel + 1, parentIDs, id, st =>
    match st.infoMap.find id with
    | none => none
    | some info =>
      if info.m_Order ≠ -1 then some (info.m_Order, st)
      else if info.m_Dep = [] then some (0, st)
      else
        match depLoop (recurrsiveBuildDep fuel) parentIDs info.m_Service info.m_Dep (-1) st with
        | none => none
        | some (none, st') => some (-1, st')
        | some (some maxDep, st') =>
          some (maxDep, { st' with infoMap := st'.infoMap.setOrder id maxDep })

/-- The first loop of `BuildDep`. -/
def buildOrders (fuel : Nat) : List ServiceID → BuildState → Option BuildState
  | [], st => some st
  | id :: ids, st =>
    match recurrsiveBuildDep fuel [id] id st with
    | some (_, st') => buildOrders fuel ids st'
    | none => none

/-- The entry `BuildDep` pushes for a registered service. -/
def opInfoOf (e : ServiceID × ServiceInfo) : ServiceOpInfo where
  m_ServiceID := e.1
  m_Order := e.2.m_Order
  m_Priority := -1
  m_Service := e.2.m_Service

namespace ServiceMgr

/-- `ServiceMgr::BuildDep`; `std::list::sort` is stable and compares `m_Order`. -/
def buildDep (mgr : ServiceMgr) : Option (ServiceMgr × List BuildDepError) :=
  match buildOrders (mgr.m_Services.declared.length + 1) (mgr.m_Services.map Prod.fst)
      { infoMap := mgr.m_Services, log := [] } with
  | none => none
  | some st =>
    some ({ mgr with
      m_Services := st.infoMap
      m_ServiceOpList := (mgr.m_ServiceOpList ++ st.infoMap.map opInfoOf).insertionSort
        fun op1 op2 => op1.m_Order ≤ op2.m_Order }, st.log)

/-- `ServiceMgr::Init`. -/
def init (mgr : ServiceMgr) : Option (ServiceMgr × List Callback) :=
  match buildDep { mgr with m_Initialized := true } with
  | none => none
  | some (mgr', _) => some (mgr', mgr'.m_ServiceOpList.map fun op => .onInit op.m_Service)

end ServiceMgr

/-- A dependency is resolved to the first class that is of its kind. -/
lemma ServiceMap.resolve_eq {m : ServiceMap} {depID : ServiceID} :
    m.resolve depID = (m.map Prod.fst).find? fun id => id.isKindOf depID := by
  rw [ServiceMap.resolve, List.find?_map]
  rfl

/-! ## The recursion leaves everything but `m_Order` alone -/

/-- Two maps with the same keys, dependencies and services in the same order. -/
def ServiceMap.SameShape (m m' : ServiceMap) : Prop :=
  m'.map (fun e => (e.1, e.2.m_Dep, e.2.m_Service)) =
    m.map (fun e => (e.1, e.2.m_Dep, e.2.m_Service))

namespace ServiceMap.SameShape

variable {m m' m'' : ServiceMap} {id : ServiceID}

/-- A map has its own shape. -/
lemma refl : SameShape m m := rfl

/-- Maps of one shape have it in common. -/
lemma trans (h1 : SameShape m m') (h2 : SameShape m' m'') : SameShape m m'' :=
  Eq.trans h2 h1

/-- The shape keeps the classes. -/
lemma keys (h : SameShape m m') : m'.map Prod.fst = m.map Prod.fst := by
  have := congrArg (List.map Prod.fst) h
  simpa only [List.map_map, Function.comp_def] using this

/-- The shape keeps the services. -/
lemma services (h : SameShape m m') : m'.services = m.services := by
  have := congrArg (List.map fun e => e.2.2) h
  simpa only [List.map_map, Function.comp_def, ServiceMap.services] using this

/-- The shape keeps the dependencies that are declared. -/
lemma declared (h : SameShape m m') : m'.declared = m.declared := by
  have := congrArg (List.flatMap fun e => e.2.1) h
  simpa only [List.flatMap_map, ServiceMap.declared] using this

/-- Each entry has one of the same class and service. -/
lemma exists_entry {e : ServiceID × ServiceInfo} (h : SameShape m m') (he : e ∈ m') :
    ∃ e0 ∈ m, e0.1 = e.1 ∧ e0.2.m_Service = e.2.m_Service := by
  have mem : (e.1, e.2.m_Dep, e.2.m_Service) ∈ m'.map fun e => (e.1, e.2.m_Dep, e.2.m_Service) :=
    List.mem_map.mpr ⟨e, he, rfl⟩
  rw [h] at mem
  obtain ⟨e0, he0, same⟩ := List.mem_map.mp mem
  simp only [Prod.mk.injEq] at same
  exact ⟨e0, he0, same.1, same.2.2⟩

/-- `m_Order` is not part of the shape. -/
lemma setOrder (order : Int) : SameShape m (m.setOrder id order) := by
  unfold SameShape ServiceMap.setOrder
  rw [List.map_map]
  apply List.map_congr_left
  intro e _
  by_cases h : e.1 = id <;> simp [h]

/-- The shape keeps what is found, apart from `m_Order`. -/
lemma find : ∀ {m m' : ServiceMap}, SameShape m m' →
    (m'.find id).map (fun i => (i.m_Dep, i.m_Service)) =
      (m.find id).map fun i => (i.m_Dep, i.m_Service)
  | [], [], _ => rfl
  | [], _ :: _, h => by cases h
  | _ :: _, [], h => by cases h
  | (key, info) :: m, (key', info') :: m', h => by
    simp only [SameShape, List.map_cons, List.cons.injEq, Prod.mk.injEq] at h
    obtain ⟨⟨rfl, e1, e2⟩, h⟩ := h
    by_cases hk : key' = id
    · simp [ServiceMap.find, hk, e1, e2]
    · simp only [ServiceMap.find, if_neg hk]
      exact SameShape.find h

/-- The shape keeps the dependencies of each class. -/
lemma deps (h : SameShape m m') : m'.deps id = m.deps id := by
  have : (m'.find id).map (fun i => (i.m_Dep, i.m_Service)) =
      (m.find id).map fun i => (i.m_Dep, i.m_Service) := h.find
  unfold ServiceMap.deps
  cases h1 : m.find id <;> cases h2 : m'.find id <;> simp_all

/-- The shape keeps what a dependency is resolved to. -/
lemma resolve (h : SameShape m m') : m'.resolve id = m.resolve id := by
  rw [resolve_eq, resolve_eq, h.keys]

end ServiceMap.SameShape

section Recursion

variable {recurse : List ServiceID → ServiceID → BuildState → Option (Int × BuildState)}
  {parentIDs dep : List ServiceID} {service : Service} {id depID : ServiceID}
  {st st' : BuildState} {fuel : Nat} {maxDep order : Int} {r : Option Int}

/-- The three ways through one iteration of the loop. -/
lemma depLoop_cases
    (e : depLoop recurse parentIDs service (depID :: dep) maxDep st = some (r, st')) :
    (depID ∈ parentIDs ∧ r = none ∧ st' = { st with log := st.log ++ [.acyclicDependencies] }) ∨
    (depID ∉ parentIDs ∧ st.infoMap.resolve depID = none ∧ r = none ∧
      st' = { st with log := st.log ++ [.notRegistered service.getID.getName] }) ∨
    (depID ∉ parentIDs ∧ ∃ id order st1, st.infoMap.resolve depID = some id ∧
      recurse (parentIDs ++ [depID]) id st = some (order, st1) ∧
      depLoop recurse parentIDs service dep (max maxDep (1 + order)) st1 = some (r, st')) := by
  rw [depLoop] at e
  split at e
  next mem =>
    cases e
    exact .inl ⟨mem, rfl, rfl⟩
  next notMem =>
    split at e
    next id hres =>
      split at e
      next order st1 hrec => exact .inr (.inr ⟨notMem, id, order, st1, hres, hrec, e⟩)
      next => cases e
    next hres =>
      cases e
      exact .inr (.inl ⟨notMem, hres, rfl, rfl⟩)

/-- The four ways through one call. -/
lemma recurrsiveBuildDep_cases
    (e : recurrsiveBuildDep (fuel + 1) parentIDs id st = some (order, st')) :
    ∃ info, st.infoMap.find id = some info ∧
      ((info.m_Order ≠ -1 ∧ order = info.m_Order ∧ st' = st) ∨
      (info.m_Order = -1 ∧ info.m_Dep = [] ∧ order = 0 ∧ st' = st) ∨
      (info.m_Order = -1 ∧ info.m_Dep ≠ [] ∧ order = -1 ∧
        depLoop (recurrsiveBuildDep fuel) parentIDs info.m_Service info.m_Dep (-1) st =
          some (none, st')) ∨
      (info.m_Order = -1 ∧ info.m_Dep ≠ [] ∧ ∃ st1,
        depLoop (recurrsiveBuildDep fuel) parentIDs info.m_Service info.m_Dep (-1) st =
          some (some order, st1) ∧
        st' = { st1 with infoMap := st1.infoMap.setOrder id order })) := by
  rw [recurrsiveBuildDep] at e
  split at e
  next => cases e
  next info hfind =>
    refine ⟨info, hfind, ?_⟩
    split at e
    next computed =>
      cases e
      exact .inl ⟨computed, rfl, rfl⟩
    next fresh =>
      have fresh := not_not.mp fresh
      split at e
      next leaf =>
        cases e
        exact .inr (.inl ⟨fresh, leaf, rfl, rfl⟩)
      next inner =>
        split at e
        next => cases e
        next hloop =>
          cases e
          exact .inr (.inr (.inl ⟨fresh, inner, rfl, hloop⟩))
        next st1 hloop =>
          cases e
          exact .inr (.inr (.inr ⟨fresh, inner, st1, hloop, rfl⟩))

/-- What the recursion does to the state, bit by bit. -/
inductive Change (st : BuildState) : BuildState → Prop where
  | log (error : BuildDepError) : Change st { st with log := st.log ++ [error] }
  | order (id : ServiceID) (order : Int) :
    Change st { st with infoMap := st.infoMap.setOrder id order }

/-- The loop over the dependencies changes orders only, if the recursion does. -/
lemma depLoop_changes
    (ih : ∀ {parentIDs id st order st'}, recurse parentIDs id st = some (order, st') →
      ReflTransGen Change st st')
    (e : depLoop recurse parentIDs service dep maxDep st = some (r, st')) : ReflTransGen Change st st' := by
  induction dep generalizing maxDep st with
  | nil =>
    cases e
    exact .refl
  | cons depID dep ihdep =>
    obtain ⟨-, -, rfl⟩ | ⟨-, -, -, rfl⟩ | ⟨-, id, order, st1, -, hrec, hloop⟩ := depLoop_cases e
    · exact .single (.log _)
    · exact .single (.log _)
    · exact (ih hrec).trans (ihdep hloop)

/-- `RecurrsiveBuildDep` changes orders only. -/
lemma recurrsiveBuildDep_changes (e : recurrsiveBuildDep fuel parentIDs id st = some (order, st')) :
    ReflTransGen Change st st' := by
  induction fuel generalizing parentIDs id st order st' with
  | zero => cases e
  | succ fuel ih =>
    obtain ⟨info, -, ⟨-, -, rfl⟩ | ⟨-, -, -, rfl⟩ | ⟨-, -, -, hloop⟩ | ⟨-, -, st1, hloop, rfl⟩⟩ :=
      recurrsiveBuildDep_cases e
    · exact .refl
    · exact .refl
    · exact depLoop_changes ih hloop
    · exact (depLoop_changes ih hloop).tail (.order id order)

/-- The loop over the classes changes orders only. -/
lemma buildOrders_changes {ids : List ServiceID} (e : buildOrders fuel ids st = some st') :
    ReflTransGen Change st st' := by
  induction ids generalizing st with
  | nil =>
    cases e
    exact .refl
  | cons id ids ih =>
    rw [buildOrders] at e
    split at e
    next order st1 hrec => exact (recurrsiveBuildDep_changes hrec).trans (ih e)
    next => cases e

/-- Such changes keep the shape. -/
lemma shape_of_changes (changes : ReflTransGen Change st st') :
    ServiceMap.SameShape st.infoMap st'.infoMap := by
  induction changes with
  | refl => exact .refl
  | tail _ change ih =>
    cases change with
    | log => exact ih
    | order id order => exact ih.trans (.setOrder order)

/-- `RecurrsiveBuildDep` keeps the shape. -/
lemma recurrsiveBuildDep_shape (e : recurrsiveBuildDep fuel parentIDs id st = some (order, st')) :
    ServiceMap.SameShape st.infoMap st'.infoMap :=
  shape_of_changes (recurrsiveBuildDep_changes e)

/-- The loop over the classes keeps the shape. -/
lemma buildOrders_shape {ids : List ServiceID} (e : buildOrders fuel ids st = some st') :
    ServiceMap.SameShape st.infoMap st'.infoMap :=
  shape_of_changes (buildOrders_changes e)

/-! ## Enough fuel -/

variable {m : ServiceMap}

/-- A dependency is resolved to a class of the map that is of its kind. -/
lemma ServiceMap.mem_of_resolve (h : m.resolve depID = some id) :
    id ∈ m.map Prod.fst ∧ id.isKindOf depID = true := by
  rw [ServiceMap.resolve_eq] at h
  exact ⟨List.mem_of_find?_eq_some h, List.find?_some (p := fun i => RTTI.isKindOf i depID) h⟩

/-- The dependencies of an entry are declared. -/
lemma ServiceMap.mem_declared {info : ServiceInfo} (h : m.find id = some info)
    (mem : depID ∈ info.m_Dep) : depID ∈ m.declared :=
  List.mem_flatMap.mpr ⟨_, ServiceMap.mem_of_find h, mem⟩

/-- Ids on `parentIDs` are spent: one more of them leaves fewer declared ids to recurse into. -/
lemma spent_lt {declared : List ServiceID} (mem : depID ∈ declared) (notMem : depID ∉ parentIDs) :
    (declared.filter fun d => d ∉ parentIDs ++ [depID]).length <
      (declared.filter fun d => d ∉ parentIDs).length := by
  have hsub : (declared.filter fun d => d ∉ parentIDs ++ [depID]) =
      (declared.filter fun d => d ∉ parentIDs).filter fun d => d ≠ depID := by
    rw [List.filter_filter]
    apply List.filter_congr
    intro d _
    simp [not_or, and_comm]
  rw [hsub]
  apply List.length_filter_lt_length_iff_exists.mpr
  exact ⟨depID, List.mem_filter.mpr ⟨mem, by simpa using notMem⟩, by simp⟩

/-- The loop over the dependencies returns, if the recursion does. -/
lemma depLoop_isSome
    (ih : ∀ {depID id st}, depID ∈ m.declared → depID ∉ parentIDs → id ∈ m.map Prod.fst →
      ServiceMap.SameShape m st.infoMap → ∃ order st', ServiceMap.SameShape m st'.infoMap ∧
        recurse (parentIDs ++ [depID]) id st = some (order, st')) :
    ∀ {dep maxDep st}, dep ⊆ m.declared → ServiceMap.SameShape m st.infoMap →
      (depLoop recurse parentIDs service dep maxDep st).isSome := by
  intro dep
  induction dep with
  | nil =>
    intro maxDep st _ _
    rfl
  | cons depID dep ihdep =>
    intro maxDep st sub shape
    rw [List.cons_subset] at sub
    rw [depLoop]
    split
    next => rfl
    next notMem =>
      split
      next id hres =>
        rw [shape.resolve] at hres
        obtain ⟨order, st1, shape1, hrec⟩ :=
          ih sub.1 notMem (ServiceMap.mem_of_resolve hres).1 shape
        rw [hrec]
        exact ihdep sub.2 shape1
      next => rfl

/-- `RecurrsiveBuildDep` returns if the fuel is enough for the dependencies that it has not come by. -/
lemma recurrsiveBuildDep_isSome :
    ∀ {fuel parentIDs id st}, ServiceMap.SameShape m st.infoMap → id ∈ m.map Prod.fst →
      (m.declared.filter fun d => d ∉ parentIDs).length < fuel →
      (recurrsiveBuildDep fuel parentIDs id st).isSome := by
  intro fuel
  induction fuel with
  | zero =>
    intro parentIDs id st _ _ lt
    exact absurd lt (Nat.not_lt_zero _)
  | succ fuel ih =>
    intro parentIDs id st shape mem lt
    rw [← shape.keys, ← ServiceMap.find_isSome, Option.isSome_iff_exists] at mem
    obtain ⟨info, hfind⟩ := mem
    have hloop : (depLoop (recurrsiveBuildDep fuel) parentIDs info.m_Service info.m_Dep (-1)
        st).isSome := by
      apply depLoop_isSome (m := m) _ _ shape
      · intro depID id st mem notMem hid shape
        have := ih shape hid
          (Nat.lt_of_lt_of_le (spent_lt mem notMem) (Nat.lt_succ_iff.mp lt))
        obtain ⟨⟨order, st'⟩, hrec⟩ := Option.isSome_iff_exists.mp this
        exact ⟨order, st', shape.trans (recurrsiveBuildDep_shape hrec), hrec⟩
      · intro d hd
        rw [← shape.declared]
        exact ServiceMap.mem_declared hfind hd
    obtain ⟨⟨r, st1⟩, hloop⟩ := Option.isSome_iff_exists.mp hloop
    rw [recurrsiveBuildDep]
    simp only [hfind, hloop]
    split
    · rfl
    · split
      · rfl
      · cases r <;> rfl

/-- The loop over the classes returns if the fuel is enough for all dependencies. -/
lemma buildOrders_isSome (lt : m.declared.length < fuel) :
    ∀ {ids st}, ids ⊆ m.map Prod.fst → ServiceMap.SameShape m st.infoMap →
      ∃ st', buildOrders fuel ids st = some st' := by
  intro ids
  induction ids with
  | nil =>
    intro st _ _
    exact ⟨st, rfl⟩
  | cons id ids ih =>
    intro st sub shape
    rw [List.cons_subset] at sub
    have hsome : (recurrsiveBuildDep fuel [id] id st).isSome := by
      apply recurrsiveBuildDep_isSome shape sub.1
      exact Nat.lt_of_le_of_lt (List.length_filter_le _ _) lt
    obtain ⟨⟨order, st1⟩, hrec⟩ := Option.isSome_iff_exists.mp hsome
    rw [buildOrders, hrec]
    exact ih sub.2 (shape.trans (recurrsiveBuildDep_shape hrec))

end Recursion

/-! ## More fuel -/

section Fuel

variable {recurse recurse' : List ServiceID → ServiceID → BuildState → Option (Int × BuildState)}
  {parentIDs : List ServiceID} {service : Service} {id : ServiceID} {st st' : BuildState} {fuel fuel' : Nat}
  {res : Int × BuildState}

/-- The loop returns the same if the recursive calls do. -/
lemma depLoop_mono
    (more : ∀ {parentIDs id st res}, recurse parentIDs id st = some res →
      recurse' parentIDs id st = some res) :
    ∀ {dep maxDep st res}, depLoop recurse parentIDs service dep maxDep st = some res →
      depLoop recurse' parentIDs service dep maxDep st = some res := by
  intro dep
  induction dep with
  | nil =>
    intro maxDep st res e
    exact e
  | cons depID dep ih =>
    rintro maxDep st ⟨r, st'⟩ e
    obtain ⟨mem, rfl, rfl⟩ | ⟨notMem, missing, rfl, rfl⟩ | ⟨notMem, id, order, st1, found, call, loop⟩ :=
      depLoop_cases e
    · rw [depLoop, if_pos mem]
    · rw [depLoop, if_neg notMem]
      simp only [missing]
    · rw [depLoop, if_neg notMem]
      simp only [found, more call]
      exact ih loop

/-- More fuel changes no result of `RecurrsiveBuildDep`. -/
lemma recurrsiveBuildDep_mono (le : fuel ≤ fuel') (e : recurrsiveBuildDep fuel parentIDs id st = some res) :
    recurrsiveBuildDep fuel' parentIDs id st = some res := by
  induction fuel generalizing fuel' parentIDs id st res with
  | zero => cases e
  | succ fuel ih =>
    obtain ⟨fuel', rfl⟩ := Nat.exists_eq_add_one_of_ne_zero (Nat.ne_of_gt (Nat.zero_lt_of_lt le))
    have more : ∀ {parentIDs id st res}, recurrsiveBuildDep fuel parentIDs id st = some res →
        recurrsiveBuildDep fuel' parentIDs id st = some res := ih (Nat.le_of_succ_le_succ le)
    obtain ⟨order, st'⟩ := res
    obtain ⟨info, find, call⟩ := recurrsiveBuildDep_cases e
    rw [recurrsiveBuildDep]
    simp only [find]
    obtain ⟨computed, rfl, rfl⟩ | ⟨fresh, leaf, rfl, rfl⟩ | ⟨fresh, inner, rfl, loop⟩ |
      ⟨fresh, inner, st1, loop, rfl⟩ := call
    · rw [if_pos computed]
    · rw [if_neg (not_not.mpr fresh), if_pos leaf]
    · rw [if_neg (not_not.mpr fresh), if_neg inner, depLoop_mono more loop]
    · rw [if_neg (not_not.mpr fresh), if_neg inner, depLoop_mono more loop]

/-- More fuel changes no result of the loop over the classes. -/
lemma buildOrders_mono (le : fuel ≤ fuel') :
    ∀ {ids st}, buildOrders fuel ids st = some st' → buildOrders fuel' ids st = some st' := by
  intro ids
  induction ids with
  | nil =>
    intro st e
    exact e
  | cons id ids ih =>
    intro st e
    rw [buildOrders] at e ⊢
    split at e
    next order st1 call =>
      rw [recurrsiveBuildDep_mono le call]
      exact ih e
    next => cases e

end Fuel

/-- The calls of `RecurrsiveBuildDep` that `BuildDep` makes return, for every map of services with whatever
    dependencies and orders: the calls nest at most once more often than there are declared ids. -/
theorem buildOrders_returns (infoMap : ServiceMap) (log : List BuildDepError) :
    ∃ st, ∀ fuel, infoMap.declared.length < fuel →
      buildOrders fuel (infoMap.map Prod.fst) { infoMap := infoMap, log := log } = some st := by
  have shape : ServiceMap.SameShape infoMap (BuildState.mk infoMap log).infoMap := .refl
  obtain ⟨st, e⟩ := buildOrders_isSome (Nat.lt_succ_self _) (List.Subset.refl _) shape
  exact ⟨st, fun fuel enough => buildOrders_mono enough e⟩

/-- What `BuildDep` changes: it adds an operation for every registered service. -/
lemma ServiceMgr.buildDep_cases {mgr mgr' : ServiceMgr} {log : List BuildDepError}
    (e : mgr.buildDep = some (mgr', log)) :
    ServiceMap.SameShape mgr.m_Services mgr'.m_Services ∧
      mgr'.m_FastSearchMap = mgr.m_FastSearchMap ∧ mgr'.m_Initialized = mgr.m_Initialized ∧
      mgr'.m_ServiceOpList.Perm (mgr.m_ServiceOpList ++ mgr'.m_Services.map opInfoOf) := by
  unfold ServiceMgr.buildDep at e
  cases hst : buildOrders (mgr.m_Services.declared.length + 1) (mgr.m_Services.map Prod.fst)
      { infoMap := mgr.m_Services, log := [] } with
  | none =>
    rw [hst] at e
    cases e
  | some st =>
    rw [hst] at e
    cases e
    exact ⟨buildOrders_shape hst, rfl, rfl, List.perm_insertionSort _ _⟩

/-- `Init` calls `OnInit` along the operation list that `BuildDep` makes. -/
lemma ServiceMgr.init_cases {mgr mgr' : ServiceMgr} {calls : List Callback}
    (e : mgr.init = some (mgr', calls)) :
    ∃ log, buildDep { mgr with m_Initialized := true } = some (mgr', log) ∧
      calls = mgr'.m_ServiceOpList.map fun op => .onInit op.m_Service := by
  rw [ServiceMgr.init] at e
  split at e
  next => cases e
  next mgr1 log e1 =>
    cases e
    exact ⟨log, e1, rfl⟩

/-- `BuildDep` returns, whatever the dependency graph. -/
theorem ServiceMgr.buildDep_isSome (mgr : ServiceMgr) : mgr.buildDep.isSome := by
  let st : BuildState := { infoMap := mgr.m_Services, log := [] }
  have shape : ServiceMap.SameShape mgr.m_Services st.infoMap := .refl
  obtain ⟨st', e⟩ := buildOrders_isSome (Nat.lt_succ_self _) (List.Subset.refl _) shape
  unfold ServiceMgr.buildDep
  rw [e]
  rfl

/-- `Init` returns. -/
lemma ServiceMgr.init_isSome (mgr : ServiceMgr) : mgr.init.isSome := by
  obtain ⟨⟨mgr', log⟩, e⟩ :=
    Option.isSome_iff_exists.mp (buildDep_isSome { mgr with m_Initialized := true })
  rw [init, e]
  rfl

end XLN
