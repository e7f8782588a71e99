import XLN.Foundation.ServiceMgr.Init

/-!
# The errors that `BuildDep` logs

`RecurrsiveBuildDep` logs a message when a declared id is not registered and when it is on the current
path already, and goes on with the other services. `Clear` is a service below which every declared id is
resolved and every descent ends. Without a message all services are clear, and a message is only logged
if an id is missing or the resolved dependencies have a cycle (`buildDep_logs_iff`).
-/

namespace XLN
open Relation

namespace ServiceMap

variable (m : ServiceMap)

/-- `id` declares an id that no registered service provides. -/
def Lacks (id : ServiceID) : Prop :=
  ∃ depID ∈ m.deps id, ∀ t, ¬ m.Provides t depID

/-- Some service lacks a dependency. -/
def Missing : Prop :=
  ∃ id, m.Lacks id

/-- Some service leads back to itself. -/
def Cyclic : Prop :=
  ∃ id, TransGen m.ResolvesTo id id

/-- Every id declared by `id` or below it is resolved, and every descent from `id` ends. -/
inductive Clear : ServiceID → Prop where
  | intro {id} :
    (∀ depID ∈ m.deps id, ∃ id', m.resolve depID = some id') →
    (∀ id', m.ResolvesTo id id' → Clear id') →
    Clear id

/-- Orders have been computed for clear services only. -/
def Cleared (m m' : ServiceMap) : Prop :=
  ∀ ⦃id info⦄, m'.find id = some info → info.m_Order ≠ -1 → m.Clear id

variable {m} {m' : ServiceMap} {id id' depID : ServiceID}

/-- The dependencies of a clear class are resolved. -/
lemma Clear.resolved (h : m.Clear id) (mem : depID ∈ m.deps id) :
    ∃ id', m.resolve depID = some id' := by
  cases h with
  | intro resolved _ => exact resolved depID mem

/-- A clear class is on no cycle. -/
lemma Clear.not_transGen (h : m.Clear id) : ¬ TransGen m.ResolvesTo id id := by
  induction h with
  | intro _ _ ih =>
    intro cycle
    obtain ⟨id', res, back⟩ := TransGen.head'_iff.mp cycle
    exact ih id' res (TransGen.tail' back res)

/-- A dependency that is not resolved is lacking. -/
lemma lacks_of_resolve (mem : depID ∈ m.deps id) (none : m.resolve depID = none) : m.Lacks id := by
  refine ⟨depID, mem, fun t prov => ?_⟩
  obtain ⟨id', res⟩ := prov.resolve
  rw [none] at res
  cases res

/-- There is no cycle where a rank drops along the dependencies. -/
lemma not_cyclic_of_rank (rank : ServiceID → Nat)
    (h : ∀ e ∈ m, ∀ depID ∈ e.2.m_Dep, ∀ t ∈ m.map Prod.fst, t.isKindOf depID = true →
      rank t < rank e.1) : ¬ m.Cyclic := by
  have drop : ∀ {id id'}, m.ResolvesTo id id' → rank id' < rank id := by
    intro id id' res
    obtain ⟨depID, mem, prov⟩ := res.dependsOn
    cases hfind : m.find id with
    | none => simp [deps, hfind] at mem
    | some info =>
      rw [find_deps hfind] at mem
      exact h _ (mem_of_find hfind) depID mem id' prov.1 prov.2
  rintro ⟨id, cycle⟩
  have down : ∀ {id'}, TransGen m.ResolvesTo id id' → rank id' < rank id := by
    intro id' reach
    induction reach with
    | single res => exact drop res
    | tail _ res ih => exact (drop res).trans ih
  exact Nat.lt_irrefl _ (down cycle)

/-- Only clear classes have an order after that of a clear one is set. -/
lemma Cleared.setOrder (cleared : Cleared m m') (clear : m.Clear id) {order : Int} :
    Cleared m (m'.setOrder id order) := by
  intro id' info hfind computed
  by_cases h : id' = id
  · exact h ▸ clear
  · rw [find_setOrder] at hfind
    simp only [h, if_false, Option.map_id'] at hfind
    exact cleared hfind computed

end ServiceMap

section Log
open ServiceMap

variable {m : ServiceMap} {fuel : Nat} {parentIDs dep : List ServiceID} {service : Service}
  {id : ServiceID} {st st' : BuildState} {maxDep order : Int} {r : Option Int}
  {recurse : List ServiceID → ServiceID → BuildState → Option (Int × BuildState)}

/-! ## The log grows -/

/-- The log only grows. -/
lemma log_of_changes (changes : ReflTransGen Change st st') : st.log <+: st'.log := by
  induction changes with
  | refl => exact List.prefix_refl _
  | tail _ change ih =>
    cases change with
    | log error => exact ih.trans (List.prefix_append _ _)
    | order => exact ih

/-! ## No message without an error -/

/-- A message is the sign of a missing id or a cycle. -/
def Justified (m : ServiceMap) (st st' : BuildState) : Prop :=
  st'.log = st.log ∨ m.Missing ∨ m.Cyclic

/-- What is justified stays so when more is logged. -/
lemma Justified.trans {st1 : BuildState} (h : Justified m st st1) (h' : Justified m st1 st') :
    Justified m st st' := by
  rcases h' with same | error
  · rcases h with same' | error
    · exact .inl (same.trans same')
    · exact .inr error
  · exact .inr error

/-- The loop over the dependencies logs justified errors only, if the recursion does. -/
lemma depLoop_justified (unique : m.UniqueProviders) (path : OnPath m parentIDs id)
    (ih : ∀ {parentIDs id st order st'}, recurse parentIDs id st = some (order, st') →
      SameShape m st.infoMap → OnPath m parentIDs id →
      SameShape m st'.infoMap ∧ Justified m st st')
    (e : depLoop recurse parentIDs service dep maxDep st = some (r, st')) (sub : dep ⊆ m.deps id)
    (shape : SameShape m st.infoMap) : Justified m st st' := by
  induction dep generalizing maxDep st with
  | nil =>
    cases e
    exact .inl rfl
  | cons depID dep ihdep =>
    rw [List.cons_subset] at sub
    obtain ⟨spent, -, rfl⟩ | ⟨-, missing, -, rfl⟩ | ⟨-, id', order, st1, res, hrec, hloop⟩ :=
      depLoop_cases e
    · -- the provider of the repeated id leads to `id`, which depends on it
      obtain ⟨t, ht, reach⟩ := path depID spent
      have res := unique.resolvesTo ⟨depID, sub.1, ht⟩
      exact .inr (.inr ⟨t, TransGen.tail' reach res⟩)
    · rw [shape.resolve] at missing
      exact .inr (.inl ⟨id, lacks_of_resolve sub.1 missing⟩)
    · rw [shape.resolve] at res
      obtain ⟨shape1, first⟩ := ih hrec shape (path.push sub.1 res)
      exact first.trans (ihdep hloop sub.2 shape1)

/-- `RecurrsiveBuildDep` logs justified errors only. -/
lemma recurrsiveBuildDep_justified (unique : m.UniqueProviders)
    (e : recurrsiveBuildDep fuel parentIDs id st = some (order, st'))
    (shape : SameShape m st.infoMap) (path : OnPath m parentIDs id) :
    SameShape m st'.infoMap ∧ Justified m st st' := by
  refine ⟨shape.trans (recurrsiveBuildDep_shape e), ?_⟩
  induction fuel generalizing parentIDs id st order st' with
  | zero => cases e
  | succ fuel ih =>
    have ih' : ∀ {parentIDs id st order st'},
        recurrsiveBuildDep fuel parentIDs id st = some (order, st') →
        SameShape m st.infoMap → OnPath m parentIDs id →
        SameShape m st'.infoMap ∧ Justified m st st' :=
      fun e shape path => ⟨shape.trans (recurrsiveBuildDep_shape e), ih e shape path⟩
    obtain ⟨info, hfind, h⟩ := recurrsiveBuildDep_cases e
    have sub : info.m_Dep ⊆ m.deps id := by
      rw [← shape.deps, find_deps hfind]
      exact List.Subset.refl _
    obtain ⟨-, -, rfl⟩ | ⟨-, -, -, rfl⟩ | ⟨-, -, -, hloop⟩ | ⟨-, -, st1, hloop, rfl⟩ := h
    · exact .inl rfl
    · exact .inl rfl
    · exact depLoop_justified unique path ih' hloop sub shape
    · have justified : Justified m st st1 := depLoop_justified unique path ih' hloop sub shape
      exact justified

/-- The loop over the classes logs justified errors only. -/
lemma buildOrders_justified (unique : m.UniqueProviders) {ids : List ServiceID}
    (e : buildOrders fuel ids st = some st') (sub : ids ⊆ m.map Prod.fst)
    (shape : SameShape m st.infoMap) : Justified m st st' := by
  induction ids generalizing st with
  | nil =>
    cases e
    exact .inl rfl
  | cons id ids ih =>
    rw [List.cons_subset] at sub
    rw [buildOrders] at e
    split at e
    next order st1 hrec =>
      obtain ⟨shape1, first⟩ := recurrsiveBuildDep_justified unique hrec shape (.root sub.1)
      exact first.trans (ih e sub.2 shape1)
    next => cases e

/-! ## No error without a message -/

/-- If the loop over the dependencies logs nothing, they are clear. -/
lemma depLoop_clear
    (ih : ∀ {parentIDs id st order st'}, recurse parentIDs id st = some (order, st') →
      SameShape m st.infoMap → Cleared m st.infoMap → st'.log = [] →
      SameShape m st'.infoMap ∧ Cleared m st'.infoMap ∧ m.Clear id)
    (changes : ∀ {parentIDs id st order st'}, recurse parentIDs id st = some (order, st') →
      ReflTransGen Change st st')
    (e : depLoop recurse parentIDs service dep maxDep st = some (r, st'))
    (shape : SameShape m st.infoMap) (cleared : Cleared m st.infoMap) (silent : st'.log = []) :
    r ≠ none ∧ Cleared m st'.infoMap ∧
      ∀ depID ∈ dep, ∃ id', m.resolve depID = some id' ∧ m.Clear id' := by
  induction dep generalizing maxDep st with
  | nil =>
    cases e
    exact ⟨nofun, cleared, nofun⟩
  | cons depID dep ihdep =>
    obtain ⟨-, -, rfl⟩ | ⟨-, -, -, rfl⟩ | ⟨-, id', order, st1, res, hrec, hloop⟩ := depLoop_cases e
    · simp at silent
    · simp at silent
    · have silent1 : st1.log = [] := List.prefix_nil.mp (silent ▸ log_of_changes (depLoop_changes changes hloop))
      obtain ⟨shape1, cleared1, clear⟩ := ih hrec shape cleared silent1
      obtain ⟨goes, cleared', rest⟩ := ihdep hloop shape1 cleared1
      refine ⟨goes, cleared', List.forall_mem_cons.mpr ⟨⟨id', ?_, clear⟩, rest⟩⟩
      rw [← shape.resolve, res]

/-- A class with clear dependencies is clear. -/
lemma clear_of_deps
    (h : ∀ depID ∈ m.deps id, ∃ id', m.resolve depID = some id' ∧ m.Clear id') : m.Clear id := by
  refine .intro (fun depID mem => ?_) (fun id' res => ?_)
  · obtain ⟨id', res, -⟩ := h depID mem
    exact ⟨id', res⟩
  · obtain ⟨depID, mem, res⟩ := res
    obtain ⟨id'', res', clear⟩ := h depID mem
    cases res.symm.trans res'
    exact clear

/-- A call that logs nothing has found everything clear. -/
lemma recurrsiveBuildDep_clear
    (e : recurrsiveBuildDep fuel parentIDs id st = some (order, st'))
    (shape : SameShape m st.infoMap) (cleared : Cleared m st.infoMap) (silent : st'.log = []) :
    SameShape m st'.infoMap ∧ Cleared m st'.infoMap ∧ m.Clear id := by
  induction fuel generalizing parentIDs id st order st' with
  | zero => cases e
  | succ fuel ih =>
    refine ⟨shape.trans (recurrsiveBuildDep_shape e), ?_⟩
    obtain ⟨info, hfind, h⟩ := recurrsiveBuildDep_cases e
    have hdeps : m.deps id = info.m_Dep := by rw [← shape.deps, find_deps hfind]
    obtain ⟨computed, -, rfl⟩ | ⟨-, leaf, -, rfl⟩ | ⟨-, -, -, hloop⟩ | ⟨-, -, st1, hloop, rfl⟩ := h
    · exact ⟨cleared, cleared hfind computed⟩
    · refine ⟨cleared, clear_of_deps ?_⟩
      rw [hdeps, leaf]
      exact nofun
    · obtain ⟨goes, -⟩ := depLoop_clear ih recurrsiveBuildDep_changes hloop shape cleared silent
      exact absurd rfl goes
    · have silent1 : st1.log = [] := silent
      obtain ⟨-, cleared1, all⟩ :=
        depLoop_clear ih recurrsiveBuildDep_changes hloop shape cleared silent1
      have clear : m.Clear id := clear_of_deps (hdeps ▸ all)
      exact ⟨cleared1.setOrder clear, clear⟩

/-- If nothing is logged all classes are clear. -/
lemma buildOrders_clear {ids : List ServiceID} (e : buildOrders fuel ids st = some st')
    (shape : SameShape m st.infoMap) (cleared : Cleared m st.infoMap) (silent : st'.log = []) :
    ∀ id ∈ ids, m.Clear id := by
  induction ids generalizing st with
  | nil => exact nofun
  | cons id ids ih =>
    rw [buildOrders] at e
    split at e
    next order st1 hrec =>
      have silent1 : st1.log = [] := List.prefix_nil.mp (silent ▸ log_of_changes (buildOrders_changes e))
      obtain ⟨shape1, cleared1, clear⟩ := recurrsiveBuildDep_clear hrec shape cleared silent1
      exact List.forall_mem_cons.mpr ⟨clear, ih e shape1 cleared1⟩
    next => cases e

end Log

namespace ServiceMgr

/-- For services registered before `Init`, `BuildDep` logs a message if and only if a declared id is
    not provided or the resolved dependencies have a cycle. -/
theorem buildDep_logs_iff (less : ServiceID → ServiceID → Bool) (lastTime : UInt32)
    (services : List Service)
    (unique : (registerAll less lastTime services).m_Services.UniqueProviders) :
    ∃ mgr' log, (registerAll less lastTime services).buildDep = some (mgr', log) ∧
      (log ≠ [] ↔ (registerAll less lastTime services).m_Services.Missing ∨
        (registerAll less lastTime services).m_Services.Cyclic) := by
  have pre := preInit_registerAll less lastTime services
  let m := (registerAll less lastTime services).m_Services
  let st0 : BuildState := { infoMap := m, log := [] }
  have shape0 : ServiceMap.SameShape m st0.infoMap := .refl
  obtain ⟨st, hst⟩ := buildOrders_isSome (Nat.lt_succ_self _) (List.Subset.refl _) shape0
  refine ⟨_, st.log, by rw [buildDep, hst], ?_⟩
  constructor
  · intro logged
    have justified := buildOrders_justified unique hst (List.Subset.refl _) shape0
    exact justified.resolve_left logged
  · intro error silent
    have cleared0 : ServiceMap.Cleared m st0.infoMap := fun id info hfind computed =>
      absurd (pre.entry _ (ServiceMap.mem_of_find hfind)).2.2 computed
    have clear := buildOrders_clear hst shape0 cleared0 silent
    have registered : ∀ {id depID}, depID ∈ m.deps id → id ∈ m.map Prod.fst := by
      intro id depID mem
      by_contra absent
      rw [← ServiceMap.find_eq_none] at absent
      simp [ServiceMap.deps, absent] at mem
    rcases error with ⟨id, depID, mem, none⟩ | ⟨id, cycle⟩
    · obtain ⟨id', res⟩ := (clear id (registered mem)).resolved mem
      exact none id' (ServiceMap.mem_of_resolve res)
    · obtain ⟨id', ⟨depID, mem, -⟩, -⟩ := TransGen.head'_iff.mp cycle
      exact (clear id (registered mem)).not_transGen cycle

/-- The statement above at two services that wait for each other. -/
theorem buildDep_logs_iff_mutual :
    let physics : RTTI := .root 1 "Physics"
    let world : RTTI := .root 2 "World"
    let services : List Service := [⟨1, physics, [world]⟩, ⟨2, world, [physics]⟩]
    ∃ mgr' log, (registerAll RTTI.less 0 services).buildDep = some (mgr', log) ∧
      (log ≠ [] ↔ (registerAll RTTI.less 0 services).m_Services.Missing ∨
        (registerAll RTTI.less 0 services).m_Services.Cyclic) := by
  intro physics world services
  exact buildDep_logs_iff RTTI.less 0 services (ServiceMap.uniqueProviders_of_entries (by decide))

end ServiceMgr
end XLN
