import XLN.Foundation.ServiceMgr.Errors

/-!
# Initialisation with missing dependencies

`RecurrsiveBuildDep` returns early from a service that declares an id which is not registered, and so
leaves its order at -1, where the services without dependencies are. `Ranked` is what holds of the
orders that have been computed so far: every other service has an order above all services it resolves
to. So a service comes after these unless it lacks a dependency, and then exactly if they have no order
either and come first in the map (`resolved_first_iff`).
-/

namespace XLN
open Relation

namespace ServiceMap

variable (m : ServiceMap)

/-- `BuildDep` computes no order for `id`. -/
def Unordered (id : ServiceID) : Prop :=
  m.deps id = [] ∨ m.Lacks id

/-- What `m'` stores for `id` is final. -/
def Settled (m' : ServiceMap) (id : ServiceID) : Prop :=
  m'.storedOrder id ≠ -1 ∨ m.Unordered id

/-- The services with an order are neither leaves nor lack a dependency, and what they resolve to has
    been settled at a lower order. -/
def Ranked (m' : ServiceMap) : Prop :=
  ∀ ⦃id⦄, m'.storedOrder id ≠ -1 → ¬ m.Unordered id ∧ 0 ≤ m'.storedOrder id ∧
    ∀ ⦃id'⦄, m.ResolvesTo id id' → m.Settled m' id' ∧ m'.storedOrder id' < m'.storedOrder id

/-- Orders that have been computed stay. -/
def Keeps (m' m'' : ServiceMap) : Prop :=
  ∀ ⦃id⦄, m'.storedOrder id ≠ -1 → m''.storedOrder id = m'.storedOrder id

variable {m} {m' m'' : ServiceMap} {id id' depID : ServiceID} {order : Int}

/-- What is kept one after the other. -/
lemma Keeps.trans {m3 : ServiceMap} (h : Keeps m' m'') (h' : Keeps m'' m3) : Keeps m' m3 := by
  intro id computed
  have same := h computed
  exact (h' (same ▸ computed)).trans same

/-- The stored order is that of the entry. -/
lemma storedOrder_of_find {info : ServiceInfo} (h : m.find id = some info) :
    m.storedOrder id = info.m_Order := by
  rw [storedOrder, h]

/-- Setting an order changes one entry. -/
lemma storedOrder_setOrder (mem : id ∈ m.map Prod.fst) :
    (m.setOrder id order).storedOrder id' = if id' = id then order else m.storedOrder id' := by
  unfold storedOrder
  rw [find_setOrder]
  by_cases h : id' = id
  · subst h
    obtain ⟨info, hfind⟩ := Option.isSome_iff_exists.mp (find_isSome.mpr mem)
    simp [hfind]
  · cases m.find id' <;> simp [h]

/-- The order of a service with an order is not below 0, that of another one is -1. -/
lemma Ranked.bound (ranked : m.Ranked m') (id : ServiceID) : -1 ≤ m'.storedOrder id := by
  by_cases computed : m'.storedOrder id = -1
  · exact computed.ge
  · have := (ranked computed).2.1
    omega

/-- A class that gets no order keeps its first one. -/
lemma Ranked.unordered (ranked : m.Ranked m') (h : m.Unordered id) : m'.storedOrder id = -1 := by
  by_contra computed
  exact (ranked computed).1 h

/-- What is settled stays as it is. -/
lemma Settled.keep (settled : m.Settled m' id) (keeps : Keeps m' m'') (ranked : m.Ranked m')
    (ranked' : m.Ranked m'') :
    m.Settled m'' id ∧ m''.storedOrder id = m'.storedOrder id := by
  rcases settled with computed | unordered
  · have same := keeps computed
    exact ⟨.inl (same ▸ computed), same⟩
  · exact ⟨.inr unordered, (ranked'.unordered unordered).trans (ranked.unordered unordered).symm⟩

/-- Giving a service its order, above everything that it resolves to. -/
lemma Ranked.setOrder (ranked : m.Ranked m') (mem : id ∈ m'.map Prod.fst)
    (open_id : m'.storedOrder id = -1) (ordered : ¬ m.Unordered id) (nonneg : 0 ≤ order)
    (irrefl : ¬ m.ResolvesTo id id)
    (above : ∀ ⦃id'⦄, m.ResolvesTo id id' → m.Settled m' id' ∧ m'.storedOrder id' < order) :
    m.Ranked (m'.setOrder id order) := by
  have other : ∀ {id'}, id' ≠ id → (m'.setOrder id order).storedOrder id' = m'.storedOrder id' := by
    intro id' ne
    rw [storedOrder_setOrder mem, if_neg ne]
  have settled : ∀ {id'}, m.Settled m' id' → id' ≠ id → m.Settled (m'.setOrder id order) id' := by
    intro id' settled ne
    rw [Settled, other ne]
    exact settled
  intro id'' computed
  by_cases e : id'' = id
  · subst e
    have self : (m'.setOrder id'' order).storedOrder id'' = order := by
      rw [storedOrder_setOrder mem, if_pos rfl]
    rw [self]
    refine ⟨ordered, nonneg, fun id' res => ?_⟩
    have ne : id' ≠ id'' := by
      rintro rfl
      exact irrefl res
    rw [other ne]
    exact ⟨settled (above res).1 ne, (above res).2⟩
  · rw [other e] at computed ⊢
    obtain ⟨ordered'', nonneg'', above''⟩ := ranked computed
    refine ⟨ordered'', nonneg'', fun id' res => ?_⟩
    obtain ⟨settled', lt⟩ := above'' res
    -- an order that has been computed does not rest on a service whose own order is still open
    have ne : id' ≠ id := by
      rintro rfl
      exact settled'.elim (absurd open_id) ordered
    rw [other ne]
    exact ⟨settled settled' ne, lt⟩

end ServiceMap

section Rank
open ServiceMap

variable {m : ServiceMap}

/-- What one call guarantees: the orders stay ranked, only services below `id` get one, and `id` is
    settled at no more than what the call returns. -/
structure CallRank (m : ServiceMap) (id : ServiceID) (order : Int) (st st' : BuildState) : Prop where
  shape : SameShape m st'.infoMap
  ranked : m.Ranked st'.infoMap
  keeps : Keeps st.infoMap st'.infoMap
  frame : ∀ id', ¬ ReflTransGen m.ResolvesTo id id' →
    st'.infoMap.storedOrder id' = st.infoMap.storedOrder id'
  settled : m.Settled st'.infoMap id
  value : st'.infoMap.storedOrder id ≤ order

/-- What the loop over a part `dep` of the dependencies of `id` guarantees. -/
structure LoopRank (m : ServiceMap) (id : ServiceID) (dep : List ServiceID) (r : Option Int)
    (st st' : BuildState) : Prop where
  shape : SameShape m st'.infoMap
  ranked : m.Ranked st'.infoMap
  keeps : Keeps st.infoMap st'.infoMap
  frame : ∀ id', ¬ TransGen m.ResolvesTo id id' →
    st'.infoMap.storedOrder id' = st.infoMap.storedOrder id'
  lacks : r = none → m.Lacks id
  above : ∀ v, r = some v → ∀ depID ∈ dep, ∃ id', m.resolve depID = some id' ∧
    m.Settled st'.infoMap id' ∧ st'.infoMap.storedOrder id' < v

variable {fuel : Nat} {parentIDs dep : List ServiceID} {service : Service} {id : ServiceID}
  {st st' : BuildState} {maxDep order : Int} {r : Option Int}
  {recurse : List ServiceID → ServiceID → BuildState → Option (Int × BuildState)}

/-- The maximum only grows. -/
lemma depLoop_le {v : Int} (e : depLoop recurse parentIDs service dep maxDep st = some (some v, st')) :
    maxDep ≤ v := by
  induction dep generalizing maxDep st with
  | nil =>
    cases e
    exact le_refl _
  | cons depID dep ih =>
    obtain ⟨-, none, -⟩ | ⟨-, -, none, -⟩ | ⟨-, id, order, st1, -, -, hloop⟩ := depLoop_cases e
    · cases none
    · cases none
    · exact (le_max_left _ _).trans (ih hloop)

/-- The loop over the dependencies ranks them, if the recursion does. -/
lemma depLoop_rank (unique : m.UniqueProviders) (acyclic : ¬ m.Cyclic) (path : OnPath m parentIDs id)
    (ih : ∀ {parentIDs id st order st'}, recurse parentIDs id st = some (order, st') →
      SameShape m st.infoMap → m.Ranked st.infoMap → OnPath m parentIDs id →
      CallRank m id order st st')
    (e : depLoop recurse parentIDs service dep maxDep st = some (r, st')) (sub : dep ⊆ m.deps id)
    (shape : SameShape m st.infoMap) (ranked : m.Ranked st.infoMap) : LoopRank m id dep r st st' := by
  induction dep generalizing maxDep st with
  | nil =>
    cases e
    exact ⟨shape, ranked, fun _ _ => rfl, fun _ _ => rfl, nofun, fun _ _ => nofun⟩
  | cons depID dep ihdep =>
    rw [List.cons_subset] at sub
    obtain ⟨spent, -, -⟩ | ⟨-, missing, rfl, rfl⟩ | ⟨-, id', order, st1, res, hrec, hloop⟩ :=
      depLoop_cases e
    · -- a repeated id would close a cycle
      obtain ⟨t, ht, reach⟩ := path depID spent
      exact absurd ⟨t, TransGen.tail' reach (unique.resolvesTo ⟨depID, sub.1, ht⟩)⟩ acyclic
    · rw [shape.resolve] at missing
      exact ⟨shape, ranked, fun _ _ => rfl, fun _ _ => rfl, fun _ => lacks_of_resolve sub.1 missing,
        nofun⟩
    · rw [shape.resolve] at res
      have edge : m.ResolvesTo id id' := ⟨depID, sub.1, res⟩
      have call := ih hrec shape ranked (path.push sub.1 res)
      have loop := ihdep hloop sub.2 call.shape call.ranked
      refine ⟨loop.shape, loop.ranked, call.keeps.trans loop.keeps, fun x away => ?_, loop.lacks,
        fun v hv => List.forall_mem_cons.mpr ⟨⟨id', res, ?_⟩, loop.above v hv⟩⟩
      · rw [loop.frame x away]
        exact call.frame x fun reach => away (TransGen.head' edge reach)
      · -- the later calls leave the service as it is
        subst hv
        obtain ⟨settled, same⟩ := call.settled.keep loop.keeps call.ranked loop.ranked
        have value := call.value
        have le := depLoop_le hloop
        exact ⟨settled, by omega⟩

/-- `RecurrsiveBuildDep` ranks the class. -/
lemma recurrsiveBuildDep_rank (unique : m.UniqueProviders) (acyclic : ¬ m.Cyclic)
    (e : recurrsiveBuildDep fuel parentIDs id st = some (order, st'))
    (shape : SameShape m st.infoMap) (ranked : m.Ranked st.infoMap) (path : OnPath m parentIDs id) :
    CallRank m id order st st' := by
  induction fuel generalizing parentIDs id st order st' with
  | zero => cases e
  | succ fuel ih =>
    obtain ⟨info, hfind, h⟩ := recurrsiveBuildDep_cases e
    have hdeps : m.deps id = info.m_Dep := by rw [← shape.deps, find_deps hfind]
    have stored := storedOrder_of_find hfind
    obtain ⟨computed, rfl, rfl⟩ | ⟨-, leaf, rfl, rfl⟩ | ⟨-, -, rfl, hloop⟩ |
      ⟨fresh, inner, st1, hloop, rfl⟩ := h
    · exact ⟨shape, ranked, fun _ _ => rfl, fun _ _ => rfl, .inl (stored ▸ computed), stored.le⟩
    · have unordered : m.Unordered id := .inl (hdeps.trans leaf)
      refine ⟨shape, ranked, fun _ _ => rfl, fun _ _ => rfl, .inr unordered, ?_⟩
      rw [ranked.unordered unordered]
      decide
    · have loop := depLoop_rank unique acyclic path ih hloop (hdeps ▸ List.Subset.refl _) shape ranked
      have unordered : m.Unordered id := .inr (loop.lacks rfl)
      exact ⟨loop.shape, loop.ranked, loop.keeps, fun x away => loop.frame x fun t => away t.to_reflTransGen,
        .inr unordered, (loop.ranked.unordered unordered).le⟩
    · have loop := depLoop_rank unique acyclic path ih hloop (hdeps ▸ List.Subset.refl _) shape ranked
      have irrefl : ¬ TransGen m.ResolvesTo id id := fun cycle => acyclic ⟨id, cycle⟩
      have open_st : st.infoMap.storedOrder id = -1 := stored.trans fresh
      have open_id : st1.infoMap.storedOrder id = -1 := (loop.frame id irrefl).trans open_st
      have mem : id ∈ st1.infoMap.map Prod.fst := by
        rw [loop.shape.keys, ← shape.keys, ← find_isSome, hfind]
        rfl
      have all := loop.above order rfl
      have ordered : ¬ m.Unordered id := by
        rintro (leaf | ⟨depID, declared, none⟩)
        · exact inner (hdeps ▸ leaf)
        · obtain ⟨id', res, -⟩ := all depID (hdeps ▸ declared)
          exact none id' (mem_of_resolve res)
      have above : ∀ ⦃id'⦄, m.ResolvesTo id id' →
          m.Settled st1.infoMap id' ∧ st1.infoMap.storedOrder id' < order := by
        rintro id' ⟨depID, declared, res⟩
        obtain ⟨id'', res', h⟩ := all depID (hdeps ▸ declared)
        cases res.symm.trans res'
        exact h
      have nonneg : 0 ≤ order := by
        obtain ⟨depID, dep, e⟩ := List.exists_cons_of_ne_nil inner
        obtain ⟨id', -, -, lt⟩ := all depID (by simp [e])
        have := loop.ranked.bound id'
        omega
      have self : (st1.infoMap.setOrder id order).storedOrder id = order := by
        rw [storedOrder_setOrder mem, if_pos rfl]
      have other : ∀ {id'}, id' ≠ id →
          (st1.infoMap.setOrder id order).storedOrder id' = st1.infoMap.storedOrder id' := by
        intro id' ne
        rw [storedOrder_setOrder mem, if_neg ne]
      refine ⟨loop.shape.trans (.setOrder order), ?_, fun x computed => ?_, fun x away => ?_,
        .inl (by rw [self]; omega), self.le⟩
      · exact loop.ranked.setOrder mem open_id ordered nonneg (fun res => irrefl (.single res)) above
      · have ne : x ≠ id := by
          rintro rfl
          exact computed open_st
        exact (other ne).trans (loop.keeps computed)
      · have ne : x ≠ id := by
          rintro rfl
          exact away .refl
        exact (other ne).trans (loop.frame x fun t => away t.to_reflTransGen)

/-- The loop over the classes ranks all of them. -/
lemma buildOrders_rank (unique : m.UniqueProviders) (acyclic : ¬ m.Cyclic) {ids : List ServiceID}
    (e : buildOrders fuel ids st = some st') (sub : ids ⊆ m.map Prod.fst)
    (shape : SameShape m st.infoMap) (ranked : m.Ranked st.infoMap) :
    m.Ranked st'.infoMap ∧ Keeps st.infoMap st'.infoMap ∧ ∀ id ∈ ids, m.Settled st'.infoMap id := by
  induction ids generalizing st with
  | nil =>
    cases e
    exact ⟨ranked, fun _ _ => rfl, nofun⟩
  | cons id ids ih =>
    rw [List.cons_subset] at sub
    rw [buildOrders] at e
    split at e
    next order st1 hrec =>
      have call := recurrsiveBuildDep_rank unique acyclic hrec shape ranked (.root sub.1)
      obtain ⟨ranked', keeps, settled⟩ := ih e sub.2 call.shape call.ranked
      refine ⟨ranked', call.keeps.trans keeps, List.forall_mem_cons.mpr ⟨?_, settled⟩⟩
      exact (call.settled.keep keeps call.ranked ranked').1
    next => cases e

end Rank

namespace ServiceMgr

/-- `Init` calls `OnInit` of every one of `regs` once, and after that of each service its declared ids
    resolve to. -/
def InitAfterResolved (mgr : ServiceMgr) (regs : List Service) : Prop :=
  ∀ mgr' calls, mgr.init = some (mgr', calls) → calls.Perm (regs.map .onInit) ∧
    ∀ S ∈ regs, ∀ T ∈ regs, mgr.m_Services.ResolvesTo S.getID T.getID →
      calls.Before (.onInit T) (.onInit S)

/-- Without cycles every service comes after what its declared ids resolve to if and only if, for the
    services that lack a dependency, those get no order either and come first in the map. -/
theorem resolved_first_iff (less : ServiceID → ServiceID → Bool) (lastTime : UInt32)
    (services : List Service)
    (unique : (registerAll less lastTime services).m_Services.UniqueProviders)
    (acyclic : ¬ (registerAll less lastTime services).m_Services.Cyclic) :
    (registerAll less lastTime services).InitAfterResolved (accepted services) ↔
      ∀ S ∈ accepted services, (registerAll less lastTime services).m_Services.Lacks S.getID →
        ∀ T ∈ accepted services,
          (registerAll less lastTime services).m_Services.ResolvesTo S.getID T.getID →
            (registerAll less lastTime services).m_Services.Unordered T.getID ∧
              ((registerAll less lastTime services).m_Services.map Prod.fst).Before T.getID S.getID := by
  have pre := preInit_registerAll less lastTime services
  generalize registerAll less lastTime services = mgr at *
  obtain ⟨st, mgr', calls, hst, e, spec⟩ := pre.init_order
  have ranked0 : mgr.m_Services.Ranked mgr.m_Services := by
    intro id computed
    unfold ServiceMap.storedOrder at computed
    split at computed
    next info hfind => exact absurd (pre.entry _ (ServiceMap.mem_of_find hfind)).2.2 computed
    next => exact absurd rfl computed
  obtain ⟨ranked, -, settled⟩ :=
    buildOrders_rank unique acyclic hst (List.Subset.refl _) .refl ranked0
  have mem_ops : ∀ {S}, S ∈ accepted services → S ∈ mgr'.m_ServiceOpList.map ServiceOpInfo.m_Service :=
    fun mem => spec.perm.mem_iff.mpr mem
  have nodup : calls.Nodup := by
    rw [spec.calls]
    exact spec.nodup.map fun _ _ => Callback.onInit.inj
  have before_calls : ∀ {S T}, S ∈ accepted services → T ∈ accepted services →
      (calls.Before (.onInit T) (.onInit S) ↔
        (mgr'.m_ServiceOpList.map ServiceOpInfo.m_Service).Before T S) := by
    intro S T hS hT
    rw [spec.calls] at nodup ⊢
    exact ⟨List.Before.of_map nodup (mem_ops hT) (mem_ops hS), List.Before.map _⟩
  have apart : ∀ {S T : Service}, mgr.m_Services.ResolvesTo S.getID T.getID → T.getID ≠ S.getID := by
    intro S T res same
    exact acyclic ⟨S.getID, .single (same ▸ res)⟩
  constructor
  · intro after S hS lacks T hT res
    have before := (before_calls hS hT).mp ((after mgr' calls e).2 S hS T hT res)
    have orderS := ranked.unordered (.inr lacks)
    -- a service with an order would come behind `S`
    have orderT : st.infoMap.storedOrder T.getID = -1 := by
      by_contra computed
      have bound := ranked.bound T.getID
      exact before.asymm spec.nodup (spec.before_lt T hT S hS (by omega))
    refine ⟨(settled T.getID (pre.mem_keys hT)).resolve_left (absurd orderT), ?_⟩
    refine (List.Before.or (apart res) (pre.mem_keys hT) (pre.mem_keys hS)).resolve_right ?_
    intro first
    exact before.asymm spec.nodup (spec.before_eq T hT S hS (orderS.trans orderT.symm) first)
  · intro condition mgr1 calls1 e1
    rw [e] at e1
    cases e1
    refine ⟨spec.calls ▸ spec.perm.map _, fun S hS T hT res => (before_calls hS hT).mpr ?_⟩
    by_cases unordered : mgr.m_Services.Unordered S.getID
    · have lacks : mgr.m_Services.Lacks S.getID := by
        refine unordered.resolve_left fun leaf => ?_
        obtain ⟨depID, mem, -⟩ := res
        simp [leaf] at mem
      obtain ⟨unorderedT, first⟩ := condition S hS lacks T hT res
      have same := (ranked.unordered unorderedT).trans (ranked.unordered unordered).symm
      exact spec.before_eq S hS T hT same first
    · have computed := (settled S.getID (pre.mem_keys hS)).resolve_right unordered
      exact spec.before_lt S hS T hT ((ranked computed).2.2 res).2

/-- The statement above where `Sound`, which lacks a mixer, comes behind `Config` in the map. -/
theorem resolved_first_iff_sound :
    let config : Service := ⟨1, .root 1 "Config", []⟩
    let sound : Service := ⟨2, .root 2 "Sound", [.root 1 "Config", .root 9 "Mixer"]⟩
    let mgr := registerAll RTTI.less 0 [sound, config]
    mgr.InitAfterResolved (accepted [sound, config]) ↔
      ∀ S ∈ accepted [sound, config], mgr.m_Services.Lacks S.getID →
        ∀ T ∈ accepted [sound, config], mgr.m_Services.ResolvesTo S.getID T.getID →
          mgr.m_Services.Unordered T.getID ∧
            (mgr.m_Services.map Prod.fst).Before T.getID S.getID := by
  intro config sound mgr
  apply resolved_first_iff RTTI.less 0 [sound, config]
  · exact ServiceMap.uniqueProviders_of_entries (by decide)
  · exact ServiceMap.not_cyclic_of_rank (fun id => if id = sound.getID then 1 else 0) (by decide)

/-- `Network` needs `Socket` and lacks a proxy: it is initialised first, although `Socket`, which waits
    for `Config`, comes first in the map. -/
theorem network_before_socket :
    let config : Service := ⟨1, .root 1 "Config", []⟩
    let socket : Service := ⟨2, .root 2 "Socket", [.root 1 "Config"]⟩
    let network : Service := ⟨3, .root 3 "Network", [.root 2 "Socket", .root 9 "Proxy"]⟩
    let mgr := registerAll RTTI.less 0 [config, socket, network]
    mgr.m_Services.UniqueProviders ∧ ¬ mgr.m_Services.Cyclic ∧
      ¬ mgr.InitAfterResolved (accepted [config, socket, network]) := by
  intro config socket network mgr
  refine ⟨ServiceMap.uniqueProviders_of_entries (by decide), ?_, fun after => ?_⟩
  · apply ServiceMap.not_cyclic_of_rank
      (fun id => if id = network.getID then 2 else if id = socket.getID then 1 else 0)
    decide
  · have run : mgr.init.map Prod.snd =
        some [.onInit config, .onInit network, .onInit socket] := by decide
    obtain ⟨⟨mgr', calls⟩, e, rfl⟩ := Option.map_eq_some_iff.mp run
    have before := (after mgr' _ e).2 network (by decide) socket (by decide)
      ⟨socket.getID, by decide, by decide⟩
    unfold List.Before at before
    exact absurd before (by decide)

end ServiceMgr
end XLN
