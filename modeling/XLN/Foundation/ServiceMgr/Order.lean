import XLN.Lib.Height
import XLN.Foundation.ServiceMgr.BuildDep

/-!
# What the operation order means

The dependency graph of a map of services, and what `BuildDep` makes of it. A service is `Good` if
everything it transitively resolves to is registered and the longest chain of resolved dependencies
below it is finite. `recurrsiveBuildDep_spec` shows that the recursion computes exactly that length
for good services, whatever it leaves behind in the entries of the others; `buildDep_order` reads off
the `m_Order` of every good service, and `before_of_order_lt` the position in the sorted list.
-/

namespace XLN
open Relation Graph

namespace ServiceMap

variable (m : ServiceMap)

/-- The registered service `id` is of the class `depID` or derives from it. -/
def Provides (id depID : ServiceID) : Prop :=
  id ∈ m.map Prod.fst ∧ id.isKindOf depID = true

/-- `id` declares an id that `id'` provides. -/
def DependsOn (id id' : ServiceID) : Prop :=
  ∃ depID ∈ m.deps id, m.Provides id' depID

/-- `id` declares an id that `BuildDep` resolves to `id'`. -/
def ResolvesTo (id id' : ServiceID) : Prop :=
  ∃ depID ∈ m.deps id, m.resolve depID = some id'

/-- Every id declared by `id` or below it is provided. -/
def Complete (id : ServiceID) : Prop :=
  ∀ id', ReflTransGen m.ResolvesTo id id' → ∀ depID ∈ m.deps id', ∃ t, m.Provides t depID

/-- `id` is complete and the longest chain of resolved dependencies below it has length `n`. -/
structure Good (id : ServiceID) (n : Nat) : Prop where
  height : Height m.ResolvesTo id n
  complete : m.Complete id

/-- No service that is declared below a good one leads back to it. -/
def NoBack : Prop :=
  ∀ ⦃id n⦄, m.Good id n → ∀ ⦃id'⦄, ReflTransGen m.ResolvesTo id id' →
    ∀ ⦃depID⦄, depID ∈ m.deps id' → ∀ ⦃t⦄, m.Provides t depID → ¬ ReflTransGen m.ResolvesTo t id

variable {m} {id id' depID : ServiceID} {n k : Nat}

/-- A dependency with a provider is resolved. -/
lemma Provides.resolve (h : m.Provides id depID) : ∃ id', m.resolve depID = some id' := by
  rw [resolve_eq, ← Option.isSome_iff_exists, List.find?_isSome]
  exact ⟨id, h⟩

/-- What a dependency is resolved to is one that the class depends on. -/
lemma ResolvesTo.dependsOn (h : m.ResolvesTo id id') : m.DependsOn id id' := by
  obtain ⟨depID, mem, res⟩ := h
  exact ⟨depID, mem, mem_of_resolve res⟩

/-- What a dependency is resolved to is in the map. -/
lemma ResolvesTo.mem_keys (h : m.ResolvesTo id id') : id' ∈ m.map Prod.fst := by
  obtain ⟨depID, mem, res⟩ := h
  exact (mem_of_resolve res).1

/-- Completeness goes down the dependencies. -/
lemma Complete.of_resolvesTo (h : m.Complete id) (res : m.ResolvesTo id id') : m.Complete id' :=
  fun _ reach => h _ (.head res reach)

/-- The order goes down along a dependency. -/
lemma Good.of_resolvesTo (h : m.Good id n) (res : m.ResolvesTo id id') :
    ∃ k, m.Good id' k ∧ k < n := by
  obtain ⟨k, hk, lt⟩ := h.height.of_rel res
  exact ⟨k, ⟨hk, h.complete.of_resolvesTo res⟩, lt⟩

/-- There is one right order. -/
lemma Good.unique (h1 : m.Good id n) (h2 : m.Good id k) : n = k :=
  h1.height.unique h2.height

/-- A class with dependencies comes after something. -/
lemma Good.pos_of_deps (h : m.Good id n) (inner : m.deps id ≠ []) : 0 < n := by
  obtain ⟨depID, dep, e⟩ := List.exists_cons_of_ne_nil inner
  have mem : depID ∈ m.deps id := by simp [e]
  obtain ⟨t, ht⟩ := h.complete id .refl depID mem
  obtain ⟨id', res⟩ := ht.resolve
  exact h.height.pos ⟨depID, mem, res⟩

/-- A class without dependencies is the first. -/
lemma good_leaf (leaf : m.deps id = []) : m.Good id 0 := by
  have none : ∀ id', ¬ m.ResolvesTo id id' := by
    rintro id' ⟨depID, mem, -⟩
    simp [leaf] at mem
  refine ⟨height_zero none, fun id' reach => ?_⟩
  cases reach.cases_head with
  | inl e => subst e; simp [leaf]
  | inr h =>
    obtain ⟨_, res, _⟩ := h
    exact absurd res (none _)

/-- Services below which nothing is missing and nothing is cyclic are good. -/
lemma exists_good (complete : m.Complete id) (ac : AcyclicFrom m.ResolvesTo id) :
    ∃ n, m.Good id n := by
  have closed : ∀ a b, m.ResolvesTo a b → b ∈ m.map Prod.fst := fun _ _ res => res.mem_keys
  obtain ⟨n, h⟩ := exists_height closed ac
  exact ⟨n, h, complete⟩

/-- With one provider for each declared id, a way back would be a cycle of resolved
    dependencies. -/
lemma noBack_of_unique
    (unique : ∀ id, ∀ depID ∈ m.deps id, ∀ t t', m.Provides t depID → m.Provides t' depID → t = t') :
    m.NoBack := by
  intro id n good id' reach depID mem t ht back
  obtain ⟨t', res⟩ := ht.resolve
  have e := unique id' depID mem t t' ht (mem_of_resolve res)
  subst e
  have step : m.ResolvesTo id' t := ⟨depID, mem, res⟩
  apply good.height.irrefl
  exact (TransGen.tail' reach step).trans_left back

/-- With several providers it is a cycle of possible dependencies. -/
lemma noBack_of_acyclic (acyclic : ∀ id, ¬ TransGen m.DependsOn id id) : m.NoBack := by
  intro id n good id' reach depID mem t ht back
  have lift : ∀ {a b}, ReflTransGen m.ResolvesTo a b → ReflTransGen m.DependsOn a b :=
    fun h => ReflTransGen.mono (fun _ _ res => ResolvesTo.dependsOn res) _ _ h
  apply acyclic id'
  exact TransGen.head' ⟨depID, mem, ht⟩ ((lift back).trans (lift reach))

/-! ## The memo -/

/-- Entries of good services are either untouched or right, and those of leaves untouched. -/
def Sound (m m' : ServiceMap) : Prop :=
  ∀ ⦃id n info⦄, m.Good id n → m'.find id = some info →
    info.m_Order = -1 ∨ (info.m_Dep ≠ [] ∧ info.m_Order = n)

/-- The entry of the good service `id` holds the length of its longest chain. -/
def Memo (m m' : ServiceMap) (id : ServiceID) : Prop :=
  ∃ n info, m.Good id n ∧ m'.find id = some info ∧ info.m_Order = (n : Int)

/-- `setOrder` changes one entry. -/
lemma find_setOrder {order : Int} : (m.setOrder id order).find id' =
    (m.find id').map fun i => if id' = id then { i with m_Order := order } else i := by
  induction m with
  | nil => rfl
  | cons e m ih =>
    obtain ⟨key, info⟩ := e
    unfold setOrder at ih ⊢
    by_cases h1 : key = id' <;> by_cases h2 : key = id <;> grind [find]

/-- The dependencies of a class are those of its entry. -/
lemma find_deps {info : ServiceInfo} (h : m.find id = some info) : m.deps id = info.m_Dep := by
  rw [deps, h]

variable {m' : ServiceMap}

/-- Writing the right order into the entry of an inner service keeps the memo sound. -/
lemma Sound.setOrder (sound : Sound m m') {info : ServiceInfo} {order : Int}
    (hfind : m'.find id = some info) (inner : info.m_Dep ≠ [])
    (right : ∀ n, m.Good id n → order = n) : Sound m (m'.setOrder id order) := by
  intro id' n info' good hfind'
  rw [find_setOrder] at hfind'
  by_cases h : id' = id
  · subst h
    simp only [hfind, Option.map_some, if_true, Option.some.injEq] at hfind'
    subst hfind'
    exact .inr ⟨inner, right n good⟩
  · simp only [h, if_false, Option.map_id'] at hfind'
    exact sound good hfind'

/-- Setting a right order keeps what is remembered. -/
lemma Memo.setOrder (memo : Memo m m' id') {order : Int} (right : ∀ n, m.Good id n → order = n) :
    Memo m (m'.setOrder id order) id' := by
  obtain ⟨n, info, good, hfind, e⟩ := memo
  refine ⟨n, if id' = id then { info with m_Order := order } else info, good, ?_, ?_⟩
  · rw [find_setOrder, hfind]
    rfl
  · by_cases h : id' = id
    · subst h
      simpa using right n good
    · simpa [h] using e

end ServiceMap

section Spec

variable {m : ServiceMap}

open ServiceMap

/-- Every id on the path is provided by a service that leads to `id`. -/
def OnPath (m : ServiceMap) (parentIDs : List ServiceID) (id : ServiceID) : Prop :=
  ∀ p ∈ parentIDs, ∃ t, m.Provides t p ∧ ReflTransGen m.ResolvesTo t id

/-- A path begins at a class of the map. -/
lemma OnPath.root {id : ServiceID} (mem : id ∈ m.map Prod.fst) : OnPath m [id] id := by
  intro p hp
  rw [List.mem_singleton] at hp
  subst hp
  exact ⟨p, ⟨mem, RTTI.isKindOf_self⟩, .refl⟩

/-- A path goes on along a dependency. -/
lemma OnPath.push {parentIDs : List ServiceID} {id id' depID : ServiceID}
    (path : OnPath m parentIDs id) (mem : depID ∈ m.deps id) (res : m.resolve depID = some id') :
    OnPath m (parentIDs ++ [depID]) id' := by
  intro p hp
  rcases List.mem_append.mp hp with hp | hp
  · obtain ⟨t, ht, reach⟩ := path p hp
    exact ⟨t, ht, reach.tail ⟨depID, mem, res⟩⟩
  · rw [List.mem_singleton] at hp
    subst hp
    exact ⟨id', mem_of_resolve res, .refl⟩

/-- What one call guarantees: the memo stays sound, nothing right is lost, and the answer for a good
    service is right and remembered unless the service is a leaf. -/
structure CallSpec (m : ServiceMap) (id : ServiceID) (order : Int) (st st' : BuildState) : Prop where
  shape : SameShape m st'.infoMap
  sound : Sound m st'.infoMap
  keep : ∀ id', Memo m st.infoMap id' → Memo m st'.infoMap id'
  value : ∀ n, m.Good id n → order = n
  memo : ∀ n, m.Good id n → m.deps id ≠ [] → Memo m st'.infoMap id

/-- What the loop over a part `dep` of the dependencies of `id` guarantees. -/
structure LoopSpec (m : ServiceMap) (id : ServiceID) (dep : List ServiceID) (maxDep : Int)
    (r : Option Int) (st st' : BuildState) : Prop where
  shape : SameShape m st'.infoMap
  sound : Sound m st'.infoMap
  keep : ∀ id', Memo m st.infoMap id' → Memo m st'.infoMap id'
  value : ∀ n, m.Good id n → ∃ v, r = some v ∧ maxDep ≤ v ∧ v ≤ max maxDep n ∧
    ∀ depID ∈ dep, ∀ id' k, m.resolve depID = some id' → m.Good id' k → 1 + (k : Int) ≤ v

variable {recurse : List ServiceID → ServiceID → BuildState → Option (Int × BuildState)}
  {parentIDs : List ServiceID} {service : Service} {id : ServiceID}

/-- The loop over the dependencies gives the greatest order of them, if the recursion is right. -/
lemma depLoop_spec (back : m.NoBack) (path : OnPath m parentIDs id)
    (ih : ∀ {parentIDs id st order st'}, recurse parentIDs id st = some (order, st') →
      SameShape m st.infoMap → Sound m st.infoMap → OnPath m parentIDs id →
      CallSpec m id order st st') :
    ∀ {dep maxDep st r st'}, depLoop recurse parentIDs service dep maxDep st = some (r, st') →
      dep ⊆ m.deps id → SameShape m st.infoMap → Sound m st.infoMap →
      LoopSpec m id dep maxDep r st st' := by
  intro dep
  induction dep with
  | nil =>
    intro maxDep st r st' e _ shape sound
    cases e
    exact ⟨shape, sound, fun _ h => h, fun n _ => ⟨maxDep, rfl, le_refl _, le_max_left _ _, by simp⟩⟩
  | cons depID dep ihdep =>
    intro maxDep st r st' e sub shape sound
    rw [List.cons_subset] at sub
    obtain ⟨spent, rfl, rfl⟩ | ⟨-, missing, rfl, rfl⟩ | ⟨-, id', order, st1, res, hrec, hloop⟩ :=
      depLoop_cases e
    · -- a repeated id closes a cycle through `id`
      refine ⟨shape, sound, fun _ h => h, fun n good => ?_⟩
      obtain ⟨t, ht, reach⟩ := path depID spent
      exact absurd reach (back good .refl sub.1 ht)
    · -- a good service declares no missing id
      refine ⟨shape, sound, fun _ h => h, fun n good => ?_⟩
      obtain ⟨t, ht⟩ := good.complete id .refl depID sub.1
      obtain ⟨id', res⟩ := ht.resolve
      rw [shape.resolve, res] at missing
      cases missing
    · rw [shape.resolve] at res
      have call := ih hrec shape sound (path.push sub.1 res)
      have loop := ihdep hloop sub.2 call.shape call.sound
      refine ⟨loop.shape, loop.sound, fun i h => loop.keep i (call.keep i h), fun n good => ?_⟩
      obtain ⟨k, goodk, lt⟩ := good.of_resolvesTo ⟨depID, sub.1, res⟩
      have hk := call.value k goodk
      obtain ⟨v, hv, lo, hi, all⟩ := loop.value n good
      refine ⟨v, hv, by omega, by omega, ?_⟩
      intro d hd id'' k' res' goodk'
      rcases List.mem_cons.mp hd with rfl | hd
      · rw [res] at res'
        cases res'
        have := goodk.unique goodk'
        omega
      · exact all d hd id'' k' res' goodk'

/-- The recursion computes the length of the longest chain below every good service. -/
lemma recurrsiveBuildDep_spec (back : m.NoBack) :
    ∀ {fuel parentIDs id st order st'},
      recurrsiveBuildDep fuel parentIDs id st = some (order, st') →
      SameShape m st.infoMap → Sound m st.infoMap → OnPath m parentIDs id →
      CallSpec m id order st st' := by
  intro fuel
  induction fuel with
  | zero =>
    intro parentIDs id st order st' e
    cases e
  | succ fuel ih =>
    intro parentIDs id st order st' e shape sound path
    obtain ⟨info, hfind, h⟩ := recurrsiveBuildDep_cases e
    have hdeps : m.deps id = info.m_Dep := by rw [← shape.deps, find_deps hfind]
    obtain ⟨computed, rfl, rfl⟩ | ⟨-, leaf, rfl, rfl⟩ | ⟨-, inner, rfl, hloop⟩ |
      ⟨-, inner, st1, hloop, rfl⟩ := h
    · have right : ∀ n, m.Good id n → info.m_Order = n :=
        fun n good => ((sound good hfind).resolve_left computed).2
      exact ⟨shape, sound, fun _ h => h, right,
        fun n good _ => ⟨n, info, good, hfind, right n good⟩⟩
    · refine ⟨shape, sound, fun _ h => h, fun n good => ?_, fun n _ inner => ?_⟩
      · rw [good.unique (good_leaf (hdeps.trans leaf))]
        rfl
      · exact absurd (hdeps.trans leaf) inner
    · -- an early return happens below no good service
      have loop := depLoop_spec back path ih hloop (hdeps ▸ List.Subset.refl _) shape sound
      refine ⟨loop.shape, loop.sound, loop.keep, fun n good => ?_, fun n good _ => ?_⟩
      · obtain ⟨v, hv, -⟩ := loop.value n good
        cases hv
      · obtain ⟨v, hv, -⟩ := loop.value n good
        cases hv
    · have loop := depLoop_spec back path ih hloop (hdeps ▸ List.Subset.refl _) shape sound
      have right : ∀ n, m.Good id n → order = n := by
        intro n good
        obtain ⟨v, hv, lo, hi, all⟩ := loop.value n good
        cases hv
        -- some dependency attains the maximum
        obtain ⟨k, rfl⟩ : ∃ k, n = k + 1 :=
          Nat.exists_eq_succ_of_ne_zero (good.pos_of_deps (hdeps ▸ inner)).ne'
        obtain ⟨id', ⟨depID, mem, res⟩, hk⟩ := good.height.exists_rel
        have := all depID (hdeps ▸ mem) id' k res
          ⟨hk, good.complete.of_resolvesTo ⟨depID, mem, res⟩⟩
        omega
      obtain ⟨info1, hfind1⟩ : ∃ info1, st1.infoMap.find id = some info1 := by
        rw [← Option.isSome_iff_exists, find_isSome, loop.shape.keys, ← shape.keys, ← find_isSome,
          hfind]
        rfl
      have inner1 : info1.m_Dep ≠ [] := by
        rw [← find_deps hfind1, loop.shape.deps, hdeps]
        exact inner
      refine ⟨loop.shape.trans (.setOrder order), loop.sound.setOrder hfind1 inner1 right,
        fun i h => (loop.keep i h).setOrder right, right, fun n good _ => ?_⟩
      refine ⟨n, { info1 with m_Order := order }, good, ?_, right n good⟩
      rw [find_setOrder, hfind1]
      simp

/-- The loop over the classes sets the right order of each. -/
lemma buildOrders_spec (back : m.NoBack) {fuel : Nat} :
    ∀ {ids st st'}, buildOrders fuel ids st = some st' → ids ⊆ m.map Prod.fst →
      SameShape m st.infoMap → Sound m st.infoMap →
      SameShape m st'.infoMap ∧ Sound m st'.infoMap ∧
        (∀ id, Memo m st.infoMap id → Memo m st'.infoMap id) ∧
        ∀ id ∈ ids, ∀ n, m.Good id n → m.deps id ≠ [] → Memo m st'.infoMap id := by
  intro ids
  induction ids with
  | nil =>
    intro st st' e _ shape sound
    cases e
    exact ⟨shape, sound, fun _ h => h, by simp⟩
  | cons id ids ih =>
    intro st st' e sub shape sound
    rw [List.cons_subset] at sub
    rw [buildOrders] at e
    split at e
    next order st1 hrec =>
      have call := recurrsiveBuildDep_spec back hrec shape sound (.root sub.1)
      obtain ⟨shape', sound', keep, memo⟩ := ih e sub.2 call.shape call.sound
      refine ⟨shape', sound', fun i h => keep i (call.keep i h), ?_⟩
      intro i hi n good inner
      rcases List.mem_cons.mp hi with rfl | hi
      · exact keep i (call.memo n good inner)
      · exact memo i hi n good inner
    next => cases e

end Spec
end XLN
