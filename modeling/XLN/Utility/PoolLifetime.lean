import XLN.Utility.Pool

/-!
# The life of an object in the pool

The methods of `FreeList` run constructors and destructors, and they do not agree on what a free slot
holds: `Grow` leaves a live object there and `Release` a destroyed one, `Aquire` constructs as if there
were none, and `Free` destroys as if there were two. Here the objects are their own history. The
constructions and destructions of a slot alternate exactly in the runs that never call `Aquire` and end
a pool only if it has no slots (`alternates_along_iff`). How far they are apart otherwise is the same for
every run within the capacity (`reckoned_of_roomy`).
-/

namespace XLN
open Transition

/-- What happens to the storage of a slot. -/
inductive LifeEvent where
  | constructed
  | destroyed
  deriving DecidableEq

/-- An object that only remembers what has happened to its storage, the newest last. -/
structure Life where
  history : List LifeEvent
  deriving DecidableEq

namespace Life

instance : Object Life where
  construct life := ⟨life.history ++ [.constructed]⟩
  destruct life := ⟨life.history ++ [.destroyed]⟩

/-- Storage in which there has been no object. -/
def raw : Life := ⟨[]⟩

/-- No object is constructed over a live one and none is destroyed twice: the events take turns, and
    the first is a construction, as if there had been a destruction before. -/
def Alternates (life : Life) : Prop :=
  (.destroyed :: life.history).IsChain (· ≠ ·)

instance (life : Life) : Decidable life.Alternates :=
  inferInstanceAs (Decidable (List.IsChain _ _))

/-- How many objects have been constructed in the storage. -/
def constructs (life : Life) : Nat :=
  life.history.count .constructed

/-- How many destructors have run on it. -/
def destroys (life : Life) : Nat :=
  life.history.count .destroyed

variable {life life' : Life}

/-- A constructor counts. -/
@[simp] lemma constructs_construct : (Object.construct life).constructs = life.constructs + 1 := by
  show (life.history ++ [LifeEvent.constructed]).count .constructed = _
  rw [List.count_append]
  rfl

/-- A destructor is no constructor. -/
@[simp] lemma constructs_destruct : (Object.destruct life).constructs = life.constructs := by
  show (life.history ++ [LifeEvent.destroyed]).count .constructed = _
  rw [List.count_append]
  rfl

/-- A constructor is no destructor. -/
@[simp] lemma destroys_construct : (Object.construct life).destroys = life.destroys := by
  show (life.history ++ [LifeEvent.constructed]).count .destroyed = _
  rw [List.count_append]
  rfl

/-- A destructor counts. -/
@[simp] lemma destroys_destruct : (Object.destruct life).destroys = life.destroys + 1 := by
  show (life.history ++ [LifeEvent.destroyed]).count .destroyed = _
  rw [List.count_append]
  rfl

/-- What has gone wrong stays so. -/
lemma Alternates.of_prefix (h : life'.Alternates) (grown : life.history <+: life'.history) :
    life.Alternates :=
  h.prefix ((List.prefix_cons_inj _).mpr grown)

end Life

/-- A pool of such objects with its callers, and whether its destructor has run. -/
structure PoolLifetime where
  client : FreeList.Client Life
  destroyed : Bool

namespace PoolLifetime
open FreeList

/-- A call of `Aquire` or `Release`, or the destructor. -/
inductive Event where
  | call (call : Call)
  | destroy

/-- A pool that has just been constructed. -/
def init (N : Nat) : PoolLifetime where
  client := .init N fun _ => .raw
  destroyed := false

/-- A call on a pool that exists; it is destroyed when all objects have been released. -/
def step (N : Nat) (s : PoolLifetime) : Event → Option PoolLifetime
  | .call call =>
    if s.destroyed then none
    else (s.client.step N call).map fun client => { s with client := client }
  | .destroy =>
    if s.destroyed ∨ s.client.acquired ≠ [] then none
    else some { client := { s.client with pool := s.client.pool.free }, destroyed := true }

/-- What has happened to a slot. -/
def slot (s : PoolLifetime) (p : Ptr) : Life :=
  s.client.pool.storage p

/-- The constructions and destructions of each slot alternate, and when the destructor has finished,
    each construction has been followed by a destruction. -/
def Lawful (s : PoolLifetime) : Prop :=
  (∀ p, (s.slot p).Alternates) ∧
    (s.destroyed → ∀ p, (s.slot p).constructs = (s.slot p).destroys)

/-- `Aquire` is not called, and a pool that is destroyed has no slots. -/
def Unused (N : Nat) (_ : PoolLifetime) : Event → Prop
  | .call .aquire => False
  | .call (.release _) => True
  | .destroy => N = 0

instance (N : Nat) (s : PoolLifetime) : (a : Event) → Decidable (s.Unused N a)
  | .call .aquire => inferInstanceAs (Decidable False)
  | .call (.release _) => inferInstanceAs (Decidable True)
  | .destroy => inferInstanceAs (Decidable (_ = _))

variable {N : Nat} {s s' : PoolLifetime} {a : Event}

/-! ## Histories only grow -/

/-- Nothing that has happened to a slot is forgotten. -/
def Grows (f f' : FreeList Life) : Prop :=
  ∀ p, (f.storage p).history <+: (f'.storage p).history

variable {f f' f'' : FreeList Life} {obj : Ptr}

/-- Nothing is done. -/
lemma Grows.refl : Grows f f :=
  fun _ => List.prefix_refl _

/-- What is done one after the other. -/
lemma Grows.trans (first : Grows f f') (second : Grows f' f'') : Grows f f'' :=
  fun p => (first p).trans (second p)

/-- A constructor is only added. -/
lemma construct_grows : Grows f (f.construct obj) := by
  intro p
  rw [construct_storage]
  split
  · exact List.prefix_append ..
  · exact List.prefix_refl _

/-- A destructor is only added. -/
lemma destruct_grows : Grows f (f.destruct obj) := by
  intro p
  rw [destruct_storage]
  split
  · exact List.prefix_append ..
  · exact List.prefix_refl _

/-- Pushing a slot does nothing to the objects. -/
lemma push_grows : Grows f (f.push N obj) := by
  intro p
  rw [push_storage]

/-- `Aquire` only adds to what was done. -/
lemma aquire_grows : Grows f (f.aquire N).2 := by
  cases free : f.m_FreeList with
  | nil =>
    rw [aquire_nil free]
    have created : Grows f f.objNew.2 := construct_grows (f := { f with heap := f.heap + 1 })
    exact (created.trans push_grows).trans construct_grows
  | cons ret rest =>
    rw [aquire_cons free]
    exact construct_grows (f := { f with m_FreeList := rest })

/-- The destructor of the pool only adds to what was done. -/
lemma freeLoop_grows {l : List Ptr} : Grows f (freeLoop l f) := by
  induction l generalizing f with
  | nil => exact .refl
  | cons ret rest ih =>
    have twice : Grows f ((destruct ret { f with m_FreeList := rest }).objDelete ret) :=
      (destruct_grows (f := { f with m_FreeList := rest })).trans destruct_grows
    exact twice.trans ih

/-- What a step can do. -/
inductive LifeMove (N : Nat) (s : PoolLifetime) : Event → PoolLifetime → Prop where
  | aquire :
    s.destroyed = false →
    LifeMove N s (.call .aquire) { s with client := {
      pool := (s.client.pool.aquire N).2
      acquired := (s.client.pool.aquire N).1 :: s.client.acquired } }
  | release {releaseObj} :
    s.destroyed = false →
    releaseObj ∈ s.client.acquired →
    LifeMove N s (.call (.release releaseObj)) { s with client := {
      pool := s.client.pool.release N releaseObj
      acquired := s.client.acquired.erase releaseObj } }
  | destroy :
    s.destroyed = false →
    s.client.acquired = [] →
    LifeMove N s .destroy {
      client := { s.client with pool := s.client.pool.free }
      destroyed := true }

/-- Every step is one of these moves. -/
lemma step_move (st : Exec (step N) s a s') : LifeMove N s a s' := by
  unfold Exec step at st
  cases a with
  | call call =>
    simp only at st
    split at st
    next => cases st
    next alive =>
      rw [Bool.not_eq_true] at alive
      cases call with
      | aquire =>
        cases st
        exact .aquire alive
      | release obj =>
        unfold Client.step at st
        simp only at st
        split at st
        next held =>
          cases st
          exact .release alive held
        next => cases st
  | destroy =>
    simp only at st
    split at st
    next => cases st
    next idle =>
      cases st
      rw [not_or, Bool.not_eq_true, not_not] at idle
      exact .destroy idle.1 idle.2

/-- A step only adds to what was done. -/
lemma step_grows (st : Exec (step N) s a s') : Grows s.client.pool s'.client.pool := by
  have move := step_move st
  cases move with
  | aquire => exact aquire_grows
  | release => exact destruct_grows.trans push_grows
  | destroy => exact freeLoop_grows

/-! ## When the events alternate -/

/-- The constructor of the pool constructs its slots. -/
lemma init_slot {p : Nat} :
    (init N).slot p = if p < N then Object.construct .raw else .raw :=
  new_storage _

/-- A pool that has not been used, or has been destroyed without having had a slot. -/
def Idle (N : Nat) (s : PoolLifetime) : Prop :=
  s = init N ∨ N = 0 ∧ s.destroyed = true ∧ ∀ p, s.slot p = .raw

/-- The slots of such a pool are constructed once. -/
lemma Idle.lawful (idle : s.Idle N) : s.Lawful := by
  rcases idle with rfl | ⟨-, destroyed, raw⟩
  · refine ⟨fun p => ?_, nofun⟩
    rw [init_slot]
    split
    · decide
    · decide
  · refine ⟨fun p => ?_, fun _ p => ?_⟩
    · rw [raw p]
      decide
    · rw [raw p]
      rfl

/-- A step that uses no slot leaves them constructed once. -/
lemma Idle.stays (idle : s.Idle N) (unused : s.Unused N a) (st : Exec (step N) s a s') :
    s'.Idle N := by
  have move := step_move st
  rcases idle with rfl | ⟨-, destroyed, -⟩
  · cases move with
    | aquire => exact unused.elim
    | release _ held => exact absurd held List.not_mem_nil
    | destroy =>
      have empty : N = 0 := unused
      subst empty
      exact .inr ⟨rfl, rfl, fun p => init_slot.trans (if_neg (Nat.not_lt_zero p))⟩
  · cases move with
    | aquire alive | release alive | destroy alive =>
      rw [destroyed] at alive
      cases alive

/-- In the beginning every slot is free. -/
lemma init_m_FreeList : (init N).client.pool.m_FreeList = (List.range N).reverse :=
  new_m_FreeList _

/-- The first `Aquire` constructs over a live object: the pre-allocated one on top of the stack, or the
    one that it has just created. -/
lemma first_aquire : ∃ p, ((init N).client.pool.aquire N).2.storage p =
    ⟨[.constructed, .constructed]⟩ := by
  cases N with
  | zero =>
    have none : (init 0).client.pool.m_FreeList = [] := init_m_FreeList
    refine ⟨_, (aquire_created none).trans ?_⟩
    show Object.construct (Object.construct ((init 0).slot _)) = _
    rw [init_slot, if_neg (Nat.not_lt_zero _)]
    rfl
  | succ n =>
    have top : (init (n + 1)).client.pool.m_FreeList = n :: (List.range n).reverse := by
      rw [init_m_FreeList, List.range_succ, List.reverse_concat]
    refine ⟨n, (aquire_slot top).trans ?_⟩
    show Object.construct ((init (n + 1)).slot n) = _
    rw [init_slot, if_pos (Nat.lt_succ_self n)]
    rfl

/-- `Free` destroys a pre-allocated object twice. -/
lemma first_free (slots : 0 < N) :
    (init N).client.pool.free.storage 0 = ⟨[.constructed, .destroyed, .destroyed]⟩ := by
  have nodup := List.nodup_reverse.mpr (List.nodup_range (n := N))
  rw [FreeList.free, init_m_FreeList, freeLoop_storage nodup,
    if_pos (List.mem_reverse.mpr (List.mem_range.mpr slots))]
  show Object.destruct (Object.destruct ((init N).slot 0)) = _
  rw [init_slot, if_pos slots]
  rfl

/-- The first use of a slot spoils it. -/
lemma Idle.lose (idle : s.Idle N) (used : ¬ s.Unused N a) (st : Exec (step N) s a s') :
    ∃ p, ¬ (s'.slot p).Alternates := by
  have move := step_move st
  rcases idle with rfl | ⟨-, destroyed, -⟩
  · cases move with
    | aquire =>
      obtain ⟨p, twice⟩ := first_aquire (N := N)
      refine ⟨p, ?_⟩
      unfold slot
      rw [twice]
      decide
    | release => exact absurd trivial used
    | destroy =>
      refine ⟨0, ?_⟩
      unfold slot
      rw [first_free (Nat.pos_of_ne_zero used)]
      decide
  · cases move with
    | aquire alive | release alive | destroy alive =>
      rw [destroyed] at alive
      cases alive

/-- Along a run the constructions and destructions of each slot alternate, and are even in the end, if
    and only if `Aquire` is never called and a pool that is destroyed has no slots. -/
theorem alternates_along_iff (N : Nat) {l : List Event} (run : Run (Exec (step N)) (init N) l s) :
    Along (Exec (step N)) Lawful (init N) l ↔ Meets (Exec (step N)) (Unused N) (init N) l := by
  apply along_iff_meets_of_last (G := Idle N) (B := fun s => ∃ p, ¬ (s.slot p).Alternates)
    (Exec.deterministic (step N)) run
  · exact .inl rfl
  · exact Idle.stays
  · exact Idle.lose
  · rintro s a s' ⟨p, twice⟩ st
    exact ⟨p, fun alternates => twice (alternates.of_prefix (step_grows st p))⟩
  · exact Idle.lawful
  · rintro ⟨p, twice⟩ lawful
    exact twice (lawful.1 p)

/-- A pool without slots is destroyed at once. -/
theorem alternates_along_iff_empty :
    ∃ s, Run (Exec (step 0)) (init 0) [.destroy] s ∧ s.destroyed = true ∧
      Along (Exec (step 0)) Lawful (init 0) [.destroy] := by
  have run : Run (Exec (step 0)) (init 0) [.destroy] _ := .single rfl
  exact ⟨_, run, rfl, (alternates_along_iff 0 run).mpr (meets_of_check (by decide))⟩

/-- A pool of one slot whose object is acquired, released and destroyed with the pool: two objects are
    constructed, one over the other, and three destructors run. -/
theorem used_pool_unlawful :
    ∃ s, Run (Exec (step 1)) (init 1) [.call .aquire, .call (.release 0), .destroy] s ∧
      s.slot 0 = ⟨[.constructed, .constructed, .destroyed, .destroyed, .destroyed]⟩ ∧
      ¬ s.Lawful := by
  have state : (exec (step 1) (init 1) [.call .aquire, .call (.release 0), .destroy]).map
      (fun s => s.slot 0) =
        some ⟨[.constructed, .constructed, .destroyed, .destroyed, .destroyed]⟩ := by decide
  obtain ⟨s, run, history⟩ := run_of_map state
  refine ⟨s, run, history, fun lawful => ?_⟩
  have alternates := lawful.1 0
  rw [history] at alternates
  exact absurd alternates (by decide)

/-! ## How far they are apart -/

/-- An object that is held has been constructed twice more often than destroyed, a free one once more
    often. -/
structure Balanced (c : Client Life) : Prop where
  acquired : ∀ p ∈ c.acquired, (c.pool.storage p).constructs = (c.pool.storage p).destroys + 2
  free : ∀ p ∈ c.pool.m_FreeList, (c.pool.storage p).constructs = (c.pool.storage p).destroys + 1
  fresh : ∀ p, c.pool.heap ≤ p → c.pool.storage p = .raw

/-- Destroyed once more often than constructed, each slot that there has been. -/
def Overdestroyed (f : FreeList Life) : Prop :=
  ∀ p < f.heap, (f.storage p).destroys = (f.storage p).constructs + 1

/-- The calls stay within the capacity of the pool. -/
def Roomy (N : Nat) (s : PoolLifetime) : Event → Prop
  | .call call => s.client.Roomy N call
  | .destroy => True

/-- The slots of a pool that exists, and of one that does not any more. -/
def Reckoned (s : PoolLifetime) : Prop :=
  (s.destroyed = false → s.client.Created ∧ s.client.Sound ∧ Balanced s.client) ∧
    (s.destroyed = true → Overdestroyed s.client.pool)

variable {c : Client Life}

/-- `Aquire` within the capacity keeps the balance. -/
lemma balanced_aquire (created : c.Created) (sound : c.Sound) (h : Balanced c)
    (room : c.Roomy N .aquire) :
    Balanced ⟨(c.pool.aquire N).2, (c.pool.aquire N).1 :: c.acquired⟩ := by
  have other := fun {p} => aquire_other (N := N) (f := c.pool) (p := p)
  cases free : c.pool.m_FreeList with
  | nil =>
    -- a pool without capacity: the object is created, constructed again and handed out
    have none : N = 0 := room.resolve_left (fun ne => ne free)
    subst none
    have slot := aquire_created (N := 0) free
    rw [aquire_nil free] at slot other ⊢
    have out : c.pool.heap ∉ c.acquired := fun mem => Nat.lt_irrefl _ (created _ (.inl mem))
    refine ⟨List.forall_mem_cons.mpr ⟨?_, fun p mem => ?_⟩, fun p mem => ?_, fun p above => ?_⟩
    · rw [slot, h.fresh _ (Nat.le_refl _)]
      rfl
    · rw [other (ne_of_mem_of_not_mem mem out)]
      exact h.acquired p mem
    · rw [construct_m_FreeList, push_m_FreeList, if_neg (Nat.not_lt_zero _), objNew_m_FreeList,
        free] at mem
      exact absurd mem List.not_mem_nil
    · rw [construct_heap, push_heap, objNew_heap] at above
      rw [other (Nat.ne_of_gt above)]
      exact h.fresh p (Nat.le_of_lt above)
  | cons ret rest =>
    have slot := aquire_slot (N := N) free
    rw [aquire_cons free] at slot other ⊢
    have top : ret ∈ c.pool.m_FreeList := free ▸ List.mem_cons_self
    have nodup := sound.free_nodup
    rw [free, List.nodup_cons] at nodup
    have out : ret ∉ c.acquired := fun mem => sound.disjoint ret mem top
    refine ⟨List.forall_mem_cons.mpr ⟨?_, fun p mem => ?_⟩, fun p mem => ?_, fun p above => ?_⟩
    · rw [slot, Life.constructs_construct, Life.destroys_construct, h.free ret top]
    · rw [other (ne_of_mem_of_not_mem mem out)]
      exact h.acquired p mem
    · rw [other (ne_of_mem_of_not_mem mem nodup.1)]
      exact h.free p (free ▸ List.mem_cons_of_mem ret mem)
    · rw [other (Nat.ne_of_gt (Nat.lt_of_lt_of_le (created ret (.inr top)) above))]
      exact h.fresh p above

/-- `Release` keeps the balance. -/
lemma balanced_release (created : c.Created) (sound : c.Sound) (h : Balanced c) {obj : Ptr}
    (held : obj ∈ c.acquired) : Balanced ⟨c.pool.release N obj, c.acquired.erase obj⟩ := by
  refine ⟨fun p mem => ?_, fun p mem => ?_, fun p above => ?_⟩
  · obtain ⟨ne, mem⟩ := sound.acquired_nodup.mem_erase_iff.mp mem
    rw [release_storage, if_neg ne]
    exact h.acquired p mem
  · rw [release_storage]
    split
    next e =>
      rw [Life.constructs_destruct, Life.destroys_destruct, e]
      exact h.acquired obj held
    next ne =>
      rw [release, push_m_FreeList, destruct_m_FreeList] at mem
      split at mem
      · exact h.free p ((List.mem_cons.mp mem).resolve_left ne)
      · exact h.free p mem
  · rw [release_heap] at above
    rw [release_storage, if_neg (Nat.ne_of_gt (Nat.lt_of_lt_of_le (created obj (.inl held)) above))]
    exact h.fresh p above

/-- Once everything has been released, `Free` runs two destructors on each slot. -/
lemma Balanced.free_pool (h : Balanced c) (sound : c.Sound) (idle : c.acquired = []) :
    Overdestroyed c.pool.free := by
  intro p below
  have free : p ∈ c.pool.m_FreeList := by
    rw [FreeList.free, freeLoop_heap] at below
    have kept := sound.kept p below
    rw [idle] at kept
    exact kept.resolve_left List.not_mem_nil
  have balance := h.free p free
  rw [FreeList.free, freeLoop_storage sound.free_nodup, if_pos free]
  simp only [Life.destroys_destruct, Life.constructs_destruct]
  omega

/-- The slots of a new pool are free. -/
lemma balanced_init (N : Nat) : Balanced (.init N fun _ => .raw) where
  acquired := nofun
  free p mem := by
    rw [Client.init, new_m_FreeList, List.mem_reverse, List.mem_range] at mem
    rw [Client.init, new_storage, if_pos mem]
    rfl
  fresh p above := by
    rw [Client.init, new_heap] at above
    rw [Client.init, new_storage, if_neg (Nat.not_lt.mpr above)]

/-- A step within the capacity keeps the reckoning. -/
lemma reckoned_step (h : s.Reckoned) (room : s.Roomy N a) (st : Exec (step N) s a s') :
    s'.Reckoned := by
  have move := step_move st
  cases move with
  | aquire alive =>
    obtain ⟨created, sound, balanced⟩ := h.1 alive
    have call : Exec (Client.step N) s.client .aquire _ := rfl
    have room : s.client.Roomy N .aquire := room
    refine ⟨fun _ => ?_, fun gone => absurd (alive.symm.trans gone) nofun⟩
    exact ⟨Client.created_step created call, Client.sound_step created sound room call,
      balanced_aquire created sound balanced room⟩
  | @release obj alive held =>
    obtain ⟨created, sound, balanced⟩ := h.1 alive
    have call : Exec (Client.step N) s.client (.release obj) _ := if_pos held
    have room : s.client.Roomy N (.release obj) := room
    refine ⟨fun _ => ?_, fun gone => absurd (alive.symm.trans gone) nofun⟩
    exact ⟨Client.created_step created call, Client.sound_step created sound room call,
      balanced_release created sound balanced held⟩
  | destroy alive idle =>
    obtain ⟨-, sound, balanced⟩ := h.1 alive
    exact ⟨nofun, fun _ => balanced.free_pool sound idle⟩

/-- In a run within the capacity of the pool an object that is held has been constructed twice more
    often than destroyed, and after the destructor every slot has been destroyed once more often than
    constructed. -/
theorem reckoned_of_roomy (N : Nat) {l : List Event}
    (meets : Meets (Exec (step N)) (Roomy N) (init N) l) :
    Along (Exec (step N)) Reckoned (init N) l := by
  refine meets.along ?_ reckoned_step
  exact ⟨fun _ => ⟨Client.created_init N _, Client.sound_init N _, balanced_init N⟩, nofun⟩

instance (N : Nat) (s : PoolLifetime) : (a : Event) → Decidable (s.Roomy N a)
  | .call .aquire => inferInstanceAs (Decidable (_ ∨ _))
  | .call (.release _) => inferInstanceAs (Decidable (_ < _))
  | .destroy => isTrue trivial

/-- The statement above at a slot that is used twice. -/
theorem reckoned_of_roomy_reuse :
    Along (Exec (step 1)) Reckoned (init 1)
      [.call .aquire, .call (.release 0), .call .aquire, .call (.release 0), .destroy] :=
  reckoned_of_roomy 1 (meets_of_check (by decide))

end PoolLifetime
end XLN
