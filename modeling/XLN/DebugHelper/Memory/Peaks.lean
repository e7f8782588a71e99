import XLN.DebugHelper.Memory.Threads

/-!
# The peaks

`Core/DebugHelper/Memory/MemTrackAllocator.cpp`: what `Allocate` and `DeAllocate` of any number of threads
do to the four counters. A step is one atomic operation. `Allocate` computes each peak from two loads, in
either order, and stores it later, so a store can come after the store of a greater peak, and a value that
a counter had only in between has been loaded by nobody. `peaks_of_orderly`: the peaks are right in every
run in which the calls keep out of each other's way between the load and the store of a peak, and between the
addition to a counter and its load. `counts_of_run`: the threads of the whole allocator do to the counters
exactly what these threads do.
-/

namespace XLN
open Transition Tracking

namespace Peaks

/-- A counter with its peak: `m_lAllocatedSize` and `m_lPeakSize`, or `m_lAllocatedCount` and
    `m_lPeakCount`. -/
inductive Gauge where
  | size
  | count
  deriving DecidableEq

/-- Where a thread is: between two calls, in `Allocate` (before, at and after its operations on the
    counters) or in `DeAllocate`. -/
inductive Pc where
  | idle
  | addSize (stSizeInBytes : UInt64)
  | addCount
  | max (g : Gauge)
  | loadAllocated (g : Gauge) (peak : UInt64)
  | loadPeak (g : Gauge) (allocated : UInt64)
  | store (g : Gauge) (peak : UInt64)
  | insert
  | remove
  | subSize (m_AllocSize : Int32)
  | subCount
  | addFreeInfo
  deriving DecidableEq

/-- What comes after the store of a peak. -/
def Pc.stored : Gauge → Pc
  | .size => .max .count
  | .count => .insert

/-- What a thread does next. From outside come the calls, whether they get to the counters at all, and what
    `Remove` has found. The order of the two loads is up to the compiler. -/
inductive Move where
  | allocate (stSizeInBytes : UInt64)
  | deAllocate
  | found (m_AllocSize : Int32)
  | leave
  | allocatedFirst
  | run
  deriving DecidableEq

end Peaks

/-- The counters, with all values that each `m_lAllocated` has had. -/
structure Peaks (τ : Type) where
  m_lAllocated : Peaks.Gauge → UInt64
  m_lPeak : Peaks.Gauge → UInt64
  pc : τ → Peaks.Pc
  had : Peaks.Gauge → List UInt64

namespace Peaks

section Definitions
variable {τ : Type}

def new : Peaks τ :=
  { m_lAllocated := fun _ => 0
    m_lPeak := fun _ => 0
    pc := fun _ => .idle
    had := fun _ => [0] }

/-- A counter gets a value. -/
def change (g : Gauge) (value : UInt64) (s : Peaks τ) : Peaks τ :=
  { s with
    m_lAllocated := Function.update s.m_lAllocated g value
    had := Function.update s.had g (value :: s.had g) }

/-- A peak is stored. -/
def store (g : Gauge) (peak : UInt64) (s : Peaks τ) : Peaks τ :=
  { s with m_lPeak := Function.update s.m_lPeak g peak }

variable [DecidableEq τ]

/-- A thread gets to another place. -/
def goto (i : τ) (pc : Pc) (s : Peaks τ) : Peaks τ :=
  { s with pc := Function.update s.pc i pc }

/-- One step of thread `i`. Gives `none` when the thread cannot make the move. -/
def step (s : Peaks τ) (a : τ × Move) : Option (Peaks τ) :=
  match s.pc a.1, a.2 with
  | .idle, .allocate stSizeInBytes => some (s.goto a.1 (.addSize stSizeInBytes))
  | .idle, .deAllocate => some (s.goto a.1 .remove)
  | .addSize _, .leave => some (s.goto a.1 .idle)
  | .addSize stSizeInBytes, .run =>
    some ((s.change .size (s.m_lAllocated .size + stSizeInBytes)).goto a.1 .addCount)
  | .addCount, .run => some ((s.change .count (s.m_lAllocated .count + 1)).goto a.1 (.max .size))
  | .max g, .run => some (s.goto a.1 (.loadAllocated g (s.m_lPeak g)))
  | .max g, .allocatedFirst => some (s.goto a.1 (.loadPeak g (s.m_lAllocated g)))
  | .loadAllocated g peak, .run => some (s.goto a.1 (.store g (max peak (s.m_lAllocated g))))
  | .loadPeak g allocated, .run => some (s.goto a.1 (.store g (max (s.m_lPeak g) allocated)))
  | .store g peak, .run => some ((s.store g peak).goto a.1 (.stored g))
  | .insert, .run => some (s.goto a.1 .idle)
  | .remove, .leave => some (s.goto a.1 .idle)
  | .remove, .found m_AllocSize => some (s.goto a.1 (.subSize m_AllocSize))
  | .subSize m_AllocSize, .run =>
    -- `fetch_sub` gets the member converted to `UInt64`
    some ((s.change .size (s.m_lAllocated .size - m_AllocSize.toInt64.toUInt64)).goto a.1 .subCount)
  | .subCount, .run => some ((s.change .count (s.m_lAllocated .count - 1)).goto a.1 .addFreeInfo)
  | .addFreeInfo, .run => some (s.goto a.1 .idle)
  | _, _ => none

end Definitions

namespace Pc

/-- A value that is not below the one that it has loaded from the counter. -/
def loaded : Pc → Option (Gauge × UInt64)
  | loadPeak g v | store g v => some (g, v)
  | _ => none

/-- The peak that the thread has loaded and is going to store. -/
def computes : Pc → Option (Gauge × UInt64)
  | loadAllocated g v | store g v => some (g, v)
  | _ => none

/-- The counters that the thread has added to and is still going to load. -/
def pending : Pc → List Gauge
  | addCount => [.size]
  | max .size | loadAllocated .size _ => [.size, .count]
  | loadPeak .size _ | store .size _ | max .count | loadAllocated .count _ => [.count]
  | _ => []

/-- Once a counter is loaded the other one stays as it was. -/
lemma pending_of_load {g g' : Gauge} (mem : g' ∈ (max g).pending) (other : g' ≠ g) (v : UInt64) :
    g' ∈ (loadPeak g v).pending := by
  cases g with
  | size => exact (List.mem_cons.mp mem).resolve_left other
  | count => exact absurd (List.mem_singleton.mp mem) other

/-- What waits does not depend on which of the two was loaded first. -/
lemma pending_loadAllocated {g : Gauge} {peak : UInt64} : (loadAllocated g peak).pending = (max g).pending := by
  cases g <;> rfl

/-- What waits stays when both are loaded. -/
lemma pending_store {g : Gauge} {v w : UInt64} : (store g v).pending = (loadPeak g w).pending := by
  cases g <;> rfl

end Pc

section Properties
variable {τ : Type}

/-- No call is in progress. -/
def Quiet (s : Peaks τ) : Prop :=
  ∀ i, s.pc i = .idle

/-- When no call is in progress, the peaks are at least every value that their counters have had. -/
def Covers (s : Peaks τ) : Prop :=
  s.Quiet → ∀ g, ∀ v ∈ s.had g, v ≤ s.m_lPeak g

/-- No thread but `i` is between its addition to the counter and the load of it. -/
def NoPending (s : Peaks τ) (i : τ) (g : Gauge) : Prop :=
  ∀ j, j ≠ i → g ∉ (s.pc j).pending

/-- What thread `i` does to the counters at a place disturbs no other thread: a peak is stored while no other
    thread is between the load and the store of it, nothing is subtracted from a counter while another thread
    has added to it and not yet loaded it, nor more than there is, and while there is such a thread no addition
    wraps. -/
def Undisturbing (s : Peaks τ) (i : τ) : Pc → Prop
  | .store g _ => ∀ j, j ≠ i → (s.pc j).computes.map Prod.fst ≠ some g
  | .addSize stSizeInBytes =>
    s.NoPending i .size ∨ s.m_lAllocated .size ≤ s.m_lAllocated .size + stSizeInBytes
  | .addCount => s.NoPending i .count ∨ s.m_lAllocated .count ≤ s.m_lAllocated .count + 1
  | .subSize m_AllocSize =>
    s.NoPending i .size ∧ m_AllocSize.toInt64.toUInt64 ≤ s.m_lAllocated .size
  | .subCount => s.NoPending i .count ∧ 1 ≤ s.m_lAllocated .count
  | _ => True

/-- The calls keep out of each other's way. -/
def Orderly (s : Peaks τ) (a : τ × Move) : Prop :=
  a.2 = .run → s.Undisturbing a.1 (s.pc a.1)

/-- No peak decreases in the step. -/
def Raises [DecidableEq τ] (s : Peaks τ) (a : τ × Move) : Prop :=
  ∀ s', Exec step s a s' → ∀ g, s.m_lPeak g ≤ s'.m_lPeak g

/-- A value that a counter has had does not get lost: it is in the peak, a thread that is going to store the
    peak has it in hand, or a thread is going to load the counter, which has not fallen below it. -/
inductive Kept (s : Peaks τ) (g : Gauge) (v : UInt64) : Prop where
  | peak :
    v ≤ s.m_lPeak g →
    Kept s g v
  | hand {i w} :
    (s.pc i).loaded = some (g, w) →
    v ≤ w →
    Kept s g v
  | pending {i} :
    g ∈ (s.pc i).pending →
    v ≤ s.m_lAllocated g →
    Kept s g v

/-- What holds while the calls keep out of each other's way. -/
structure Ordered (s : Peaks τ) : Prop where
  current : ∀ g, s.m_lAllocated g ∈ s.had g
  inHand : ∀ i g v, (s.pc i).computes = some (g, v) → s.m_lPeak g ≤ v
  kept : ∀ g, ∀ v ∈ s.had g, s.Kept g v

end Properties

/-! ## Steps -/

section Runs
variable {τ : Type} [DecidableEq τ]

/-- What a step can do. -/
inductive PeaksMove (s : Peaks τ) : τ × Move → Peaks τ → Prop where
  | pass {i move pc} :
    (s.pc i).loaded = none →
    (s.pc i).pending = [] →
    pc.computes = none →
    PeaksMove s (i, move) (s.goto i pc)
  | addSize {i stSizeInBytes} :
    s.pc i = .addSize stSizeInBytes →
    PeaksMove s (i, .run) ((s.change .size (s.m_lAllocated .size + stSizeInBytes)).goto i .addCount)
  | addCount {i} :
    s.pc i = .addCount →
    PeaksMove s (i, .run) ((s.change .count (s.m_lAllocated .count + 1)).goto i (.max .size))
  | subSize {i m_AllocSize} :
    s.pc i = .subSize m_AllocSize →
    PeaksMove s (i, .run)
      ((s.change .size (s.m_lAllocated .size - m_AllocSize.toInt64.toUInt64)).goto i .subCount)
  | subCount {i} :
    s.pc i = .subCount →
    PeaksMove s (i, .run) ((s.change .count (s.m_lAllocated .count - 1)).goto i .addFreeInfo)
  | peakFirst {i g} :
    s.pc i = .max g →
    PeaksMove s (i, .run) (s.goto i (.loadAllocated g (s.m_lPeak g)))
  | allocatedFirst {i g} :
    s.pc i = .max g →
    PeaksMove s (i, .allocatedFirst) (s.goto i (.loadPeak g (s.m_lAllocated g)))
  | loadAllocated {i g peak} :
    s.pc i = .loadAllocated g peak →
    PeaksMove s (i, .run) (s.goto i (.store g (max peak (s.m_lAllocated g))))
  | loadPeak {i g allocated} :
    s.pc i = .loadPeak g allocated →
    PeaksMove s (i, .run) (s.goto i (.store g (max (s.m_lPeak g) allocated)))
  | store {i g peak} :
    s.pc i = .store g peak →
    PeaksMove s (i, .run) ((s.store g peak).goto i (.stored g))

variable {s s' t : Peaks τ} {i : τ} {a : τ × Move} {l : List (τ × Move)} {g : Gauge} {v : UInt64}
  {pc : Pc}

/-- A step of a thread that has nothing in hand. -/
lemma PeaksMove.pass_of {q : Pc} {move : Move} (here : s.pc i = q) (empty : q.loaded = none)
    (settled : q.pending = []) (next : pc.computes = none) : PeaksMove s (i, move) (s.goto i pc) := by
  subst here
  exact .pass empty settled next

/-- Every step is one of these moves. -/
lemma step_move (st : Exec step s a s') : PeaksMove s a s' := by
  obtain ⟨i, move⟩ := a
  cases here : s.pc i with
  | idle =>
    rw [Exec, step, here] at st
    cases move with
    | allocate | deAllocate =>
      cases st
      exact .pass_of here rfl rfl rfl
    | _ => cases st
  | addSize =>
    rw [Exec, step, here] at st
    cases move with
    | run =>
      cases st
      exact .addSize here
    | leave =>
      cases st
      exact .pass_of here rfl rfl rfl
    | _ => cases st
  | addCount =>
    rw [Exec, step, here] at st
    cases move with
    | run =>
      cases st
      exact .addCount here
    | _ => cases st
  | max =>
    rw [Exec, step, here] at st
    cases move with
    | run =>
      cases st
      exact .peakFirst here
    | allocatedFirst =>
      cases st
      exact .allocatedFirst here
    | _ => cases st
  | loadAllocated =>
    rw [Exec, step, here] at st
    cases move with
    | run =>
      cases st
      exact .loadAllocated here
    | _ => cases st
  | loadPeak =>
    rw [Exec, step, here] at st
    cases move with
    | run =>
      cases st
      exact .loadPeak here
    | _ => cases st
  | store =>
    rw [Exec, step, here] at st
    cases move with
    | run =>
      cases st
      exact .store here
    | _ => cases st
  | insert | addFreeInfo =>
    rw [Exec, step, here] at st
    cases move with
    | run =>
      cases st
      exact .pass_of here rfl rfl rfl
    | _ => cases st
  | remove =>
    rw [Exec, step, here] at st
    cases move with
    | leave | found =>
      cases st
      exact .pass_of here rfl rfl rfl
    | _ => cases st
  | subSize =>
    rw [Exec, step, here] at st
    cases move with
    | run =>
      cases st
      exact .subSize here
    | _ => cases st
  | subCount =>
    rw [Exec, step, here] at st
    cases move with
    | run =>
      cases st
      exact .subCount here
    | _ => cases st

/-! ## The invariant -/

/-- The difference is not greater. -/
lemma sub_le {a b : UInt64} (le : b ≤ a) : a - b ≤ a := by
  rw [UInt64.le_iff_toNat_le] at le ⊢
  rw [UInt64.toNat_sub_of_le a b (UInt64.le_iff_toNat_le.mpr le)]
  exact Nat.sub_le _ _

/-- The greater one of two values is not less than the first one. -/
lemma le_max_left (a b : UInt64) : a ≤ max a b := by
  rw [UInt64.le_iff_toNat_le, toNat_max]
  exact Nat.le_max_left ..

omit [DecidableEq τ] in
/-- Before the first call. -/
lemma ordered_new : Ordered (new : Peaks τ) where
  current _ := List.mem_singleton_self _
  inHand _ _ _ e := nomatch e
  kept _ _ mem := .peak (List.mem_singleton.mp mem ▸ UInt64.le_refl _)

omit [DecidableEq τ] in
/-- A smaller value is kept, too. -/
lemma Kept.le {w : UInt64} (h : s.Kept g w) (le : v ≤ w) : s.Kept g v := by
  cases h with
  | peak le' => exact .peak (UInt64.le_trans le le')
  | hand e le' => exact .hand e (UInt64.le_trans le le')
  | pending mem le' => exact .pending mem (UInt64.le_trans le le')

/-- What a thread holds that does not move. -/
lemma pc_of_ne {j : τ} (pcs : t.pc = Function.update s.pc i pc) (ne : j ≠ i) : t.pc j = s.pc j := by
  rw [pcs, Function.update_of_ne ne]

/-- Thread `i` moves: what it has in hand it takes along or stores, and what waits for a load of the counter
    is taken care of. -/
lemma Kept.update (h : s.Kept g v) (pcs : t.pc = Function.update s.pc i pc)
    (raised : s.m_lPeak g ≤ t.m_lPeak g)
    (hand : ∀ w, (s.pc i).loaded = some (g, w) →
      w ≤ t.m_lPeak g ∨ ∃ w', pc.loaded = some (g, w') ∧ w ≤ w')
    (pending : ∀ j, g ∈ (s.pc j).pending → v ≤ s.m_lAllocated g → t.Kept g v) : t.Kept g v := by
  cases h with
  | peak le => exact .peak (UInt64.le_trans le raised)
  | @hand j w e le =>
    by_cases same : j = i
    · subst same
      rcases hand w e with le' | ⟨w', e', le'⟩
      · exact .peak (UInt64.le_trans le le')
      · refine .hand (i := j) ?_ (UInt64.le_trans le le')
        rw [pcs, Function.update_self, e']
    · refine .hand (i := j) ?_ le
      rw [pc_of_ne pcs same, e]
  | @pending j mem le => exact pending j mem le

/-- What waits for a load still does when the counter has not fallen and thread `i` still loads it. -/
lemma kept_of_pending (pcs : t.pc = Function.update s.pc i pc)
    (still : g ∈ (s.pc i).pending → g ∈ pc.pending) (grown : s.m_lAllocated g ≤ t.m_lAllocated g)
    (j : τ) (mem : g ∈ (s.pc j).pending) (le : v ≤ s.m_lAllocated g) : t.Kept g v := by
  by_cases same : j = i
  · subst same
    refine .pending (i := j) ?_ (UInt64.le_trans le grown)
    rw [pcs, Function.update_self]
    exact still mem
  · refine .pending (i := j) ?_ (UInt64.le_trans le grown)
    rw [pc_of_ne pcs same]
    exact mem

/-- No peak is stored, and what thread `i` computes is not below the peak. -/
lemma Ordered.inHand_update (h : s.Ordered) (pcs : t.pc = Function.update s.pc i pc)
    (same : t.m_lPeak = s.m_lPeak) (hand : ∀ g v, pc.computes = some (g, v) → s.m_lPeak g ≤ v)
    (j : τ) (g : Gauge) (v : UInt64) (e : (t.pc j).computes = some (g, v)) : t.m_lPeak g ≤ v := by
  rw [same]
  by_cases here : j = i
  · subst here
    rw [pcs, Function.update_self] at e
    exact hand g v e
  · rw [pc_of_ne pcs here] at e
    exact h.inHand j g v e

/-- A step that only loads. -/
lemma Ordered.load (h : s.Ordered) (hand : ∀ g v, pc.computes = some (g, v) → s.m_lPeak g ≤ v)
    (loaded : ∀ g w, (s.pc i).loaded = some (g, w) → ∃ w', pc.loaded = some (g, w') ∧ w ≤ w')
    (pending : ∀ g, g ∈ (s.pc i).pending → g ∈ pc.pending ∨
      ∃ w, pc.loaded = some (g, w) ∧ s.m_lAllocated g ≤ w) : (s.goto i pc).Ordered where
  current := h.current
  inHand := h.inHand_update rfl rfl hand
  kept g v mem := by
    have self : (s.goto i pc).pc i = pc := Function.update_self ..
    refine (h.kept g v mem).update rfl (UInt64.le_refl _) (fun w e => .inr (loaded g w e)) ?_
    intro j waits le
    by_cases here : g ∈ (s.pc i).pending
    · rcases pending g here with still | ⟨w, e, le'⟩
      · refine .pending (i := i) ?_ le
        rwa [self]
      · refine .hand (i := i) ?_ (UInt64.le_trans le le')
        rwa [self]
    · exact kept_of_pending rfl (fun mem => absurd mem here) (UInt64.le_refl _) j waits le

/-- A step that changes the counter `g`: nothing waits for a load of it and it does not grow, or it is going
    to be loaded, and what waits for that is not above it. -/
lemma Ordered.change {value : UInt64} (h : s.Ordered) (empty : (s.pc i).loaded = none)
    (next : pc.computes = none) (settled : g ∉ (s.pc i).pending)
    (others : s.NoPending i g ∧ value ≤ s.m_lAllocated g ∨
      g ∈ pc.pending ∧ (s.NoPending i g ∨ s.m_lAllocated g ≤ value))
    (pending : ∀ g', g' ≠ g → g' ∈ (s.pc i).pending → g' ∈ pc.pending) :
    ((s.change g value).goto i pc).Ordered := by
  have value_self : (s.change g value).m_lAllocated g = value := Function.update_self ..
  have value_ne : ∀ g', g' ≠ g → (s.change g value).m_lAllocated g' = s.m_lAllocated g' :=
    fun g' ne => Function.update_of_ne ne ..
  have had_self : (s.change g value).had g = value :: s.had g := Function.update_self ..
  have had_ne : ∀ g', g' ≠ g → (s.change g value).had g' = s.had g' :=
    fun g' ne => Function.update_of_ne ne ..
  have hand : ∀ g' w, (s.pc i).loaded = some (g', w) →
      w ≤ s.m_lPeak g' ∨ ∃ w', pc.loaded = some (g', w') ∧ w ≤ w' := by
    intro g' w e
    rw [empty] at e
    cases e
  -- the values that the counter has had before
  have old : ∀ v ∈ s.had g, ((s.change g value).goto i pc).Kept g v := by
    intro v mem
    refine (h.kept g v mem).update (t := (s.change g value).goto i pc) rfl (UInt64.le_refl _) (hand g)
      fun j waits le => ?_
    have elsewhere : j ≠ i := by
      rintro rfl
      exact settled waits
    rcases others with ⟨none, -⟩ | ⟨-, none | grows⟩
    · exact absurd waits (none j elsewhere)
    · exact absurd waits (none j elsewhere)
    · refine kept_of_pending (s := s) rfl (fun mem => absurd mem settled) ?_ j waits le
      show s.m_lAllocated g ≤ (s.change g value).m_lAllocated g
      rwa [value_self]
  refine ⟨fun g' => ?_, h.inHand_update rfl rfl fun g' v e => ?_, fun g' v mem => ?_⟩
  · show (s.change g value).m_lAllocated g' ∈ (s.change g value).had g'
    by_cases same : g' = g
    · subst same
      rw [value_self, had_self]
      exact List.mem_cons_self
    · rw [value_ne g' same, had_ne g' same]
      exact h.current g'
  · rw [next] at e
    cases e
  · replace mem : v ∈ (s.change g value).had g' := mem
    by_cases same : g' = g
    · subst same
      rw [had_self, List.mem_cons] at mem
      rcases mem with rfl | mem
      · rcases others with ⟨-, smaller⟩ | ⟨waits, -⟩
        · exact (old _ (h.current g')).le smaller
        · refine .pending (i := i) ?_ ?_
          · show g' ∈ (Function.update s.pc i pc i).pending
            rwa [Function.update_self]
          · show v ≤ (s.change g' v).m_lAllocated g'
            rw [value_self]
            exact UInt64.le_refl _
      · exact old v mem
    · rw [had_ne g' same] at mem
      exact (h.kept g' v mem).update rfl (UInt64.le_refl _) (hand g')
        (kept_of_pending rfl (pending g' same) (value_ne g' same ▸ UInt64.le_refl _))

/-- A step that stores a peak, which no other thread is computing. -/
lemma Ordered.store {peak : UInt64} (h : s.Ordered) (here : s.pc i = .store g peak)
    (others : ∀ j, j ≠ i → (s.pc j).computes.map Prod.fst ≠ some g) :
    ((s.store g peak).goto i (.stored g)).Ordered := by
  have computed : s.m_lPeak g ≤ peak := h.inHand i g peak (by rw [here]; rfl)
  have peak_self : (s.store g peak).m_lPeak g = peak := Function.update_self ..
  have peak_ne : ∀ g', g' ≠ g → (s.store g peak).m_lPeak g' = s.m_lPeak g' :=
    fun g' ne => Function.update_of_ne ne ..
  refine ⟨h.current, fun j g' v e => ?_, fun g' v mem => ?_⟩
  · show (s.store g peak).m_lPeak g' ≤ v
    have elsewhere : j ≠ i := by
      rintro rfl
      replace e : (Function.update s.pc j (Pc.stored g) j).computes = some (g', v) := e
      rw [Function.update_self] at e
      cases g <;> cases e
    replace e : (Function.update s.pc i (Pc.stored g) j).computes = some (g', v) := e
    rw [Function.update_of_ne elsewhere] at e
    by_cases same : g' = g
    · subst same
      exact absurd (by rw [e]; rfl) (others j elsewhere)
    · rw [peak_ne g' same]
      exact h.inHand j g' v e
  · refine (h.kept g' v mem).update rfl ?_ (fun w e => ?_) ?_
    · show s.m_lPeak g' ≤ (s.store g peak).m_lPeak g'
      by_cases same : g' = g
      · subst same
        rwa [peak_self]
      · rw [peak_ne g' same]
        exact UInt64.le_refl _
    · rw [here] at e
      cases e
      exact .inl (peak_self.symm ▸ UInt64.le_refl _)
    · refine kept_of_pending rfl ?_ (UInt64.le_refl _)
      rw [here]
      cases g <;> exact id

/-- An orderly step keeps the invariant. -/
lemma ordered_step (h : s.Ordered) (orderly : s.Orderly a) (st : Exec step s a s') : s'.Ordered := by
  have move := step_move st
  cases move with
  | @pass i move pc loaded pending next =>
    refine h.load (fun g v e => ?_) (fun g w e => ?_) fun g mem => ?_
    · rw [next] at e
      cases e
    · rw [loaded] at e
      cases e
    · rw [pending] at mem
      cases mem
  | @addSize i stSizeInBytes here =>
    have free := orderly rfl
    rw [here] at free
    refine h.change (by rw [here]; rfl) rfl (by rw [here]; nofun) (.inr ⟨by decide, free⟩) ?_
    rw [here]
    nofun
  | @addCount i here =>
    have free := orderly rfl
    rw [here] at free
    refine h.change (by rw [here]; rfl) rfl (by rw [here]; decide) (.inr ⟨by decide, free⟩) ?_
    intro g _ _
    cases g <;> decide
  | @subSize i m_AllocSize here =>
    have free := orderly rfl
    rw [here] at free
    refine h.change (by rw [here]; rfl) rfl (by rw [here]; nofun)
      (.inl ⟨free.1, sub_le free.2⟩) ?_
    rw [here]
    nofun
  | @subCount i here =>
    have free := orderly rfl
    rw [here] at free
    refine h.change (by rw [here]; rfl) rfl (by rw [here]; nofun)
      (.inl ⟨free.1, sub_le free.2⟩) ?_
    rw [here]
    nofun
  | @peakFirst i g here =>
    refine h.load (fun g' v e => ?_) (fun g' w e => ?_) fun g' mem => .inl ?_
    · cases e
      exact UInt64.le_refl _
    · rw [here] at e
      cases e
    · rw [here] at mem
      rwa [Pc.pending_loadAllocated]
  | @allocatedFirst i g here =>
    refine h.load (fun g' v e => nomatch e) (fun g' w e => ?_) fun g' mem => ?_
    · rw [here] at e
      cases e
    · by_cases same : g' = g
      · subst same
        exact .inr ⟨_, rfl, UInt64.le_refl _⟩
      · rw [here] at mem
        exact .inl (Pc.pending_of_load mem same _)
  | @loadAllocated i g peak here =>
    have le : s.m_lPeak g ≤ peak := h.inHand i g peak (by rw [here]; rfl)
    refine h.load (fun g' v e => ?_) (fun g' w e => ?_) fun g' mem => ?_
    · cases e
      exact UInt64.le_trans le (le_max_left ..)
    · rw [here] at e
      cases e
    · by_cases same : g' = g
      · subst same
        exact .inr ⟨_, rfl, le_max_right ..⟩
      · rw [here, Pc.pending_loadAllocated] at mem
        rw [Pc.pending_store (w := peak)]
        exact .inl (Pc.pending_of_load mem same _)
  | @loadPeak i g allocated here =>
    refine h.load (fun g' v e => ?_) (fun g' w e => ?_) fun g' mem => .inl ?_
    · cases e
      exact le_max_left ..
    · rw [here] at e
      cases e
      exact ⟨_, rfl, le_max_right ..⟩
    · rw [here] at mem
      rwa [Pc.pending_store (w := allocated)]
  | @store i g peak here =>
    have free := orderly rfl
    rw [here] at free
    exact h.store here free

/-! ## Runs -/

/-- A peak that is stored is not below the one that is there. -/
lemma Ordered.raises (h : s.Ordered) : s.Raises a := by
  intro s' st g
  have move := step_move st
  cases move with
  | @store i g' peak here =>
    have computed : s.m_lPeak g' ≤ peak := h.inHand i g' peak (by rw [here]; rfl)
    show s.m_lPeak g ≤ Function.update s.m_lPeak g' peak g
    by_cases same : g = g'
    · subst same
      rwa [Function.update_self]
    · rw [Function.update_of_ne same]
      exact UInt64.le_refl _
  | pass | addSize | addCount | subSize | subCount | peakFirst | allocatedFirst | loadAllocated
  | loadPeak => exact UInt64.le_refl _

omit [DecidableEq τ] in
/-- When no call is in progress, nothing is left in hand. -/
lemma Ordered.covers (h : s.Ordered) : s.Covers := by
  intro quiet g v mem
  cases h.kept g v mem with
  | peak le => exact le
  | @hand i w e =>
    rw [quiet i] at e
    cases e
  | @pending i waits =>
    rw [quiet i] at waits
    cases waits

/-- As long as the calls keep out of each other's way, the peaks never decrease, and whenever no call is in
    progress they are at least every value that their counters have had. -/
theorem peaks_of_orderly (orderly : Meets (Exec step) Orderly (new : Peaks τ) l) :
    Meets (Exec step) Raises new l ∧ Along (Exec step) Covers new l := by
  have ordered : Along (Exec step) Ordered (new : Peaks τ) l := orderly.along ordered_new ordered_step
  constructor
  · intro l1 a s1 pre run1
    exact (ordered l1 s1 ((List.prefix_append l1 [a]).trans pre) run1).raises
  · intro l1 s1 pre run1
    exact (ordered l1 s1 pre run1).covers

/-- With finitely many threads a step can be checked. -/
instance [Fintype τ] (s : Peaks τ) (i : τ) (g : Gauge) : Decidable (s.NoPending i g) :=
  inferInstanceAs (Decidable (∀ j, j ≠ i → g ∉ (s.pc j).pending))

instance [Fintype τ] (s : Peaks τ) (i : τ) : (pc : Pc) → Decidable (s.Undisturbing i pc)
  | .store g _ =>
    inferInstanceAs (Decidable (∀ j, j ≠ i → (s.pc j).computes.map Prod.fst ≠ some g))
  | .addSize _ => inferInstanceAs (Decidable (s.NoPending i .size ∨ _ ≤ _))
  | .addCount => inferInstanceAs (Decidable (s.NoPending i .count ∨ _ ≤ _))
  | .subSize _ => inferInstanceAs (Decidable (s.NoPending i .size ∧ _ ≤ _))
  | .subCount => inferInstanceAs (Decidable (s.NoPending i .count ∧ _ ≤ _))
  | .idle | .max _ | .loadAllocated _ _ | .loadPeak _ _ | .insert | .remove | .addFreeInfo =>
    isTrue trivial

instance [Fintype τ] (s : Peaks τ) (a : τ × Move) : Decidable (s.Orderly a) :=
  inferInstanceAs (Decidable (a.2 = .run → s.Undisturbing a.1 (s.pc a.1)))

/-- Two threads allocate eight and four bytes at the same time: both add before either of them loads, and
    the second one computes its peaks after the first one has stored them. -/
theorem peaks_of_orderly_two :
    let l : List (Bool × Move) :=
      [(false, .allocate 8), (true, .allocate 4), (false, .run), (true, .run), (true, .run),
        (false, .run)] ++ List.replicate 6 (false, .run) ++
        [(true, .allocatedFirst), (true, .run), (true, .run), (true, .run), (true, .run), (true, .run),
          (false, .run), (true, .run), (true, .deAllocate), (true, .found 4), (true, .run), (true, .run),
          (true, .run)]
    ∃ s : Peaks Bool, Run (Exec step) new l s ∧ s.m_lPeak .size = 12 ∧ s.m_lAllocated .size = 8 ∧
      Meets (Exec step) Raises new l ∧ Along (Exec step) Covers new l := by
  intro l
  have e : (exec step (new : Peaks Bool) l).map (fun s => (s.m_lPeak .size, s.m_lAllocated .size)) =
      some (12, 8) := by decide
  obtain ⟨s, run, last⟩ := run_of_map e
  simp only [Prod.mk.injEq] at last
  exact ⟨s, run, last.1, last.2, peaks_of_orderly (meets_of_check (by decide))⟩

/-- Two threads allocate one byte each. The first one computes the peak 1 before the second one begins, and
    stores it after the second one has stored 2. -/
theorem peak_lowered :
    let l : List (Bool × Move) :=
      (false, .allocate 1) :: List.replicate 4 (false, .run) ++
        (true, .allocate 1) :: List.replicate 5 (true, .run) ++
        List.replicate 5 (false, .run) ++ List.replicate 4 (true, .run)
    ∃ s : Peaks Bool, Run (Exec step) new l s ∧ s.m_lPeak .size = 1 ∧ s.m_lAllocated .size = 2 ∧
      ¬ (Meets (Exec step) Raises new l ∧ Along (Exec step) Covers new l) := by
  intro l
  have e : (exec step (new : Peaks Bool) l).map (fun s =>
      (s.m_lPeak .size, s.m_lAllocated .size, s.had .size, s.pc false, s.pc true)) =
      some (1, 2, [2, 1, 0], .idle, .idle) := by decide
  obtain ⟨s, run, last⟩ := run_of_map e
  simp only [Prod.mk.injEq] at last
  obtain ⟨peak, allocated, had, first, second⟩ := last
  refine ⟨s, run, peak, allocated, fun ⟨_, covers⟩ => ?_⟩
  have quiet : s.Quiet := by
    intro i
    cases i
    · exact first
    · exact second
  have le := covers l s (List.prefix_refl l) run quiet .size 2 (by rw [had]; exact List.mem_cons_self)
  rw [peak] at le
  exact absurd le (by decide)

end Runs

/-! ## The threads of the whole allocator -/

section Threads
variable {τ ν : Type} {s t : Threads τ ν} {p p' : Peaks τ} {i : τ} {pc : Threads.Pc ν}

/-- The counters of an allocator. -/
def allocated (m : MemTrackAllocator ν) : Gauge → UInt64
  | .size => m.m_lAllocatedSize
  | .count => m.m_lAllocatedCount

/-- Their peaks. -/
def peaks (m : MemTrackAllocator ν) : Gauge → UInt64
  | .size => m.m_lPeakSize
  | .count => m.m_lPeakCount

/-- The place of a thread among its operations on the counters. -/
def place : Threads.Pc ν → Pc
  | .idle => .idle
  | .getNextFreeInfo r | .externalAlloc r | .fill r _ | .count r _ .addSize => .addSize r.size
  | .count _ _ .addCount => .addCount
  | .count _ _ .maxSize => .max .size
  | .count _ _ (.loadSize peak) => .loadAllocated .size peak
  | .count _ _ (.loadPeakSize allocated) => .loadPeak .size allocated
  | .count _ _ (.storePeakSize peak) => .store .size peak
  | .count _ _ .maxCount => .max .count
  | .count _ _ (.loadCount peak) => .loadAllocated .count peak
  | .count _ _ (.loadPeakCount allocated) => .loadPeak .count allocated
  | .count _ _ (.storePeakCount peak) => .store .count peak
  | .insert _ _ => .insert
  -- what is subtracted is read together with the subtraction
  | .remove _ | .subSize _ => .remove
  | .subCount _ => .subCount
  | .addFreeInfo _ => .addFreeInfo

/-- What a step of a thread of the whole allocator is for the counters: `allocate` with the size that was
    asked for, `found` with the size in the record that `Remove` has given. -/
def moves [DecidableEq ν] (fuel : Nat) (s : Threads τ ν) (a : τ × Threads.Move ν) : List (τ × Move) :=
  match s.pc a.1, a.2 with
  | .idle, .allocate (some _) size _ _ _ => [(a.1, .allocate size)]
  | .externalAlloc _, .externalAlloc none => [(a.1, .leave)]
  | .count _ _ _, .allocatedFirst => [(a.1, .allocatedFirst)]
  | .count _ _ _, .run | .insert _ _, .run | .subCount _, .run | .addFreeInfo _, .run => [(a.1, .run)]
  | .idle, .deAllocate _ => [(a.1, .deAllocate)]
  | .remove p, .run =>
    match s.allocator.m_AllocHT.remove fuel p with
    | some (none, _) => [(a.1, .leave)]
    | _ => []
  | .subSize freeInfo, .run =>
    [(a.1, .found (s.allocator.m_AllocHT.infos freeInfo).m_AllocSize), (a.1, .run)]
  | _, _ => []

/-- The same for a run. -/
def trace [DecidableEq τ] [DecidableEq ν] (ndebug : Bool) (fuel : Nat) :
    Threads τ ν → List (τ × Threads.Move ν) → List (τ × Move)
  | _, [] => []
  | s, a :: l =>
    moves fuel s a ++
      match Threads.step ndebug fuel s a with
      | some t => trace ndebug fuel t l
      | none => []

/-- The counters are the same and every thread is at its place. -/
structure Counts (s : Threads τ ν) (p : Peaks τ) : Prop where
  allocated : p.m_lAllocated = allocated s.allocator
  peak : p.m_lPeak = peaks s.allocator
  pc : p.pc = place ∘ s.pc

/-- A change of `m_lAllocatedSize` or `m_lAllocatedCount`. -/
lemma update_allocated (m : MemTrackAllocator ν) (v : UInt64) :
    Function.update (allocated m) .size v = allocated { m with m_lAllocatedSize := v } ∧
      Function.update (allocated m) .count v = allocated { m with m_lAllocatedCount := v } := by
  constructor <;> funext g <;> cases g <;> rfl

/-- A change of `m_lPeakSize` or `m_lPeakCount`. -/
lemma update_peaks (m : MemTrackAllocator ν) (v : UInt64) :
    Function.update (peaks m) .size v = peaks { m with m_lPeakSize := v } ∧
      Function.update (peaks m) .count v = peaks { m with m_lPeakCount := v } := by
  constructor <;> funext g <;> cases g <;> rfl

/-- Only an idle thread is at the place of an idle one. -/
lemma place_eq_idle_iff {pc : Threads.Pc ν} : place pc = .idle ↔ pc = .idle := by
  cases pc with
  | count _ _ next => cases next <;> simp [place]
  | _ => simp [place]

/-- No call of the counters is in progress exactly if no call of the allocator is. -/
lemma Counts.quiet_iff (h : Counts s p) : p.Quiet ↔ s.Quiet := by
  unfold Quiet Threads.Quiet
  simp only [h.pc, Function.comp_apply, place_eq_idle_iff]

variable [DecidableEq τ]

/-- A step that neither uses the counters nor changes the place. -/
lemma Counts.silent (h : Counts s p) (pcs : t.pc = Function.update s.pc i pc)
    (same : place pc = place (s.pc i)) (counters : Peaks.allocated t.allocator = Peaks.allocated s.allocator)
    (peak : peaks t.allocator = peaks s.allocator) :
    ∃ p', Run (Exec step) p [] p' ∧ Counts t p' := by
  refine ⟨p, .nil, h.allocated.trans counters.symm, h.peak.trans peak.symm, ?_⟩
  rw [pcs, Function.comp_update, same, ← Function.comp_apply (f := place), Function.update_eq_self]
  exact h.pc

/-- A step that is one of the counters. -/
lemma Counts.follow (h : Counts s p) (pcs : t.pc = Function.update s.pc i pc) (move : Move)
    (p' : Peaks τ) (st : Exec step p (i, move) (p'.goto i (place pc))) (pc : p'.pc = p.pc)
    (counters : p'.m_lAllocated = Peaks.allocated t.allocator) (peak : p'.m_lPeak = peaks t.allocator) :
    ∃ p', Run (Exec step) p [(i, move)] p' ∧ Counts t p' := by
  refine ⟨_, .single st, counters, peak, ?_⟩
  rw [pcs, Function.comp_update, ← h.pc, ← pc]
  rfl

/-- The operations of `Allocate` are the same ones. -/
lemma counts_counting (h : Counts s p) {r : Threads.Request} {newInfo : ν} {next : Threads.Counting}
    (at_i : s.pc i = .count r newInfo next) :
    ∃ p', Run (Exec step) p [(i, .run)] p' ∧
      Counts ({ s with allocator := (next.run r.size s.allocator).1 }.goto i
        (.counting r newInfo (next.run r.size s.allocator).2)) p' := by
  have here : p.pc i = place (.count r newInfo next) := (congrFun h.pc i).trans (congrArg place at_i)
  cases next with
  | addSize =>
    refine h.follow rfl .run (p.change .size (p.m_lAllocated .size + r.size)) ?_ rfl ?_ h.peak
    · simp only [Exec, step, here, place]
      rfl
    · show Function.update p.m_lAllocated .size _ = _
      rw [h.allocated]
      exact (update_allocated s.allocator _).1
  | addCount =>
    refine h.follow rfl .run (p.change .count (p.m_lAllocated .count + 1)) ?_ rfl ?_ h.peak
    · simp only [Exec, step, here, place]
      rfl
    · show Function.update p.m_lAllocated .count _ = _
      rw [h.allocated]
      exact (update_allocated s.allocator _).2
  | maxSize | maxCount | loadPeakSize | loadPeakCount =>
    refine h.follow rfl .run p ?_ rfl h.allocated h.peak
    simp only [Exec, step, here, place]
    rw [h.peak]
    rfl
  | loadSize | loadCount =>
    refine h.follow rfl .run p ?_ rfl h.allocated h.peak
    simp only [Exec, step, here, place]
    rw [h.allocated]
    rfl
  | storePeakSize peak =>
    refine h.follow rfl .run (p.store .size peak) ?_ rfl h.allocated ?_
    · simp only [Exec, step, here, place]
      rfl
    · show Function.update p.m_lPeak .size peak = _
      rw [h.peak]
      exact (update_peaks s.allocator peak).1
  | storePeakCount peak =>
    refine h.follow rfl .run (p.store .count peak) ?_ rfl h.allocated ?_
    · simp only [Exec, step, here, place]
      rfl
    · show Function.update p.m_lPeak .count peak = _
      rw [h.peak]
      exact (update_peaks s.allocator peak).2

/-- The other order of the loads is the same one. -/
lemma counts_allocatedFirst (h : Counts s p) {r : Threads.Request} {newInfo : ν}
    {next next' : Threads.Counting} (at_i : s.pc i = .count r newInfo next)
    (first : next.allocatedFirst s.allocator = some next') :
    ∃ p', Run (Exec step) p [(i, .allocatedFirst)] p' ∧
      Counts (s.goto i (.count r newInfo next')) p' := by
  have here : p.pc i = place (.count r newInfo next) := (congrFun h.pc i).trans (congrArg place at_i)
  cases next with
  | maxSize | maxCount =>
    cases first
    refine h.follow rfl .allocatedFirst p ?_ rfl h.allocated h.peak
    simp only [Exec, step, here, place]
    rw [h.allocated]
    rfl
  | _ => cases first

/-- The subtraction comes together with what is subtracted. -/
lemma counts_subSize (h : Counts s p) {freeInfo : ν} (at_i : s.pc i = .subSize freeInfo)
    (m_AllocSize : Int32) :
    ∃ p', Run (Exec step) p [(i, .found m_AllocSize), (i, .run)] p' ∧
      Counts ({ s with allocator := { s.allocator with
        m_lAllocatedSize := s.allocator.m_lAllocatedSize - m_AllocSize.toInt64.toUInt64 } }.goto i
          (.subCount freeInfo)) p' := by
  have here : p.pc i = .remove := (congrFun h.pc i).trans (congrArg place at_i)
  have found : Exec step p (i, .found m_AllocSize) (p.goto i (.subSize m_AllocSize)) := by
    simp only [Exec, step, here]
  have between : (p.goto i (.subSize m_AllocSize)).pc i = .subSize m_AllocSize :=
    Function.update_self _ _ _
  let p' := (p.change .size (p.m_lAllocated .size - m_AllocSize.toInt64.toUInt64)).goto i .subCount
  have sub : Exec step (p.goto i (.subSize m_AllocSize)) (i, .run) p' := by
    simp only [Exec, step, between]
    simp only [p', goto, change, Function.update_idem]
  refine ⟨p', .snoc (.single found) sub, ?_, h.peak, ?_⟩
  · show Function.update p.m_lAllocated .size _ = _
    rw [h.allocated]
    exact (update_allocated s.allocator _).1
  · show Function.update p.pc i .subCount = place ∘ Function.update s.pc i (.subCount freeInfo)
    rw [Function.comp_update, ← h.pc]
    rfl

variable [DecidableEq ν] {ndebug : Bool} {fuel : Nat} {a : τ × Threads.Move ν}

/-- Every step of the whole allocator is these moves of the counters. -/
lemma counts_step (h : Counts s p) (st : Exec (Threads.step ndebug fuel) s a t) :
    ∃ p', Run (Exec step) p (moves fuel s a) p' ∧ Counts t p' := by
  obtain ⟨i, move⟩ := a
  have at_place : p.pc i = place (s.pc i) := congrFun h.pc i
  simp only [Exec, Threads.step] at st
  simp only [moves]
  split at st
  next allocatedAddr size file func line at_i =>
    rw [at_i]
    cases allocatedAddr with
    | none =>
      cases st
      exact ⟨p, .nil, h⟩
    | some addr =>
      simp only [Option.ite_none_left_eq_some, Option.some.injEq] at st
      obtain ⟨-, rfl⟩ := st
      refine h.follow rfl (.allocate size) p ?_ rfl h.allocated h.peak
      simp only [Exec, step, at_place, at_i, place]
  next r at_i =>
    rw [at_i]
    split at st
    next newInfo m res =>
      cases st
      obtain ⟨first, e⟩ := s.allocator.getNextFreeInfo_snd
      rw [res] at e
      cases e
      exact h.silent rfl (by rw [at_i]; rfl) rfl rfl
    next =>
      cases st
      exact h.silent rfl (by rw [at_i]; rfl) rfl rfl
  next r result at_i =>
    rw [at_i]
    cases result with
    | none =>
      cases st
      refine h.follow rfl .leave p ?_ rfl h.allocated h.peak
      simp only [Exec, step, at_place, at_i, place]
    | some newInfo =>
      simp only [Option.ite_none_left_eq_some, Option.some.injEq] at st
      obtain ⟨-, rfl⟩ := st
      exact h.silent rfl (by rw [at_i]; rfl) rfl rfl
  next r newInfo at_i =>
    rw [at_i]
    obtain ⟨m, res, e⟩ := Option.bind_eq_some_iff.mp st
    cases e
    obtain ⟨contents, -, rfl⟩ := MemTrackAllocator.fill_cases res
    exact h.silent rfl (by rw [at_i]; rfl) rfl rfl
  next r newInfo next at_i =>
    rw [at_i]
    cases st
    exact counts_counting h at_i
  next r newInfo next at_i =>
    rw [at_i]
    obtain ⟨next', first, e⟩ := Option.bind_eq_some_iff.mp st
    cases e
    exact counts_allocatedFirst h at_i first
  next r newInfo at_i =>
    rw [at_i]
    obtain ⟨t', res, e⟩ := Option.bind_eq_some_iff.mp st
    cases e
    refine h.follow rfl .run p ?_ rfl h.allocated h.peak
    simp only [Exec, step, at_place, at_i, place]
  next addr at_i =>
    rw [at_i]
    simp only [Option.ite_none_right_eq_some, Option.some.injEq] at st
    obtain ⟨-, rfl⟩ := st
    refine h.follow rfl .deAllocate p ?_ rfl h.allocated h.peak
    simp only [Exec, step, at_place, at_i, place]
  next addr at_i =>
    rw [at_i]
    obtain ⟨⟨freeInfo, t'⟩, res, e⟩ := Option.bind_eq_some_iff.mp st
    cases e
    simp only [res]
    cases freeInfo with
    | some freeInfo => exact h.silent rfl (by rw [at_i]; rfl) rfl rfl
    | none =>
      refine h.follow rfl .leave p ?_ rfl h.allocated h.peak
      simp only [Exec, step, at_place, at_i, place]
      rfl
  next freeInfo at_i =>
    rw [at_i]
    cases st
    exact counts_subSize h at_i _
  next freeInfo at_i =>
    rw [at_i]
    cases st
    refine h.follow rfl .run (p.change .count (p.m_lAllocated .count - 1)) ?_ rfl ?_ h.peak
    · simp only [Exec, step, at_place, at_i, place]
    · show Function.update p.m_lAllocated .count _ = _
      rw [h.allocated]
      exact (update_allocated s.allocator _).2
  next freeInfo at_i =>
    rw [at_i]
    cases st
    refine h.follow rfl .run p ?_ rfl h.allocated h.peak
    simp only [Exec, step, at_place, at_i, place]
  next => cases st

/-- What the threads of the whole allocator do to the counters is, step by step, the run of the counters along
    their moves, which is quiet when the threads are. -/
theorem counts_of_run (raw : ν → AllocateInfo ν) {l : List (τ × Threads.Move ν)}
    (run : Run (Exec (Threads.step ndebug fuel)) (.new raw) l s) :
    ∃ p, Run (Exec step) new (trace ndebug fuel (.new raw) l) p ∧ Counts s p ∧ (p.Quiet ↔ s.Quiet) := by
  have simulated : ∀ {l s0 p0}, Counts s0 p0 → Run (Exec (Threads.step ndebug fuel)) s0 l s →
      ∃ p, Run (Exec step) p0 (trace ndebug fuel s0 l) p ∧ Counts s p := by
    intro l
    induction l with
    | nil =>
      intro s0 p0 h run
      cases run.nil_inv
      exact ⟨p0, .nil, h⟩
    | cons a l ih =>
      intro s0 p0 h run
      obtain ⟨s1, st, rest⟩ := run.cons_inv
      obtain ⟨p1, run1, h1⟩ := counts_step h st
      obtain ⟨p2, run2, h2⟩ := ih h1 rest
      refine ⟨p2, ?_, h2⟩
      rw [trace, show Threads.step ndebug fuel s0 a = some s1 from st]
      exact run1.append run2
  have start : Counts (Threads.new raw) (new : Peaks τ) := by
    refine ⟨?_, ?_, rfl⟩ <;> funext g <;> cases g <;> rfl
  obtain ⟨p, run', counts⟩ := simulated start run
  exact ⟨p, run', counts, counts.quiet_iff⟩

/-- The counters of two threads that use one address in turn. -/
theorem counts_of_run_inTurn :
    ∃ (s : Threads Bool Bool) (p : Peaks Bool),
      (s.allocator.m_lAllocatedSize = 16 ∧ s.allocator.m_lPeakSize = 16) ∧
      Run (Exec step) new (trace true 9 (.new XLN.Threads.blank) XLN.Threads.inTurn) p ∧ Counts s p ∧
      (p.Quiet ↔ s.Quiet) := by
  have result : (exec (Threads.step true 9) (.new XLN.Threads.blank) XLN.Threads.inTurn).any fun s =>
      s.allocator.m_lAllocatedSize = 16 ∧ s.allocator.m_lPeakSize = 16 := by decide +kernel
  rw [Option.any_eq_true] at result
  obtain ⟨s, result, facts⟩ := result
  obtain ⟨p, run, counts, quiet⟩ := counts_of_run XLN.Threads.blank (run_exec_iff.mpr result)
  exact ⟨s, p, decide_eq_true_eq.mp facts, run, counts, quiet⟩

end Threads
end Peaks
end XLN
