import Mathlib.Data.Finset.Card
import XLN.Utility.Pool

/-!
# The object pool under threads

Any number of threads call `Aquire` and `Release` of one `FreeList`. An operation of the lock-free stack
is one step, and a label says which thread goes on. Between the emptiness test of an `Aquire` and its
`pop` other threads can take the last objects; `pop` then leaves `ret` null, and the placement `new`
does not look. So no `Aquire` gets a null address exactly if no `pop` comes too late
(`noNull_along_iff`), which a test that leaves an object for each thread on its way to a `pop` ensures
(`noNull_of_spare`).
-/

namespace XLN
open Transition

/-- Where a thread is: in none of the two methods; in `Aquire` at `XLN_OBJ_NEW`, at the `push` of the
    new object, at the `pop`, or at the placement `new` on `ret`, where `none` is null; in `Release` at
    the `push`. -/
inductive PoolPc where
  | idle
  | create
  | push (newObj : Ptr)
  | pop
  | construct (ret : Option Ptr)
  | giveBack (releaseObj : Ptr)
  deriving DecidableEq

/-- A pool and its threads, the objects that callers hold, and what the calls of `Aquire` have
    constructed a `T` at and returned. -/
structure SharedPool (τ T : Type) where
  pool : FreeList T
  pc : τ → PoolPc
  acquired : List Ptr
  returned : List (Option Ptr)

namespace SharedPool

/-- A thread begins one of the methods, or makes its next step. -/
inductive Action where
  | aquire
  | release (releaseObj : Ptr)
  | step

section Definitions
variable {τ T : Type}

/-- A new pool. -/
def init [Object T] (N : Nat) (raw : Ptr → T) : SharedPool τ T where
  pool := .new N raw
  pc := fun _ => .idle
  acquired := []
  returned := []

/-- Thread `t` goes to `pc`. -/
def goto [DecidableEq τ] (t : τ) (pc : PoolPc) (s : SharedPool τ T) : SharedPool τ T :=
  { s with pc := Function.update s.pc t pc }

/-- One step of a thread. `Aquire` begins with the emptiness test, `Release` with the destructor of an
    object that is held. -/
def step [DecidableEq τ] [Object T] (N : Nat) (s : SharedPool τ T) : τ × Action → Option (SharedPool τ T)
  | (t, .aquire) =>
    match s.pc t with
    | .idle => some (s.goto t (if s.pool.m_FreeList = [] then .create else .pop))
    | _ => none
  | (t, .release releaseObj) =>
    match s.pc t with
    | .idle =>
      if releaseObj ∈ s.acquired then
        some { s.goto t (.giveBack releaseObj) with
          pool := s.pool.destruct releaseObj
          acquired := s.acquired.erase releaseObj }
      else none
    | _ => none
  | (t, .step) =>
    match s.pc t with
    | .idle => none
    | .create => some { s.goto t (.push s.pool.objNew.1) with pool := s.pool.objNew.2 }
    | .push newObj =>
      some { s.goto t (.construct (some newObj)) with pool := s.pool.push N newObj }
    | .pop =>
      match s.pool.m_FreeList with
      | [] => some (s.goto t (.construct none))
      | ret :: rest =>
        some { s.goto t (.construct (some ret)) with pool := { s.pool with m_FreeList := rest } }
    | .construct (some ret) =>
      some { s.goto t .idle with
        pool := s.pool.construct ret
        acquired := ret :: s.acquired
        returned := s.returned ++ [some ret] }
    | .construct none => some { s.goto t .idle with returned := s.returned ++ [none] }
    | .giveBack releaseObj => some { s.goto t .idle with pool := s.pool.push N releaseObj }

/-- No `Aquire` has constructed a `T` at a null address and returned it, and none is about to. -/
def NoNull (s : SharedPool τ T) : Prop :=
  none ∉ s.returned ∧ ∀ t, s.pc t ≠ .construct none

/-- A `pop` finds an object. -/
def Stocked (s : SharedPool τ T) : τ × Action → Prop
  | (t, .step) => s.pc t = .pop → s.pool.m_FreeList ≠ []
  | (_, .aquire) | (_, .release _) => True

instance (s : SharedPool τ T) : (a : τ × Action) → Decidable (s.Stocked a)
  | (_, .step) => inferInstanceAs (Decidable (_ → _))
  | (_, .aquire) | (_, .release _) => inferInstanceAs (Decidable True)

/-- There are at least as many free objects as threads at a `pop`, which are among `waiting`. -/
structure Reserved (s : SharedPool τ T) (waiting : Finset τ) : Prop where
  pc : ∀ t, s.pc t = .pop → t ∈ waiting
  covered : waiting.card ≤ s.pool.m_FreeList.length

/-- An emptiness test that goes on to a `pop` leaves an object for each thread at a `pop`. -/
def Spare (s : SharedPool τ T) : τ × Action → Prop
  | (t, .aquire) => s.pc t = .idle → s.pool.m_FreeList ≠ [] →
    ∃ waiting : Finset τ, (∀ t, s.pc t = .pop → t ∈ waiting) ∧
      waiting.card < s.pool.m_FreeList.length
  | (_, .release _) | (_, .step) => True

end Definitions

variable {τ T : Type} [DecidableEq τ] [Object T] {N : Nat} {s s' : SharedPool τ T} {a : τ × Action}
  {t : τ} {waiting : Finset τ}

/-- What a step can do. -/
inductive PoolMove (N : Nat) (s : SharedPool τ T) (t : τ) : Action → SharedPool τ T → Prop where
  | create :
    s.pc t = .idle →
    s.pool.m_FreeList = [] →
    PoolMove N s t .aquire (s.goto t .create)
  | test :
    s.pc t = .idle →
    s.pool.m_FreeList ≠ [] →
    PoolMove N s t .aquire (s.goto t .pop)
  | destruct {releaseObj} :
    s.pc t = .idle →
    releaseObj ∈ s.acquired →
    PoolMove N s t (.release releaseObj) { s.goto t (.giveBack releaseObj) with
      pool := s.pool.destruct releaseObj
      acquired := s.acquired.erase releaseObj }
  | objNew :
    s.pc t = .create →
    PoolMove N s t .step { s.goto t (.push s.pool.objNew.1) with pool := s.pool.objNew.2 }
  | push {newObj} :
    s.pc t = .push newObj →
    PoolMove N s t .step { s.goto t (.construct (some newObj)) with pool := s.pool.push N newObj }
  | miss :
    s.pc t = .pop →
    s.pool.m_FreeList = [] →
    PoolMove N s t .step (s.goto t (.construct none))
  | pop {ret rest} :
    s.pc t = .pop →
    s.pool.m_FreeList = ret :: rest →
    PoolMove N s t .step { s.goto t (.construct (some ret)) with
      pool := { s.pool with m_FreeList := rest } }
  | construct {ret} :
    s.pc t = .construct (some ret) →
    PoolMove N s t .step { s.goto t .idle with
      pool := s.pool.construct ret
      acquired := ret :: s.acquired
      returned := s.returned ++ [some ret] }
  | null :
    s.pc t = .construct none →
    PoolMove N s t .step { s.goto t .idle with returned := s.returned ++ [none] }
  | giveBack {releaseObj} :
    s.pc t = .giveBack releaseObj →
    PoolMove N s t .step { s.goto t .idle with pool := s.pool.push N releaseObj }

/-- Every step is one of these moves. -/
lemma step_move (st : Exec (step N) s a s') : PoolMove N s a.1 a.2 s' := by
  obtain ⟨t, action⟩ := a
  unfold Exec step at st
  cases action with
  | aquire =>
    simp only at st
    split at st
    next idle =>
      cases st
      split
      next empty => exact .create idle empty
      next stocked => exact .test idle stocked
    next => cases st
  | release releaseObj =>
    simp only at st
    split at st
    next idle =>
      split at st
      next held =>
        cases st
        exact .destruct idle held
      next => cases st
    next => cases st
  | step =>
    simp only at st
    split at st
    next => cases st
    next pc =>
      cases st
      exact .objNew pc
    next pc =>
      cases st
      exact .push pc
    next pc =>
      split at st
      next empty =>
        cases st
        exact .miss pc empty
      next objects =>
        cases st
        exact .pop pc objects
    next pc =>
      cases st
      exact .construct pc
    next pc =>
      cases st
      exact .null pc
    next pc =>
      cases st
      exact .giveBack pc

/-! ## Null addresses -/

omit [Object T] in
/-- The place of each thread after one has gone on. -/
lemma pc_goto {pc : PoolPc} {t' : τ} :
    (s.goto t pc).pc t' = if t' = t then pc else s.pc t' :=
  Function.update_apply ..

omit [Object T] in
/-- A thread goes somewhere else than to a null address. -/
lemma NoNull.goto (h : s.NoNull) {pc : PoolPc} (ne : pc ≠ .construct none) :
    ∀ t', (s.goto t pc).pc t' ≠ .construct none := by
  intro t'
  rw [pc_goto]
  split
  · exact ne
  · exact h.2 t'

/-- A step that finds a slot gives no null. -/
lemma noNull_step (h : s.NoNull) (stocked : s.Stocked a) (st : Exec (step N) s a s') :
    s'.NoNull := by
  obtain ⟨t, action⟩ := a
  have move := step_move st
  cases move with
  | create | test | destruct | objNew | push | pop | giveBack => exact ⟨h.1, h.goto nofun⟩
  | miss pc empty => exact absurd empty (stocked pc)
  | @construct ret pc =>
    refine ⟨?_, h.goto nofun⟩
    show none ∉ s.returned ++ [some ret]
    simpa using h.1
  | null pc => exact absurd pc (h.2 t)

/-- A `pop` that comes too late. -/
lemma null_step (late : ¬ s.Stocked a) (st : Exec (step N) s a s') : ¬ s'.NoNull := by
  obtain ⟨t, action⟩ := a
  have move := step_move st
  cases move with
  | miss pc empty =>
    intro noNull
    refine noNull.2 t ?_
    rw [pc_goto, if_pos rfl]
  | pop pc objects => exact absurd (fun _ => objects ▸ List.cons_ne_nil _ _) late
  | create | test | destruct => exact absurd trivial late
  | objNew pc | push pc | construct pc | null pc | giveBack pc =>
    exact absurd (fun pop => nomatch pc.symm.trans pop) late

omit [DecidableEq τ] in
/-- In the beginning there is no null. -/
lemma noNull_init {raw : Ptr → T} : (init N raw : SharedPool τ T).NoNull :=
  ⟨List.not_mem_nil, nofun⟩

/-- Along a run no `Aquire` gets a null address if and only if every `pop` is made while the stack is
    not empty. -/
theorem noNull_along_iff (N : Nat) (raw : Ptr → T) {l : List (τ × Action)}
    (run : Run (Exec (step N)) (init N raw) l s) :
    Along (Exec (step N)) NoNull (init N raw) l ↔ Meets (Exec (step N)) Stocked (init N raw) l := by
  apply run.along_iff (Exec.deterministic (step N))
  · exact noNull_init
  · exact noNull_step
  · exact fun _ => null_step

/-- Two threads share a pool of one object; the second one begins while the first has it. -/
theorem noNull_along_iff_turns :
    let events : List (Fin 2 × Action) := [(0, .aquire), (0, .step), (1, .aquire), (0, .step),
      (1, .step), (1, .step), (1, .step)]
    ∃ s, Run (Exec (step 1)) (init 1 fun _ => ()) events s ∧ s.returned = [some 0, some 1] ∧
      Along (Exec (step 1)) NoNull (init 1 fun _ => ()) events := by
  intro events
  have state : (exec (step 1) (init 1 fun _ => ()) events).map SharedPool.returned =
      some [some 0, some 1] := by decide
  obtain ⟨s, run, returned⟩ := run_of_map state
  exact ⟨s, run, returned, (noNull_along_iff 1 _ run).mpr (meets_of_check (by decide))⟩

/-- Two threads test a pool of one object before either of them takes it: the second one constructs a
    `T` at a null address and returns it. -/
theorem null_returned :
    let events : List (Fin 2 × Action) := [(0, .aquire), (1, .aquire), (0, .step), (1, .step),
      (0, .step), (1, .step)]
    ∃ s, Run (Exec (step 1)) (init 1 fun _ => ()) events s ∧ s.returned = [some 0, none] ∧
      ¬ s.NoNull := by
  intro events
  have state : (exec (step 1) (init 1 fun _ => ()) events).map SharedPool.returned =
      some [some 0, none] := by decide
  obtain ⟨s, run, returned⟩ := run_of_map state
  refine ⟨s, run, returned, fun noNull => noNull.1 ?_⟩
  rw [returned]
  exact List.mem_cons_of_mem _ List.mem_cons_self

/-! ## Objects to spare -/

omit [Object T] in
/-- A push makes the stack no shorter. -/
lemma length_push {f : FreeList T} {obj : Ptr} :
    f.m_FreeList.length ≤ (f.push N obj).m_FreeList.length := by
  rw [FreeList.push_m_FreeList]
  split
  · exact Nat.le_succ _
  · exact Nat.le_refl _

omit [Object T] in
/-- A thread that is at no `pop` afterwards. -/
lemma Reserved.goto (h : s.Reserved waiting) {pc : PoolPc} (ne : pc ≠ .pop) :
    ∀ t', (s.goto t pc).pc t' = .pop → t' ∈ waiting := by
  intro t' pop
  rw [pc_goto] at pop
  split at pop
  · exact absurd pop ne
  · exact h.pc t' pop

/-- A step that leaves a spare slot keeps the others reserved. -/
lemma reserved_step (h : s.Reserved waiting) (spare : s.Spare a) (st : Exec (step N) s a s') :
    ∃ waiting', s'.Reserved waiting' := by
  obtain ⟨t, action⟩ := a
  have move := step_move st
  cases move with
  | create | destruct | objNew | construct | null => exact ⟨waiting, h.goto nofun, h.covered⟩
  | push | giveBack => exact ⟨waiting, h.goto nofun, h.covered.trans length_push⟩
  | test idle stocked =>
    -- the thread gets one of the objects that are left
    obtain ⟨waiting, among, less⟩ := spare idle stocked
    refine ⟨insert t waiting, fun t' pop => ?_, ?_⟩
    · rw [pc_goto] at pop
      split at pop
      next e => exact e ▸ Finset.mem_insert_self t waiting
      next => exact Finset.mem_insert_of_mem (among t' pop)
    · exact (Finset.card_insert_le t waiting).trans less
  | miss pc empty =>
    have covered := h.covered
    rw [empty, List.length_nil, Nat.le_zero, Finset.card_eq_zero] at covered
    have mem := h.pc t pc
    rw [covered] at mem
    exact absurd mem (Finset.notMem_empty t)
  | @pop ret rest pc objects =>
    refine ⟨waiting.erase t, fun t' pop => ?_, ?_⟩
    · rw [pc_goto] at pop
      split at pop
      next => cases pop
      next ne => exact Finset.mem_erase.mpr ⟨ne, h.pc t' pop⟩
    · have covered := h.covered
      rw [objects, List.length_cons] at covered
      show (waiting.erase t).card ≤ rest.length
      rw [Finset.card_erase_of_mem (h.pc t pc)]
      omega

omit [DecidableEq τ] [Object T] in
/-- With an object for each thread at a `pop` there is one for the next. -/
lemma Reserved.stocked (h : s.Reserved waiting) : s.Stocked a := by
  obtain ⟨t, action⟩ := a
  cases action with
  | aquire | release => trivial
  | step =>
    intro pc
    have positive := Finset.card_pos.mpr ⟨t, h.pc t pc⟩
    exact List.ne_nil_of_length_pos (positive.trans_le h.covered)

/-- No `Aquire` gets a null address in a run whose emptiness tests leave an object for each thread on
    its way to a `pop`. -/
theorem noNull_of_spare (N : Nat) (raw : Ptr → T) {l : List (τ × Action)}
    (meets : Meets (Exec (step N)) Spare (init N raw) l) :
    Along (Exec (step N)) NoNull (init N raw) l := by
  have both : Along (Exec (step N)) (fun s => s.NoNull ∧ ∃ waiting, s.Reserved waiting)
      (init N raw) l := by
    refine meets.along ?_ ?_
    · exact ⟨noNull_init, ∅, nofun, Nat.zero_le _⟩
    · rintro s a s' ⟨noNull, waiting, reserved⟩ spare st
      exact ⟨noNull_step noNull reserved.stocked st, reserved_step reserved spare st⟩
  exact fun l1 s pre run => (both l1 s pre run).1

/-- A thread that is alone needs nothing to be spared. -/
theorem noNull_alone [Subsingleton τ] (N : Nat) (raw : Ptr → T) (l : List (τ × Action)) :
    Along (Exec (step N)) NoNull (init N raw : SharedPool τ T) l := by
  apply noNull_of_spare
  rintro l1 ⟨t, action⟩ s - -
  cases action with
  | release | step => trivial
  | aquire =>
    intro idle stocked
    refine ⟨∅, fun t' pop => ?_, List.length_pos_of_ne_nil stocked⟩
    rw [Subsingleton.elim t' t, idle] at pop
    cases pop

end SharedPool
end XLN
