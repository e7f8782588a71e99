import XLN.Lib.Transition
import Mathlib.Logic.Function.Basic

/-!
# The memory manager

`Core/DebugHelper/MemoryMgr.cpp` and `MemObj.cpp`: memory goes through the allocator of the manager, which is
the default one until `SetAllocator` hands the manager another one. The manager owns the allocators that it is
given, and destroys each when it gets the next one or is destroyed itself; this also goes for the default one,
which `GetAllocator` hands out. `MemObj` has an `operator new` that passes the manager by, while its
`operator delete` never does.

A block must go back to the allocator that it comes from. The default allocator takes its memory from
`::operator new` as well, so with it the two ways agree; `own_along_iff` says which calls keep it so. Who
destroys which allocator is counted in `destroyed_of_run`.
-/

namespace XLN
open Transition

/-- The default allocator, or one that a user has made. -/
inductive MemAllocator where
  | def_
  | user (allocator : Nat)
  deriving DecidableEq

/-- `MemoryMgr` with `s_UserAllocator`, the allocators that were destroyed and freed, and the allocators that
    the live blocks come from; `::operator new` counts as the default one. -/
structure MemoryMgr where
  m_Allocator : MemAllocator
  s_UserAllocator : Bool
  destroyed : List MemAllocator
  blocks : Nat → Option MemAllocator
  ended : Bool

namespace MemoryMgr

def initial : MemoryMgr where
  m_Allocator := .def_
  s_UserAllocator := false
  destroyed := []
  blocks := fun _ => none
  ended := false

/-- `pkAllocator->~MemAllocator()` and `XLN_ExternalFree`, after the default allocator has taken its place. -/
def dropUser (s : MemoryMgr) : MemoryMgr :=
  if s.s_UserAllocator then
    { s with
      m_Allocator := .def_
      s_UserAllocator := false
      destroyed := s.destroyed ++ [s.m_Allocator] }
  else s

/-- `SetAllocator`, which may be given null. -/
def setAllocator (allocator : Option MemAllocator) (s : MemoryMgr) : MemoryMgr :=
  match allocator with
  | some allocator => { s.dropUser with s_UserAllocator := true, m_Allocator := allocator }
  | none => s.dropUser

/-- `Allocate`, of a block at `p`. -/
def allocate (p : Nat) (s : MemoryMgr) : MemoryMgr :=
  { s with blocks := Function.update s.blocks p (some s.m_Allocator) }

/-- `MemObj::operator new(size_t)`. -/
def operatorNew (p : Nat) (s : MemoryMgr) : MemoryMgr :=
  { s with blocks := Function.update s.blocks p (some .def_) }

/-- `DeAllocate`, which `MemObj::operator delete` calls. -/
def deAllocate (p : Nat) (s : MemoryMgr) : MemoryMgr :=
  { s with blocks := Function.update s.blocks p none }

/-- The destructor; it leaves the flag as it is. -/
def destruct (s : MemoryMgr) : MemoryMgr :=
  { s.dropUser with s_UserAllocator := s.s_UserAllocator, ended := true }

inductive Event where
  | setAllocator (allocator : Option MemAllocator)
  | allocate (p : Nat)
  | operatorNew (p : Nat)
  | deAllocate (p : Nat)
  | destruct
  deriving DecidableEq

/-- A call. Allocators return addresses that are not in use, and only live blocks are freed; after the
    destructor there are no calls. -/
def step (s : MemoryMgr) (e : Event) : Option MemoryMgr :=
  if s.ended then none else
  match e with
  | .setAllocator allocator => some (s.setAllocator allocator)
  | .allocate p => if s.blocks p = none then some (s.allocate p) else none
  | .operatorNew p => if s.blocks p = none then some (s.operatorNew p) else none
  | .deAllocate p => if s.blocks p = none then none else some (s.deAllocate p)
  | .destruct => some s.destruct

/-- The allocator of the manager has not been destroyed, and every block comes from it. -/
structure Sound (s : MemoryMgr) : Prop where
  live : s.m_Allocator ∉ s.destroyed
  own : ∀ p allocator, s.blocks p = some allocator → allocator = s.m_Allocator

/-- The allocator that is the manager's after a call has not been destroyed, and is not the one that the call
    destroys; there are no blocks, unless it was the manager's before. -/
structure TakesOver (allocator : MemAllocator) (s : MemoryMgr) : Prop where
  fresh : allocator ∉ s.destroyed
  other : s.s_UserAllocator = true → allocator ≠ s.m_Allocator
  empty : allocator = s.m_Allocator ∨ ∀ p, s.blocks p = none

/-- What `SetAllocator` is given can take over, and where it is given nothing, and at the end, the default
    allocator can; `MemObj::operator new` is only used with the default allocator. -/
def Proper (s : MemoryMgr) : Event → Prop
  | .setAllocator (some allocator) => s.TakesOver allocator
  | .setAllocator none | .destruct => s.TakesOver .def_
  | .operatorNew _ => s.m_Allocator = .def_
  | .allocate _ | .deAllocate _ => True

/-- The allocators that the manager was given. -/
def given (l : List Event) : List MemAllocator :=
  l.filterMap fun
    | .setAllocator allocator => allocator
    | _ => none

/-- The allocator that the manager has yet to destroy. -/
def held (s : MemoryMgr) : List MemAllocator :=
  if s.s_UserAllocator ∧ s.ended = false then [s.m_Allocator] else []

/-- Without an allocator that it was given, the manager has the default one. -/
def Kept (s : MemoryMgr) : Prop :=
  s.s_UserAllocator = false → s.m_Allocator = .def_

variable {s s' : MemoryMgr} {l : List Event} {e : Event} {p : Nat}

/-- What a step is. -/
lemma step_cases (h : step s e = some s') : s.ended = false ∧
    ((∃ allocator, e = .setAllocator allocator ∧ s' = s.setAllocator allocator) ∨
      (∃ p, e = .allocate p ∧ s' = s.allocate p) ∨ (∃ p, e = .operatorNew p ∧ s' = s.operatorNew p) ∨
      (∃ p, e = .deAllocate p ∧ s' = s.deAllocate p) ∨ e = .destruct ∧ s' = s.destruct) := by
  unfold step at h
  split at h
  · cases h
  · rename_i going
    refine ⟨Bool.eq_false_iff.mpr going, ?_⟩
    cases e with
    | setAllocator allocator => exact .inl ⟨allocator, rfl, (Option.some.inj h).symm⟩
    | allocate p =>
      simp only at h
      split at h
      · exact .inr (.inl ⟨p, rfl, (Option.some.inj h).symm⟩)
      · cases h
    | operatorNew p =>
      simp only at h
      split at h
      · exact .inr (.inr (.inl ⟨p, rfl, (Option.some.inj h).symm⟩))
      · cases h
    | deAllocate p =>
      simp only at h
      split at h
      · cases h
      · exact .inr (.inr (.inr (.inl ⟨p, rfl, (Option.some.inj h).symm⟩)))
    | destruct => exact .inr (.inr (.inr (.inr ⟨rfl, (Option.some.inj h).symm⟩)))

/-- The two cases of `dropUser`. -/
lemma Kept.dropUser (kept : Kept s) :
    s.s_UserAllocator = true ∧ s.dropUser.m_Allocator = .def_ ∧ s.dropUser.s_UserAllocator = false ∧
        s.dropUser.destroyed = s.destroyed ++ [s.m_Allocator] ∨
      s.s_UserAllocator = false ∧ s.m_Allocator = .def_ ∧ s.dropUser = s := by
  cases flag : s.s_UserAllocator with
  | true => exact .inl ⟨rfl, by simp [MemoryMgr.dropUser, flag]⟩
  | false => exact .inr ⟨rfl, kept flag, by simp [MemoryMgr.dropUser, flag]⟩

/-- Then the default allocator is there. -/
lemma dropUser_m_Allocator (kept : Kept s) : s.dropUser.m_Allocator = .def_ := by
  rcases kept.dropUser with ⟨-, e, -⟩ | ⟨-, e, same⟩
  · exact e
  · rw [same, e]

/-- Then no allocator is there that was given. -/
lemma dropUser_s_UserAllocator (kept : Kept s) : s.dropUser.s_UserAllocator = false := by
  rcases kept.dropUser with ⟨-, -, e, -⟩ | ⟨e, -, same⟩
  · exact e
  · rw [same, e]

/-- Dropping the user's allocator leaves the blocks. -/
@[simp] lemma dropUser_blocks : s.dropUser.blocks = s.blocks := by
  unfold MemoryMgr.dropUser
  split <;> rfl

/-- Dropping the user's allocator does not end the manager. -/
@[simp] lemma dropUser_ended : s.dropUser.ended = s.ended := by
  unfold MemoryMgr.dropUser
  split <;> rfl

/-- In the beginning the default allocator is used. -/
lemma kept_initial : Kept initial :=
  fun _ => rfl

/-- After every call an allocator that is not the user's is the default one. -/
lemma Kept.step (kept : Kept s) (h : step s e = some s') : Kept s' := by
  obtain ⟨-, ⟨allocator, -, rfl⟩ | ⟨p, -, rfl⟩ | ⟨p, -, rfl⟩ | ⟨p, -, rfl⟩ | ⟨-, rfl⟩⟩ := step_cases h
  · cases allocator with
    | some allocator => exact nofun
    | none => exact fun _ => dropUser_m_Allocator kept
  · exact kept
  · exact kept
  · exact kept
  · exact fun _ => dropUser_m_Allocator kept

/-- An allocator can be the manager's after the present one is dropped if and only if it can take over. -/
lemma takesOver_iff {allocator : MemAllocator} (flag ended : Bool) (kept : Kept s) (sound : Sound s) :
    Sound { s.dropUser with m_Allocator := allocator, s_UserAllocator := flag, ended := ended } ↔
      s.TakesOver allocator := by
  constructor
  · rintro ⟨live, own⟩
    replace live : allocator ∉ s.dropUser.destroyed := live
    replace own : ∀ p origin, s.blocks p = some origin → origin = allocator :=
      fun p origin block => own p origin ((congrFun dropUser_blocks p).trans block)
    refine ⟨?_, ?_, ?_⟩
    · rcases kept.dropUser with ⟨-, -, -, destroyed⟩ | ⟨-, -, same⟩
      · rw [destroyed] at live
        exact fun mem => live (List.mem_append_left _ mem)
      · rwa [same] at live
    · intro user
      rcases kept.dropUser with ⟨-, -, -, destroyed⟩ | ⟨no, -, -⟩
      · rw [destroyed] at live
        exact fun e => live (List.mem_append_right _ (List.mem_singleton.mpr e))
      · cases no.symm.trans user
    · by_cases same : allocator = s.m_Allocator
      · exact .inl same
      · refine .inr fun p => ?_
        cases block : s.blocks p with
        | none => rfl
        | some origin => exact absurd ((own p origin block).symm.trans (sound.own p origin block)) same
  · rintro ⟨fresh, other, empty⟩
    refine ⟨?_, fun p origin block => ?_⟩
    · show allocator ∉ s.dropUser.destroyed
      rcases kept.dropUser with ⟨user, -, -, destroyed⟩ | ⟨-, -, same⟩
      · rw [destroyed, List.mem_append, List.mem_singleton]
        rintro (mem | e)
        · exact fresh mem
        · exact other user e
      · rwa [same]
    · replace block : s.blocks p = some origin := (congrFun dropUser_blocks p).symm.trans block
      show origin = allocator
      rcases empty with same | none
      · rw [sound.own p origin block, same]
      · cases (none p).symm.trans block

/-- After `SetAllocator(0)` and after the destructor the default allocator has taken over. -/
lemma dropUser_eq (kept : Kept s) : s.dropUser = { s.dropUser with
    m_Allocator := .def_
    s_UserAllocator := false } := by
  rw [← dropUser_m_Allocator kept, ← dropUser_s_UserAllocator kept]

/-- After a call the allocator is live and the blocks are its own if and only if the call was proper. -/
lemma sound_iff_step (kept : Kept s) (sound : Sound s) (h : step s e = some s') :
    Sound s' ↔ Proper s e := by
  have update : ∀ {p o q origin}, Function.update s.blocks p o q = some origin →
      o = some origin ∨ origin = s.m_Allocator := by
    intro p o q origin block
    by_cases here : q = p
    · rw [here, Function.update_self] at block
      exact .inl block
    · rw [Function.update_of_ne here] at block
      exact .inr (sound.own q origin block)
  obtain ⟨going, ⟨allocator, rfl, rfl⟩ | ⟨p, rfl, rfl⟩ | ⟨p, rfl, rfl⟩ | ⟨p, rfl, rfl⟩ | ⟨rfl, rfl⟩⟩ :=
    step_cases h
  · cases allocator with
    | some allocator => exact takesOver_iff _ s.dropUser.ended kept sound
    | none =>
      show Sound s.dropUser ↔ _
      rw [dropUser_eq kept]
      exact takesOver_iff _ s.dropUser.ended kept sound
  · refine iff_of_true ⟨sound.live, fun q origin block => ?_⟩ trivial
    rcases update block with e | e
    · exact (Option.some.inj e).symm
    · exact e
  · constructor
    · intro sound'
      exact (sound'.own p .def_ (Function.update_self ..)).symm
    · intro at_default
      refine ⟨sound.live, fun q origin block => ?_⟩
      rcases update block with e | e
      · exact (Option.some.inj e).symm.trans at_default.symm
      · exact e
  · refine iff_of_true ⟨sound.live, fun q origin block => ?_⟩ trivial
    rcases update block with e | e
    · cases e
    · exact e
  · have same : s.destruct = { s.dropUser with
        m_Allocator := .def_
        s_UserAllocator := s.s_UserAllocator
        ended := true } := by
      rw [← dropUser_m_Allocator kept]
      rfl
    rw [same]
    exact takesOver_iff _ _ kept sound

/-- In a run, every block that is freed goes to the allocator it comes from, whenever that is, and no call
    reaches an allocator that has been destroyed, if and only if all calls are proper. -/
theorem own_along_iff (run : Run (Exec step) initial l s) :
    Along (Exec step) Sound initial l ↔ Meets (Exec step) Proper initial l :=
  along_iff_meets (Exec.deterministic _) run ⟨nofun, nofun⟩ kept_initial Kept.step
    (fun kept sound proper st => (sound_iff_step kept sound st).mpr proper)
    fun kept sound improper st => mt (sound_iff_step kept sound st).mp improper

/-- A tracking allocator is set while a `MemObj` is alive. -/
theorem own_along_iff_late :
    ¬ Along (Exec step) Sound initial [.operatorNew 8, .setAllocator (some (.user 0))] := by
  rw [own_along_iff (run_exec_iff.mpr rfl)]
  intro meets
  have proper := meets [.operatorNew 8] (.setAllocator (some (.user 0))) _ (List.prefix_refl _)
    (run_exec_iff.mpr rfl)
  rcases TakesOver.empty proper with same | none
  · cases same
  · cases none 8

/-- Every allocator that the manager was given is destroyed once for each time that it was given, in order,
    and at the latest by the destructor; so is the default one, if it was given. -/
theorem destroyed_of_run (run : Run (Exec step) initial l s) :
    s.destroyed ++ s.held = given l := by
  induction run with
  | nil => rfl
  | @snoc l s e s' run st ih =>
    have kept : Kept s := run.invariant kept_initial Kept.step
    have drop : s.ended = false → s.dropUser.destroyed = given l := by
      intro going
      rw [← ih]
      rcases kept.dropUser with ⟨flag, -, -, e⟩ | ⟨flag, -, same⟩
      · rw [e, held, if_pos ⟨flag, going⟩]
      · rw [same, held, if_neg (by simp [flag]), List.append_nil]
    obtain ⟨going, ⟨allocator, rfl, rfl⟩ | ⟨p, rfl, rfl⟩ | ⟨p, rfl, rfl⟩ | ⟨p, rfl, rfl⟩ | ⟨rfl, rfl⟩⟩ :=
      step_cases st
    · cases allocator with
      | some allocator =>
        have now : held (s.setAllocator (some allocator)) = [allocator] :=
          if_pos ⟨rfl, dropUser_ended.trans going⟩
        rw [now, given, List.filterMap_append]
        exact congrArg (· ++ [allocator]) (drop going)
      | none =>
        have now : held (s.setAllocator none) = [] := by
          refine if_neg fun both => ?_
          cases (dropUser_s_UserAllocator kept).symm.trans both.1
        rw [now, given, List.filterMap_append]
        exact congrArg (· ++ []) (drop going)
    · rw [given, List.filterMap_append]
      exact ih.trans (List.append_nil _).symm
    · rw [given, List.filterMap_append]
      exact ih.trans (List.append_nil _).symm
    · rw [given, List.filterMap_append]
      exact ih.trans (List.append_nil _).symm
    · have now : held s.destruct = [] := if_neg nofun
      rw [now, given, List.filterMap_append]
      exact congrArg (· ++ []) (drop going)

/-- The manager is given its own default allocator, as `GetAllocator` returns it, and then another one: the
    default allocator is destroyed. -/
theorem destroyed_of_run_default : ∃ s : MemoryMgr, s.destroyed = [.def_] ∧ s.held = [.user 0] ∧
    s.destroyed ++ s.held = given [.setAllocator (some .def_), .setAllocator (some (.user 0))] :=
  ⟨_, rfl, rfl, destroyed_of_run (run_exec_iff.mpr rfl)⟩

end MemoryMgr
end XLN
