import Mathlib.Data.Int.ModEq
import XLN.Lib.Transition

/-!
# The frame executor

`Core/Foundation/FrameExecutor.cpp`: `OnThreadRun` adds up the ticks between its readings of a clock that
wraps around at `2 ^ 32` milliseconds, and hands them to `OnFrame` when they exceed `m_MillisPerFrame`. No
tick is lost or handed over twice: `time_kept`.
-/

namespace XLN
open Transition

/-- What `FrameExecutor` counts with. -/
structure FrameExecutor where
  m_PrevRenderTick : UInt32
  m_MillisPerFrame : UInt32
  m_CurAccuTime : UInt32

/-- `TimeUtil::GetTickCount`, with the milliseconds of the steady clock. -/
def getTickCount (now : Nat) : UInt32 :=
  UInt32.ofNat now

namespace FrameExecutor

def onThreadPreRun (now : Nat) (e : FrameExecutor) : FrameExecutor :=
  { e with m_PrevRenderTick := getTickCount now, m_CurAccuTime := 0 }

/-- `OnThreadRun` with the argument of `OnFrame`, if it calls it. `m_MillisPerFrame` is read once,
    before the posted tasks run; a `SetMaxFPS` that one of them makes inside the call is left out. -/
def onThreadRun (now : Nat) (e : FrameExecutor) : FrameExecutor × Option UInt32 :=
  let curTime := getTickCount now
  let deltaTime := curTime - e.m_PrevRenderTick
  let m_CurAccuTime := e.m_CurAccuTime + deltaTime
  if e.m_MillisPerFrame < m_CurAccuTime then
    ({ e with m_CurAccuTime := 0, m_PrevRenderTick := curTime }, some m_CurAccuTime)
  else ({ e with m_CurAccuTime := m_CurAccuTime, m_PrevRenderTick := curTime }, none)

end FrameExecutor

/-- A call of `OnThreadRun`, or of `SetMaxFPS` with what it makes of the rate. -/
inductive FrameEvent where
  | onThreadRun (now : Nat)
  | setMaxFPS (m_MillisPerFrame : UInt32)

/-- An executor with the time of its last reading and the arguments of `OnFrame`, each with the
    `m_MillisPerFrame` that was in force. -/
structure FrameTimes where
  executor : FrameExecutor
  last : Nat
  frames : List (UInt32 × UInt32)

namespace FrameTimes

/-- After `OnThreadPreRun` at time `t0`. -/
def start (executor : FrameExecutor) (t0 : Nat) : FrameTimes :=
  { executor := executor.onThreadPreRun t0, last := t0, frames := [] }

def step (s : FrameTimes) : FrameEvent → FrameTimes
  | .onThreadRun now =>
    let (executor, frame) := s.executor.onThreadRun now
    { executor := executor
      last := now
      frames := s.frames ++ frame.toList.map fun deltaTime => (deltaTime, s.executor.m_MillisPerFrame) }
  | .setMaxFPS m_MillisPerFrame =>
    { s with executor := { s.executor with m_MillisPerFrame := m_MillisPerFrame } }

def Step : FrameTimes → FrameEvent → FrameTimes → Prop :=
  Exec fun s e => some (s.step e)

/-- The sum of all arguments of `OnFrame` so far and `m_CurAccuTime`. -/
def total (s : FrameTimes) : Nat :=
  (s.frames.map fun frame => frame.1.toNat).sum + s.executor.m_CurAccuTime.toNat

/-- The clock has gone on by so little that this and the bound `M` of `m_MillisPerFrame` stay below
    `2 ^ 32`. -/
def Paced (M : Nat) (s : FrameTimes) : FrameEvent → Prop
  | .onThreadRun now => s.last ≤ now ∧ now - s.last + M < 2 ^ 32
  | .setMaxFPS m_MillisPerFrame => m_MillisPerFrame.toNat ≤ M

instance (M : Nat) (s : FrameTimes) : (e : FrameEvent) → Decidable (Paced M s e)
  | .onThreadRun now => inferInstanceAs (Decidable (s.last ≤ now ∧ now - s.last + M < 2 ^ 32))
  | .setMaxFPS m_MillisPerFrame => inferInstanceAs (Decidable (m_MillisPerFrame.toNat ≤ M))

variable {s s' : FrameTimes} {executor : FrameExecutor} {e : FrameEvent} {l : List FrameEvent}
  {t0 now M : Nat}

/-! ## Ticks -/

/-- Addition is that of the integers modulo `2 ^ 32`. -/
lemma add_modEq (a b : UInt32) : ((a + b).toNat : Int) ≡ a.toNat + b.toNat [ZMOD 2 ^ 32] := by
  rw [UInt32.toNat_add]
  push_cast
  exact Int.mod_modEq _ _

/-- Subtraction is that of the integers modulo `2 ^ 32`. -/
lemma sub_modEq (a b : UInt32) : ((a - b).toNat : Int) ≡ a.toNat - b.toNat [ZMOD 2 ^ 32] := by
  have sum := add_modEq (a - b) b
  rw [UInt32.sub_add_cancel] at sum
  simpa using (sum.symm.sub_right (b.toNat : Int))

/-- The difference of two readings is the time between them, if that is short enough. -/
lemma toNat_tick_sub {a b : Nat} (le : a ≤ b) (lt : b - a < 2 ^ 32) :
    (getTickCount b - getTickCount a).toNat = b - a := by
  rw [getTickCount, getTickCount, UInt32.toNat_sub, UInt32.toNat_ofNat', UInt32.toNat_ofNat']
  omega

/-! ## One call -/

/-- What `OnThreadRun` has added up is in the argument of `OnFrame` or stays in `m_CurAccuTime`. -/
lemma onThreadRun_cases (s : FrameTimes) (now : Nat) :
    let accu := s.executor.m_CurAccuTime + (getTickCount now - s.executor.m_PrevRenderTick)
    (s.step (.onThreadRun now)).executor.m_PrevRenderTick = getTickCount now ∧
    (s.step (.onThreadRun now)).executor.m_MillisPerFrame = s.executor.m_MillisPerFrame ∧
    (s.executor.m_MillisPerFrame < accu ∧
        (s.step (.onThreadRun now)).frames = s.frames ++ [(accu, s.executor.m_MillisPerFrame)] ∧
        (s.step (.onThreadRun now)).executor.m_CurAccuTime = 0 ∨
      accu ≤ s.executor.m_MillisPerFrame ∧ (s.step (.onThreadRun now)).frames = s.frames ∧
        (s.step (.onThreadRun now)).executor.m_CurAccuTime = accu) := by
  intro accu
  by_cases full : s.executor.m_MillisPerFrame < accu
  · have run : s.executor.onThreadRun now =
        ({ s.executor with m_CurAccuTime := 0, m_PrevRenderTick := getTickCount now }, some accu) :=
      if_pos full
    rw [step, run]
    exact ⟨rfl, rfl, .inl ⟨full, rfl, rfl⟩⟩
  · have run : s.executor.onThreadRun now =
        ({ s.executor with m_CurAccuTime := accu, m_PrevRenderTick := getTickCount now }, none) :=
      if_neg full
    rw [step, run]
    exact ⟨rfl, rfl, .inr ⟨UInt32.not_lt.mp full, List.append_nil _, rfl⟩⟩

/-- A call adds what it has read to the sum. -/
lemma total_onThreadRun (s : FrameTimes) (now : Nat) :
    (s.step (.onThreadRun now)).total = (s.frames.map fun frame => frame.1.toNat).sum +
      (s.executor.m_CurAccuTime + (getTickCount now - s.executor.m_PrevRenderTick)).toNat := by
  obtain ⟨-, -, ⟨-, frames, accu⟩ | ⟨-, frames, accu⟩⟩ := s.onThreadRun_cases now
  · rw [total, frames, accu, List.map_append, List.sum_append]
    rfl
  · rw [total, frames, accu]

/-! ## Runs -/

/-- Up to multiples of `2 ^ 32`, the sum is the last reading less the first one. -/
structure Kept (t0 : Nat) (s : FrameTimes) : Prop where
  tick : s.executor.m_PrevRenderTick = getTickCount s.last
  total : (s.total : Int) ≡ (getTickCount s.last).toNat - (getTickCount t0).toNat [ZMOD 2 ^ 32]
  frames : ∀ frame ∈ s.frames, frame.2 < frame.1

/-- The sum is the time that has passed. -/
structure Exact (M t0 : Nat) (s : FrameTimes) : Prop where
  total : s.total + t0 = s.last
  rate : s.executor.m_MillisPerFrame.toNat ≤ M
  accu : s.executor.m_CurAccuTime.toNat ≤ M

/-- In the beginning no time has passed. -/
lemma kept_start : Kept t0 (start executor t0) :=
  ⟨rfl, by simp [start, FrameTimes.total, FrameExecutor.onThreadPreRun], fun _ mem => nomatch mem⟩

/-- A step loses no time modulo `2 ^ 32`. -/
lemma kept_step (h : Kept t0 s) (st : Step s e s') : Kept t0 s' := by
  cases st
  cases e with
  | setMaxFPS => exact ⟨h.tick, h.total, h.frames⟩
  | onThreadRun now =>
    obtain ⟨tick, -, frame⟩ := s.onThreadRun_cases now
    refine ⟨tick, ?_, ?_⟩
    · have delta := sub_modEq (getTickCount now) s.executor.m_PrevRenderTick
      have accu := add_modEq s.executor.m_CurAccuTime (getTickCount now - s.executor.m_PrevRenderTick)
      have before := h.total
      rw [← h.tick, FrameTimes.total, Nat.cast_add] at before
      rw [total_onThreadRun, Nat.cast_add]
      show _ ≡ ((getTickCount now).toNat : Int) - _ [ZMOD 2 ^ 32]
      generalize (((s.frames.map fun frame => frame.1.toNat).sum : Nat) : Int) = sum at before ⊢
      calc sum + (s.executor.m_CurAccuTime + (getTickCount now - s.executor.m_PrevRenderTick)).toNat
          ≡ sum + (s.executor.m_CurAccuTime.toNat +
              (getTickCount now - s.executor.m_PrevRenderTick).toNat) [ZMOD 2 ^ 32] := accu.add_left sum
        _ = (sum + s.executor.m_CurAccuTime.toNat) +
              (getTickCount now - s.executor.m_PrevRenderTick).toNat := (add_assoc _ _ _).symm
        _ ≡ (s.executor.m_PrevRenderTick.toNat - (getTickCount t0).toNat) +
              ((getTickCount now).toNat - s.executor.m_PrevRenderTick.toNat) [ZMOD 2 ^ 32] :=
            before.add delta
        _ = (getTickCount now).toNat - (getTickCount t0).toNat := sub_add_sub_cancel' _ _ _
    · intro f mem
      rcases frame with ⟨full, frames, -⟩ | ⟨-, frames, -⟩
      · rw [frames, List.mem_append, List.mem_singleton] at mem
        rcases mem with old | rfl
        · exact h.frames f old
        · exact full
      · exact h.frames f (frames ▸ mem)

/-- In the beginning the sum is exact. -/
lemma exact_start (bounded : executor.m_MillisPerFrame.toNat ≤ M) : Exact M t0 (start executor t0) :=
  ⟨by simp [start, FrameTimes.total, FrameExecutor.onThreadPreRun], bounded, Nat.zero_le _⟩

/-- A step at the pace keeps the sum exact. -/
lemma exact_step (kept : Kept t0 s) (h : Exact M t0 s) (paced : Paced M s e) (st : Step s e s') :
    Exact M t0 s' := by
  cases st
  cases e with
  | setMaxFPS => exact ⟨h.total, paced, h.accu⟩
  | onThreadRun now =>
    obtain ⟨later, short⟩ := paced
    have rate := h.rate
    have accu := h.accu
    have before := h.total
    have delta : (getTickCount now - s.executor.m_PrevRenderTick).toNat = now - s.last := by
      rw [kept.tick]
      exact toNat_tick_sub later (by omega)
    have sum : (s.executor.m_CurAccuTime + (getTickCount now - s.executor.m_PrevRenderTick)).toNat =
        s.executor.m_CurAccuTime.toNat + (now - s.last) := by
      rw [UInt32.toNat_add, delta, Nat.mod_eq_of_lt (by omega)]
    obtain ⟨-, same, frame⟩ := s.onThreadRun_cases now
    refine ⟨?_, by rw [same]; exact rate, ?_⟩
    · rw [total_onThreadRun, sum]
      rw [FrameTimes.total] at before
      show _ = now
      omega
    · rcases frame with ⟨-, -, empty⟩ | ⟨le, -, left⟩
      · rw [empty]
        exact Nat.zero_le _
      · rw [left]
        exact (UInt32.le_iff_toNat_le.mp le).trans rate

/-- After `OnThreadPreRun` at `t0` and any calls, the arguments of `OnFrame` and `m_CurAccuTime` sum up to
    the last reading less the first one, up to multiples of `2 ^ 32`. If every gap between readings and the
    bound `M` of `m_MillisPerFrame` stay below `2 ^ 32`, they sum up to the time that has passed, and every
    argument exceeds the `m_MillisPerFrame` in force. -/
theorem time_kept (executor : FrameExecutor) (t0 : Nat) (run : Run Step (start executor t0) l s) :
    ((s.total : Int) ≡ (getTickCount s.last).toNat - (getTickCount t0).toNat [ZMOD 2 ^ 32]) ∧
      ∀ M, executor.m_MillisPerFrame.toNat ≤ M → Meets Step (Paced M) (start executor t0) l →
        s.total + t0 = s.last ∧ ∀ frame ∈ s.frames, frame.2 < frame.1 := by
  have kept : Kept t0 s := run.invariant kept_start kept_step
  refine ⟨kept.total, fun M bounded paced => ⟨?_, kept.frames⟩⟩
  have along : Along Step (Exact M t0) (start executor t0) l :=
    along_of_meets (exact_start bounded) kept_start kept_step exact_step paced
  exact (along l s (List.prefix_refl l) run).total

/-- The statement above across a wrap-around of the clock: a reading at `2 ^ 32 - 10`, two more 40 ms later
    each. -/
theorem time_kept_wrap :
    let executor : FrameExecutor := ⟨0, 33, 0⟩
    let l : List FrameEvent := [.onThreadRun (2 ^ 32 + 30), .setMaxFPS 50, .onThreadRun (2 ^ 32 + 70)]
    ∃ s, Run Step (start executor (2 ^ 32 - 10)) l s ∧ s.frames = [(40, 33)] ∧
      ((s.total : Int) ≡ (getTickCount s.last).toNat - (getTickCount (2 ^ 32 - 10)).toNat [ZMOD 2 ^ 32]) ∧
      s.total + (2 ^ 32 - 10) = s.last := by
  intro executor l
  have run : Run Step (start executor (2 ^ 32 - 10)) l (l.foldl step (start executor (2 ^ 32 - 10))) :=
    .snoc (.snoc (.single rfl) rfl) rfl
  obtain ⟨congruent, exact_of⟩ := time_kept executor (2 ^ 32 - 10) run
  have paced : Meets Step (Paced 50) (start executor (2 ^ 32 - 10)) l := meets_of_check (by decide)
  exact ⟨_, run, by decide, congruent, (exact_of 50 (by decide) paced).1⟩

end FrameTimes
end XLN
