import XLN.Client.DownloaderEventCurl

/-!
# The end of a downloader

`ThreadProc`, `OnExit` and the destructor of `Client/DownloaderEventCurl.cpp`, around the downloader. The
destructor activates `m_ExitEvent` and joins the event thread, which leaves its loop at `OnExit`; then it
frees the queue and the events. Other threads may call `sendDownloadTask` and `setMaxConcurrency` all the
while.

The event thread uses nothing that is freed, so only late calls can (`unfreed_along_iff`). A task whose
transfer has not ended when the loop is left keeps its promise unset for good (`promises_of_exit`).
-/

namespace XLN
open Transition

namespace DownloaderExit

/-- Where the event thread is in `ThreadProc`. -/
inductive ProcPc where
  | multiInit
  | dispatch
  | multiCleanup
  | ended
  deriving DecidableEq

/-- Where the destructor is. -/
inductive DestructorPc where
  | exitActive
  | join
  | deleteQueue
  | freeInteruptEvent
  | freeCurlTimerEvent
  | freeExitEvent
  | freeEventBase
  | selfStorage
  | returned
  deriving DecidableEq

/-- What the destructor frees; `self` is the downloader's own storage. -/
inductive Member where
  | m_WaitingTask
  | m_InteruptEvent
  | m_CurlTimerEvent
  | m_ExitEvent
  | m_EventBase
  | self
  deriving DecidableEq

/-- A step of the downloader, of `ThreadProc` around its loop, or of the destructor. -/
inductive Event (η τ : Type) where
  | downloader (e : DownloaderEventCurl.Event η τ)
  | threadProc
  | onExit
  | destructor

end DownloaderExit

open DownloaderExit in
/-- A downloader with its event thread and its destructor. `exit` says that `m_ExitEvent` is active,
    `dangling` that something was used that is freed. -/
structure DownloaderExit (η τ : Type) where
  downloader : DownloaderEventCurl η τ
  m_Thread : ProcPc
  exit : Bool
  destructor : DestructorPc
  dangling : Bool

namespace DownloaderExit

/-- What is freed where the destructor is. -/
def DestructorPc.freed : DestructorPc → List Member
  | .exitActive | .join | .deleteQueue => []
  | .freeInteruptEvent => [.m_WaitingTask]
  | .freeCurlTimerEvent => [.m_WaitingTask, .m_InteruptEvent]
  | .freeExitEvent => [.m_WaitingTask, .m_InteruptEvent, .m_CurlTimerEvent]
  | .freeEventBase => [.m_WaitingTask, .m_InteruptEvent, .m_CurlTimerEvent, .m_ExitEvent]
  | .selfStorage => [.m_WaitingTask, .m_InteruptEvent, .m_CurlTimerEvent, .m_ExitEvent, .m_EventBase]
  | .returned => [.m_WaitingTask, .m_InteruptEvent, .m_CurlTimerEvent, .m_ExitEvent, .m_EventBase, .self]

/-- What the destructor uses; `event_free` takes the event out of its base. -/
def DestructorPc.uses : DestructorPc → List Member
  | .exitActive => [.self, .m_ExitEvent, .m_EventBase]
  | .join => [.self]
  | .deleteQueue => [.self, .m_WaitingTask]
  | .freeInteruptEvent => [.self, .m_InteruptEvent, .m_EventBase]
  | .freeCurlTimerEvent => [.self, .m_CurlTimerEvent, .m_EventBase]
  | .freeExitEvent => [.self, .m_ExitEvent, .m_EventBase]
  | .freeEventBase => [.self, .m_EventBase]
  | .selfStorage => [.self]
  | .returned => []

variable {η τ : Type}

/-- Steps that the event thread takes in its loop. -/
def ofThread : DownloaderEventCurl.Event η τ → Bool
  | .push _ | .eventActive | .setMaxConcurrency _ | .othersObtain _ | .othersReturn _ => false
  | _ => true

/-- What a step of the downloader uses; curl calls `OnCurlTimer` where a handle is added or worked on. -/
def usedBy (d : DownloaderEventCurl η τ) : DownloaderEventCurl.Event η τ → List Member
  | .push _ => [.self, .m_WaitingTask]
  | .eventActive => [.self, .m_InteruptEvent, .m_EventBase]
  | .setMaxConcurrency _ => [.self]
  | .onInterrupt => [.m_InteruptEvent, .m_EventBase]
  | .checkSocket => [.self, .m_CurlTimerEvent, .m_EventBase]
  | .infoRead _ => [.self]
  | .run =>
    match d.pc with
    | .condition => [.self, .m_WaitingTask]
    | .addHandle .. => [.self, .m_CurlTimerEvent, .m_EventBase]
    | .eventActive => [.self, .m_InteruptEvent, .m_EventBase]
    | .insert .. | .find .. | .erase .. | .removeHandle _ => [.self]
    | _ => []
  | _ => []

def uses (s : DownloaderExit η τ) : Event η τ → List Member
  | .downloader e => usedBy s.downloader e
  | .threadProc => [.self, .m_CurlTimerEvent, .m_EventBase]
  | .onExit => [.self, .m_ExitEvent, .m_EventBase]
  | .destructor => s.destructor.uses

/-- The constructor. -/
def new (limit : Int32) (tasks : τ → CurlDownloadTask) : DownloaderExit η τ where
  downloader := .new limit tasks
  m_Thread := .multiInit
  exit := false
  destructor := .exitActive
  dangling := false

/-- `ThreadProc` goes on outside of its loop. -/
def threadProc (s : DownloaderExit η τ) : Option (DownloaderExit η τ) :=
  match s.m_Thread with
  | .multiInit => some { s with m_Thread := .dispatch }
  | .multiCleanup => some
    { s with m_Thread := .ended, downloader := { s.downloader with m_CurlMHandle := [] } }
  | .dispatch | .ended => none

/-- The loop calls `OnExit` between other callbacks, and is left after that. -/
def onExit (s : DownloaderExit η τ) : Option (DownloaderExit η τ) :=
  match s.m_Thread, s.downloader.pc with
  | .dispatch, .dispatch => if s.exit then some { s with m_Thread := .multiCleanup } else none
  | _, _ => none

/-- The destructor goes on. -/
def destruct (s : DownloaderExit η τ) : Option (DownloaderExit η τ) :=
  match s.destructor with
  | .exitActive => some { s with destructor := .join, exit := true }
  | .join => if s.m_Thread = .ended then some { s with destructor := .deleteQueue } else none
  | .deleteQueue => some
    { s with
      destructor := .freeInteruptEvent
      downloader := { s.downloader with m_WaitingTask := [] } }
  | .freeInteruptEvent => some { s with destructor := .freeCurlTimerEvent }
  | .freeCurlTimerEvent => some { s with destructor := .freeExitEvent }
  | .freeExitEvent => some { s with destructor := .freeEventBase }
  | .freeEventBase => some { s with destructor := .selfStorage }
  | .selfStorage => some { s with destructor := .returned }
  | .returned => none

section Step
variable [DecidableEq η] [DecidableEq τ]

/-- A step if nothing that it uses is freed. -/
def next (s : DownloaderExit η τ) (e : Event η τ) : Option (DownloaderExit η τ) :=
  match e with
  | .downloader e =>
    if ofThread e ∧ s.m_Thread ≠ .dispatch then none
    else (s.downloader.step e).map fun downloader => { s with downloader }
  | .threadProc => s.threadProc
  | .onExit => s.onExit
  | .destructor => s.destruct

/-- A step; there is none after something was used that is freed. -/
def step (s : DownloaderExit η τ) (e : Event η τ) : Option (DownloaderExit η τ) :=
  if s.dangling then none
  else (s.next e).map fun s' =>
    if ∃ m ∈ s.uses e, m ∈ s.destructor.freed then { s with dangling := true } else s'

end Step

/-- No call of `sendDownloadTask` or `setMaxConcurrency` uses what the destructor has freed: `m_WaitingTask`
    for the first half of the one, `m_InteruptEvent` for its second half, the storage for the other. -/
def InTime (s : DownloaderExit η τ) : Event η τ → Prop
  | .downloader (.push _) => .m_WaitingTask ∉ s.destructor.freed
  | .downloader .eventActive => .m_InteruptEvent ∉ s.destructor.freed
  | .downloader (.setMaxConcurrency _) => .self ∉ s.destructor.freed
  | _ => True

/-- The event thread has left its loop. -/
def ProcPc.Left (pc : ProcPc) : Prop :=
  pc = .multiCleanup ∨ pc = .ended

/-! ## What is freed -/

/-- The destructor is not past joining the event thread, or the thread has ended. -/
def Joined (s : DownloaderExit η τ) : Prop :=
  s.destructor = .exitActive ∨ s.destructor = .join ∨ s.m_Thread = .ended

section Joined
variable {s s' : DownloaderExit η τ} {e : Event η τ}

/-- What `ThreadProc` does around its loop. -/
lemma threadProc_cases (st : s.threadProc = some s') :
    s.m_Thread = .multiInit ∧ s' = { s with m_Thread := .dispatch } ∨
    s.m_Thread = .multiCleanup ∧
      s' = { s with m_Thread := .ended, downloader := { s.downloader with m_CurlMHandle := [] } } := by
  rw [threadProc] at st
  split at st
  next pc =>
    cases st
    exact .inl ⟨pc, rfl⟩
  next pc =>
    cases st
    exact .inr ⟨pc, rfl⟩
  next => cases st
  next => cases st

/-- `OnExit` stops the thread where it waits for events. -/
lemma onExit_cases (st : s.onExit = some s') :
    s.m_Thread = .dispatch ∧ s.downloader.pc = .dispatch ∧ s' = { s with m_Thread := .multiCleanup } := by
  rw [onExit] at st
  split at st
  next thread pc =>
    split at st
    next =>
      cases st
      exact ⟨thread, pc, rfl⟩
    next => cases st
  next => cases st

/-- The destructor goes from one place to the next, and past the join only when the thread has ended. -/
lemma destruct_cases (st : s.destruct = some s') :
    s'.downloader.promises = s.downloader.promises ∧ s'.downloader.finished = s.downloader.finished ∧
      s'.m_Thread = s.m_Thread ∧ s'.dangling = s.dangling ∧
      (s.destructor = .exitActive ∧ s'.destructor = .join ∧ s'.downloader = s.downloader ∨
        s.destructor = .join ∧ s.m_Thread = .ended ∨ s.destructor ≠ .exitActive ∧ s.destructor ≠ .join) := by
  cases pc : s.destructor with
  | exitActive =>
    rw [destruct, pc] at st
    cases st
    exact ⟨rfl, rfl, rfl, rfl, .inl ⟨rfl, rfl, rfl⟩⟩
  | join =>
    simp only [destruct, pc] at st
    split at st
    next ended =>
      cases st
      exact ⟨rfl, rfl, rfl, rfl, .inr (.inl ⟨rfl, ended⟩)⟩
    next => cases st
  | returned =>
    rw [destruct, pc] at st
    cases st
  | _ =>
    rw [destruct, pc] at st
    cases st
    exact ⟨rfl, rfl, rfl, rfl, .inr (.inr ⟨nofun, nofun⟩)⟩

/-- The destructor joins the thread first. -/
lemma Joined.destruct (h : s.Joined) (st : s.destruct = some s') : s'.Joined := by
  obtain ⟨-, -, thread, -, ⟨-, join, -⟩ | ⟨-, ended⟩ | ⟨ne_exit, ne_join⟩⟩ := destruct_cases st
  · exact .inr (.inl join)
  · exact .inr (.inr (thread.trans ended))
  · have ended := (h.resolve_left ne_exit).resolve_left ne_join
    exact .inr (.inr (thread.trans ended))

/-- Before the event thread has ended nothing is freed. -/
lemma Joined.unused (h : s.Joined) (thread : s.m_Thread ≠ .ended) :
    ¬ ∃ m ∈ s.uses e, m ∈ s.destructor.freed := by
  rcases h with pc | pc | ended
  · simp [pc, DestructorPc.freed]
  · simp [pc, DestructorPc.freed]
  · exact absurd ended thread

/-- The destructor itself uses nothing that it has freed. -/
lemma DestructorPc.kept (pc : DestructorPc) : ¬ ∃ m ∈ pc.uses, m ∈ pc.freed := by
  cases pc <;> decide

end Joined

section Runs
variable [DecidableEq η] [DecidableEq τ] {s s' : DownloaderExit η τ} {e : Event η τ}
  {l l' : List (Event η τ)} {limit : Int32} {tasks : τ → CurlDownloadTask}

/-- A step touches what it uses, which is fine as long as this is not freed. -/
lemma step_cases (st : Exec step s e s') : s.dangling = false ∧ ∃ t, s.next e = some t ∧
    s' = if ∃ m ∈ s.uses e, m ∈ s.destructor.freed then { s with dangling := true } else t := by
  rw [Exec, step] at st
  split at st
  next => cases st
  next alive =>
    obtain ⟨t, some, rfl⟩ := Option.map_eq_some_iff.mp st
    exact ⟨by simpa using alive, t, some, rfl⟩

/-- The event thread works on the downloader in its loop only. -/
lemma downloader_cases {e : DownloaderEventCurl.Event η τ} (st : s.next (.downloader e) = some s') :
    (ofThread e = true → s.m_Thread = .dispatch) ∧
      ∃ d, s.downloader.step e = some d ∧ s' = { s with downloader := d } := by
  rw [next] at st
  split at st
  next => cases st
  next own =>
    obtain ⟨d, inner, rfl⟩ := Option.map_eq_some_iff.mp st
    exact ⟨fun thread => not_not.mp fun outside => own ⟨thread, outside⟩, d, inner, rfl⟩

/-- What goes on keeps the thread joined. -/
lemma Joined.next (h : s.Joined) (st : s.next e = some s') : s'.Joined := by
  cases e with
  | downloader e =>
    obtain ⟨-, d, -, rfl⟩ := downloader_cases st
    exact h
  | threadProc =>
    obtain ⟨thread, rfl⟩ | ⟨-, rfl⟩ := threadProc_cases st
    · simpa [Joined, thread] using h
    · exact .inr (.inr rfl)
  | onExit =>
    obtain ⟨thread, -, rfl⟩ := onExit_cases st
    simpa [Joined, thread] using h
  | destructor => exact h.destruct st

/-- A step keeps the thread joined. -/
lemma Joined.step (h : s.Joined) (st : Exec step s e s') : s'.Joined := by
  obtain ⟨-, t, some, rfl⟩ := step_cases st
  split
  next => exact h
  next => exact h.next some

/-- What goes on dangles nothing by itself. -/
lemma next_dangling (st : s.next e = some s') : s'.dangling = s.dangling := by
  cases e with
  | downloader e =>
    obtain ⟨-, d, -, rfl⟩ := downloader_cases st
    rfl
  | threadProc => obtain ⟨-, rfl⟩ | ⟨-, rfl⟩ := threadProc_cases st <;> rfl
  | onExit =>
    obtain ⟨-, -, rfl⟩ := onExit_cases st
    rfl
  | destructor =>
    obtain ⟨-, -, -, dangling, -⟩ := destruct_cases st
    exact dangling

/-- Only a late call uses what is freed. -/
lemma Joined.dangles_iff (h : s.Joined) (st : s.next e = some s') :
    (∃ m ∈ s.uses e, m ∈ s.destructor.freed) ↔ ¬ s.InTime e := by
  have never (unused : ¬ ∃ m ∈ s.uses e, m ∈ s.destructor.freed) (inTime : s.InTime e) :
      (∃ m ∈ s.uses e, m ∈ s.destructor.freed) ↔ ¬ s.InTime e :=
    ⟨fun used => absurd used unused, fun late => absurd inTime late⟩
  cases e with
  | downloader e =>
    obtain ⟨own, -⟩ := downloader_cases st
    have going (thread : ofThread e = true) : ¬ ∃ m ∈ s.uses (.downloader e), m ∈ s.destructor.freed :=
      h.unused (by simp [own thread])
    cases e with
    | push task =>
      simp only [uses, usedBy, InTime]
      cases s.destructor <;> decide
    | eventActive =>
      simp only [uses, usedBy, InTime]
      cases s.destructor <;> decide
    | setMaxConcurrency maxConcurrency =>
      simp only [uses, usedBy, InTime]
      cases s.destructor <;> decide
    | othersObtain | othersReturn => exact never (by simp [uses, usedBy]) trivial
    | _ => exact never (going rfl) trivial
  | threadProc =>
    refine never (h.unused ?_) trivial
    obtain ⟨thread, -⟩ | ⟨thread, -⟩ := threadProc_cases st <;> simp [thread]
  | onExit =>
    refine never (h.unused ?_) trivial
    obtain ⟨thread, -⟩ := onExit_cases st
    simp [thread]
  | destructor => exact never s.destructor.kept trivial

/-- Whatever the interleaving: something that the destructor has freed is used if and only if
    `sendDownloadTask` or `setMaxConcurrency` comes too late. -/
theorem unfreed_along_iff (run : Run (Exec step) (new limit tasks : DownloaderExit η τ) l s) :
    Along (Exec step) (fun s => s.dangling = false) (new limit tasks) l ↔
      Meets (Exec step) InTime (new limit tasks) l := by
  refine along_iff_meets (J := Joined) (Exec.deterministic step) run rfl (.inl rfl) Joined.step ?_ ?_
  · intro s e s' h alive inTime st
    obtain ⟨-, t, some, rfl⟩ := step_cases st
    rw [if_neg (fun used => (h.dangles_iff some).mp used inTime)]
    exact (next_dangling some).trans alive
  · intro s e s' h _ late st
    obtain ⟨-, t, some, rfl⟩ := step_cases st
    rw [if_pos ((h.dangles_iff some).mpr late)]
    simp

/-- One transfer ends, a second task waits for the only place when the loop is left. -/
def during : List (Event Nat Bool) :=
  [.downloader (.push (some false)), .threadProc, .downloader .eventActive, .downloader (.push (some true)),
    .downloader .onInterrupt, .downloader .run, .downloader (.obtain 5), .downloader .run, .downloader .run,
    .downloader .run, .destructor, .downloader .checkSocket,
    .downloader (.infoRead (some (.done 5 ⟨0, none, some 200⟩))), .downloader .run, .downloader .run,
    .downloader .run, .downloader .run, .downloader .run, .downloader (.infoRead none), .downloader .run,
    .onExit]

/-- The destructor goes on, and the second `sendDownloadTask` has yet to call `event_active`. -/
def after : List (Event Nat Bool) :=
  [.threadProc, .destructor, .destructor, .downloader .eventActive, .destructor, .destructor, .destructor]

/-- The statement above at a call that comes during the destructor. -/
theorem unfreed_along_iff_during :
    Along (Exec step) (fun s => s.dangling = false) (new 1 fun _ => .new 0) (during ++ after) ↔
      Meets (Exec step) InTime (new 1 fun _ => .new 0) (during ++ after) := by
  have result : (exec step (new 1 fun _ => .new 0) (during ++ after)).isSome := by decide +kernel
  obtain ⟨s, result⟩ := Option.isSome_iff_exists.mp result
  exact unfreed_along_iff (run_exec_iff.mpr result)

/-! ## What becomes of the promises -/

/-- Outside of its loop the event thread sets no promise. -/
lemma frozen_of_other {d d' : DownloaderEventCurl η τ} {e : DownloaderEventCurl.Event η τ}
    (other : ofThread e = false) (st : d.step e = some d') :
    d'.promises = d.promises ∧ d'.finished = d.finished := by
  cases DownloaderEventCurl.moves_of_step st with
  | push | pushNull | eventActive | setMaxConcurrency | othersObtain | othersReturn | write =>
    exact ⟨rfl, rfl⟩
  | _ => cases other

/-- Once the loop is left, nothing sets a promise. -/
structure Frozen (s s' : DownloaderExit η τ) : Prop where
  left : s'.m_Thread.Left
  promises : s'.downloader.promises = s.downloader.promises
  finished : s'.downloader.finished = s.downloader.finished

/-- A thread that has left does nothing more. -/
lemma frozen_next (left : s.m_Thread.Left) (st : s.next e = some s') : Frozen s s' := by
  have outside : s.m_Thread ≠ .dispatch := by
    rcases left with pc | pc <;> simp [pc]
  cases e with
  | downloader e =>
    obtain ⟨own, d, inner, rfl⟩ := downloader_cases st
    have other : ofThread e = false := Bool.eq_false_iff.mpr fun thread => outside (own thread)
    obtain ⟨promises, finished⟩ := frozen_of_other other inner
    exact ⟨left, promises, finished⟩
  | threadProc =>
    obtain ⟨init, rfl⟩ | ⟨-, rfl⟩ := threadProc_cases st
    · rw [init] at left
      simp [ProcPc.Left] at left
    · exact ⟨.inr rfl, rfl, rfl⟩
  | onExit =>
    obtain ⟨thread, -⟩ := onExit_cases st
    exact absurd thread outside
  | destructor =>
    obtain ⟨promises, finished, thread, -⟩ := destruct_cases st
    exact ⟨thread ▸ left, promises, finished⟩

/-- No run after the thread has left does anything more. -/
lemma frozen_of_run (left : s.m_Thread.Left) (later : Run (Exec step) s l' s') : Frozen s s' := by
  refine later.invariant ⟨left, rfl, rfl⟩ ?_
  intro t e u frozen st
  obtain ⟨-, v, some, rfl⟩ := step_cases st
  split
  next => exact ⟨frozen.left, frozen.promises, frozen.finished⟩
  next =>
    have more := frozen_next frozen.left some
    exact ⟨more.left, more.promises.trans frozen.promises, more.finished.trans frozen.finished⟩

/-- Inside the loop the downloader keeps its own invariant; what it leaves behind are the promises of the
    transfers that have ended. -/
structure Kept (s : DownloaderExit η τ) : Prop where
  joined : s.Joined
  inside : ¬ s.m_Thread.Left → DownloaderEventCurl.Inv s.downloader s.downloader.pc
  settled : s.m_Thread.Left →
    ∀ t, s.downloader.promises.count t = if t ∈ s.downloader.finished then 1 else 0

omit [DecidableEq η] in
/-- Where nothing is under way the promises are those of the finished tasks. -/
lemma settled_of_inv {d : DownloaderEventCurl η τ} (inv : DownloaderEventCurl.Inv d .dispatch) (t : τ) :
    d.promises.count t = if t ∈ d.finished then 1 else 0 := by
  have promises := inv.promises t
  have places := inv.tasks t
  have once := List.nodup_iff_count_le_one.mp inv.nodup t
  have leaving : (.dispatch : DownloaderEventCurl.EventPc η τ).leaving.count t = 0 := rfl
  split
  next mem =>
    have one := List.one_le_count_iff.mpr mem
    omega
  next missing =>
    have none := List.count_eq_zero.mpr missing
    omega

/-- What goes on keeps the promises settled. -/
lemma Kept.next (h : s.Kept) (st : s.next e = some s') : s'.Kept := by
  have joined := h.joined.next st
  by_cases left : s.m_Thread.Left
  · have frozen := frozen_next left st
    refine ⟨joined, fun inside => absurd frozen.left inside, fun _ t => ?_⟩
    rw [frozen.promises, frozen.finished]
    exact h.settled left t
  have inv := h.inside left
  cases e with
  | downloader e =>
    obtain ⟨-, d, inner, rfl⟩ := downloader_cases st
    have moves := DownloaderEventCurl.moves_of_step inner
    exact ⟨joined, fun _ => inv.moves moves, fun gone => absurd gone left⟩
  | threadProc =>
    obtain ⟨-, rfl⟩ | ⟨cleanup, -⟩ := threadProc_cases st
    · exact ⟨joined, fun _ => inv, by simp [ProcPc.Left]⟩
    · exact absurd (.inl cleanup) left
  | onExit =>
    obtain ⟨-, pc, rfl⟩ := onExit_cases st
    rw [pc] at inv
    exact ⟨joined, fun inside => absurd (.inl rfl) inside, fun _ => settled_of_inv inv⟩
  | destructor =>
    obtain ⟨-, -, thread, -, ⟨-, -, same⟩ | ⟨-, ended⟩ | ⟨ne_exit, ne_join⟩⟩ := destruct_cases st
    · exact ⟨joined, fun _ => same ▸ inv, fun gone => absurd (thread ▸ gone) left⟩
    · exact absurd (.inr ended) left
    · exact absurd (.inr ((h.joined.resolve_left ne_exit).resolve_left ne_join)) left

/-- In every run the promises are settled once the thread has left. -/
lemma kept_of_run (run : Run (Exec step) (new limit tasks : DownloaderExit η τ) l s) : s.Kept := by
  refine run.invariant ⟨.inl rfl, fun _ => .new, by simp [new, ProcPc.Left]⟩ ?_
  intro s e s' h st
  obtain ⟨-, t, some, rfl⟩ := step_cases st
  split
  next => exact ⟨h.joined, h.inside, h.settled⟩
  next => exact h.next some

/-- Whatever the interleaving: when the event thread has left its loop, the promises of the tasks whose
    transfers had ended by then have been set, once each, and no other task's promise is ever set, whether the
    task was waiting, was running or is sent later. -/
theorem promises_of_exit (run : Run (Exec step) (new limit tasks : DownloaderExit η τ) l s)
    (left : s.m_Thread.Left) (later : Run (Exec step) s l' s') (t : τ) :
    s'.downloader.promises.count t = if t ∈ s.downloader.finished then 1 else 0 := by
  rw [(frozen_of_run left later).promises]
  exact (kept_of_run run).settled left t

/-- The statement above at a task that is sent while the thread leaves. -/
theorem promises_of_exit_during :
    ∃ s s' : DownloaderExit Nat Bool,
      (s.downloader.finished = [false] ∧ s'.destructor = .freeEventBase ∧
        s'.downloader.submitted = [false, true]) ∧
      ∀ t, s'.downloader.promises.count t = if t ∈ s.downloader.finished then 1 else 0 := by
  have result : (exec step (new 1 fun _ => .new 0) during).any fun s =>
      s.m_Thread = .multiCleanup ∧ s.downloader.finished = [false] ∧
        (exec step s after).any fun s' =>
          s'.destructor = .freeEventBase ∧ s'.downloader.submitted = [false, true] := by decide +kernel
  rw [Option.any_eq_true] at result
  obtain ⟨s, first, facts⟩ := result
  obtain ⟨thread, finished, result⟩ := decide_eq_true_eq.mp facts
  rw [Option.any_eq_true] at result
  obtain ⟨s', second, facts⟩ := result
  obtain ⟨destructor, submitted⟩ := decide_eq_true_eq.mp facts
  have run := run_exec_iff.mpr first
  have later := run_exec_iff.mpr second
  exact ⟨s, s', ⟨finished, destructor, submitted⟩, promises_of_exit run (.inl thread) later⟩

end Runs

end DownloaderExit
end XLN
