import XLN.Lib.Transition
import XLN.Client.Task
import Mathlib.Data.List.AList
import Mathlib.Logic.Function.Basic

/-!
# Downloads

`Client/DownloaderEventCurl.cpp` and `CurlPool.cpp`: `sendDownloadTask` puts a task into a queue and wakes
the event thread. There `OnInterrupt` starts waiting tasks while the limit allows it, each with a curl handle
from the pool, and `CheckSocket` ends the transfers that curl reports as done. The threads that send tasks or
set the limit and the event thread interleave freely; the other downloaders of the process share the pool.
Handles are values of a type `η` and task objects of a type `τ`.

Every task is in one place and its promise is set once (`accounted_of_run`), and a waiting task always
has something that will start it (`not_stranded_of_run`).
-/

namespace XLN
open Transition

/-- The pool of curl handles. -/
structure CurlPool (η : Type) where
  m_Pool : List η

namespace CurlPool

variable {η : Type}

/-- `Obtain`, with the handle that `curl_easy_init` returns if it is called. -/
def obtain (pool : CurlPool η) (init : η) : η × CurlPool η :=
  match pool.m_Pool with
  | curl :: rest => (curl, ⟨rest⟩)
  | [] => (init, pool)

/-- `Return`. -/
def return_ (pool : CurlPool η) (curl : η) : CurlPool η :=
  ⟨pool.m_Pool ++ [curl]⟩

end CurlPool

namespace DownloaderEventCurl

/-- Where the event thread is: in `event_base_dispatch`, in `OnInterrupt` or in `CheckSocket`. -/
inductive EventPc (η τ : Type) where
  | dispatch
  | condition
  | obtain (waitingTask : τ)
  | addHandle (waitingTask : τ) (handle : η)
  | insert (waitingTask : τ) (handle : η)
  | infoRead (hasMsg : Bool)
  | find (handle : η) (report : Report)
  | setValue (handle : η) (task : τ)
  | erase (handle : η) (task : τ)
  | removeHandle (handle : η)
  | return_ (handle : η)
  | eventActive

/-- What `curl_multi_info_read` returns. -/
inductive CURLMsg (η : Type) where
  | done (easy_handle : η) (report : Report)
  | other

/-- A step of a thread that sends a task or sets the limit, of another downloader, of curl, or of the event
    thread. -/
inductive Event (η τ : Type) where
  | push (task : Option τ)
  | eventActive
  | setMaxConcurrency (maxConcurrency : Int32)
  | othersObtain (init : η)
  | othersReturn (handle : η)
  | bodyCallbackProc (handle : η) (size count : UInt64)
  | errorBuffer (handle : η) (text : String)
  | onInterrupt
  | checkSocket
  | obtain (init : η)
  | infoRead (msg : Option (CURLMsg η))
  | run

/-- An `int` as a `size_t`, for the comparison with `m_RunningTasks.size()`. -/
def toSize (n : Int32) : UInt64 :=
  n.toInt64.toUInt64

end DownloaderEventCurl

open DownloaderEventCurl in
/-- A `DownloaderEventCurl` with its event thread. `m_CurlMHandle` is the handles that were added and not yet
    reported as done, `userdata` the task that `SetCurl` gave to a handle, `sending` how many calls of
    `sendDownloadTask` are between `push` and `event_active`, and `pending` whether `OnInterrupt` is to run.
    `submitted`, `finished` and `promises` record which tasks were sent, which have left `m_RunningTasks`
    and whose promise was set. -/
structure DownloaderEventCurl (η τ : Type) where
  m_CountOfMaxProcessingTasks : Int32
  m_WaitingTask : List (Option τ)
  m_RunningTasks : AList fun _ : η => τ
  m_CurlMHandle : List η
  m_CurlPool : CurlPool η
  others : List η
  userdata : η → Option τ
  tasks : τ → CurlDownloadTask
  sending : Nat
  pending : Bool
  pc : EventPc η τ
  submitted : List τ
  finished : List τ
  promises : List τ

namespace DownloaderEventCurl

variable {η τ : Type}

/-- The constructor; it does not set the limit. -/
def new (m_CountOfMaxProcessingTasks : Int32) (tasks : τ → CurlDownloadTask) :
    DownloaderEventCurl η τ :=
  { m_CountOfMaxProcessingTasks := m_CountOfMaxProcessingTasks
    m_WaitingTask := []
    m_RunningTasks := ∅
    m_CurlMHandle := []
    m_CurlPool := ⟨[]⟩
    others := []
    userdata := fun _ => none
    tasks := tasks
    sending := 0
    pending := false
    pc := .dispatch
    submitted := []
    finished := []
    promises := [] }

/-- The task that `OnInterrupt` has popped and not yet inserted. -/
def EventPc.entering : EventPc η τ → List τ
  | obtain t | addHandle t _ | insert t _ => [t]
  | _ => []

/-- The task whose promise `CheckSocket` has set and that it has not yet erased. -/
def EventPc.leaving : EventPc η τ → List τ
  | erase _ t => [t]
  | _ => []

/-- The handle that the event thread holds outside of the pool and of `m_RunningTasks`. -/
def EventPc.hand : EventPc η τ → List η
  | addHandle _ h | insert _ h | removeHandle h | return_ h => [h]
  | _ => []

/-- The handles in use. -/
def handles (s : DownloaderEventCurl η τ) : List η :=
  s.pc.hand ++ s.m_RunningTasks.keys ++ s.m_CurlPool.m_Pool ++ s.others

/-- `curl_easy_init`, if it is called, returns a handle that is not in use. -/
def Fresh (s : DownloaderEventCurl η τ) (init : η) : Prop :=
  s.m_CurlPool.m_Pool = [] → init ∉ s.handles

instance [DecidableEq η] (s : DownloaderEventCurl η τ) (init : η) : Decidable (s.Fresh init) :=
  inferInstanceAs (Decidable (s.m_CurlPool.m_Pool = [] → init ∉ s.handles))

section Step
variable [DecidableEq η] [DecidableEq τ]

/-- `std::map::insert` keeps the entry that is there. -/
def insertNew (running : AList fun _ : η => τ) (handle : η) (task : τ) : AList fun _ : η => τ :=
  if handle ∈ running then running else running.insert handle task

/-- The loop condition of `OnInterrupt` and the `pop` in it. -/
def condition (s : DownloaderEventCurl η τ) : DownloaderEventCurl η τ :=
  if s.m_CountOfMaxProcessingTasks = 0 ∨
      s.m_RunningTasks.keys.length < (toSize s.m_CountOfMaxProcessingTasks).toNat then
    match s.m_WaitingTask with
    | some waitingTask :: rest => { s with m_WaitingTask := rest, pc := .obtain waitingTask }
    -- a null task is dropped
    | none :: rest => { s with m_WaitingTask := rest }
    | [] => { s with pc := .dispatch }
  else { s with pc := .dispatch }

/-- The event thread goes on, where it does not wait for curl. -/
def run (s : DownloaderEventCurl η τ) : Option (DownloaderEventCurl η τ) :=
  match s.pc with
  | .condition => some s.condition
  | .addHandle waitingTask handle => some
    { s with
      userdata := Function.update s.userdata handle (some waitingTask)
      m_CurlMHandle := s.m_CurlMHandle ++ [handle]
      pc := .insert waitingTask handle }
  | .insert waitingTask handle => some
    { s with m_RunningTasks := insertNew s.m_RunningTasks handle waitingTask, pc := .condition }
  | .find handle report =>
    match s.m_RunningTasks.lookup handle with
    | some task => some
      { s with
        tasks := Function.update s.tasks task ((s.tasks task).finish report)
        pc := .setValue handle task }
    -- a handle that is not in the map still goes to the pool
    | none => some { s with pc := .removeHandle handle }
  | .setValue handle task => some
    { s with promises := s.promises ++ [task], pc := .erase handle task }
  | .erase handle task => some
    { s with
      m_RunningTasks := s.m_RunningTasks.erase handle
      finished := s.finished ++ [task]
      pc := .removeHandle handle }
  | .removeHandle handle => some
    { s with m_CurlMHandle := s.m_CurlMHandle.erase handle, pc := .return_ handle }
  | .return_ handle => some
    { s with m_CurlPool := s.m_CurlPool.return_ handle, pc := .infoRead true }
  | .eventActive => some { s with pending := true, pc := .dispatch }
  | .dispatch | .obtain _ | .infoRead _ => none

/-- curl writes to the task of a transfer that it works on before `CheckSocket` is called. -/
def write (s : DownloaderEventCurl η τ) (handle : η) (f : CurlDownloadTask → CurlDownloadTask) :
    Option (DownloaderEventCurl η τ) :=
  match s.pc, s.userdata handle with
  | .dispatch, some task =>
    if handle ∈ s.m_CurlMHandle then
      some { s with tasks := Function.update s.tasks task (f (s.tasks task)) }
    else none
  | _, _ => none

/-- One step. Every task is sent once, since the downloader becomes its owner. curl reports a handle once
    after it was added. -/
def step (s : DownloaderEventCurl η τ) (e : Event η τ) : Option (DownloaderEventCurl η τ) :=
  match e with
  | .push (some task) =>
    if task ∈ s.submitted then none
    else some
      { s with
        m_WaitingTask := s.m_WaitingTask ++ [some task]
        submitted := s.submitted ++ [task]
        sending := s.sending + 1 }
  | .push none => some
    { s with m_WaitingTask := s.m_WaitingTask ++ [none], sending := s.sending + 1 }
  | .eventActive =>
    if 0 < s.sending then some { s with sending := s.sending - 1, pending := true } else none
  | .setMaxConcurrency maxConcurrency => some
    { s with m_CountOfMaxProcessingTasks := maxConcurrency }
  | .othersObtain init =>
    if s.Fresh init then some
      { s with
        m_CurlPool := (s.m_CurlPool.obtain init).2
        others := s.others ++ [(s.m_CurlPool.obtain init).1] }
    else none
  | .othersReturn handle =>
    if handle ∈ s.others then some
      { s with m_CurlPool := s.m_CurlPool.return_ handle, others := s.others.erase handle }
    else none
  | .bodyCallbackProc handle size count => s.write handle fun t => (t.bodyCallbackProc size count).1
  | .errorBuffer handle text => s.write handle fun t => { t with m_CurlErrbuf := text }
  | .onInterrupt =>
    match s.pc with
    | .dispatch => if s.pending then some { s with pending := false, pc := .condition } else none
    | _ => none
  | .checkSocket =>
    match s.pc with
    | .dispatch => some { s with pc := .infoRead false }
    | _ => none
  | .obtain init =>
    match s.pc with
    | .obtain waitingTask =>
      if s.Fresh init then some
        { s with
          m_CurlPool := (s.m_CurlPool.obtain init).2
          pc := .addHandle waitingTask (s.m_CurlPool.obtain init).1 }
      else none
    | _ => none
  | .infoRead msg =>
    match s.pc, msg with
    | .infoRead _, some (.done easy_handle report) =>
      if easy_handle ∈ s.m_CurlMHandle then some
        { s with
          m_CurlMHandle := s.m_CurlMHandle.erase easy_handle
          pc := .find easy_handle report }
      else none
    | .infoRead _, some .other => some { s with pc := .infoRead true }
    -- a message may have made room for a waiting task
    | .infoRead hasMsg, none => some { s with pc := if hasMsg then .eventActive else .dispatch }
    | _, _ => none
  | .run => s.run

end Step

/-- The task is in the queue. -/
def Waiting (s : DownloaderEventCurl η τ) (t : τ) : Prop :=
  some t ∈ s.m_WaitingTask

/-- The task is in `m_RunningTasks` or on its way there from the queue, and `CheckSocket` has not ended it. -/
def Running [DecidableEq η] (s : DownloaderEventCurl η τ) (t : τ) : Prop :=
  (t ∈ s.pc.entering ∨ ∃ h, s.m_RunningTasks.lookup h = some t) ∧ t ∉ s.pc.leaving

/-- The task has left `m_RunningTasks` or is about to. -/
def Completed (s : DownloaderEventCurl η τ) (t : τ) : Prop :=
  t ∈ s.finished ∨ t ∈ s.pc.leaving

/-- No more tasks run than the limit allows, the handles of running tasks differ and are not in the pool, every
    task sent is in one place, and the promises of the completed tasks and of no others were set, once each. -/
structure Accounted [DecidableEq η] [DecidableEq τ] (limit : Int32) (s : DownloaderEventCurl η τ) : Prop where
  bounded : (s.m_RunningTasks.keys.length : Int) ≤ limit.toInt
  exclusive : (s.m_RunningTasks.keys ++ s.m_CurlPool.m_Pool).Nodup
  place : ∀ t ∈ s.submitted,
    Waiting s t ∧ ¬ Running s t ∧ ¬ Completed s t ∨
    ¬ Waiting s t ∧ Running s t ∧ ¬ Completed s t ∨
    ¬ Waiting s t ∧ ¬ Running s t ∧ Completed s t
  fulfilled : ∀ t, Completed s t → s.promises.count t = 1
  unfulfilled : ∀ t, ¬ Completed s t → s.promises.count t = 0

/-! ## What a step can do -/

/-- The limit lets `OnInterrupt` start another task. -/
def HasRoom (s : DownloaderEventCurl η τ) : Prop :=
  s.m_CountOfMaxProcessingTasks = 0 ∨
    s.m_RunningTasks.keys.length < (toSize s.m_CountOfMaxProcessingTasks).toNat

section Step
variable [DecidableEq η]

/-- The steps one by one, with what has to hold before each. -/
inductive Moves (s : DownloaderEventCurl η τ) : Event η τ → DownloaderEventCurl η τ → Prop where
  | push {task} :
    task ∉ s.submitted →
    Moves s (.push (some task))
      { s with
        m_WaitingTask := s.m_WaitingTask ++ [some task]
        submitted := s.submitted ++ [task]
        sending := s.sending + 1 }
  | pushNull :
    Moves s (.push none) { s with m_WaitingTask := s.m_WaitingTask ++ [none], sending := s.sending + 1 }
  | eventActive :
    0 < s.sending →
    Moves s .eventActive { s with sending := s.sending - 1, pending := true }
  | setMaxConcurrency {maxConcurrency} :
    Moves s (.setMaxConcurrency maxConcurrency) { s with m_CountOfMaxProcessingTasks := maxConcurrency }
  | othersObtain {init} :
    s.Fresh init →
    Moves s (.othersObtain init)
      { s with
        m_CurlPool := (s.m_CurlPool.obtain init).2
        others := s.others ++ [(s.m_CurlPool.obtain init).1] }
  | othersReturn {handle} :
    handle ∈ s.others →
    Moves s (.othersReturn handle)
      { s with m_CurlPool := s.m_CurlPool.return_ handle, others := s.others.erase handle }
  | write {e tasks} :
    Moves s e { s with tasks := tasks }
  | onInterrupt :
    s.pc = .dispatch →
    Moves s .onInterrupt { s with pending := false, pc := .condition }
  | checkSocket :
    s.pc = .dispatch →
    Moves s .checkSocket { s with pc := .infoRead false }
  | pop {task rest} :
    s.pc = .condition →
    HasRoom s →
    s.m_WaitingTask = some task :: rest →
    Moves s .run { s with m_WaitingTask := rest, pc := .obtain task }
  | popNull {rest} :
    s.pc = .condition →
    s.m_WaitingTask = none :: rest →
    Moves s .run { s with m_WaitingTask := rest }
  | stop :
    s.pc = .condition →
    s.m_WaitingTask = [] ∨ ¬ HasRoom s →
    Moves s .run { s with pc := .dispatch }
  | obtain {init task} :
    s.pc = .obtain task →
    s.Fresh init →
    Moves s (.obtain init)
      { s with
        m_CurlPool := (s.m_CurlPool.obtain init).2
        pc := .addHandle task (s.m_CurlPool.obtain init).1 }
  | addHandle {task handle} :
    s.pc = .addHandle task handle →
    Moves s .run
      { s with
        userdata := Function.update s.userdata handle (some task)
        m_CurlMHandle := s.m_CurlMHandle ++ [handle]
        pc := .insert task handle }
  | insert {task handle} :
    s.pc = .insert task handle →
    Moves s .run
      { s with m_RunningTasks := insertNew s.m_RunningTasks handle task, pc := .condition }
  | done {hasMsg handle report} :
    s.pc = .infoRead hasMsg →
    handle ∈ s.m_CurlMHandle →
    Moves s (.infoRead (some (.done handle report)))
      { s with m_CurlMHandle := s.m_CurlMHandle.erase handle, pc := .find handle report }
  | other {hasMsg} :
    s.pc = .infoRead hasMsg →
    Moves s (.infoRead (some .other)) { s with pc := .infoRead true }
  | noMsg {hasMsg} :
    s.pc = .infoRead hasMsg →
    Moves s (.infoRead none) { s with pc := if hasMsg then .eventActive else .dispatch }
  | found {handle report task tasks} :
    s.pc = .find handle report →
    s.m_RunningTasks.lookup handle = some task →
    Moves s .run { s with tasks := tasks, pc := .setValue handle task }
  | notFound {handle report} :
    s.pc = .find handle report →
    s.m_RunningTasks.lookup handle = none →
    Moves s .run { s with pc := .removeHandle handle }
  | setValue {handle task} :
    s.pc = .setValue handle task →
    Moves s .run { s with promises := s.promises ++ [task], pc := .erase handle task }
  | erase {handle task} :
    s.pc = .erase handle task →
    Moves s .run
      { s with
        m_RunningTasks := s.m_RunningTasks.erase handle
        finished := s.finished ++ [task]
        pc := .removeHandle handle }
  | removeHandle {handle} :
    s.pc = .removeHandle handle →
    Moves s .run { s with m_CurlMHandle := s.m_CurlMHandle.erase handle, pc := .return_ handle }
  | return_ {handle} :
    s.pc = .return_ handle →
    Moves s .run { s with m_CurlPool := s.m_CurlPool.return_ handle, pc := .infoRead true }
  | activate :
    s.pc = .eventActive →
    Moves s .run { s with pending := true, pc := .dispatch }

variable {s s' : DownloaderEventCurl η τ} {e : Event η τ}

/-- The loop condition of `OnInterrupt` pops a task, or ends the loop. -/
lemma moves_of_condition (pc : s.pc = .condition) : Moves s .run s.condition := by
  rw [DownloaderEventCurl.condition]
  split
  next room =>
    split
    next task rest waiting => exact .pop pc room waiting
    next rest waiting => exact .popNull pc waiting
    next waiting => exact .stop pc (.inl waiting)
  next full => exact .stop pc (.inr full)

variable [DecidableEq τ]

/-- A step of `OnInterrupt` or `CheckSocket` is one of the moves. -/
lemma moves_of_run (st : s.run = some s') : Moves s .run s' := by
  unfold run at st
  split at st
  next pc =>
    cases st
    exact moves_of_condition pc
  next task handle pc =>
    cases st
    exact .addHandle pc
  next task handle pc =>
    cases st
    exact .insert pc
  next handle report pc =>
    split at st
    next task found =>
      cases st
      exact .found pc found
    next missing =>
      cases st
      exact .notFound pc missing
  next handle task pc =>
    cases st
    exact .setValue pc
  next handle task pc =>
    cases st
    exact .erase pc
  next handle pc =>
    cases st
    exact .removeHandle pc
  next handle pc =>
    cases st
    exact .return_ pc
  next pc =>
    cases st
    exact .activate pc
  all_goals cases st

/-- A callback of curl is the move `write`. -/
lemma moves_of_write {handle : η} {f : CurlDownloadTask → CurlDownloadTask}
    (st : s.write handle f = some s') : Moves s e s' := by
  unfold write at st
  split at st
  next =>
    split at st
    next =>
      cases st
      exact .write
    next => cases st
  next => cases st

/-- Every step is one of these. -/
lemma moves_of_step (st : Exec step s e s') : Moves s e s' := by
  unfold Exec step at st
  cases e with
  | push task =>
    cases task with
    | none =>
      cases st
      exact .pushNull
    | some task =>
      simp only at st
      split at st
      next => cases st
      next new =>
        cases st
        exact .push new
  | eventActive =>
    simp only at st
    split at st
    next sending =>
      cases st
      exact .eventActive sending
    next => cases st
  | setMaxConcurrency maxConcurrency =>
    cases st
    exact .setMaxConcurrency
  | othersObtain init =>
    simp only at st
    split at st
    next fresh =>
      cases st
      exact .othersObtain fresh
    next => cases st
  | othersReturn handle =>
    simp only at st
    split at st
    next mem =>
      cases st
      exact .othersReturn mem
    next => cases st
  | bodyCallbackProc handle size count => exact moves_of_write st
  | errorBuffer handle text => exact moves_of_write st
  | onInterrupt =>
    simp only at st
    split at st
    next pc =>
      split at st
      next =>
        cases st
        exact .onInterrupt pc
      next => cases st
    next => cases st
  | checkSocket =>
    simp only at st
    split at st
    next pc =>
      cases st
      exact .checkSocket pc
    next => cases st
  | obtain init =>
    simp only at st
    split at st
    next task pc =>
      split at st
      next fresh =>
        cases st
        exact .obtain pc fresh
      next => cases st
    next => cases st
  | infoRead msg =>
    simp only at st
    split at st
    next hasMsg handle report pc =>
      split at st
      next mem =>
        cases st
        exact .done pc mem
      next => cases st
    next hasMsg pc =>
      cases st
      exact .other pc
    next hasMsg pc =>
      cases st
      exact .noMsg pc
    next => cases st
  | run => exact moves_of_run st

end Step

/-! ## The places of tasks and handles -/

/-- The handle that curl has reported while its task is still in `m_RunningTasks`. -/
def EventPc.reported : EventPc η τ → List η
  | find h _ | setValue h _ | erase h _ => [h]
  | _ => []

/-- The handle that was added and whose task is not yet in `m_RunningTasks`. -/
def EventPc.adding : EventPc η τ → List η
  | insert _ h => [h]
  | _ => []

/-- The entry of `m_RunningTasks` that `CheckSocket` has found. -/
def EventPc.entry : EventPc η τ → List ((_ : η) × τ)
  | setValue h t | erase h t => [⟨h, t⟩]
  | _ => []

/-- The tasks in `m_RunningTasks`. -/
def tasksOf (running : AList fun _ : η => τ) : List τ :=
  running.entries.map Sigma.snd

/-- A task is in `m_RunningTasks` if some handle has it. -/
lemma mem_tasksOf [DecidableEq η] {running : AList fun _ : η => τ} {t : τ} :
    t ∈ tasksOf running ↔ ∃ h, running.lookup h = some t := by
  constructor
  · intro mem
    obtain ⟨⟨h, t⟩, entry, rfl⟩ := List.mem_map.mp mem
    exact ⟨h, AList.mem_lookup_iff.mpr entry⟩
  · rintro ⟨h, lookup⟩
    exact List.mem_map.mpr ⟨⟨h, t⟩, AList.mem_lookup_iff.mp lookup, rfl⟩

section Places
variable [DecidableEq τ]

/-- Every task sent is in one place and every handle is used for one purpose, with the event thread at
    `pc`. -/
structure Inv (s : DownloaderEventCurl η τ) (pc : EventPc η τ) : Prop where
  tasks : ∀ t, s.m_WaitingTask.count (some t) + pc.entering.count t + (tasksOf s.m_RunningTasks).count t +
    s.finished.count t = s.submitted.count t
  nodup : s.submitted.Nodup
  promises : ∀ t, s.promises.count t = s.finished.count t + pc.leaving.count t
  handles : (pc.hand ++ s.m_RunningTasks.keys ++ s.m_CurlPool.m_Pool ++ s.others).Nodup
  reported : (pc.reported ++ s.m_CurlMHandle).Nodup
  known : ∀ h ∈ s.m_CurlMHandle, h ∈ pc.adding ∨ h ∈ s.m_RunningTasks.keys
  present : ∀ h ∈ pc.reported, h ∈ s.m_RunningTasks.keys
  found : ∀ x ∈ pc.entry, x ∈ s.m_RunningTasks.entries

variable {s s' : DownloaderEventCurl η τ} {e : Event η τ} {t task : τ} {handle init : η}
  {pc : EventPc η τ} {report : Report} {hasMsg : Bool}

/-- Nothing was sent to a new downloader. -/
lemma Inv.new {limit : Int32} {tasks : τ → CurlDownloadTask} :
    Inv (new limit tasks : DownloaderEventCurl η τ) .dispatch where
  tasks := fun _ => rfl
  nodup := List.nodup_nil
  promises := fun _ => rfl
  handles := List.nodup_nil
  reported := List.nodup_nil
  known := fun _ mem => nomatch mem
  present := fun _ mem => nomatch mem
  found := fun _ mem => nomatch mem

/-- A task counts the same in the queue and in a list of tasks. -/
lemma count_some_singleton : [some task].count (some t) = [task].count t := by
  simp only [List.count_singleton, beq_iff_eq, Option.some.injEq]

/-- A null in the queue is no task. -/
lemma count_none_singleton : [(none : Option τ)].count (some t) = 0 :=
  List.count_eq_zero.mpr fun mem => nomatch List.mem_singleton.mp mem

/-- A task that is sent waits. -/
lemma Inv.push (h : Inv s pc) (new : task ∉ s.submitted) :
    Inv
      { s with
        m_WaitingTask := s.m_WaitingTask ++ [some task]
        submitted := s.submitted ++ [task]
        sending := s.sending + 1 } pc :=
  { h with
    tasks := by
      intro t
      have places := h.tasks t
      rw [List.count_append, List.count_append, count_some_singleton, ← places]
      ac_rfl
    nodup := by
      have nodup := h.nodup.concat new
      rwa [List.concat_eq_append] at nodup }

/-- A null in the queue moves no task. -/
lemma Inv.pushNull (h : Inv s pc) :
    Inv { s with m_WaitingTask := s.m_WaitingTask ++ [none], sending := s.sending + 1 } pc :=
  { h with
    tasks := by
      intro t
      rw [List.count_append, count_none_singleton]
      exact h.tasks t }

/-- The task that `OnInterrupt` pops is on its way to `m_RunningTasks`. -/
lemma Inv.pop (h : Inv s .condition) {rest : List (Option τ)}
    (waiting : s.m_WaitingTask = some task :: rest) :
    Inv { s with m_WaitingTask := rest, pc := .obtain task } (.obtain task) :=
  { h with
    tasks := by
      intro t
      have places := h.tasks t
      rw [waiting, ← List.singleton_append, List.count_append, count_some_singleton] at places
      simp only [EventPc.entering, List.count_nil] at places ⊢
      omega }

/-- A null that is popped moves no task. -/
lemma Inv.popNull (h : Inv s pc) {rest : List (Option τ)} (waiting : s.m_WaitingTask = none :: rest) :
    Inv { s with m_WaitingTask := rest } pc :=
  { h with
    tasks := by
      intro t
      have places := h.tasks t
      rwa [waiting, ← List.singleton_append, List.count_append, count_none_singleton, Nat.zero_add]
        at places }

/-- The promise is set once, while the task leaves. -/
lemma Inv.setValue (h : Inv s (.setValue handle task)) :
    Inv { s with promises := s.promises ++ [task], pc := .erase handle task } (.erase handle task) :=
  { h with
    promises := by
      intro t
      rw [List.count_append, h.promises t]
      rfl }

/-- A handle that `OnInterrupt` holds is not in `m_RunningTasks`. -/
lemma Inv.notMem_keys (h : Inv s pc) (mem : handle ∈ pc.hand) : handle ∉ s.m_RunningTasks.keys := by
  have disjoint := (List.nodup_append'.mp (List.nodup_append'.mp
    (List.nodup_append'.mp h.handles).1).1).2.2
  exact disjoint mem

/-- `curl_multi_add_handle` takes a handle that is not reported. -/
lemma Inv.addHandle (h : Inv s (.addHandle task handle)) {userdata : η → Option τ} :
    Inv
      { s with
        userdata := userdata
        m_CurlMHandle := s.m_CurlMHandle ++ [handle]
        pc := .insert task handle } (.insert task handle) :=
  have notKey := h.notMem_keys List.mem_cons_self
  { h with
    reported := by
      rw [← List.concat_eq_append]
      refine List.Nodup.concat (fun mem => ?_) h.reported
      rcases h.known handle mem with mem | mem
      · cases mem
      · exact notKey mem
    known := by
      intro h' mem
      rcases List.mem_append.mp mem with mem | mem
      · rcases h.known h' mem with mem | mem
        · cases mem
        · exact .inr mem
      · exact .inl mem }

/-- A task that `CheckSocket` is about to erase is in `m_RunningTasks`. -/
lemma Inv.mem_of_leaving (h : Inv s pc) (leaving : t ∈ pc.leaving) : t ∈ tasksOf s.m_RunningTasks := by
  cases pc with
  | erase handle task =>
    cases List.mem_singleton.mp leaving
    exact List.mem_map.mpr ⟨_, h.found _ List.mem_cons_self, rfl⟩
  | _ => cases leaving

/-- At most one task leaves at a time. -/
lemma count_leaving_le (pc : EventPc η τ) (t : τ) : pc.leaving.count t ≤ 1 := by
  cases pc with
  | erase handle task =>
    exact (List.count_le_length).trans Nat.le.refl
  | _ => exact Nat.zero_le _

/-- The promise of a task that was completed has been set once. -/
lemma Inv.fulfilled (h : Inv s s.pc) (completed : Completed s t) : s.promises.count t = 1 := by
  have atMostOne := List.nodup_iff_count_le_one.mp h.nodup t
  have places := h.tasks t
  have leaving := h.mem_of_leaving (t := t)
  have once := count_leaving_le s.pc t
  rw [h.promises t]
  simp only [Completed, ← List.one_le_count_iff] at completed leaving
  omega

/-- The promise of a task that is under way has not been set. -/
lemma Inv.unfulfilled (h : Inv s s.pc) (underWay : ¬ Completed s t) : s.promises.count t = 0 := by
  simp only [Completed, not_or, ← List.count_eq_zero] at underWay
  rw [h.promises t, underWay.1, underWay.2]

variable [DecidableEq η]

/-- Lists with the same elements in another order. -/
lemma nodup_of_count {α : Type} [DecidableEq α] {l l' : List α} (nodup : l.Nodup)
    (same : ∀ a, l'.count a = l.count a) : l'.Nodup :=
  (List.perm_iff_count.mpr same).nodup_iff.mpr nodup

/-- An element that is erased is counted apart. -/
lemma count_erase_add {α : Type} [DecidableEq α] {l : List α} {a : α} (mem : a ∈ l) (b : α) :
    [a].count b + (l.erase a).count b = l.count b := by
  rw [← List.count_append, List.singleton_append]
  exact (List.perm_cons_erase mem).symm.count_eq b

/-- A task that leaves `m_RunningTasks`. -/
lemma count_erase_running {running : AList fun _ : η => τ} (mem : ⟨handle, task⟩ ∈ running.entries)
    (t : τ) :
    [task].count t + (tasksOf (running.erase handle)).count t = (tasksOf running).count t := by
  have key : handle ∈ running.entries.keys := List.mem_keys_of_mem mem
  obtain ⟨task', l1, l2, -, split, erased⟩ := List.exists_of_kerase key
  have own : task' = task := by
    have mem' : (⟨handle, task'⟩ : (_ : η) × τ) ∈ running.entries := by
      rw [split]
      exact List.mem_append_right _ List.mem_cons_self
    exact running.nodupKeys.eq_of_mk_mem mem' mem
  change _ + (List.map _ (List.kerase handle running.entries)).count t = _
  rw [erased, tasksOf, split, own]
  simp only [List.map_append, List.map_cons, List.count_append, List.count_cons, List.count_nil]
  omega

/-- The handle that `Obtain` returns is nobody else's. -/
lemma Inv.obtained (h : Inv s s.pc) (fresh : s.Fresh init) :
    ((s.m_CurlPool.obtain init).1 ::
      (s.pc.hand ++ s.m_RunningTasks.keys ++ (s.m_CurlPool.obtain init).2.m_Pool ++ s.others)).Nodup := by
  have nodup := h.handles
  unfold CurlPool.obtain
  split
  next curl rest pool =>
    rw [pool] at nodup
    refine nodup_of_count nodup fun a => ?_
    simp only [List.count_append, List.count_cons]
    omega
  next pool => exact List.nodup_cons.mpr ⟨fresh pool, nodup⟩

/-- A handle that another downloader gets is in no other hand. -/
lemma Inv.othersObtain (h : Inv s s.pc) (fresh : s.Fresh init) :
    Inv
      { s with
        m_CurlPool := (s.m_CurlPool.obtain init).2
        others := s.others ++ [(s.m_CurlPool.obtain init).1] } s.pc :=
  { h with
    handles := by
      rw [← List.append_assoc]
      exact (List.perm_append_singleton _ _).nodup_iff.mpr (h.obtained fresh) }

/-- A handle that another downloader gives back goes to the pool. -/
lemma Inv.othersReturn (h : Inv s pc) (mem : handle ∈ s.others) :
    Inv
      { s with m_CurlPool := s.m_CurlPool.return_ handle, others := s.others.erase handle } pc :=
  { h with
    handles := by
      refine nodup_of_count h.handles fun a => ?_
      have others := count_erase_add mem a
      simp only [CurlPool.return_, List.count_append]
      omega }

/-- `OnInterrupt` gets a handle that is in no other hand. -/
lemma Inv.obtain (h : Inv s s.pc) (pc : s.pc = .obtain task) (fresh : s.Fresh init) :
    Inv
      { s with
        m_CurlPool := (s.m_CurlPool.obtain init).2
        pc := .addHandle task (s.m_CurlPool.obtain init).1 }
      (.addHandle task (s.m_CurlPool.obtain init).1) := by
  have handles := h.obtained fresh
  rw [pc] at h handles
  exact { h with handles := handles }

/-- The handle in hand is not in the map, so the task goes in. -/
lemma Inv.insert (h : Inv s (.insert task handle)) :
    Inv
      { s with m_RunningTasks := insertNew s.m_RunningTasks handle task, pc := .condition }
      .condition := by
  have notKey := h.notMem_keys List.mem_cons_self
  have running : insertNew s.m_RunningTasks handle task = s.m_RunningTasks.insert handle task :=
    if_neg notKey
  have entries : (s.m_RunningTasks.insert handle task).entries = ⟨handle, task⟩ :: s.m_RunningTasks.entries :=
    AList.entries_insert_of_notMem notKey
  have keys : (s.m_RunningTasks.insert handle task).keys = handle :: s.m_RunningTasks.keys := by
    rw [AList.keys, entries, List.keys_cons]
    rfl
  rw [running]
  constructor
  · intro t
    rw [← h.tasks t]
    simp only [tasksOf, entries, List.map_cons, EventPc.entering, List.count_cons, List.count_nil]
    omega
  · exact h.nodup
  · exact h.promises
  · rw [keys]
    exact h.handles
  · exact h.reported
  · intro h' mem
    rw [keys]
    rcases h.known h' mem with mem | mem
    · cases List.mem_singleton.mp mem
      exact .inr List.mem_cons_self
    · exact .inr (List.mem_cons_of_mem _ mem)
  · exact fun _ mem => nomatch mem
  · exact fun _ mem => nomatch mem

/-- A handle that curl reports is no longer added. -/
lemma Inv.done (h : Inv s (.infoRead hasMsg)) (mem : handle ∈ s.m_CurlMHandle) :
    Inv
      { s with m_CurlMHandle := s.m_CurlMHandle.erase handle, pc := .find handle report }
      (.find handle report) :=
  have known : ∀ h ∈ s.m_CurlMHandle, h ∈ s.m_RunningTasks.keys := fun h' mem =>
    (h.known h' mem).resolve_left nofun
  { h with
    reported := (List.perm_cons_erase mem).nodup_iff.mp h.reported
    known := fun h' mem => .inr (known h' (List.mem_of_mem_erase mem))
    present := by
      intro h' mem'
      cases List.mem_singleton.mp mem'
      exact known handle mem }

/-- The task of the handle that was reported is leaving. -/
lemma Inv.find (h : Inv s (.find handle report)) {tasks : τ → CurlDownloadTask}
    (found : s.m_RunningTasks.lookup handle = some task) :
    Inv { s with tasks := tasks, pc := .setValue handle task } (.setValue handle task) :=
  { h with
    found := by
      intro x mem
      cases List.mem_singleton.mp mem
      exact AList.mem_lookup_iff.mp found }

/-- The task leaves `m_RunningTasks` with its handle. -/
lemma Inv.erase (h : Inv s (.erase handle task)) :
    Inv
      { s with
        m_RunningTasks := s.m_RunningTasks.erase handle
        finished := s.finished ++ [task]
        pc := .removeHandle handle } (.removeHandle handle) := by
  have entry := h.found _ List.mem_cons_self
  have key := h.present handle List.mem_cons_self
  -- the task goes from `m_RunningTasks` to `finished`, the handle from the map into the hand
  constructor
  · intro t
    have running := count_erase_running entry t
    have places := h.tasks t
    simp only [List.count_append, EventPc.entering, List.count_nil] at places ⊢
    omega
  · exact h.nodup
  · intro t
    rw [h.promises t, List.count_append]
    rfl
  · refine nodup_of_count h.handles fun a => ?_
    have keys := count_erase_add key a
    simp only [AList.keys_erase, EventPc.hand, List.count_append, List.count_nil]
    omega
  · exact h.reported.of_cons
  · intro h' mem
    have known := (h.known h' mem).resolve_left nofun
    -- curl has reported `handle`, so what it has still to report is another handle
    have ne : h' ≠ handle := by
      rintro rfl
      exact (List.nodup_cons.mp h.reported).1 mem
    rw [AList.keys_erase]
    exact .inr ((List.mem_erase_of_ne ne).mpr known)
  · exact fun _ mem => nomatch mem
  · exact fun _ mem => nomatch mem

/-- The handle that was reported is taken off the multi handle. -/
lemma Inv.removeHandle (h : Inv s (.removeHandle handle)) :
    Inv
      { s with m_CurlMHandle := s.m_CurlMHandle.erase handle, pc := .return_ handle }
      (.return_ handle) :=
  { h with
    reported := h.reported.erase handle
    known := fun h' mem => h.known h' (List.mem_of_mem_erase mem) }

/-- The handle that was reported goes back to the pool. -/
lemma Inv.return_ (h : Inv s (.return_ handle)) :
    Inv
      { s with m_CurlPool := s.m_CurlPool.return_ handle, pc := .infoRead true }
      (.infoRead true) :=
  { h with
    handles := by
      refine nodup_of_count h.handles fun a => ?_
      simp only [CurlPool.return_, EventPc.hand, List.count_append, List.count_nil]
      omega }

/-- Every step keeps tasks and handles in their places. -/
lemma Inv.moves (h : Inv s s.pc) (m : Moves s e s') : Inv s' s'.pc := by
  cases m with
  | push new => exact h.push new
  | pushNull => exact h.pushNull
  | eventActive => exact { h with }
  | setMaxConcurrency => exact { h with }
  | othersObtain fresh => exact h.othersObtain fresh
  | othersReturn mem => exact h.othersReturn mem
  | write => exact { h with }
  | onInterrupt pc | checkSocket pc | stop pc | other pc | activate pc =>
    rw [pc] at h
    exact { h with }
  | pop pc _ waiting =>
    rw [pc] at h
    exact h.pop waiting
  | popNull _ waiting => exact h.popNull waiting
  | obtain pc fresh => exact h.obtain pc fresh
  | addHandle pc =>
    rw [pc] at h
    exact h.addHandle
  | insert pc =>
    rw [pc] at h
    exact h.insert
  | done pc mem =>
    rw [pc] at h
    exact h.done mem
  | @noMsg hasMsg pc =>
    rw [pc] at h
    cases hasMsg <;> exact { h with }
  | found pc found =>
    rw [pc] at h
    exact h.find found
  | notFound pc missing =>
    rw [pc] at h
    exact absurd (h.present _ List.mem_cons_self) (AList.lookup_eq_none.mp missing)
  | setValue pc =>
    rw [pc] at h
    exact h.setValue
  | erase pc =>
    rw [pc] at h
    exact h.erase
  | removeHandle pc =>
    rw [pc] at h
    exact h.removeHandle
  | return_ pc =>
    rw [pc] at h
    exact h.return_

/-- A task that was sent is in one of the three places. -/
lemma Inv.place (h : Inv s s.pc) (mem : t ∈ s.submitted) :
    Waiting s t ∧ ¬ Running s t ∧ ¬ Completed s t ∨
    ¬ Waiting s t ∧ Running s t ∧ ¬ Completed s t ∨
    ¬ Waiting s t ∧ ¬ Running s t ∧ Completed s t := by
  have one := List.count_eq_one_of_mem h.nodup mem
  have places := h.tasks t
  have leaving := h.mem_of_leaving (t := t)
  -- the task was sent once, so just one of the four counts is 1
  simp only [Waiting, Running, Completed, ← mem_tasksOf, ← List.one_le_count_iff] at leaving ⊢
  omega

end Places

/-! ## The limit -/

section Limit
variable {s s' : DownloaderEventCurl η τ} {e : Event η τ} {limit : Int32}

/-- The limit has not been changed and there is room for the task that `OnInterrupt` starts. -/
structure Bounded (limit : Int32) (s : DownloaderEventCurl η τ) : Prop where
  fixed : s.m_CountOfMaxProcessingTasks = limit
  room : s.m_RunningTasks.keys.length + s.pc.entering.length ≤ (toSize limit).toNat

/-- A positive limit is its own size. -/
lemma toSize_of_pos (positive : 0 < limit) : ((toSize limit).toNat : Int) = limit.toInt := by
  rw [Int32.lt_iff_toInt_lt] at positive
  have nonneg : 0 ≤ limit.toInt := Int.le_of_lt positive
  have nonneg' : 0 ≤ limit.toInt64 := by
    rw [Int64.le_iff_toInt_le, Int32.toInt_toInt64]
    exact nonneg
  rw [toSize, Int64.toNat_toUInt64_of_le nonneg', Int32.toNatClampNeg_toInt64]
  exact Int.toNat_of_nonneg nonneg

/-- A limit that is not zero lets a task through. -/
lemma toSize_pos (ne : limit ≠ 0) : 0 < (toSize limit).toNat := by
  refine Nat.pos_of_ne_zero fun zero => ne ?_
  have size : toSize limit = 0 := UInt64.toNat_inj.mp zero
  have wide : limit.toInt64 = 0 := by rw [← Int64.toInt64_toUInt64 limit.toInt64, ← toSize, size]; rfl
  rw [← Int32.toInt32_toInt64 limit, wide]
  rfl

/-- No step brings the running tasks above a limit that stays. -/
lemma Bounded.moves [DecidableEq η] (positive : 0 < limit) (h : Bounded limit s) (m : Moves s e s')
    (kept : ∀ n, e ≠ .setMaxConcurrency n) : Bounded limit s' := by
  obtain ⟨fixed, room⟩ := h
  cases m with
  | setMaxConcurrency => exact absurd rfl (kept _)
  | push | pushNull | eventActive | othersObtain | othersReturn | write | popNull => exact ⟨fixed, room⟩
  | onInterrupt pc | checkSocket pc | stop pc | obtain pc | addHandle pc | done pc | other pc | found pc
  | notFound pc | setValue pc | removeHandle pc | return_ pc | activate pc =>
    rw [pc] at room
    exact ⟨fixed, room⟩
  | @noMsg hasMsg pc =>
    rw [pc] at room
    cases hasMsg <;> exact ⟨fixed, room⟩
  | pop pc hasRoom =>
    rw [HasRoom, fixed] at hasRoom
    have ne : limit ≠ 0 := by
      rintro rfl
      exact absurd positive (by decide)
    exact ⟨fixed, hasRoom.resolve_left ne⟩
  | @insert task handle pc =>
    refine ⟨fixed, ?_⟩
    rw [pc] at room
    change (insertNew s.m_RunningTasks handle task).keys.length ≤ _
    unfold insertNew
    split
    next => exact (Nat.le_succ _).trans room
    next =>
      rw [AList.keys_insert, List.length_cons]
      exact (Nat.succ_le_succ (List.length_erase_le)).trans room
  | @erase handle task pc =>
    refine ⟨fixed, ?_⟩
    rw [pc] at room
    change (s.m_RunningTasks.erase handle).keys.length ≤ _
    rw [AList.keys_erase]
    exact (List.length_erase_le).trans room

end Limit

/-! ## Waking up -/

section Wake
variable {s s' : DownloaderEventCurl η τ} {e : Event η τ}

/-- The event thread will go through the loop of `OnInterrupt` or call `event_active`. -/
def WillWake : EventPc η τ → Prop
  | .dispatch | .infoRead false => False
  | _ => True

/-- Something will start a waiting task. -/
def Awake (s : DownloaderEventCurl η τ) : Prop :=
  s.m_WaitingTask ≠ [] →
    s.m_RunningTasks.keys ≠ [] ∨ s.pending = true ∨ 0 < s.sending ∨ WillWake s.pc

/-- No step forgets a waiting task. -/
lemma Awake.moves [DecidableEq η] (h : Awake s) (m : Moves s e s') : Awake s' := by
  intro waiting
  cases m with
  | push | pushNull => exact .inr (.inr (.inl (Nat.succ_pos _)))
  | eventActive | activate => exact .inr (.inl rfl)
  | setMaxConcurrency | othersObtain | othersReturn | write => exact h waiting
  | onInterrupt | pop | obtain | addHandle | insert | done | other | found | notFound | setValue
  | erase | removeHandle | return_ => exact .inr (.inr (.inr trivial))
  | popNull pc =>
    refine .inr (.inr (.inr ?_))
    change WillWake s.pc
    rw [pc]
    trivial
  | checkSocket pc =>
    rw [Awake, pc] at h
    exact h waiting
  | @noMsg hasMsg pc =>
    rw [Awake, pc] at h
    cases hasMsg with
    | false => exact h waiting
    | true => exact .inr (.inr (.inr trivial))
  | stop _ reason =>
    -- the loop stops at a limit other than 0 with that many tasks in `m_RunningTasks`
    rcases reason with empty | full
    · exact absurd empty waiting
    · obtain ⟨ne, full⟩ := not_or.mp full
      refine .inl fun none => ?_
      rw [none] at full
      exact full (toSize_pos ne)

end Wake

/-! ## All runs -/

section Runs
variable [DecidableEq η] [DecidableEq τ] {s : DownloaderEventCurl η τ} {limit : Int32}
  {tasks : τ → CurlDownloadTask} {l : List (Event η τ)}

/-- Each task has its place in every run. -/
lemma inv_of_run (run : Run (Exec step) (new limit tasks : DownloaderEventCurl η τ) l s) : Inv s s.pc :=
  run.invariant (I := fun s => Inv s s.pc) .new fun h st => h.moves (moves_of_step st)

/-- The running tasks stay within a limit that no call changes. -/
lemma bounded_of_run (positive : 0 < limit)
    (run : Run (Exec step) (new limit tasks : DownloaderEventCurl η τ) l s)
    (fixed : ∀ n, .setMaxConcurrency n ∉ l) : Bounded limit s := by
  refine run.invariant_labels (I := fun l s => (∀ n, .setMaxConcurrency n ∉ l) → Bounded limit s)
    (fun _ => ⟨rfl, Nat.zero_le _⟩) (fun {l s e s'} ih st fixed => ?_) fixed
  have before : Bounded limit s := ih fun n mem => fixed n (List.mem_append_left _ mem)
  refine before.moves positive (moves_of_step st) ?_
  rintro n rfl
  exact fixed n (List.mem_append_right _ List.mem_cons_self)

/-- With a fixed positive limit, at any moment of any interleaving: no more tasks run than the limit allows,
    each with a handle of its own that is not in the pool, every task sent is waiting, running or completed
    and only one of these, and its promise is set when it is completed and never again. -/
theorem accounted_of_run (positive : 0 < limit)
    (run : Run (Exec step) (new limit tasks : DownloaderEventCurl η τ) l s)
    (fixed : ∀ n, .setMaxConcurrency n ∉ l) : Accounted limit s := by
  have inv := inv_of_run run
  have bounded := bounded_of_run positive run fixed
  constructor
  · rw [← toSize_of_pos positive]
    exact Int.ofNat_le.mpr ((Nat.le_add_right _ _).trans bounded.room)
  · have handles := (List.nodup_append'.mp inv.handles).1
    rw [List.append_assoc] at handles
    exact (List.nodup_append'.mp handles).2.1
  · exact fun _ mem => inv.place mem
  · exact fun _ completed => inv.fulfilled completed
  · exact fun _ underWay => inv.unfulfilled underWay

/-- Two tasks with room for one: the second one starts when the first one is done, with the same handle. -/
def inTurn : List (Event Nat Bool) :=
  [.push (some false), .push none, .eventActive, .push (some true), .onInterrupt, .run, .obtain 5, .run, .run,
    .run, .eventActive, .eventActive, .bodyCallbackProc 5 1 100, .checkSocket,
    .infoRead (some (.done 5 ⟨0, none, some 200⟩)), .run, .run, .run, .run, .run, .infoRead none, .run,
    .onInterrupt, .run, .run, .obtain 6, .run, .run]

/-- The statement above for these two tasks. -/
theorem accounted_of_run_inTurn :
    ∃ s, Run (Exec step) (new 1 fun _ => .new 0) inTurn s ∧
      (s.promises = [false] ∧ s.m_RunningTasks.keys = [5]) ∧ Accounted 1 s := by
  have result : (exec step (new 1 fun _ => .new 0) inTurn).any fun s =>
      s.promises = [false] ∧ s.m_RunningTasks.keys = [5] := by decide +kernel
  rw [Option.any_eq_true] at result
  obtain ⟨s, result, facts⟩ := result
  have run := run_exec_iff.mpr result
  have fixed : ∀ n, .setMaxConcurrency n ∉ inTurn := by simp [inTurn]
  exact ⟨s, run, decide_eq_true_eq.mp facts, accounted_of_run (by decide) run fixed⟩

/-- Whatever the limit is set to, a waiting task is not forgotten: while `m_WaitingTask` is not empty, a
    task runs, the event is pending, `OnInterrupt` or `CheckSocket` is in progress, or a `sendDownloadTask`
    is about to call `event_active`. -/
theorem not_stranded_of_run (run : Run (Exec step) (new limit tasks : DownloaderEventCurl η τ) l s)
    (waiting : s.m_WaitingTask ≠ []) :
    s.m_RunningTasks ≠ ∅ ∨ s.pending = true ∨ s.pc ≠ .dispatch ∨ 0 < s.sending := by
  have awake := run.invariant (I := Awake) (fun waiting => absurd rfl waiting)
    fun h st => h.moves (moves_of_step st)
  rcases awake waiting with running | pending | sending | wake
  · refine .inl fun none => running ?_
    rw [none]
    rfl
  · exact .inr (.inl pending)
  · exact .inr (.inr (.inr sending))
  · refine .inr (.inr (.inl fun pc => ?_))
    rw [pc] at wake
    exact wake

/-- The limit is set to the number of running tasks while a task waits, and then taken away. -/
def limitChanges : List (Event Nat Bool) :=
  [.push (some false), .eventActive, .onInterrupt, .run, .obtain 5, .run, .run, .run, .push (some true),
    .setMaxConcurrency 1, .eventActive, .onInterrupt, .run, .setMaxConcurrency 0]

/-- The statement above where only the running task is left to wake the waiting one. -/
theorem not_stranded_of_run_limitChanges :
    ∃ s, Run (Exec step) (new 0 fun _ => .new 0) limitChanges s ∧
      s.m_WaitingTask = [some true] ∧
      (s.m_RunningTasks ≠ ∅ ∨ s.pending = true ∨ s.pc ≠ .dispatch ∨ 0 < s.sending) := by
  have result : (exec step (new 0 fun _ => .new 0) limitChanges).any fun s =>
      s.m_WaitingTask = [some true] := by decide +kernel
  rw [Option.any_eq_true] at result
  obtain ⟨s, result, waiting⟩ := result
  have run := run_exec_iff.mpr result
  have waiting := decide_eq_true_eq.mp waiting
  refine ⟨s, run, waiting, not_stranded_of_run run ?_⟩
  rw [waiting]
  exact nofun

end Runs

end DownloaderEventCurl
end XLN
