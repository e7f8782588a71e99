import XLN.Client.DownloaderEventCurl

/-!
# The tasks that fulfil their promises

Every run of a `DownloaderEventCurl`, with a record of what curl has written for each task and what it has
reported for it. Which task a callback of a handle is for is told by `m_RunningTasks`; the callback itself goes
by the pointer that the handle was given. A task whose promise is set is the `transfer` of both records
(`transfer_of_run`): between its constructor and its promise curl writes to it through its own handle only, and
`CheckSocket` ends it once.
-/

namespace XLN
open Transition DownloaderEventCurl CurlDownloadTask

/-- A downloader with what each task has received and the report for it. -/
structure Transfers (η τ : Type) where
  downloader : DownloaderEventCurl η τ
  received : τ → List Write
  reports : τ → Option Report

namespace Transfers

variable {η τ : Type}

def start (limit : Int32) (m_ResBodyLength : τ → UInt64) : Transfers η τ :=
  { downloader := .new limit fun task => .new (m_ResBodyLength task)
    received := fun _ => []
    reports := fun _ => none }

section Step
variable [DecidableEq η]

/-- What curl writes in a step, with the task in `m_RunningTasks` of the handle that it writes for. -/
def writes (s : DownloaderEventCurl η τ) : Event η τ → Option (τ × Write)
  | .bodyCallbackProc handle size count =>
    (s.m_RunningTasks.lookup handle).map fun task => (task, .body size count)
  | .errorBuffer handle text => (s.m_RunningTasks.lookup handle).map fun task => (task, .errorBuffer text)
  | _ => none

/-- The report with which `CheckSocket` ends a task in a step. -/
def told (s : DownloaderEventCurl η τ) : Event η τ → Option (τ × Report)
  | .run =>
    match s.pc with
    | .find handle report => (s.m_RunningTasks.lookup handle).map fun task => (task, report)
    | _ => none
  | _ => none

variable [DecidableEq τ]

def addWrite (received : τ → List Write) : Option (τ × Write) → τ → List Write
  | some (task, w) => Function.update received task (received task ++ [w])
  | none => received

def addReport (reports : τ → Option Report) : Option (τ × Report) → τ → Option Report
  | some (task, report) => Function.update reports task (some report)
  | none => reports

def step (r : Transfers η τ) (e : Event η τ) : Option (Transfers η τ) :=
  (r.downloader.step e).map fun downloader =>
    { downloader := downloader
      received := addWrite r.received (writes r.downloader e)
      reports := addReport r.reports (told r.downloader e) }

variable {s s' : DownloaderEventCurl η τ} {e : Event η τ} {t : τ} {r r' : Transfers η τ}

/-! ## What a step does to the tasks -/

/-- A handle that was added and not yet reported has the task that `m_RunningTasks` has for it. -/
def OwnTask (s : DownloaderEventCurl η τ) : Prop :=
  ∀ h ∈ s.m_CurlMHandle, ∀ t, s.userdata h = some t → s.pc = .insert t h ∨ s.m_RunningTasks.lookup h = some t

omit [DecidableEq τ] in
/-- The pointer that a handle was given is to the task that runs on it. -/
lemma OwnTask.lookup (own : OwnTask s) {h : η} (added : h ∈ s.m_CurlMHandle) (user : s.userdata h = some t)
    (other : ∀ t h, s.pc ≠ .insert t h) : s.m_RunningTasks.lookup h = some t :=
  (own h added t user).resolve_left (other t h)

/-- A step writes to one task, ends one, or leaves all as they are. -/
inductive TaskStep (s : DownloaderEventCurl η τ) (e : Event η τ) (s' : DownloaderEventCurl η τ) : Prop where
  | write {handle task w} :
    s.pc = .dispatch →
    s.m_RunningTasks.lookup handle = some task →
    writes s e = some (task, w) →
    told s e = none →
    s' = { s with tasks := Function.update s.tasks task ((s.tasks task).receive w) } →
    TaskStep s e s'
  | finish {handle task report} :
    s.pc = .find handle report →
    s.m_RunningTasks.lookup handle = some task →
    writes s e = none →
    told s e = some (task, report) →
    s' =
      { s with
        tasks := Function.update s.tasks task ((s.tasks task).finish report)
        pc := .setValue handle task } →
    TaskStep s e s'
  | other :
    writes s e = none →
    told s e = none →
    s'.tasks = s.tasks →
    TaskStep s e s'

/-- A callback writes to the task of its handle. -/
lemma taskStep_of_write (own : OwnTask s) {handle : η} {w : Write}
    (w_eq : writes s e = (s.m_RunningTasks.lookup handle).map fun task => (task, w))
    (no_report : told s e = none) (st : s.write handle (fun task => task.receive w) = some s') :
    TaskStep s e s' := by
  unfold DownloaderEventCurl.write at st
  split at st
  next task pc user =>
    split at st
    next added =>
      cases st
      have running := own.lookup added user (by simp [pc])
      rw [running] at w_eq
      exact .write pc running w_eq no_report rfl
    next => cases st
  next => cases st

omit [DecidableEq η] [DecidableEq τ] in
/-- The loop condition changes no task. -/
lemma condition_tasks (s : DownloaderEventCurl η τ) : s.condition.tasks = s.tasks := by
  unfold DownloaderEventCurl.condition
  split
  next => split <;> rfl
  next => rfl

/-- A step of `OnInterrupt` or `CheckSocket` ends at most one task. -/
lemma taskStep_of_run (st : s.run = some s') : TaskStep s .run s' := by
  unfold DownloaderEventCurl.run at st
  split at st
  case h_1 pc =>
    cases st
    exact .other rfl (by simp only [told, pc]) (condition_tasks s)
  case h_4 handle report pc =>
    split at st
    next task found =>
      cases st
      exact .finish pc found rfl (by simp only [told, pc, found, Option.map_some]) rfl
    next missing =>
      cases st
      exact .other rfl (by simp only [told, pc, missing, Option.map_none]) rfl
  case h_10 | h_11 | h_12 => cases st
  all_goals
    rename_i pc
    cases st
    exact .other rfl (by simp only [told, pc]) rfl

/-- Every step is one of these. -/
lemma taskStep_of_step (own : OwnTask s) (st : Exec DownloaderEventCurl.step s e s') : TaskStep s e s' := by
  unfold Exec DownloaderEventCurl.step at st
  cases e with
  | bodyCallbackProc handle size count => exact taskStep_of_write own rfl rfl st
  | errorBuffer handle text => exact taskStep_of_write own rfl rfl st
  | run => exact taskStep_of_run st
  | push task =>
    cases task with
    | none =>
      cases st
      exact .other rfl rfl rfl
    | some task =>
      simp only at st
      split at st
      next => cases st
      next =>
        cases st
        exact .other rfl rfl rfl
  | setMaxConcurrency maxConcurrency =>
    cases st
    exact .other rfl rfl rfl
  | eventActive | othersObtain init | othersReturn handle =>
    simp only at st
    split at st
    next =>
      cases st
      exact .other rfl rfl rfl
    next => cases st
  | checkSocket =>
    simp only at st
    split at st
    next =>
      cases st
      exact .other rfl rfl rfl
    next => cases st
  | onInterrupt | obtain init =>
    simp only at st
    split at st
    next =>
      split at st
      next =>
        cases st
        exact .other rfl rfl rfl
      next => cases st
    next => cases st
  | infoRead msg =>
    simp only at st
    split at st
    next =>
      split at st
      next =>
        cases st
        exact .other rfl rfl rfl
      next => cases st
    next =>
      cases st
      exact .other rfl rfl rfl
    next =>
      cases st
      exact .other rfl rfl rfl
    next => cases st

/-! ## Whose task a handle has -/

/-- The task has been ended: it is in `finished` or on its way there. -/
def Ended (s : DownloaderEventCurl η τ) (t : τ) : Prop :=
  t ∈ s.finished ∨ t ∈ s.pc.entry.map Sigma.snd

omit [DecidableEq η] [DecidableEq τ] in
/-- A task that leaves has an entry. -/
lemma entry_of_leaving {pc : EventPc η τ} (leaving : t ∈ pc.leaving) : t ∈ pc.entry.map Sigma.snd := by
  cases pc with
  | erase handle task => exact leaving
  | _ => cases leaving

/-- A task in `m_RunningTasks` that `CheckSocket` has not found is not ended. -/
lemma not_ended (inv : Inv s s.pc) {h : η} (running : s.m_RunningTasks.lookup h = some t)
    (no_entry : s.pc.entry = []) : ¬ Ended s t := by
  rw [Ended, no_entry, List.map_nil, or_iff_left (List.not_mem_nil)]
  intro finished
  have places := inv.tasks t
  have once := List.nodup_iff_count_le_one.mp inv.nodup t
  have in_running : 0 < (tasksOf s.m_RunningTasks).count t :=
    List.count_pos_iff.mpr (mem_tasksOf.mpr ⟨h, running⟩)
  have in_finished : 0 < s.finished.count t := List.count_pos_iff.mpr finished
  omega

omit [DecidableEq τ] in
/-- No task is ended in a step in which `CheckSocket` finds none. -/
lemma ended_moves (m : Moves s e s') (none : told s e = none) : Ended s' t ↔ Ended s t := by
  cases m with
  | push | pushNull | eventActive | setMaxConcurrency | othersObtain | othersReturn | write | popNull => rfl
  | onInterrupt pc | checkSocket pc | pop pc | stop pc | obtain pc | addHandle pc | insert pc | done pc
  | other pc | removeHandle pc | return_ pc | activate pc | setValue pc | notFound pc =>
    rw [Ended, Ended, pc]
    rfl
  | @noMsg hasMsg pc =>
    rw [Ended, Ended, pc]
    cases hasMsg <;> rfl
  | found pc found =>
    simp only [told, pc, found, Option.map_some, reduceCtorEq] at none
  | @erase handle task pc =>
    rw [Ended, Ended, pc]
    simp [EventPc.entry]

/-- A move keeps each handle with its own task. -/
lemma OwnTask.moves (own : OwnTask s) (inv : Inv s s.pc) (m : Moves s e s') : OwnTask s' := by
  intro h added t user
  cases m with
  | push | pushNull | eventActive | setMaxConcurrency | othersObtain | othersReturn | write | popNull =>
    exact own h added t user
  | onInterrupt pc | checkSocket pc | pop pc | stop pc | obtain pc | other pc | noMsg pc | found pc
  | notFound pc | setValue pc | return_ pc | activate pc =>
    exact .inr (own.lookup added user (by simp [pc]))
  | done pc mem => exact .inr (own.lookup (List.mem_of_mem_erase added) user (by simp [pc]))
  | removeHandle pc => exact .inr (own.lookup (List.mem_of_mem_erase added) user (by simp [pc]))
  | @addHandle task handle pc =>
    change Function.update s.userdata handle (some task) h = some t at user
    by_cases same : h = handle
    · subst same
      rw [Function.update_self, Option.some.injEq] at user
      exact .inl (congrArg (EventPc.insert · h) user)
    · rw [Function.update_of_ne same] at user
      have added := (List.mem_append.mp added).resolve_right fun mem => same (List.mem_singleton.mp mem)
      exact .inr (own.lookup added user (by simp [pc]))
  | @insert task handle pc =>
    rw [pc] at inv
    have notKey := inv.notMem_keys List.mem_cons_self
    have running : insertNew s.m_RunningTasks handle task = s.m_RunningTasks.insert handle task :=
      if_neg notKey
    refine .inr ?_
    rw [running]
    rcases own h added t user with inserting | found
    · rw [pc] at inserting
      cases inserting
      exact AList.lookup_insert _
    · have ne : h ≠ handle := by
        rintro rfl
        exact notKey (AList.lookup_isSome.mp (Option.isSome_of_eq_some found))
      rwa [AList.lookup_insert_ne ne]
  | @erase handle task pc =>
    have found := own.lookup added user (by simp [pc])
    rw [pc] at inv
    have ne : h ≠ handle := by
      rintro rfl
      exact (List.nodup_cons.mp inv.reported).1 added
    exact .inr ((AList.lookup_erase_ne ne).trans found)

/-! ## All runs -/

/-- What has become of a task. -/
def content (start : CurlDownloadTask) (received : List Write) (report : Option Report) : CurlDownloadTask :=
  match report with
  | some report => (received.foldl CurlDownloadTask.receive start).finish report
  | none => received.foldl CurlDownloadTask.receive start

/-- The record is right, and just the tasks that were ended have a report. -/
structure Recorded (m_ResBodyLength : τ → UInt64) (r : Transfers η τ) : Prop where
  inv : Inv r.downloader r.downloader.pc
  own : OwnTask r.downloader
  reported : ∀ t, (r.reports t).isSome ↔ Ended r.downloader t
  content : ∀ t, r.downloader.tasks t = content (.new (m_ResBodyLength t)) (r.received t) (r.reports t)

variable {m_ResBodyLength : τ → UInt64} {limit : Int32} {l : List (Event η τ)}

/-- In the beginning there is nothing to record. -/
lemma recorded_start : Recorded m_ResBodyLength (start limit m_ResBodyLength : Transfers η τ) where
  inv := .new
  own := fun _ mem => nomatch mem
  reported := fun t => by simp [start, DownloaderEventCurl.new, Ended, EventPc.entry]
  content := fun _ => rfl

/-- A task that runs has no report yet. -/
lemma Recorded.no_report (h : Recorded m_ResBodyLength r) {handle : η}
    (running : r.downloader.m_RunningTasks.lookup handle = some t) (no_entry : r.downloader.pc.entry = []) :
    r.reports t = none :=
  Option.not_isSome_iff_eq_none.mp fun reported =>
    not_ended h.inv running no_entry ((h.reported t).mp reported)

/-- Every step keeps the record right. -/
lemma Recorded.step (h : Recorded m_ResBodyLength r) (st : Exec step r e r') :
    Recorded m_ResBodyLength r' := by
  obtain ⟨s', inner, rfl⟩ := Option.map_eq_some_iff.mp st
  have moves := moves_of_step inner
  have inv := h.inv.moves moves
  have own := h.own.moves h.inv moves
  cases taskStep_of_step h.own inner with
  | @write handle task w pc running w_eq no_report e =>
    subst e
    have open_task := h.no_report running (by rw [pc]; rfl)
    rw [w_eq, no_report]
    refine ⟨inv, own, h.reported, fun t => ?_⟩
    change Function.update r.downloader.tasks task ((r.downloader.tasks task).receive w) t =
      Transfers.content _ (Function.update r.received task (r.received task ++ [w]) t) (r.reports t)
    by_cases same : t = task
    · subst same
      rw [Function.update_self, Function.update_self, h.content t, open_task]
      exact (List.foldl_concat CurlDownloadTask.receive _ _ _).symm
    · rw [Function.update_of_ne same, Function.update_of_ne same]
      exact h.content t
  | @finish handle task report pc found w_eq report_eq e =>
    subst e
    have open_task := h.no_report found (by rw [pc]; rfl)
    rw [w_eq, report_eq]
    refine ⟨inv, own, fun t => ?_, fun t => ?_⟩
    · change (Function.update r.reports task (some report) t).isSome ↔ t ∈ r.downloader.finished ∨ t ∈ [task]
      by_cases same : t = task
      · subst same
        simp
      · have before := h.reported t
        rw [Ended, pc] at before
        rw [Function.update_of_ne same, before]
        simp [EventPc.entry, same]
    · change Function.update r.downloader.tasks task ((r.downloader.tasks task).finish report) t =
        Transfers.content _ _ (Function.update r.reports task (some report) t)
      by_cases same : t = task
      · subst same
        rw [Function.update_self, Function.update_self, h.content t, open_task]
        rfl
      · rw [Function.update_of_ne same, Function.update_of_ne same]
        exact h.content t
  | other w_eq no_report tasks =>
    rw [w_eq, no_report]
    refine ⟨inv, own, fun t => ?_, fun t => ?_⟩
    · exact (h.reported t).trans (ended_moves moves no_report).symm
    · change s'.tasks t = _
      rw [tasks]
      exact h.content t

/-- The record keeps the downloader from no step. -/
lemma exists_run {s : DownloaderEventCurl η τ}
    (run : Run (Exec DownloaderEventCurl.step) (.new limit fun task => .new (m_ResBodyLength task)) l s) :
    ∃ r, r.downloader = s ∧ Run (Exec step) (start limit m_ResBodyLength) l r := by
  induction run with
  | nil => exact ⟨start limit m_ResBodyLength, rfl, .nil⟩
  | @snoc l s e s' run st ih =>
    obtain ⟨r, rfl, recorded⟩ := ih
    exact ⟨_, rfl, recorded.snoc (Option.map_eq_some_iff.mpr ⟨s', st, rfl⟩)⟩

/-- A task whose promise was set is the transfer of what curl has written for its handle while it was in
    `m_RunningTasks`, with the report for it. -/
theorem transfer_of_run (run : Run (Exec step) (start limit m_ResBodyLength : Transfers η τ) l r)
    (promised : t ∈ r.downloader.promises) :
    ∃ report, r.reports t = some report ∧
      r.downloader.tasks t = transfer (m_ResBodyLength t) (r.received t) report := by
  have recorded : Recorded m_ResBodyLength r := run.invariant recorded_start fun h st => h.step st
  have count := recorded.inv.promises t
  have once : 0 < r.downloader.promises.count t := List.count_pos_iff.mpr promised
  have ended : Ended r.downloader t := by
    by_cases finished : t ∈ r.downloader.finished
    · exact .inl finished
    · rw [count, List.count_eq_zero.mpr finished, Nat.zero_add] at once
      exact .inr (entry_of_leaving (List.count_pos_iff.mp once))
  obtain ⟨report, reported⟩ := Option.isSome_iff_exists.mp ((recorded.reported t).mpr ended)
  refine ⟨report, reported, ?_⟩
  rw [recorded.content t, reported]
  rfl

/-- The statement above at two tasks, the first of which is delivered. -/
theorem transfer_of_run_inTurn :
    ∃ r : Transfers Nat Bool, r.received false = [.body 1 100] ∧
      ∃ report, r.reports false = some report ∧
        r.downloader.tasks false = transfer 0 (r.received false) report := by
  have result : (exec step (start 1 fun _ => 0) inTurn).any fun r : Transfers Nat Bool =>
      r.received false = [.body 1 100] ∧ false ∈ r.downloader.promises := by decide +kernel
  rw [Option.any_eq_true] at result
  obtain ⟨r, result, facts⟩ := result
  obtain ⟨received, promised⟩ := decide_eq_true_eq.mp facts
  exact ⟨r, received, transfer_of_run (run_exec_iff.mpr result) promised⟩

end Step

end Transfers
end XLN
