import XLN.Client.Transfer

/-!
# Requests

`RequestCDN` and `ResetRequestID` of `Client/DownloadService.cpp`, over the downloader. `RequestCDN` makes a
task, gives it to the downloader and only then asks the promise in the task for its future. Many threads do
this at once, while the event thread works on the tasks. The promise and its future share a core, which keeps
the value from `setValue` until somebody takes it out of the future; the value is the `shared_ptr` that owns
the task, so the task is deleted when it was taken out and released.

Tasks are values of a type `τ`; a task that is made later is another value, wherever its storage is. No step
of any thread touches a task that is not made or is deleted (`alive_of_run`).
-/

namespace XLN
open Transition DownloaderEventCurl Transfers

namespace DownloadService

/-- How far a task is: where its `RequestCDN` call is, and what the caller has done with the future. -/
inductive Stage where
  | unmade
  | made
  | numbered
  | pushed
  | sent
  | held
  | dropped
  | extracted
  | deleted
  deriving DecidableEq

/-- A step of a thread in `RequestCDN` for the task, of its caller, of a thread that resets the numbers, or a
    step that the downloader takes. -/
inductive Event (η τ : Type) where
  | make (task : τ)
  | number (task : τ)
  | push (task : τ)
  | eventActive (task : τ)
  | getFuture (task : τ)
  | drop (task : τ)
  | extract (task : τ)
  | delete (task : τ)
  | resetRequestID
  | downloader (e : DownloaderEventCurl.Event η τ)

end DownloadService

open DownloadService in
/-- A `DownloadService`, with the stages of all tasks and their `m_RequestID`. -/
structure DownloadService (η τ : Type) where
  m_CDNDownloader : DownloaderEventCurl η τ
  m_RequestID : Int32
  stage : τ → Stage
  requestID : τ → Option Int32

namespace DownloadService

variable {η τ : Type}

/-- The constructor; it does not set `m_RequestID`. -/
def new (limit m_RequestID : Int32) (tasks : τ → CurlDownloadTask) : DownloadService η τ :=
  { m_CDNDownloader := .new limit tasks
    m_RequestID := m_RequestID
    stage := fun _ => .unmade
    requestID := fun _ => none }

/-- Steps that only `sendDownloadTask` takes. -/
def ofSend : DownloaderEventCurl.Event η τ → Bool
  | .push _ | .eventActive => true
  | _ => false

section Step
variable [DecidableEq τ]

/-- The task goes on. -/
def advance (s : DownloadService η τ) (task : τ) (stage : Stage) : DownloadService η τ :=
  { s with stage := Function.update s.stage task stage }

variable [DecidableEq η]

def step (s : DownloadService η τ) (e : Event η τ) : Option (DownloadService η τ) :=
  match e with
  | .make task => if s.stage task = .unmade then some (s.advance task .made) else none
  | .number task =>
    if s.stage task = .made then some
      { s.advance task .numbered with
        m_RequestID := s.m_RequestID + 1
        requestID := Function.update s.requestID task (some s.m_RequestID) }
    else none
  | .push task =>
    if s.stage task = .numbered then
      (s.m_CDNDownloader.step (.push (some task))).map fun m_CDNDownloader =>
        { s.advance task .pushed with m_CDNDownloader }
    else none
  | .eventActive task =>
    if s.stage task = .pushed then
      (s.m_CDNDownloader.step .eventActive).map fun m_CDNDownloader =>
        { s.advance task .sent with m_CDNDownloader }
    else none
  | .getFuture task => if s.stage task = .sent then some (s.advance task .held) else none
  | .drop task => if s.stage task = .held then some (s.advance task .dropped) else none
  -- the future is ready when the value is in the core
  | .extract task =>
    if s.stage task = .held ∧ task ∈ s.m_CDNDownloader.promises then some (s.advance task .extracted)
    else none
  | .delete task => if s.stage task = .extracted then some (s.advance task .deleted) else none
  | .resetRequestID => some { s with m_RequestID := 0 }
  | .downloader e =>
    if ofSend e then none
    else (s.m_CDNDownloader.step e).map fun m_CDNDownloader => { s with m_CDNDownloader }

/-- The tasks that a step of the downloader reads or writes: `SetCurl` and the timer in `OnInterrupt`, the
    callbacks of curl, and `CheckSocket`. -/
def touched (s : DownloaderEventCurl η τ) : DownloaderEventCurl.Event η τ → List τ
  | .bodyCallbackProc handle _ _ | .errorBuffer handle _ => (s.userdata handle).toList
  | .run =>
    match s.pc with
    | .addHandle task _ | .insert task _ | .setValue _ task => [task]
    | .find handle _ => (s.m_RunningTasks.lookup handle).toList
    | _ => []
  | _ => []

/-- The tasks that a step reads, writes or deletes. -/
def accesses (s : DownloadService η τ) : Event η τ → List τ
  | .number task | .push task | .getFuture task | .delete task => [task]
  | .downloader e => touched s.m_CDNDownloader e
  | _ => []

/-- The task is an object: it has been made and not been deleted. -/
def Alive (s : DownloadService η τ) (task : τ) : Prop :=
  s.stage task ≠ .unmade ∧ s.stage task ≠ .deleted

end Step

/-! ## Tasks that the downloader touches -/

section Touched
variable [DecidableEq η] [DecidableEq τ] {s s' : DownloaderEventCurl η τ} {t : τ}
  {e : DownloaderEventCurl.Event η τ} {pc : EventPc η τ}

omit [DecidableEq η] in
/-- A task that is started or running and not about to be erased was sent, and its promise is not set. -/
lemma open_of_place (inv : Inv s s.pc) (place : t ∈ s.pc.entering ∨ t ∈ tasksOf s.m_RunningTasks)
    (staying : s.pc.leaving = []) : t ∈ s.submitted ∧ t ∉ s.promises := by
  have places := inv.tasks t
  have promises := inv.promises t
  have once := List.nodup_iff_count_le_one.mp inv.nodup t
  rw [staying, List.count_nil, Nat.add_zero] at promises
  rw [← List.one_le_count_iff, ← List.one_le_count_iff] at place
  rw [← List.one_le_count_iff, ← List.count_eq_zero]
  omega

/-- A task that is written to was sent and has not been delivered. -/
lemma open_of_write (inv : Inv s s.pc) (own : OwnTask s) {handle : η}
    {f : CurlDownloadTask → CurlDownloadTask} (st : s.write handle f = some s')
    (mem : t ∈ (s.userdata handle).toList) : t ∈ s.submitted ∧ t ∉ s.promises := by
  rw [DownloaderEventCurl.write] at st
  split at st
  next task pc user =>
    split at st
    next added =>
      rw [user, Option.toList_some, List.mem_singleton] at mem
      subst mem
      have running := own.lookup added user (by simp [pc])
      exact open_of_place inv (.inr (mem_tasksOf.mpr ⟨handle, running⟩)) (by rw [pc]; rfl)
    next => cases st
  next => cases st

/-- Every task that the downloader touches in a step was sent, and its promise is not set. -/
lemma open_of_touched (inv : Inv s s.pc) (own : OwnTask s) (st : s.step e = some s')
    (mem : t ∈ touched s e) : t ∈ s.submitted ∧ t ∉ s.promises := by
  cases e with
  | bodyCallbackProc handle size count =>
    have write : s.write handle (fun t => (t.bodyCallbackProc size count).1) = some s' := st
    exact open_of_write inv own write mem
  | errorBuffer handle text =>
    have write : s.write handle (fun t => { t with m_CurlErrbuf := text }) = some s' := st
    exact open_of_write inv own write mem
  | run =>
    rw [touched] at mem
    split at mem
    next task handle pc =>
      exact open_of_place inv (.inl (by rw [pc]; exact mem)) (by rw [pc]; rfl)
    next task handle pc =>
      exact open_of_place inv (.inl (by rw [pc]; exact mem)) (by rw [pc]; rfl)
    next handle task pc =>
      rw [List.mem_singleton] at mem
      subst mem
      have found : ⟨handle, t⟩ ∈ s.pc.entry := by
        rw [pc]
        exact List.mem_cons_self
      refine open_of_place inv (.inr ?_) (by rw [pc]; rfl)
      exact List.mem_map.mpr ⟨_, inv.found _ found, rfl⟩
    next handle report pc =>
      have found : s.m_RunningTasks.lookup handle = some t := Option.mem_toList.mp mem
      exact open_of_place inv (.inr (mem_tasksOf.mpr ⟨handle, found⟩)) (by rw [pc]; rfl)
    next => cases mem
  | _ => cases mem

/-- What the downloader's own steps do to the lists of tasks. -/
lemma lists_of_step (own : ofSend e = false) (st : s.step e = some s') :
    s'.submitted = s.submitted ∧ s'.sending = s.sending ∧ s.promises ⊆ s'.promises := by
  cases moves_of_step st with
  | push | pushNull | eventActive => cases own
  | setValue => exact ⟨rfl, rfl, List.subset_append_left ..⟩
  | _ => exact ⟨rfl, rfl, List.Subset.refl _⟩

end Touched

/-! ## Stages -/

/-- `RequestCDN` has pushed the task. -/
def Stage.Submitted : Stage → Prop
  | .unmade | .made | .numbered => False
  | _ => True

/-- The value of the future was taken out. -/
def Stage.Taken : Stage → Prop
  | .extracted | .deleted => True
  | _ => False

section Runs
variable [DecidableEq η] [DecidableEq τ]

/-- The stages agree with the lists of the downloader. -/
structure Consistent (d : DownloaderEventCurl η τ) (stage : τ → Stage) : Prop where
  inv : Inv d d.pc
  own : OwnTask d
  submitted : ∀ t, t ∈ d.submitted ↔ (stage t).Submitted
  fulfilled : ∀ t, (stage t).Taken → t ∈ d.promises
  sending : d.sending = d.submitted.countP fun t => stage t = .pushed

variable {s s' : DownloadService η τ} {d d' : DownloaderEventCurl η τ} {t task : τ} {e : Event η τ}
  {stage : τ → Stage} {next : Stage} {limit m_RequestID : Int32} {tasks : τ → CurlDownloadTask}
  {l : List (Event η τ)}

/-- Nothing was sent to a new downloader. -/
lemma Consistent.new : Consistent (.new limit tasks : DownloaderEventCurl η τ) fun _ => .unmade where
  inv := .new
  own := fun _ mem => nomatch mem
  submitted := by simp [DownloaderEventCurl.new, Stage.Submitted]
  fulfilled := fun _ taken => taken.elim
  sending := rfl

omit [DecidableEq η] in
/-- One task leaves the ones that are counted. -/
lemma countP_add_one {p q : τ → Bool} {l : List τ} (nodup : l.Nodup) (mem : task ∈ l)
    (here : p task = true) (gone : q task = false) (others : ∀ t, t ≠ task → q t = p t) :
    l.countP q + 1 = l.countP p := by
  have perm := List.perm_cons_erase mem
  have rest : (l.erase task).countP q = (l.erase task).countP p := by
    refine List.countP_congr fun t ht => ?_
    rw [others t]
    rintro rfl
    exact nodup.not_mem_erase ht
  rw [perm.countP_eq, perm.countP_eq, List.countP_cons_of_neg (by simp [gone]), List.countP_cons_of_pos here,
    rest]

/-- One task goes on, perhaps with the downloader. -/
lemma Consistent.update (h : Consistent d stage) (inv : Inv d' d'.pc) (own : OwnTask d')
    (others : ∀ t, t ≠ task → (t ∈ d'.submitted ↔ t ∈ d.submitted)) (promises : d.promises ⊆ d'.promises)
    (submitted : task ∈ d'.submitted ↔ next.Submitted) (fulfilled : next.Taken → task ∈ d'.promises)
    (sending : d'.sending = d'.submitted.countP fun t => Function.update stage task next t = .pushed) :
    Consistent d' (Function.update stage task next) := by
  refine ⟨inv, own, fun t => ?_, fun t taken => ?_, sending⟩
  · by_cases e : t = task
    · subst e
      rw [Function.update_self, submitted]
    · rw [Function.update_of_ne e, others t e]
      exact h.submitted t
  · by_cases e : t = task
    · subst e
      rw [Function.update_self] at taken
      exact fulfilled taken
    · rw [Function.update_of_ne e] at taken
      exact promises (h.fulfilled t taken)

/-- A task goes on while the downloader does not change. -/
lemma Consistent.advance (h : Consistent d stage) (submitted : next.Submitted ↔ (stage task).Submitted)
    (fulfilled : next.Taken → task ∈ d.promises) (pushed : next = .pushed ↔ stage task = .pushed) :
    Consistent d (Function.update stage task next) := by
  refine h.update h.inv h.own (fun _ _ => Iff.rfl) (List.Subset.refl _) ?_ fulfilled ?_
  · rw [submitted]
    exact h.submitted task
  · refine h.sending.trans (List.countP_congr fun t _ => ?_)
    by_cases e : t = task
    · subst e
      simp [pushed]
    · rw [Function.update_of_ne e]

/-- `push` hands the task of a request over. -/
lemma Consistent.push (h : Consistent d stage) (st : d.step (.push (some task)) = some d') :
    Consistent d' (Function.update stage task .pushed) := by
  have inv := h.inv.moves (moves_of_step st)
  have own := h.own.moves h.inv (moves_of_step st)
  simp only [DownloaderEventCurl.step] at st
  split at st
  next => cases st
  next new =>
    cases st
    refine h.update inv own (fun t ne => ?_) (List.Subset.refl _) ?_ False.elim ?_
    · simp [ne]
    · simp [Stage.Submitted]
    · simp only [List.countP_append, List.countP_singleton, Function.update_self]
      rw [h.sending]
      refine congrArg (· + 1) (List.countP_congr fun t mem => ?_)
      rw [Function.update_of_ne]
      rintro rfl
      exact new mem

/-- `event_active` ends the sending of a request. -/
lemma Consistent.eventActive (h : Consistent d stage) (pushed : stage task = .pushed)
    (st : d.step .eventActive = some d') : Consistent d' (Function.update stage task .sent) := by
  have inv := h.inv.moves (moves_of_step st)
  have own := h.own.moves h.inv (moves_of_step st)
  have mem : task ∈ d.submitted := (h.submitted task).mpr (by rw [pushed]; trivial)
  simp only [DownloaderEventCurl.step] at st
  split at st
  next =>
    cases st
    refine h.update inv own (fun _ _ => Iff.rfl) (List.Subset.refl _) ?_ False.elim ?_
    · simpa [Stage.Submitted] using mem
    · have fewer := countP_add_one (p := fun t => stage t = .pushed)
        (q := fun t => Function.update stage task .sent t = .pushed) h.inv.nodup mem (by simp [pushed])
        (by simp) (fun t ne => by rw [Function.update_of_ne ne])
      have sending := h.sending
      change d.sending - 1 = d.submitted.countP fun t => Function.update stage task .sent t = .pushed
      omega
  next => cases st

/-- What the downloader does by itself changes no stage. -/
lemma Consistent.downloader (h : Consistent d stage) {e : DownloaderEventCurl.Event η τ}
    (own : ofSend e = false) (st : d.step e = some d') : Consistent d' stage := by
  obtain ⟨submitted, sending, promises⟩ := lists_of_step own st
  refine ⟨h.inv.moves (moves_of_step st), h.own.moves h.inv (moves_of_step st), fun t => ?_,
    fun t taken => promises (h.fulfilled t taken), ?_⟩
  · rw [submitted]
    exact h.submitted t
  · rw [submitted, sending]
    exact h.sending

/-- Every step keeps the stages and the lists in agreement. -/
lemma Consistent.step (h : Consistent s.m_CDNDownloader s.stage) (st : Exec step s e s') :
    Consistent s'.m_CDNDownloader s'.stage := by
  rw [Exec] at st
  cases e with
  | make task | number task | getFuture task | drop task | delete task =>
    simp only [DownloadService.step] at st
    split at st
    next stage =>
      cases st
      exact h.advance (by simp [Stage.Submitted, stage])
        (by first | exact False.elim | exact fun _ => h.fulfilled _ (by rw [stage]; trivial))
        (by simp [stage])
    next => cases st
  | extract task =>
    simp only [DownloadService.step] at st
    split at st
    next ready =>
      cases st
      exact h.advance (by simp [Stage.Submitted, ready.1]) (fun _ => ready.2) (by simp [ready.1])
    next => cases st
  | push task =>
    simp only [DownloadService.step] at st
    split at st
    next =>
      obtain ⟨d', inner, rfl⟩ := Option.map_eq_some_iff.mp st
      exact h.push inner
    next => cases st
  | eventActive task =>
    simp only [DownloadService.step] at st
    split at st
    next stage =>
      obtain ⟨d', inner, rfl⟩ := Option.map_eq_some_iff.mp st
      exact h.eventActive stage inner
    next => cases st
  | resetRequestID =>
    cases st
    exact h
  | downloader e =>
    simp only [DownloadService.step] at st
    split at st
    next => cases st
    next own =>
      obtain ⟨d', inner, rfl⟩ := Option.map_eq_some_iff.mp st
      exact h.downloader (by simpa using own) inner

/-- The stages are right in every run. -/
lemma consistent_of_run (run : Run (Exec step) (new limit m_RequestID tasks : DownloadService η τ) l s) :
    Consistent s.m_CDNDownloader s.stage :=
  run.invariant (I := fun s => Consistent s.m_CDNDownloader s.stage) .new fun h st => h.step st

/-- A task that was pushed and whose value was not taken out is alive. -/
lemma Consistent.alive (h : Consistent s.m_CDNDownloader s.stage)
    (place : t ∈ s.m_CDNDownloader.submitted ∧ t ∉ s.m_CDNDownloader.promises) : s.Alive t := by
  constructor
  · intro unmade
    have submitted := (h.submitted t).mp place.1
    rw [unmade] at submitted
    exact submitted
  · intro deleted
    exact place.2 (h.fulfilled t (by rw [deleted]; trivial))

/-- Whatever the interleaving, and although the task is with the event thread before its future is asked for:
    no step of any thread reads, writes or deletes a task that has not been made or has been deleted. -/
theorem alive_of_run (run : Run (Exec step) (new limit m_RequestID tasks : DownloadService η τ) l s)
    (st : Exec step s e s') : ∀ t ∈ s.accesses e, s.Alive t := by
  have h := consistent_of_run run
  intro t mem
  rw [Exec] at st
  cases e with
  | number task | push task | getFuture task | delete task =>
    rw [accesses, List.mem_singleton] at mem
    subst mem
    simp only [DownloadService.step] at st
    split at st
    next stage => simp [Alive, stage]
    next => cases st
  | downloader e =>
    simp only [DownloadService.step] at st
    split at st
    next => cases st
    next =>
      obtain ⟨d', inner, rfl⟩ := Option.map_eq_some_iff.mp st
      exact h.alive (open_of_touched h.inv h.own inner mem)
  | _ => cases mem

/-- The event thread has set the promise of the task before its future is asked for. -/
def early : List (Event Nat Bool) :=
  [.make false, .number false, .push false, .eventActive false, .downloader .onInterrupt, .downloader .run,
    .downloader (.obtain 5), .downloader .run, .downloader .run, .downloader .run,
    .downloader (.bodyCallbackProc 5 1 100), .downloader .checkSocket,
    .downloader (.infoRead (some (.done 5 ⟨0, none, some 200⟩))), .downloader .run, .downloader .run]

/-- A task that is delivered early. -/
lemma run_early :
    ∃ s, Run (Exec step) (new 0 0 fun _ => .new 0) early s ∧
      (s.stage false = .sent ∧ s.m_CDNDownloader.promises = [false]) := by
  have result : (exec step (new 0 0 fun _ => .new 0) early).any fun s =>
      s.stage false = .sent ∧ s.m_CDNDownloader.promises = [false] := by decide +kernel
  rw [Option.any_eq_true] at result
  obtain ⟨s, result, facts⟩ := result
  exact ⟨s, run_exec_iff.mpr result, decide_eq_true_eq.mp facts⟩

/-- The statement above for the call of `getFuture` then. -/
theorem alive_of_run_early :
    ∃ s s', Run (Exec step) (new 0 0 fun _ => .new 0) early s ∧ s.m_CDNDownloader.promises = [false] ∧
      Exec step s (.getFuture false) s' ∧ ∀ t ∈ s.accesses (.getFuture false), s.Alive t := by
  obtain ⟨s, run, sent, promises⟩ := run_early
  have st : Exec step s (.getFuture false) (s.advance false .held) := if_pos sent
  exact ⟨s, _, run, promises, st, alive_of_run run st⟩

/-! ## The numbers -/

/-- The tasks got their numbers one after the other, from the start on. -/
structure Numbered (m_RequestID : Int32) (s : DownloadService η τ) (order : List τ) : Prop where
  next : s.m_RequestID = m_RequestID + Int32.ofNat order.length
  number : ∀ t id, s.requestID t = some id → ∃ k, order[k]? = some t ∧ id = m_RequestID + Int32.ofNat k

/-- The event draws a number. -/
def isNumber : Event η τ → Bool
  | .number _ => true
  | _ => false

omit [DecidableEq η] [DecidableEq τ] in
/-- The numbering depends on nothing else. -/
lemma numbered_of_same {order : List τ} (h : Numbered m_RequestID s order)
    (id : s'.m_RequestID = s.m_RequestID)
    (ids : s'.requestID = s.requestID) : Numbered m_RequestID s' order := by
  refine ⟨id.trans h.next, fun t id e => ?_⟩
  rw [ids] at e
  exact h.number t id e

/-- A step numbers at most one more request. -/
lemma Numbered.step {order : List τ} (h : Numbered m_RequestID s order) (st : Exec step s e s')
    (noReset : e ≠ .resetRequestID) :
    ∃ order', order'.length = order.length + (if isNumber e then 1 else 0) ∧
      Numbered m_RequestID s' order' := by
  rw [Exec] at st
  cases e with
  | number task =>
    simp only [DownloadService.step] at st
    split at st
    next =>
      cases st
      refine ⟨order ++ [task], by simp [isNumber], ?_, fun t id e => ?_⟩
      · change s.m_RequestID + 1 = _
        rw [h.next, List.length_append, List.length_singleton, Int32.ofNat_add, ← Int32.add_assoc]
        rfl
      · change Function.update s.requestID task (some s.m_RequestID) t = some id at e
        by_cases same : t = task
        · subst same
          rw [Function.update_self, Option.some.injEq] at e
          exact ⟨order.length, by simp, e.symm.trans h.next⟩
        · rw [Function.update_of_ne same] at e
          obtain ⟨k, at_k, e⟩ := h.number t id e
          refine ⟨k, ?_, e⟩
          rw [List.getElem?_append_left (List.getElem?_eq_some_iff.mp at_k).1, at_k]
    next => cases st
  | resetRequestID => exact absurd rfl noReset
  | make task | getFuture task | drop task | delete task | extract task =>
    simp only [DownloadService.step] at st
    split at st
    next =>
      cases st
      exact ⟨order, rfl, numbered_of_same h rfl rfl⟩
    next => cases st
  | push task | eventActive task =>
    simp only [DownloadService.step] at st
    split at st
    next =>
      obtain ⟨d', inner, rfl⟩ := Option.map_eq_some_iff.mp st
      exact ⟨order, rfl, numbered_of_same h rfl rfl⟩
    next => cases st
  | downloader e =>
    simp only [DownloadService.step] at st
    split at st
    next => cases st
    next =>
      obtain ⟨d', inner, rfl⟩ := Option.map_eq_some_iff.mp st
      exact ⟨order, rfl, numbered_of_same h rfl rfl⟩

/-- While nobody resets the numbers, the tasks of `2 ^ 32` requests all have different numbers, also if
    many threads make them at once. -/
theorem requestID_injective_of_run
    (run : Run (Exec step) (new limit m_RequestID tasks : DownloadService η τ) l s)
    (noReset : .resetRequestID ∉ l) (few : l.countP isNumber ≤ 2 ^ 32) :
    ∀ t t' id, s.requestID t = some id → s.requestID t' = some id → t = t' := by
  obtain ⟨order, length, h⟩ : ∃ order, order.length = l.countP isNumber ∧ Numbered m_RequestID s order := by
    clear few
    induction run with
    | nil => exact ⟨[], rfl, (Int32.add_zero _).symm, nofun⟩
    | @snoc l s e s' run st ih =>
      rw [List.mem_append, List.mem_singleton, not_or] at noReset
      obtain ⟨order, length, h⟩ := ih noReset.1
      obtain ⟨order', length', h'⟩ := h.step st (Ne.symm noReset.2)
      refine ⟨order', ?_, h'⟩
      rw [length', length, List.countP_append, List.countP_singleton]
  intro t t' id e e'
  obtain ⟨k, at_k, number⟩ := h.number t id e
  obtain ⟨k', at_k', number'⟩ := h.number t' id e'
  have lt := (List.getElem?_eq_some_iff.mp at_k).1
  have lt' := (List.getElem?_eq_some_iff.mp at_k').1
  have same : k = k' := by
    have bits := congrArg (fun n : Int32 => n.toBitVec.toNat) (number.symm.trans number')
    simp only [Int32.toBitVec_add, Int32.toBitVec_ofNat', BitVec.toNat_add, BitVec.toNat_ofNat] at bits
    have range := m_RequestID.toBitVec.isLt
    omega
  subst same
  exact Option.some.inj (at_k.symm.trans at_k')

/-- The statement above for two requests that are made at the same time. -/
theorem requestID_injective_of_run_two :
    ∃ s : DownloadService Nat Bool,
      Run (Exec step) (new 0 7 fun _ => .new 0) [.make true, .make false, .number false, .number true] s ∧
      (s.requestID false = some 7 ∧ s.requestID true = some 8) ∧
      ∀ t t' id, s.requestID t = some id → s.requestID t' = some id → t = t' := by
  have result : (exec step (new 0 7 fun _ => .new 0 : DownloadService Nat Bool)
      [.make true, .make false, .number false, .number true]).any fun s =>
      s.requestID false = some 7 ∧ s.requestID true = some 8 := by decide +kernel
  rw [Option.any_eq_true] at result
  obtain ⟨s, result, facts⟩ := result
  have run := run_exec_iff.mpr result
  exact ⟨s, run, decide_eq_true_eq.mp facts,
    requestID_injective_of_run run (by simp) (by decide)⟩

end Runs
end DownloadService
end XLN
