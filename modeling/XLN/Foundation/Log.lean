import XLN.Foundation.ServiceMgr.ShutDown

/-!
# The cached log service

`Core/Foundation/Log.cpp` on top of `FoundationSDM.cpp`: `DoLog` looks the `LogService` up once and
keeps the pointer in a static variable that nothing resets. A `LogRun` is a program that starts and
stops the core service manager any number of times and logs at any point, also while services are
destroyed; `RegisterService` and `BuildDep` log, too. `alive_along_iff` says which log calls reach a
`LogService` that still exists: those before the `ShutDown` that destroys it is past it.
-/

namespace XLN
open Transition

/-- `LogLevel`. -/
inductive LogLevel where
  | LL_LOG_INFO
  | LL_LOG_DEBUG
  | LL_LOG_WARNING
  | LL_LOG_ERROR
  deriving DecidableEq

/-- The value of the enumerator. -/
def LogLevel.value : LogLevel → Nat
  | LL_LOG_INFO => 0
  | LL_LOG_DEBUG => 1
  | LL_LOG_WARNING => 2
  | LL_LOG_ERROR => 3

/-- The two switches of the build in `Log.h`. -/
structure LogBuild where
  NDEBUG : Bool
  XLN_SHIPPING : Bool

/-- Whether the macro of a level is defined to log: `XLN_LOGI`, `XLN_LOGD`, `XLN_LOGW` or `XLN_LOGE`. -/
def LogBuild.keeps (build : LogBuild) : LogLevel → Bool
  | .LL_LOG_INFO | .LL_LOG_DEBUG => !build.NDEBUG
  | .LL_LOG_WARNING => !build.XLN_SHIPPING
  | .LL_LOG_ERROR => true

/-- A `ShutDown` that runs is past the service: the one that is being destroyed comes before it on the
    operation list. -/
def Teardown.IsPast (mgr : Teardown) (service : Service) : Prop :=
  ∃ current ∈ mgr.current, (Lifecycle.ops mgr.mgr).Before current service

instance (mgr : Teardown) (service : Service) : Decidable (mgr.IsPast service) :=
  match e : mgr.current with
  | some current =>
    decidable_of_iff (List.Sublist [current, service] (Lifecycle.ops mgr.mgr))
      (by simp [Teardown.IsPast, e, List.Before])
  | none => isFalse (by simp [Teardown.IsPast, e])

/-- The core service manager and the static variables of `Log.cpp`. `buried` are the services deleted
    by earlier managers, `leaving` says that `FoundationSDM::ShutDown` is deleting the present one,
    `called` are the services whose `Log` the last event has called, and `outlived` says that a
    `ShutDown` with the service on its list that `DoLog` has found has returned since. -/
structure LogRun where
  ms_CoreServiceMgr : Option Teardown
  s_LogService : Option Service
  s_CurLogLevel : LogLevel
  buried : List Service
  leaving : Bool
  called : List Service
  outlived : Bool

namespace LogRun
open ServiceMgr Lifecycle

/-- `FoundationSDM::Init`, an event of the manager, a log call, `SetLogLevel`, and the begin and the
    return of `FoundationSDM::ShutDown`. -/
inductive Event where
  | sdmInit (lastTime : UInt32)
  | manager (event : Teardown.Event)
  | log (level : LogLevel)
  | setLogLevel (level : LogLevel)
  | sdmShutDown
  | sdmShutDownReturn

/-- Before the first `FoundationSDM::Init`. -/
def init : LogRun where
  ms_CoreServiceMgr := none
  s_LogService := none
  s_CurLogLevel := .LL_LOG_INFO
  buried := []
  leaving := false
  called := []
  outlived := false

/-- All services that have been deleted. -/
def deleted (s : LogRun) : List Service :=
  match s.ms_CoreServiceMgr with
  | some mgr => s.buried ++ mgr.deleted
  | none => s.buried

/-- `FoundationSDM::GetCoreServiceMgr()->GetService<LogService>()`, if there is a manager. -/
def findLogService (LogService : ServiceID) (s : LogRun) : Option Service :=
  match s.ms_CoreServiceMgr with
  | some mgr => mgr.mgr.getService LogService
  | none => none

/-- `DoLog`; the lookup is made under a lock. -/
def doLog (LogService : ServiceID) (s : LogRun) : LogRun :=
  match s.s_LogService with
  | some service => { s with called := s.called ++ [service] }
  | none =>
    let service := s.findLogService LogService
    { s with s_LogService := service, called := s.called ++ service.toList }

/-- The test of `LogInfo`, `LogDebug`, `LogWarning` and `LogError`. -/
def passes (level : LogLevel) (s : LogRun) : Bool :=
  s.s_CurLogLevel.value ≤ level.value

/-- `LogInfo`, `LogDebug`, `LogWarning` or `LogError`. -/
def log (LogService : ServiceID) (s : LogRun) (level : LogLevel) : LogRun :=
  if s.passes level then s.doLog LogService else s

/-- What the manager itself logs: the warning of `RegisterService`, and of `Init` the errors of
    `RecurrsiveBuildDep` and a line of `BuildDep` for each entry of the operation list. -/
def messages (build : LogBuild) (mgr : ServiceMgr) : Teardown.Event → List LogLevel
  | .registerService service =>
    if mgr.isRegistered service then [LogLevel.LL_LOG_WARNING].filter build.keeps else []
  | .init =>
    match buildDep { mgr with m_Initialized := true } with
    | some (mgr', log) =>
      (log.map (fun _ => LogLevel.LL_LOG_ERROR) ++
        mgr'.m_ServiceOpList.map fun _ => LogLevel.LL_LOG_DEBUG).filter build.keeps
    | none => []
  | .getService _ | .shutDown | .onDestroyReturn => []

/-- The objects that an event registers are new ones. -/
def isNew (s : LogRun) : Teardown.Event → Bool
  | .registerService service => service ∉ s.buried
  | _ => true

/-- `ShutDown` returns in an event that leads to `mgr'`. -/
def returns (mgr' : Teardown) : Teardown.Event → Bool
  | .shutDown | .onDestroyReturn => mgr'.current.isNone
  | _ => false

/-- The service that `DoLog` has found is on the operation list. -/
def listed (cached : Option Service) (mgr : Teardown) : Bool :=
  cached.any fun service => service ∈ ops mgr.mgr

/-- An event of the manager, with what the manager logs. The map that `DoLog` looks into is the one
    before the event: `RegisterService` only logs when it turns a service away, and `Init` leaves that
    map alone. -/
def manager (less : ServiceID → ServiceID → Bool) (build : LogBuild) (LogService : ServiceID)
    (event : Teardown.Event) (mgr : Teardown) (s : LogRun) : Option LogRun :=
  let s := (messages build mgr.mgr event).foldl (log LogService) s
  (mgr.step less event).map fun mgr' =>
    { s with
      ms_CoreServiceMgr := some mgr'
      outlived := s.outlived || returns mgr' event && listed s.s_LogService mgr }

/-- One event. The destructor of the manager calls `ShutDown`; meanwhile the core manager is still the
    one that is being deleted. -/
def step (less : ServiceID → ServiceID → Bool) (build : LogBuild) (LogService : ServiceID)
    (before : LogRun) (a : Event) : Option LogRun :=
  let s := { before with called := [] }
  match a with
  | .sdmInit lastTime =>
    match s.ms_CoreServiceMgr with
    | none => some { s with ms_CoreServiceMgr := some (.new lastTime) }
    | some mgr =>
      -- nothing becomes of the manager before
      if s.leaving = false ∧ mgr.current = none then
        some { s with
          ms_CoreServiceMgr := some (.new lastTime)
          buried := s.buried ++ mgr.deleted }
      else none
  | .manager event =>
    match s.ms_CoreServiceMgr with
    | none => none
    | some mgr =>
      if s.isNew event ∧ (s.leaving = true → mgr.current.isSome) then
        s.manager less build LogService event mgr
      else none
  | .log level => some (s.log LogService level)
  | .setLogLevel level => some { s with s_CurLogLevel := level }
  | .sdmShutDown =>
    match s.ms_CoreServiceMgr with
    | none => some s
    | some mgr =>
      if s.leaving then none
      else { s with leaving := true }.manager less build LogService .shutDown mgr
  | .sdmShutDownReturn =>
    match s.ms_CoreServiceMgr with
    | none => none
    | some mgr =>
      if s.leaving = true ∧ mgr.current = none then
        some { s with
          ms_CoreServiceMgr := none
          buried := s.buried ++ mgr.deleted
          leaving := false }
      else none

/-- `DoLog` has not called a deleted service. -/
def Alive (s : LogRun) : Prop :=
  ∀ service ∈ s.called, service ∉ s.deleted

/-- The levels at which an event logs. -/
def logs (build : LogBuild) (s : LogRun) : Event → List LogLevel
  | .log level => [level]
  | .manager event =>
    match s.ms_CoreServiceMgr with
    | some mgr => messages build mgr.mgr event
    | none => []
  | .sdmInit _ | .setLogLevel _ | .sdmShutDown | .sdmShutDownReturn => []

/-- The service that a `DoLog` now would call: the one found earlier, or the one registered last. -/
def target (LogService : ServiceID) (mgr : Teardown) (s : LogRun) : Option Service :=
  match s.s_LogService with
  | some service => some service
  | none => lastProvider mgr.registered LogService

/-- A `DoLog` now would come in time: no `ShutDown` with the service on its list that an earlier one has
    found has returned, and one that runs now is not past the service. -/
structure Early (LogService : ServiceID) (s : LogRun) : Prop where
  before : s.outlived = false
  during : ∀ mgr ∈ s.ms_CoreServiceMgr, ∀ service ∈ s.target LogService mgr, ¬ mgr.IsPast service

/-- If the event calls `DoLog`, that comes in time. -/
def InTime (build : LogBuild) (LogService : ServiceID) (s : LogRun) (a : Event) : Prop :=
  (∃ level ∈ s.logs build a, s.passes level = true) → s.Early LogService

instance (LogService : ServiceID) (s : LogRun) : Decidable (s.Early LogService) :=
  decidable_of_iff (s.outlived = false ∧ ∀ mgr ∈ s.ms_CoreServiceMgr,
      ∀ service ∈ s.target LogService mgr, ¬ mgr.IsPast service)
    ⟨fun h => ⟨h.1, h.2⟩, fun h => ⟨h.before, h.during⟩⟩

instance (build : LogBuild) (LogService : ServiceID) (s : LogRun) (a : Event) :
    Decidable (s.InTime build LogService a) :=
  inferInstanceAs (Decidable ((∃ level ∈ s.logs build a, s.passes level = true) → _))

/-- The manager is in order, and what is registered with it is not among the buried services. -/
def Kept (s : LogRun) : Prop :=
  ∀ mgr, s.ms_CoreServiceMgr = some mgr → mgr.Kept ∧ ∀ service ∈ mgr.registered, service ∉ s.buried

/-- The service that `DoLog` has found has been deleted exactly if the `ShutDown` of its manager has
    returned or is past it. -/
structure Followed (s : LogRun) : Prop where
  kept : s.Kept
  fresh : s.s_LogService = none → s.outlived = false
  fate : ∀ service, s.s_LogService = some service →
    (service ∈ s.deleted ↔ s.outlived = true ∨ ∃ mgr ∈ s.ms_CoreServiceMgr, mgr.IsPast service)

/-! ## What an event logs -/

section Logging
variable {LogService : ServiceID} {s : LogRun}

/-- The service that `DoLog` calls. -/
def next (LogService : ServiceID) (s : LogRun) : Option Service :=
  s.s_LogService <|> s.findLogService LogService

/-- `DoLog` keeps the service and calls it. -/
lemma doLog_eq : s.doLog LogService = { s with
    s_LogService := s.next LogService
    called := s.called ++ (s.next LogService).toList } := by
  unfold doLog next
  cases cached : s.s_LogService with
  | some service => rfl
  | none => rfl

/-- The second `DoLog` calls the service of the first one. -/
lemma next_doLog : (s.doLog LogService).next LogService = s.next LogService := by
  rw [doLog_eq]
  show (s.next LogService <|> s.findLogService LogService) = s.next LogService
  unfold next
  cases s.s_LogService with
  | some service => rfl
  | none => cases s.findLogService LogService <;> rfl

/-- Log calls change nothing but the cached service, and call that one if one of them passes. -/
lemma foldl_log (levels : List LogLevel) (s : LogRun) : ∃ cached called, levels.foldl (log LogService) s =
      { s with s_LogService := cached, called := called } ∧
    (cached = s.s_LogService ∨ cached = s.next LogService) ∧
    ∀ service, service ∈ called ↔ service ∈ s.called ∨
      (∃ level ∈ levels, s.passes level = true) ∧ s.next LogService = some service := by
  induction levels generalizing s with
  | nil => exact ⟨s.s_LogService, s.called, rfl, .inl rfl, by simp⟩
  | cons level levels ih =>
    rw [List.foldl_cons]
    by_cases pass : s.passes level = true
    · have first : s.log LogService level = s.doLog LogService := if_pos pass
      obtain ⟨cached, called, e, which, mem⟩ := ih (s.doLog LogService)
      rw [next_doLog] at which mem
      rw [doLog_eq] at e which mem
      refine ⟨cached, called, ?_, .inr ?_, fun service => ?_⟩
      · rw [first, doLog_eq, e]
      · rcases which with rfl | rfl <;> rfl
      · rw [mem]
        simp only [List.mem_append, Option.mem_toList, List.mem_cons]
        constructor
        · rintro ((old | new) | ⟨-, new⟩)
          · exact .inl old
          · exact .inr ⟨⟨level, .inl rfl, pass⟩, new⟩
          · exact .inr ⟨⟨level, .inl rfl, pass⟩, new⟩
        · rintro (old | ⟨-, new⟩)
          · exact .inl (.inl old)
          · exact .inl (.inr new)
    · have first : s.log LogService level = s := if_neg pass
      obtain ⟨cached, called, e, which, mem⟩ := ih s
      refine ⟨cached, called, ?_, which, fun service => ?_⟩
      · rw [first, e]
      · rw [mem]
        simp [pass]

end Logging

/-- What an event can do. -/
inductive LogMove (less : ServiceID → ServiceID → Bool) (build : LogBuild) (LogService : ServiceID)
    (s : LogRun) : Event → LogRun → Prop where
  | sdmInit {lastTime} :
    (∀ mgr ∈ s.ms_CoreServiceMgr, mgr.current = none) →
    LogMove less build LogService s (.sdmInit lastTime) { s with
      ms_CoreServiceMgr := some (.new lastTime), buried := s.deleted, called := [] }
  | manager {event mgr mgr' leaving cached called a} :
    s.ms_CoreServiceMgr = some mgr →
    (∀ service, event = .registerService service → service ∉ s.buried) →
    Exec (Teardown.step less) mgr event mgr' →
    s.logs build a = messages build mgr.mgr event →
    (cached = s.s_LogService ∨ cached = s.next LogService) →
    (∀ service, service ∈ called ↔
      (∃ level ∈ s.logs build a, s.passes level = true) ∧ s.next LogService = some service) →
    LogMove less build LogService s a { s with
      ms_CoreServiceMgr := some mgr'
      s_LogService := cached
      leaving := leaving
      called := called
      outlived := s.outlived || returns mgr' event && listed cached mgr }
  | log {level cached called} :
    (cached = s.s_LogService ∨ cached = s.next LogService) →
    (∀ service, service ∈ called ↔ s.passes level = true ∧ s.next LogService = some service) →
    LogMove less build LogService s (.log level) { s with s_LogService := cached, called := called }
  | setLogLevel {level} :
    LogMove less build LogService s (.setLogLevel level) { s with
      s_CurLogLevel := level, called := [] }
  | nothing :
    LogMove less build LogService s .sdmShutDown { s with called := [] }
  | sdmShutDownReturn :
    (∀ mgr ∈ s.ms_CoreServiceMgr, mgr.current = none) →
    LogMove less build LogService s .sdmShutDownReturn { s with
      ms_CoreServiceMgr := none, buried := s.deleted, leaving := false, called := [] }

variable {less : ServiceID → ServiceID → Bool} {build : LogBuild} {LogService : ServiceID}
  {s s' : LogRun} {a : Event} {mgr mgr' : Teardown} {event : Teardown.Event} {service : Service}

/-- An event of the manager is such a move. -/
lemma manager_move {leaving : Bool} (some : s.ms_CoreServiceMgr = some mgr)
    (fresh : ∀ service, event = .registerService service → service ∉ s.buried)
    (logs : s.logs build a = messages build mgr.mgr event)
    (st : { s with called := [], leaving := leaving }.manager less build LogService event mgr =
      Option.some s') : LogMove less build LogService s a s' := by
  obtain ⟨mgr', e, rfl⟩ := Option.map_eq_some_iff.mp st
  obtain ⟨cached, called, all, which, mem⟩ := foldl_log (messages build mgr.mgr event)
    { s with called := [], leaving := leaving }
  rw [all]
  refine .manager some fresh e logs which fun service => ?_
  rw [mem, logs, or_iff_right List.not_mem_nil]
  rfl

/-- Every step is one of these moves. -/
lemma step_move (st : Exec (step less build LogService) s a s') :
    LogMove less build LogService s a s' := by
  unfold Exec step at st
  cases a with
  | sdmInit lastTime =>
    simp only at st
    split at st
    next none =>
      cases st
      have buried : s.deleted = s.buried := by rw [deleted, none]
      rw [← buried]
      exact .sdmInit (by rw [none]; exact nofun)
    next mgr some =>
      split at st
      next guard =>
        cases st
        have buried : s.deleted = s.buried ++ mgr.deleted := by rw [deleted, some]
        rw [← buried]
        refine .sdmInit fun mgr' same => ?_
        cases some.symm.trans same
        exact guard.2
      next => cases st
  | manager event =>
    simp only at st
    split at st
    next => cases st
    next mgr some =>
      split at st
      next guard =>
        refine manager_move some (fun service same => ?_) ?_ st
        · subst same
          simpa [isNew] using guard.1
        · rw [logs, some]
      next => cases st
  | log level =>
    cases st
    obtain ⟨cached, called, all, which, mem⟩ := foldl_log [level] { s with called := [] }
    rw [List.foldl_cons, List.foldl_nil] at all
    rw [all]
    refine .log which fun service => ?_
    rw [mem, or_iff_right List.not_mem_nil]
    simp only [List.mem_singleton, exists_eq_left]
    rfl
  | setLogLevel level =>
    cases st
    exact .setLogLevel
  | sdmShutDown =>
    simp only at st
    split at st
    next =>
      cases st
      exact .nothing
    next mgr some =>
      split at st
      next => cases st
      next =>
        have fresh : ∀ service, Teardown.Event.shutDown = .registerService service → service ∉ s.buried := nofun
        exact manager_move some fresh rfl st
  | sdmShutDownReturn =>
    simp only at st
    split at st
    next => cases st
    next mgr some =>
      split at st
      next guard =>
        cases st
        have buried : s.deleted = s.buried ++ mgr.deleted := by rw [deleted, some]
        rw [← buried]
        refine .sdmShutDownReturn fun mgr' same => ?_
        cases some.symm.trans same
        exact guard.2
      next => cases st

/-! ## The fate of the services -/

/-- A `ShutDown` that has not begun is past nothing. -/
lemma not_isPast_of_current (none : mgr.current = none) : ¬ mgr.IsPast service := by
  rintro ⟨current, mem, -⟩
  rw [none] at mem
  cases mem

/-- A `ShutDown` that has ended is past nothing. -/
lemma not_isPast_of_ended : ¬ (Teardown.shutDownLoop mgr []).IsPast service :=
  not_isPast_of_current rfl

/-- A manager that is up destroys nothing. -/
lemma current_of_up (up : mgr.phase = .up) : mgr.current = none := by
  rw [Teardown.current, up]

/-- What is on the operation list is registered. -/
lemma mem_registered_of_listed (h : mgr.Kept) (mem : service ∈ ops mgr.mgr) :
    service ∈ mgr.registered := by
  cases initialized : mgr.mgr.m_Initialized with
  | true => exact (h.known.listed initialized).mem_iff.mp mem
  | false =>
    rw [h.known.unlisted initialized] at mem
    cases mem

/-- Of the registered services, `ShutDown` has deleted those that it is past. -/
lemma deleted_iff_isPast (h : mgr.Kept) (reg : service ∈ mgr.registered) :
    service ∈ mgr.deleted ↔ mgr.IsPast service := by
  unfold Teardown.IsPast Teardown.current
  cases phase : mgr.phase with
  | up => simpa using h.not_deleted phase reg
  | destroying current rest => simpa using h.deleted_iff phase reg

/-- What a `ShutDown` is past has been deleted. -/
lemma deleted_of_isPast (h : mgr.Kept) (past : mgr.IsPast service) : service ∈ mgr.deleted := by
  have reg : service ∈ mgr.registered := by
    obtain ⟨current, -, before⟩ := past
    exact mem_registered_of_listed h before.mem_right
  exact (deleted_iff_isPast h reg).mpr past

/-- When the last `OnDestroy` returns, everything on the operation list is deleted. -/
lemma deleted_of_last {current : Service} (h : mgr.Kept) (last : mgr.phase = .destroying current []) :
    service ∈ mgr.deleted ++ [current] ↔ service ∈ mgr.deleted ∨ service ∈ ops mgr.mgr := by
  have passed := h.passed
  unfold Teardown.Passed at passed
  rw [last] at passed
  obtain ⟨old, done, deleted, list, -⟩ := passed
  rw [list, deleted]
  simp only [List.mem_append, List.mem_cons, List.mem_reverse, List.not_mem_nil, List.reverse_nil,
    false_or, or_false]
  grind

/-- What an event of the manager deletes: what `ShutDown` is past then, and at its return everything on
    the operation list. -/
lemma deleted_step (h : mgr.Kept) (st : Exec (Teardown.step less) mgr event mgr') :
    service ∈ mgr'.deleted ↔ service ∈ mgr.deleted ∨
      (returns mgr' event = true ∧ service ∈ ops mgr.mgr) ∨ mgr'.IsPast service := by
  have kept := Teardown.kept_step h st
  have move := Teardown.step_move st
  have before : mgr'.IsPast service → service ∈ mgr'.deleted := deleted_of_isPast kept
  cases move with
  | registerService | init | getService =>
    simpa [returns] using before
  | shutDown up =>
    cases list : (ops mgr.mgr).reverse with
    | nil =>
      have empty : ops mgr.mgr = [] := List.reverse_eq_nil_iff.mp list
      simp only [empty, not_isPast_of_ended, List.not_mem_nil, and_false, or_false]
      rfl
    | cons first rest =>
      rw [list] at before
      simpa [returns, Teardown.shutDownLoop, Teardown.current] using before
  | @onDestroyReturn current rest phase =>
    cases rest with
    | nil =>
      have ended : returns (Teardown.shutDownLoop { mgr with
          deleted := mgr.deleted ++ [current], answer := none } []) .onDestroyReturn = true := rfl
      simp only [ended, not_isPast_of_ended, true_and, or_false]
      exact deleted_of_last h phase
    | cons next rest =>
      have last : current ∈ mgr.registered := by
        refine mem_registered_of_listed h ?_
        have passed := h.passed
        unfold Teardown.Passed at passed
        rw [phase] at passed
        obtain ⟨old, done, -, list, -⟩ := passed
        simp [list]
      have now := deleted_iff_isPast kept last
      have goesOn : returns (Teardown.shutDownLoop { mgr with
          deleted := mgr.deleted ++ [current], answer := none } (next :: rest))
            .onDestroyReturn = false := rfl
      simp only [goesOn, Bool.false_eq_true, false_and, false_or]
      constructor
      · intro mem
        rcases List.mem_append.mp mem with old | new
        · exact .inl old
        · cases List.mem_singleton.mp new
          exact .inr (now.mp mem)
      · rintro (old | past)
        · exact List.mem_append_left _ old
        · exact before past

/-- Where `ShutDown` is past a service, that stays so until it returns. -/
lemma isPast_step (h : mgr.Kept) (st : Exec (Teardown.step less) mgr event mgr')
    (past : mgr.IsPast service) :
    (returns mgr' event = true ∧ service ∈ ops mgr.mgr) ∨ mgr'.IsPast service := by
  have kept := Teardown.kept_step h st
  have move := Teardown.step_move st
  have up : mgr.phase = .up → False := fun up => not_isPast_of_current (current_of_up up) past
  cases move with
  | registerService phase | init phase | shutDown phase => exact (up phase).elim
  | getService => exact .inr past
  | @onDestroyReturn current rest phase =>
    have gone := deleted_of_isPast h past
    obtain ⟨at_, -, before⟩ := past
    cases rest with
    | nil => exact .inl ⟨rfl, before.mem_right⟩
    | cons next rest =>
      have reg := mem_registered_of_listed h before.mem_right
      exact .inr ((deleted_iff_isPast kept reg).mp (List.mem_append_left _ gone))

/-- An event in which the manager logs deletes nothing. -/
lemma deleted_of_message {level : LogLevel} (mem : level ∈ messages build mgr.mgr event)
    (st : Exec (Teardown.step less) mgr event mgr') : mgr'.deleted = mgr.deleted := by
  have move := Teardown.step_move st
  cases move with
  | registerService | init => rfl
  | getService | shutDown | onDestroyReturn => cases mem

/-- What was deleted was so by an earlier manager or by this one. -/
lemma deleted_of_core (core : s.ms_CoreServiceMgr = some mgr) :
    service ∈ s.deleted ↔ service ∈ s.buried ∨ service ∈ mgr.deleted := by
  rw [deleted, core]
  exact List.mem_append

/-- A service that is registered has been deleted exactly if the `ShutDown` that runs is past it. -/
lemma Kept.deleted_iff (h : s.Kept) (core : s.ms_CoreServiceMgr = some mgr)
    (reg : service ∈ mgr.registered) : service ∈ s.deleted ↔ mgr.IsPast service := by
  obtain ⟨kept, apart⟩ := h mgr core
  rw [deleted_of_core core, or_iff_right (apart service reg)]
  exact deleted_iff_isPast kept reg

/-- What `DoLog` finds, the manager has registered. -/
lemma Kept.registered_of_found (h : s.Kept) (core : s.ms_CoreServiceMgr = some mgr)
    (found : s.findLogService LogService = some service) : service ∈ mgr.registered := by
  rw [findLogService, core] at found
  exact (h mgr core).1.known.mem_of_getService found

/-- A log call finds the service whose fate the counters of the run follow. -/
lemma Followed.next_iff (h : s.Followed) (found : s.next LogService = some service) :
    service ∈ s.deleted ↔ s.outlived = true ∨ ∃ mgr ∈ s.ms_CoreServiceMgr, mgr.IsPast service := by
  cases cached : s.s_LogService with
  | some earlier =>
    rw [next, cached] at found
    cases found
    exact h.fate _ cached
  | none =>
    rw [next, cached] at found
    replace found : s.findLogService LogService = some service := found
    cases core : s.ms_CoreServiceMgr with
    | none =>
      rw [findLogService, core] at found
      cases found
    | some mgr =>
      rw [h.kept.deleted_iff core (h.kept.registered_of_found core found), h.fresh cached]
      simp

/-- A log call that comes in time, and no other, calls a service that has not been deleted. -/
lemma Followed.early_iff (LogService : ServiceID) (h : s.Followed) :
    (∀ service, s.next LogService = some service → service ∉ s.deleted) ↔ s.Early LogService := by
  have target : ∀ mgr ∈ s.ms_CoreServiceMgr, s.target LogService mgr = s.next LogService := by
    intro mgr core
    unfold LogRun.target next
    cases cached : s.s_LogService with
    | some service => rfl
    | none =>
      rw [findLogService, core]
      exact ((h.kept mgr core).1.known.fast LogService).symm
  constructor
  · intro alive
    refine ⟨?_, fun mgr core service found past => ?_⟩
    · cases cached : s.s_LogService with
      | none => exact h.fresh cached
      | some service =>
        have found : s.next LogService = some service := by
          rw [next, cached]
          rfl
        have kept := mt (h.next_iff found).mpr (alive service found)
        simpa using fun late => kept (.inl late)
    · have found : s.next LogService = some service := (target mgr core).symm.trans found
      exact alive service found ((h.next_iff found).mpr (.inr ⟨mgr, core, past⟩))
  · intro early service found gone
    rcases (h.next_iff found).mp gone with late | ⟨mgr, core, past⟩
    · rw [early.before] at late
      cases late
    · exact early.during mgr core service ((target mgr core).trans found) past

/-! ## Runs -/

/-- A step keeps the managers in order. -/
lemma kept_step (h : s.Kept) (st : Exec (step less build LogService) s a s') : s'.Kept := by
  have move := step_move st
  cases move with
  | @sdmInit lastTime =>
    intro mgr same
    cases same
    exact ⟨Teardown.kept_new lastTime, nofun⟩
  | manager some fresh moved =>
    obtain ⟨kept, apart⟩ := h _ some
    intro mgr same
    cases same
    refine ⟨Teardown.kept_step kept moved, fun service mem => ?_⟩
    rcases Teardown.registered_step moved mem with mem | event
    · exact apart service mem
    · exact fresh service event
  | log | setLogLevel | nothing => exact h
  | sdmShutDownReturn => exact nofun

/-- A log call keeps the service found earlier, or finds one now. -/
lemma Followed.cached {cached : Option Service} (h : s.Followed)
    (which : cached = s.s_LogService ∨ cached = s.next LogService) :
    (cached = none → s.outlived = false) ∧ ∀ service, cached = some service →
      (service ∈ s.deleted ↔ s.outlived = true ∨ ∃ mgr ∈ s.ms_CoreServiceMgr, mgr.IsPast service) := by
  rcases which with rfl | rfl
  · exact ⟨h.fresh, h.fate⟩
  · refine ⟨fun none => h.fresh ?_, fun service => h.next_iff⟩
    rw [next, Option.orElse_eq_orElse, Option.orElse_eq_or, Option.or_eq_none_iff] at none
    exact none.1

/-- While no `ShutDown` runs, the service found earlier has been deleted if its `ShutDown` has returned. -/
lemma Followed.idle (h : s.Followed) (idle : ∀ mgr ∈ s.ms_CoreServiceMgr, mgr.current = none)
    (cached : s.s_LogService = some service) : service ∈ s.deleted ↔ s.outlived = true := by
  rw [h.fate service cached]
  refine or_iff_left ?_
  rintro ⟨mgr, core, past⟩
  exact not_isPast_of_current (idle mgr core) past

/-- A step keeps track of the service that was found. -/
lemma followed_step (h : s.Followed) (st : Exec (step less build LogService) s a s') :
    s'.Followed := by
  have kept := kept_step h.kept st
  have move := step_move st
  cases move with
  | @sdmInit lastTime idle =>
    refine ⟨kept, h.fresh, fun service cached => ?_⟩
    have fate := h.idle idle cached
    have none : ¬ (Teardown.new lastTime).IsPast service := not_isPast_of_current rfl
    rw [deleted_of_core rfl, fate]
    show _ ∨ service ∈ [] ↔ _
    simp [none]
  | @manager event mgr mgr' leaving cached called a core fresh moved _ which =>
    obtain ⟨none, fate⟩ := h.cached which
    have order := (h.kept mgr core).1
    refine ⟨kept, ?_, fun service found => ?_⟩
    · intro same
      replace same : cached = Option.none := same
      show (s.outlived || returns mgr' event && listed cached mgr) = false
      rw [none same, same]
      simp [listed]
    · replace found : cached = some service := found
      have old : service ∈ s.deleted ↔ s.outlived = true ∨ mgr.IsPast service := by
        rw [fate service found, core]
        simp
      rw [deleted_of_core core] at old
      rw [deleted_of_core rfl, deleted_step order moved, ← or_assoc, old]
      have goesOn : mgr.IsPast service →
          (returns mgr' event = true ∧ service ∈ ops mgr.mgr) ∨ mgr'.IsPast service :=
        isPast_step order moved
      simp only [found, listed, Option.any_some, Bool.or_eq_true, Bool.and_eq_true,
        decide_eq_true_eq, Option.mem_def, Option.some.injEq, exists_eq_left']
      tauto
  | log which =>
    obtain ⟨fresh, fate⟩ := h.cached which
    exact ⟨kept, fresh, fate⟩
  | setLogLevel | nothing => exact ⟨kept, h.fresh, h.fate⟩
  | sdmShutDownReturn idle =>
    refine ⟨kept, h.fresh, fun service cached => ?_⟩
    have fate := h.idle idle cached
    show service ∈ s.deleted ↔ s.outlived = true ∨ ∃ mgr ∈ none, _
    rw [fate]
    simp

/-- An event calls the service that `DoLog` finds, if one of its log calls passes the test of the
    level. -/
lemma called_step (st : Exec (step less build LogService) s a s') : service ∈ s'.called ↔
    (∃ level ∈ s.logs build a, s.passes level = true) ∧ s.next LogService = some service := by
  have move := step_move st
  cases move with
  | manager _ _ _ _ _ mem => exact mem service
  | log _ mem => simpa [logs] using mem service
  | sdmInit | setLogLevel | nothing | sdmShutDownReturn => simp [logs]

/-- An event that logs deletes nothing. -/
lemma deleted_of_log {level : LogLevel} (mem : level ∈ s.logs build a)
    (st : Exec (step less build LogService) s a s') : service ∈ s'.deleted ↔ service ∈ s.deleted := by
  have move := step_move st
  cases move with
  | manager core _ moved same =>
    rw [same] at mem
    rw [deleted_of_core core, deleted_of_core rfl, deleted_of_message mem moved]
  | log => exact .rfl
  | sdmInit | setLogLevel | nothing | sdmShutDownReturn => cases mem

/-- What an event calls has not been deleted exactly if its log calls come in time. -/
lemma alive_iff_step (h : s.Followed) (st : Exec (step less build LogService) s a s') :
    s'.Alive ↔ s.InTime build LogService a := by
  unfold Alive InTime
  simp only [← h.early_iff LogService, called_step st, and_imp]
  constructor
  · rintro alive ⟨level, mem, pass⟩ service found
    rw [← deleted_of_log mem st]
    exact alive service ⟨level, mem, pass⟩ found
  · rintro inTime service ⟨level, mem, pass⟩ found
    rw [deleted_of_log mem st]
    exact inTime ⟨level, mem, pass⟩ service found

/-- `DoLog` never calls a deleted service if and only if each log call, also those that the manager
    makes itself, comes in time. -/
theorem alive_along_iff (less : ServiceID → ServiceID → Bool) (build : LogBuild)
    (LogService : ServiceID) {l : List Event} (run : Run (Exec (step less build LogService)) init l s) :
    Along (Exec (step less build LogService)) Alive init l ↔
      Meets (Exec (step less build LogService)) (InTime build LogService) init l := by
  have followed : init.Followed := ⟨nofun, fun _ => rfl, nofun⟩
  apply along_iff_meets (Exec.deterministic _) run nofun followed
  · exact followed_step
  · exact fun h _ inTime st => (alive_iff_step h st).mpr inTime
  · exact fun h _ late st => mt (alive_iff_step h st).mp late

/-- The log service is destroyed last; a log call after that would be too late. -/
theorem alive_along_iff_last :
    let log : Service := ⟨1, .root 1 "LogService", []⟩
    let net : Service := ⟨2, .root 2 "Net", []⟩
    let debug : LogBuild := ⟨false, false⟩
    let events : List Event := [.sdmInit 0, .log .LL_LOG_INFO, .manager (.registerService log),
      .manager (.registerService net), .manager (.registerService net), .manager .init,
      .log .LL_LOG_ERROR, .manager .shutDown, .log .LL_LOG_ERROR, .manager .onDestroyReturn,
      .log .LL_LOG_ERROR, .manager .onDestroyReturn, .sdmShutDown, .sdmShutDownReturn]
    ∃ s, Run (Exec (step RTTI.less debug (.root 1 "LogService"))) init events s ∧
      s.deleted = [net, log] ∧
      Along (Exec (step RTTI.less debug (.root 1 "LogService"))) Alive init events := by
  intro log net debug events
  have state : (exec (step RTTI.less debug (.root 1 "LogService")) init events).map LogRun.deleted =
      some [net, log] := by decide
  obtain ⟨s, run, deleted⟩ := run_of_map state
  exact ⟨s, run, deleted, (alive_along_iff RTTI.less debug _ run).mpr (meets_of_check (by decide))⟩

/-- The log service comes behind `Net` on the list, so it is gone when the `OnDestroy` of `Net` logs;
    and after a restart the pointer is still the one to the first log service. -/
theorem log_after_delete :
    let log : Service := ⟨2, .root 2 "LogService", []⟩
    let net : Service := ⟨1, .root 1 "Net", []⟩
    let release : LogBuild := ⟨true, true⟩
    (∃ s, Run (Exec (step RTTI.less release (.root 2 "LogService"))) init [.sdmInit 0,
        .manager (.registerService log), .manager (.registerService net), .manager .init,
        .log .LL_LOG_ERROR, .manager .shutDown, .manager .onDestroyReturn, .log .LL_LOG_ERROR] s ∧
      s.called = [log] ∧ s.deleted = [log] ∧ ¬ s.Alive) ∧
    ∃ s, Run (Exec (step RTTI.less release (.root 2 "LogService"))) init [.sdmInit 0,
        .manager (.registerService log), .manager .init, .log .LL_LOG_ERROR, .manager .shutDown,
        .manager .onDestroyReturn, .sdmShutDown, .sdmShutDownReturn, .sdmInit 0,
        .manager (.registerService { log with address := 3 }), .manager .init,
        .log .LL_LOG_ERROR] s ∧
      s.called = [log] ∧ s.deleted = [log] ∧ ¬ s.Alive := by
  intro log net release
  have dead : ∀ s : LogRun, s.called = [log] → s.deleted = [log] → ¬ s.Alive := by
    intro s called deleted alive
    have mem : log ∈ [log] := List.mem_singleton.mpr rfl
    exact alive log (called ▸ mem) (deleted ▸ mem)
  constructor
  · have state : (exec (step RTTI.less release (.root 2 "LogService")) init [.sdmInit 0,
        .manager (.registerService log), .manager (.registerService net), .manager .init,
        .log .LL_LOG_ERROR, .manager .shutDown, .manager .onDestroyReturn, .log .LL_LOG_ERROR]).map
          (fun s => (s.called, s.deleted)) = some ([log], [log]) := by decide
    obtain ⟨s, run, fields⟩ := run_of_map state
    simp only [Prod.mk.injEq] at fields
    obtain ⟨called, deleted⟩ := fields
    exact ⟨s, run, called, deleted, dead s called deleted⟩
  · have state : (exec (step RTTI.less release (.root 2 "LogService")) init [.sdmInit 0,
        .manager (.registerService log), .manager .init, .log .LL_LOG_ERROR, .manager .shutDown,
        .manager .onDestroyReturn, .sdmShutDown, .sdmShutDownReturn, .sdmInit 0,
        .manager (.registerService { log with address := 3 }), .manager .init,
        .log .LL_LOG_ERROR]).map
          (fun s => (s.called, s.deleted)) = some ([log], [log]) := by decide
    obtain ⟨s, run, fields⟩ := run_of_map state
    simp only [Prod.mk.injEq] at fields
    obtain ⟨called, deleted⟩ := fields
    exact ⟨s, run, called, deleted, dead s called deleted⟩

end LogRun
end XLN
