import XLN.Lib.Transition
import XLN.Utility.UniqueID
import XLN.Foundation.Task.Basic
import Mathlib.Data.List.Nodup
import Mathlib.Data.List.Perm.Subperm
import Mathlib.Logic.Function.Basic

/-!
# The event dispatcher

`Core/Foundation/Task/EventDispatcher.cpp`: handlers with a filter list are kept in a hash multimap from
class IDs to handlers, the others in one list for each category. A handler is known by its pointer, a
value of a type `η`; what its virtual functions return does not change, so they are functions of it.
`Dispatch` runs subscriptions next to the set of subscribed handlers, which the two tables mirror.
-/

namespace XLN
open Transition

/-- What `GetCategory` and `GetEventFilterClassID` return for every handler. -/
structure EventHandlerClass (η : Type) where
  getCategory : η → Category
  getEventFilterClassID : η → Option (List UniqueID)

/-- Handlers whose filter lists name no class twice. -/
structure EventHandlers (η : Type) extends EventHandlerClass η where
  filter_nodup : ∀ h l, getEventFilterClassID h = some l → l.Nodup

instance {η : Type} : Coe (EventHandlers η) (EventHandlerClass η) :=
  ⟨EventHandlers.toEventHandlerClass⟩

/-- The members of a `Task` that the dispatcher reads, with the class ID of its message; `none` is a null
    pointer. -/
structure EventTask where
  m_Category : Category
  m_Message : Option UniqueID

/-- A call on a handler. -/
inductive HandlerCall (η : Type) where
  | handle (handler : η)
  | onFinish (handler : η)

/-- `EventDispatcher`. The multimap is the list of its entries in iteration order, of which only the order
    of entries with equal keys can be seen. -/
structure EventDispatcher (η : Type) where
  m_EventHandlers : List (UniqueID × η)
  m_EventSubscribers : Category → List η

namespace EventDispatcher

variable {η : Type} (handlers : EventHandlerClass η)

/-- The constructor. -/
def new : EventDispatcher η :=
  { m_EventHandlers := [], m_EventSubscribers := fun _ => [] }

/-- `boost::unordered_multimap::insert`; the container chooses the place. -/
def insert (place : Nat) (entry : UniqueID × η) (table : List (UniqueID × η)) :
    List (UniqueID × η) :=
  table.take place ++ entry :: table.drop place

/-- `boost::unordered_multimap::equal_range`, the handlers of a key. -/
def equalRange (table : List (UniqueID × η)) (id : UniqueID) : List η :=
  (table.filter fun entry => entry.1 = id).map Prod.snd

/-- `EventDispatcher::SubscribeEvent`. -/
def subscribeEvent (place : UniqueID → Nat) (handler : η) (d : EventDispatcher η) :
    EventDispatcher η :=
  match handlers.getEventFilterClassID handler with
  | some filterList =>
    { d with
      m_EventHandlers :=
        filterList.foldl (fun table id => insert (place id) (id, handler) table) d.m_EventHandlers }
  | none =>
    let targetList := d.m_EventSubscribers (handlers.getCategory handler)
    { d with
      m_EventSubscribers := Function.update d.m_EventSubscribers (handlers.getCategory handler)
        (targetList ++ [handler]) }

/-- `EventDispatcher::DeSubscribeEvent`. -/
def deSubscribeEvent [DecidableEq η] (handler : η) (d : EventDispatcher η) : EventDispatcher η :=
  match handlers.getEventFilterClassID handler with
  | some filterList =>
    { d with
      m_EventHandlers :=
        filterList.foldl (fun table id => table.erase (id, handler)) d.m_EventHandlers }
  | none =>
    let targetList := d.m_EventSubscribers (handlers.getCategory handler)
    { d with
      m_EventSubscribers := Function.update d.m_EventSubscribers (handlers.getCategory handler)
        (targetList.filter fun h => h ≠ handler) }

/-- The two loops that `Handle` and `OnFinish` run, with the call they make on a handler. Gives `none` for
    a null message. -/
def dispatch (call : η → HandlerCall η) (task : EventTask) (d : EventDispatcher η) :
    Option (List (HandlerCall η)) :=
  task.m_Message.map fun id =>
    (equalRange d.m_EventHandlers id).map call ++
      if task.m_Category ≠ .CATEGORY_ALL then
        (d.m_EventSubscribers task.m_Category).map call
      else
        [Category.CATEGORY_SYSTEM, .CATEGORY_USER, .CATEGORY_ALL].flatMap fun i =>
          (d.m_EventSubscribers i).map call

/-- `EventDispatcher::Handle`. -/
def handle (task : EventTask) (d : EventDispatcher η) : Option (List (HandlerCall η)) :=
  dispatch .handle task d

/-- `EventDispatcher::OnFinish`. -/
def onFinish (task : EventTask) (d : EventDispatcher η) : Option (List (HandlerCall η)) :=
  dispatch .onFinish task d

end EventDispatcher

/-! ## Subscriptions -/

/-- A dispatcher and the handlers that are subscribed to it. -/
structure Dispatch (η : Type) where
  dispatcher : EventDispatcher η
  subscribed : List η

namespace Dispatch

variable {η : Type} (handlers : EventHandlers η)

/-- A call on the dispatcher. -/
inductive Call (η : Type) where
  | subscribeEvent (place : UniqueID → Nat) (handler : η)
  | deSubscribeEvent (handler : η)

def new : Dispatch η :=
  { dispatcher := .new, subscribed := [] }

/-- A handler is subscribed only while it is not and de-subscribed only while it is. -/
def step [DecidableEq η] (s : Dispatch η) : Call η → Option (Dispatch η)
  | .subscribeEvent place handler =>
    if handler ∈ s.subscribed then none
    else some
      { dispatcher := s.dispatcher.subscribeEvent handlers place handler
        subscribed := handler :: s.subscribed }
  | .deSubscribeEvent handler =>
    if handler ∈ s.subscribed then some
      { dispatcher := s.dispatcher.deSubscribeEvent handlers handler
        subscribed := s.subscribed.erase handler }
    else none

/-- The handler has a filter with the class in it. -/
def Filters (handler : η) (id : UniqueID) : Prop :=
  ∃ l, handlers.getEventFilterClassID handler = some l ∧ id ∈ l

/-- The handler has no filter and the category. -/
def Listens (handler : η) (category : Category) : Prop :=
  handlers.getEventFilterClassID handler = none ∧ handlers.getCategory handler = category

/-- The handler is meant by a task of this category with a message of this class. -/
def Wants (handler : η) (category : Category) (id : UniqueID) : Prop :=
  Filters handlers handler id ∨
    handlers.getEventFilterClassID handler = none ∧
      (category = .CATEGORY_ALL ∨ category = handlers.getCategory handler)

/-- The two tables mirror the set of subscribed handlers. -/
structure Mirrors (s : Dispatch η) : Prop where
  subscribed_nodup : s.subscribed.Nodup
  table_nodup : s.dispatcher.m_EventHandlers.Nodup
  mem_table : ∀ id h, (id, h) ∈ s.dispatcher.m_EventHandlers ↔
    h ∈ s.subscribed ∧ Filters handlers h id
  list_nodup : ∀ c, (s.dispatcher.m_EventSubscribers c).Nodup
  mem_list : ∀ c h, h ∈ s.dispatcher.m_EventSubscribers c ↔
    h ∈ s.subscribed ∧ Listens handlers h c

variable {handlers} {s s' : Dispatch η} {handler : η} {a : Call η}

/-- An entry is inserted somewhere. -/
lemma insert_perm (place : Nat) (entry : UniqueID × η) (table : List (UniqueID × η)) :
    (EventDispatcher.insert place entry table).Perm (entry :: table) := by
  rw [EventDispatcher.insert]
  exact List.perm_middle.trans (by rw [List.take_append_drop])

/-- The loop of `SubscribeEvent` adds one entry for each class of the filter. -/
lemma foldl_insert_perm (place : UniqueID → Nat) (handler : η) (l : List UniqueID)
    (table : List (UniqueID × η)) :
    (l.foldl (fun table id => EventDispatcher.insert (place id) (id, handler) table) table).Perm
      (l.map (fun id => (id, handler)) ++ table) := by
  induction l generalizing table with
  | nil => exact .refl _
  | cons id l ih =>
    refine (ih _).trans ?_
    refine ((insert_perm (place id) (id, handler) table).append_left _).trans ?_
    exact List.perm_middle

/-- The loop of `DeSubscribeEvent` takes them out. -/
lemma foldl_erase_eq [DecidableEq η] (handler : η) (l : List UniqueID) (table : List (UniqueID × η)) :
    l.foldl (fun table id => table.erase (id, handler)) table =
      table.diff (l.map fun id => (id, handler)) := by
  rw [List.diff_eq_foldl, List.foldl_map]

/-- A handler is subscribed for each of its filters. -/
lemma mem_map_pair {l : List UniqueID} {id : UniqueID} {h : η} :
    (id, h) ∈ l.map (fun id => (id, handler)) ↔ h = handler ∧ id ∈ l := by
  simp only [List.mem_map, Prod.mk.injEq]
  constructor
  · rintro ⟨_, hm, rfl, rfl⟩
    exact ⟨rfl, hm⟩
  · rintro ⟨rfl, hm⟩
    exact ⟨id, hm, rfl, rfl⟩

/-- In the beginning nobody is subscribed. -/
lemma mirrors_new : Mirrors handlers (new : Dispatch η) where
  subscribed_nodup := List.nodup_nil
  table_nodup := List.nodup_nil
  mem_table := by simp [new, EventDispatcher.new]
  list_nodup := fun _ => List.nodup_nil
  mem_list := by simp [new, EventDispatcher.new]

/-- Subscribing a handler with a filter. -/
lemma Mirrors.subscribe_filter (h : Mirrors handlers s) (fresh : handler ∉ s.subscribed)
    {l : List UniqueID} (filter : handlers.getEventFilterClassID handler = some l)
    (place : UniqueID → Nat) :
    Mirrors handlers
      { dispatcher := { s.dispatcher with
          m_EventHandlers := l.foldl
            (fun table id => EventDispatcher.insert (place id) (id, handler) table)
            s.dispatcher.m_EventHandlers }
        subscribed := handler :: s.subscribed } := by
  have perm := foldl_insert_perm place handler l s.dispatcher.m_EventHandlers
  have nodup : (l.map fun id => (id, handler)).Nodup :=
    (handlers.filter_nodup handler l filter).map fun _ _ e => congrArg Prod.fst e
  constructor
  · exact List.nodup_cons.mpr ⟨fresh, h.subscribed_nodup⟩
  · rw [perm.nodup_iff, List.nodup_append']
    refine ⟨nodup, h.table_nodup, ?_⟩
    rintro ⟨id, x⟩ new old
    rw [mem_map_pair] at new
    rw [h.mem_table] at old
    exact fresh (new.1 ▸ old.1)
  · intro id x
    rw [perm.mem_iff, List.mem_append, mem_map_pair, h.mem_table, List.mem_cons]
    by_cases e : x = handler
    · subst e
      simp [Filters, filter, fresh]
    · simp [e]
  · exact h.list_nodup
  · intro c x
    rw [h.mem_list, List.mem_cons]
    constructor
    · exact fun ⟨hm, listens⟩ => ⟨.inr hm, listens⟩
    · rintro ⟨rfl | hm, listens⟩
      · simp [Listens, filter] at listens
      · exact ⟨hm, listens⟩

/-- Subscribing a handler without one. -/
lemma Mirrors.subscribe_category (h : Mirrors handlers s) (fresh : handler ∉ s.subscribed)
    (filter : handlers.getEventFilterClassID handler = none) :
    Mirrors handlers
      { dispatcher := { s.dispatcher with
          m_EventSubscribers := Function.update s.dispatcher.m_EventSubscribers
            (handlers.getCategory handler)
            (s.dispatcher.m_EventSubscribers (handlers.getCategory handler) ++ [handler]) }
        subscribed := handler :: s.subscribed } := by
  constructor
  · exact List.nodup_cons.mpr ⟨fresh, h.subscribed_nodup⟩
  · exact h.table_nodup
  · intro id x
    rw [h.mem_table, List.mem_cons]
    constructor
    · exact fun ⟨hm, filters⟩ => ⟨.inr hm, filters⟩
    · rintro ⟨rfl | hm, filters⟩
      · simp [Filters, filter] at filters
      · exact ⟨hm, filters⟩
  · intro c
    by_cases e : c = handlers.getCategory handler
    · subst e
      simp only [Function.update_self]
      rw [List.nodup_append']
      refine ⟨h.list_nodup _, List.nodup_singleton _, ?_⟩
      intro x hx hx'
      rw [h.mem_list] at hx
      rw [List.mem_singleton] at hx'
      exact fresh (hx' ▸ hx.1)
    · simpa only [Function.update_of_ne e] using h.list_nodup c
  · intro c x
    by_cases e : c = handlers.getCategory handler
    · subst e
      simp only [Function.update_self, List.mem_append, h.mem_list, List.mem_cons]
      by_cases ex : x = handler
      · subst ex
        simp [Listens, filter]
      · simp [ex]
    · simp only [Function.update_of_ne e, h.mem_list, List.mem_cons]
      by_cases ex : x = handler
      · subst ex
        simp [Listens, Ne.symm e]
      · simp [ex]

/-- De-subscribing a handler with a filter. -/
lemma Mirrors.deSubscribe_filter [DecidableEq η] (h : Mirrors handlers s) {l : List UniqueID}
    (filter : handlers.getEventFilterClassID handler = some l) :
    Mirrors handlers
      { dispatcher := { s.dispatcher with
          m_EventHandlers := l.foldl (fun table id => table.erase (id, handler))
            s.dispatcher.m_EventHandlers }
        subscribed := s.subscribed.erase handler } := by
  rw [foldl_erase_eq]
  constructor
  · exact h.subscribed_nodup.erase handler
  · exact h.table_nodup.diff
  · intro id x
    rw [h.table_nodup.mem_sdiff_iff, mem_map_pair, h.mem_table, h.subscribed_nodup.mem_erase_iff]
    by_cases e : x = handler
    · subst e
      simp [Filters, filter]
    · simp [e]
  · exact h.list_nodup
  · intro c x
    rw [h.mem_list, h.subscribed_nodup.mem_erase_iff]
    constructor
    · rintro ⟨hm, listens⟩
      refine ⟨⟨?_, hm⟩, listens⟩
      rintro rfl
      simp [Listens, filter] at listens
    · exact fun ⟨hm, listens⟩ => ⟨hm.2, listens⟩

/-- De-subscribing a handler without one. -/
lemma Mirrors.deSubscribe_category [DecidableEq η] (h : Mirrors handlers s)
    (filter : handlers.getEventFilterClassID handler = none) :
    Mirrors handlers
      { dispatcher := { s.dispatcher with
          m_EventSubscribers := Function.update s.dispatcher.m_EventSubscribers
            (handlers.getCategory handler)
            ((s.dispatcher.m_EventSubscribers (handlers.getCategory handler)).filter
              fun x => x ≠ handler) }
        subscribed := s.subscribed.erase handler } := by
  constructor
  · exact h.subscribed_nodup.erase handler
  · exact h.table_nodup
  · intro id x
    rw [h.mem_table, h.subscribed_nodup.mem_erase_iff]
    constructor
    · rintro ⟨hm, filters⟩
      refine ⟨⟨?_, hm⟩, filters⟩
      rintro rfl
      simp [Filters, filter] at filters
    · exact fun ⟨hm, filters⟩ => ⟨hm.2, filters⟩
  · intro c
    by_cases e : c = handlers.getCategory handler
    · subst e
      simp only [Function.update_self]
      exact (h.list_nodup _).filter _
    · simpa only [Function.update_of_ne e] using h.list_nodup c
  · intro c x
    by_cases e : c = handlers.getCategory handler
    · subst e
      simp only [Function.update_self, List.mem_filter, decide_eq_true_eq, h.mem_list,
        h.subscribed_nodup.mem_erase_iff]
      tauto
    · simp only [Function.update_of_ne e, h.mem_list, h.subscribed_nodup.mem_erase_iff]
      by_cases ex : x = handler
      · subst ex
        simp [Listens, Ne.symm e]
      · simp [ex]

/-- A call keeps the table. -/
lemma mirrors_step [DecidableEq η] (h : Mirrors handlers s) (st : Exec (step handlers) s a s') :
    Mirrors handlers s' := by
  cases a with
  | subscribeEvent place handler =>
    simp only [Exec, step, EventDispatcher.subscribeEvent, Option.ite_none_left_eq_some,
      Option.some.injEq] at st
    obtain ⟨fresh, rfl⟩ := st
    cases filter : handlers.getEventFilterClassID handler with
    | some l => exact h.subscribe_filter fresh filter place
    | none => exact h.subscribe_category fresh filter
  | deSubscribeEvent handler =>
    simp only [Exec, step, EventDispatcher.deSubscribeEvent, Option.ite_none_right_eq_some,
      Option.some.injEq] at st
    obtain ⟨-, rfl⟩ := st
    cases filter : handlers.getEventFilterClassID handler with
    | some l => exact h.deSubscribe_filter filter
    | none => exact h.deSubscribe_category filter

/-! ## The calls for a task -/

/-- The handlers that are called for a task, in the order of the calls. -/
def callees (category : Category) (id : UniqueID) (d : EventDispatcher η) : List η :=
  EventDispatcher.equalRange d.m_EventHandlers id ++
    if category ≠ .CATEGORY_ALL then d.m_EventSubscribers category
    else [Category.CATEGORY_SYSTEM, .CATEGORY_USER, .CATEGORY_ALL].flatMap d.m_EventSubscribers

/-- A message is dispatched to the handlers of its class. -/
lemma dispatch_eq (call : η → HandlerCall η) (category : Category) (id : UniqueID)
    (d : EventDispatcher η) :
    d.dispatch call ⟨category, some id⟩ = some ((callees category id d).map call) := by
  simp only [EventDispatcher.dispatch, callees, Option.map_some, List.map_append]
  split <;> simp

/-- A range of the table holds the subscribed handlers with the filter. -/
lemma Mirrors.mem_equalRange (h : Mirrors handlers s) (id : UniqueID) (x : η) :
    x ∈ EventDispatcher.equalRange s.dispatcher.m_EventHandlers id ↔
      x ∈ s.subscribed ∧ Filters handlers x id := by
  rw [← h.mem_table, EventDispatcher.equalRange, List.mem_map]
  constructor
  · rintro ⟨⟨key, y⟩, hm, rfl⟩
    rw [List.mem_filter, decide_eq_true_eq] at hm
    obtain ⟨hm, rfl⟩ := hm
    exact hm
  · intro hm
    exact ⟨(id, x), by simpa using hm, rfl⟩

/-- A range has each handler once. -/
lemma Mirrors.nodup_equalRange (h : Mirrors handlers s) (id : UniqueID) :
    (EventDispatcher.equalRange s.dispatcher.m_EventHandlers id).Nodup := by
  refine List.Nodup.map_on ?_ (h.table_nodup.filter _)
  rintro ⟨key, x⟩ hx ⟨key', y⟩ hy e
  rw [List.mem_filter, decide_eq_true_eq] at hx hy
  obtain ⟨-, rfl⟩ := hx
  obtain ⟨-, rfl⟩ := hy
  cases e
  rfl

/-- The handlers without a filter that are called for a task of a category. -/
lemma Mirrors.mem_lists (h : Mirrors handlers s) (category : Category) (x : η) :
    (x ∈ if category ≠ .CATEGORY_ALL then s.dispatcher.m_EventSubscribers category
      else [Category.CATEGORY_SYSTEM, .CATEGORY_USER, .CATEGORY_ALL].flatMap
        s.dispatcher.m_EventSubscribers) ↔
      x ∈ s.subscribed ∧ handlers.getEventFilterClassID x = none ∧
        (category = .CATEGORY_ALL ∨ category = handlers.getCategory x) := by
  split
  next one =>
    rw [h.mem_list, Listens]
    constructor
    · exact fun ⟨hm, filter, e⟩ => ⟨hm, filter, .inr e.symm⟩
    · exact fun ⟨hm, filter, e⟩ => ⟨hm, filter, (e.resolve_left one).symm⟩
  next all =>
    simp only [ne_eq, not_not] at all
    simp only [List.mem_flatMap, h.mem_list, Listens, all, true_or, and_true]
    constructor
    · exact fun ⟨_, _, hm, filter, _⟩ => ⟨hm, filter⟩
    · rintro ⟨hm, filter⟩
      refine ⟨handlers.getCategory x, ?_, hm, filter, rfl⟩
      cases handlers.getCategory x <;> simp

/-- The lists of two categories have no handler in common. -/
lemma Mirrors.disjoint_lists (h : Mirrors handlers s) {c c' : Category} (ne : c ≠ c') :
    (s.dispatcher.m_EventSubscribers c).Disjoint (s.dispatcher.m_EventSubscribers c') := by
  intro x hx hx'
  rw [h.mem_list] at hx hx'
  exact ne (hx.2.2.symm.trans hx'.2.2)

/-- A message reaches each handler once. -/
lemma Mirrors.nodup_callees (h : Mirrors handlers s) (category : Category) (id : UniqueID) :
    (callees category id s.dispatcher).Nodup := by
  rw [callees, List.nodup_append']
  refine ⟨h.nodup_equalRange id, ?_, ?_⟩
  · split
    · exact h.list_nodup _
    · rw [List.nodup_flatMap]
      refine ⟨fun c _ => h.list_nodup c, ?_⟩
      have distinct : [Category.CATEGORY_SYSTEM, .CATEGORY_USER, .CATEGORY_ALL].Nodup := by decide
      exact distinct.imp fun ne => h.disjoint_lists ne
  · intro x hx hx'
    rw [h.mem_equalRange] at hx
    rw [h.mem_lists] at hx'
    obtain ⟨-, l, filter, -⟩ := hx
    rw [filter] at hx'
    cases hx'.2.1

/-- Whatever has been subscribed and de-subscribed, `Handle` calls every subscribed handler that is meant
    by the task once and no other, and `OnFinish` calls the same ones in the same order. -/
theorem handle_calls [DecidableEq η] (handlers : EventHandlers η) {l : List (Call η)}
    {s : Dispatch η} (run : Run (Exec (step handlers)) new l s) (category : Category)
    (id : UniqueID) :
    ∃ called : List η,
      s.dispatcher.handle ⟨category, some id⟩ = some (called.map .handle) ∧
      s.dispatcher.onFinish ⟨category, some id⟩ = some (called.map .onFinish) ∧
      called.Nodup ∧
      ∀ x, x ∈ called ↔ x ∈ s.subscribed ∧ Wants handlers x category id := by
  have mirrors : Mirrors handlers s := run.invariant mirrors_new mirrors_step
  refine ⟨callees category id s.dispatcher, dispatch_eq _ category id _, dispatch_eq _ category id _,
    mirrors.nodup_callees category id, fun x => ?_⟩
  rw [callees, List.mem_append, mirrors.mem_equalRange, mirrors.mem_lists, Wants, ← and_or_left]

/-- The statement above at one handler with a filter and one without, both subscribed. -/
theorem handle_calls_two :
    let handlers : EventHandlers Bool :=
      { getCategory := fun _ => .CATEGORY_SYSTEM
        getEventFilterClassID := fun h => if h then some [UniqueID.new] else none
        filter_nodup := by
          intro h l e
          cases h <;> cases e
          exact List.nodup_singleton _ }
    let d := EventDispatcher.subscribeEvent handlers (fun _ => 0) false
      (EventDispatcher.subscribeEvent handlers (fun _ => 0) true .new)
    ∃ called : List Bool,
      d.handle ⟨.CATEGORY_SYSTEM, some .new⟩ = some (called.map .handle) ∧
      d.onFinish ⟨.CATEGORY_SYSTEM, some .new⟩ = some (called.map .onFinish) ∧
      called.Nodup ∧
      ∀ x, x ∈ called ↔ x ∈ [false, true] ∧ Wants handlers x .CATEGORY_SYSTEM .new := by
  intro handlers d
  exact handle_calls handlers (s := ⟨d, [false, true]⟩)
    (l := [.subscribeEvent (fun _ => 0) true, .subscribeEvent (fun _ => 0) false])
    (run_exec_iff.mpr rfl) .CATEGORY_SYSTEM .new

end Dispatch

/-! ## Subscribing and de-subscribing again -/

namespace EventDispatcher
open Dispatch

variable {η : Type} {handlers : EventHandlerClass η} {d d' : EventDispatcher η} {handler : η}

/-- For every task with a message `Handle` calls the same handlers, each as often. -/
def SameCalls (d d' : EventDispatcher η) : Prop :=
  ∀ category id, ∃ called called', d.handle ⟨category, some id⟩ = some called ∧
    d'.handle ⟨category, some id⟩ = some called' ∧ called.Perm called'

/-- Two tables make the same calls if they have the same callees. -/
lemma sameCalls_iff :
    SameCalls d d' ↔ ∀ category id,
      ((callees category id d).map HandlerCall.handle).Perm
        ((callees category id d').map HandlerCall.handle) := by
  unfold SameCalls handle
  simp only [dispatch_eq, Option.some.injEq]
  constructor
  · intro same category id
    obtain ⟨called, called', rfl, rfl, perm⟩ := same category id
    exact perm
  · exact fun same category id => ⟨_, _, rfl, rfl, same category id⟩

/-- The calls depend on the multisets of the table's entries and of the lists. -/
lemma sameCalls_of_perm (table : d.m_EventHandlers.Perm d'.m_EventHandlers)
    (lists : d.m_EventSubscribers = d'.m_EventSubscribers) : SameCalls d d' := by
  rw [sameCalls_iff]
  intro category id
  have filtered : (equalRange d.m_EventHandlers id).Perm (equalRange d'.m_EventHandlers id) :=
    (table.filter _).map _
  rw [callees, callees, lists]
  exact (filtered.append_right _).map _

variable [DecidableEq η]

/-- Taking out what was put in front leaves the rest. -/
lemma append_diff_self {α : Type} [BEq α] [LawfulBEq α] (l table : List α) :
    (l ++ table).diff l = table := by
  induction l with
  | nil => exact List.diff_nil _
  | cons a l ih => rw [List.cons_append, List.diff_cons, List.erase_cons_head, ih]

/-- With a filter list, exactly the entries that were added are taken out. -/
lemma sameCalls_filter {l : List UniqueID} (filter : handlers.getEventFilterClassID handler = some l)
    (place : UniqueID → Nat) (d : EventDispatcher η) :
    SameCalls d ((d.subscribeEvent handlers place handler).deSubscribeEvent handlers handler) := by
  have added := foldl_insert_perm place handler l d.m_EventHandlers
  have removed := added.diff_right (l.map fun id => (id, handler))
  rw [append_diff_self] at removed
  refine sameCalls_of_perm ?_ ?_
  · simpa only [subscribeEvent, deSubscribeEvent, filter, foldl_erase_eq] using removed.symm
  · simp only [subscribeEvent, deSubscribeEvent, filter]

/-- Without one, the category's list is left without the handler. -/
lemma deSubscribe_subscribe_category (filter : handlers.getEventFilterClassID handler = none)
    (place : UniqueID → Nat) (d : EventDispatcher η) :
    (d.subscribeEvent handlers place handler).deSubscribeEvent handlers handler =
      { d with
        m_EventSubscribers := Function.update d.m_EventSubscribers (handlers.getCategory handler)
          ((d.m_EventSubscribers (handlers.getCategory handler)).filter fun h => h ≠ handler) } := by
  simp [subscribeEvent, deSubscribeEvent, filter]

/-- A list that has the handler loses it, and a task of the category tells. -/
lemma length_callees_lt (category : Category) (id : UniqueID)
    (listed : handler ∈ d.m_EventSubscribers category) :
    (callees .CATEGORY_ALL id
      { d with
        m_EventSubscribers := Function.update d.m_EventSubscribers category
          ((d.m_EventSubscribers category).filter fun h => h ≠ handler) }).length <
      (callees .CATEGORY_ALL id d).length := by
  have shorter : ((d.m_EventSubscribers category).filter fun h => h ≠ handler).length <
      (d.m_EventSubscribers category).length := by
    rw [List.length_filter_lt_length_iff_exists]
    exact ⟨handler, listed, by simp⟩
  simp only [callees, List.length_append]
  cases category <;> simp [Function.update] at shorter ⊢ <;> omega

/-- Without one, all elements of the category's list that are equal to the handler are. -/
lemma sameCalls_category_iff (filter : handlers.getEventFilterClassID handler = none)
    (place : UniqueID → Nat) (d : EventDispatcher η) :
    SameCalls d ((d.subscribeEvent handlers place handler).deSubscribeEvent handlers handler) ↔
      handler ∉ d.m_EventSubscribers (handlers.getCategory handler) := by
  rw [deSubscribe_subscribe_category filter]
  constructor
  · intro same listed
    have perm := sameCalls_iff.mp same .CATEGORY_ALL .new
    have shorter := length_callees_lt (handlers.getCategory handler) .new listed
    have len := perm.length_eq
    simp only [List.length_map] at len
    omega
  · intro absent
    have kept : ((d.m_EventSubscribers (handlers.getCategory handler)).filter fun h => h ≠ handler) =
        d.m_EventSubscribers (handlers.getCategory handler) := by
      rw [List.filter_eq_self]
      intro x hx
      have ne : x ≠ handler := fun e => absent (e ▸ hx)
      simpa using ne
    rw [kept, Function.update_eq_self]
    exact sameCalls_of_perm (.refl _) rfl

/-- In any state, subscribing a handler and de-subscribing it again leaves unchanged how often `Handle` calls
    which handler, if and only if the handler has a filter list or is not in the list of its category. -/
theorem subscribe_deSubscribe_iff (handlers : EventHandlerClass η) (d : EventDispatcher η) (handler : η)
    (place : UniqueID → Nat) :
    SameCalls d ((d.subscribeEvent handlers place handler).deSubscribeEvent handlers handler) ↔
      (handlers.getEventFilterClassID handler = none →
        handler ∉ d.m_EventSubscribers (handlers.getCategory handler)) := by
  cases filter : handlers.getEventFilterClassID handler with
  | none => simp [sameCalls_category_iff filter]
  | some l => simp [sameCalls_filter filter]

/-- A handler without a filter that is subscribed a second time and de-subscribed once is called no more. -/
theorem subscribe_twice :
    let handlers : EventHandlerClass Unit :=
      { getCategory := fun _ => .CATEGORY_SYSTEM, getEventFilterClassID := fun _ => none }
    let d : EventDispatcher Unit := new.subscribeEvent handlers (fun _ => 0) ()
    ¬ SameCalls d
      ((d.subscribeEvent handlers (fun _ => 0) ()).deSubscribeEvent handlers ()) := by
  intro handlers d same
  have listed : () ∈ d.m_EventSubscribers .CATEGORY_SYSTEM := by decide
  exact (sameCalls_category_iff rfl (fun _ => 0) d).mp same listed

end EventDispatcher
end XLN
