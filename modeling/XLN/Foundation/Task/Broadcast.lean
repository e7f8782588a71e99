import XLN.Foundation.Task.EventDispatcher
import XLN.Foundation.Task.TaskAllocator
import XLN.Foundation.Task.TaskConsumer

/-!
# Broadcasts

`Core/Foundation/Task/EventHandler.cpp` and `TaskHandler.cpp`. `BroadcastTask` fills a task and lets the
dispatcher handle it at once, `BroadcastTaskAsync` lets `SendTaskAsync` submit one to the dispatcher's
processor, which handles it later. By default neither task has a message, and `EventDispatcher::Handle`
asks the message for its class (`broadcast_null`, `broadcast_not_alike`); the second one does not get the
parameter either (`broadcastTaskAsync_m_UserParam`).
-/

namespace XLN
open Transition

namespace TaskAllocator

variable {ι : Type}

/-- The user of a task sets its members. -/
def write (task : Ptr) (value : TaskMemory ι) (s : TaskAllocator ι) : TaskAllocator ι :=
  { s with client := { s.client with
    pool := { s.client.pool with
      storage := Function.update s.client.pool.storage task value } } }

/-- `Release`. -/
def release (task : Ptr) (s : TaskAllocator ι) : TaskAllocator ι :=
  { s with
    client := {
      pool := @FreeList.release _ (TaskMemory.object none) capacity task s.client.pool
      acquired := s.client.acquired.erase task }
    released := task :: s.released }

/-- A step that does not have to do with the task. -/
def Leaves (task : Ptr) (s : TaskAllocator ι) : Event ι → Prop
  | .aquire _ => s.next ≠ task
  | .release other | .write other _ => other ≠ task

end TaskAllocator

section Definitions
variable {η ι : Type} (classOf : Nat → UniqueID)

/-- `EventDispatcher::Handle` with the task that the handlers get; `classOf` is `ObjClassID` of the
    messages. Gives `none` for a null message. -/
def EventDispatcher.handleTask (task : TaskMemory ι) (d : EventDispatcher η) :
    Option (List (HandlerCall η × TaskMemory ι)) :=
  (d.handle ⟨task.m_Category, task.m_Message.map classOf⟩).map fun calls =>
    calls.map fun call => (call, task)

/-- `EventDispatcher::OnFinish`, likewise. -/
def EventDispatcher.onFinishTask (task : TaskMemory ι) (d : EventDispatcher η) :
    Option (List (HandlerCall η × TaskMemory ι)) :=
  (d.onFinish ⟨task.m_Category, task.m_Message.map classOf⟩).map fun calls =>
    calls.map fun call => (call, task)

/-- `EventHandler::BroadcastTask` in a thread whose processor is `current`, with the calls that the
    dispatcher makes. Gives `none` if it dereferences a null message. -/
def EventHandler.broadcastTask (current : Option ι) (what : Int) (param : Option Nat)
    (category : Category) (message : Option Nat) (d : EventDispatcher η) (s : TaskAllocator ι) :
    Option (List (HandlerCall η × TaskMemory ι) × TaskAllocator ι) :=
  let task := s.next
  let s := s.aquire current
  let value := { s.client.pool.storage task with
    m_What := what, m_UserParam := param, m_Category := category, m_Message := message }
  let s := s.write task value
  (d.handleTask classOf value).map fun calls => (calls, s.release task)

/-- `TaskHandler::SendTaskAsync` at `tick`, with a pointer that is meant to go along, and the task that it
    submits to the processor of the handler. -/
def TaskHandler.sendTaskAsync (current : Option ι) (tick what : Int) (_param : Option Nat)
    (target : Nat) (s : TaskAllocator ι) : Ptr × TaskAllocator ι :=
  let task := s.next
  let s := s.aquire current
  let value := { s.client.pool.storage task with
    m_When := tick, m_What := what, m_Whom := some target }
  (task, s.write task value)

/-- `EventHandler::BroadcastTaskAsync` of a handler whose dispatcher is the task handler `mgr`. -/
def EventHandler.broadcastTaskAsync (current : Option ι) (tick what : Int) (param : Option Nat)
    (mgr : Nat) (s : TaskAllocator ι) : Ptr × TaskAllocator ι :=
  TaskHandler.sendTaskAsync current tick what param mgr s

/-- The calls carry the two arguments of a broadcast. -/
def Carry (what : Int) (param : Option Nat) (calls : List (HandlerCall η × TaskMemory ι)) : Prop :=
  ∀ call ∈ calls, call.2.m_What = what ∧ call.2.m_UserParam = param

/-- `BroadcastTask` with its default arguments reaches the handlers with `what` and `param`, and whenever
    the task of `BroadcastTaskAsync`, left alone until then, is handled, it reaches the same ones with the
    same. -/
def BroadcastAlike (current : Option ι) (tick what : Int) (param : Option Nat) (mgr : Nat)
    (d : EventDispatcher η) (s : TaskAllocator ι) : Prop :=
  ∃ calls s', EventHandler.broadcastTask classOf current what param .CATEGORY_ALL none d s =
      some (calls, s') ∧
    Carry what param calls ∧
    ∀ sent, EventHandler.broadcastTaskAsync current tick what param mgr s = sent →
      ∀ l s₂, Run (Exec TaskAllocator.step) sent.2 l s₂ →
        Meets (Exec TaskAllocator.step) (TaskAllocator.Leaves sent.1) sent.2 l →
        ∃ calls', d.handleTask classOf (s₂.client.pool.storage sent.1) = some calls' ∧
          Carry what param calls' ∧ calls'.map Prod.fst = calls.map Prod.fst

end Definitions

namespace TaskAllocator
open FreeList TaskMemory

variable {ι : Type} {s s' : TaskAllocator ι} {current : Option ι} {task : Ptr}
  {value : TaskMemory ι} {a : Event ι}

/-- `Aquire` returns the next slot. -/
lemma aquire_next (current : Option ι) (s : TaskAllocator ι) :
    (@FreeList.aquire _ (object current) capacity s.client.pool).1 = s.next := by
  unfold next
  let pool := object current
  cases free : s.client.pool.m_FreeList with
  | nil => rw [aquire_nil free]
  | cons ret rest => rw [aquire_cons free]

/-- `Aquire` takes the next task. -/
lemma aquire_acquired : (s.aquire current).client.acquired = s.next :: s.client.acquired := by
  rw [← aquire_next current]
  rfl

/-- `Aquire` constructs the task that it takes. -/
lemma aquire_storage : (s.aquire current).client.pool.storage s.next =
    (s.client.pool.storage s.next).construct current := by
  have returned : (s.aquire current).returned =
      s.returned ++ [(s.aquire current).client.pool.storage s.next] := by
    rw [← aquire_next current]
    rfl
  rw [aquire_returned] at returned
  exact (List.singleton_inj.mp (List.append_cancel_left returned)).symm

/-- `Aquire` leaves the other tasks. -/
lemma aquire_storage_of_ne (ne : s.next ≠ task) :
    (s.aquire current).client.pool.storage task = s.client.pool.storage task := by
  rw [← aquire_next current] at ne
  exact @aquire_other _ (object current) capacity _ task ne.symm

/-- What was written is there. -/
lemma write_storage : (s.write task value).client.pool.storage task = value :=
  Function.update_self _ _ _

/-- A task that is held can be written to. -/
lemma step_write (held : task ∈ s.client.acquired) :
    Exec step s (.write task value) (s.write task value) :=
  if_pos held

/-- A task that is held can be released. -/
lemma step_release (held : task ∈ s.client.acquired) : Exec step s (.release task) (s.release task) :=
  if_pos held

/-- What a task holds changes only by steps that have to do with it. -/
lemma storage_step (leaves : s.Leaves task a) (st : Exec step s a s') :
    s'.client.pool.storage task = s.client.pool.storage task := by
  have move := step_move st
  cases move with
  | aquire => exact aquire_storage_of_ne leaves
  | @release other held =>
    have ne : other ≠ task := leaves
    let pool : Object (TaskMemory ι) := object none
    show (s.client.pool.release capacity other).storage task = _
    rw [release_storage, if_neg ne.symm]
  | write held => exact Function.update_of_ne (Ne.symm leaves) _ _

/-- A task that no step writes to stays as it is. -/
lemma storage_of_meets {l : List (Event ι)} (run : Run (Exec step) s l s')
    (leaves : Meets (Exec step) (Leaves task) s l) :
    s'.client.pool.storage task = s.client.pool.storage task := by
  have same : Along (Exec step)
      (fun s' => s'.client.pool.storage task = s.client.pool.storage task) s l :=
    leaves.along rfl fun h leaves st => (storage_step leaves st).trans h
  exact same l s' (List.prefix_refl l) run

end TaskAllocator

/-! ## What arrives -/

section Arrival
open TaskAllocator TaskMemory Dispatch

variable {η ι : Type} {classOf : Nat → UniqueID} {current : Option ι} {what tick : Int}
  {param : Option Nat} {category : Category} {d : EventDispatcher η} {s : TaskAllocator ι}
  {task : TaskMemory ι} {mgr : Nat}

/-- A task with a message goes to the handlers of its class. -/
lemma handleTask_message {message : Nat} (given : task.m_Message = some message) :
    d.handleTask classOf task =
      some ((callees task.m_Category (classOf message) d).map fun h => (.handle h, task)) := by
  unfold EventDispatcher.handleTask EventDispatcher.handle
  rw [given, Option.map_some, dispatch_eq, Option.map_some, List.map_map]
  rfl

/-- The loops are not reached without a message. -/
lemma handleTask_null (null : task.m_Message = none) : d.handleTask classOf task = none := by
  unfold EventDispatcher.handleTask
  rw [null]
  rfl

/-- A task without a message has no handlers to ask for. -/
lemma onFinishTask_null (null : task.m_Message = none) : d.onFinishTask classOf task = none := by
  unfold EventDispatcher.onFinishTask
  rw [null]
  rfl

/-- With a message, `BroadcastTask` calls each handler that is meant by the category and the class of the
    message, with the two arguments, and acquires and releases one task. -/
theorem broadcastTask_message (classOf : Nat → UniqueID) (current : Option ι) (what : Int)
    (param : Option Nat) (category : Category) (message : Nat) (d : EventDispatcher η)
    (s : TaskAllocator ι) :
    ∃ calls s' value, EventHandler.broadcastTask classOf current what param category (some message) d s =
        some (calls, s') ∧
      calls.map Prod.fst = (callees category (classOf message) d).map .handle ∧
      Carry what param calls ∧
      Run (Exec step) s [.aquire current, .write s.next value, .release s.next] s' := by
  let value := { (s.aquire current).client.pool.storage s.next with
    m_What := what, m_UserParam := param, m_Category := category, m_Message := some message }
  have held : s.next ∈ (s.aquire current).client.acquired := by
    rw [aquire_acquired]
    exact List.mem_cons_self
  have handled : d.handleTask classOf value =
      some ((callees category (classOf message) d).map fun h => (.handle h, value)) :=
    handleTask_message rfl
  refine ⟨(callees category (classOf message) d).map fun h => (.handle h, value),
    ((s.aquire current).write s.next value).release s.next, value, ?_, ?_, ?_, ?_⟩
  · unfold EventHandler.broadcastTask
    show (d.handleTask classOf value).map
      (fun calls => (calls, ((s.aquire current).write s.next value).release s.next)) = _
    rw [handled]
    rfl
  · rw [List.map_map]
    rfl
  · intro call mem
    rw [List.mem_map] at mem
    obtain ⟨h, -, rfl⟩ := mem
    exact ⟨rfl, rfl⟩
  · have acquired : Run (Exec step) s [.aquire current] _ := .single rfl
    exact (acquired.snoc (step_write held)).snoc (step_release held)

/-- By default there is none, and `BroadcastTask` dereferences a null pointer. -/
lemma broadcastTask_null :
    EventHandler.broadcastTask classOf current what param category none d s = none := by
  unfold EventHandler.broadcastTask
  simp only [handleTask_null, Option.map_none]

/-- The task that `BroadcastTaskAsync` submits. -/
lemma broadcastTaskAsync_storage :
    (EventHandler.broadcastTaskAsync current tick what param mgr s).2.client.pool.storage s.next =
      { (s.client.pool.storage s.next).construct current with
        m_When := tick, m_What := what, m_Whom := some mgr } := by
  show ((s.aquire current).write s.next _).client.pool.storage s.next = _
  rw [write_storage, aquire_storage]

/-- A consumer handles it, unless the memory happens to hold one of the two actions that it treats
    otherwise. -/
lemma invoke_broadcastTaskAsync
    (action : (s.client.pool.storage s.next).m_SysAction ≠ .SA_WAIT_NOTIFIER) :
    TaskConsumer.invoke ((EventHandler.broadcastTaskAsync current tick what param mgr s).2.client.pool.storage
      s.next).toTask s.next = [.handle s.next] := by
  rw [broadcastTaskAsync_storage]
  exact if_neg action

/-- The parameter is lost: the task has what the memory held. -/
theorem broadcastTaskAsync_m_UserParam (current : Option ι) (tick what : Int) (param : Option Nat)
    (mgr : Nat) (s : TaskAllocator ι) :
    ((EventHandler.broadcastTaskAsync current tick what param mgr s).2.client.pool.storage
      s.next).m_UserParam = (s.client.pool.storage s.next).m_UserParam := by
  rw [broadcastTaskAsync_storage]
  rfl

/-- Until the task is handled it gets no message, so `Handle` and `OnFinish` dereference a null pointer. -/
lemma broadcastTaskAsync_null {l : List (Event ι)} {s' : TaskAllocator ι}
    (run : Run (Exec step) (EventHandler.broadcastTaskAsync current tick what param mgr s).2 l s')
    (leaves : Meets (Exec step) (Leaves s.next)
      (EventHandler.broadcastTaskAsync current tick what param mgr s).2 l) :
    d.handleTask classOf (s'.client.pool.storage s.next) = none ∧
      d.onFinishTask classOf (s'.client.pool.storage s.next) = none := by
  have null : (s'.client.pool.storage s.next).m_Message = none := by
    rw [storage_of_meets run leaves, broadcastTaskAsync_storage]
    rfl
  exact ⟨handleTask_null null, onFinishTask_null null⟩

/-- In every state of the dispatcher and of the allocator and for all arguments, the two broadcasts do not
    do the same for the handlers. -/
theorem not_broadcastAlike (classOf : Nat → UniqueID) (current : Option ι) (tick what : Int)
    (param : Option Nat) (mgr : Nat) (d : EventDispatcher η) (s : TaskAllocator ι) :
    ¬ BroadcastAlike classOf current tick what param mgr d s := by
  rintro ⟨calls, s', sync, -⟩
  rw [broadcastTask_null] at sync
  cases sync

/-- So with one handler subscribed and tasks fresh from the heap. -/
theorem broadcast_to_one :
    let handlers : EventHandlerClass Unit :=
      { getCategory := fun _ => .CATEGORY_SYSTEM, getEventFilterClassID := fun _ => none }
    let d : EventDispatcher Unit := EventDispatcher.new.subscribeEvent handlers (fun _ => 0) ()
    let task : TaskMemory Unit :=
      ⟨⟨.SA_NONE, none, none, none, none, .TS_QUEUED⟩, 0, 0, none, none, .CATEGORY_ALL, none⟩
    ¬ BroadcastAlike (fun _ => .new) none 0 1 (some 2) 3 d (init none fun _ => task) := by
  rintro handlers d task ⟨calls, s', sync, -⟩
  cases sync

end Arrival
end XLN
