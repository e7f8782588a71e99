import XLN.Lib.Transition
import XLN.Utility.Pool
import Mathlib.Logic.Function.Basic

/-!
# Asynchronous calls

`Network/GrpcService.h` and `GrpcService.cpp`: `CallAsync` puts a context on the heap, starts the call with
the context's address as its tag and returns the future of the promise in the context. `RunClient`, the
thread of the completion queue, gets the tag of a finished call, fulfils the promise and deletes the context.
Calls are values of a type `κ`; the `GrpcCallReturn` object and the promise that the constructor of a
context makes are named by the call that made it.

The caller reads the promise after it has handed the tag over, so everything is right in exactly the runs in
which no `getFuture` comes after the `delete` of its context (`correct_along_iff`).
-/

namespace XLN
open Transition

namespace GrpcService

/-- Where a caller is in `CallAsync`, with the address of its context; at the end it has a future. -/
inductive CallPc (κ : Type) where
  | idle
  | prepare (context : Ptr)
  | startCall (context : Ptr)
  | finish (context : Ptr)
  | getFuture (context : Ptr)
  | returned (future : κ)

/-- Where the thread is in the loop of `RunClient`. -/
inductive ClientPc where
  | next
  | promise (call : Ptr)
  | delete (call : Ptr)

/-- What `Finish` hands over: the object for the reply and the tag. -/
structure Operation (κ : Type) where
  ret : κ
  tag : Ptr

/-- A step of a caller, of the network or of the thread of the completion queue. -/
inductive Event (κ ρ : Type) where
  | newContext (call : κ) (context : Ptr)
  | prepare (call : κ)
  | startCall (call : κ)
  | finish (call : κ)
  | getFuture (call : κ)
  | complete (call : κ) (reply : ρ)
  | next (tag : Ptr)
  | promise
  | delete

end GrpcService

open GrpcService in
/-- `GrpcService` with all its calls. `heap` tells which call made the context at an address, `m_ClientCq`
    is the tags of the completed operations, `message` the contents of the `GrpcCallReturn` objects and
    `values` what the promises were set to. `reply` is what the server has answered. -/
structure GrpcService (κ ρ : Type) where
  heap : Ptr → Option κ
  pc : κ → CallPc κ
  operation : κ → Option (Operation κ)
  m_ClientCq : List Ptr
  client : ClientPc
  message : κ → Option ρ
  values : κ → List κ
  reply : κ → Option ρ
  usedAfterDelete : Bool

namespace GrpcService

variable {κ ρ : Type}

/-- The service after `OnInit`. -/
def new : GrpcService κ ρ :=
  { heap := fun _ => none
    pc := fun _ => .idle
    operation := fun _ => none
    m_ClientCq := []
    client := .next
    message := fun _ => none
    values := fun _ => []
    reply := fun _ => none
    usedAfterDelete := false }

section Step
variable [DecidableEq κ]

/-- The caller of `call` uses the object at `context`, which some call has made; it is its own context or
    the own one has been deleted. -/
def access (s : GrpcService κ ρ) (call : κ) (context : Ptr) (use : κ → GrpcService κ ρ) :
    GrpcService κ ρ :=
  match s.heap context with
  | some owner => { use owner with usedAfterDelete := owner ≠ call }
  | none => { s with usedAfterDelete := true }

/-- The caller goes on. -/
def goto (s : GrpcService κ ρ) (call : κ) (pc : CallPc κ) : GrpcService κ ρ :=
  { s with pc := Function.update s.pc call pc }

/-- One step. After a use of a deleted context nothing is defined. -/
def step (s : GrpcService κ ρ) (e : Event κ ρ) : Option (GrpcService κ ρ) :=
  if s.usedAfterDelete then none
  else match e with
  | .newContext call context =>
    match s.pc call, s.heap context with
    | .idle, none => some
      ({ s with heap := Function.update s.heap context (some call) }.goto call (.prepare context))
    | _, _ => none
  | .prepare call =>
    match s.pc call with
    | .prepare context => some (s.access call context fun _ => s.goto call (.startCall context))
    | _ => none
  | .startCall call =>
    match s.pc call with
    | .startCall context => some (s.access call context fun _ => s.goto call (.finish context))
    | _ => none
  | .finish call =>
    match s.pc call with
    | .finish context => some (s.access call context fun owner =>
      { s with operation := Function.update s.operation call (some ⟨owner, context⟩) }.goto call
        (.getFuture context))
    | _ => none
  | .getFuture call =>
    match s.pc call with
    -- the promise is a part of the context, which may be gone since `Finish`
    | .getFuture context => some (s.access call context fun owner => s.goto call (.returned owner))
    | _ => none
  | .complete call reply =>
    match s.operation call with
    -- at any time after `Finish`, with the reply in the object that `Finish` was given
    | some op => some
      { s with
        operation := Function.update s.operation call none
        message := Function.update s.message op.ret (some reply)
        reply := Function.update s.reply call (some reply)
        m_ClientCq := s.m_ClientCq ++ [op.tag] }
    | none => none
  | .next tag =>
    match s.client with
    | .next =>
      if tag ∈ s.m_ClientCq then
        some { s with m_ClientCq := s.m_ClientCq.erase tag, client := .promise tag }
      else none
    | _ => none
  | .promise =>
    match s.client with
    | .promise call =>
      match s.heap call with
      | some owner => some
        { s with
          values := Function.update s.values owner (s.values owner ++ [owner])
          client := .delete call }
      | none => some { s with usedAfterDelete := true }
    | _ => none
  | .delete =>
    match s.client with
    | .delete call =>
      match s.heap call with
      | some _ => some { s with heap := Function.update s.heap call none, client := .next }
      | none => some { s with usedAfterDelete := true }
    | _ => none

end Step

/-- The promise of the call was set once, to the call's own reply. -/
def Fulfilled (s : GrpcService κ ρ) (call : κ) : Prop :=
  s.values call = [call] ∧ ∃ r, s.reply call = some r ∧ s.message call = some r

/-- `CallAsync` has called `Finish`. -/
def Issued : CallPc κ → Prop
  | .getFuture _ | .returned _ => True
  | _ => False

/-- No context was used after it was deleted. The future of every call is its own; it is fulfilled once with
    the call's own reply, or not yet, and then the completion is still to come or to be handled. -/
structure Correct (s : GrpcService κ ρ) : Prop where
  alive : s.usedAfterDelete = false
  future : ∀ k f, s.pc k = .returned f → f = k
  once : ∀ k, s.values k = [] ∨ Fulfilled s k
  kept : ∀ k, Issued (s.pc k) → Fulfilled s k ∨ (s.operation k).isSome ∨
    ∃ tag, s.heap tag = some k ∧ (tag ∈ s.m_ClientCq ∨ s.client = .promise tag)

/-- The caller reads the future before its context is deleted. -/
def InTime (s : GrpcService κ ρ) : Event κ ρ → Prop
  | .getFuture call => ∀ context, s.pc call = .getFuture context → s.heap context = some call
  | _ => True

instance [DecidableEq κ] (s : GrpcService κ ρ) (e : Event κ ρ) : Decidable (InTime s e) :=
  match e with
  | .getFuture call =>
    match at_call : s.pc call with
    | .getFuture context =>
      decidable_of_iff (s.heap context = some call)
        ⟨fun own _ pc => by cases at_call.symm.trans pc; exact own, fun inTime => inTime _ at_call⟩
    | .idle | .prepare _ | .startCall _ | .finish _ | .returned _ =>
      isTrue fun _ pc => by cases at_call.symm.trans pc
  | .newContext .. | .prepare _ | .startCall _ | .finish _ | .complete .. | .next _ | .promise | .delete =>
    isTrue trivial

/-! ## The stages of a call -/

/-- How far a call has got, with the address of its context. -/
inductive Stage where
  | idle
  | created (context : Ptr)
  | outstanding (context : Ptr)
  | queued (context : Ptr)
  | received (context : Ptr)
  | promised (context : Ptr)
  | deleted (context : Ptr)

/-- The address of the context while it is on the heap. -/
def Stage.addr : Stage → Option Ptr
  | created p | outstanding p | queued p | received p | promised p => some p
  | _ => none

/-- After `Finish` the caller is about to read the future or has read its own. -/
def After (call : κ) (context : Ptr) (pc : CallPc κ) : Prop :=
  pc = .getFuture context ∨ pc = .returned call

/-- What is known about a call in each stage. -/
inductive CallInv (s : GrpcService κ ρ) (k : κ) : Stage → Prop where
  | idle :
    s.pc k = .idle →
    s.operation k = none →
    s.values k = [] →
    CallInv s k .idle
  | created {p} :
    s.pc k = .prepare p ∨ s.pc k = .startCall p ∨ s.pc k = .finish p →
    s.operation k = none →
    s.values k = [] →
    CallInv s k (.created p)
  | outstanding {p} :
    After k p (s.pc k) →
    s.operation k = some ⟨k, p⟩ →
    s.values k = [] →
    CallInv s k (.outstanding p)
  | queued {p r} :
    After k p (s.pc k) →
    s.operation k = none →
    s.values k = [] →
    s.reply k = some r →
    s.message k = some r →
    CallInv s k (.queued p)
  | received {p r} :
    After k p (s.pc k) →
    s.operation k = none →
    s.values k = [] →
    s.reply k = some r →
    s.message k = some r →
    CallInv s k (.received p)
  | promised {p} :
    After k p (s.pc k) →
    s.operation k = none →
    Fulfilled s k →
    CallInv s k (.promised p)
  | deleted {p} :
    After k p (s.pc k) →
    s.operation k = none →
    Fulfilled s k →
    CallInv s k (.deleted p)

/-- The stages of all calls agree with the heap, the queue and the thread of the queue. -/
structure Inv (s : GrpcService κ ρ) (stage : κ → Stage) : Prop where
  alive : s.usedAfterDelete = false
  calls : ∀ k, CallInv s k (stage k)
  heap : ∀ p k, s.heap p = some k ↔ (stage k).addr = some p
  queue : ∀ p, p ∈ s.m_ClientCq ↔ ∃ k, stage k = .queued p
  queue_nodup : s.m_ClientCq.Nodup
  received : ∀ p, s.client = .promise p ↔ ∃ k, stage k = .received p
  promised : ∀ p, s.client = .delete p ↔ ∃ k, stage k = .promised p

variable {s t : GrpcService κ ρ} {k k' : κ} {stage : κ → Stage} {st : Stage} {p : Ptr}
  {e : Event κ ρ}

/-- What is known about a call stays when the caller stays among the places of the stage. -/
lemma CallInv.mono (h : CallInv s k st) (idle : s.pc k = .idle → t.pc k = .idle)
    (created : ∀ p, s.pc k = .prepare p ∨ s.pc k = .startCall p ∨ s.pc k = .finish p →
      t.pc k = .prepare p ∨ t.pc k = .startCall p ∨ t.pc k = .finish p)
    (after : ∀ p, After k p (s.pc k) → After k p (t.pc k))
    (operation : t.operation k = s.operation k) (values : t.values k = s.values k)
    (reply : t.reply k = s.reply k) (message : t.message k = s.message k) : CallInv t k st := by
  have fulfilled : Fulfilled s k → Fulfilled t k := by
    rintro ⟨once, own⟩
    exact ⟨values.trans once, by rwa [reply, message]⟩
  cases h with
  | idle h1 h2 h3 => exact .idle (idle h1) (operation.trans h2) (values.trans h3)
  | created h1 h2 h3 => exact .created (created _ h1) (operation.trans h2) (values.trans h3)
  | outstanding h1 h2 h3 => exact .outstanding (after _ h1) (operation.trans h2) (values.trans h3)
  | queued h1 h2 h3 h4 h5 =>
    exact .queued (after _ h1) (operation.trans h2) (values.trans h3) (reply.trans h4) (message.trans h5)
  | received h1 h2 h3 h4 h5 =>
    exact .received (after _ h1) (operation.trans h2) (values.trans h3) (reply.trans h4) (message.trans h5)
  | promised h1 h2 h3 => exact .promised (after _ h1) (operation.trans h2) (fulfilled h3)
  | deleted h1 h2 h3 => exact .deleted (after _ h1) (operation.trans h2) (fulfilled h3)

/-- What is known about a call does not depend on the other calls. -/
lemma CallInv.congr (h : CallInv s k st) (pc : t.pc k = s.pc k)
    (operation : t.operation k = s.operation k) (values : t.values k = s.values k)
    (reply : t.reply k = s.reply k) (message : t.message k = s.message k) : CallInv t k st := by
  refine h.mono (fun here => pc.trans here) (fun _ here => ?_) (fun _ here => ?_) operation values reply message
  · rwa [pc]
  · rwa [pc]

/-- A new service has no calls. -/
lemma Inv.new : Inv (new : GrpcService κ ρ) fun _ => .idle where
  alive := rfl
  calls := fun _ => .idle rfl rfl rfl
  heap := fun _ _ => ⟨nofun, nofun⟩
  queue := fun _ => ⟨nofun, fun ⟨_, h⟩ => nomatch h⟩
  queue_nodup := List.nodup_nil
  received := fun _ => ⟨nofun, fun ⟨_, h⟩ => nomatch h⟩
  promised := fun _ => ⟨nofun, fun ⟨_, h⟩ => nomatch h⟩

/-- Two calls with contexts at one address are the same call. -/
lemma Inv.call_unique (h : Inv s stage) (hk : (stage k).addr = some p)
    (hk' : (stage k').addr = some p) : k = k' := by
  rw [← h.heap] at hk hk'
  exact Option.some.inj (hk.symm.trans hk')

/-- The thread of the queue handles one call at a time. -/
lemma Inv.received_unique (h : Inv s stage) {q : Ptr} (hk : stage k = .received p)
    (hk' : stage k' = .received q) : k' = k := by
  have client := (h.received p).mpr ⟨k, hk⟩
  cases client.symm.trans ((h.received q).mpr ⟨k', hk'⟩)
  exact h.call_unique (by rw [hk']; rfl) (by rw [hk]; rfl)

/-- A pointer is promised for one call. -/
lemma Inv.promised_unique (h : Inv s stage) {q : Ptr} (hk : stage k = .promised p)
    (hk' : stage k' = .promised q) : k' = k := by
  have client := (h.promised p).mpr ⟨k, hk⟩
  cases client.symm.trans ((h.promised q).mpr ⟨k', hk'⟩)
  exact h.call_unique (by rw [hk']; rfl) (by rw [hk]; rfl)

/-- Nothing has been received while the client has no result in hand. -/
lemma Inv.not_received (h : Inv s stage) (client : ∀ q, s.client ≠ .promise q) (q : Ptr) :
    stage k ≠ .received q :=
  fun hk => client q ((h.received q).mpr ⟨k, hk⟩)

/-- Nothing has been promised while the client has nothing to delete. -/
lemma Inv.not_promised (h : Inv s stage) (client : ∀ q, s.client ≠ .delete q) (q : Ptr) :
    stage k ≠ .promised q :=
  fun hk => client q ((h.promised q).mpr ⟨k, hk⟩)

/-- When the stages are right, so is the service. -/
lemma Inv.correct (h : Inv s stage) : Correct s where
  alive := h.alive
  future := by
    intro k f pc
    have call := h.calls k
    generalize stage k = st at call
    cases call with
    | idle h1 => rw [h1] at pc; cases pc
    | created h1 => rcases h1 with h1 | h1 | h1 <;> rw [h1] at pc <;> cases pc
    | outstanding h1 | queued h1 | received h1 | promised h1 | deleted h1 =>
      rcases h1 with h1 | h1
      · rw [h1] at pc
        cases pc
      · rw [h1] at pc
        cases pc
        rfl
  once := by
    intro k
    have call := h.calls k
    generalize stage k = st at call
    cases call with
    | idle _ _ h3 | created _ _ h3 | outstanding _ _ h3 | queued _ _ h3 | received _ _ h3 => exact .inl h3
    | promised _ _ h3 | deleted _ _ h3 => exact .inr h3
  kept := by
    intro k issued
    have call := h.calls k
    generalize e : stage k = st at call
    cases call with
    | idle h1 => rw [h1] at issued; cases issued
    | created h1 => rcases h1 with h1 | h1 | h1 <;> rw [h1] at issued <;> cases issued
    | outstanding _ h2 => exact .inr (.inl (by rw [h2]; rfl))
    | @queued p =>
      exact .inr (.inr ⟨p, (h.heap p k).mpr (by rw [e]; rfl), .inl ((h.queue p).mpr ⟨k, e⟩)⟩)
    | @received p =>
      exact .inr (.inr ⟨p, (h.heap p k).mpr (by rw [e]; rfl), .inr ((h.received p).mpr ⟨k, e⟩)⟩)
    | promised _ _ h3 | deleted _ _ h3 => exact .inl h3

/-! ## Steps -/

/-- A call that has not begun is idle. -/
lemma CallInv.idle_of_pc (h : CallInv s k st) (pc : s.pc k = .idle) : st = .idle := by
  cases h with
  | idle => rfl
  | created h1 => rcases h1 with h1 | h1 | h1 <;> rw [h1] at pc <;> cases pc
  | outstanding h1 | queued h1 | received h1 | promised h1 | deleted h1 =>
    rcases h1 with h1 | h1 <;> rw [h1] at pc <;> cases pc

/-- Before `Finish` the context is there and nothing else has begun. -/
lemma CallInv.created_of_pc (h : CallInv s k st)
    (pc : s.pc k = .prepare p ∨ s.pc k = .startCall p ∨ s.pc k = .finish p) :
    st = .created p ∧ s.operation k = none ∧ s.values k = [] := by
  cases h with
  | idle h1 => rw [h1] at pc; rcases pc with pc | pc | pc <;> cases pc
  | created h1 h2 h3 =>
    refine ⟨?_, h2, h3⟩
    rcases h1 with h1 | h1 | h1 <;> rw [h1] at pc <;> rcases pc with pc | pc | pc <;> cases pc <;> rfl
  | outstanding h1 | queued h1 | received h1 | promised h1 | deleted h1 =>
    rcases h1 with h1 | h1 <;> rw [h1] at pc <;> rcases pc with pc | pc | pc <;> cases pc

/-- A call with an operation is outstanding. -/
lemma CallInv.outstanding_of_operation (h : CallInv s k st) {op : Operation κ}
    (operation : s.operation k = some op) :
    st = .outstanding op.tag ∧ op.ret = k ∧ After k op.tag (s.pc k) ∧ s.values k = [] := by
  cases h with
  | outstanding h1 h2 h3 =>
    cases h2.symm.trans operation
    exact ⟨rfl, rfl, h1, h3⟩
  | idle _ h2 | created _ h2 | queued _ h2 | received _ h2 | promised _ h2 | deleted _ h2 =>
    rw [h2] at operation
    cases operation

/-- The caller reads its future, whatever stage the call is in. -/
lemma CallInv.read (h : CallInv s k st) (pc : s.pc k = .getFuture p) (pc' : t.pc k = .returned k)
    (operation : t.operation k = s.operation k) (values : t.values k = s.values k)
    (reply : t.reply k = s.reply k) (message : t.message k = s.message k) : CallInv t k st := by
  refine h.mono (fun here => ?_) (fun _ here => ?_) (fun _ _ => .inr pc') operation values reply message
  · rw [pc] at here
    cases here
  · rw [pc] at here
    rcases here with here | here | here <;> cases here

section Step
variable [DecidableEq κ]

/-- The calls in a stage, when one call changes its stage. -/
lemma exists_update {X : Stage} :
    (∃ k', Function.update stage k st k' = X) ↔ st = X ∨ ∃ k', k' ≠ k ∧ stage k' = X := by
  constructor
  · rintro ⟨k', h⟩
    by_cases e : k' = k
    · rw [e, Function.update_self] at h
      exact .inl h
    · rw [Function.update_of_ne e] at h
      exact .inr ⟨k', e, h⟩
  · rintro (h | ⟨k', e, h⟩)
    · exact ⟨k, by rwa [Function.update_self]⟩
    · exact ⟨k', by rwa [Function.update_of_ne e]⟩

/-- Whether a call is in a stage, when one call changes between two other stages. -/
lemma iff_update {P : Prop} {X : Stage} (h : P ↔ ∃ k', stage k' = X) (new : st ≠ X)
    (old : stage k ≠ X) : P ↔ ∃ k', Function.update stage k st k' = X := by
  rw [h, exists_update, or_iff_right new]
  refine exists_congr fun k' => ⟨fun at_k' => ⟨?_, at_k'⟩, And.right⟩
  rintro rfl
  exact old at_k'

/-- Whether a call is in a stage that only the changing call can be in. -/
lemma iff_update_of_only {P : Prop} {X : Stage} (here : P ↔ st = X)
    (only : ∀ k', stage k' = X → k' = k) : P ↔ ∃ k', Function.update stage k st k' = X := by
  rw [here, exists_update, or_iff_left]
  rintro ⟨k', ne, at_k'⟩
  exact ne (only k' at_k')

/-- What is known about all calls, when one call changes. -/
lemma Inv.calls_update (h : Inv s stage) (call : CallInv t k st)
    (others : ∀ k', k' ≠ k → t.pc k' = s.pc k' ∧ t.operation k' = s.operation k' ∧
      t.values k' = s.values k' ∧ t.reply k' = s.reply k' ∧ t.message k' = s.message k') (k' : κ) :
    CallInv t k' (Function.update stage k st k') := by
  by_cases e : k' = k
  · subst e
    rwa [Function.update_self]
  · rw [Function.update_of_ne e]
    obtain ⟨h1, h2, h3, h4, h5⟩ := others k' e
    exact (h.calls k').congr h1 h2 h3 h4 h5

/-- The heap, when a call keeps its context. -/
lemma Inv.heap_update (h : Inv s stage) (same : st.addr = (stage k).addr) (p : Ptr) (k' : κ) :
    s.heap p = some k' ↔ (Function.update stage k st k').addr = some p := by
  rw [h.heap]
  by_cases e : k' = k
  · subst e
    rw [Function.update_self, same]
  · rw [Function.update_of_ne e]

/-- A context that is alive and owned may be used. -/
lemma access_eq (alive : s.usedAfterDelete = false) (own : s.heap p = some k)
    (use : κ → GrpcService κ ρ) (keeps : (use k).usedAfterDelete = s.usedAfterDelete) :
    s.access k p use = use k := by
  rw [access, own]
  have same : decide (k ≠ k) = (use k).usedAfterDelete := by
    rw [keeps, alive]
    simp
  simp only [same]

/-- The place of the call that goes on. -/
lemma goto_pc_self {pc : CallPc κ} : (s.goto k pc).pc k = pc := Function.update_self ..

/-- Where the other callers are. -/
lemma goto_others {pc : CallPc κ} (k' : κ) (ne : k' ≠ k) :
    (s.goto k pc).pc k' = s.pc k' ∧ (s.goto k pc).operation k' = s.operation k' ∧
      (s.goto k pc).values k' = s.values k' ∧ (s.goto k pc).reply k' = s.reply k' ∧
      (s.goto k pc).message k' = s.message k' :=
  ⟨Function.update_of_ne ne .., rfl, rfl, rfl, rfl⟩

/-- A caller goes on within its stage. -/
lemma Inv.goto (h : Inv s stage) {pc : CallPc κ} (call : CallInv (s.goto k pc) k (stage k)) :
    Inv (s.goto k pc) stage where
  alive := h.alive
  calls := by
    have calls := h.calls_update call goto_others
    rwa [Function.update_eq_self] at calls
  heap := h.heap
  queue := h.queue
  queue_nodup := h.queue_nodup
  received := h.received
  promised := h.promised

/-- Before `Finish` the caller's context is on the heap. -/
lemma Inv.created (h : Inv s stage)
    (pc : s.pc k = .prepare p ∨ s.pc k = .startCall p ∨ s.pc k = .finish p) :
    s.heap p = some k ∧ ∀ {pc : CallPc κ},
      ((s.goto k pc).pc k = .prepare p ∨ (s.goto k pc).pc k = .startCall p ∨
        (s.goto k pc).pc k = .finish p) → CallInv (s.goto k pc) k (stage k) := by
  obtain ⟨at_k, operation, values⟩ := (h.calls k).created_of_pc pc
  rw [h.heap, at_k]
  exact ⟨rfl, fun pc' => .created pc' operation values⟩

/-- A new context is prepared for its call. -/
lemma Inv.step_newContext (h : Inv s stage) (pc : s.pc k = .idle) (unused : s.heap p = none) :
    Inv ({ s with heap := Function.update s.heap p (some k) }.goto k (.prepare p))
      (Function.update stage k (.created p)) := by
  have at_k := (h.calls k).idle_of_pc pc
  have call := h.calls k
  rw [at_k] at call
  cases call with
  | idle _ operation values =>
    constructor
    · exact h.alive
    · exact h.calls_update (.created (.inl goto_pc_self) operation values) goto_others
    · intro q k'
      change Function.update s.heap p (some k) q = some k' ↔ _
      by_cases e : q = p
      · subst e
        rw [Function.update_self]
        by_cases ek : k' = k
        · subst ek
          rw [Function.update_self]
          exact ⟨fun _ => rfl, fun _ => rfl⟩
        · rw [Function.update_of_ne ek, ← h.heap, unused]
          exact ⟨fun h => absurd (Option.some.inj h).symm ek, nofun⟩
      · rw [Function.update_of_ne e, h.heap]
        by_cases ek : k' = k
        · subst ek
          rw [Function.update_self, at_k]
          exact ⟨nofun, fun h => absurd (Option.some.inj h).symm e⟩
        · rw [Function.update_of_ne ek]
    · exact fun q => iff_update (h.queue q) nofun (by rw [at_k]; nofun)
    · exact h.queue_nodup
    · exact fun q => iff_update (h.received q) nofun (by rw [at_k]; nofun)
    · exact fun q => iff_update (h.promised q) nofun (by rw [at_k]; nofun)

/-- `Finish` puts the tag of the context out. -/
lemma Inv.step_finish (h : Inv s stage) (pc : s.pc k = .finish p) :
    Inv ({ s with operation := Function.update s.operation k (some ⟨k, p⟩) }.goto k (.getFuture p))
      (Function.update stage k (.outstanding p)) := by
  obtain ⟨at_k, -, values⟩ := (h.calls k).created_of_pc (.inr (.inr pc))
  constructor
  · exact h.alive
  · refine h.calls_update (.outstanding (.inl goto_pc_self) (Function.update_self ..) values) ?_
    exact fun k' ne => ⟨Function.update_of_ne ne .., Function.update_of_ne ne .., rfl, rfl, rfl⟩
  · exact h.heap_update (by rw [at_k]; rfl)
  · exact fun q => iff_update (h.queue q) nofun (by rw [at_k]; nofun)
  · exact h.queue_nodup
  · exact fun q => iff_update (h.received q) nofun (by rw [at_k]; nofun)
  · exact fun q => iff_update (h.promised q) nofun (by rw [at_k]; nofun)

/-- An operation completes. -/
lemma Inv.step_complete (h : Inv s stage) {op : Operation κ} (operation : s.operation k = some op)
    (r : ρ) :
    Inv
      { s with
        operation := Function.update s.operation k none
        message := Function.update s.message op.ret (some r)
        reply := Function.update s.reply k (some r)
        m_ClientCq := s.m_ClientCq ++ [op.tag] }
      (Function.update stage k (.queued op.tag)) := by
  obtain ⟨at_k, own, after, values⟩ := (h.calls k).outstanding_of_operation operation
  have addr : (stage k).addr = some op.tag := by rw [at_k]; rfl
  have notQueued : op.tag ∉ s.m_ClientCq := by
    rw [h.queue]
    rintro ⟨k', hk'⟩
    cases h.call_unique addr (by rw [hk']; rfl)
    rw [at_k] at hk'
    cases hk'
  constructor
  · exact h.alive
  · refine h.calls_update (.queued (r := r) after (Function.update_self ..) values
      (Function.update_self ..) ?_) ?_
    · rw [own]
      exact Function.update_self ..
    · rw [own]
      exact fun k' ne => ⟨rfl, Function.update_of_ne ne .., rfl, Function.update_of_ne ne ..,
        Function.update_of_ne ne ..⟩
  · exact h.heap_update addr.symm
  · intro q
    rw [List.mem_append, List.mem_singleton, h.queue, exists_update]
    constructor
    · rintro (⟨k', hk'⟩ | rfl)
      · refine .inr ⟨k', ?_, hk'⟩
        rintro rfl
        rw [at_k] at hk'
        cases hk'
      · exact .inl rfl
    · rintro (hk | ⟨k', -, hk'⟩)
      · cases hk
        exact .inr rfl
      · exact .inl ⟨k', hk'⟩
  · exact List.nodup_append'.mpr ⟨h.queue_nodup, List.nodup_singleton _, by simpa using notQueued⟩
  · exact fun q => iff_update (h.received q) nofun (by rw [at_k]; nofun)
  · exact fun q => iff_update (h.promised q) nofun (by rw [at_k]; nofun)

/-- The tag that comes out of the queue is a context that has been received. -/
lemma Inv.step_next (h : Inv s stage) (client : s.client = .next) {tag : Ptr}
    (mem : tag ∈ s.m_ClientCq) :
    ∃ stage, Inv { s with m_ClientCq := s.m_ClientCq.erase tag, client := .promise tag } stage := by
  obtain ⟨k, at_k⟩ := (h.queue tag).mp mem
  have call := h.calls k
  rw [at_k] at call
  cases call with
  | queued after operation values reply message =>
    have addr : (stage k).addr = some tag := by rw [at_k]; rfl
    have idle : ∀ q, s.client ≠ .promise q := by
      rw [client]
      exact fun _ => nofun
    have idle' : ∀ q, s.client ≠ .delete q := by
      rw [client]
      exact fun _ => nofun
    refine ⟨Function.update stage k (.received tag), ?_⟩
    constructor
    · exact h.alive
    · exact h.calls_update (.received after operation values reply message)
        fun _ _ => ⟨rfl, rfl, rfl, rfl, rfl⟩
    · exact h.heap_update addr.symm
    · intro q
      rw [h.queue_nodup.mem_erase_iff, h.queue, exists_update]
      constructor
      · rintro ⟨ne, k', hk'⟩
        refine .inr ⟨k', ?_, hk'⟩
        rintro rfl
        rw [at_k] at hk'
        cases hk'
        exact ne rfl
      · rintro (hk | ⟨k', ne, hk'⟩)
        · cases hk
        · refine ⟨?_, k', hk'⟩
          rintro rfl
          exact ne (h.call_unique (by rw [hk']; rfl) addr)
    · exact h.queue_nodup.erase tag
    · refine fun q => iff_update_of_only ?_ fun k' hk' => absurd hk' (h.not_received idle q)
      exact ⟨fun e => by cases e; rfl, fun e => by cases e; rfl⟩
    · refine fun q => iff_update_of_only ?_ fun k' hk' => absurd hk' (h.not_promised idle' q)
      exact ⟨nofun, nofun⟩

/-- The promise of the call is fulfilled once. -/
lemma Inv.step_promise (h : Inv s stage) (client : s.client = .promise p) :
    ∃ owner, s.heap p = some owner ∧
      ∃ stage, Inv
        { s with
          values := Function.update s.values owner (s.values owner ++ [owner])
          client := .delete p } stage := by
  obtain ⟨k, at_k⟩ := (h.received p).mp client
  have call := h.calls k
  rw [at_k] at call
  cases call with
  | @received _ r after operation values reply message =>
    have addr : (stage k).addr = some p := by rw [at_k]; rfl
    have busy : ∀ q, s.client ≠ .delete q := by
      rw [client]
      exact fun _ => nofun
    refine ⟨k, (h.heap p k).mpr addr, Function.update stage k (.promised p), ?_⟩
    constructor
    · exact h.alive
    · refine h.calls_update (.promised after operation ⟨?_, r, reply, message⟩) ?_
      · change Function.update s.values k (s.values k ++ [k]) k = [k]
        rw [Function.update_self, values, List.nil_append]
      · exact fun k' ne => ⟨rfl, rfl, Function.update_of_ne ne .., rfl, rfl⟩
    · exact h.heap_update addr.symm
    · exact fun q => iff_update (h.queue q) nofun (by rw [at_k]; nofun)
    · exact h.queue_nodup
    · exact fun q => iff_update_of_only ⟨nofun, nofun⟩ fun _ => h.received_unique at_k
    · refine fun q => iff_update_of_only ?_ fun k' hk' => absurd hk' (h.not_promised busy q)
      exact ⟨fun e => by cases e; rfl, fun e => by cases e; rfl⟩

/-- The context is deleted once. -/
lemma Inv.step_delete (h : Inv s stage) (client : s.client = .delete p) :
    ∃ owner, s.heap p = some owner ∧
      ∃ stage, Inv { s with heap := Function.update s.heap p none, client := .next } stage := by
  obtain ⟨k, at_k⟩ := (h.promised p).mp client
  have call := h.calls k
  rw [at_k] at call
  cases call with
  | promised after operation fulfilled =>
    have addr : (stage k).addr = some p := by rw [at_k]; rfl
    have busy : ∀ q, s.client ≠ .promise q := by
      rw [client]
      exact fun _ => nofun
    refine ⟨k, (h.heap p k).mpr addr, Function.update stage k (.deleted p), ?_⟩
    constructor
    · exact h.alive
    · exact h.calls_update (.deleted after operation fulfilled) fun _ _ => ⟨rfl, rfl, rfl, rfl, rfl⟩
    · intro q k'
      change Function.update s.heap p none q = some k' ↔ _
      by_cases ek : k' = k
      · subst ek
        rw [Function.update_self]
        refine ⟨fun hq => ?_, nofun⟩
        by_cases e : q = p
        · rw [e, Function.update_self] at hq
          cases hq
        · rw [Function.update_of_ne e, h.heap, addr] at hq
          exact absurd (Option.some.inj hq).symm e
      · rw [Function.update_of_ne ek]
        by_cases e : q = p
        · subst e
          rw [Function.update_self]
          exact ⟨nofun, fun hk' => absurd (h.call_unique hk' addr) ek⟩
        · rw [Function.update_of_ne e, h.heap]
    · exact fun q => iff_update (h.queue q) nofun (by rw [at_k]; nofun)
    · exact h.queue_nodup
    · refine fun q => iff_update_of_only ?_ fun k' hk' => absurd hk' (h.not_received busy q)
      exact ⟨nofun, nofun⟩
    · exact fun q => iff_update_of_only ⟨nofun, nofun⟩ fun _ => h.promised_unique at_k

/-- A step in time keeps the stages. -/
lemma Inv.step (h : Inv s stage) (inTime : InTime s e) (st : Exec step s e t) :
    ∃ stage, Inv t stage := by
  unfold Exec GrpcService.step at st
  rw [if_neg (by rw [h.alive]; decide)] at st
  cases e with
  | newContext k p =>
    simp only at st
    split at st
    next pc unused =>
      cases st
      exact ⟨_, h.step_newContext pc unused⟩
    next => cases st
  | prepare k =>
    simp only at st
    split at st
    next p pc =>
      obtain ⟨heap, call⟩ := h.created (.inl pc)
      rw [access_eq h.alive heap _ rfl] at st
      cases st
      exact ⟨stage, h.goto (call (.inr (.inl goto_pc_self)))⟩
    next => cases st
  | startCall k =>
    simp only at st
    split at st
    next p pc =>
      obtain ⟨heap, call⟩ := h.created (.inr (.inl pc))
      rw [access_eq h.alive heap _ rfl] at st
      cases st
      exact ⟨stage, h.goto (call (.inr (.inr goto_pc_self)))⟩
    next => cases st
  | finish k =>
    simp only at st
    split at st
    next p pc =>
      obtain ⟨heap, -⟩ := h.created (.inr (.inr pc))
      rw [access_eq h.alive heap _ rfl] at st
      cases st
      exact ⟨_, h.step_finish pc⟩
    next => cases st
  | getFuture k =>
    simp only at st
    split at st
    next p pc =>
      rw [access_eq h.alive (inTime p pc) _ rfl] at st
      cases st
      exact ⟨stage, h.goto ((h.calls k).read pc goto_pc_self rfl rfl rfl rfl)⟩
    next => cases st
  | complete k r =>
    simp only at st
    split at st
    next op operation =>
      cases st
      exact ⟨_, h.step_complete operation r⟩
    next => cases st
  | next tag =>
    simp only at st
    split at st
    next client =>
      simp only [Option.ite_none_right_eq_some, Option.some.injEq] at st
      obtain ⟨mem, rfl⟩ := st
      exact h.step_next client mem
    next => cases st
  | promise =>
    simp only at st
    split at st
    next p client =>
      obtain ⟨owner, heap, stage, inv⟩ := h.step_promise client
      rw [heap] at st
      cases st
      exact ⟨stage, inv⟩
    next => cases st
  | delete =>
    simp only at st
    split at st
    next p client =>
      obtain ⟨owner, heap, stage, inv⟩ := h.step_delete client
      rw [heap] at st
      cases st
      exact ⟨stage, inv⟩
    next => cases st

/-- Nothing happens after a use of a deleted context. -/
lemma not_exec_of_used (used : s.usedAfterDelete = true) : ¬ Exec step s e t := by
  intro st
  unfold Exec GrpcService.step at st
  rw [if_pos used] at st
  cases st

/-- Reading a future late is a use of a deleted context. -/
lemma used_of_late (late : ¬ InTime s e) (st : Exec step s e t) : t.usedAfterDelete = true := by
  cases e with
  | getFuture k =>
    simp only [InTime, not_forall] at late
    obtain ⟨p, pc, deleted⟩ := late
    unfold Exec GrpcService.step at st
    split at st
    next => cases st
    next =>
      simp only [pc, Option.some.injEq] at st
      subst st
      unfold access
      split
      next owner heap =>
        refine decide_eq_true fun own => deleted ?_
        rw [heap, own]
      next => rfl
  | newContext | prepare | startCall | finish | complete | next | promise | delete => exact absurd trivial late

/-- For any number of calls and any order of steps: no context is used after it was deleted and every future
    is fulfilled once with the call's own reply, exactly when every `getFuture` comes before the `delete` of
    its context. -/
theorem correct_along_iff {l : List (Event κ ρ)} (run : Run (Exec step) (new : GrpcService κ ρ) l t) :
    Along (Exec step) Correct (new : GrpcService κ ρ) l ↔
      Meets (Exec step) InTime (new : GrpcService κ ρ) l := by
  refine along_iff_meets_of_last (G := fun s => ∃ stage, Inv s stage)
    (B := fun s => s.usedAfterDelete = true) (Exec.deterministic _) run ⟨_, .new⟩ ?_ ?_ ?_ ?_ ?_
  · rintro s e s' ⟨stage, h⟩ inTime st
    exact h.step inTime st
  · exact fun _ late st => used_of_late late st
  · exact fun used st => absurd st (not_exec_of_used used)
  · rintro s ⟨stage, h⟩
    exact h.correct
  · intro used correct
    rw [correct.alive] at used
    cases used

/-- The steps of a caller up to `Finish`. -/
def calling (call : κ) (context : Ptr) : List (Event κ ρ) :=
  [.newContext call context, .prepare call, .startCall call, .finish call]

/-- The completion of a call and what the thread of the queue does about it. -/
def completion (call : κ) (context : Ptr) (reply : ρ) : List (Event κ ρ) :=
  [.complete call reply, .next context, .promise, .delete]

/-- Two calls at the same time. The thread of the queue is done with the first one before the second caller
    reads its future. -/
def interleaved : List (Event Bool Nat) :=
  calling false 16 ++ calling true 32 ++ [.getFuture false, .complete true 8] ++ completion false 16 7 ++
    [.getFuture true, .next 32, .promise, .delete]

/-- A call that completes before the caller has the future. -/
def overtaken : List (Event Bool Nat) :=
  calling false 16 ++ completion false 16 7 ++ [.getFuture false]

/-- The equivalence above for two calls whose callers read the futures in time. -/
theorem correct_along_iff_interleaved :
    Along (Exec step) Correct (new : GrpcService Bool Nat) interleaved := by
  have finishes : (exec step (new : GrpcService Bool Nat) interleaved).isSome := by decide +kernel
  obtain ⟨s, result⟩ := Option.isSome_iff_exists.mp finishes
  exact (correct_along_iff (run_exec_iff.mpr result)).mpr (meets_of_check (by decide +kernel))

/-- The caller reads the future from a context that `RunClient` has deleted. -/
theorem overtaken_not_correct :
    ∃ s, Run (Exec step) (new : GrpcService Bool Nat) overtaken s ∧ ¬ Correct s := by
  have result : (exec step (new : GrpcService Bool Nat) overtaken).any fun s =>
      s.usedAfterDelete = true := by decide +kernel
  rw [Option.any_eq_true] at result
  obtain ⟨s, result, used⟩ := result
  rw [decide_eq_true_eq] at used
  refine ⟨s, run_exec_iff.mpr result, fun correct => ?_⟩
  rw [correct.alive] at used
  cases used

end Step

end GrpcService
end XLN
