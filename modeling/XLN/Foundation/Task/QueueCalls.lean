import XLN.Lib.Transition
import XLN.Foundation.Task.BlockingQueue

/-!
# Calls on a blocking queue

A thread that has a `LifoSemBlockingQueue` with the policy `THROW` for itself calls `Add`, `Take` and
`TryTake`. Items carry the number of the `Add` they come from, so that two equal ones can be told
apart. Items are pointers in the code, which a move leaves as they are. `Lawful` is what a bounded
first-in-first-out queue does. As `Add` writes every item twice, it holds along a run exactly if no
`Add` meets a queue with one place left and nothing is taken after the first item (`lawful_along_iff`).
-/

namespace XLN
open Transition

namespace LifoSemBlockingQueue

section Methods
variable {T : Type}

/-- At most `n` steps of `Add` from `pc`, fewer if the thread has to wait; where it is then. -/
def addSteps (kBehavior : QueueBehaviorIfFull) (item : T) :
    Nat → AddPc → LifoSemBlockingQueue T → AddPc × LifoSemBlockingQueue T
  | 0, pc, q => (pc, q)
  | n + 1, pc, q =>
    match q.add kBehavior item pc with
    | some (pc', q') => addSteps kBehavior item n pc' q'
    | none => (pc, q)

/-- `Add` while nobody else uses the queue: `write`, `blockingWrite` and `post`. -/
def addAlone (kBehavior : QueueBehaviorIfFull) (item : T) (q : LifoSemBlockingQueue T) :
    AddPc × LifoSemBlockingQueue T :=
  addSteps kBehavior item 3 .start q

/-- At most `n` rounds of the loop of `Take`, or `none` if they end in a `wait`. -/
def takeRounds : Nat → LifoSemBlockingQueue T → Option (T × LifoSemBlockingQueue T)
  | 0, _ => none
  | n + 1, q =>
    match q.readIfNotEmpty with
    | some r => some r
    | none => q.wait.bind (takeRounds n)

/-- `Take` while nobody else uses the queue: each round but the first one needs a `post`. -/
def takeAlone (q : LifoSemBlockingQueue T) : Option (T × LifoSemBlockingQueue T) :=
  takeRounds (q.m_LifoSem + 1) q

/-- `TryTake`, which returns whether it has taken an item. -/
def tryTake (q : LifoSemBlockingQueue T) : Option (T × LifoSemBlockingQueue T) :=
  q.readIfNotEmpty

end Methods

variable {T : Type} {q : LifoSemBlockingQueue T} {item : T}

/-- What `Add` with the policy `THROW` does, by the room that is left. -/
inductive Added (item : T) (q : LifoSemBlockingQueue T) : AddPc × LifoSemBlockingQueue T → Prop where
  | thrown :
    q.capacity ≤ q.m_Queue.length →
    Added item q (.thrown, q)
  | blocked :
    q.m_Queue.length + 1 = q.capacity →
    Added item q (.blockingWrite, { q with m_Queue := q.m_Queue ++ [item] })
  | returned :
    q.m_Queue.length + 2 ≤ q.capacity →
    Added item q (.returned,
      { q with m_LifoSem := q.m_LifoSem + 1, m_Queue := q.m_Queue ++ [item] ++ [item] })

/-- An item is written where there is room. -/
lemma write_room (room : q.m_Queue.length < q.capacity) :
    q.write item = some { q with m_Queue := q.m_Queue ++ [item] } := by
  unfold write
  exact if_pos room

/-- A full queue takes no item. -/
lemma write_full (full : q.capacity ≤ q.m_Queue.length) : q.write item = none := by
  unfold write
  exact if_neg (Nat.not_lt.mpr full)

/-- What `Add` by one thread does. -/
lemma addAlone_added : Added item q (q.addAlone .THROW item) := by
  unfold addAlone
  by_cases full : q.capacity ≤ q.m_Queue.length
  · have start : q.add .THROW item .start = some (.thrown, q) := by
      unfold add
      rw [write_full full]
    have ended : q.add .THROW item .thrown = none := rfl
    simp only [addSteps, start, ended]
    exact .thrown full
  · have start : q.add .THROW item .start =
        some (.blockingWrite, { q with m_Queue := q.m_Queue ++ [item] }) := by
      unfold add
      rw [write_room (by omega)]
    have length : (q.m_Queue ++ [item]).length = q.m_Queue.length + 1 := List.length_append
    -- the second write of the item decides
    by_cases last : q.m_Queue.length + 1 = q.capacity
    · have waiting : add .THROW item { q with m_Queue := q.m_Queue ++ [item] } .blockingWrite =
          none := by
        unfold add
        simp only
        rw [write_full (by simp only [length]; omega)]
        rfl
      simp only [addSteps, start, waiting]
      exact .blocked last
    · have again : add .THROW item { q with m_Queue := q.m_Queue ++ [item] } .blockingWrite =
          some (.post, { q with m_Queue := q.m_Queue ++ [item] ++ [item] }) := by
        unfold add
        simp only
        rw [write_room (by simp only [length]; omega)]
        rfl
      simp only [addSteps, start, again]
      exact .returned (by omega)

/-- An empty queue gives nothing in any number of rounds. -/
lemma takeRounds_nil {n : Nat} (empty : q.m_Queue = []) : q.takeRounds n = none := by
  induction n generalizing q with
  | zero => rfl
  | succ n ih =>
    have nothing : q.readIfNotEmpty = none := by
      unfold readIfNotEmpty
      rw [empty]
    rw [takeRounds, nothing]
    cases waited : q.wait with
    | none => rfl
    | some q' => exact ih ((wait_m_Queue waited).trans empty)

/-- `Take` returns if and only if there is an item. -/
lemma takeAlone_eq : q.takeAlone = q.tryTake := by
  cases items : q.m_Queue with
  | nil =>
    rw [takeAlone, takeRounds_nil items, tryTake, readIfNotEmpty, items]
  | cons item rest =>
    rw [takeAlone, takeRounds, tryTake, readIfNotEmpty, items]

/-- What `TryTake` gives is the first item. -/
lemma tryTake_some {r : T × LifoSemBlockingQueue T} (h : q.tryTake = some r) :
    ∃ item items, q.m_Queue = item :: items ∧ r = (item, { q with m_Queue := items }) := by
  unfold tryTake readIfNotEmpty at h
  split at h
  next => cases h
  next item items e =>
    cases h
    exact ⟨item, items, e, rfl⟩

/-- `TryTake` gives nothing only if the queue is empty. -/
lemma tryTake_none (h : q.tryTake = none) : q.m_Queue = [] := by
  unfold tryTake readIfNotEmpty at h
  split at h
  next e => exact e
  next => cases h

end LifoSemBlockingQueue

/-- A queue and what a thread has done with it. `adds` is the number of `Add` calls so far, `added` are
    the items of those that have returned; `last` says, if the last call was an `Add`, what the queue
    was before it and where it has come to. -/
structure QueueCalls (T : Type) where
  queue : LifoSemBlockingQueue (Nat × T)
  adds : Nat
  added : List (Nat × T)
  taken : List (Nat × T)
  last : Option (LifoSemBlockingQueue (Nat × T) × AddPc)

namespace QueueCalls

/-- A call on the queue. -/
inductive Call (T : Type) where
  | add (item : T)
  | take
  | tryTake

section Definitions
variable {T : Type}

/-- A new queue. -/
def init (capacity : Nat) : QueueCalls T where
  queue := .new capacity
  adds := 0
  added := []
  taken := []
  last := none

/-- The thread waits for ever inside its last `Add`. -/
def blocked (s : QueueCalls T) : Bool :=
  match s.last with
  | some (_, .returned) | some (_, .thrown) | none => false
  | some _ => true

/-- An item has been taken. -/
def take (s : QueueCalls T) (r : (Nat × T) × LifoSemBlockingQueue (Nat × T)) : QueueCalls T :=
  { s with queue := r.2, taken := s.taken ++ [r.1], last := none }

/-- One call, or `none` if the thread never comes to make it or the call is a `Take` that never
    returns. -/
def step (s : QueueCalls T) (call : Call T) : Option (QueueCalls T) :=
  if s.blocked then none
  else
    match call with
    | .add item =>
      let r := s.queue.addAlone .THROW (s.adds, item)
      some { s with
        queue := r.2
        adds := s.adds + 1
        added := if r.1 = .returned then s.added ++ [(s.adds, item)] else s.added
        last := some (s.queue, r.1) }
    | .take => s.queue.takeAlone.map s.take
    | .tryTake =>
      match s.queue.tryTake with
      | some r => some (s.take r)
      | none => some { s with last := none }

/-- The items come out in the order in which they were added, each at most once; an `Add` throws if
    and only if it finds a full queue, which it then leaves alone, and returns otherwise. -/
structure Lawful (s : QueueCalls T) : Prop where
  order : s.taken <+: s.added
  throws : ∀ before pc, s.last = some (before, pc) →
    (pc = .thrown ↔ before.m_Queue.length = before.capacity)
  unchanged : ∀ before, s.last = some (before, .thrown) → s.queue = before
  ends : ∀ before pc, s.last = some (before, pc) → pc = .thrown ∨ pc = .returned

/-- An `Add` does not find exactly one place left, and nothing is taken after the first item. -/
def Harmless (s : QueueCalls T) : Call T → Prop
  | .add _ => s.queue.m_Queue.length + 1 ≠ s.queue.capacity
  | .take | .tryTake => s.queue.m_Queue = [] ∨ s.taken = []

instance [DecidableEq T] (s : QueueCalls T) : (call : Call T) → Decidable (s.Harmless call)
  | .add _ => inferInstanceAs (Decidable (_ ≠ _))
  | .take | .tryTake => inferInstanceAs (Decidable (_ ∨ _))

/-- Every item that has been added is written twice, and one that an `Add` waits with once. -/
structure Doubled (s : QueueCalls T) : Prop where
  written : ∃ pending, s.taken ++ s.queue.m_Queue = s.added.flatMap (fun x => [x, x]) ++ pending ∧
    (s.blocked = false → pending = [])
  numbers : (s.added.map Prod.fst).Nodup
  below : ∀ x ∈ s.added, x.1 < s.adds
  bounded : s.queue.m_Queue.length ≤ s.queue.capacity

end Definitions

variable {T : Type} {s s' : QueueCalls T} {call : Call T}

/-! ## One call -/

/-- What a call can do. -/
inductive CallMove (s : QueueCalls T) : Call T → QueueCalls T → Prop where
  | add {item pc queue} :
    LifoSemBlockingQueue.Added (s.adds, item) s.queue (pc, queue) →
    CallMove s (.add item) { s with
      queue := queue
      adds := s.adds + 1
      added := if pc = .returned then s.added ++ [(s.adds, item)] else s.added
      last := some (s.queue, pc) }
  | take {call x items} :
    call = .take ∨ call = .tryTake →
    s.queue.m_Queue = x :: items →
    CallMove s call (s.take (x, { s.queue with m_Queue := items }))
  | nothing :
    s.queue.m_Queue = [] →
    CallMove s .tryTake { s with last := none }

/-- Every call is one of these, and none comes while one blocks. -/
lemma step_move (st : Exec step s call s') : s.blocked = false ∧ CallMove s call s' := by
  unfold Exec step at st
  split at st
  next => cases st
  next free =>
    refine ⟨by simpa using free, ?_⟩
    cases call with
    | add item =>
      cases st
      exact .add LifoSemBlockingQueue.addAlone_added
    | take =>
      obtain ⟨r, e, rfl⟩ := Option.map_eq_some_iff.mp st
      rw [LifoSemBlockingQueue.takeAlone_eq] at e
      obtain ⟨x, items, items_eq, rfl⟩ := LifoSemBlockingQueue.tryTake_some e
      exact .take (.inl rfl) items_eq
    | tryTake =>
      simp only at st
      split at st
      next r e =>
        cases st
        obtain ⟨x, items, items_eq, rfl⟩ := LifoSemBlockingQueue.tryTake_some e
        exact .take (.inr rfl) items_eq
      next e =>
        cases st
        exact .nothing (LifoSemBlockingQueue.tryTake_none e)

/-! ## Runs of calls -/

/-- A new queue holds nothing. -/
lemma doubled_init (capacity : Nat) : (init capacity : QueueCalls T).Doubled where
  written := ⟨[], rfl, fun _ => rfl⟩
  numbers := .nil
  below := nofun
  bounded := Nat.zero_le _

/-- While no call blocks, every item that was added is there twice or has been taken. -/
lemma Doubled.unblocked (h : s.Doubled) (free : s.blocked = false) :
    s.taken ++ s.queue.m_Queue = s.added.flatMap fun x => [x, x] := by
  obtain ⟨pending, written, none⟩ := h.written
  rw [written, none free, List.append_nil]

/-- Whatever is called, each item that has been added is written twice. -/
lemma doubled_step (h : s.Doubled) (st : Exec step s call s') : s'.Doubled := by
  obtain ⟨free, move⟩ := step_move st
  have written := h.unblocked free
  cases move with
  | @add item pc queue added =>
    have below : ∀ x ∈ s.added, x.1 < s.adds + 1 := fun x mem => Nat.lt_succ_of_lt (h.below x mem)
    cases added with
    | thrown full => exact ⟨⟨[], by simpa using written, fun _ => rfl⟩, h.numbers, below, h.bounded⟩
    | blocked last =>
      refine ⟨⟨[(s.adds, item)], ?_, nofun⟩, h.numbers, below, ?_⟩
      · show s.taken ++ (s.queue.m_Queue ++ [(s.adds, item)]) = _
        rw [← List.append_assoc, written]
        rfl
      · show (s.queue.m_Queue ++ [(s.adds, item)]).length ≤ s.queue.capacity
        rw [List.length_append]
        exact Nat.le_of_eq last
    | returned room =>
      refine ⟨⟨[], ?_, fun _ => rfl⟩, ?_, ?_, ?_⟩
      · show s.taken ++ (s.queue.m_Queue ++ [(s.adds, item)] ++ [(s.adds, item)]) =
          (s.added ++ [(s.adds, item)]).flatMap (fun x => [x, x]) ++ []
        rw [List.flatMap_append, ← written]
        simp
      · show ((s.added ++ [(s.adds, item)]).map Prod.fst).Nodup
        rw [List.map_append, List.nodup_append]
        refine ⟨h.numbers, (List.nodup_cons.mpr ⟨List.not_mem_nil, .nil⟩), fun n old m new e => ?_⟩
        obtain ⟨x, mem, rfl⟩ := List.mem_map.mp old
        cases List.mem_singleton.mp new
        exact absurd e (Nat.ne_of_lt (h.below x mem))
      · intro x mem
        rcases List.mem_append.mp mem with mem | mem
        · exact below x mem
        · cases List.mem_singleton.mp mem
          exact Nat.lt_succ_self _
      · show (s.queue.m_Queue ++ [(s.adds, item)] ++ [(s.adds, item)]).length ≤ s.queue.capacity
        simpa using room
  | @take call x items which e =>
    rw [e] at written
    refine ⟨⟨[], ?_, fun _ => rfl⟩, h.numbers, h.below, ?_⟩
    · show s.taken ++ [x] ++ items = _
      rw [List.append_assoc, List.append_nil]
      exact written
    · have bounded := h.bounded
      rw [e] at bounded
      exact Nat.le_of_succ_le bounded
  | nothing empty => exact ⟨⟨[], by simpa using written, fun _ => rfl⟩, h.numbers, h.below, h.bounded⟩

/-- The second item taken is the first one once more. -/
lemma Doubled.taken_le (h : s.Doubled) (free : s.blocked = false) (order : s.taken <+: s.added) :
    s.taken.length ≤ 1 := by
  have written := h.unblocked free
  have numbers := h.numbers
  obtain ⟨rest, e⟩ := order
  rw [← e] at written numbers
  cases taken : s.taken with
  | nil => exact Nat.zero_le _
  | cons x more =>
    cases more with
    | nil => exact Nat.le_refl _
    | cons y more =>
      rw [taken] at written numbers
      obtain rfl : y = x := (List.cons.inj (List.cons.inj written).2).1
      simp at numbers

/-- No `Add` of a lawful state waits for ever. -/
lemma Lawful.free (h : s.Lawful) : s.blocked = false := by
  unfold blocked
  cases last : s.last with
  | none => rfl
  | some r =>
    obtain ⟨before, pc⟩ := r
    rcases h.ends before pc last with rfl | rfl
    · rfl
    · rfl

/-- A harmless call keeps the calls lawful. -/
lemma lawful_step (doubled : s.Doubled) (lawful : s.Lawful) (harmless : s.Harmless call)
    (st : Exec step s call s') : s'.Lawful := by
  obtain ⟨free, move⟩ := step_move st
  cases move with
  | @add item pc queue added =>
    cases added with
    | thrown full =>
      have e : s.queue.m_Queue.length = s.queue.capacity := Nat.le_antisymm doubled.bounded full
      refine ⟨lawful.order, fun before pc h => ?_, fun before h => ?_, fun before pc h => ?_⟩
      · cases h
        exact ⟨fun _ => e, fun _ => rfl⟩
      · cases h
        rfl
      · cases h
        exact .inl rfl
    | blocked last => exact absurd last harmless
    | returned room =>
      refine ⟨lawful.order.trans (List.prefix_append _ _), fun before pc h => ?_,
        fun before h => ?_, fun before pc h => ?_⟩
      · cases h
        exact ⟨nofun, fun full => by omega⟩
      · cases h
      · cases h
        exact .inr rfl
  | @take call x items which e =>
    have first : s.taken = [] := by
      rcases which with rfl | rfl
      all_goals exact harmless.resolve_left (by rw [e]; exact List.cons_ne_nil x items)
    have written := doubled.unblocked free
    rw [first, e] at written
    refine ⟨?_, nofun, nofun, nofun⟩
    show s.taken ++ [x] <+: s.added
    rw [first]
    cases added : s.added with
    | nil =>
      rw [added] at written
      cases written
    | cons y more =>
      rw [added] at written
      rw [(List.cons.inj written).1]
      exact List.prefix_append [y] more
  | nothing empty => exact ⟨lawful.order, nofun, nofun, nofun⟩

/-- An `Add` that finds one place left waits for ever, and the second item taken is a wrong one. -/
lemma not_lawful_step (doubled : s.Doubled) (harmful : ¬ s.Harmless call)
    (st : Exec step s call s') : ¬ s'.Lawful := by
  intro lawful
  have doubled' := doubled_step doubled st
  obtain ⟨free, move⟩ := step_move st
  cases move with
  | @add item pc queue added =>
    cases added with
    | thrown full =>
      apply harmful
      intro last
      omega
    | blocked last => exact Bool.noConfusion lawful.free
    | returned room =>
      apply harmful
      intro last
      omega
  | @take call x items which e =>
    have short := doubled'.taken_le rfl lawful.order
    have none : s.taken = [] := by
      have length : (s.taken ++ [x]).length ≤ 1 := short
      rw [List.length_append] at length
      exact List.length_eq_zero_iff.mp (Nat.le_zero.mp (Nat.le_of_succ_le_succ length))
    rcases which with rfl | rfl
    · exact harmful (.inr none)
    · exact harmful (.inr none)
  | nothing empty => exact harmful (.inl empty)

/-- The queue is lawful along a run of calls if and only if every call is harmless where it is made. -/
theorem lawful_along_iff (capacity : Nat) {l : List (Call T)}
    (run : Run (Exec step) (init capacity) l s) :
    Along (Exec step) Lawful (init capacity) l ↔ Meets (Exec step) Harmless (init capacity) l := by
  have lawful : (init capacity : QueueCalls T).Lawful := ⟨List.nil_prefix, nofun, nofun, nofun⟩
  apply along_iff_meets (Exec.deterministic step) run lawful (doubled_init capacity)
  · exact doubled_step
  · exact lawful_step
  · exact fun doubled _ => not_lawful_step doubled

/-- A queue of five places: an item is added and taken, two more fill the queue, the last one is
    turned away. -/
theorem lawful_along_iff_five :
    let calls : List (Call Nat) := [.add 7, .take, .add 8, .add 9, .add 10]
    ∃ s, Run (Exec step) (init 5) calls s ∧ s.taken = [(0, 7)] ∧
      s.added = [(0, 7), (1, 8), (2, 9)] ∧ Along (Exec step) Lawful (init 5) calls := by
  intro calls
  have state : (exec step (init 5) calls).map (fun s => (s.taken, s.added)) =
      some ([(0, 7)], [(0, 7), (1, 8), (2, 9)]) := by decide
  obtain ⟨s, run, fields⟩ := run_of_map state
  simp only [Prod.mk.injEq] at fields
  obtain ⟨taken, added⟩ := fields
  exact ⟨s, run, taken, added, (lawful_along_iff 5 run).mpr (meets_of_check (by decide))⟩

/-- With room for two, the one item added is taken twice; with room for one, the first `Add` never
    returns. -/
theorem taken_twice :
    (∃ s, Run (Exec step) (init 2) [.add (7 : Nat), .take, .tryTake] s ∧ s.added = [(0, 7)] ∧
      s.taken = [(0, 7), (0, 7)] ∧ ¬ s.Lawful) ∧
    ∃ s, Run (Exec step) (init 1) [.add (7 : Nat)] s ∧ s.blocked = true ∧ s.added = [] ∧
      ¬ s.Lawful := by
  constructor
  · have state : (exec step (init 2) [.add (7 : Nat), .take, .tryTake]).map
        (fun s => (s.added, s.taken)) = some ([(0, 7)], [(0, 7), (0, 7)]) := by decide
    obtain ⟨s, run, fields⟩ := run_of_map state
    simp only [Prod.mk.injEq] at fields
    obtain ⟨added, taken⟩ := fields
    refine ⟨s, run, added, taken, fun lawful => ?_⟩
    have order := lawful.order.length_le
    simp [added, taken] at order
  · have state : (exec step (init 1) [.add (7 : Nat)]).map (fun s => (s.blocked, s.added)) =
        some (true, []) := by decide
    obtain ⟨s, run, fields⟩ := run_of_map state
    simp only [Prod.mk.injEq] at fields
    obtain ⟨blocked, added⟩ := fields
    refine ⟨s, run, blocked, added, fun lawful => ?_⟩
    rw [lawful.free] at blocked
    cases blocked

end QueueCalls
end XLN
