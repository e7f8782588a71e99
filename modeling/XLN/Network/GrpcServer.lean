import XLN.Lib.Transition
import XLN.Foundation.ThreadPool
import Mathlib.Logic.Function.Basic

/-!
# A gRPC server

`Network/GrpcServer.cpp`: `StartServer` starts a thread of the pool and waits until `RunServer` has made a
`grpc::Server` there; the thread then waits in the server until `StopServer` shuts it down, and `StopServer`
waits for the end of the thread and joins it. One thread makes the calls, the threads of the pool run beside
it.

`m_Server` and `m_ServerStarted` are written by the thread of the server, and nothing resets the flag. So the
calls have to come in turn (`Proper`): a second `StartServer` deletes the server in which the first thread
waits, and a second `StopServer` waits again for a baton that it has waited for. In turn, and as long as
`BuildAndStart` succeeds, they do what they are for (`served_of_run`), no thread ever uses a server that is
not there (`sound_of_run`), and they all return: `n` calls take at most `11 * n` steps in all
(`returns_of_run`).
-/

namespace XLN
open Transition

namespace GrpcServer

/-- A `folly::Baton`, which may be waited for once. -/
inductive Baton where
  | fresh
  | posted
  | waited
  deriving DecidableEq

/-- A `grpc::Server`: not made yet, running, after `Shutdown`, deleted. -/
inductive Life where
  | unmade
  | running
  | shutDown
  | deleted
  deriving DecidableEq

/-- A `grpc::Server` and the port that it listens to. -/
structure Server where
  address : String
  life : Life

inductive Call where
  | startServer (address : String)
  | stopServer
  deriving DecidableEq

/-- Where the thread is that makes the calls: between two of them, in `AddThread`, in `StopServer`, or in
    `JoinStoppedThread` with `left` threads to join. -/
inductive CallerPc where
  | ready
  | create
  | addThread (thread : Nat)
  | waitRun
  | shutdown
  | waitExit
  | stopAllThread
  | take (left : Nat)
  | wait (left : Nat)
  | join (thread left : Nat)
  deriving DecidableEq

/-- Where a thread is in `RunServer`: `wait` is before `m_Server->Wait()`, `waiting` in it; `push` and `post`
    are in `AddStoppingThread`. -/
inductive ServerPc where
  | build
  | assign (server : Option Nat)
  | started
  | afterRun
  | wait
  | waiting (server : Nat)
  | push
  | post
  | beforeExit
  | ended
  deriving DecidableEq

end GrpcServer

open GrpcServer in
/-- `GrpcServer` with its threads, the servers that were made and the calls yet to be made. -/
structure GrpcServer where
  m_ThreadPool : ThreadPool
  m_ThreadPtr : Option Nat
  m_Address : String
  m_Server : Option Nat
  m_ServerStarted : Bool
  nextUID : Nat
  threads : Nat → ServerPc
  m_ThreadStartBarrier : Nat → Baton
  m_ThreadEndBarrier : Nat → Baton
  nextServer : Nat
  servers : Nat → Server
  calls : List Call
  pc : CallerPc

namespace GrpcServer

/-- The constructor. -/
def new (calls : List Call) : GrpcServer where
  m_ThreadPool := .new
  m_ThreadPtr := none
  m_Address := ""
  m_Server := none
  m_ServerStarted := false
  nextUID := 0
  threads := fun _ => .ended
  m_ThreadStartBarrier := fun _ => .fresh
  m_ThreadEndBarrier := fun _ => .fresh
  nextServer := 0
  servers := fun _ => ⟨"", .unmade⟩
  calls := calls
  pc := .ready

/-- What happens to a server. -/
def become (server : Nat) (life : Life) (s : GrpcServer) : GrpcServer :=
  { s with servers := Function.update s.servers server { s.servers server with life } }

/-- A call begins. -/
def begin (s : GrpcServer) : Call → GrpcServer
  | .startServer address => { s with m_Address := address, pc := .create }
  | .stopServer => if s.m_ServerStarted then { s with pc := .shutdown } else s

/-- One step of the thread that makes the calls. Gives `none` while it waits, and if a pointer is null. -/
def caller (s : GrpcServer) : Option GrpcServer :=
  match s.pc with
  | .ready =>
    match s.calls with
    | call :: calls => some ({ s with calls := calls }.begin call)
    | [] => none
  | .create =>
    -- `SetThread` starts the thread before it is in the list
    some { s with
      nextUID := s.nextUID + 1
      threads := Function.update s.threads s.nextUID .build
      pc := .addThread s.nextUID }
  | .addThread thread =>
    some { s with
      m_ThreadPool := { s.m_ThreadPool with m_Threads := s.m_ThreadPool.m_Threads.add thread }
      m_ThreadPtr := some thread
      pc := .waitRun }
  | .waitRun =>
    s.m_ThreadPtr.bind fun thread =>
      if s.m_ThreadStartBarrier thread = .posted then
        some { s with
          m_ThreadStartBarrier := Function.update s.m_ThreadStartBarrier thread .waited
          pc := .ready }
      else none
  | .shutdown => s.m_Server.map fun server => { s.become server .shutDown with pc := .waitExit }
  | .waitExit =>
    s.m_ThreadPtr.bind fun thread =>
      if s.m_ThreadEndBarrier thread = .posted then
        some { s with
          m_ThreadEndBarrier := Function.update s.m_ThreadEndBarrier thread .waited
          pc := .stopAllThread }
      else none
  | .stopAllThread => some { s with pc := .take s.m_ThreadPool.m_Threads.size }
  | .take 0 => some { s with pc := .ready }
  | .take (left + 1) =>
    match s.m_ThreadPool.m_StoppedThread.pop with
    | some (thread, queue) =>
      some { s with
        m_ThreadPool := { s.m_ThreadPool with m_StoppedThread := queue }
        pc := .join thread left }
    | none => some { s with pc := .wait (left + 1) }
  | .wait left =>
    s.m_ThreadPool.m_StoppedThread.wait.map fun queue =>
      { s with
        m_ThreadPool := { s.m_ThreadPool with m_StoppedThread := queue }
        pc := .take left }
  | .join thread left =>
    if s.threads thread = .ended then
      (s.m_ThreadPool.m_Threads.remove thread).map fun threads =>
        { s with m_ThreadPool := { s.m_ThreadPool with m_Threads := threads }, pc := .take left }
    else none

/-- One step of `RunServer` on the thread `t`; `builds` says whether `BuildAndStart` succeeds. -/
def runServer (t : Nat) (builds : Bool) (s : GrpcServer) : Option GrpcServer :=
  match s.threads t with
  | .build =>
    if builds then
      some { s with
        nextServer := s.nextServer + 1
        servers := Function.update s.servers s.nextServer ⟨s.m_Address, .running⟩
        threads := Function.update s.threads t (.assign (some s.nextServer)) }
    else some { s with threads := Function.update s.threads t (.assign none) }
  | .assign server =>
    -- the move deletes the server that was there
    let s := match s.m_Server with
      | some old => s.become old .deleted
      | none => s
    some { s with m_Server := server, threads := Function.update s.threads t .started }
  | .started =>
    some { s with m_ServerStarted := true, threads := Function.update s.threads t .afterRun }
  | .afterRun =>
    some { s with
      m_ThreadStartBarrier := Function.update s.m_ThreadStartBarrier t .posted
      threads := Function.update s.threads t .wait }
  | .wait => s.m_Server.map fun server => { s with threads := Function.update s.threads t (.waiting server) }
  | .waiting server =>
    if (s.servers server).life = .shutDown then
      some { s with threads := Function.update s.threads t .push }
    else none
  | .push =>
    some { s with
      m_ThreadPool := { s.m_ThreadPool with m_StoppedThread := s.m_ThreadPool.m_StoppedThread.push t }
      threads := Function.update s.threads t .post }
  | .post =>
    some { s with
      m_ThreadPool := { s.m_ThreadPool with m_StoppedThread := s.m_ThreadPool.m_StoppedThread.post }
      threads := Function.update s.threads t .beforeExit }
  | .beforeExit =>
    some { s with
      m_ThreadEndBarrier := Function.update s.m_ThreadEndBarrier t .posted
      threads := Function.update s.threads t .ended }
  | .ended => none

/-- The next step: of the thread that makes the calls, or of a thread of the pool. -/
inductive Event where
  | caller
  | runServer (t : Nat)
  | buildFails (t : Nat)
  deriving DecidableEq

def step (s : GrpcServer) : Event → Option GrpcServer
  | .caller => s.caller
  | .runServer t => s.runServer t true
  | .buildFails t => s.runServer t false

/-- `BuildAndStart` has always succeeded. -/
def Builds (l : List Event) : Prop :=
  ∀ t, .buildFails t ∉ l

/-- What the calls so far are about: no server yet, one, none any more. -/
inductive Phase where
  | never
  | running
  | stopped

/-- The calls come in turn. -/
def Proper : Phase → List Call → Prop
  | _, [] => True
  | .never, .stopServer :: calls => Proper .never calls
  | .running, .stopServer :: calls => Proper .stopped calls
  | .stopped, .stopServer :: _ => False
  | .running, .startServer _ :: _ => False
  | _, .startServer _ :: calls => Proper .running calls

/-- The address at which a server is to be after a call. -/
def listen (_ : Option String) : Call → Option String
  | .startServer address => some address
  | .stopServer => none

/-- After some calls. -/
def listening (calls : List Call) : Option String :=
  calls.foldl listen none

/-- A server that can be used. -/
def Alive (s : GrpcServer) (server : Nat) : Prop :=
  (s.servers server).life = .running ∨ (s.servers server).life = .shutDown

/-- The servers that the next steps use are there. -/
structure Sound (s : GrpcServer) : Prop where
  shutdown : s.pc = .shutdown → ∃ server, s.m_Server = some server ∧ s.Alive server
  wait : ∀ t, s.threads t = .wait → ∃ server, s.m_Server = some server ∧ s.Alive server
  waiting : ∀ t server, s.threads t = .waiting server → s.Alive server

/-- At an address one server is running, and no other; the thread of the call, the only one, waits in it or
    is about to. At none, no server is running and nothing is left of the threads. -/
inductive Serves (s : GrpcServer) : Option String → Prop where
  | some {address t server} :
    s.m_ServerStarted = true →
    s.m_Server = some server →
    s.servers server = ⟨address, .running⟩ →
    (∀ other, (s.servers other).life = .running → other = server) →
    s.m_ThreadPtr = some t →
    s.m_ThreadPool.m_Threads.m_Threads = [t] →
    s.threads t = .wait ∨ s.threads t = .waiting server →
    (∀ w, w ≠ t → s.threads w = .ended) →
    Serves s (some address)
  | none :
    (∀ server, (s.servers server).life ≠ .running) →
    s.m_ThreadPool.m_Threads.m_Threads = [] →
    s.m_ThreadPool.m_StoppedThread.m_Tasks = [] →
    (∀ w, s.threads w = .ended) →
    Serves s none

/-- All threads but `current` have ended, no server but `server` is running, and what is not made yet has not
    been used. -/
structure Base (current server : Option Nat) (s : GrpcServer) : Prop where
  ended : ∀ w, some w ≠ current → s.threads w = .ended
  below : ∀ w, some w = current → w < s.nextUID
  starts : ∀ w, s.nextUID ≤ w → s.m_ThreadStartBarrier w = .fresh
  ends : ∀ w, s.nextUID ≤ w → s.m_ThreadEndBarrier w = .fresh
  one : ∀ k, (s.servers k).life = .running → some k = server
  known : ∀ k, s.m_Server = some k → k < s.nextServer

/-- The contents of the pool. -/
structure Holds (threads tasks : List Nat) (s : GrpcServer) : Prop where
  threads : s.m_ThreadPool.m_Threads.m_Threads = threads
  tasks : s.m_ThreadPool.m_StoppedThread.m_Tasks = tasks

/-- The thread `t` waits in a server, or is about to. -/
inductive Up (s : GrpcServer) (t : Nat) (address : String) : Nat → Prop where
  | wait {k} :
    s.threads t = .wait →
    s.m_ServerStarted = true →
    s.m_Server = some k →
    s.servers k = ⟨address, .running⟩ →
    Base (some t) (some k) s →
    Up s t address 1
  | waiting {k} :
    s.threads t = .waiting k →
    s.m_ServerStarted = true →
    s.m_Server = some k →
    s.servers k = ⟨address, .running⟩ →
    Base (some t) (some k) s →
    Up s t address 0

/-- The thread `t` brings a server up; the number says how many steps it still does. -/
inductive Starting (s : GrpcServer) (t : Nat) (address : String) : Nat → Prop where
  | build :
    s.threads t = .build →
    s.m_Address = address →
    s.m_ThreadStartBarrier t = .fresh →
    Base (some t) none s →
    Starting s t address 5
  | assign {k} :
    s.threads t = .assign (some k) →
    s.m_Server ≠ some k →
    k < s.nextServer →
    s.servers k = ⟨address, .running⟩ →
    s.m_ThreadStartBarrier t = .fresh →
    Base (some t) (some k) s →
    Starting s t address 4
  | started {k} :
    s.threads t = .started →
    s.m_Server = some k →
    s.servers k = ⟨address, .running⟩ →
    s.m_ThreadStartBarrier t = .fresh →
    Base (some t) (some k) s →
    Starting s t address 3
  | afterRun {k} :
    s.threads t = .afterRun →
    s.m_ServerStarted = true →
    s.m_Server = some k →
    s.servers k = ⟨address, .running⟩ →
    s.m_ThreadStartBarrier t = .fresh →
    Base (some t) (some k) s →
    Starting s t address 2
  | up {n} :
    Up s t address n →
    s.m_ThreadStartBarrier t = .posted →
    Starting s t address n

/-- The server is shut down and the thread `t` comes to its end. -/
inductive Closing (s : GrpcServer) (t : Nat) : Nat → Prop where
  | wait {k} :
    s.threads t = .wait →
    s.m_Server = some k →
    (s.servers k).life = .shutDown →
    Holds [t] [] s →
    s.m_ThreadEndBarrier t = .fresh →
    Closing s t 5
  | waiting {k} :
    s.threads t = .waiting k →
    (s.servers k).life = .shutDown →
    Holds [t] [] s →
    s.m_ThreadEndBarrier t = .fresh →
    Closing s t 4
  | push :
    s.threads t = .push →
    Holds [t] [] s →
    s.m_ThreadEndBarrier t = .fresh →
    Closing s t 3
  | post :
    s.threads t = .post →
    Holds [t] [t] s →
    s.m_ThreadEndBarrier t = .fresh →
    Closing s t 2
  | beforeExit :
    s.threads t = .beforeExit →
    Holds [t] [t] s →
    s.m_ThreadEndBarrier t = .fresh →
    Closing s t 1
  | ended :
    s.threads t = .ended →
    Holds [t] [t] s →
    s.m_ThreadEndBarrier t = .posted →
    Closing s t 0

/-- Where a call is, the address at which there is a server when it returns, and how many steps it and the
    thread still do. -/
inductive Stage (s : GrpcServer) : Phase → Option String → Nat → Prop where
  | never :
    s.pc = .ready →
    s.m_ServerStarted = false →
    Holds [] [] s →
    Base none none s →
    Stage s .never none 0
  | stopped :
    s.pc = .ready →
    Holds [] [] s →
    Base none none s →
    Stage s .stopped none 0
  | create :
    s.pc = .create →
    Holds [] [] s →
    Base none none s →
    Stage s .running (some s.m_Address) 8
  | addThread {t address n} :
    s.pc = .addThread t →
    Holds [] [] s →
    s.m_ThreadEndBarrier t = .fresh →
    Starting s t address n →
    Stage s .running (some address) (n + 2)
  | waitRun {t address n} :
    s.pc = .waitRun →
    s.m_ThreadPtr = some t →
    Holds [t] [] s →
    s.m_ThreadEndBarrier t = .fresh →
    Starting s t address n →
    Stage s .running (some address) (n + 1)
  | serving {t address n} :
    s.pc = .ready →
    s.m_ThreadPtr = some t →
    Holds [t] [] s →
    s.m_ThreadEndBarrier t = .fresh →
    Up s t address n →
    Stage s .running (some address) n
  | shutdown {t address n} :
    s.pc = .shutdown →
    s.m_ThreadPtr = some t →
    Holds [t] [] s →
    s.m_ThreadEndBarrier t = .fresh →
    Up s t address n →
    Stage s .stopped none (n + 10)
  | waitExit {t n} :
    s.pc = .waitExit →
    s.m_ThreadPtr = some t →
    Closing s t n →
    Base (some t) none s →
    Stage s .stopped none (n + 5)
  | stopAllThread {t} :
    s.pc = .stopAllThread →
    Holds [t] [t] s →
    Base none none s →
    Stage s .stopped none 4
  | take {t} :
    s.pc = .take 1 →
    Holds [t] [t] s →
    Base none none s →
    Stage s .stopped none 3
  | join {t} :
    s.pc = .join t 0 →
    Holds [t] [] s →
    Base none none s →
    Stage s .stopped none 2
  | returns :
    s.pc = .take 0 →
    Holds [] [] s →
    Base none none s →
    Stage s .stopped none 1

/-- What a thread that runs a server leaves alone. -/
structure Frame (s s' : GrpcServer) : Prop where
  pc : s'.pc = s.pc
  calls : s'.calls = s.calls
  m_ThreadPool : s'.m_ThreadPool = s.m_ThreadPool
  m_ThreadPtr : s'.m_ThreadPtr = s.m_ThreadPtr
  m_ThreadEndBarrier : s'.m_ThreadEndBarrier = s.m_ThreadEndBarrier

variable {s s' : GrpcServer} {t w n : Nat} {address : String} {current server : Option Nat}

/-- Only the current thread can do a step. -/
lemma Base.current_of_step {b : Bool} (base : Base current server s) (h : s.runServer w b = some s') :
    some w = current := by
  by_contra ne
  rw [runServer, base.ended w ne] at h
  cases h

/-- The current thread goes on, the servers stay. -/
lemma Base.advance {pc : ServerPc} (base : Base (some t) server s) :
    Base (some t) server { s with threads := Function.update s.threads t pc } := by
  refine ⟨fun w ne => ?_, base.below, base.starts, base.ends, base.one, base.known⟩
  have other : w ≠ t := fun e => ne (congrArg some e)
  change Function.update s.threads t pc w = .ended
  rw [Function.update_of_ne other]
  exact base.ended w ne

/-- The start baton of the current thread may change. -/
lemma Base.start {b : Baton} (base : Base (some t) server s) :
    Base (some t) server { s with
      m_ThreadStartBarrier := Function.update s.m_ThreadStartBarrier t b } := by
  refine ⟨base.ended, base.below, fun w le => ?_, base.ends, base.one, base.known⟩
  have other : w ≠ t := fun e => absurd (base.below t rfl) (Nat.not_lt.mpr (e ▸ le))
  change Function.update s.m_ThreadStartBarrier t b w = .fresh
  rw [Function.update_of_ne other]
  exact base.starts w le

/-- The end baton of the current thread may change. -/
lemma Base.end {b : Baton} (base : Base (some t) server s) :
    Base (some t) server { s with
      m_ThreadEndBarrier := Function.update s.m_ThreadEndBarrier t b } := by
  refine ⟨base.ended, base.below, base.starts, fun w le => ?_, base.one, base.known⟩
  have other : w ≠ t := fun e => absurd (base.below t rfl) (Nat.not_lt.mpr (e ▸ le))
  change Function.update s.m_ThreadEndBarrier t b w = .fresh
  rw [Function.update_of_ne other]
  exact base.ends w le

/-- The other members do not matter. -/
lemma Base.set {pool : ThreadPool} {ptr : Option Nat} {flag : Bool} {pc : CallerPc} {calls : List Call}
    {address : String} (base : Base current server s) :
    Base current server { s with
      m_ThreadPool := pool
      m_ThreadPtr := ptr
      m_ServerStarted := flag
      m_Address := address
      pc := pc
      calls := calls } :=
  ⟨base.ended, base.below, base.starts, base.ends, base.one, base.known⟩

/-- A thread that has ended is no longer the current one. -/
lemma Base.leave (base : Base (some t) server s) (ended : s.threads t = .ended) : Base none server s := by
  refine ⟨fun w _ => ?_, nofun, base.starts, base.ends, base.one, base.known⟩
  by_cases e : w = t
  · rw [e]
    exact ended
  · exact base.ended w fun same => e (Option.some.inj same)

/-- No server but the one that stops running was running. -/
lemma Base.stop {k : Nat} {life : Life} (base : Base current (some k) s) (ne : life ≠ .running) :
    Base current none (s.become k life) := by
  refine ⟨base.ended, base.below, base.starts, base.ends, fun j running => ?_, base.known⟩
  change (Function.update s.servers k _ j).life = .running at running
  by_cases e : j = k
  · rw [e, Function.update_self] at running
    exact absurd running ne
  · rw [Function.update_of_ne e] at running
    exact absurd (Option.some.inj (base.one j running)) e

/-- A thread whose server is up is the current one. -/
lemma Up.base (up : Up s t address n) : ∃ server, Base (some t) server s := by
  cases up with
  | wait _ _ _ _ base => exact ⟨_, base⟩
  | waiting _ _ _ _ base => exact ⟨_, base⟩

/-- A thread that brings a server up is the current one. -/
lemma Starting.base (starting : Starting s t address n) : ∃ server, Base (some t) server s := by
  cases starting with
  | build _ _ _ base => exact ⟨_, base⟩
  | assign _ _ _ _ _ base => exact ⟨_, base⟩
  | started _ _ _ _ base => exact ⟨_, base⟩
  | afterRun _ _ _ _ _ base => exact ⟨_, base⟩
  | up up _ => exact up.base

/-- The thread enters `Wait` of the server that the pointer is to. -/
lemma runServer_wait {k : Nat} {b : Bool} (pc : s.threads t = .wait) (ptr : s.m_Server = some k) :
    s.runServer t b = some { s with threads := Function.update s.threads t (.waiting k) } := by
  rw [runServer, pc]
  exact Option.map_eq_some_iff.mpr ⟨k, ptr, rfl⟩

/-- A step of the thread of a running server is the one into `Wait`. -/
lemma Up.step (up : Up s t address n) (h : s.runServer w true = some s') :
    n = 1 ∧ Up s' t address 0 ∧ Frame s s' ∧ s'.m_ThreadStartBarrier = s.m_ThreadStartBarrier := by
  obtain ⟨_, base⟩ := up.base
  cases base.current_of_step h
  cases up with
  | wait pc flag ptr server base =>
    cases (runServer_wait pc ptr).symm.trans h
    exact ⟨rfl, .waiting (Function.update_self ..) flag ptr server base.advance, ⟨rfl, rfl, rfl, rfl, rfl⟩,
      rfl⟩
  | waiting pc flag ptr server base =>
    rw [runServer, pc] at h
    simp [server] at h

/-- Where the server of a new thread goes. -/
lemma Base.build {address : String} (base : Base (some t) none s) :
    Base (some t) (some s.nextServer) { s with
      nextServer := s.nextServer + 1
      servers := Function.update s.servers s.nextServer ⟨address, .running⟩ } := by
  refine ⟨base.ended, base.below, base.starts, base.ends, fun k running => ?_, fun k e => ?_⟩
  · change (Function.update s.servers s.nextServer _ k).life = .running at running
    by_cases e : k = s.nextServer
    · rw [e]
    · rw [Function.update_of_ne e] at running
      exact absurd (base.one k running) nofun
  · exact Nat.lt_succ_of_lt (base.known k e)

/-- The server that is deleted was not the running one. -/
lemma Base.assign {old k : Nat} (base : Base (some t) (some k) s) (lt : k < s.nextServer) :
    Base (some t) (some k) { s.become old .deleted with m_Server := some k } := by
  refine ⟨base.ended, base.below, base.starts, base.ends, fun j running => ?_, fun j e => ?_⟩
  · change (Function.update s.servers old _ j).life = .running at running
    by_cases e : j = old
    · rw [e, Function.update_self] at running
      cases running
    · rw [Function.update_of_ne e] at running
      exact base.one j running
  · exact Option.some.inj e ▸ lt

/-- One step of a thread that brings a server up. -/
lemma Starting.step (starting : Starting s t address n) (h : s.runServer w true = some s') :
    ∃ m, n = m + 1 ∧ Starting s' t address m ∧ Frame s s' := by
  obtain ⟨_, base⟩ := starting.base
  cases base.current_of_step h
  cases starting with
  | build pc at_address fresh base =>
    rw [runServer, pc] at h
    simp only [↓reduceIte, Option.some.injEq] at h
    subst h
    refine ⟨4, rfl, .assign (Function.update_self ..) (fun e => ?_) (Nat.lt_succ_self _) ?_ fresh
      base.build.advance, ⟨rfl, rfl, rfl, rfl, rfl⟩⟩
    · exact Nat.lt_irrefl _ (base.known _ e)
    · change Function.update s.servers s.nextServer _ s.nextServer = _
      rw [Function.update_self, at_address]
  | @assign k pc other lt server fresh base =>
    rw [runServer, pc] at h
    cases old : s.m_Server with
    | none =>
      simp only [old, Option.some.injEq] at h
      subst h
      have assigned : Base (some t) (some k) { s with m_Server := some k } :=
        ⟨base.ended, base.below, base.starts, base.ends, base.one, fun j e => Option.some.inj e ▸ lt⟩
      exact ⟨3, rfl, .started (Function.update_self ..) rfl server fresh assigned.advance,
        ⟨rfl, rfl, rfl, rfl, rfl⟩⟩
    | some j =>
      simp only [old, Option.some.injEq] at h
      subst h
      refine ⟨3, rfl, .started (Function.update_self ..) rfl ?_ fresh (base.assign lt).advance,
        ⟨rfl, rfl, rfl, rfl, rfl⟩⟩
      change Function.update s.servers j _ k = _
      rw [Function.update_of_ne fun e => other (old.trans (congrArg some e.symm))]
      exact server
  | started pc ptr server fresh base =>
    rw [runServer, pc] at h
    cases h
    exact ⟨2, rfl, .afterRun (Function.update_self ..) rfl ptr server fresh base.advance.set,
      ⟨rfl, rfl, rfl, rfl, rfl⟩⟩
  | afterRun pc flag ptr server fresh base =>
    rw [runServer, pc] at h
    cases h
    exact ⟨1, rfl, .up (.wait (Function.update_self ..) flag ptr server base.start.advance)
      (Function.update_self ..), ⟨rfl, rfl, rfl, rfl, rfl⟩⟩
  | up up posted =>
    obtain ⟨rfl, up, frame, same⟩ := up.step h
    exact ⟨0, rfl, .up up (same ▸ posted), frame⟩

/-- One step of a thread whose server is shut down. -/
lemma Closing.step (closing : Closing s t n) (base : Base (some t) none s)
    (h : s.runServer w true = some s') :
    ∃ m, n = m + 1 ∧ Closing s' t m ∧ Base (some t) none s' ∧ s'.pc = s.pc ∧ s'.calls = s.calls ∧
      s'.m_ThreadPtr = s.m_ThreadPtr := by
  cases base.current_of_step h
  cases closing with
  | wait pc ptr server holds fresh =>
    cases (runServer_wait pc ptr).symm.trans h
    exact ⟨4, rfl, .waiting (Function.update_self ..) server ⟨holds.threads, holds.tasks⟩ fresh, base.advance,
      rfl, rfl, rfl⟩
  | waiting pc server holds fresh =>
    rw [runServer, pc] at h
    simp only [server, ↓reduceIte, Option.some.injEq] at h
    subst h
    exact ⟨3, rfl, .push (Function.update_self ..) ⟨holds.threads, holds.tasks⟩ fresh, base.advance,
      rfl, rfl, rfl⟩
  | push pc holds fresh =>
    rw [runServer, pc] at h
    cases h
    have pushed : (s.m_ThreadPool.m_StoppedThread.push t).m_Tasks = [t] := by
      rw [TaskBarrierBlockingQueue.push, holds.tasks]
      rfl
    exact ⟨2, rfl, .post (Function.update_self ..) ⟨holds.threads, pushed⟩ fresh,
      base.advance.set, rfl, rfl, rfl⟩
  | post pc holds fresh =>
    rw [runServer, pc] at h
    cases h
    exact ⟨1, rfl, .beforeExit (Function.update_self ..) ⟨holds.threads, holds.tasks⟩ fresh,
      base.advance.set, rfl, rfl, rfl⟩
  | beforeExit pc holds fresh =>
    rw [runServer, pc] at h
    cases h
    exact ⟨0, rfl, .ended (Function.update_self ..) ⟨holds.threads, holds.tasks⟩ (Function.update_self ..),
      base.end.advance, rfl, rfl, rfl⟩
  | ended pc _ _ =>
    rw [runServer, pc] at h
    cases h

/-- How a step goes on with the calls: with the one that is being made, or with the next one. -/
inductive Goes (s s' : GrpcServer) (before after : Option String) (n m : Nat) : Prop where
  | same :
    s'.calls = s.calls →
    after = before →
    n = m + 1 →
    Goes s s' before after n m
  | next {call} :
    s.calls = call :: s'.calls →
    after = listen before call →
    m ≤ n + 10 →
    Goes s s' before after n m

/-- What is said while a server is built does not depend on the caller. -/
lemma Starting.congr {pool : ThreadPool} {ptr : Option Nat} {pc : CallerPc}
    (starting : Starting s t address n) :
    Starting { s with m_ThreadPool := pool, m_ThreadPtr := ptr, pc := pc } t address n := by
  cases starting with
  | build pc at_address fresh base => exact .build pc at_address fresh base.set
  | assign pc other lt server fresh base => exact .assign pc other lt server fresh base.set
  | started pc ptr server fresh base => exact .started pc ptr server fresh base.set
  | afterRun pc flag ptr server fresh base => exact .afterRun pc flag ptr server fresh base.set
  | up up posted =>
    cases up with
    | wait pc flag ptr server base => exact .up (.wait pc flag ptr server base.set) posted
    | waiting pc flag ptr server base => exact .up (.waiting pc flag ptr server base.set) posted

/-- The caller returns from `WaitRun`. -/
lemma Up.congr {b : Baton} {pc : CallerPc} (up : Up s t address n) :
    Up { s with
      m_ThreadStartBarrier := Function.update s.m_ThreadStartBarrier t b
      pc := pc } t address n := by
  cases up with
  | wait pc flag ptr server base => exact .wait pc flag ptr server base.start.set
  | waiting pc flag ptr server base => exact .waiting pc flag ptr server base.start.set

/-- The server is up once the start baton was posted. -/
lemma Up.m_ServerStarted (up : Up s t address n) : s.m_ServerStarted = true := by
  cases up with
  | wait _ flag _ _ _ => exact flag
  | waiting _ flag _ _ _ => exact flag

/-- A call begins only between two calls. -/
lemma Stage.begin {phase : Phase} {at_address : Option String} {call : Call} {calls : List Call}
    (stage : Stage s phase at_address n) (pc : s.pc = .ready) (e : s.calls = call :: calls)
    (proper : Proper phase s.calls) :
    ∃ phase' m, Stage ({ s with calls := calls }.begin call) phase' (listen at_address call) m ∧
      ({ s with calls := calls }.begin call).calls = calls ∧ Proper phase' calls ∧ m ≤ n + 10 := by
  rw [e] at proper
  cases stage with
  | never _ flag holds base =>
    cases call with
    | startServer address =>
      exact ⟨.running, 8, .create rfl ⟨holds.threads, holds.tasks⟩ base.set, rfl, proper, by omega⟩
    | stopServer =>
      have skip : { s with calls := calls }.begin .stopServer = { s with calls := calls } := by
        simp [GrpcServer.begin, flag]
      rw [skip]
      exact ⟨.never, 0, .never pc flag ⟨holds.threads, holds.tasks⟩ base.set, rfl, proper, by omega⟩
  | stopped _ holds base =>
    cases call with
    | startServer address =>
      exact ⟨.running, 8, .create rfl ⟨holds.threads, holds.tasks⟩ base.set, rfl, proper, by omega⟩
    | stopServer => exact proper.elim
  | @serving t address n _ ptr holds fresh up =>
    cases call with
    | startServer address => exact proper.elim
    | stopServer =>
      have stop : { s with calls := calls }.begin .stopServer =
          { s with calls := calls, pc := .shutdown } := by
        simp [GrpcServer.begin, up.m_ServerStarted]
      rw [stop]
      refine ⟨.stopped, n + 10, @Stage.shutdown _ t address n rfl ptr ⟨holds.threads, holds.tasks⟩ fresh ?_,
        rfl, proper, Nat.le_refl _⟩
      cases up with
      | wait pc flag ptr server base => exact .wait pc flag ptr server base.set
      | waiting pc flag ptr server base => exact .waiting pc flag ptr server base.set
  | _ => simp_all

/-- The next call begins. -/
lemma caller_begin {call : Call} {calls : List Call} (pc : s.pc = .ready) (e : s.calls = call :: calls) :
    s.caller = some ({ s with calls := calls }.begin call) := by
  simp only [GrpcServer.caller, pc, e]

/-- `RunServer` waits for the start baton. -/
lemma caller_waitRun (pc : s.pc = .waitRun) (ptr : s.m_ThreadPtr = some t) (h : s.caller = some s') :
    s.m_ThreadStartBarrier t = .posted ∧ s' = { s with
      m_ThreadStartBarrier := Function.update s.m_ThreadStartBarrier t .waited
      pc := .ready } := by
  rw [GrpcServer.caller, pc] at h
  obtain ⟨thread, e, h⟩ := Option.bind_eq_some_iff.mp h
  cases ptr.symm.trans e
  split at h
  · exact ⟨‹_›, (Option.some.inj h).symm⟩
  · cases h

/-- `Shutdown` of the server that was built. -/
lemma caller_shutdown {k : Nat} (pc : s.pc = .shutdown) (ptr : s.m_Server = some k) :
    s.caller = some { s.become k .shutDown with pc := .waitExit } := by
  rw [GrpcServer.caller, pc]
  exact Option.map_eq_some_iff.mpr ⟨k, ptr, rfl⟩

/-- The life of the server that is set. -/
lemma become_life {k : Nat} {life : Life} : ((s.become k life).servers k).life = life := by
  change (Function.update s.servers k _ k).life = life
  rw [Function.update_self]

/-- `StopServer` waits for the end baton. -/
lemma caller_waitExit (pc : s.pc = .waitExit) (ptr : s.m_ThreadPtr = some t) (h : s.caller = some s') :
    s.m_ThreadEndBarrier t = .posted ∧ s' = { s with
      m_ThreadEndBarrier := Function.update s.m_ThreadEndBarrier t .waited
      pc := .stopAllThread } := by
  rw [GrpcServer.caller, pc] at h
  obtain ⟨thread, e, h⟩ := Option.bind_eq_some_iff.mp h
  cases ptr.symm.trans e
  split at h
  · exact ⟨‹_›, (Option.some.inj h).symm⟩
  · cases h

/-- The only thread is taken out. -/
lemma remove_singleton (t : Nat) : (ThreadList.mk [t]).remove t = some ⟨[]⟩ := by
  simp [ThreadList.remove]

/-- One step of the thread that makes the calls. -/
lemma Stage.caller {phase : Phase} {at_address : Option String} (stage : Stage s phase at_address n)
    (proper : Proper phase s.calls) (h : s.caller = some s') :
    ∃ phase' after m, Stage s' phase' after m ∧ Proper phase' s'.calls ∧ Goes s s' at_address after n m := by
  by_cases ready : s.pc = .ready
  · cases e : s.calls with
    | nil => simp [GrpcServer.caller, ready, e] at h
    | cons call calls =>
      cases (caller_begin ready e).symm.trans h
      obtain ⟨phase', m, stage', same, proper', le⟩ := stage.begin ready e proper
      exact ⟨phase', _, m, stage', same.symm ▸ proper', .next (same.symm ▸ e) rfl le⟩
  · cases stage with
    | never pc _ _ _ => exact absurd pc ready
    | stopped pc _ _ => exact absurd pc ready
    | serving pc _ _ _ _ => exact absurd pc ready
    | create pc holds base =>
      rw [GrpcServer.caller, pc] at h
      cases h
      have started : Base (some s.nextUID) none { s with
          nextUID := s.nextUID + 1
          threads := Function.update s.threads s.nextUID .build
          pc := .addThread s.nextUID } := by
        refine ⟨fun w ne => ?_, fun w e => Option.some.inj e ▸ Nat.lt_succ_self _,
          fun w le => base.starts w (Nat.le_of_succ_le le), fun w le => base.ends w (Nat.le_of_succ_le le),
          base.one, base.known⟩
        change Function.update s.threads s.nextUID .build w = .ended
        rw [Function.update_of_ne fun e => ne (congrArg some e)]
        exact base.ended w nofun
      exact ⟨.running, _, 7,
        .addThread (n := 5) rfl ⟨holds.threads, holds.tasks⟩ (base.ends _ (Nat.le_refl _))
          (.build (Function.update_self ..) rfl (base.starts _ (Nat.le_refl _)) started), proper,
        .same rfl rfl rfl⟩
    | @addThread t address n pc holds fresh starting =>
      rw [GrpcServer.caller, pc] at h
      cases h
      have added : (s.m_ThreadPool.m_Threads.add t).m_Threads = [t] := by
        rw [ThreadList.add, holds.threads]
        rfl
      exact ⟨.running, _, n + 1, .waitRun rfl rfl ⟨added, holds.tasks⟩ fresh starting.congr, proper,
        .same rfl rfl rfl⟩
    | @waitRun t address n pc ptr holds fresh starting =>
      obtain ⟨posted, rfl⟩ := caller_waitRun pc ptr h
      cases starting with
      | up up _ =>
        exact ⟨.running, _, n, .serving rfl ptr ⟨holds.threads, holds.tasks⟩ fresh up.congr, proper,
          .same rfl rfl rfl⟩
      | build _ _ fresh _ => cases fresh.symm.trans posted
      | assign _ _ _ _ fresh _ => cases fresh.symm.trans posted
      | started _ _ _ fresh _ => cases fresh.symm.trans posted
      | afterRun _ _ _ _ fresh _ => cases fresh.symm.trans posted
    | @shutdown t address n pc ptr holds fresh up =>
      cases up with
      | @wait k at_wait flag server running base =>
        cases (caller_shutdown pc server).symm.trans h
        exact ⟨.stopped, _, 10, .waitExit (n := 5) rfl ptr
          (.wait at_wait server become_life ⟨holds.threads, holds.tasks⟩ fresh)
          (base.stop (by decide)).set, proper, .same rfl rfl rfl⟩
      | @waiting k at_wait flag server running base =>
        cases (caller_shutdown pc server).symm.trans h
        exact ⟨.stopped, _, 9, .waitExit (n := 4) rfl ptr
          (.waiting at_wait become_life ⟨holds.threads, holds.tasks⟩ fresh)
          (base.stop (by decide)).set, proper, .same rfl rfl rfl⟩
    | @waitExit t n pc ptr closing base =>
      obtain ⟨posted, rfl⟩ := caller_waitExit pc ptr h
      cases closing with
      | ended at_end holds _ =>
        exact ⟨.stopped, _, 4, .stopAllThread rfl ⟨holds.threads, holds.tasks⟩
          (base.end.leave at_end).set, proper, .same rfl rfl rfl⟩
      | wait _ _ _ _ fresh => cases fresh.symm.trans posted
      | waiting _ _ _ fresh => cases fresh.symm.trans posted
      | push _ _ fresh => cases fresh.symm.trans posted
      | post _ _ fresh => cases fresh.symm.trans posted
      | beforeExit _ _ fresh => cases fresh.symm.trans posted
    | stopAllThread pc holds base =>
      rw [GrpcServer.caller, pc, ThreadList.size, holds.threads] at h
      cases h
      exact ⟨.stopped, _, 3, .take rfl ⟨holds.threads, holds.tasks⟩
        base.set, proper, .same rfl rfl rfl⟩
    | take pc holds base =>
      rw [GrpcServer.caller, pc] at h
      simp only [TaskBarrierBlockingQueue.pop, holds.tasks, Option.some.injEq] at h
      subst h
      exact ⟨.stopped, _, 2, .join rfl ⟨holds.threads, rfl⟩
        base.set, proper, .same rfl rfl rfl⟩
    | @join t pc holds base =>
      have alone : s.m_ThreadPool.m_Threads = ⟨[t]⟩ := congrArg ThreadList.mk holds.threads
      rw [GrpcServer.caller, pc] at h
      simp only [base.ended t nofun, ↓reduceIte, alone, remove_singleton, Option.map_some,
        Option.some.injEq] at h
      subst h
      exact ⟨.stopped, _, 1, .returns rfl ⟨rfl, holds.tasks⟩
        base.set, proper, .same rfl rfl rfl⟩
    | returns pc holds base =>
      rw [GrpcServer.caller, pc] at h
      cases h
      exact ⟨.stopped, _, 0, .stopped rfl ⟨holds.threads, holds.tasks⟩
        base.set, proper, .same rfl rfl rfl⟩

/-- One step of a thread of the pool. -/
lemma Stage.runServer {phase : Phase} {at_address : Option String} (stage : Stage s phase at_address n)
    (h : s.runServer w true = some s') :
    ∃ m, Stage s' phase at_address m ∧ s'.calls = s.calls ∧ n = m + 1 := by
  have idle : ¬ Base none none s := fun base => absurd (base.current_of_step h) nofun
  cases stage with
  | never _ _ _ base => exact absurd base idle
  | stopped _ _ base => exact absurd base idle
  | create _ _ base => exact absurd base idle
  | stopAllThread _ _ base => exact absurd base idle
  | take _ _ base => exact absurd base idle
  | join _ _ base => exact absurd base idle
  | returns _ _ base => exact absurd base idle
  | addThread pc holds fresh starting =>
    obtain ⟨m, rfl, starting, frame⟩ := starting.step h
    refine ⟨m + 2, .addThread (frame.pc.trans pc) ⟨?_, ?_⟩ ?_ starting, frame.calls, rfl⟩
    · exact frame.m_ThreadPool ▸ holds.threads
    · exact frame.m_ThreadPool ▸ holds.tasks
    · exact frame.m_ThreadEndBarrier ▸ fresh
  | waitRun pc ptr holds fresh starting =>
    obtain ⟨m, rfl, starting, frame⟩ := starting.step h
    refine ⟨m + 1, .waitRun (frame.pc.trans pc) (frame.m_ThreadPtr.trans ptr) ⟨?_, ?_⟩ ?_ starting,
      frame.calls, rfl⟩
    · exact frame.m_ThreadPool ▸ holds.threads
    · exact frame.m_ThreadPool ▸ holds.tasks
    · exact frame.m_ThreadEndBarrier ▸ fresh
  | serving pc ptr holds fresh up =>
    obtain ⟨rfl, up, frame, -⟩ := up.step h
    refine ⟨0, .serving (frame.pc.trans pc) (frame.m_ThreadPtr.trans ptr) ⟨?_, ?_⟩ ?_ up, frame.calls, rfl⟩
    · exact frame.m_ThreadPool ▸ holds.threads
    · exact frame.m_ThreadPool ▸ holds.tasks
    · exact frame.m_ThreadEndBarrier ▸ fresh
  | shutdown pc ptr holds fresh up =>
    obtain ⟨rfl, up, frame, -⟩ := up.step h
    refine ⟨0 + 10, .shutdown (frame.pc.trans pc) (frame.m_ThreadPtr.trans ptr) ⟨?_, ?_⟩ ?_ up, frame.calls,
      rfl⟩
    · exact frame.m_ThreadPool ▸ holds.threads
    · exact frame.m_ThreadPool ▸ holds.tasks
    · exact frame.m_ThreadEndBarrier ▸ fresh
  | waitExit pc ptr closing base =>
    obtain ⟨m, rfl, closing, base, pc', calls, ptr'⟩ := closing.step base h
    exact ⟨m + 5, .waitExit (pc'.trans pc) (ptr'.trans ptr) closing base, calls, rfl⟩

/-- A reachable state: the calls that were made, where the last one is, and how long the run can still be. -/
def Reached (all : List Call) (l : List Event) (s : GrpcServer) : Prop :=
  ∃ made phase n, all = made ++ s.calls ∧ Stage s phase (listening made) n ∧ Proper phase s.calls ∧
    l.length + 11 * s.calls.length + n ≤ 11 * all.length

/-- Every run in turn is in one of the stages. -/
lemma reached_of_run {all : List Call} {l : List Event} (proper : Proper .never all)
    (run : Run (Exec step) (new all) l s) (builds : Builds l) : Reached all l s := by
  induction run with
  | nil =>
    refine ⟨[], .never, 0, rfl, .never rfl rfl ⟨rfl, rfl⟩ ⟨fun _ _ => rfl, nofun, fun _ _ => rfl,
      fun _ _ => rfl, fun _ => nofun, nofun⟩, proper, ?_⟩
    simp [new]
  | @snoc l s a s' _ st ih =>
    obtain ⟨made, phase, n, split, stage, proper, bound⟩ :=
      ih fun t mem => builds t (List.mem_append_left _ mem)
    cases a with
    | caller =>
      obtain ⟨phase', after, m, stage', proper', goes⟩ := stage.caller proper st
      cases goes with
      | same calls e less =>
        subst e
        refine ⟨made, phase', m, calls ▸ split, stage', proper', ?_⟩
        rw [List.length_append, List.length_singleton, calls]
        omega
      | @next call calls e le =>
        subst e
        refine ⟨made ++ [call], phase', m, ?_, ?_, proper', ?_⟩
        · rw [split, calls, List.append_assoc]
          rfl
        · rw [listening, List.foldl_append]
          exact stage'
        · rw [calls, List.length_cons] at bound
          rw [List.length_append, List.length_singleton]
          omega
    | runServer t =>
      obtain ⟨m, stage', calls, rfl⟩ := stage.runServer st
      refine ⟨made, phase, m, calls ▸ split, stage', calls ▸ proper, ?_⟩
      rw [List.length_append, List.length_singleton, calls]
      omega
    | buildFails t => exact absurd (List.mem_append_right _ List.mem_cons_self) (builds t)

/-- Between two calls there is the server that the calls so far ask for. -/
lemma Stage.serves {phase : Phase} {at_address : Option String} (stage : Stage s phase at_address n)
    (pc : s.pc = .ready) : Serves s at_address := by
  cases stage with
  | never _ _ holds base =>
    exact .none (fun k running => absurd (base.one k running) nofun) holds.threads holds.tasks
      fun w => base.ended w nofun
  | stopped _ holds base =>
    exact .none (fun k running => absurd (base.one k running) nofun) holds.threads holds.tasks
      fun w => base.ended w nofun
  | serving _ thread holds _ up =>
    have other : ∀ {t w : Nat}, w ≠ t → some w ≠ some t := fun ne e => ne (Option.some.inj e)
    cases up with
    | wait at_wait flag ptr server base =>
      exact .some flag ptr server (fun k running => Option.some.inj (base.one k running)) thread
        holds.threads (.inl at_wait) fun w ne => base.ended w (other ne)
    | waiting at_wait flag ptr server base =>
      exact .some flag ptr server (fun k running => Option.some.inj (base.one k running)) thread
        holds.threads (.inr at_wait) fun w ne => base.ended w (other ne)
  | _ => simp_all

/-- A server is started and stopped. -/
def once : List Event :=
  .caller :: .caller :: .caller :: List.replicate 5 (.runServer 0) ++ .caller :: .caller :: .caller ::
    List.replicate 4 (.runServer 0) ++ List.replicate 5 .caller

def startStop : List Call :=
  [.startServer "a", .stopServer]

/-- No server fails in this run. -/
lemma builds_once (n : Nat) : Builds (once.take n) := by
  intro t mem
  have made := List.mem_of_mem_take mem
  simp [once] at made

/-- Whenever no call is being made, in any interleaving with the threads, the server that the calls so far ask
    for is running and no other, with the thread of the call in it or about to wait in it, and after
    `StopServer` no server is running and all threads have ended and are joined. -/
theorem served_of_run {all : List Call} {l : List Event} (proper : Proper .never all)
    (run : Run (Exec step) (new all) l s) (builds : Builds l) (returned : s.pc = .ready) :
    ∃ made, all = made ++ s.calls ∧ Serves s (listening made) := by
  obtain ⟨made, phase, n, split, stage, -⟩ := reached_of_run proper run builds
  exact ⟨made, split, stage.serves returned⟩

/-- The statement above at a server that was started. -/
theorem served_of_run_once : ∃ s : GrpcServer, s.calls = [.stopServer] ∧
    ∃ made, startStop = made ++ s.calls ∧ Serves s (listening made) :=
  ⟨_, rfl, served_of_run (l := once.take 9) trivial (run_exec_iff.mpr rfl) (builds_once 9) rfl⟩

/-- It is enough to look at the current thread. -/
lemma Base.sound (base : Base current server s)
    (shutdown : s.pc = .shutdown → ∃ server, s.m_Server = some server ∧ s.Alive server)
    (wait : ∀ t, some t = current → s.threads t = .wait → ∃ server, s.m_Server = some server ∧ s.Alive server)
    (waiting : ∀ t, some t = current → ∀ server, s.threads t = .waiting server → s.Alive server) :
    Sound s := by
  have is_current : ∀ t, s.threads t ≠ .ended → some t = current := by
    intro t running
    by_contra ne
    exact running (base.ended t ne)
  refine ⟨shutdown, fun t pc => ?_, fun t server pc => ?_⟩
  · exact wait t (is_current t (by rw [pc]; nofun)) pc
  · exact waiting t (is_current t (by rw [pc]; nofun)) server pc

/-- Between the calls there is no server to wait for. -/
lemma Base.sound_idle (base : Base none server s) (pc : s.pc ≠ .shutdown) : Sound s :=
  base.sound (fun e => absurd e pc) (fun _ e => by cases e) (fun _ e => by cases e)

/-- A thread that is not at `Wait` uses no server. -/
lemma Base.sound_away (base : Base (some t) server s) (pc : s.pc ≠ .shutdown)
    (wait : s.threads t ≠ .wait) (waiting : ∀ k, s.threads t ≠ .waiting k) : Sound s := by
  refine base.sound (fun e => absurd e pc) (fun w e at_wait => ?_) (fun w e k at_wait => ?_)
  · cases e
    exact absurd at_wait wait
  · cases e
    exact absurd at_wait (waiting k)

/-- The thread waits in the server that is up. -/
lemma Up.sound (up : Up s t address n) : Sound s := by
  cases up with
  | wait pc _ ptr running base =>
    have alive : s.Alive _ := .inl (congrArg Server.life running)
    refine base.sound (fun _ => ⟨_, ptr, alive⟩) (fun _ _ _ => ⟨_, ptr, alive⟩) (fun w e k at_wait => ?_)
    cases e
    cases pc.symm.trans at_wait
  | waiting pc _ ptr running base =>
    have alive : s.Alive _ := .inl (congrArg Server.life running)
    refine base.sound (fun _ => ⟨_, ptr, alive⟩) (fun _ _ _ => ⟨_, ptr, alive⟩) (fun w e k at_wait => ?_)
    cases e
    cases pc.symm.trans at_wait
    exact alive

/-- No server that is gone is waited for while the next one is brought up. -/
lemma Starting.sound (starting : Starting s t address n) (pc : s.pc ≠ .shutdown) : Sound s := by
  cases starting with
  | build at_pc _ _ base => exact base.sound_away pc (by rw [at_pc]; nofun) (by rw [at_pc]; nofun)
  | assign at_pc _ _ _ _ base => exact base.sound_away pc (by rw [at_pc]; nofun) (by rw [at_pc]; nofun)
  | started at_pc _ _ _ base => exact base.sound_away pc (by rw [at_pc]; nofun) (by rw [at_pc]; nofun)
  | afterRun at_pc _ _ _ _ base => exact base.sound_away pc (by rw [at_pc]; nofun) (by rw [at_pc]; nofun)
  | up up _ => exact up.sound

/-- A server that is shut down is still there while its thread leaves. -/
lemma Closing.sound (closing : Closing s t n) (base : Base (some t) none s) (pc : s.pc ≠ .shutdown) :
    Sound s := by
  cases closing with
  | wait at_pc ptr stopped _ _ =>
    refine base.sound (fun e => absurd e pc) (fun _ _ _ => ⟨_, ptr, .inr stopped⟩) (fun w e k at_wait => ?_)
    cases e
    cases at_pc.symm.trans at_wait
  | waiting at_pc stopped _ _ =>
    refine base.sound (fun e => absurd e pc) (fun w e at_wait => ?_) (fun w e k at_wait => ?_)
    · cases e
      cases at_pc.symm.trans at_wait
    · cases e
      cases at_pc.symm.trans at_wait
      exact .inr stopped
  | push at_pc _ _ => exact base.sound_away pc (by rw [at_pc]; nofun) (by rw [at_pc]; nofun)
  | post at_pc _ _ => exact base.sound_away pc (by rw [at_pc]; nofun) (by rw [at_pc]; nofun)
  | beforeExit at_pc _ _ => exact base.sound_away pc (by rw [at_pc]; nofun) (by rw [at_pc]; nofun)
  | ended at_pc _ _ => exact base.sound_away pc (by rw [at_pc]; nofun) (by rw [at_pc]; nofun)

/-- All stages are sound. -/
lemma Stage.sound {phase : Phase} {at_address : Option String} (stage : Stage s phase at_address n) :
    Sound s := by
  cases stage with
  | never pc _ _ base => exact base.sound_idle (by rw [pc]; nofun)
  | stopped pc _ base => exact base.sound_idle (by rw [pc]; nofun)
  | create pc _ base => exact base.sound_idle (by rw [pc]; nofun)
  | addThread pc _ _ starting => exact starting.sound (by rw [pc]; nofun)
  | waitRun pc _ _ _ starting => exact starting.sound (by rw [pc]; nofun)
  | serving _ _ _ _ up => exact up.sound
  | shutdown _ _ _ _ up => exact up.sound
  | waitExit pc _ closing base => exact closing.sound base (by rw [pc]; nofun)
  | stopAllThread pc _ base => exact base.sound_idle (by rw [pc]; nofun)
  | take pc _ base => exact base.sound_idle (by rw [pc]; nofun)
  | join pc _ base => exact base.sound_idle (by rw [pc]; nofun)
  | returns pc _ base => exact base.sound_idle (by rw [pc]; nofun)

/-- In every interleaving, `StopServer` and the threads only use servers that are there. -/
theorem sound_of_run {all : List Call} {l : List Event} (proper : Proper .never all)
    (run : Run (Exec step) (new all) l s) (builds : Builds l) : Sound s := by
  obtain ⟨made, phase, n, -, stage, -⟩ := reached_of_run proper run builds
  exact stage.sound

/-- The statement above at a server that is being stopped. -/
theorem sound_of_run_once : ∃ s : GrpcServer, s.pc = .waitExit ∧ Sound s :=
  ⟨_, rfl, sound_of_run (l := once.take 11) (show Proper .never startStop from trivial)
    (run_exec_iff.mpr rfl) (builds_once 11)⟩

/-- While the thread brings a server up, it or the caller can go on. -/
lemma Starting.goes (starting : Starting s t address n) :
    s.m_ThreadStartBarrier t = .posted ∨ ∃ s', s.runServer t true = some s' := by
  cases starting with
  | build pc _ _ _ => exact .inr ⟨_, by rw [runServer, pc]; rfl⟩
  | assign pc _ _ _ _ _ => exact .inr ⟨_, by rw [runServer, pc]⟩
  | started pc _ _ _ _ => exact .inr ⟨_, by rw [runServer, pc]⟩
  | afterRun pc _ _ _ _ _ => exact .inr ⟨_, by rw [runServer, pc]⟩
  | up _ posted => exact .inl posted

/-- A thread that is told to leave goes on to post the end baton. -/
lemma Closing.goes (closing : Closing s t n) :
    s.m_ThreadEndBarrier t = .posted ∨ ∃ s', s.runServer t true = some s' := by
  cases closing with
  | wait pc ptr _ _ _ => exact .inr ⟨_, runServer_wait pc ptr⟩
  | waiting pc stopped _ _ => exact .inr ⟨_, by rw [runServer, pc]; exact if_pos stopped⟩
  | push pc _ _ => exact .inr ⟨_, by rw [runServer, pc]⟩
  | post pc _ _ => exact .inr ⟨_, by rw [runServer, pc]⟩
  | beforeExit pc _ _ => exact .inr ⟨_, by rw [runServer, pc]⟩
  | ended _ _ posted => exact .inl posted

/-- Unless all calls have returned, some thread can go on. -/
lemma Stage.goes {phase : Phase} {at_address : Option String} (stage : Stage s phase at_address n)
    (unfinished : s.pc = .ready → s.calls ≠ []) : ∃ a s', step s a = some s' ∧ ∀ t, a ≠ .buildFails t := by
  have call : ∀ {s'}, s.caller = some s' → ∃ a s', step s a = some s' ∧ ∀ t, a ≠ .buildFails t :=
    fun e => ⟨.caller, _, e, nofun⟩
  have thread : ∀ {t}, (∃ s', s.runServer t true = some s') →
      ∃ a s', step s a = some s' ∧ ∀ t, a ≠ .buildFails t :=
    fun ⟨s', e⟩ => ⟨.runServer _, s', e, nofun⟩
  have next : s.pc = .ready → ∃ a s', step s a = some s' ∧ ∀ t, a ≠ .buildFails t := by
    intro pc
    obtain ⟨c, calls, e⟩ := List.exists_cons_of_ne_nil (unfinished pc)
    exact call (caller_begin pc e)
  cases stage with
  | never pc _ _ _ => exact next pc
  | stopped pc _ _ => exact next pc
  | serving pc _ _ _ _ => exact next pc
  | create pc _ _ => exact call (by rw [GrpcServer.caller, pc])
  | addThread pc _ _ _ => exact call (by rw [GrpcServer.caller, pc])
  | @waitRun t _ _ pc ptr _ _ starting =>
    rcases starting.goes with posted | st
    · have returns : s.caller = some { s with
          m_ThreadStartBarrier := Function.update s.m_ThreadStartBarrier t .waited
          pc := .ready } := by
        rw [GrpcServer.caller, pc]
        exact Option.bind_eq_some_iff.mpr ⟨_, ptr, if_pos posted⟩
      exact call returns
    · exact thread st
  | shutdown pc _ _ _ up =>
    cases up with
    | wait _ _ ptr _ _ => exact call (caller_shutdown pc ptr)
    | waiting _ _ ptr _ _ => exact call (caller_shutdown pc ptr)
  | @waitExit t _ pc ptr closing _ =>
    rcases closing.goes with posted | st
    · have returns : s.caller = some { s with
          m_ThreadEndBarrier := Function.update s.m_ThreadEndBarrier t .waited
          pc := .stopAllThread } := by
        rw [GrpcServer.caller, pc]
        exact Option.bind_eq_some_iff.mpr ⟨_, ptr, if_pos posted⟩
      exact call returns
    · exact thread st
  | stopAllThread pc _ _ => exact call (by rw [GrpcServer.caller, pc])
  | @take t pc holds _ =>
    have takes : s.caller = some { s with
        m_ThreadPool := { s.m_ThreadPool with
          m_StoppedThread := { s.m_ThreadPool.m_StoppedThread with m_Tasks := [] } }
        pc := .join t 0 } := by
      rw [GrpcServer.caller, pc]
      simp only [TaskBarrierBlockingQueue.pop, holds.tasks]
    exact call takes
  | @join t pc holds base =>
    have alone : s.m_ThreadPool.m_Threads = ⟨[t]⟩ := congrArg ThreadList.mk holds.threads
    have joins : s.caller = some { s with
        m_ThreadPool := { s.m_ThreadPool with m_Threads := ⟨[]⟩ }
        pc := .take 0 } := by
      rw [GrpcServer.caller, pc]
      simp only [base.ended t nofun, ↓reduceIte, alone, remove_singleton, Option.map_some]
    exact call joins
  | returns pc _ _ => exact call (by rw [GrpcServer.caller, pc])

end GrpcServer
end XLN
