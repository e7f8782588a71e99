import XLN.Lib.Transition
import XLN.Lib.Owned

/-!
# Sockets of the downloader

`Client/DownloaderEventCurl.cpp`: curl tells `CurlSocketCB` which sockets it wants to be watched and for what.
Each socket gets a `SockInfo` on the heap and in it an event of libevent; the event is made anew whenever curl
wants something else, and both are freed when curl is done with the socket.

curl keeps the pointer to the `SockInfo` (`curl_multi_assign`), passes it to each callback for the socket, and
drops it with the socket after `CURL_POLL_REMOVE`. Sockets are values of a type `σ` and curl handles of a type
`η`; addresses are numbers that the allocator may use again as soon as they are free.
-/

namespace XLN
open Transition Ownership

namespace SocketEvents

/-- `SockInfo`, without the downloader, which is the same for all. -/
structure SockInfo (σ η : Type) where
  m_Socket : σ
  m_Easy : η
  m_Event : Option Nat

/-- An event of libevent that has been added. -/
structure Watch (σ : Type) where
  fd : σ
  kind : Int32
  deriving DecidableEq

def CURL_POLL_IN : Int32 := 1
def CURL_POLL_OUT : Int32 := 2
def CURL_POLL_REMOVE : Int32 := 4
def EV_READ : Int32 := 2
def EV_WRITE : Int32 := 4
def EV_PERSIST : Int32 := 16

/-- The kind of event for what curl wants. -/
def kind (act : Int32) : Int32 :=
  (if act &&& CURL_POLL_IN ≠ 0 then EV_READ else 0) |||
    (if act &&& CURL_POLL_OUT ≠ 0 then EV_WRITE else 0) ||| EV_PERSIST

end SocketEvents

open SocketEvents in
/-- The pointers that curl keeps, the `SockInfo`s on the heap and the events. -/
structure SocketEvents (σ η : Type) where
  sockp : σ → Option Nat
  infos : Nat → Option (SockInfo σ η)
  events : Nat → Option (Watch σ)

namespace SocketEvents

/-- curl calls `CurlSocketCB`; `newInfo` and `newEvent` are the addresses at which a `SockInfo` and an event
    are made, if they are. -/
structure Callback (σ η : Type) where
  e : η
  s : σ
  what : Int32
  newInfo : Nat
  newEvent : Nat

section Definitions
variable {σ η : Type} [DecidableEq σ]

def initial : SocketEvents σ η :=
  { sockp := fun _ => none, infos := fun _ => none, events := fun _ => none }

omit [DecidableEq σ] in
/-- `event_free`, or `none` if the event has been freed already. -/
def eventFree (event : Nat) (m : SocketEvents σ η) : Option (SocketEvents σ η) :=
  (m.events event).map fun _ => { m with events := Function.update m.events event none }

omit [DecidableEq σ] in
/-- `event_free` of a pointer that may be null: both callers ask first. -/
def freeEvent (event : Option Nat) (m : SocketEvents σ η) : Option (SocketEvents σ η) :=
  match event with
  | some event => m.eventFree event
  | none => some m

omit [DecidableEq σ] in
/-- `AddSocketEvent`; the allocator does not return an address that is in use. -/
def addSocketEvent (info : Nat) (act : Int32) (newEvent : Nat) (m : SocketEvents σ η) :
    Option (SocketEvents σ η) :=
  (m.infos info).bind fun sock =>
    (m.freeEvent sock.m_Event).bind fun m =>
      if (m.events newEvent).isNone then
        some { m with
          infos := Function.update m.infos info (some { sock with m_Event := some newEvent })
          events := Function.update m.events newEvent (some ⟨sock.m_Socket, kind act⟩) }
      else none

omit [DecidableEq σ] in
/-- `RemoveSocketEvent`. -/
def removeSocketEvent (info : Option Nat) (m : SocketEvents σ η) : Option (SocketEvents σ η) :=
  match info with
  | none => some m
  | some info =>
    (m.infos info).bind fun sock =>
      (m.freeEvent sock.m_Event).map fun m => { m with infos := Function.update m.infos info none }

/-- `CurlSocketCB`, and what curl does with its pointer. Gives `none` if something that has been freed is
    used, and if a new address is in use. -/
def curlSocketCB (m : SocketEvents σ η) (c : Callback σ η) : Option (SocketEvents σ η) :=
  if c.what = CURL_POLL_REMOVE then
    (m.removeSocketEvent (m.sockp c.s)).map fun m =>
      { m with sockp := Function.update m.sockp c.s none }
  else
    match m.sockp c.s with
    | none =>
      if (m.infos c.newInfo).isNone then
        -- `new SockInfo()` zeroes the members
        addSocketEvent c.newInfo c.what c.newEvent { m with
          sockp := Function.update m.sockp c.s (some c.newInfo)
          infos := Function.update m.infos c.newInfo
            (some { m_Socket := c.s, m_Easy := c.e, m_Event := none }) }
      else none
    | some info =>
      (m.infos info).bind fun sock =>
        addSocketEvent info c.what c.newEvent { m with
          infos := Function.update m.infos info
            (some { sock with m_Socket := c.s, m_Easy := c.e }) }

/-- For what curl wants a socket to be watched, after some callbacks. -/
def interest (l : List (Callback σ η)) : σ → Option Int32 :=
  l.foldl (fun wanted c =>
    Function.update wanted c.s (if c.what = CURL_POLL_REMOVE then none else some c.what)) fun _ => none

/-- The events are those that curl wants, one for each socket; nothing else is on the heap. -/
structure Watches (wanted : σ → Option Int32) (m : SocketEvents σ η) : Prop where
  added : ∀ s what, wanted s = some what → ∃ event, m.events event = some ⟨s, kind what⟩
  asked : ∀ event watch, m.events event = some watch →
    ∃ what, wanted watch.fd = some what ∧ watch.kind = kind what
  one : ∀ event event' watch watch', m.events event = some watch → m.events event' = some watch' →
    watch.fd = watch'.fd → event = event'
  info : ∀ info sock, m.infos info = some sock →
    m.sockp sock.m_Socket = some info ∧ (wanted sock.m_Socket).isSome

/-- The allocator does not return an address that is in use, if it is asked at all. It may return that of the
    event of the socket, which has been freed by then. -/
structure Fresh (m : SocketEvents σ η) (c : Callback σ η) : Prop where
  info : m.sockp c.s = none → m.infos c.newInfo = none
  event : ∀ watch, m.events c.newEvent = some watch → watch.fd = c.s

end Definitions

variable {σ η : Type} [DecidableEq σ] {m m' : SocketEvents σ η} {eventOf : σ → Option Nat}
  {wanted : σ → Option Int32} {s : σ} {i newEvent : Nat} {sock : SockInfo σ η} {act : Int32}
  {c : Callback σ η} {l : List (Callback σ η)}

omit [DecidableEq σ] in
/-- Every socket owns a `SockInfo` and through it an event of the right kind, if it has them. -/
structure Kept (eventOf : σ → Option Nat) (wanted : σ → Option Int32) (m : SocketEvents σ η) : Prop where
  infos : Owned m.sockp m.infos
  events : Owned eventOf m.events
  info : ∀ {s i sock}, m.sockp s = some i → m.infos i = some sock →
    sock.m_Socket = s ∧ sock.m_Event = eventOf s
  watch : ∀ {s event}, eventOf s = some event →
    ∃ what, wanted s = some what ∧ m.events event = some ⟨s, kind what⟩
  bare : ∀ {s}, m.sockp s = none → eventOf s = none

/-- `events` is the events without the one of a socket. -/
structure Freed (eventOf : σ → Option Nat) (s : σ) (m : SocketEvents σ η)
    (events : Nat → Option (Watch σ)) : Prop where
  freed : m.freeEvent (eventOf s) = some { m with events }
  owned : Owned (Function.update eventOf s none) events
  unused : ∀ event, events event = none ↔ ∀ watch, m.events event = some watch → watch.fd = s
  other : ∀ {s' event}, s' ≠ s → eventOf s' = some event → events event = m.events event

/-- An event that was there is freed. -/
lemma Kept.freeEvent (kept : Kept eventOf wanted m) (s : σ) : ∃ events, Freed eventOf s m events := by
  have fd : ∀ {event watch}, m.events event = some watch → eventOf watch.fd = some event := by
    intro event watch live
    obtain ⟨s', e⟩ := kept.events.owner live
    obtain ⟨what, -, live'⟩ := kept.watch e
    cases live.symm.trans live'
    exact e
  cases e : eventOf s with
  | none =>
    refine ⟨m.events, by rw [e]; rfl, ?_, fun event => ⟨fun none watch live => ?_, fun own => ?_⟩,
      fun _ _ => rfl⟩
    · rw [Function.update_eq_self_iff.mpr e.symm]
      exact kept.events
    · cases none.symm.trans live
    · cases live : m.events event with
      | none => rfl
      | some watch =>
        have at_event := fd live
        rw [own watch live, e] at at_event
        cases at_event
  | some event =>
    obtain ⟨what, -, live⟩ := kept.watch e
    refine ⟨Function.update m.events event none, ?_, kept.events.delete e, fun other => ?_,
      fun {s' other} ne e' => ?_⟩
    · rw [e, SocketEvents.freeEvent, eventFree, live]
      rfl
    · by_cases same : other = event
      · rw [same, Function.update_self]
        refine ⟨fun _ watch live' => ?_, fun _ => rfl⟩
        cases live.symm.trans live'
        rfl
      · rw [Function.update_of_ne same]
        refine ⟨fun none watch live' => ?_, fun own => ?_⟩
        · cases none.symm.trans live'
        · cases live' : m.events other with
          | none => rfl
          | some watch =>
            have at_event := fd live'
            rw [own watch live', e] at at_event
            exact absurd (Option.some.inj at_event).symm same
    · refine Function.update_of_ne ?_ _ _
      rintro rfl
      exact ne (kept.events.one e' e)

/-- The event of a socket is replaced. -/
lemma Kept.replace {events : Nat → Option (Watch σ)} (kept : Kept eventOf wanted m) (ptr : m.sockp s = some i)
    (info : m.infos i = some sock) (freed : Freed eventOf s m events) (fresh : events newEvent = none) :
    Kept (Function.update eventOf s (some newEvent)) (Function.update wanted s (some act)) { m with
      infos := Function.update m.infos i (some { sock with m_Event := some newEvent })
      events := Function.update events newEvent (some ⟨s, kind act⟩) } := by
  obtain ⟨at_socket, at_event⟩ := kept.info ptr info
  constructor
  · exact kept.infos.write ptr
  · have made := freed.owned.create (b := ⟨s, kind act⟩) (Function.update_self ..) fresh
    rw [Function.update_idem] at made
    exact made
  · intro s' j sock' ptr' info'
    change Function.update m.infos i _ j = some sock' at info'
    by_cases same : j = i
    · subst same
      rw [Function.update_self] at info'
      cases info'
      obtain rfl := kept.infos.one ptr' ptr
      exact ⟨at_socket, by rw [Function.update_self]⟩
    · rw [Function.update_of_ne same] at info'
      obtain ⟨rfl, at_event'⟩ := kept.info ptr' info'
      refine ⟨rfl, ?_⟩
      rw [Function.update_of_ne]
      · exact at_event'
      · intro e
        rw [e] at ptr'
        exact same (Option.some.inj (ptr'.symm.trans ptr))
  · intro s' event e
    by_cases here : s' = s
    · rw [here, Function.update_self] at e ⊢
      cases e
      exact ⟨act, rfl, Function.update_self ..⟩
    · rw [Function.update_of_ne here] at e ⊢
      obtain ⟨what, wants, live⟩ := kept.watch e
      refine ⟨what, wants, ?_⟩
      change Function.update events newEvent _ event = _
      rw [Function.update_of_ne, freed.other here e]
      · exact live
      · rintro rfl
        cases fresh.symm.trans ((freed.other here e).trans live)
  · intro s' none
    rw [Function.update_of_ne]
    · exact kept.bare none
    · rintro rfl
      cases none.symm.trans ptr

/-- `AddSocketEvent` succeeds if the allocator does, and replaces the event of the socket. -/
lemma Kept.addSocketEvent (kept : Kept eventOf wanted m) (act : Int32) (newEvent : Nat)
    (ptr : m.sockp s = some i) (info : m.infos i = some sock) :
    ((∃ m', m.addSocketEvent i act newEvent = some m') ↔
        ∀ watch, m.events newEvent = some watch → watch.fd = s) ∧
      ∀ m', m.addSocketEvent i act newEvent = some m' →
        Kept (Function.update eventOf s (some newEvent)) (Function.update wanted s (some act)) m' ∧
          m'.sockp = m.sockp := by
  obtain ⟨at_socket, at_event⟩ := kept.info ptr info
  obtain ⟨events, freed⟩ := kept.freeEvent s
  have goes : m.addSocketEvent i act newEvent =
      if (events newEvent).isNone then some { m with
        infos := Function.update m.infos i (some { sock with m_Event := some newEvent })
        events := Function.update events newEvent (some ⟨s, kind act⟩) }
      else none := by
    have free := freed.freed
    rw [← at_event] at free
    rw [SocketEvents.addSocketEvent, info, Option.bind_some, free, Option.bind_some, at_socket]
  rw [goes, ← freed.unused newEvent]
  cases fresh : events newEvent with
  | none =>
    refine ⟨⟨fun _ => rfl, fun _ => ⟨_, rfl⟩⟩, fun m' h => ?_⟩
    cases h
    exact ⟨kept.replace ptr info freed fresh, rfl⟩
  | some watch => exact ⟨⟨nofun, nofun⟩, nofun⟩

/-- A socket that has none gets a `SockInfo`. -/
lemma Kept.create (e : η) (kept : Kept eventOf wanted m) (absent : m.sockp s = none)
    (fresh : m.infos i = none) :
    Kept eventOf wanted { m with
      sockp := Function.update m.sockp s (some i)
      infos := Function.update m.infos i (some { m_Socket := s, m_Easy := e, m_Event := none }) } := by
  refine ⟨kept.infos.create absent fresh, kept.events, ?_, kept.watch, fun {s'} bare => ?_⟩
  · intro s' j sock' ptr' info'
    change Function.update m.sockp s _ s' = some j at ptr'
    change Function.update m.infos i _ j = some sock' at info'
    by_cases here : s' = s
    · rw [here, Function.update_self] at ptr'
      cases ptr'
      rw [Function.update_self] at info'
      cases info'
      exact ⟨here.symm, by rw [here, kept.bare absent]⟩
    · rw [Function.update_of_ne here] at ptr'
      rw [Function.update_of_ne] at info'
      · exact kept.info ptr' info'
      · rintro rfl
        obtain ⟨_, live⟩ := kept.infos.live ptr'
        cases fresh.symm.trans live
  · change Function.update m.sockp s _ s' = none at bare
    by_cases here : s' = s
    · rw [here]
      exact kept.bare absent
    · rw [Function.update_of_ne here] at bare
      exact kept.bare bare

omit [DecidableEq σ] in
/-- The members of a `SockInfo` are written. -/
lemma Kept.write (e : η) (kept : Kept eventOf wanted m) (ptr : m.sockp s = some i)
    (info : m.infos i = some sock) :
    Kept eventOf wanted { m with
      infos := Function.update m.infos i (some { sock with m_Socket := s, m_Easy := e }) } := by
  refine ⟨kept.infos.write ptr, kept.events, ?_, kept.watch, kept.bare⟩
  intro s' j sock' ptr' info'
  change Function.update m.infos i _ j = some sock' at info'
  by_cases same : j = i
  · subst same
    rw [Function.update_self] at info'
    cases info'
    obtain rfl := kept.infos.one ptr' ptr
    exact ⟨rfl, (kept.info ptr info).2⟩
  · rw [Function.update_of_ne same] at info'
    exact kept.info ptr' info'

/-- `RemoveSocketEvent` frees what a socket has. -/
lemma Kept.removeSocketEvent (kept : Kept eventOf wanted m) (s : σ) :
    ∃ m', m.removeSocketEvent (m.sockp s) = some m' ∧
      Kept (Function.update eventOf s none) (Function.update wanted s none)
        { m' with sockp := Function.update m'.sockp s none } ∧ m'.sockp = m.sockp := by
  obtain ⟨events, freed⟩ := kept.freeEvent s
  have watch : ∀ {s' event}, Function.update eventOf s none s' = some event →
      ∃ what, Function.update wanted s none s' = some what ∧ events event = some ⟨s', kind what⟩ := by
    intro s' event e
    by_cases here : s' = s
    · rw [here, Function.update_self] at e
      cases e
    · rw [Function.update_of_ne here] at e ⊢
      obtain ⟨what, wants, live⟩ := kept.watch e
      exact ⟨what, wants, (freed.other here e).trans live⟩
  have bare : ∀ {s'}, Function.update m.sockp s none s' = none →
      Function.update eventOf s none s' = none := by
    intro s' none
    by_cases here : s' = s
    · rw [here, Function.update_self]
    · rw [Function.update_of_ne here] at none ⊢
      exact kept.bare none
  cases ptr : m.sockp s with
  | none =>
    have same := freed.freed
    rw [kept.bare ptr] at same
    obtain rfl : m.events = events := congrArg SocketEvents.events (Option.some.inj same)
    refine ⟨m, rfl, ⟨?_, freed.owned, ?_, watch, bare⟩, rfl⟩
    · change Owned (Function.update m.sockp s none) m.infos
      rw [Function.update_eq_self_iff.mpr ptr.symm]
      exact kept.infos
    · intro s' i sock ptr' info
      change Function.update m.sockp s none s' = some i at ptr'
      rw [Function.update_eq_self_iff.mpr ptr.symm] at ptr'
      rw [Function.update_eq_self_iff.mpr (kept.bare ptr).symm]
      exact kept.info ptr' info
  | some i =>
    obtain ⟨sock, info⟩ := kept.infos.live ptr
    obtain ⟨rfl, at_event⟩ := kept.info ptr info
    refine ⟨{ m with infos := Function.update m.infos i none, events := events }, ?_,
      ⟨kept.infos.delete ptr, freed.owned, ?_, watch, bare⟩, rfl⟩
    · have free := freed.freed
      rw [← at_event] at free
      rw [SocketEvents.removeSocketEvent, info, Option.bind_some, free]
      rfl
    · intro s' j sock' ptr' info'
      change Function.update m.sockp sock.m_Socket none s' = some j at ptr'
      change Function.update m.infos i none j = some sock' at info'
      by_cases here : s' = sock.m_Socket
      · rw [here, Function.update_self] at ptr'
        cases ptr'
      · rw [Function.update_of_ne here] at ptr' ⊢
        rw [Function.update_of_ne] at info'
        · exact kept.info ptr' info'
        · rintro rfl
          exact here (kept.infos.one ptr' ptr)

/-- What a callback leaves, with the events that the sockets own. -/
structure Settled (eventOf : σ → Option Nat) (wanted : σ → Option Int32) (m : SocketEvents σ η) : Prop where
  kept : Kept eventOf wanted m
  info : ∀ s, m.sockp s ≠ none → eventOf s ≠ none
  wanted : ∀ s, wanted s ≠ none → eventOf s ≠ none

/-- What curl wants after a callback. -/
def Callback.wants (c : Callback σ η) (wanted : σ → Option Int32) : σ → Option Int32 :=
  Function.update wanted c.s (if c.what = CURL_POLL_REMOVE then none else some c.what)

/-- A socket has got its event. -/
lemma Kept.settled {eventOf' : σ → Option Nat} (settled : Settled eventOf wanted m)
    (kept : Kept (Function.update eventOf' s (some newEvent)) (Function.update wanted s (some act)) m')
    (same : eventOf' = eventOf) (sockp : ∀ s', s' ≠ s → m'.sockp s' = m.sockp s') :
    Settled (Function.update eventOf s (some newEvent)) (Function.update wanted s (some act)) m' := by
  subst same
  refine ⟨kept, fun s' some => ?_, fun s' some => ?_⟩
  · by_cases here : s' = s
    · rw [here, Function.update_self]
      nofun
    · rw [Function.update_of_ne here]
      rw [sockp s' here] at some
      exact settled.info s' some
  · by_cases here : s' = s
    · rw [here, Function.update_self]
      nofun
    · rw [Function.update_of_ne here] at some ⊢
      exact settled.wanted s' some

/-- A callback succeeds if the allocator does, and then the events are again those that curl wants. -/
lemma Settled.curlSocketCB (settled : Settled eventOf wanted m) (c : Callback σ η) :
    (Fresh m c → ∃ m', m.curlSocketCB c = some m') ∧
      ∀ m', m.curlSocketCB c = some m' → ∃ eventOf', Settled eventOf' (c.wants wanted) m' := by
  have kept := settled.kept
  by_cases remove : c.what = CURL_POLL_REMOVE
  · obtain ⟨m', removed, kept', same⟩ := kept.removeSocketEvent c.s
    have goes : m.curlSocketCB c = some { m' with sockp := Function.update m'.sockp c.s none } := by
      rw [SocketEvents.curlSocketCB, if_pos remove, removed]
      rfl
    rw [goes]
    refine ⟨fun _ => ⟨_, rfl⟩, fun m'' h => ?_⟩
    cases h
    rw [Callback.wants, if_pos remove]
    refine ⟨_, kept', fun s some => ?_, fun s some => ?_⟩
    · change Function.update m'.sockp c.s none s ≠ none at some
      by_cases here : s = c.s
      · rw [here, Function.update_self] at some
        exact absurd rfl some
      · rw [Function.update_of_ne here, same] at some
        rw [Function.update_of_ne here]
        exact settled.info s some
    · by_cases here : s = c.s
      · rw [here, Function.update_self] at some
        exact absurd rfl some
      · rw [Function.update_of_ne here] at some ⊢
        exact settled.wanted s some
  · rw [Callback.wants, if_neg remove]
    cases ptr : m.sockp c.s with
    | none =>
      cases free : m.infos c.newInfo with
      | none =>
        obtain ⟨able, gives⟩ := (kept.create c.e ptr free).addSocketEvent c.what c.newEvent
          (Function.update_self ..) (Function.update_self ..)
        have goes : m.curlSocketCB c = addSocketEvent c.newInfo c.what c.newEvent { m with
            sockp := Function.update m.sockp c.s (some c.newInfo)
            infos := Function.update m.infos c.newInfo
              (some { m_Socket := c.s, m_Easy := c.e, m_Event := none }) } := by
          rw [SocketEvents.curlSocketCB, if_neg remove, ptr]
          exact if_pos (Option.isNone_iff_eq_none.mpr free)
        rw [goes]
        refine ⟨fun fresh => able.mpr fresh.event, fun m' h => ?_⟩
        obtain ⟨kept', same⟩ := gives m' h
        exact ⟨_, kept'.settled settled rfl fun s' here => by rw [same]; exact Function.update_of_ne here ..⟩
      | some sock =>
        have stops : m.curlSocketCB c = none := by
          rw [SocketEvents.curlSocketCB, if_neg remove, ptr]
          exact if_neg (by rw [free]; nofun)
        rw [stops]
        refine ⟨fun fresh => ?_, nofun⟩
        cases free.symm.trans (fresh.info ptr)
    | some info =>
      obtain ⟨sock, live⟩ := kept.infos.live ptr
      obtain ⟨able, gives⟩ := (kept.write c.e ptr live).addSocketEvent c.what c.newEvent
        ptr (Function.update_self ..)
      have goes : m.curlSocketCB c = addSocketEvent info c.what c.newEvent { m with
          infos := Function.update m.infos info (some { sock with m_Socket := c.s, m_Easy := c.e }) } := by
        rw [SocketEvents.curlSocketCB, if_neg remove, ptr]
        change (m.infos info).bind _ = _
        rw [live, Option.bind_some]
      rw [goes]
      refine ⟨fun fresh => able.mpr fresh.event, fun m' h => ?_⟩
      obtain ⟨kept', same⟩ := gives m' h
      exact ⟨_, kept'.settled settled rfl fun s' _ => by rw [same]⟩

/-- After any callbacks the events are settled. -/
lemma settled_of_run (run : Run (Exec curlSocketCB) initial l m) :
    ∃ eventOf, Settled eventOf (interest l) m := by
  induction run with
  | nil =>
    refine ⟨fun _ => none, ⟨.empty, .empty, nofun, nofun, fun _ => rfl⟩, fun s some => ?_, fun s some => ?_⟩
    · exact absurd rfl some
    · exact absurd rfl some
  | @snoc l m c m' _ st ih =>
    obtain ⟨eventOf, settled⟩ := ih
    obtain ⟨eventOf', settled'⟩ := (settled.curlSocketCB c).2 m' st
    refine ⟨eventOf', ?_⟩
    rw [interest, List.foldl_append]
    exact settled'

/-- After any callbacks, libevent watches the sockets that curl wants to be watched, each for what curl last
    asked for and with one event, and there are no other events and `SockInfo`s. -/
theorem watches_of_run (run : Run (Exec curlSocketCB) initial l m) : Watches (interest l) m := by
  obtain ⟨eventOf, settled⟩ := settled_of_run run
  have kept := settled.kept
  have fd : ∀ {event watch}, m.events event = some watch → eventOf watch.fd = some event ∧
      ∃ what, interest l watch.fd = some what ∧ watch.kind = kind what := by
    intro event watch live
    obtain ⟨s, e⟩ := kept.events.owner live
    obtain ⟨what, wants, live'⟩ := kept.watch e
    cases live.symm.trans live'
    exact ⟨e, what, wants, rfl⟩
  constructor
  · intro s what wants
    obtain ⟨event, e⟩ := Option.ne_none_iff_exists'.mp (settled.wanted s (by rw [wants]; nofun))
    obtain ⟨what', wants', live⟩ := kept.watch e
    cases wants.symm.trans wants'
    exact ⟨event, live⟩
  · exact fun event watch live => (fd live).2
  · intro event event' watch watch' live live' same
    have e := (fd live).1
    rw [same] at e
    exact Option.some.inj (e.symm.trans (fd live').1)
  · intro info sock live
    obtain ⟨s, ptr⟩ := kept.infos.owner live
    obtain ⟨rfl, -⟩ := kept.info ptr live
    obtain ⟨event, e⟩ := Option.ne_none_iff_exists'.mp (settled.info _ (by rw [ptr]; nofun))
    obtain ⟨what, wants, -⟩ := kept.watch e
    exact ⟨ptr, by rw [wants]; rfl⟩

/-- No callback uses or frees what has been freed: as long as the allocator finds room, it goes through. -/
theorem callback_of_run (run : Run (Exec curlSocketCB) initial l m) (fresh : Fresh m c) :
    ∃ m', m.curlSocketCB c = some m' := by
  obtain ⟨eventOf, settled⟩ := settled_of_run run
  exact (settled.curlSocketCB c).1 fresh

/-- A socket is watched for reading and then for writing, another one comes and goes. -/
def callbacks : List (Callback Nat Nat) :=
  [⟨0, 5, 1, 0, 0⟩, ⟨0, 5, 2, 9, 0⟩, ⟨1, 6, 1, 1, 1⟩, ⟨1, 6, 4, 9, 9⟩]

/-- The statement above at these callbacks. -/
theorem watches_of_run_callbacks : ∃ m : SocketEvents Nat Nat, Watches (interest callbacks) m :=
  ⟨_, watches_of_run (run_exec_iff.mpr rfl)⟩

/-- The statement above at a socket that comes back after these callbacks. -/
theorem callback_of_run_again : ∃ m m' : SocketEvents Nat Nat, m.curlSocketCB ⟨1, 6, 2, 1, 1⟩ = some m' :=
  ⟨_, callback_of_run (l := callbacks) (run_exec_iff.mpr rfl) ⟨fun _ => rfl, nofun⟩⟩

end SocketEvents
end XLN
