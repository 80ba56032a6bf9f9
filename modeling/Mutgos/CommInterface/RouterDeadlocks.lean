import Mutgos.CommInterface.RouterLocks

/-!
# Deadlocks of the communication layer

Sessions and channels call up: a channel has its mutex when it calls a session, which has
`client_lock` when it requests service of the router, and all of this may be under
`callback_lock`.  The router calls down as well: it looks at sessions, adds channels to them
and disconnects them while it has `router_lock`.  The former are in one order, with
`router_lock` last, and who is in the middle of the latter is in nobody's way, unless another
thread is on its way up from there.

## Main results

* `CommCall.no_waiting_cycle` — **no threads wait for each other in a cycle, in every run in
  which calls down and up are apart.**
-/

namespace Mutgos.CommInterface

open LockCode CommCode

namespace CommLock

/-- The order of who calls up. -/
def rank : CommLock → ℕ
  | callback => 0
  | channel _ => 1
  | client _ => 2
  | router => 3

/-- The lock of a session. -/
def isClient : CommLock → Bool
  | client _ => true
  | _ => false

/-- A lock may be taken under another: in the order, or under `router_lock`, or when a session
calls another by way of a channel. -/
def Allows (l l' : CommLock) : Prop :=
  l.rank < l'.rank ∨ l = router ∨ l.isClient = true ∧ l'.isClient = true

theorem rank_lt_router {l : CommLock} (h : l ≠ router) : l.rank < router.rank := by
  cases l with
  | router => exact absurd rfl h
  | callback | channel | client => simp [rank]

theorem rank_le_router (l : CommLock) : l.rank ≤ router.rank := by
  by_cases h : l = router
  · rw [h]
  · exact (rank_lt_router h).le

/-- Anything else is below `router_lock`. -/
theorem allows_router {l : CommLock} (h : l ≠ router) : l.Allows router :=
  .inl (rank_lt_router h)

/-- A session may be called under anything. -/
theorem allows_client (l : CommLock) (session : SessionPtr) : l.Allows (client session) := by
  cases l with
  | router => exact .inr (.inl rfl)
  | callback => exact .inl Nat.zero_lt_two
  | channel _ => exact .inl Nat.one_lt_two
  | client _ => exact .inr (.inr ⟨rfl, rfl⟩)

end CommLock

/-! ### What functions take -/

namespace CommCode

/-- What is taken is allowed, and given back. -/
abbrev Neat (held : List CommLock) (code : CommCode) : Prop :=
  Orderly CommLock.Allows held code held

variable {held : List CommLock} {body : CommCode} {channel : ChannelPtr}

theorem neat_router (h : Neat (.router :: held) body) : Neat held (locked .router body) := by
  refine Orderly.locked (fun hnot l hl => CommLock.allows_router ?_) h
  rintro rfl
  exact hnot hl

theorem neat_client {session : SessionPtr} (h : Neat (.client session :: held) body) :
    Neat held (locked (.client session) body) :=
  Orderly.locked (fun _ l _ => CommLock.allows_client l session) h

/-- Nothing is held but what the router has. -/
def OnlyRouter (held : List CommLock) : Prop := ∀ l ∈ held, l = .callback ∨ l = .router

theorem onlyRouter_nil : OnlyRouter [] := fun _ => nofun

theorem OnlyRouter.callback (h : OnlyRouter held) : OnlyRouter (.callback :: held) := by
  intro l hl
  rcases List.mem_cons.mp hl with rfl | hl
  · exact .inl rfl
  · exact h l hl

theorem OnlyRouter.router (h : OnlyRouter held) : OnlyRouter (.router :: held) := by
  intro l hl
  rcases List.mem_cons.mp hl with rfl | hl
  · exact .inr rfl
  · exact h l hl

/-- A channel may be called: nothing is held but what the router has, or the channel is. -/
def CanCall (held : List CommLock) (channel : ChannelPtr) : Prop :=
  OnlyRouter held ∨ .channel channel ∈ held

theorem neat_channel (hcan : CanCall held channel) (h : Neat (.channel channel :: held) body) :
    Neat held (locked (.channel channel) body) := by
  rcases hcan with hrouter | hmem
  · refine Orderly.locked (fun _ l hl => ?_) h
    rcases hrouter l hl with rfl | rfl
    · exact .inl Nat.zero_lt_one
    · exact .inr (.inl rfl)
  · exact .relocked hmem h

theorem neat_requestService (asks : Bool) : Neat held (requestService asks) := by
  cases asks with
  | false => exact orderly_nil held
  | true => exact neat_router (orderly_nil _)

theorem neat_sessionCall (session : SessionPtr) (asks : Bool) :
    Neat held (sessionCall session asks) :=
  neat_client (neat_requestService asks)

theorem neat_channelCall (hcan : CanCall held channel) (callbacks : List Callback) :
    Neat held (channelCall channel callbacks) :=
  neat_channel hcan (.flatMap callbacks fun b _ => neat_sessionCall b.session b.asks)

theorem neat_withToken (hcan : CanCall held channel) (h : Neat (.channel channel :: held) body) :
    Neat held (withToken channel body) :=
  (neat_channel hcan h).append (neat_channelCall hcan [])

/-- Under the lock of a session, a channel is called by who has it. -/
theorem canCall_client (session : SessionPtr) (channel : ChannelPtr) :
    CanCall (.client session :: .channel channel :: held) channel :=
  .inr (List.mem_cons_of_mem _ List.mem_cons_self)

theorem neat_unregisterChannel {c : ChannelCalls} (hcan : CanCall held c.channel) :
    Neat held (unregisterChannel c) :=
  .flatMap c.calls fun callbacks _ => neat_channelCall hcan callbacks

theorem neat_processPending (hrouter : OnlyRouter held) (session : SessionPtr)
    (work : Option SessionWork) : Neat held (processPending session work) := by
  have hlook : Neat held (locked (.client session) []) := neat_client (orderly_nil _)
  refine hlook.append ?_
  cases work with
  | none => exact orderly_nil held
  | some w =>
    have hclosed : Neat held (w.closed.elim [] (processPendingChannelDeletes session)) := by
      cases w.closed with
      | none => exact orderly_nil held
      | some closed =>
        exact hlook.append (.flatMap closed fun c _ => neat_unregisterChannel (.inl hrouter))
    have hunblocked : Neat held (processPendingUnblockedChannels session w.unblocked) := by
      refine (hlook.append (.flatMap w.unblocked fun found _ => hlook.append ?_)).append hlook
      cases found with
      | none => exact orderly_nil held
      | some c =>
        exact neat_withToken (.inl hrouter) (neat_client (.flatMap c.calls fun callbacks _ =>
          neat_channelCall (canCall_client session c.channel) callbacks))
    exact (hclosed.append hunblocked).append (neat_sessionCall session w.asks)

theorem neat_releaseConnection (h : CommLock.callback ∈ held) : Neat held releaseConnection :=
  .relocked h (neat_router (orderly_nil _))

theorem neat_deleteSession (session : SessionPtr) (channels : List ChannelCalls) :
    Neat [.callback] (deleteSession session channels) := by
  have hlook : Neat [.callback] (locked (.client session) []) := neat_client (orderly_nil _)
  have hchannels : Neat [.callback] (channels.flatMap unregisterChannel) :=
    .flatMap channels fun c _ => neat_unregisterChannel (.inl onlyRouter_nil.callback)
  have hrelease : Neat [.callback] (locked (.client session) releaseConnection) :=
    neat_client (neat_releaseConnection (List.mem_cons_of_mem _ List.mem_cons_self))
  exact (hlook.append hchannels).append hrelease

theorem neat_serviceSessions (sessions : List (SessionPtr × Option SessionWork))
    (deletes : Option (List (SessionPtr × List ChannelCalls))) :
    Neat [] (serviceSessions sessions deletes) := by
  have hlook : Neat [.callback] (locked .router []) := neat_router (orderly_nil _)
  have hsessions : Neat [.callback] (sessions.flatMap fun p => processPending p.1 p.2) :=
    .flatMap sessions fun p _ => neat_processPending onlyRouter_nil.callback p.1 p.2
  refine Orderly.locked (fun _ _ => nofun) ((hlook.append hsessions).append ?_)
  cases deletes with
  | none => exact orderly_nil _
  | some ps => exact hlook.append (.flatMap ps fun p _ => neat_deleteSession p.1 p.2)

/-- Callbacks are locked by who has nothing but what the router has. -/
theorem neat_callback (h : OnlyRouter held) (hbody : Neat (.callback :: held) body) :
    Neat held (locked .callback body) := by
  refine Orderly.locked (fun hnot l hl => ?_) hbody
  rcases h l hl with rfl | rfl
  · exact absurd hl hnot
  · exact .inr (.inl rfl)

theorem neat_addSession (h : OnlyRouter held) : Neat held addSession :=
  neat_callback h (neat_router (orderly_nil _))

theorem neat_disconnectSession (h : OnlyRouter held) (online : Bool) :
    Neat held (disconnectSession online) := by
  have hlook : Neat held (locked .router []) := neat_router (orderly_nil _)
  refine hlook.append ?_
  cases online with
  | false => exact orderly_nil held
  | true => exact neat_addSession h

theorem neat_authorizeClient (online : Bool) : Neat [] (authorizeClient online) := by
  refine (neat_router ?_).append (neat_addSession onlyRouter_nil)
  cases online with
  | false => exact orderly_nil _
  | true => exact neat_disconnectSession onlyRouter_nil.router true

theorem neat_reauthorizeClient (found : Option Callback) (makeNew : Option Bool) :
    Neat [] (reauthorizeClient found makeNew) := by
  cases found with
  | some b =>
    have hset : Neat [.router, .callback] (setClientConnection b.session b.asks) :=
      neat_client ((neat_releaseConnection (by simp)).append (neat_requestService b.asks))
    exact neat_callback onlyRouter_nil (neat_router
      (hset.append (neat_addSession onlyRouter_nil.callback.router)))
  | none =>
    refine (neat_callback onlyRouter_nil (neat_router (orderly_nil _))).append ?_
    cases makeNew with
    | none => exact orderly_nil _
    | some online => exact neat_authorizeClient online

theorem neat_addChannel (found : Option Callback) (channel : ChannelPtr) :
    Neat [] (addChannel found channel) := by
  refine neat_callback onlyRouter_nil (neat_router ?_)
  cases found with
  | none => exact orderly_nil _
  | some b =>
    refine neat_withToken (.inl onlyRouter_nil.callback.router) (neat_client ?_)
    exact (neat_requestService b.asks).append
      (neat_channelCall (canCall_client b.session channel) [])

theorem neat_clientData (session : SessionPtr) (outcome : ClientDataOutcome) :
    Neat [] (clientData session outcome) := by
  have hlook : Neat [] (locked (.client session) []) := neat_client (orderly_nil _)
  refine hlook.append ?_
  cases outcome with
  | ignored => exact orderly_nil _
  | wrongDirection asks => exact neat_sessionCall session asks
  | taken asks c asksAgain =>
    have hsent : Neat [.client session, .channel c.channel]
        (c.calls.flatMap (channelCall c.channel)) :=
      .flatMap c.calls fun callbacks _ =>
        neat_channelCall (canCall_client session c.channel) callbacks
    exact neat_withToken (.inl onlyRouter_nil) (neat_client
      (((neat_requestService asks).append hsent).append (neat_requestService asksAgain)))

end CommCode

namespace CommCall

/-- **What each function takes is allowed.** -/
theorem orderly_program (call : CommCall) : Orderly CommLock.Allows [] call.program [] := by
  cases call with
  | authorizeClient online => exact neat_authorizeClient online
  | reauthorizeClient found makeNew => exact neat_reauthorizeClient found makeNew
  | addChannel found channel => exact neat_addChannel found channel
  | disconnectSession online => exact neat_disconnectSession onlyRouter_nil online
  | getSessionStats sessions =>
    exact neat_router
      (.flatMap sessions fun session _ => neat_client (orderly_nil _))
  | serviceSessions sessions deletes => exact neat_serviceSessions sessions deletes
  | clientData session outcome => exact neat_clientData session outcome
  | channelCall channel callbacks =>
    exact neat_channelCall (.inl onlyRouter_nil) callbacks
  | sessionCall session asks => exact neat_sessionCall session asks

/-! ### What a run has to avoid -/

section Apart

variable {n : ℕ} (s : Fin n → LockThread CommLock)

/-- The locks that a thread is to take under one that it has. -/
def toTake (t : Fin n) (l : CommLock) : List CommLock := lockedUnder l (s t).held (s t).todo

/-- Nobody has `router_lock` and is to take a lock under it, while another has the same lock, or
one that comes later, and is to take `router_lock` under that; and no session calls another. -/
def Apart : Prop :=
  (∀ t u, t ≠ u → ∀ l ∈ toTake s t .router, ∀ l' ∈ (s u).held, .router ∈ toTake s u l' →
    ¬ NotBefore CommLock.rank l l') ∧
  ∀ t, ∀ l ∈ (s t).held, l.isClient = true → ∀ l' ∈ toTake s t l, l'.isClient = false

instance (l l' : CommLock) : Decidable (NotBefore CommLock.rank l l') :=
  inferInstanceAs (Decidable (_ ∨ _))

instance : Decidable (Apart s) := inferInstanceAs (Decidable (_ ∧ _))

/-- A step after which calls down and up are apart. -/
def Ok (a : LockMove (Fin n) CommCall) : Prop := ∀ s' ∈ lockStep program s a, Apart s'

instance (a : LockMove (Fin n) CommCall) : Decidable (Ok s a) :=
  inferInstanceAs (Decidable (∀ s' ∈ lockStep program s a, _))

end Apart

variable {n : ℕ} {s : Fin n → LockThread CommLock}

theorem apart_idleThreads : Apart (idleThreads : Fin n → LockThread CommLock) :=
  ⟨fun _ _ _ _ hmem => absurd hmem List.not_mem_nil, fun _ _ hmem => absurd hmem List.not_mem_nil⟩

/-- **No threads wait for each other in a cycle**, and none for what it has, in every run of any
number of threads in which calls down and up are apart. -/
theorem no_waiting_cycle (h : Reachable (lockStep program) Ok (idleThreads : Fin n → _) s) :
    (∀ t l, Waits s t l → ¬ Holds s t l) ∧
      ∀ t, ¬ Relation.TransGen (WaitsFor (Holds s) (Waits s)) t t := by
  have hboth : Disciplined CommLock.Allows s ∧ Apart s := by
    refine h.invariant (I := fun s => Disciplined CommLock.Allows s ∧ Apart s)
      ⟨disciplined_idleThreads, apart_idleThreads⟩ fun s a s' hs hok hstep => ?_
    exact ⟨hs.1.step orderly_program hstep, hok s' hstep⟩
  obtain ⟨hdisciplined, hapart, hacross⟩ := hboth
  refine ⟨fun t l hwaits => hdisciplined.not_holds_of_waits hwaits, fun t => ?_⟩
  refine not_transGen_of_apart hdisciplined CommLock.rank .router ?_
    CommLock.rank_le_router ?_ t
  · intro t l l' htake hne
    rcases hdisciplined.allows_of_isToTake htake with hlt | heq | ⟨hclient, hclient'⟩
    · exact hlt
    · exact absurd heq hne
    · rw [hacross t l htake.mem_held hclient l' htake] at hclient'
      cases hclient'
  · intro t u l l' hne htake htake'
    exact hapart t u hne l htake l' htake'.mem_held htake'

/-- Sessions are serviced while a channel calls one of them back: the router waits, until the
channel has got through to it. -/
theorem no_waiting_cycle_service : ∃ s : Fin 2 → LockThread CommLock,
    WaitsFor (Holds s) (Waits s) 0 1 ∧
      ∀ t, ¬ Relation.TransGen (WaitsFor (Holds s) (Waits s)) t t := by
  obtain ⟨s, hs, hwaits⟩ := Option.map_eq_some_iff.mp
    (show (run (guarded (lockStep program) Ok) (idleThreads : Fin 2 → _)
      [.start 1 (.channelCall 5 [⟨0, true⟩]), .go 1, .go 1,
        .start 0 (.serviceSessions [(0, some ⟨none, [], true⟩)] none), .go 0, .go 0, .go 0,
        .go 1]).map (fun s => decide (WaitsFor (Holds s) (Waits s) 0 1)) = some true by
      decide +kernel)
  exact ⟨s, of_decide_eq_true hwaits, (no_waiting_cycle (reachable_of_run_guarded .init hs)).2⟩

/-- A player that is online is authorized once more, under `router_lock`, and has to be
disconnected for that, under `callback_lock`, which who disconnects a player elsewhere has. -/
theorem waiting_cycle_authorizeClient :
    ¬ ∀ n (s : Fin n → LockThread CommLock) as, run (lockStep program) idleThreads as = some s →
      ∀ t, ¬ Relation.TransGen (WaitsFor (Holds s) (Waits s)) t t := by
  intro h
  obtain ⟨s, hs, hwaits⟩ := Option.map_eq_some_iff.mp
    (show (run (lockStep program) (idleThreads : Fin 2 → _)
      [.start 1 (.disconnectSession true), .go 1, .go 1, .go 1,
        .start 0 (.authorizeClient true), .go 0, .go 0, .go 0]).map (fun s =>
          decide (WaitsFor (Holds s) (Waits s) 0 1 ∧ WaitsFor (Holds s) (Waits s) 1 0)) =
      some true by decide +kernel)
  obtain ⟨hfirst, hsecond⟩ := of_decide_eq_true hwaits
  exact h 2 s _ hs 0 (.tail (.single hfirst) hsecond)

end CommCall

end Mutgos.CommInterface
