import Mutgos.CommInterface.SessionTables

/-!
# Sessions that have been deleted

A session that has been removed is processed once more and then deleted, by
`service_sessions`.  A request for service is not listed while the session waits to be deleted,
so that it is not processed afterwards.  The list of those that wait is taken away before they
are deleted, though, and until its destructor has left the channels a session may be called
back, and request service.

## Main results

* `RouterSystem.notUsedDeleted_of_reachable` — **no session is used after it is deleted, where
  none requests service while it is being deleted.**
-/

namespace Mutgos.CommInterface

open DbTypes List

namespace RouterThread

/-- No session waits to be deleted, as nothing has been removed since it was looked. -/
def drained : RouterThread → Bool
  | processing _ false | deleting _ => true
  | _ => false

theorem drained_of_serviced {t : RouterThread} (h : t.serviced = true) : t.drained = true := by
  match t with
  | processing [] false | deleting [] => rfl

theorem drained_eq_false {t : RouterThread} (h : t.hasCallbackLock = false) :
    t.drained = false := by
  cases t with
  | idle | authorizing => rfl
  | processing | deleting => cases h

theorem deletes_of_hasCallbackLock {t : RouterThread} (h : t.hasCallbackLock = false) :
    t.deletes = [] := by
  cases t with
  | idle | authorizing => rfl
  | processing | deleting => cases h

end RouterThread

namespace RouterSystem

/-- A session that is being deleted requests service only if it has done so since it was
processed. -/
def AsksInTime (s : RouterSystem) : RouterStep → Prop
  | .requestService session =>
    session ∈ s.thread.deletes → s.router.hasRequestedService session = true
  | _ => True

instance (s : RouterSystem) (a : RouterStep) : Decidable (s.AsksInTime a) := by
  cases a <;> unfold AsksInTime <;> infer_instance

/-- What is listed is there, and stays until it has been processed. -/
structure Lifetime (s : RouterSystem) : Prop where
  asked : ∀ session ∈ s.router.manager.pendingActions, s.router.Live session ∧
    session ∉ s.thread.deletes ∧
    (s.thread.hasCallbackLock = true → session ∉ s.router.manager.pendingDeletes)
  taken : ∀ session ∈ s.thread.sessions, s.router.Live session
  drained : s.thread.drained = true → s.router.manager.pendingDeletes = []
  unused : s.usedDeleted = false

theorem lifetime_new : new.Lifetime := ⟨fun _ => nofun, fun _ => nofun, nofun, rfl⟩

/-- A session that requests service is listed only if it is not being deleted. -/
theorem asked_request {s : RouterSystem} (h : s.Lifetime) {session : SessionPtr}
    (hlive : s.router.Live session)
    (hasks : session ∈ s.thread.deletes → s.router.hasRequestedService session = true)
    {actions : List SessionPtr} (hactions : actions = s.router.manager.pendingActions ∨
      s.router.hasRequestedService session = false ∧
        session ∉ s.router.manager.pendingDeletes ∧
        actions = s.router.manager.pendingActions ++ [session]) :
    ∀ session' ∈ actions, s.router.Live session' ∧ session' ∉ s.thread.deletes ∧
      (s.thread.hasCallbackLock = true →
        session' ∉ s.router.manager.pendingDeletes) := by
  rcases hactions with rfl | ⟨hrequested, hwaits, rfl⟩
  · exact h.asked
  · intro session' hmem
    rcases mem_append.mp hmem with hmem | hmem
    · exact h.asked session' hmem
    · rw [mem_singleton] at hmem
      subst hmem
      refine ⟨hlive, fun hdelete => ?_, fun _ => hwaits⟩
      rw [hasks hdelete] at hrequested
      cases hrequested

/-- Each step that keeps to it keeps what is listed. -/
theorem Lifetime.step {s s' : RouterSystem} {a : RouterStep} (hagree : s.Agree)
    (h : s.Lifetime) (hok : s.AsksInTime a) (hstep : s.step a = some s') : s'.Lifetime := by
  have hr := hagree.router
  have hremove : ∀ session, s.thread.hasCallbackLock = false →
      (∀ session' ∈ (s.router.removeSession session).manager.pendingActions,
        (s.router.removeSession session).Live session') ∧
      ∀ session' ∈ s.thread.sessions, (s.router.removeSession session).Live session' := by
    intro session hlock
    rcases s.router.removeSession_eq session with ⟨-, heq⟩ | ⟨connection, -, heq⟩
    · rw [heq]
      exact ⟨fun session' hmem => (h.asked session' hmem).1, h.taken⟩
    · rw [heq]
      exact ⟨fun session' hmem => (h.asked session' hmem).1, h.taken⟩
  cases next_of_step hstep with
  | setEntityId hthread hfree => exact ⟨h.asked, h.taken, h.drained, h.unused⟩
  | @authorizeClient id driver connection hthread hfree hid =>
    refine ⟨fun session hmem => ⟨?_, not_mem_nil, (by rintro ⟨⟩)⟩, by rintro _ ⟨⟩,
      (by rintro ⟨⟩), h.unused⟩
    dsimp only at hmem ⊢
    rw [Router.disconnectSession] at hmem ⊢
    cases hsession : s.router.manager.getEntitySession id with
    | none =>
      rw [hsession] at hmem
      exact (h.asked session hmem).1
    | some session' =>
      rw [hsession] at hmem
      exact (hremove session' (by rw [hthread]; rfl)).1 session hmem
  | @addSession id driver connection hthread =>
    obtain ⟨hid, -, -⟩ := hagree.authorizing id driver connection hthread
    rw [s.router.newSession_eq driver connection hid hr.find_nextSession]
    refine ⟨fun session hmem => ?_, by rintro _ ⟨⟩, (by rintro ⟨⟩), h.unused⟩
    dsimp only at hmem
    rw [RouterSessionManager.addEntitySession_pendingActions] at hmem
    obtain ⟨⟨hlt, hdeleted⟩, -⟩ := h.asked session hmem
    exact ⟨⟨Nat.lt_succ_of_lt hlt, hdeleted⟩, not_mem_nil, (by rintro ⟨⟩)⟩
  | @reauthorizeClient id driver connection session hthread hfree hid hsession =>
    obtain ⟨oldConnection, hold, -⟩ := (hr.entity id session).mp hsession
    obtain ⟨actions, requested, released, hactions, heq⟩ := s.router.reauthorizeClient_eq driver
      connection hid hold (hr.client session oldConnection hold)
    rw [heq]
    have hasks : session ∈ s.thread.deletes → s.router.hasRequestedService session = true := by
      rw [hthread]
      rintro ⟨⟩
    exact ⟨asked_request h (hr.live_of_find hold) hasks hactions, h.taken, h.drained, h.unused⟩
  | notFound => exact h
  | @removeSession session hlock =>
    have hdeletes := RouterThread.deletes_of_hasCallbackLock hlock
    have hdrained := RouterThread.drained_eq_false hlock
    refine ⟨fun session' hmem => ⟨(hremove session hlock).1 session' hmem, ?_, fun htrue => ?_⟩,
      (hremove session hlock).2, fun htrue => ?_, h.unused⟩
    · rw [hdeletes]
      exact not_mem_nil
    · rw [hlock] at htrue
      cases htrue
    · rw [hdrained] at htrue
      cases htrue
  | @requestService session hlive =>
    obtain ⟨actions, requested, hactions, heq⟩ := s.router.requestService_eq session
    rw [heq]
    exact ⟨asked_request h hlive hok hactions, h.taken, h.drained, h.unused⟩
  | takeActions hthread =>
    refine ⟨by rintro _ ⟨⟩, fun session hmem => (h.asked session hmem).1, fun hdrained => ?_,
      h.unused⟩
    dsimp only [Router.takeActions] at hdrained ⊢
    cases hwaits : s.router.manager.pendingDeletes with
    | nil => rfl
    | cons session sessions =>
      rw [hwaits] at hdrained
      cases hdrained
  | @processPending session sessions needDeletes hthread =>
    have hlive : s.router.Live session := h.taken session (by rw [hthread]; exact
      mem_cons_self)
    have hasked := h.asked
    have htaken := h.taken
    have hdrained := h.drained
    rw [hthread] at hasked htaken hdrained
    refine ⟨hasked, fun session' hmem => htaken session' (mem_cons_of_mem _ hmem),
      fun htrue => hdrained ?_, ?_⟩
    · cases needDeletes with
      | false => rfl
      | true => cases htrue
    · dsimp only
      rw [h.unused, Bool.false_or]
      exact decide_eq_false hlive.2
  | takeDeletes hthread =>
    refine ⟨fun session hmem => ?_, by rintro _ ⟨⟩, fun _ => rfl, h.unused⟩
    obtain ⟨hlive, -, hwaits⟩ := h.asked session hmem
    exact ⟨hlive, hwaits (by rw [hthread]; rfl), fun _ => not_mem_nil⟩
  | @deleteSession session deletes hthread =>
    have hasked := h.asked
    have hdrained := h.drained
    rw [hthread] at hasked hdrained
    obtain ⟨released, hreleased⟩ := s.router.releaseConnection_eq (s.router.clientPtrs session)
    rw [Router.deleteSession, hreleased]
    refine ⟨fun session' hmem => ?_, by rintro _ ⟨⟩, hdrained, h.unused⟩
    obtain ⟨⟨hlt, hdeleted⟩, hother, hwaits⟩ := hasked session' hmem
    obtain ⟨hne, hrest⟩ := not_or.mp (mt mem_cons.mpr hother)
    refine ⟨⟨hlt, fun hmem => ?_⟩, hrest, hwaits⟩
    rcases mem_append.mp hmem with hmem | hmem
    · exact hdeleted hmem
    · exact hne (mem_singleton.mp hmem)
  | finishService hserviced =>
    exact ⟨fun session hmem => ⟨(h.asked session hmem).1, not_mem_nil, (by rintro ⟨⟩)⟩,
      by rintro _ ⟨⟩, (by rintro ⟨⟩), h.unused⟩

/-- No session is used after it is deleted, and each is deleted once. -/
structure NotUsedDeleted (s : RouterSystem) : Prop where
  /-- No list and no table refers to a session that has been deleted. -/
  pendingActions : ∀ session ∈ s.router.deleted, session ∉ s.router.manager.pendingActions
  pendingDeletes : ∀ session ∈ s.router.deleted, session ∉ s.router.manager.pendingDeletes
  sessionToConnection : ∀ session ∈ s.router.deleted, ∀ connection,
    (session, connection) ∉ s.router.manager.sessionToConnection
  connectionToSession : ∀ session ∈ s.router.deleted, ∀ connection driver,
    (connection, driver, session) ∉ s.router.manager.connectionToSession
  siteToSessions : ∀ session ∈ s.router.deleted, ∀ site sessions id,
    (site, sessions) ∈ s.router.manager.siteToSessions → (id, session) ∉ sessions
  /-- `process_pending` has not been called on one. -/
  unused : s.usedDeleted = false
  /-- Each session there has been is connected, or waits to be deleted, or is about to be, or
  has been, once. -/
  once : (s.router.manager.sessionToConnection.map Prod.fst ++ s.router.manager.pendingDeletes ++
    s.thread.deletes ++ s.router.deleted).Perm (List.range s.router.nextSession)
  /-- None waits any longer when `service_sessions` returns. -/
  serviced : s.thread.serviced = true → s.router.manager.pendingDeletes = []

/-- **No session is used after it is deleted, where none requests service while it is being
deleted.** -/
theorem notUsedDeleted_of_reachable {s : RouterSystem} (h : Reachable step AsksInTime new s) :
    s.NotUsedDeleted := by
  have hboth : s.Agree ∧ s.Lifetime := by
    refine h.invariant (I := fun s => s.Agree ∧ s.Lifetime) ⟨agree_new, lifetime_new⟩ ?_
    intro s a s' hs hok hstep
    exact ⟨hs.1.step hstep, hs.2.step hs.1 hok hstep⟩
  obtain ⟨hagree, hlifetime⟩ := hboth
  have hr := hagree.router
  have hgone : ∀ session ∈ s.router.deleted, ¬s.router.Live session :=
    fun session hdeleted hlive => hlive.2 hdeleted
  refine ⟨fun session hdeleted hmem => hgone session hdeleted (hlifetime.asked session hmem).1,
    fun session hdeleted hmem => hgone session hdeleted (hr.live ?_),
    fun session hdeleted connection hmem => hgone session hdeleted (hr.live ?_),
    fun session hdeleted connection driver hmem => hgone session hdeleted ?_,
    fun session hdeleted site sessions id hsite hmem => hgone session hdeleted ?_,
    hlifetime.unused, hr.places,
    fun hserviced => hlifetime.drained (RouterThread.drained_of_serviced hserviced)⟩
  · exact List.mem_append_left _ (List.mem_append_right _ hmem)
  · exact List.mem_append_left _ (List.mem_append_left _
      (List.mem_map_of_mem (f := Prod.fst) hmem))
  · exact (hr.session connection driver session
      (hr.inOrder.connectionToSession.mem_iff.mp hmem)).1
  · obtain ⟨connection, hfind, -⟩ := (hr.entity id session).mp
      (hr.inOrder.getEntitySession_of_mem hsite hmem)
    exact hr.live_of_find hfind

/-- A session is disconnected and deleted, after a request that came before. -/
theorem notUsedDeleted_request : ∃ s : RouterSystem, s.NotUsedDeleted ∧
    s.router.deleted = [0] ∧ s.router.released = [(0, 10)] := by
  obtain ⟨s, hs, heq⟩ := Option.map_eq_some_iff.mp
    (show (run (guarded step AsksInTime) new [.authorizeClient ⟨1, 5⟩ 0 10, .addSession,
      .requestService 0, .removeSession 0, .takeActions, .processPending, .requestService 0,
      .takeDeletes, .requestService 0, .deleteSession, .finishService]).map (fun s =>
        (s.router.deleted, s.router.released)) = some ([0], [(0, 10)]) by decide +kernel)
  rw [Prod.mk.injEq] at heq
  exact ⟨s, notUsedDeleted_of_reachable (reachable_of_run_guarded .init hs), heq⟩

/-- A channel calls a session back that is about to be deleted: the session is listed once it
is gone, and then it is processed. -/
theorem used_deleted_request :
    (∃ s, run step new [.authorizeClient ⟨1, 5⟩ 0 10, .addSession, .removeSession 0,
        .takeActions, .takeDeletes, .requestService 0, .deleteSession, .finishService] = some s ∧
      s.router.deleted = [0] ∧ s.router.manager.pendingActions = [0]) ∧
    ∃ s, run step new [.authorizeClient ⟨1, 5⟩ 0 10, .addSession, .removeSession 0,
        .takeActions, .takeDeletes, .requestService 0, .deleteSession, .finishService,
        .takeActions, .processPending] = some s ∧
      s.usedDeleted = true ∧ ¬s.NotUsedDeleted := by
  constructor
  · obtain ⟨s, hs, heq⟩ := Option.map_eq_some_iff.mp
      (show (run step new [.authorizeClient ⟨1, 5⟩ 0 10, .addSession, .removeSession 0,
        .takeActions, .takeDeletes, .requestService 0, .deleteSession, .finishService]).map
          (fun s => (s.router.deleted, s.router.manager.pendingActions)) =
        some ([0], [0]) by decide +kernel)
    rw [Prod.mk.injEq] at heq
    exact ⟨s, hs, heq⟩
  · obtain ⟨s, hs, hused⟩ := Option.map_eq_some_iff.mp
      (show (run step new [.authorizeClient ⟨1, 5⟩ 0 10, .addSession, .removeSession 0,
        .takeActions, .takeDeletes, .requestService 0, .deleteSession, .finishService,
        .takeActions, .processPending]).map (fun s => s.usedDeleted) = some true by
          decide +kernel)
    refine ⟨s, hs, hused, fun h => ?_⟩
    rw [h.unused] at hused
    cases hused

end RouterSystem

end Mutgos.CommInterface
