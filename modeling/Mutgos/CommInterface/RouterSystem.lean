import Mutgos.CommInterface.RouterSessionManager
import Mutgos.Lib.TransitionSystem

/-!
# The router and the threads that call it

The sections of `RouterSessionManager` that are under `router_lock`, as steps.  Connections
are serviced on one thread, that of the router: it authorizes clients, in two sections, and
services sessions, in several.  Any other thread may disconnect a session, and a channel may
call a session back from any thread, so that it requests service.

While sessions are serviced the thread of the router has `callback_lock`, and so nothing is
done elsewhere that needs it.

## Main results

* `RouterSystem.next_of_step` — what a step does, for each of them.

## Implementation notes

A disconnection finds a session in one section and removes it in another, and what it has
found may be gone by then, with something else at its address: here what is removed can be any
session.
-/

namespace Mutgos.CommInterface

open DbTypes

/-- What the thread of the router is doing. -/
inductive RouterThread where
  /-- Nothing that takes more than one section. -/
  | idle
  /-- `authorize_client`, with the old session gone and the new one not made. -/
  | authorizing (id : Id) (driver : DriverPtr) (connection : ConnectionPtr)
  /-- `service_sessions`, at its first loop. -/
  | processing (sessions : List SessionPtr) (needDeletes : Bool)
  /-- `service_sessions`, at its second loop: these are left of `deletes`. -/
  | deleting (deletes : List SessionPtr)
  deriving DecidableEq

namespace RouterThread

/-- `callback_lock` is held from one section to the next. -/
def hasCallbackLock : RouterThread → Bool
  | idle | authorizing .. => false
  | processing .. | deleting _ => true

/-- The sessions that are about to be processed. -/
def sessions : RouterThread → List SessionPtr
  | processing sessions _ => sessions
  | _ => []

/-- The sessions that are about to be deleted. -/
def deletes : RouterThread → List SessionPtr
  | deleting deletes => deletes
  | _ => []

/-- The thread has come to the end of `service_sessions`. -/
def serviced : RouterThread → Bool
  | processing [] false | deleting [] => true
  | _ => false

/-- Nothing is left to delete. -/
theorem deletes_of_serviced {t : RouterThread} (h : t.serviced = true) : t.deletes = [] := by
  match t with
  | processing [] false | deleting [] => rfl

end RouterThread

namespace Router

/-- The session is there. -/
def Live (r : Router) (session : SessionPtr) : Prop :=
  session < r.nextSession ∧ session ∉ r.deleted

instance (r : Router) (session : SessionPtr) : Decidable (r.Live session) :=
  inferInstanceAs (Decidable (_ ∧ _))

/-- A connection without a session. -/
def Free (r : Router) (connection : ConnectionPtr) : Prop :=
  ∀ session < r.nextSession, session ∉ r.deleted → r.clientPtrs session ≠ connection

instance (r : Router) (connection : ConnectionPtr) : Decidable (r.Free connection) :=
  inferInstanceAs (Decidable (∀ session < _, _ → _))

/-- `disconnect_session` by the thread that has found the session. -/
def disconnectSession (r : Router) (id : Id) : Router :=
  match r.manager.getEntitySession id with
  | none => r
  | some session => r.removeSession session

/-- What becomes of the lists when their entries are about to be processed. -/
def takeActions (r : Router) : Router :=
  { r with manager := { r.manager with pendingActions := [] } }

/-- What becomes of the lists when their entries are about to be deleted. -/
def takeDeletes (r : Router) : Router :=
  { r with manager := { r.manager with pendingDeletes := [] } }

end Router

/-- The router, and where its thread is. -/
structure RouterSystem where
  router : Router
  thread : RouterThread
  /-- History: a session has been used after it was deleted. -/
  usedDeleted : Bool

/-- What can happen. -/
inductive RouterStep where
  /-- A driver gives a connection that has no session yet an ID of its own. -/
  | setEntityId (connection : ConnectionPtr) (id : Id)
  /-- `authorize_client` with a good password, up to where `router_lock` is released. -/
  | authorizeClient (id : Id) (driver : DriverPtr) (connection : ConnectionPtr)
  /-- The rest of it. -/
  | addSession
  /-- `reauthorize_client` with a good password.  Where there is no session it does nothing,
  and `authorize_client` may follow. -/
  | reauthorizeClient (id : Id) (driver : DriverPtr) (connection : ConnectionPtr)
  /-- `remove_session`, by any thread. -/
  | removeSession (session : SessionPtr)
  /-- `request_service` of a session, by any thread. -/
  | requestService (session : SessionPtr)
  /-- `service_sessions`, its first section. -/
  | takeActions
  /-- A round of its first loop. -/
  | processPending
  /-- Its second section. -/
  | takeDeletes
  /-- A round of its second loop. -/
  | deleteSession
  /-- Its end. -/
  | finishService
  deriving DecidableEq

namespace RouterSystem

/-- Nothing yet. -/
def new : RouterSystem := ⟨.new, .idle, false⟩

/-- What a step does, where it can happen. -/
def step (s : RouterSystem) : RouterStep → Option RouterSystem
  | .setEntityId connection id =>
    if s.thread = .idle ∧ s.router.Free connection then
      some { s with
        router := { s.router with
          entityIds := Function.update s.router.entityIds connection id } }
    else none
  | .authorizeClient id driver connection =>
    -- `disconnect_session` takes both locks again, and has one of them already.
    if s.thread = .idle ∧ s.router.Free connection ∧ id.isDefault = false then
      some { s with
        router := s.router.disconnectSession id
        thread := .authorizing id driver connection }
    else none
  | .addSession =>
    match s.thread with
    | .authorizing id driver connection =>
      some { s with
        router := s.router.newSession driver connection id
        thread := .idle }
    | _ => none
  | .reauthorizeClient id driver connection =>
    if s.thread = .idle ∧ s.router.Free connection ∧ id.isDefault = false then
      match s.router.manager.getEntitySession id with
      | some session =>
        some { s with router := s.router.reauthorizeClient driver connection session id }
      | none => some s
    else none
  | .removeSession session =>
    if s.thread.hasCallbackLock = false then
      some { s with router := s.router.removeSession session }
    else none
  | .requestService session =>
    if s.router.Live session then some { s with router := s.router.requestService session }
    else none
  | .takeActions =>
    if s.thread = .idle then
      some { s with
        router := s.router.takeActions
        thread := .processing s.router.manager.pendingActions
          (!s.router.manager.pendingDeletes.isEmpty) }
    else none
  | .processPending =>
    match s.thread with
    | .processing (session :: sessions) needDeletes =>
      some
        { router := s.router.processPending session
          thread := .processing sessions needDeletes
          usedDeleted := s.usedDeleted || decide (session ∈ s.router.deleted) }
    | _ => none
  | .takeDeletes =>
    match s.thread with
    | .processing [] true =>
      some { s with
        router := s.router.takeDeletes
        thread := .deleting s.router.manager.pendingDeletes }
    | _ => none
  | .deleteSession =>
    match s.thread with
    | .deleting (session :: deletes) =>
      some { s with
        router := s.router.deleteSession session
        thread := .deleting deletes }
    | _ => none
  | .finishService =>
    if s.thread.serviced then some { s with thread := .idle } else none

/-! ### What a step does -/

/-- A step with the state afterwards. -/
inductive Next (s : RouterSystem) : RouterStep → RouterSystem → Prop
  | setEntityId {connection : ConnectionPtr} {id : Id} (hthread : s.thread = .idle)
      (hfree : s.router.Free connection) :
      Next s (.setEntityId connection id) { s with
        router := { s.router with
          entityIds := Function.update s.router.entityIds connection id } }
  | authorizeClient {id : Id} {driver : DriverPtr} {connection : ConnectionPtr}
      (hthread : s.thread = .idle) (hfree : s.router.Free connection)
      (hid : id.isDefault = false) :
      Next s (.authorizeClient id driver connection) { s with
        router := s.router.disconnectSession id
        thread := .authorizing id driver connection }
  | addSession {id : Id} {driver : DriverPtr} {connection : ConnectionPtr}
      (hthread : s.thread = .authorizing id driver connection) :
      Next s .addSession { s with
        router := s.router.newSession driver connection id
        thread := .idle }
  | reauthorizeClient {id : Id} {driver : DriverPtr} {connection : ConnectionPtr}
      {session : SessionPtr} (hthread : s.thread = .idle) (hfree : s.router.Free connection)
      (hid : id.isDefault = false)
      (hsession : s.router.manager.getEntitySession id = some session) :
      Next s (.reauthorizeClient id driver connection)
        { s with router := s.router.reauthorizeClient driver connection session id }
  | notFound {id : Id} {driver : DriverPtr} {connection : ConnectionPtr} :
      Next s (.reauthorizeClient id driver connection) s
  | removeSession {session : SessionPtr} (hlock : s.thread.hasCallbackLock = false) :
      Next s (.removeSession session) { s with router := s.router.removeSession session }
  | requestService {session : SessionPtr} (hlive : s.router.Live session) :
      Next s (.requestService session) { s with router := s.router.requestService session }
  | takeActions (hthread : s.thread = .idle) :
      Next s .takeActions { s with
        router := s.router.takeActions
        thread := .processing s.router.manager.pendingActions
          (!s.router.manager.pendingDeletes.isEmpty) }
  | processPending {session : SessionPtr} {sessions : List SessionPtr} {needDeletes : Bool}
      (hthread : s.thread = .processing (session :: sessions) needDeletes) :
      Next s .processPending
        { router := s.router.processPending session
          thread := .processing sessions needDeletes
          usedDeleted := s.usedDeleted || decide (session ∈ s.router.deleted) }
  | takeDeletes (hthread : s.thread = .processing [] true) :
      Next s .takeDeletes { s with
        router := s.router.takeDeletes
        thread := .deleting s.router.manager.pendingDeletes }
  | deleteSession {session : SessionPtr} {deletes : List SessionPtr}
      (hthread : s.thread = .deleting (session :: deletes)) :
      Next s .deleteSession { s with
        router := s.router.deleteSession session
        thread := .deleting deletes }
  | finishService (hserviced : s.thread.serviced = true) :
      Next s .finishService { s with thread := .idle }

/-- **What a step does, for each of them.** -/
theorem next_of_step {s s' : RouterSystem} {a : RouterStep} (h : s.step a = some s') :
    Next s a s' := by
  cases a with
  | setEntityId connection id =>
    rw [step, Option.ite_none_right_eq_some] at h
    obtain ⟨⟨hthread, hfree⟩, ⟨⟩⟩ := h
    exact .setEntityId hthread hfree
  | authorizeClient id driver connection =>
    rw [step, Option.ite_none_right_eq_some] at h
    obtain ⟨⟨hthread, hfree, hid⟩, ⟨⟩⟩ := h
    exact .authorizeClient hthread hfree hid
  | addSession =>
    rw [step] at h
    split at h
    · next hthread =>
      cases h
      exact .addSession hthread
    · cases h
  | reauthorizeClient id driver connection =>
    rw [step, Option.ite_none_right_eq_some] at h
    obtain ⟨⟨hthread, hfree, hid⟩, h⟩ := h
    split at h
    · next session hsession =>
      cases h
      exact .reauthorizeClient hthread hfree hid hsession
    · cases h
      exact .notFound
  | removeSession session =>
    rw [step, Option.ite_none_right_eq_some] at h
    obtain ⟨hlock, ⟨⟩⟩ := h
    exact .removeSession hlock
  | requestService session =>
    rw [step, Option.ite_none_right_eq_some] at h
    obtain ⟨hlive, ⟨⟩⟩ := h
    exact .requestService hlive
  | takeActions =>
    rw [step, Option.ite_none_right_eq_some] at h
    obtain ⟨hthread, ⟨⟩⟩ := h
    exact .takeActions hthread
  | processPending =>
    rw [step] at h
    split at h
    · next hthread =>
      cases h
      exact .processPending hthread
    · cases h
  | takeDeletes =>
    rw [step] at h
    split at h
    · next hthread =>
      cases h
      exact .takeDeletes hthread
    · cases h
  | deleteSession =>
    rw [step] at h
    split at h
    · next hthread =>
      cases h
      exact .deleteSession hthread
    · cases h
  | finishService =>
    rw [step, Option.ite_none_right_eq_some] at h
    obtain ⟨hserviced, ⟨⟩⟩ := h
    exact .finishService hserviced

end RouterSystem

end Mutgos.CommInterface
