import Mathlib.Data.Nat.Basic
import Mutgos.DbTypes.Id
import Mutgos.Lib.SortedMap

/-!
# The session manager of the router

`comm::RouterSessionManager` as far as it keeps sessions, with what is at the addresses that
its tables hold.  Each function is what is done while the locks are held; for the order in
which threads get there see `Mutgos.CommInterface.RouterSystem`.

Passwords, the events that are published, the time of the last connection, the sources and
types of connections and what a client is told are left out: no table depends on them.

## Main results

* `RouterSessionManager.InOrder.mem_getOnlineIds` — **who is listed is who has a session.**
-/

namespace Mutgos.CommInterface

open DbTypes Function SortedMap

/-- The address of a `ClientSession`. -/
abbrev SessionPtr := ℕ

/-- The address of a `ClientConnection`. -/
abbrev ConnectionPtr := ℕ

/-- The address of a `ConnectionDriver`. -/
abbrev DriverPtr := ℕ

structure RouterSessionManager where
  connectionToSession : List (ConnectionPtr × DriverPtr × SessionPtr)
  sessionToConnection : List (SessionPtr × ConnectionPtr)
  siteToSessions : List (SiteIdType × List (Id × SessionPtr))
  pendingActions : List SessionPtr
  pendingDeletes : List SessionPtr
  deriving DecidableEq

namespace RouterSessionManager

/-- The constructor. -/
def new : RouterSessionManager := ⟨[], [], [], [], []⟩

/-! ### Functions -/

def getSession (m : RouterSessionManager) (connection : ConnectionPtr) : Option SessionPtr :=
  (SortedMap.find connection m.connectionToSession).map Prod.snd

def getConnection (m : RouterSessionManager) (session : SessionPtr) : Option ConnectionPtr :=
  SortedMap.find session m.sessionToConnection

/-- The sessions of a site, or none. -/
def siteSessions (m : RouterSessionManager) (site : SiteIdType) : List (Id × SessionPtr) :=
  (SortedMap.find site m.siteToSessions).getD []

def addEntitySession (m : RouterSessionManager) (id : Id) (session : SessionPtr) :
    RouterSessionManager :=
  if id.isDefault then m
  else
    { m with
      siteToSessions := SortedMap.insert id.siteId
        (SortedMap.insert id session (m.siteSessions id.siteId)) m.siteToSessions }

def getEntitySession (m : RouterSessionManager) (id : Id) : Option SessionPtr :=
  SortedMap.find id (m.siteSessions id.siteId)

/-- `remove_entity_session`, without what it returns: nobody looks at that. -/
def removeEntitySession (m : RouterSessionManager) (id : Id) : RouterSessionManager :=
  match SortedMap.find id.siteId m.siteToSessions with
  | none => m
  | some sessions =>
    if (SortedMap.find id sessions).isSome then
      let sessions := SortedMap.erase id sessions
      { m with
        siteToSessions :=
          if sessions.isEmpty then SortedMap.erase id.siteId m.siteToSessions
          else SortedMap.insert id.siteId sessions m.siteToSessions }
    else m

def getEntitySiteIds (m : RouterSessionManager) : List SiteIdType := m.siteToSessions.map Prod.fst

def getOnlineIds (m : RouterSessionManager) (site : SiteIdType) : List Id :=
  (m.siteSessions site).map Prod.fst

def getSessionOnlineCount (m : RouterSessionManager) (site : SiteIdType) : ℕ :=
  (m.siteSessions site).length

def sessionHasPendingActions (m : RouterSessionManager) (session : SessionPtr) :
    RouterSessionManager :=
  if session ∈ m.pendingDeletes then m
  else { m with pendingActions := m.pendingActions ++ [session] }

/-- The tables of `add_session`: a new session, or another connection for one that there is.
It returns whether it is the latter. -/
def addSession (m : RouterSessionManager) (driver : DriverPtr) (connection : ConnectionPtr)
    (session : SessionPtr) (id : Id) : Bool × RouterSessionManager :=
  if id.isDefault then (false, m)
  else
    match m.getConnection session with
    | none =>
      (false,
        { m with
          sessionToConnection := SortedMap.insert session connection m.sessionToConnection
          connectionToSession :=
            SortedMap.insert connection (driver, session) m.connectionToSession }.addEntitySession
          id session)
    | some oldConnection =>
      (true,
        { m with
          sessionToConnection := SortedMap.insert session connection m.sessionToConnection
          connectionToSession := SortedMap.insert connection (driver, session)
            (SortedMap.erase oldConnection m.connectionToSession) })

/-- The tables of `remove_session`, with the Entity of the connection. -/
def removeSession (m : RouterSessionManager) (entityIds : ConnectionPtr → Id)
    (session : SessionPtr) : RouterSessionManager :=
  match m.getConnection session with
  | none => m
  | some connection =>
    let m := m.removeEntitySession (entityIds connection)
    { m with
      pendingDeletes := m.pendingDeletes ++ [session]
      sessionToConnection := SortedMap.erase session m.sessionToConnection }

end RouterSessionManager

/-- A session manager, and the connections and sessions that it refers to. -/
structure Router where
  manager : RouterSessionManager
  /-- `client_get_entity_id` of each connection. -/
  entityIds : ConnectionPtr → Id
  /-- `client_ptr` of each session. -/
  clientPtrs : SessionPtr → ConnectionPtr
  /-- `has_requested_service` of each session. -/
  hasRequestedService : SessionPtr → Bool
  /-- Sessions get addresses in turn: this is the next one. -/
  nextSession : SessionPtr
  /-- History: the sessions that have been deleted. -/
  deleted : List SessionPtr
  /-- History: the connections that have been given back to their drivers. -/
  released : List (DriverPtr × ConnectionPtr)

namespace Router

/-- Nothing yet. -/
def new : Router where
  manager := .new
  entityIds := fun _ => default
  clientPtrs := fun _ => 0
  hasRequestedService := fun _ => false
  nextSession := 0
  deleted := []
  released := []

/-- `request_service` of a session. -/
def requestService (r : Router) (session : SessionPtr) : Router :=
  if r.hasRequestedService session then r
  else
    { r with
      manager := r.manager.sessionHasPendingActions session
      hasRequestedService := update r.hasRequestedService session true }

def releaseConnection (r : Router) (connection : ConnectionPtr) : Router :=
  match SortedMap.find connection r.manager.connectionToSession with
  | none => r
  | some (driver, _) =>
    { r with
      manager := { r.manager with
        connectionToSession := SortedMap.erase connection r.manager.connectionToSession }
      released := r.released ++ [(driver, connection)] }

/-- `set_client_connection` of a session: the old connection is released. -/
def setClientConnection (r : Router) (session : SessionPtr) (connection : ConnectionPtr) :
    Router :=
  let r := r.releaseConnection (r.clientPtrs session)
  { r with clientPtrs := update r.clientPtrs session connection }.requestService session

def addSession (r : Router) (driver : DriverPtr) (connection : ConnectionPtr)
    (session : SessionPtr) (id : Id) : Router :=
  { r with
    manager := (r.manager.addSession driver connection session id).2
    entityIds :=
      if id.isDefault then r.entityIds else update r.entityIds connection id }

def removeSession (r : Router) (session : SessionPtr) : Router :=
  { r with manager := r.manager.removeSession r.entityIds session }

/-- The end of `authorize_client`: a session is made and added. -/
def newSession (r : Router) (driver : DriverPtr) (connection : ConnectionPtr) (id : Id) :
    Router :=
  let session := r.nextSession
  { r with
    entityIds := update r.entityIds connection id
    clientPtrs := update r.clientPtrs session connection
    hasRequestedService := update r.hasRequestedService session false
    nextSession := session + 1 }.addSession driver connection session id

/-- `reauthorize_client` for a player that has a session. -/
def reauthorizeClient (r : Router) (driver : DriverPtr) (connection : ConnectionPtr)
    (session : SessionPtr) (id : Id) : Router :=
  (r.setClientConnection session connection).addSession driver connection session id

/-- The destructor of a session. -/
def deleteSession (r : Router) (session : SessionPtr) : Router :=
  let r := r.releaseConnection (r.clientPtrs session)
  { r with deleted := r.deleted ++ [session] }

/-- The beginning of `process_pending` of a session. -/
def processPending (r : Router) (session : SessionPtr) : Router :=
  { r with hasRequestedService := update r.hasRequestedService session false }

end Router

namespace RouterSessionManager

/-! ### Who is online -/

theorem getEntitySession_addEntitySession (m : RouterSessionManager) {id : Id}
    (hid : id.isDefault = false) (session : SessionPtr) (id' : Id) :
    (m.addEntitySession id session).getEntitySession id' =
      if id' = id then some session else m.getEntitySession id' := by
  rw [addEntitySession, if_neg (by rw [hid]; exact Bool.false_ne_true), getEntitySession,
    siteSessions]
  dsimp only
  rw [find_insert]
  by_cases hsite : id'.siteId = id.siteId
  · rw [if_pos hsite, Option.getD_some, find_insert, getEntitySession, hsite]
  · have hid' : id' ≠ id := by
      rintro rfl
      exact hsite rfl
    rw [if_neg hsite, if_neg hid']
    rfl

theorem getEntitySession_removeEntitySession (m : RouterSessionManager) (id id' : Id) :
    (m.removeEntitySession id).getEntitySession id' =
      if id' = id then none else m.getEntitySession id' := by
  rw [removeEntitySession]
  cases hsessions : SortedMap.find id.siteId m.siteToSessions with
  | none =>
    by_cases hid : id' = id
    · subst hid
      rw [if_pos rfl, getEntitySession, siteSessions, hsessions]
      rfl
    · rw [if_neg hid]
  | some sessions =>
    have hsite : m.siteSessions id.siteId = sessions := by
      rw [siteSessions, hsessions]
      rfl
    dsimp only
    by_cases hfound : (SortedMap.find id sessions).isSome = true
    · rw [if_pos hfound, getEntitySession, siteSessions]
      dsimp only
      have herase : ((SortedMap.find id'.siteId
          (if (SortedMap.erase id sessions).isEmpty then
            SortedMap.erase id.siteId m.siteToSessions
          else SortedMap.insert id.siteId (SortedMap.erase id sessions) m.siteToSessions)).getD
            []) =
          if id'.siteId = id.siteId then SortedMap.erase id sessions
          else m.siteSessions id'.siteId := by
        by_cases hempty : (SortedMap.erase id sessions).isEmpty = true
        · rw [if_pos hempty, find_erase, List.isEmpty_iff.mp hempty]
          split <;> rfl
        · rw [if_neg hempty, find_insert]
          split <;> rfl
      rw [herase]
      by_cases hsame : id'.siteId = id.siteId
      · rw [if_pos hsame, find_erase, getEntitySession, hsame, hsite]
      · have hid : id' ≠ id := by
          rintro rfl
          exact hsame rfl
        rw [if_neg hsame, if_neg hid]
        rfl
    · rw [if_neg hfound]
      by_cases hid : id' = id
      · rw [if_pos hid, hid, getEntitySession, hsite]
        exact Option.not_isSome_iff_eq_none.mp hfound
      · rw [if_neg hid]

/-! ### What else there is -/

@[simp] theorem addEntitySession_sessionToConnection (m : RouterSessionManager) (id : Id)
    (session : SessionPtr) :
    (m.addEntitySession id session).sessionToConnection = m.sessionToConnection := by
  rw [addEntitySession]
  split <;> rfl

@[simp] theorem addEntitySession_connectionToSession (m : RouterSessionManager) (id : Id)
    (session : SessionPtr) :
    (m.addEntitySession id session).connectionToSession = m.connectionToSession := by
  rw [addEntitySession]
  split <;> rfl

@[simp] theorem addEntitySession_pendingActions (m : RouterSessionManager) (id : Id)
    (session : SessionPtr) :
    (m.addEntitySession id session).pendingActions = m.pendingActions := by
  rw [addEntitySession]
  split <;> rfl

@[simp] theorem addEntitySession_pendingDeletes (m : RouterSessionManager) (id : Id)
    (session : SessionPtr) :
    (m.addEntitySession id session).pendingDeletes = m.pendingDeletes := by
  rw [addEntitySession]
  split <;> rfl

/-- Only who is online changes. -/
theorem removeEntitySession_eq (m : RouterSessionManager) (id : Id) :
    m.removeEntitySession id =
      { m with siteToSessions := (m.removeEntitySession id).siteToSessions } := by
  rw [removeEntitySession]
  split
  · rfl
  · dsimp only
    split <;> rfl

/-- The tables, for a session that is new. -/
theorem addSession_new (m : RouterSessionManager) (driver : DriverPtr)
    (connection : ConnectionPtr) {session : SessionPtr} {id : Id} (hid : id.isDefault = false)
    (hsession : m.getConnection session = none) :
    (m.addSession driver connection session id).2 =
      { m with
        sessionToConnection := SortedMap.insert session connection m.sessionToConnection
        connectionToSession :=
          SortedMap.insert connection (driver, session) m.connectionToSession }.addEntitySession
        id session := by
  rw [addSession, if_neg (by rw [hid]; exact Bool.false_ne_true), hsession]

/-- The tables, for a session that there is. -/
theorem addSession_old (m : RouterSessionManager) (driver : DriverPtr)
    (connection : ConnectionPtr) {session : SessionPtr} {id : Id} (hid : id.isDefault = false)
    (oldConnection : ConnectionPtr) (hsession : m.getConnection session = some oldConnection) :
    (m.addSession driver connection session id).2 =
      { m with
        sessionToConnection := SortedMap.insert session connection m.sessionToConnection
        connectionToSession := SortedMap.insert connection (driver, session)
          (SortedMap.erase oldConnection m.connectionToSession) } := by
  rw [addSession, if_neg (by rw [hid]; exact Bool.false_ne_true), hsession]

/-! ### Tables in order -/

/-- The tables are maps, no site in them is empty, and each player is at its own site. -/
structure InOrder (m : RouterSessionManager) : Prop where
  connectionToSession : SortedMap.Sorted m.connectionToSession
  sessionToConnection : SortedMap.Sorted m.sessionToConnection
  siteToSessions : SortedMap.Sorted m.siteToSessions
  sites : ∀ site sessions, (site, sessions) ∈ m.siteToSessions → sessions ≠ [] ∧
    SortedMap.Sorted sessions ∧ ∀ id session, (id, session) ∈ sessions → id.siteId = site

theorem inOrder_new : InOrder new :=
  ⟨sorted_nil, sorted_nil, sorted_nil, fun _ _ => nofun⟩

variable {m : RouterSessionManager}

theorem InOrder.siteSessions (h : m.InOrder) (site : SiteIdType) :
    SortedMap.Sorted (m.siteSessions site) ∧
      ∀ id session, (id, session) ∈ m.siteSessions site → id.siteId = site := by
  rw [RouterSessionManager.siteSessions]
  cases hsessions : SortedMap.find site m.siteToSessions with
  | none => exact ⟨sorted_nil, fun _ _ => nofun⟩
  | some sessions => exact (h.sites site sessions (mem_of_find hsessions)).2

/-- A site whose sessions are given. -/
theorem InOrder.insertSite (h : m.InOrder) {site : SiteIdType} {sessions : List (Id × SessionPtr)}
    (hne : sessions ≠ []) (hsorted : SortedMap.Sorted sessions)
    (hsite : ∀ id session, (id, session) ∈ sessions → id.siteId = site) :
    InOrder { m with siteToSessions := SortedMap.insert site sessions m.siteToSessions } := by
  refine ⟨h.connectionToSession, h.sessionToConnection, h.siteToSessions.insert site sessions,
    fun site' sessions' hmem => ?_⟩
  rcases mem_of_mem_insert hmem with heq | hmem
  · rw [Prod.mk.injEq] at heq
    obtain ⟨rfl, rfl⟩ := heq
    exact ⟨hne, hsorted, hsite⟩
  · exact h.sites site' sessions' hmem

theorem InOrder.addEntitySession (h : m.InOrder) (id : Id) (session : SessionPtr) :
    (m.addEntitySession id session).InOrder := by
  rw [RouterSessionManager.addEntitySession]
  split
  · exact h
  · obtain ⟨hsorted, hsite⟩ := h.siteSessions id.siteId
    refine h.insertSite ?_ (hsorted.insert id session) fun id' session' hmem => ?_
    · intro hempty
      have hmem := (mem_keys_insert id id session (m.siteSessions id.siteId)).mpr
        (.inl rfl)
      rw [hempty] at hmem
      cases hmem
    · rcases mem_of_mem_insert hmem with heq | hmem
      · rw [Prod.mk.injEq] at heq
        rw [heq.1]
      · exact hsite id' session' hmem

theorem InOrder.removeEntitySession (h : m.InOrder) (id : Id) :
    (m.removeEntitySession id).InOrder := by
  rw [RouterSessionManager.removeEntitySession]
  split
  · exact h
  · next sessions hsessions =>
    split
    · obtain ⟨-, hsorted, hsite⟩ := h.sites _ _ (mem_of_find hsessions)
      dsimp only
      split
      · exact ⟨h.connectionToSession, h.sessionToConnection, h.siteToSessions.erase id.siteId,
          fun site sessions hmem => h.sites site sessions (erase_subset _ _ hmem)⟩
      · next hne =>
        exact h.insertSite (fun hempty => hne (List.isEmpty_iff.mpr hempty)) (hsorted.erase id)
          fun id' session' hmem => hsite id' session' (erase_subset _ _ hmem)
    · exact h

theorem InOrder.addSession {m : RouterSessionManager} (h : m.InOrder) (driver : DriverPtr)
    (connection : ConnectionPtr) (session : SessionPtr) (id : Id) :
    (m.addSession driver connection session id).2.InOrder := by
  rw [RouterSessionManager.addSession]
  split
  · exact h
  · split
    · have hadded : InOrder { m with
          sessionToConnection := SortedMap.insert session connection m.sessionToConnection
          connectionToSession :=
            SortedMap.insert connection (driver, session) m.connectionToSession } :=
        ⟨h.connectionToSession.insert _ _, h.sessionToConnection.insert _ _, h.siteToSessions,
          h.sites⟩
      exact hadded.addEntitySession id session
    · exact ⟨(h.connectionToSession.erase _).insert _ _, h.sessionToConnection.insert _ _,
        h.siteToSessions, h.sites⟩

theorem InOrder.removeSession {m : RouterSessionManager} (h : m.InOrder)
    (entityIds : ConnectionPtr → Id) (session : SessionPtr) :
    (m.removeSession entityIds session).InOrder := by
  rw [RouterSessionManager.removeSession]
  split
  · exact h
  · next connection _ =>
    have hremove := h.removeEntitySession (entityIds connection)
    exact ⟨hremove.connectionToSession, hremove.sessionToConnection.erase _,
      hremove.siteToSessions, hremove.sites⟩

/-- **Who is listed is who has a session.** -/
theorem InOrder.mem_getOnlineIds (h : m.InOrder) (site : SiteIdType) (id : Id) :
    id ∈ m.getOnlineIds site ↔
      id.siteId = site ∧ ∃ session, m.getEntitySession id = some session := by
  obtain ⟨hsorted, hsite⟩ := h.siteSessions site
  rw [getOnlineIds]
  constructor
  · intro hmem
    obtain ⟨⟨id', session⟩, hentry, rfl⟩ := List.mem_map.mp hmem
    have hsame := hsite id' session hentry
    refine ⟨hsame, session, ?_⟩
    rw [getEntitySession, hsame]
    exact hsorted.mem_iff.mp hentry
  · rintro ⟨rfl, session, hsession⟩
    exact List.mem_map_of_mem (f := Prod.fst) (mem_of_find hsession)

/-- No one is listed twice. -/
theorem InOrder.nodup_getOnlineIds (h : m.InOrder) (site : SiteIdType) :
    (m.getOnlineIds site).Nodup :=
  (h.siteSessions site).1.nodup

/-- A session that is found is in the tables of sites. -/
theorem mem_of_getEntitySession {id : Id} {session : SessionPtr}
    (h : m.getEntitySession id = some session) :
    ∃ site sessions, (site, sessions) ∈ m.siteToSessions ∧ (id, session) ∈ sessions := by
  rw [getEntitySession, siteSessions] at h
  cases hsessions : SortedMap.find id.siteId m.siteToSessions with
  | none =>
    rw [hsessions] at h
    cases h
  | some sessions =>
    rw [hsessions] at h
    exact ⟨id.siteId, sessions, mem_of_find hsessions, mem_of_find h⟩

/-- An entry of the tables of sites is found. -/
theorem InOrder.getEntitySession_of_mem (h : m.InOrder) {site : SiteIdType}
    {sessions : List (Id × SessionPtr)} (hsessions : (site, sessions) ∈ m.siteToSessions) {id : Id}
    {session : SessionPtr} (hmem : (id, session) ∈ sessions) :
    m.getEntitySession id = some session := by
  obtain ⟨-, hsorted, hsite⟩ := h.sites site sessions hsessions
  rw [getEntitySession, RouterSessionManager.siteSessions, hsite id session hmem,
    h.siteToSessions.mem_iff.mp hsessions]
  exact hsorted.mem_iff.mp hmem

end RouterSessionManager

end Mutgos.CommInterface
