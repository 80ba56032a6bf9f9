import Mutgos.CommInterface.RouterSystem

/-!
# The tables of sessions agree

Who is online at which site, the connection of each session and the session of each connection
are three tables, and a session that has been removed waits in a list before it is deleted.
What one operation does to all of them keeps them in agreement, whatever is done in between by
other threads.

## Main results

* `RouterSystem.tables_agree` — **the tables agree in every reachable state.**
-/

namespace Mutgos.CommInterface

open DbTypes Function List SortedMap

namespace Router

/-! ### What operations do -/

/-- A request for service is listed, or it is not. -/
theorem requestService_eq (r : Router) (session : SessionPtr) :
    ∃ actions requested, (actions = r.manager.pendingActions ∨
        r.hasRequestedService session = false ∧ session ∉ r.manager.pendingDeletes ∧
          actions = r.manager.pendingActions ++ [session]) ∧
      r.requestService session =
        { r with
          manager := { r.manager with pendingActions := actions }
          hasRequestedService := requested } := by
  rw [requestService]
  by_cases hrequested : r.hasRequestedService session = true
  · rw [if_pos hrequested]
    exact ⟨_, _, .inl rfl, rfl⟩
  · rw [if_neg hrequested, RouterSessionManager.sessionHasPendingActions]
    by_cases hdelete : session ∈ r.manager.pendingDeletes
    · rw [if_pos hdelete]
      exact ⟨_, _, .inl rfl, rfl⟩
    · rw [if_neg hdelete]
      exact ⟨_, _, .inr ⟨eq_false_of_ne_true hrequested, hdelete, rfl⟩, rfl⟩

/-- A connection that is in the tables is taken out and given back. -/
theorem releaseConnection_eq (r : Router) (connection : ConnectionPtr) :
    ∃ released, r.releaseConnection connection =
      { r with
        manager := { r.manager with
          connectionToSession := SortedMap.erase connection r.manager.connectionToSession }
        released := released } := by
  rw [releaseConnection]
  cases hfind : SortedMap.find connection r.manager.connectionToSession with
  | none =>
    refine ⟨r.released, ?_⟩
    rw [erase_of_find_eq_none hfind]
  | some entry => exact ⟨_, rfl⟩

/-- The tables after a session has been made. -/
theorem newSession_eq (r : Router) (driver : DriverPtr) (connection : ConnectionPtr) {id : Id}
    (hid : id.isDefault = false)
    (hnew : SortedMap.find r.nextSession r.manager.sessionToConnection = none) :
    r.newSession driver connection id =
      { r with
        manager := { r.manager with
          sessionToConnection :=
            SortedMap.insert r.nextSession connection r.manager.sessionToConnection
          connectionToSession := SortedMap.insert connection (driver, r.nextSession)
            r.manager.connectionToSession }.addEntitySession id r.nextSession
        entityIds := update r.entityIds connection id
        clientPtrs := update r.clientPtrs r.nextSession connection
        hasRequestedService := update r.hasRequestedService r.nextSession false
        nextSession := r.nextSession + 1 } := by
  rw [newSession, addSession]
  dsimp only
  rw [RouterSessionManager.addSession_new _ driver connection hid hnew,
    if_neg (by rw [hid]; exact Bool.false_ne_true), update_idem]

/-- The tables after a reconnection. -/
theorem reauthorizeClient_eq (r : Router) (driver : DriverPtr) (connection : ConnectionPtr)
    {session : SessionPtr} {id : Id} (hid : id.isDefault = false)
    {oldConnection : ConnectionPtr}
    (hold : SortedMap.find session r.manager.sessionToConnection = some oldConnection)
    (hclient : r.clientPtrs session = oldConnection) :
    ∃ actions requested released, (actions = r.manager.pendingActions ∨
        r.hasRequestedService session = false ∧ session ∉ r.manager.pendingDeletes ∧
          actions = r.manager.pendingActions ++ [session]) ∧
      r.reauthorizeClient driver connection session id =
        { r with
          manager := { r.manager with
            sessionToConnection :=
              SortedMap.insert session connection r.manager.sessionToConnection
            connectionToSession := SortedMap.insert connection (driver, session)
              (SortedMap.erase oldConnection
                (SortedMap.erase oldConnection r.manager.connectionToSession))
            pendingActions := actions }
          entityIds := update r.entityIds connection id
          clientPtrs := update r.clientPtrs session connection
          hasRequestedService := requested
          released := released } := by
  obtain ⟨released, hreleased⟩ := r.releaseConnection_eq oldConnection
  have hset : r.setClientConnection session connection =
      { r with
        manager := { r.manager with
          connectionToSession := SortedMap.erase oldConnection r.manager.connectionToSession }
        clientPtrs := update r.clientPtrs session connection
        released := released }.requestService session := by
    rw [setClientConnection, hclient, hreleased]
  obtain ⟨actions, requested, hactions, heq⟩ := requestService_eq
    { r with
      manager := { r.manager with
        connectionToSession := SortedMap.erase oldConnection r.manager.connectionToSession }
      clientPtrs := update r.clientPtrs session connection
      released := released } session
  refine ⟨actions, requested, released, hactions, ?_⟩
  rw [reauthorizeClient, hset, heq, addSession]
  dsimp only
  rw [RouterSessionManager.addSession_old _ driver connection hid oldConnection]
  · rw [if_neg (by rw [hid]; exact Bool.false_ne_true)]
  · exact hold

/-- A session that is removed, or that has been before. -/
theorem removeSession_eq (r : Router) (session : SessionPtr) :
    SortedMap.find session r.manager.sessionToConnection = none ∧ r.removeSession session = r ∨
    ∃ connection, SortedMap.find session r.manager.sessionToConnection = some connection ∧
      r.removeSession session =
        { r with
          manager := { r.manager with
            siteToSessions :=
              (r.manager.removeEntitySession (r.entityIds connection)).siteToSessions
            pendingDeletes := r.manager.pendingDeletes ++ [session]
            sessionToConnection := SortedMap.erase session r.manager.sessionToConnection } } := by
  rw [removeSession, RouterSessionManager.removeSession, RouterSessionManager.getConnection]
  cases hfind : SortedMap.find session r.manager.sessionToConnection with
  | none => exact .inl ⟨rfl, rfl⟩
  | some connection =>
    refine .inr ⟨connection, rfl, ?_⟩
    dsimp only
    rw [RouterSessionManager.removeEntitySession_eq]

/-! ### The agreement -/

/-- What had no value in common has none when one of them gets a value that no other has. -/
theorem apart_update {α β : Type*} [DecidableEq α] {f : α → β} {there there' : α → Prop}
    (hf : ∀ x y, there x → there y → f x = f y → x = y) {a : α} {b : β}
    (hfresh : ∀ x, there x → f x ≠ b) (hthere : ∀ x, there' x → x = a ∨ there x) (x y : α)
    (hx : there' x) (hy : there' y) (hsame : update f a b x = update f a b y) :
    x = y := by
  by_cases hxa : x = a
  · subst hxa
    by_contra hne
    rw [update_self, update_of_ne (Ne.symm hne)] at hsame
    exact hfresh y ((hthere y hy).resolve_left (Ne.symm hne)) hsame.symm
  · rw [update_of_ne hxa] at hsame
    have hx' := (hthere x hx).resolve_left hxa
    by_cases hya : y = a
    · subst hya
      rw [update_self] at hsame
      exact absurd hsame (hfresh x hx')
    · rw [update_of_ne hya] at hsame
      exact hf x y hx' ((hthere y hy).resolve_left hya) hsame

/-- The tables agree, while the sessions `deletes` are being deleted. -/
structure Agree (r : Router) (deletes : List SessionPtr) : Prop where
  inOrder : r.manager.InOrder
  /-- Each session there has been is at one place. -/
  places : (r.manager.sessionToConnection.map Prod.fst ++ r.manager.pendingDeletes ++ deletes ++
    r.deleted).Perm (List.range r.nextSession)
  /-- No two sessions have one connection. -/
  apart : ∀ session session', r.Live session → r.Live session' →
    r.clientPtrs session = r.clientPtrs session' → session = session'
  client : ∀ session connection,
    SortedMap.find session r.manager.sessionToConnection = some connection →
    r.clientPtrs session = connection
  connection : ∀ session connection,
    SortedMap.find session r.manager.sessionToConnection = some connection →
    ∃ driver, SortedMap.find connection r.manager.connectionToSession = some (driver, session)
  session : ∀ connection driver session,
    SortedMap.find connection r.manager.connectionToSession = some (driver, session) →
    r.Live session ∧ r.clientPtrs session = connection
  entity : ∀ id session, r.manager.getEntitySession id = some session ↔
    ∃ connection, SortedMap.find session r.manager.sessionToConnection = some connection ∧
      r.entityIds connection = id

theorem agree_new : new.Agree [] where
  inOrder := RouterSessionManager.inOrder_new
  places := .refl _
  apart _ _ hlive := absurd hlive.1 (Nat.not_lt_zero _)
  client _ _ := nofun
  connection _ _ := nofun
  session _ _ _ := nofun
  entity id session := by
    constructor
    · exact nofun
    · rintro ⟨connection, hconnection, -⟩
      cases hconnection

namespace Agree

variable {r : Router} {deletes : List SessionPtr} (h : r.Agree deletes)
include h

/-- A session that is connected, or waits to be deleted, is there. -/
theorem live {session : SessionPtr} (hmem : session ∈
    r.manager.sessionToConnection.map Prod.fst ++ r.manager.pendingDeletes ++ deletes) :
    r.Live session := by
  have hnodup : (r.manager.sessionToConnection.map Prod.fst ++ r.manager.pendingDeletes ++
      deletes ++ r.deleted).Nodup := h.places.nodup_iff.mpr nodup_range
  refine ⟨mem_range.mp (h.places.mem_iff.mp (mem_append_left _ hmem)), ?_⟩
  intro hdeleted
  exact (nodup_append.mp hnodup).2.2 session hmem session hdeleted rfl

variable {connection : ConnectionPtr}

theorem live_of_find {session : SessionPtr}
    (hfind : SortedMap.find session r.manager.sessionToConnection = some connection) :
    r.Live session :=
  h.live (mem_append_left _ (mem_append_left _ (mem_keys_of_find hfind)))

/-- A session that has an address was made before. -/
theorem lt_of_deleted {session : SessionPtr} (hmem : session ∈ r.deleted) :
    session < r.nextSession :=
  mem_range.mp (h.places.mem_iff.mp (mem_append_right _ hmem))

/-- The session of a player is found by its connection. -/
theorem getEntitySession {session : SessionPtr}
    (hfind : SortedMap.find session r.manager.sessionToConnection = some connection) :
    r.manager.getEntitySession (r.entityIds connection) = some session :=
  (h.entity _ session).mpr ⟨connection, hfind, rfl⟩

/-- A connection without a session is in no table. -/
theorem ne_of_free (hfree : r.Free connection) {session : SessionPtr} {connection' : ConnectionPtr}
    (hfind : SortedMap.find session r.manager.sessionToConnection = some connection') :
    connection' ≠ connection := by
  obtain ⟨hlt, hdeleted⟩ := h.live_of_find hfind
  rw [← h.client session connection' hfind]
  exact hfree session hlt hdeleted

/-- The lists of requests are no part of the agreement. -/
theorem setActions (actions : List SessionPtr) (requested : SessionPtr → Bool) :
    Agree { r with
      manager := { r.manager with pendingActions := actions }
      hasRequestedService := requested } deletes :=
  ⟨⟨h.inOrder.connectionToSession, h.inOrder.sessionToConnection, h.inOrder.siteToSessions,
    h.inOrder.sites⟩, h.places, h.apart, h.client, h.connection, h.session, h.entity⟩

theorem requestService (session : SessionPtr) : (r.requestService session).Agree deletes := by
  obtain ⟨actions, requested, -, heq⟩ := r.requestService_eq session
  rw [heq]
  exact h.setActions actions requested

/-- A connection without a session can have any ID. -/
theorem setEntityId {connection : ConnectionPtr} (hfree : r.Free connection) (id : Id) :
    Agree { r with entityIds := update r.entityIds connection id } deletes := by
  refine ⟨h.inOrder, h.places, h.apart, h.client, h.connection, h.session,
    fun id' session => ?_⟩
  refine (h.entity id' session).trans (exists_congr fun connection' => ?_)
  refine and_congr_right fun hfind => ?_
  dsimp only
  rw [update_of_ne (h.ne_of_free hfree hfind)]

/-- The next session is not there yet. -/
theorem find_nextSession :
    SortedMap.find r.nextSession r.manager.sessionToConnection = none := by
  cases hfind : SortedMap.find r.nextSession r.manager.sessionToConnection with
  | none => rfl
  | some connection => exact absurd (h.live_of_find hfind).1 (Nat.lt_irrefl _)

/-- A session is made for a player that has none. -/
theorem newSession (hfree : r.Free connection) {id : Id} (hid : id.isDefault = false)
    (hnone : r.manager.getEntitySession id = none) (driver : DriverPtr) :
    (r.newSession driver connection id).Agree deletes := by
  have hnew := h.find_nextSession
  have hinOrder : (r.newSession driver connection id).manager.InOrder :=
    h.inOrder.addSession driver connection r.nextSession id
  rw [r.newSession_eq driver connection hid hnew] at hinOrder ⊢
  have hlive : ∀ session, session < r.nextSession + 1 ∧ session ∉ r.deleted →
      session = r.nextSession ∨ r.Live session := by
    intro session ⟨hlt, hdeleted⟩
    rcases Nat.lt_succ_iff_lt_or_eq.mp hlt with hlt | heq
    · exact .inr ⟨hlt, hdeleted⟩
    · exact .inl heq
  have hne : ∀ session, r.Live session →
      session ≠ r.nextSession ∧ r.clientPtrs session ≠ connection := fun session hlive =>
    ⟨Nat.ne_of_lt hlive.1, hfree session hlive.1 hlive.2⟩
  have hdeleted : r.nextSession ∉ r.deleted := fun hmem =>
    Nat.lt_irrefl _ (h.lt_of_deleted hmem)
  have hclients : ∀ session connection', SortedMap.find session
      (RouterSessionManager.addEntitySession { r.manager with
        sessionToConnection :=
          SortedMap.insert r.nextSession connection r.manager.sessionToConnection
        connectionToSession := SortedMap.insert connection (driver, r.nextSession)
          r.manager.connectionToSession } id r.nextSession).sessionToConnection =
        some connection' →
      update r.clientPtrs r.nextSession connection session = connection' := by
    rw [RouterSessionManager.addEntitySession_sessionToConnection]
    exact update_of_find_insert h.client
  refine ⟨hinOrder, ?_, apart_update h.apart (fun session hlive => (hne session hlive).2) hlive,
    hclients, fun session connection' hfind => ?_,
    fun connection' driver' session hfind => ?_, fun id' session => ?_⟩
  · have hkeys := h.inOrder.sessionToConnection.keys_insert (k := r.nextSession) (fun hmem =>
      find_ne_none hmem hnew) connection
    rw [RouterSessionManager.addEntitySession_sessionToConnection,
      RouterSessionManager.addEntitySession_pendingDeletes]
    dsimp only
    rw [range_succ]
    refine (((hkeys.append_right _).append_right _).append_right _).trans ?_
    exact (h.places.cons r.nextSession).trans (perm_append_singleton _ _).symm
  · rw [RouterSessionManager.addEntitySession_sessionToConnection, find_insert] at hfind
    rw [RouterSessionManager.addEntitySession_connectionToSession, find_insert]
    split at hfind
    · next heq =>
      cases hfind
      exact ⟨driver, by rw [if_pos rfl, heq]⟩
    · rw [if_neg (h.ne_of_free hfree hfind)]
      exact h.connection session connection' hfind
  · rw [RouterSessionManager.addEntitySession_connectionToSession, find_insert] at hfind
    split at hfind
    · next heq =>
      cases hfind
      exact ⟨⟨Nat.lt_succ_self _, hdeleted⟩, by rw [heq]; exact update_self ..⟩
    · obtain ⟨hsession, hclient⟩ := h.session connection' driver' session hfind
      refine ⟨⟨Nat.lt_succ_of_lt hsession.1, hsession.2⟩, ?_⟩
      exact (update_of_ne (hne session hsession).1 ..).trans hclient
  · rw [RouterSessionManager.getEntitySession_addEntitySession _ hid,
      RouterSessionManager.addEntitySession_sessionToConnection]
    dsimp only
    rw [find_insert]
    by_cases heq : session = r.nextSession
    · subst heq
      rw [if_pos rfl]
      constructor
      · intro hsome
        refine ⟨connection, rfl, ?_⟩
        rw [update_self]
        by_contra hid'
        rw [if_neg (Ne.symm hid')] at hsome
        obtain ⟨connection', hfind, -⟩ := (h.entity id' r.nextSession).mp hsome
        rw [hnew] at hfind
        cases hfind
      · rintro ⟨connection', ⟨⟩, rfl⟩
        rw [update_self, if_pos rfl]
    · rw [if_neg heq]
      constructor
      · intro hsome
        split at hsome
        · cases hsome
          exact absurd rfl heq
        · obtain ⟨connection', hfind, rfl⟩ := (h.entity id' session).mp hsome
          exact ⟨connection', hfind, update_of_ne (h.ne_of_free hfree hfind) ..⟩
      · rintro ⟨connection', hfind, rfl⟩
        rw [update_of_ne (h.ne_of_free hfree hfind)]
        have hsome := h.getEntitySession hfind
        rw [if_neg]
        · exact hsome
        · intro hid'
          rw [hid', hnone] at hsome
          cases hsome

/-- A player gets its session with another connection. -/
theorem reauthorizeClient {connection : ConnectionPtr} (hfree : r.Free connection) {id : Id}
    (hid : id.isDefault = false) {session : SessionPtr}
    (hsession : r.manager.getEntitySession id = some session) (driver : DriverPtr) :
    (r.reauthorizeClient driver connection session id).Agree deletes := by
  obtain ⟨oldConnection, hold, hentity⟩ := (h.entity id session).mp hsession
  have hclient := h.client session oldConnection hold
  have hlive := h.live_of_find hold
  obtain ⟨actions, requested, released, -, heq⟩ :=
    r.reauthorizeClient_eq driver connection hid hold hclient
  have hne : ∀ session', r.Live session' → r.clientPtrs session' ≠ connection :=
    fun session' hlive' => hfree session' hlive'.1 hlive'.2
  have hother : ∀ session', r.Live session' → session' ≠ session →
      r.clientPtrs session' ≠ oldConnection := by
    rintro session' hlive' hneq hsame
    exact hneq (h.apart session' session hlive' hlive (hsame.trans hclient.symm))
  rw [heq]
  refine ⟨⟨((h.inOrder.connectionToSession.erase _).erase _).insert _ _,
    h.inOrder.sessionToConnection.insert _ _, h.inOrder.siteToSessions, h.inOrder.sites⟩, ?_,
    apart_update h.apart hne fun _ => .inr, update_of_find_insert h.client,
    fun session' connection' hfind => ?_, fun connection' driver' session' hfind => ?_,
    fun id' session' => ?_⟩
  · have hkeys := h.inOrder.sessionToConnection.keys_insert_of_mem
      (mem_keys_of_find hold) connection
    exact (((hkeys.append_right _).append_right _).append_right _).trans h.places
  · dsimp only at hfind ⊢
    rw [find_insert] at hfind
    rw [find_insert]
    split at hfind
    · next heq =>
      cases hfind
      exact ⟨driver, by rw [if_pos rfl, heq]⟩
    · next hneq =>
      have hgone : connection' ≠ oldConnection := by
        rw [← h.client session' connection' hfind]
        exact hother session' (h.live_of_find hfind) hneq
      rw [if_neg (h.ne_of_free hfree hfind), find_erase, if_neg hgone,
        find_erase, if_neg hgone]
      exact h.connection session' connection' hfind
  · dsimp only at hfind
    rw [find_insert] at hfind
    split at hfind
    · next heq =>
      cases hfind
      exact ⟨hlive, by rw [heq]; exact update_self ..⟩
    · rw [find_erase, Option.ite_none_left_eq_some, find_erase,
        Option.ite_none_left_eq_some] at hfind
      obtain ⟨hgone, -, hfind⟩ := hfind
      obtain ⟨hlive', hclient'⟩ := h.session connection' driver' session' hfind
      have hneq : session' ≠ session := by
        rintro rfl
        exact hgone (hclient'.symm.trans hclient)
      exact ⟨hlive', (update_of_ne hneq ..).trans hclient'⟩
  · refine (h.entity id' session').trans ?_
    dsimp only
    rw [find_insert]
    by_cases heq : session' = session
    · subst heq
      rw [if_pos rfl, hold]
      constructor
      · rintro ⟨connection', ⟨⟩, rfl⟩
        exact ⟨connection, rfl, by rw [update_self, hentity]⟩
      · rintro ⟨connection', ⟨⟩, rfl⟩
        exact ⟨oldConnection, rfl, by rw [update_self, hentity]⟩
    · rw [if_neg heq]
      refine exists_congr fun connection' => and_congr_right fun hfind => ?_
      rw [update_of_ne (h.ne_of_free hfree hfind)]

/-- A session is removed, and waits to be deleted. -/
theorem removeSession (session : SessionPtr) : (r.removeSession session).Agree deletes := by
  have hinOrder : (r.removeSession session).manager.InOrder :=
    h.inOrder.removeSession r.entityIds session
  rcases r.removeSession_eq session with ⟨-, heq⟩ | ⟨connection, hfind, heq⟩
  · rw [heq]
    exact h
  · rw [heq] at hinOrder ⊢
    have hfound : ∀ session' connection', SortedMap.find session'
        (SortedMap.erase session r.manager.sessionToConnection) = some connection' ↔
        session' ≠ session ∧
          SortedMap.find session' r.manager.sessionToConnection = some connection' := by
      intro session' connection'
      rw [find_erase, Option.ite_none_left_eq_some]
    refine ⟨hinOrder, ?_, h.apart, fun session' connection' hfind' => ?_,
      fun session' connection' hfind' => ?_, h.session, fun id session' => ?_⟩
    · have hkeys := h.inOrder.sessionToConnection.keys_erase (mem_keys_of_find hfind)
      have hmove : ((SortedMap.erase session r.manager.sessionToConnection).map Prod.fst ++
          (r.manager.pendingDeletes ++ [session])).Perm
          (r.manager.sessionToConnection.map Prod.fst ++ r.manager.pendingDeletes) := by
        rw [← append_assoc]
        exact perm_append_comm.trans (hkeys.symm.append_right _)
      exact ((hmove.append_right deletes).append_right r.deleted).trans h.places
    · exact h.client session' connection' ((hfound session' connection').mp hfind').2
    · exact h.connection session' connection' ((hfound session' connection').mp hfind').2
    · -- The player of the session has no other, and so no one else is taken out.
      have hgone := r.manager.getEntitySession_removeEntitySession (r.entityIds connection) id
      refine (Eq.congr hgone rfl).trans ?_
      rw [Option.ite_none_left_eq_some, h.entity]
      dsimp only
      constructor
      · rintro ⟨hne, connection', hfind', rfl⟩
        refine ⟨connection', (hfound session' connection').mpr ⟨?_, hfind'⟩, rfl⟩
        rintro rfl
        rw [hfind, Option.some.injEq] at hfind'
        exact hne (congrArg r.entityIds hfind'.symm)
      · rintro ⟨connection', hfind', rfl⟩
        obtain ⟨hne, hfind'⟩ := (hfound session' connection').mp hfind'
        refine ⟨fun hsame => ?_, connection', hfind', rfl⟩
        have hsession := (h.getEntitySession hfind').symm.trans
          ((congrArg r.manager.getEntitySession hsame).trans (h.getEntitySession hfind))
        exact hne (Option.some.inj hsession)

/-- The sessions that wait are about to be deleted. -/
theorem takeDeletes (hdeletes : deletes = []) :
    r.takeDeletes.Agree r.manager.pendingDeletes := by
  subst hdeletes
  refine ⟨⟨h.inOrder.connectionToSession, h.inOrder.sessionToConnection,
    h.inOrder.siteToSessions, h.inOrder.sites⟩, ?_, h.apart, h.client, h.connection, h.session,
    h.entity⟩
  have hplaces := h.places
  rw [append_nil] at hplaces
  rw [Router.takeDeletes, append_nil]
  exact hplaces

omit h in
/-- A session is deleted, and its connection given back. -/
theorem deleteSession {session : SessionPtr} (h : r.Agree (session :: deletes)) :
    (r.deleteSession session).Agree deletes := by
  obtain ⟨released, hreleased⟩ := r.releaseConnection_eq (r.clientPtrs session)
  have heq : r.deleteSession session =
      { r with
        manager := { r.manager with
          connectionToSession :=
            SortedMap.erase (r.clientPtrs session) r.manager.connectionToSession }
        deleted := r.deleted ++ [session]
        released := released } := by
    rw [Router.deleteSession, hreleased]
  rw [heq]
  have hlive : r.Live session := h.live (mem_append_right _ mem_cons_self)
  -- A session that is connected is another one, and has another connection.
  have hother : ∀ session' connection', SortedMap.find session' r.manager.sessionToConnection =
      some connection' → connection' ≠ r.clientPtrs session := by
    intro session' connection' hfind hsame
    have hclient := (h.client session' connection' hfind).trans hsame
    obtain rfl := h.apart session' session (h.live_of_find hfind) hlive hclient
    have hnodup := (nodup_append.mp (h.places.nodup_iff.mpr nodup_range)).1
    refine (nodup_append.mp hnodup).2.2 session' ?_ session' mem_cons_self rfl
    exact mem_append_left _ (mem_keys_of_find hfind)
  have hstays : ∀ session', session' < r.nextSession ∧ session' ∉ r.deleted ++ [session] →
      r.Live session' := fun session' hlive' =>
    ⟨hlive'.1, fun hmem => hlive'.2 (mem_append_left _ hmem)⟩
  refine ⟨⟨h.inOrder.connectionToSession.erase _, h.inOrder.sessionToConnection,
    h.inOrder.siteToSessions, h.inOrder.sites⟩, ?_,
    fun session' session'' hlive' hlive'' => h.apart _ _ (hstays _ hlive') (hstays _ hlive''),
    h.client, fun session' connection' hfind => ?_,
    fun connection' driver session' hfind => ?_, h.entity⟩
  · refine List.Perm.trans ?_ h.places
    dsimp only
    rw [append_assoc _ deletes, append_assoc _ (session :: deletes), ← append_assoc
      deletes]
    exact perm_append_comm.append_left _
  · obtain ⟨driver, hdriver⟩ := h.connection session' connection' hfind
    refine ⟨driver, ?_⟩
    dsimp only
    rw [find_erase, if_neg (hother session' connection' hfind)]
    exact hdriver
  · dsimp only at hfind
    rw [find_erase, Option.ite_none_left_eq_some] at hfind
    obtain ⟨hne, hfind⟩ := hfind
    obtain ⟨⟨hlt, hdeleted⟩, hclient⟩ := h.session connection' driver session' hfind
    refine ⟨⟨hlt, fun hmem => ?_⟩, hclient⟩
    rcases mem_append.mp hmem with hmem | hmem
    · exact hdeleted hmem
    · rw [mem_singleton] at hmem
      subst hmem
      exact hne hclient.symm

end Agree

/-! ### A client that is being authorized -/

theorem Free.removeSession {r : Router} {connection : ConnectionPtr} (h : r.Free connection)
    (session : SessionPtr) : (r.removeSession session).Free connection := by
  rcases r.removeSession_eq session with ⟨-, heq⟩ | ⟨connection', -, heq⟩
  · rw [heq]
    exact h
  · rw [heq]
    exact h

theorem Free.requestService {r : Router} {connection : ConnectionPtr} (h : r.Free connection)
    (session : SessionPtr) : (r.requestService session).Free connection := by
  obtain ⟨actions, requested, -, heq⟩ := r.requestService_eq session
  rw [heq]
  exact h

variable {r : Router}

/-- No one gets a session by a removal. -/
theorem getEntitySession_removeSession {id : Id} (h : r.manager.getEntitySession id = none)
    (session : SessionPtr) : (r.removeSession session).manager.getEntitySession id = none := by
  rcases r.removeSession_eq session with ⟨-, heq⟩ | ⟨connection, -, heq⟩
  · rw [heq]
    exact h
  · rw [heq]
    refine (r.manager.getEntitySession_removeEntitySession (r.entityIds connection) id).trans ?_
    rw [h, ite_self]

/-- A player that is disconnected has no session. -/
theorem Agree.getEntitySession_disconnectSession {deletes : List SessionPtr} (h : r.Agree deletes)
    (id : Id) : (r.disconnectSession id).manager.getEntitySession id = none := by
  rw [disconnectSession]
  cases hsession : r.manager.getEntitySession id with
  | none => exact hsession
  | some session =>
    obtain ⟨connection, hfind, hid⟩ := (h.entity id session).mp hsession
    dsimp only
    rcases r.removeSession_eq session with ⟨hnone, -⟩ | ⟨connection', hfind', heq⟩
    · rw [hnone] at hfind
      cases hfind
    · rw [heq]
      rw [hfind, Option.some.injEq] at hfind'
      subst hfind'
      refine (r.manager.getEntitySession_removeEntitySession (r.entityIds connection) id).trans ?_
      rw [if_pos hid.symm]

theorem Agree.disconnectSession {deletes : List SessionPtr} (h : r.Agree deletes) (id : Id) :
    (r.disconnectSession id).Agree deletes := by
  rw [Router.disconnectSession]
  split
  · exact h
  · exact h.removeSession _

theorem Free.disconnectSession {connection : ConnectionPtr} (h : r.Free connection) (id : Id) :
    (r.disconnectSession id).Free connection := by
  rw [Router.disconnectSession]
  split
  · exact h
  · exact h.removeSession _

end Router

namespace RouterSystem

/-- The tables agree, and a client that is being authorized will not upset them. -/
structure Agree (s : RouterSystem) : Prop where
  router : s.router.Agree s.thread.deletes
  authorizing : ∀ id driver connection, s.thread = .authorizing id driver connection →
    id.isDefault = false ∧ s.router.manager.getEntitySession id = none ∧
      s.router.Free connection

theorem agree_new : new.Agree := ⟨Router.agree_new, fun _ _ _ => nofun⟩

/-- Each step keeps the agreement. -/
theorem Agree.step {s s' : RouterSystem} {a : RouterStep} (h : s.Agree)
    (hstep : s.step a = some s') : s'.Agree := by
  have hr := h.router
  cases next_of_step hstep with
  | @setEntityId connection id hthread hfree =>
    refine ⟨hr.setEntityId hfree id, fun id' driver connection' hauthorizing => ?_⟩
    rw [hthread] at hauthorizing
    cases hauthorizing
  | @authorizeClient id driver connection hthread hfree hid =>
    rw [hthread] at hr
    refine ⟨hr.disconnectSession id, fun id' driver' connection' hauthorizing => ?_⟩
    cases hauthorizing
    exact ⟨hid, hr.getEntitySession_disconnectSession id, hfree.disconnectSession id⟩
  | @addSession id driver connection hthread =>
    obtain ⟨hid, hnone, hfree⟩ := h.authorizing id driver connection hthread
    rw [hthread] at hr
    exact ⟨hr.newSession hfree hid hnone driver, fun _ _ _ => nofun⟩
  | @reauthorizeClient id driver connection session hthread hfree hid hsession =>
    refine ⟨hr.reauthorizeClient hfree hid hsession driver, fun _ _ _ hauthorizing => ?_⟩
    rw [hthread] at hauthorizing
    cases hauthorizing
  | notFound => exact h
  | @removeSession session hlock =>
    refine ⟨hr.removeSession session, fun id driver connection hauthorizing => ?_⟩
    obtain ⟨hid, hnone, hfree⟩ := h.authorizing id driver connection hauthorizing
    exact ⟨hid, Router.getEntitySession_removeSession hnone session, hfree.removeSession session⟩
  | @requestService session hlive =>
    refine ⟨hr.requestService session, fun id driver connection hauthorizing => ?_⟩
    obtain ⟨hid, hnone, hfree⟩ := h.authorizing id driver connection hauthorizing
    refine ⟨hid, ?_, hfree.requestService session⟩
    obtain ⟨actions, requested, -, heq⟩ := s.router.requestService_eq session
    rw [heq]
    exact hnone
  | takeActions hthread =>
    rw [hthread] at hr
    exact ⟨hr.setActions [] s.router.hasRequestedService, fun _ _ _ => nofun⟩
  | processPending hthread =>
    rw [hthread] at hr
    exact ⟨hr.setActions s.router.manager.pendingActions _, fun _ _ _ => nofun⟩
  | takeDeletes hthread =>
    rw [hthread] at hr
    exact ⟨hr.takeDeletes rfl, fun _ _ _ => nofun⟩
  | deleteSession hthread =>
    rw [hthread] at hr
    exact ⟨hr.deleteSession, fun _ _ _ => nofun⟩
  | finishService hserviced =>
    refine ⟨?_, fun _ _ _ => nofun⟩
    have hdeletes : s.thread.deletes = [] := RouterThread.deletes_of_serviced hserviced
    rw [hdeletes] at hr
    exact hr

/-- The agreement holds in every reachable state. -/
theorem agree_of_reachable {ok : RouterSystem → RouterStep → Prop} {s : RouterSystem}
    (h : Reachable step ok new s) : s.Agree :=
  h.invariant agree_new fun _ _ _ hs _ hstep => hs.step hstep

/-- The tables say the same, as anyone sees them who has `router_lock`. -/
structure TablesAgree (s : RouterSystem) : Prop where
  /-- A player has one session at most. -/
  atMostOne : ∀ session session' connection connection',
    (session, connection) ∈ s.router.manager.sessionToConnection →
    (session', connection') ∈ s.router.manager.sessionToConnection →
    s.router.entityIds connection = s.router.entityIds connection' → session = session'
  /-- No site is listed without a session. -/
  sites : ∀ site sessions, (site, sessions) ∈ s.router.manager.siteToSessions → sessions ≠ []
  /-- A session is listed under the player whose ID its connection has. -/
  listed : ∀ id session, (∃ site sessions, (site, sessions) ∈ s.router.manager.siteToSessions ∧
      (id, session) ∈ sessions) ↔
    ∃ connection, (session, connection) ∈ s.router.manager.sessionToConnection ∧
      s.router.entityIds connection = id
  /-- The connection of a session leads back to the session, and to no other. -/
  back : ∀ session connection, (session, connection) ∈ s.router.manager.sessionToConnection →
    s.router.manager.getSession connection = some session
  /-- No one is said to be online twice. -/
  onlineOnce : ∀ site, (s.router.manager.getOnlineIds site).Nodup
  /-- Who is said to be online at a site are its players with a session. -/
  online : ∀ site id, id ∈ s.router.manager.getOnlineIds site ↔ id.siteId = site ∧
    ∃ session connection, (session, connection) ∈ s.router.manager.sessionToConnection ∧
      s.router.entityIds connection = id

/-- **The tables agree in every reachable state**, after any sequence of authorizations,
reconnections and disconnections. -/
theorem tables_agree {s : RouterSystem} (h : Reachable step (fun _ _ => True) new s) :
    s.TablesAgree := by
  have hr := (agree_of_reachable h).router
  have hmem : ∀ session connection,
      (session, connection) ∈ s.router.manager.sessionToConnection ↔
        SortedMap.find session s.router.manager.sessionToConnection = some connection :=
    fun _ _ => hr.inOrder.sessionToConnection.mem_iff
  refine ⟨fun session session' connection connection' hsession hsession' hsame => ?_,
    fun site sessions hsite => (hr.inOrder.sites site sessions hsite).1, fun id session => ?_,
    fun session connection hsession => ?_, hr.inOrder.nodup_getOnlineIds, fun site id => ?_⟩
  · have hfirst := hr.getEntitySession ((hmem session connection).mp hsession)
    have hsecond := hr.getEntitySession ((hmem session' connection').mp hsession')
    rw [hsame, hsecond, Option.some.injEq] at hfirst
    exact hfirst.symm
  · refine Iff.trans ?_ ((hr.entity id session).trans
      (exists_congr fun connection => and_congr_left' (hmem session connection).symm))
    constructor
    · rintro ⟨site, sessions, hsite, hentry⟩
      exact hr.inOrder.getEntitySession_of_mem hsite hentry
    · exact RouterSessionManager.mem_of_getEntitySession
  · obtain ⟨driver, hdriver⟩ := hr.connection session connection
      ((hmem session connection).mp hsession)
    rw [RouterSessionManager.getSession, hdriver]
    rfl
  · rw [hr.inOrder.mem_getOnlineIds]
    refine and_congr_right fun _ => exists_congr fun session => ?_
    refine (hr.entity id session).trans ?_
    exact exists_congr fun connection => and_congr_left' (hmem session connection).symm

/-- One of two players reconnects, the other is disconnected, and the first connects anew. -/
theorem tables_agree_reconnected : ∃ s : RouterSystem, s.TablesAgree ∧
    s.router.manager.getOnlineIds 1 = [⟨1, 5⟩] ∧
    s.router.manager.sessionToConnection = [(2, 13)] ∧
    s.router.manager.pendingDeletes = [1, 0] := by
  obtain ⟨s, hs, heq⟩ := Option.map_eq_some_iff.mp
    (show (run step new [.authorizeClient ⟨1, 5⟩ 0 10, .addSession,
      .authorizeClient ⟨1, 6⟩ 0 11, .addSession, .reauthorizeClient ⟨1, 5⟩ 0 12,
      .removeSession 1, .authorizeClient ⟨1, 5⟩ 0 13, .addSession]).map (fun s =>
        (s.router.manager.getOnlineIds 1, s.router.manager.sessionToConnection,
          s.router.manager.pendingDeletes)) =
      some ([⟨1, 5⟩], [(2, 13)], [1, 0]) by decide +kernel)
  rw [Prod.mk.injEq, Prod.mk.injEq] at heq
  have hreachable : Reachable step (fun _ _ => True) new s :=
    Reachable.steps .init (steps_of_run hs fun _ _ _ => trivial)
  exact ⟨s, tables_agree hreachable, heq⟩

end RouterSystem

end Mutgos.CommInterface
