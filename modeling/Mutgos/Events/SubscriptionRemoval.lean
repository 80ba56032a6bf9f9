import Mathlib.Data.Finset.Union
import Mutgos.Events.SubscriptionIndex

/-!
# Telling of subscriptions and removing them

Who is called back by a step, and the loops that remove a set of subscriptions after their
owners have been told.

## Main results

* `EventSystem.indexed_of_reaches` — **the lists are an index of the table** in every
  reachable state.
-/

namespace Mutgos.Events

open DbTypes List Option Finset
open Executor (PID)

namespace EventSystem

/-! ### Notices -/

/-- Who is called back about a subscription. -/
def noticesFor (s : EventSystem) (reason : Reason) (id : SubscriptionId) : List Notice :=
  match (s.data.getSubscriptionInfo id).bind (·.callback.recipient) with
  | some recipient => [⟨recipient, id, reason⟩]
  | none => []

/-- Who has been called back between two states, by the subscription it is about. -/
def Tells (s s' : EventSystem) (told : SubscriptionId → List Notice) : Prop :=
  ∃ news, s'.notices = s.notices ++ news ∧
    ∀ id, news.filter (fun notice => notice.subscription = id) = told id

variable {s s' : EventSystem} {p : EventType} {order : EventType → List SubscriptionId}

theorem noticesFor_congr {id : SubscriptionId}
    (h : s'.data.getSubscriptionInfo id = s.data.getSubscriptionInfo id) (reason : Reason) :
    s'.noticesFor reason id = s.noticesFor reason id := by
  rw [noticesFor, h, noticesFor]

/-- The notices about a subscription name it. -/
theorem filter_noticesFor (s : EventSystem) (reason : Reason) (id id' : SubscriptionId) :
    (s.noticesFor reason id).filter (fun notice => notice.subscription = id') =
      if id' = id then s.noticesFor reason id else [] := by
  rw [noticesFor]
  split
  · by_cases hid : id' = id
    · simp [hid]
    · simp [hid, Ne.symm hid]
  · simp

/-- The owner of a subscription is called back once. -/
theorem Indexed.noticesFor (hs : s.Indexed) {id : SubscriptionId} {details : SubscriptionDetails}
    (hinfo : s.data.getSubscriptionInfo id = some details) (reason : Reason) :
    ∃ recipient, details.callback.recipient = some recipient ∧
      s.noticesFor reason id = [⟨recipient, id, reason⟩] := by
  have hvalid := (hs.data.valid id details hinfo).1
  rw [← SubscriptionCallback.recipient_isSome, isSome_iff_exists] at hvalid
  obtain ⟨recipient, hrecipient⟩ := hvalid
  refine ⟨recipient, hrecipient, ?_⟩
  rw [EventSystem.noticesFor, hinfo, bind_some, hrecipient]

theorem Tells.refl (s : EventSystem) : Tells s s fun _ => [] :=
  ⟨[], (append_nil _).symm, fun _ => rfl⟩

theorem Tells.trans {s'' : EventSystem} {told told' : SubscriptionId → List Notice}
    (h : Tells s s' told) (h' : Tells s' s'' told') :
    Tells s s'' fun id => told id ++ told' id := by
  obtain ⟨news, hnotices, htold⟩ := h
  obtain ⟨news', hnotices', htold'⟩ := h'
  refine ⟨news ++ news', ?_, fun id => ?_⟩
  · rw [hnotices', hnotices, append_assoc]
  · rw [filter_append, htold, htold']

theorem tells_of_notices_eq (h : s'.notices = s.notices) : Tells s s' fun _ => [] :=
  ⟨[], by rw [h, append_nil], fun _ => rfl⟩

theorem tells_callBack (s : EventSystem) (reason : Reason) (id : SubscriptionId) :
    Tells s (s.callBack reason id) fun id' =>
      if id' = id then s.noticesFor reason id else [] :=
  ⟨s.noticesFor reason id, rfl, fun id' => filter_noticesFor s reason id id'⟩

theorem Indexed.callBack (hs : s.Indexed) (reason : Reason) (id : SubscriptionId) :
    (s.callBack reason id).Indexed :=
  hs.of_notices rfl rfl

/-! ### Removing subscriptions -/

/-- The subscriptions `told` have been told of.  They are gone, unless they are to
executions of processes; all others are there as before. -/
structure Deletes (s s' : EventSystem) (told : Finset SubscriptionId) : Prop where
  indexed : s'.Indexed
  gone : ∀ id ∈ told, ¬s.Manages .processExecution id → s'.data.getSubscriptionInfo id = none
  kept : ∀ id, id ∉ told ∨ s.Manages .processExecution id →
    s'.data.getSubscriptionInfo id = s.data.getSubscriptionInfo id
  tells : Tells s s' fun id => if id ∈ told then s.noticesFor .subscriptionDeleted id else []

theorem manages_congr {id : SubscriptionId} (p : EventType)
    (h : s'.data.getSubscriptionInfo id = s.data.getSubscriptionInfo id) :
    s'.Manages p id ↔ s.Manages p id := by
  rw [Manages, h, Manages]

theorem Deletes.refl (hs : s.Indexed) : Deletes s s ∅ where
  indexed := hs
  gone _ hid := absurd hid (notMem_empty _)
  kept _ _ := rfl
  tells := Tells.refl s

theorem Deletes.trans {s'' : EventSystem} {told told' : Finset SubscriptionId}
    (h : Deletes s s' told) (h' : Deletes s' s'' told') (hdisjoint : Disjoint told told') :
    Deletes s s'' (told ∪ told') where
  indexed := h'.indexed
  gone id hid hmanages := by
    rcases mem_union.mp hid with hid | hid
    · have hid' : id ∉ told' := Finset.disjoint_left.mp hdisjoint hid
      rw [h'.kept id (.inl hid'), h.gone id hid hmanages]
    · have hid' : id ∉ told := Finset.disjoint_right.mp hdisjoint hid
      exact h'.gone id hid ((manages_congr _ (h.kept id (.inl hid'))).not.mpr hmanages)
  kept id hid := by
    rcases hid with hid | hmanages
    · rw [notMem_union] at hid
      rw [h'.kept id (.inl hid.2), h.kept id (.inl hid.1)]
    · have hsame := h.kept id (.inr hmanages)
      rw [h'.kept id (.inr ((manages_congr _ hsame).mpr hmanages)), hsame]
  tells := by
    obtain ⟨news, hnotices, htold⟩ := h.tells.trans h'.tells
    refine ⟨news, hnotices, fun id => (htold id).trans ?_⟩
    dsimp only
    by_cases hid : id ∈ told
    · have hid' : id ∉ told' := Finset.disjoint_left.mp hdisjoint hid
      rw [if_pos hid, if_neg hid', if_pos (Finset.mem_union_left _ hid), append_nil]
    · by_cases hid' : id ∈ told'
      · rw [if_neg hid, if_pos hid', if_pos (Finset.mem_union_right _ hid'), nil_append]
        exact noticesFor_congr (h.kept id (.inl hid)) _
      · rw [if_neg hid, if_neg hid', if_neg (notMem_union.mpr ⟨hid, hid'⟩),
          append_nil]

/-- One round of the loop that removes subscriptions. -/
theorem deletes_internalRemove (hs : s.Indexed) {id : SubscriptionId} (hp : s.Manages p id) :
    Deletes s ((s.callBack .subscriptionDeleted id).internalRemove p id).2 {id} := by
  have hcalled := tells_callBack s .subscriptionDeleted id
  have htold : (fun id' => if id' = id then s.noticesFor .subscriptionDeleted id else []) =
      fun id' => if id' ∈ ({id} : Finset SubscriptionId) then
        s.noticesFor .subscriptionDeleted id' else [] := by
    funext id'
    by_cases hid : id' = id
    · subst hid
      rw [if_pos rfl, if_pos (Finset.mem_singleton_self id')]
    · rw [if_neg hid, if_neg (notMem_singleton.mpr hid)]
  rw [htold] at hcalled
  obtain ⟨details, hinfo, htype⟩ := hp
  have hmanages : s.Manages p id := ⟨details, hinfo, htype⟩
  rcases internalRemove_cases (hs.callBack .subscriptionDeleted id) p id
      (fun details' hinfo' _ => by
        cases hinfo.symm.trans hinfo'
        exact htype) with ⟨hsame, hno⟩ | ⟨-, -, hne, hindexed, hnotices, hfind⟩
  · -- only the processor of executions does not remove what it manages
    have hprocess : p = .processExecution := by
      by_contra hne
      exact hno details hinfo (by rw [removes_eq_manages hne, htype])
    rw [hsame]
    refine ⟨hs.callBack _ _, fun id' hid' hno' => ?_, fun _ _ => rfl, hcalled⟩
    rw [Finset.mem_singleton.mp hid', ← hprocess] at hno'
    exact absurd hmanages hno'
  · refine ⟨hindexed, fun id' hid' _ => ?_, fun id' hid' => ?_, ?_⟩
    · rw [hfind, if_pos (Finset.mem_singleton.mp hid')]
    · rw [hfind, if_neg]
      · rfl
      · rintro rfl
        rcases hid' with hid' | hprocess
        · exact hid' (Finset.mem_singleton_self _)
        · exact hne (hmanages.unique hprocess)
    · obtain ⟨news, hnews, htold'⟩ := hcalled
      exact ⟨news, hnotices.trans hnews, htold'⟩

/-- The loop that removes subscriptions of a processor. -/
theorem deletes_removeDeleted (hs : s.Indexed) {ids : List SubscriptionId} (hids : ids.Nodup)
    (hp : ∀ id ∈ ids, s.Manages p id) : Deletes s (s.removeDeleted p ids) ids.toFinset := by
  induction ids generalizing s with
  | nil => exact .refl hs
  | cons id ids ih =>
    obtain ⟨hid, hids⟩ := nodup_cons.mp hids
    have hfirst := deletes_internalRemove hs (hp id List.mem_cons_self)
    have hne : ∀ id' ∈ ids, id' ∉ ({id} : Finset SubscriptionId) := by
      rintro id' hid' heq
      rw [Finset.mem_singleton] at heq
      exact hid (heq ▸ hid')
    have hrest := ih hfirst.indexed hids fun id' hid' =>
      (manages_congr p (hfirst.kept id' (.inl (hne id' hid')))).mpr
        (hp id' (List.mem_cons_of_mem _ hid'))
    have hdisjoint : Disjoint ({id} : Finset SubscriptionId) ids.toFinset := by
      rw [disjoint_singleton_left, List.mem_toFinset]
      exact hid
    have hboth := hfirst.trans hrest hdisjoint
    rwa [← Finset.insert_eq, ← toFinset_cons] at hboth

/-- The other processors do not take part. -/
theorem lists_removeDeleted {q : EventType} (hq : q ≠ p) (s : EventSystem)
    (ids : List SubscriptionId) : (s.removeDeleted p ids).lists q = s.lists q := by
  induction ids generalizing s with
  | nil => rfl
  | cons id ids ih =>
    rw [removeDeleted, foldl_cons, ← removeDeleted, ih, lists_internalRemove _ hq]
    rfl

/-- What each of some processors collects is told of, and removed. -/
theorem deletes_foldlM {matched : EventType → Lists → SubscriptionCallbackSet}
    {order : EventType → List SubscriptionId} {ps : List EventType} {s s' : EventSystem}
    (hs : s.Indexed) (hps : ps.Nodup)
    (hmatched : ∀ p ∈ ps, ∀ id ∈ matched p (s.lists p), s.Manages p id)
    (h : ps.foldlM (fun s p => s.removeMatched p (matched p (s.lists p)) (order p)) s = some s') :
    Deletes s s' (ps.toFinset.biUnion fun p => matched p (s.lists p)) := by
  induction ps generalizing s with
  | nil =>
    cases h
    exact .refl hs
  | cons p ps ih =>
    obtain ⟨hp, hps⟩ := nodup_cons.mp hps
    rw [foldlM_cons, bind_eq_bind, bind_eq_some_iff] at h
    obtain ⟨s₁, hfirst, hrest⟩ := h
    rw [removeMatched] at hfirst
    split at hfirst
    · next horder =>
      cases hfirst
      have hmanages := hmatched p List.mem_cons_self
      have hdeletes : Deletes s (s.removeDeleted p (order p)) (matched p (s.lists p)) := by
        rw [← horder.2]
        refine deletes_removeDeleted hs horder.1 fun id hid => hmanages id ?_
        rw [← horder.2]
        exact List.mem_toFinset.mpr hid
      have hlists : ∀ q ∈ ps, (s.removeDeleted p (order p)).lists q = s.lists q := by
        intro q hq
        refine lists_removeDeleted ?_ s _
        rintro rfl
        exact hp hq
      -- no other processor collects what this one does
      have hother : ∀ q ∈ ps, ∀ id ∈ matched q (s.lists q), id ∉ matched p (s.lists p) := by
        intro q hq id hid hid'
        have hq' := hmatched q (List.mem_cons_of_mem _ hq) id hid
        exact hp (hq'.unique (hmanages id hid') ▸ hq)
      have hrest := ih hdeletes.indexed hps (fun q hq id hid => by
        rw [hlists q hq] at hid
        exact (manages_congr q (hdeletes.kept id (.inl (hother q hq id hid)))).mpr
          (hmatched q (List.mem_cons_of_mem _ hq) id hid)) hrest
      have hunion : (ps.toFinset.biUnion fun q =>
          matched q ((s.removeDeleted p (order p)).lists q)) =
            ps.toFinset.biUnion fun q => matched q (s.lists q) :=
        biUnion_congr rfl fun q hq => by rw [hlists q (List.mem_toFinset.mp hq)]
      rw [hunion] at hrest
      rw [toFinset_cons, biUnion_insert]
      refine hdeletes.trans hrest ?_
      rw [Finset.disjoint_right]
      intro id hid
      obtain ⟨q, hq, hid⟩ := mem_biUnion.mp hid
      exact hother q (List.mem_toFinset.mp hq) id hid
    · cases hfirst

/-- There is an order in which what is collected is removed. -/
theorem exists_foldlM (matched : EventType → Lists → SubscriptionCallbackSet)
    {ps : List EventType} (hps : ps.Nodup) (s : EventSystem) :
    ∃ (order : EventType → List SubscriptionId) (s' : EventSystem),
      ps.foldlM (fun s p => s.removeMatched p (matched p (s.lists p)) (order p)) s =
        some s' := by
  suffices h : ∀ (order : EventType → List SubscriptionId) (s : EventSystem),
      (∀ p ∈ ps, (order p).Nodup ∧ (order p).toFinset = matched p (s.lists p)) →
        ∃ s', ps.foldlM (fun s p => s.removeMatched p (matched p (s.lists p)) (order p)) s =
          some s' by
    refine ⟨fun p => (matched p (s.lists p)).toList, h _ s fun p _ => ?_⟩
    exact ⟨nodup_toList _, toList_toFinset _⟩
  intro order
  induction ps with
  | nil => exact fun s _ => ⟨s, rfl⟩
  | cons p ps ih =>
    intro s horder
    obtain ⟨hp, hps⟩ := nodup_cons.mp hps
    have hfirst : s.removeMatched p (matched p (s.lists p)) (order p) =
        some (s.removeDeleted p (order p)) := if_pos (horder p List.mem_cons_self)
    rw [foldlM_cons, bind_eq_bind, hfirst, bind_some]
    refine ih hps _ fun q hq => ?_
    rw [lists_removeDeleted (by rintro rfl; exact hp hq)]
    exact horder q (List.mem_cons_of_mem _ hq)

/-! ### What is collected -/

/-- The tables whose subscriptions `entity_deleted` removes. -/
def collectedTables : EventType → List EntityTable
  | .movement => []
  | .emit => [.source, .target]
  | .connection => [.entity]
  | .entityChanged => [.entity, .owner]
  | .processExecution => [.entity]
  | .site => []

/-- What is collected for an Entity is what is listed for it in some tables. -/
theorem mem_matchedForEntity {lists : Lists} {id : Id} {x : SubscriptionId} :
    x ∈ (processor p).matchedForEntity lists id ↔
      ∃ table ∈ collectedTables p, x ∈ lists.listAt (.entity table id) := by
  cases p with
  | movement => simp [collectedTables]
  | emit => simp [collectedTables, processor, emitEventProcessor, getEntitySubscriptions]
  | connection =>
    simp [collectedTables, processor, connectionEventProcessor, getEntitySubscriptions]
  | entityChanged =>
    simp [collectedTables, processor, entityChangedEventProcessor, getEntitySubscriptions]
  | processExecution =>
    simp [collectedTables, processor, processExecutionEventProcessor, getEntitySubscriptions]
  | site => simp [collectedTables, processor, siteEventProcessor]

theorem mem_orAll {k : ListKey} {specific : List ListKey} (h : k ∈ orAll specific) :
    k = .all ∨ k ∈ specific := by
  rw [orAll] at h
  split at h
  · exact .inl (List.mem_singleton.mp h)
  · exact .inr h

/-- The processors other than that of movements collect all that is listed for an Entity. -/
theorem table_of_mem_addKeys (hp : p ≠ .movement) {params : SubscriptionParams}
    {table : EntityTable} {id : Id} (h : .entity table id ∈ (processor p).addKeys params) :
    table ∈ collectedTables p := by
  by_cases hmanages : params.getType = (processor p).manages
  · cases p with
    | movement => exact absurd rfl hp
    | emit =>
      cases params with
      | emit params =>
        rcases mem_append.mp h with h | h
        · split_ifs at h
          · cases h
          · cases List.mem_singleton.mp h
            decide
        · split_ifs at h
          · cases h
          · cases List.mem_singleton.mp h
            decide
      | _ => cases hmanages
    | connection =>
      cases params with
      | connection params =>
        have h : .entity table id ∈ params.keys := h
        rw [ConnectionSubscriptionParams.keys] at h
        split_ifs at h
        · cases List.mem_singleton.mp h
        · obtain ⟨_, -, heq⟩ := List.mem_map.mp h
          cases heq
          decide
        · obtain ⟨_, -, heq⟩ := List.mem_map.mp h
          cases heq
      | _ => cases hmanages
    | entityChanged =>
      cases params with
      | entityChanged params =>
        have h : .entity table id ∈ params.keys := h
        rw [EntityChangedSubscriptionParams.keys] at h
        split_ifs at h
        · cases List.mem_singleton.mp h
        · obtain ⟨_, -, heq⟩ := List.mem_map.mp h
          cases heq
          decide
        · obtain ⟨_, -, heq⟩ := List.mem_map.mp h
          cases heq
          decide
        · cases List.mem_singleton.mp h
      | _ => cases hmanages
    | processExecution =>
      have hsite : ∀ id', .entity table id ∈ idOrSiteKeys .entity id' → table = .entity := by
        intro id' h
        rw [idOrSiteKeys] at h
        split_ifs at h
        · cases h
        · cases List.mem_singleton.mp h
        · cases List.mem_singleton.mp h
          rfl
      cases params with
      | processExecution params =>
        have h : .entity table id ∈ params.keys := h
        rw [ProcessExecutionSubscriptionParams.keys] at h
        refine List.mem_singleton.mpr ?_
        rcases em (params.processId ≠ 0) with hpid | hpid
        · rw [if_pos hpid] at h
          cases List.mem_singleton.mp h
        · rw [if_neg hpid] at h
          rcases mem_orAll h with h | h
          · cases h
          · rcases mem_append.mp h with h | h
            · exact hsite _ h
            · split at h
              · exact hsite _ h
              · cases h
      | _ => cases hmanages
    | site =>
      cases params with
      | site => cases List.mem_singleton.mp h
      | _ => cases hmanages
  · rw [addKeys_eq_nil hmanages] at h
    cases h

/-- What is collected over all processors. -/
def collected (s : EventSystem) (matched : EventType → Lists → SubscriptionCallbackSet) :
    Finset SubscriptionId :=
  EventType.all.toFinset.biUnion fun p => matched p (s.lists p)

theorem mem_collected {matched : EventType → Lists → SubscriptionCallbackSet}
    {id : SubscriptionId} : id ∈ s.collected matched ↔ ∃ p, id ∈ matched p (s.lists p) := by
  rw [collected, mem_biUnion]
  constructor
  · rintro ⟨p, -, hid⟩
    exact ⟨p, hid⟩
  · rintro ⟨p, hid⟩
    exact ⟨p, by cases p <;> decide, hid⟩

/-- `entity_deleted` of all processors. -/
theorem deletes_entityDeleted (hs : s.Indexed) {id : Id} (h : s.entityDeleted id order = some s') :
    Deletes s s' (s.collected fun p lists => (processor p).matchedForEntity lists id) := by
  refine @deletes_foldlM (fun p lists => (processor p).matchedForEntity lists id) order
    EventType.all s s' hs (by decide) ?_ h
  intro p _ x hx
  obtain ⟨table, -, hx⟩ := mem_matchedForEntity.mp hx
  exact hs.manages hx

/-- `site_deleted` of all processors: there is nothing that they would collect. -/
theorem deletes_siteDeleted (hs : s.Indexed) {siteId : SiteIdType}
    (h : s.siteDeleted siteId order = some s') : Deletes s s' ∅ := by
  have hdeletes : Deletes s s'
      (s.collected fun p lists => (processor p).matchedForSite lists siteId) := by
    refine @deletes_foldlM (fun p lists => (processor p).matchedForSite lists siteId) order
      EventType.all s s' hs (by decide) ?_ h
    intro p _ x hx
    rw [matchedForSite_eq_empty] at hx
    exact absurd hx (notMem_empty x)
  have hempty : (s.collected fun p lists => (processor p).matchedForSite lists siteId) = ∅ := by
    refine eq_empty_of_forall_notMem fun x hx => ?_
    obtain ⟨p, hx⟩ := mem_collected.mp hx
    rw [matchedForSite_eq_empty] at hx
    exact notMem_empty x hx
  rwa [hempty] at hdeletes

/-! ### Reachable states -/

theorem data_foldl_callBack (reason : Reason) (ids : List SubscriptionId) (s : EventSystem) :
    (ids.foldl (fun s id => s.callBack reason id) s).data = s.data ∧
      (ids.foldl (fun s id => s.callBack reason id) s).lists = s.lists := by
  induction ids generalizing s with
  | nil => exact ⟨rfl, rfl⟩
  | cons id ids ih => exact ih (s.callBack reason id)

theorem Indexed.dispatch {s : EventSystem} (hs : s.Indexed) (p : EventType) (event : Event) :
    (s.dispatch p event).Indexed := by
  rw [EventSystem.dispatch]
  split
  · exact hs
  · have hsame := data_foldl_callBack (.eventMatched event) (s.satisfied p event) s
    exact hs.of_notices hsame.1 hsame.2

/-- A subscription to executions is listed once at most for a process. -/
theorem count_pid_le (params : SubscriptionParams) (pid : PID) :
    ((processor .processExecution).addKeys params).count (.pid pid) ≤ 1 := by
  have hsite : ∀ table id, (idOrSiteKeys table id).count (.pid pid) = 0 := by
    intro table id
    rw [idOrSiteKeys]
    split_ifs <;> simp
  cases params with
  | processExecution params =>
    change params.keys.count (.pid pid) ≤ 1
    rw [ProcessExecutionSubscriptionParams.keys]
    split_ifs
    · rw [count_singleton]
      split <;> omega
    · rw [orAll]
      split_ifs <;> simp [hsite]
    · rw [orAll]
      split_ifs <;> simp [hsite]
  | _ => exact Nat.zero_le 1

theorem Indexed.deletes_removeForProcess (hs : s.Indexed) (pid : PID) :
    Deletes s (s.removeForProcess pid)
      ((s.lists .processExecution).listAt (.pid pid)).toFinset :=
  deletes_removeDeleted hs (hs.nodup fun params => count_pid_le params pid)
    fun _ hid => hs.manages hid

theorem Indexed.removeForProcess (hs : s.Indexed) (pid : PID) : (s.removeForProcess pid).Indexed :=
  (hs.deletes_removeForProcess pid).indexed

theorem Indexed.unsubscribeProcess (hs : s.Indexed) (pid : PID) :
    (s.unsubscribeProcess pid).Indexed := by
  have hloop : ∀ (ids : List SubscriptionId) (s : EventSystem), s.Indexed →
      (ids.foldl (fun s id => (s.unsubscribe id).2) s).Indexed := by
    intro ids
    induction ids with
    | nil => exact fun s hs => hs
    | cons id ids ih => exact fun s hs => ih _ (hs.unsubscribe id)
  exact hloop _ s hs

theorem Indexed.processEvent (hs : s.Indexed) {event : Event}
    (h : s.processEvent event order = some s') : s'.Indexed := by
  have hdispatch := hs.dispatch event.eventType event
  unfold EventSystem.processEvent at h
  cases event with
  | entityChanged event =>
    dsimp only at h
    split at h
    · exact (deletes_entityDeleted hdispatch h).indexed
    · cases h
      exact hdispatch
  | site event =>
    dsimp only at h
    split at h
    · exact (deletes_siteDeleted hdispatch h).indexed
    · cases h
      exact hdispatch
  | processExecution event =>
    dsimp only at h
    split at h
    · cases h
      exact (hdispatch.removeForProcess _).unsubscribeProcess _
    · cases h
      exact hdispatch
  | _ =>
    cases h
    exact hdispatch

/-- A step keeps the lists an index of the table. -/
theorem Indexed.step (hs : s.Indexed) {call : EventCall} (h : s.step call = some s') :
    s'.Indexed := by
  cases call with
  | subscribe params callback =>
    rw [EventSystem.step, map_eq_some_iff] at h
    obtain ⟨⟨id, s₁⟩, hsubscribe, rfl⟩ := h
    rcases subscribe_cases hs hsubscribe with ⟨-, rfl⟩ | ⟨-, -, hindexed, -⟩
    · exact hs
    · exact hindexed
  | unsubscribe id =>
    cases h
    exact hs.unsubscribe id
  | processEvent event order => exact hs.processEvent h

/-- The states that calls lead to. -/
def Reaches (s : EventSystem) : Prop := Reachable EventSystem.step (fun _ _ => True) init s

/-- **The lists are an index of the table** in every reachable state. -/
theorem indexed_of_reaches (h : s.Reaches) : s.Indexed :=
  h.invariant indexed_init fun _ _ _ hs _ hstep => hs.step hstep

/-! ### One subscription -/

/-- A callback to a process. -/
def sampleCallback : SubscriptionCallback := ⟨7, none⟩

/-- The event system after one call of `subscribe`. -/
def subscribed (params : SubscriptionParams) : EventSystem :=
  ((init.subscribe params sampleCallback).getD (0, init)).2

theorem reaches_subscribed (params : SubscriptionParams)
    (h : (init.subscribe params sampleCallback).isSome = true) :
    (subscribed params).Reaches := by
  refine .step .init (a := .subscribe params sampleCallback) trivial ?_
  rw [EventSystem.step, map_eq_some_iff]
  obtain ⟨result, hresult⟩ := isSome_iff_exists.mp h
  exact ⟨result, hresult, by rw [subscribed, hresult, getD_some]⟩

end EventSystem

end Mutgos.Events
