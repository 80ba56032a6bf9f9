import Mutgos.Events.SubscriptionRemoval

/-!
# Who is called back about an event

A processor evaluates the subscriptions in a few of its lists only.  Those should be all that
match the event.

## Main results

* `covered_of_isMatch` — **what matches is evaluated**, unless it is about another site.
* `EventSystem.dispatchesExactly_iff` — **the subscriptions that match are called back, once
  each, exactly if those about sites are about the site of who moves.**
-/

namespace Mutgos.Events

open DbTypes ProcessExecutionSubscriptionParams List
open Executor (PID)

/-! ### The lists that are evaluated -/

/-- A subscription is in one of the lists that are evaluated for an event. -/
def Covered (p : EventType) (event : Event) (params : SubscriptionParams) : Prop :=
  ∃ k ∈ (processor p).evaluatedKeys event, k ∈ (processor p).addKeys params

theorem mem_orAll_of_mem {k : ListKey} {specific : List ListKey} (h : k ∈ specific) :
    k ∈ orAll specific := by
  rw [orAll, if_neg (ne_nil_of_mem h)]
  exact h

/-- A list of IDs that matches is empty, or lists what it is matched with. -/
theorem emptyOr_mem {ids : List Id} {id : Id} (h : emptyOr ids.isEmpty (id ∈ ids) = true) :
    ids = [] ∨ id ∈ ids := by
  simpa [emptyOr] using h

/-- A subscription to movements about a site is covered if it is the site of who moves. -/
theorem covered_movement_site {params : MovementSubscriptionParams} {event : MovementEvent}
    (hsite : params.site ≠ 0) :
    Covered .movement (.movement event) (.movement params) ↔ params.site = event.who.siteId := by
  have hkeys : params.keys = [.site params.site] := by
    rw [MovementSubscriptionParams.keys, if_pos hsite]
  constructor
  · rintro ⟨k, hk, hadd⟩
    have hadd : k ∈ params.keys := hadd
    rw [hkeys, mem_singleton] at hadd
    subst hadd
    have hk : ListKey.site params.site ∈ [ListKey.entity .who event.who,
      .entity .fromId event.source, .entity .toId event.destination, .entity .how event.how,
      .site event.who.siteId, .all] := hk
    simpa using hk
  · intro heq
    refine ⟨.site params.site, ?_, ?_⟩
    · rw [heq]
      change _ ∈ [_, _, _, _, _, _]
      simp
    · change _ ∈ params.keys
      rw [hkeys]
      exact mem_singleton_self _

/-- A subscription to movements of Entities is covered. -/
theorem covered_movement {params : MovementSubscriptionParams} {event : MovementEvent}
    (hsite : params.site = 0) (hmatch : params.isMatch event = true) :
    Covered .movement (.movement event) (.movement params) := by
  rw [MovementSubscriptionParams.isMatch, if_neg (not_not.mpr hsite)] at hmatch
  simp only [Bool.and_eq_true] at hmatch
  obtain ⟨⟨-, ⟨hwho, hfrom⟩, hto⟩, hhow⟩ := hmatch
  have hkeys : (processor .movement).addKeys (.movement params) =
      orAll (params.who.map (.entity .who) ++ params.fromIds.map (.entity .fromId) ++
        params.toIds.map (.entity .toId) ++
        if params.how.isDefault then [] else [.entity .how params.how]) := by
    change params.keys = _
    rw [MovementSubscriptionParams.keys, if_neg (not_not.mpr hsite)]
  have hevaluated : (processor .movement).evaluatedKeys (.movement event) =
      [.entity .who event.who, .entity .fromId event.source, .entity .toId event.destination,
        .entity .how event.how, .site event.who.siteId, .all] := rfl
  rw [Covered, hkeys, hevaluated]
  rcases emptyOr_mem hwho with hwho | hwho
  · rcases emptyOr_mem hfrom with hfrom | hfrom
    · rcases emptyOr_mem hto with hto | hto
      · cases hdefault : params.how.isDefault with
        | true => exact ⟨.all, by simp, by simp [hwho, hfrom, hto, orAll]⟩
        | false =>
          have heq : params.how = event.how := by simpa [emptyOr, hdefault] using hhow
          refine ⟨.entity .how event.how, by simp, mem_orAll_of_mem ?_⟩
          simp [heq]
      · refine ⟨.entity .toId event.destination, by simp, mem_orAll_of_mem ?_⟩
        simp [hto]
    · refine ⟨.entity .fromId event.source, by simp, mem_orAll_of_mem ?_⟩
      simp [hfrom]
  · refine ⟨.entity .who event.who, by simp, mem_orAll_of_mem ?_⟩
    simp [hwho]

theorem covered_emit {params : EmitSubscriptionParams} {event : EmitEvent}
    (hvalid : params.validate = true) (hmatch : params.isMatch event = true) :
    Covered .emit (.emit event) (.emit params) := by
  rw [EmitSubscriptionParams.isMatch] at hmatch
  simp only [Bool.and_eq_true] at hmatch
  obtain ⟨⟨hsource, htarget⟩, -⟩ := hmatch
  have hkeys : (processor .emit).addKeys (.emit params) =
      (if params.source.isDefault then [] else [.entity .source params.source]) ++
        if params.target.isDefault then [] else [.entity .target params.target] := rfl
  have hevaluated : (processor .emit).evaluatedKeys (.emit event) =
      [.entity .source event.source, .entity .target event.target] := rfl
  rw [Covered, hkeys, hevaluated]
  cases hdefault : params.source.isDefault with
  | false =>
    have heq : params.source = event.source := by simpa [emptyOr, hdefault] using hsource
    exact ⟨.entity .source event.source, by simp, by simp [heq]⟩
  | true =>
    -- there has to be a target then
    have htargetDefault : params.target.isDefault = false := by
      simpa [EmitSubscriptionParams.validate, hdefault] using hvalid
    have heq : params.target = event.target := by
      simpa [emptyOr, htargetDefault] using htarget
    exact ⟨.entity .target event.target, by simp, by simp [htargetDefault, ← heq]⟩

theorem covered_connection {params : ConnectionSubscriptionParams} {event : ConnectionEvent}
    (hmatch : params.isMatch event = true) :
    Covered .connection (.connection event) (.connection params) := by
  rw [ConnectionSubscriptionParams.isMatch] at hmatch
  simp only [Bool.and_eq_true] at hmatch
  obtain ⟨⟨-, hwho⟩, -⟩ := hmatch
  have hkeys : (processor .connection).addKeys (.connection params) = params.keys := rfl
  have hevaluated : (processor .connection).evaluatedKeys (.connection event) =
      [.entity .entity event.entityId, .site event.entityId.siteId, .all] := rfl
  rw [Covered, hkeys, hevaluated, ConnectionSubscriptionParams.keys]
  by_cases hids : params.entityIds = []
  · by_cases hsites : params.siteIds = []
    · exact ⟨.all, by simp, by simp [hids, hsites]⟩
    · have hmem : event.entityId.siteId ∈ params.siteIds := by
        simpa [hids, emptyOr, hsites] using hwho
      exact ⟨.site event.entityId.siteId, by simp, by simp [hids, hsites, hmem]⟩
  · have hmem : event.entityId ∈ params.entityIds := by
      simpa [hids] using hwho
    exact ⟨.entity .entity event.entityId, by simp, by simp [hids, hmem]⟩

theorem covered_entityChanged {params : EntityChangedSubscriptionParams}
    {event : EntityChangedEvent} (hmatch : params.isMatch event = true) :
    Covered .entityChanged (.entityChanged event) (.entityChanged params) := by
  rw [EntityChangedSubscriptionParams.isMatch] at hmatch
  simp only [Bool.and_eq_true] at hmatch
  obtain ⟨⟨⟨⟨⟨⟨⟨-, hwho⟩, -⟩, -⟩, -⟩, -⟩, -⟩, -⟩ := hmatch
  have hkeys : (processor .entityChanged).addKeys (.entityChanged params) = params.keys := rfl
  have hevaluated : (processor .entityChanged).evaluatedKeys (.entityChanged event) =
      [.entity .entity event.entityId, .entity .owner event.entityOwner,
        .site event.entityId.siteId, .all] := rfl
  rw [Covered, hkeys, hevaluated, EntityChangedSubscriptionParams.keys]
  by_cases hids : params.entityIds = []
  · by_cases hsite : params.siteId = 0
    · exact ⟨.all, by simp, by simp [hids, hsite]⟩
    · have heq : params.siteId = event.entityId.siteId := by
        simpa [hids, emptyOr, hsite] using hwho
      exact ⟨.site event.entityId.siteId, by simp, by simp [hids, hsite, ← heq]⟩
  · cases howners : params.entitiesAreOwners with
    | true =>
      have hmem : event.entityOwner ∈ params.entityIds := by
        simpa [hids, howners] using hwho
      exact ⟨.entity .owner event.entityOwner, by simp, by simp [hids, hmem]⟩
    | false =>
      have hmem : event.entityId ∈ params.entityIds := by
        simpa [hids, howners] using hwho
      exact ⟨.entity .entity event.entityId, by simp, by simp [hids, hmem]⟩

/-- An ID that matches is in one of two lists. -/
theorem mem_idOrSiteKeys {table : EntityTable} {wanted id : Id} (hdefault : ¬wanted.isDefault)
    (hmatch : idMatch wanted id = true) :
    .entity table id ∈ idOrSiteKeys table wanted ∨
      .site id.siteId ∈ idOrSiteKeys table wanted := by
  rw [idOrSiteKeys, if_neg hdefault]
  rw [idMatch] at hmatch
  split at hmatch
  · next hsite =>
    rw [if_pos hsite, decide_eq_true_eq.mp hmatch]
    exact .inr (mem_singleton_self _)
  · next hsite =>
    rw [if_neg hsite, decide_eq_true_eq.mp hmatch]
    exact .inl (mem_singleton_self _)

theorem covered_processExecution {params : ProcessExecutionSubscriptionParams}
    {event : ProcessExecutionEvent} (hmatch : params.isMatch event = true) :
    Covered .processExecution (.processExecution event) (.processExecution params) := by
  rw [isMatch] at hmatch
  simp only [Bool.and_eq_true] at hmatch
  obtain ⟨⟨⟨⟨⟨-, hpid⟩, hexecutable⟩, howner⟩, -⟩, -⟩ := hmatch
  have hkeys : (processor .processExecution).addKeys (.processExecution params) =
      params.keys := rfl
  have hevaluated : (processor .processExecution).evaluatedKeys (.processExecution event) =
      [.entity .entity event.executableId, .site event.executableId.siteId,
        .entity .entity event.ownerId, .site event.ownerId.siteId, .all,
        .pid event.processId] := rfl
  rw [Covered, hkeys, hevaluated, ProcessExecutionSubscriptionParams.keys]
  by_cases hzero : params.processId = 0
  · rw [if_neg (not_not.mpr hzero)]
    by_cases hdefault : params.executableId.isDefault
    · rw [if_pos (Or.inl hdefault)]
      by_cases hownerDefault : params.ownerId.isDefault
      · exact ⟨.all, by simp, by simp [idOrSiteKeys, hdefault, hownerDefault, orAll]⟩
      · have hmatch : idMatch params.ownerId event.ownerId =
            true := by
          simpa [emptyOr, hownerDefault] using howner
        rcases mem_idOrSiteKeys hownerDefault hmatch with h | h
        · exact ⟨_, by simp, mem_orAll_of_mem (mem_append_right _ h)⟩
        · exact ⟨_, by simp, mem_orAll_of_mem (mem_append_right _ h)⟩
    · have hmatch : idMatch params.executableId
          event.executableId = true := by
        simpa [emptyOr, hdefault] using hexecutable
      rcases mem_idOrSiteKeys hdefault hmatch with h | h
      · exact ⟨_, by simp, mem_orAll_of_mem (mem_append_left _ h)⟩
      · exact ⟨_, by simp, mem_orAll_of_mem (mem_append_left _ h)⟩
  · have heq : event.processId = params.processId := by
      simpa [emptyOr, hzero] using hpid
    exact ⟨.pid event.processId, by simp, by simp [hzero, heq]⟩

/-- A subscription is about the site of who moves, if it is about a site and an event is a
movement. -/
def siteIsOfWho : Event → SubscriptionParams → Prop
  | .movement event, .movement params => params.site ≠ 0 → params.site = event.who.siteId
  | _, _ => True

/-- **What matches is evaluated**, unless it is about another site. -/
theorem covered_of_isMatch {event : Event} {params : SubscriptionParams}
    (hvalid : params.validate = true) (hmatch : params.isMatch event = true) :
    Covered event.eventType event params ↔ siteIsOfWho event params := by
  cases params with
  | movement params =>
    cases event with
    | movement event =>
      by_cases hsite : params.site = 0
      · exact iff_of_true (covered_movement hsite hmatch) fun hne => absurd hsite hne
      · exact (covered_movement_site hsite).trans ⟨fun heq _ => heq, fun h => h hsite⟩
    | _ => cases hmatch
  | emit params =>
    cases event with
    | emit event => exact iff_of_true (covered_emit hvalid hmatch) trivial
    | _ => cases hmatch
  | connection params =>
    cases event with
    | connection event => exact iff_of_true (covered_connection hmatch) trivial
    | _ => cases hmatch
  | entityChanged params =>
    cases event with
    | entityChanged event => exact iff_of_true (covered_entityChanged hmatch) trivial
    | _ => cases hmatch
  | processExecution params =>
    cases event with
    | processExecution event => exact iff_of_true (covered_processExecution hmatch) trivial
    | _ => cases hmatch
  | site =>
    cases event with
    | site event =>
      exact iff_of_true ⟨.all, mem_singleton_self _, mem_singleton_self _⟩ trivial
    | _ => cases hmatch

namespace EventSystem

/-! ### Callbacks -/

/-- A subscription matches an event. -/
def Matches (s : EventSystem) (event : Event) (id : SubscriptionId) : Prop :=
  ∃ details, s.data.getSubscriptionInfo id = some details ∧
    details.params.isMatch event = true

/-- The subscriptions that match an event are called back, once each. -/
def DispatchesExactly (s : EventSystem) (event : Event) : Prop :=
  ∃ news, (s.dispatch event.eventType event).notices = s.notices ++ news ∧
    (∀ id, s.Matches event id → ∃ details recipient,
      s.data.getSubscriptionInfo id = some details ∧
        details.callback.recipient = some recipient ∧
          news.filter (fun notice => notice.subscription = id) =
            [⟨recipient, id, .eventMatched event⟩]) ∧
    ∀ id, ¬s.Matches event id → news.filter (fun notice => notice.subscription = id) = []

/-- The subscriptions to movements about a site that match an event are about the site of who
moves. -/
def SitesAreOfWho (s : EventSystem) (event : Event) : Prop :=
  ∀ id details, s.data.getSubscriptionInfo id = some details →
    details.params.isMatch event = true → siteIsOfWho event details.params

theorem tells_foldl_callBack (reason : Reason) {ids : List SubscriptionId} (hids : ids.Nodup)
    (s : EventSystem) :
    Tells s (ids.foldl (fun s id => s.callBack reason id) s) fun id =>
      if id ∈ ids then s.noticesFor reason id else [] := by
  induction ids generalizing s with
  | nil => simpa using Tells.refl s
  | cons id ids ih =>
    obtain ⟨hid, hids⟩ := nodup_cons.mp hids
    obtain ⟨news, hnotices, hnews⟩ := (tells_callBack s reason id).trans
      (ih hids (s.callBack reason id))
    refine ⟨news, hnotices, fun id' => (hnews id').trans ?_⟩
    have hsame : (s.callBack reason id).noticesFor reason id' = s.noticesFor reason id' :=
      noticesFor_congr rfl reason
    dsimp only
    rw [hsame]
    by_cases heq : id' = id
    · subst heq
      rw [if_pos rfl, if_neg hid, if_pos mem_cons_self, append_nil]
    · rw [if_neg heq, nil_append]
      simp only [mem_cons, heq, false_or]

/-- What is called back is what matches and is evaluated. -/
theorem Indexed.mem_satisfied {s : EventSystem} (hs : s.Indexed) {event : Event}
    {id : SubscriptionId} :
    id ∈ s.satisfied event.eventType event ↔
      ∃ details, s.data.getSubscriptionInfo id = some details ∧
        details.params.isMatch event = true ∧
          Covered event.eventType event details.params := by
  rw [satisfied, (tracks_evaluateSubscriptions _ _).mem_satisfied, mem_flatten, isMatch]
  constructor
  · rintro ⟨⟨list, hlist, hid⟩, hmatch⟩
    obtain ⟨k, hk, rfl⟩ := mem_map.mp hlist
    obtain ⟨details, hinfo, hkeys⟩ := hs.mem_listAt.mp hid
    rw [hinfo, Option.any_some] at hmatch
    exact ⟨details, hinfo, hmatch, k, hk, hkeys⟩
  · rintro ⟨details, hinfo, hmatch, k, hk, hkeys⟩
    refine ⟨⟨_, mem_map_of_mem hk, hs.mem_listAt.mpr ⟨details, hinfo, hkeys⟩⟩, ?_⟩
    rw [hinfo, Option.any_some, hmatch]

/-- **The subscriptions that match are called back, once each, exactly if those about sites
are about the site of who moves.** -/
theorem dispatchesExactly_iff {s : EventSystem} (hs : s.Reaches) (event : Event) :
    DispatchesExactly s event ↔ SitesAreOfWho s event := by
  have hindexed := indexed_of_reaches hs
  have hdispatch : s.dispatch event.eventType event =
      (s.satisfied event.eventType event).foldl
        (fun s id => s.callBack (.eventMatched event) id) s := by
    rw [dispatch, handles_processor, if_neg (not_not.mpr rfl)]
  have htells := tells_foldl_callBack (.eventMatched event)
    (tracks_evaluateSubscriptions (s.isMatch event)
      (((processor event.eventType).evaluatedKeys event).map
        (s.lists event.eventType).listAt)).nodup s
  obtain ⟨told, hnotices, htold⟩ := htells
  have hmem : ∀ id details, s.data.getSubscriptionInfo id = some details →
      details.params.isMatch event = true →
        (id ∈ s.satisfied event.eventType event ↔ siteIsOfWho event details.params) := by
    intro id details hinfo hmatch
    rw [hindexed.mem_satisfied, ← covered_of_isMatch (hindexed.valid id details hinfo) hmatch]
    constructor
    · rintro ⟨details', hinfo', -, hcovered⟩
      cases hinfo.symm.trans hinfo'
      exact hcovered
    · exact fun hcovered => ⟨details, hinfo, hmatch, hcovered⟩
  rw [DispatchesExactly, hdispatch]
  constructor
  · rintro ⟨news, hnews, hmatching, -⟩ id details hinfo hmatch
    obtain ⟨_, recipient, -, -, hone⟩ := hmatching id ⟨details, hinfo, hmatch⟩
    have heq : news = told := List.append_cancel_left (hnews.symm.trans hnotices)
    rw [← hmem id details hinfo hmatch]
    by_contra hno
    have hnone := (htold id).trans (if_neg hno)
    rw [← heq, hone] at hnone
    cases hnone
  · intro hsites
    refine ⟨told, hnotices, ?_, ?_⟩
    · rintro id ⟨details, hinfo, hmatch⟩
      obtain ⟨recipient, hrecipient, hfor⟩ := hindexed.noticesFor hinfo (.eventMatched event)
      have hsatisfied := (hmem id details hinfo hmatch).mpr (hsites id details hinfo hmatch)
      exact ⟨details, recipient, hinfo, hrecipient,
        (htold id).trans ((if_pos hsatisfied).trans hfor)⟩
    · intro id hno
      refine (htold id).trans (if_neg fun hsatisfied => hno ?_)
      obtain ⟨details, hinfo, hmatch, -⟩ := hindexed.mem_satisfied.mp hsatisfied
      exact ⟨details, hinfo, hmatch⟩

/-- A movement from one site to another. -/
def sampleMove : MovementEvent := ⟨⟨1, 5⟩, ⟨1, 2⟩, ⟨3, 2⟩, false, ⟨1, 8⟩⟩

theorem dispatchesExactly_move :
    DispatchesExactly (subscribed (.movement ⟨[], [], [], 1, .all, ⟨0, 0⟩⟩))
      (.movement sampleMove) := by
  refine (dispatchesExactly_iff (reaches_subscribed _ (by decide)) _).mpr ?_
  intro id details hinfo _
  change SortedMap.find id [(1, _)] = some details at hinfo
  rw [SortedMap.find] at hinfo
  split at hinfo
  · cases hinfo
    exact fun _ => rfl
  · cases hinfo

/-- Who subscribes to the site of the destination is not called back. -/
theorem dispatch_destination_site :
    ∃ s : EventSystem, s.Reaches ∧ s.Matches (.movement sampleMove) 1 ∧
      (s.dispatch .movement (.movement sampleMove)).notices = [] ∧
        ¬DispatchesExactly s (.movement sampleMove) := by
  have hreaches := reaches_subscribed (.movement ⟨[], [], [], 3, .all, ⟨0, 0⟩⟩) (by decide)
  refine ⟨_, hreaches, ⟨_, rfl, by decide⟩, rfl, ?_⟩
  rintro ⟨news, hnews, hmatching, -⟩
  obtain ⟨_, _, -, -, hone⟩ := hmatching 1 ⟨_, rfl, by decide⟩
  cases news with
  | nil => cases hone
  | cons notice news => cases hnews

end EventSystem

end Mutgos.Events
