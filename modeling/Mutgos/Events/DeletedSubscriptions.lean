import Mutgos.Events.SubscriptionRemoval

/-!
# Subscriptions to what has been deleted

When an Entity or a site is deleted, the subscriptions that are listed for it should go, and
their owners should be told.

## Main results

* `EventSystem.deletesReferences_iff` — **an Entity takes its subscriptions along exactly if
  none of them is to movements or executions, and a site if it has none.**
-/

namespace Mutgos.Events

open DbTypes
open Executor (PID)

/-- The lists for an Entity. -/
def ListKey.IsAboutEntity (id : Id) : ListKey → Prop
  | .entity _ id' => id' = id
  | _ => False

/-- The lists for a site, and those for its Entities. -/
def ListKey.IsAboutSite (siteId : SiteIdType) : ListKey → Prop
  | .entity _ id => id.siteId = siteId
  | .site siteId' => siteId' = siteId
  | _ => False

namespace EventSystem

/-- A subscription is in one of some lists. -/
def References (s : EventSystem) (about : ListKey → Prop) (id : SubscriptionId) : Prop :=
  ∃ p k, about k ∧ id ∈ (s.lists p).listAt k

/-- The subscriptions of some lists are gone, their owners have been called back once each,
and nothing else has been done. -/
structure DeletesReferences (about : ListKey → Prop) (s s' : EventSystem) : Prop where
  unlisted : ∀ p k, about k → (s'.lists p).listAt k = []
  removed : ∀ id, s.References about id → s'.Unknown id
  told : ∃ news, s'.notices = s.notices ++ news ∧
    (∀ id, s.References about id → ∃ details recipient,
      s.data.getSubscriptionInfo id = some details ∧
        details.callback.recipient = some recipient ∧
          news.filter (fun notice => notice.subscription = id) =
            [⟨recipient, id, .subscriptionDeleted⟩]) ∧
    ∀ id, ¬s.References about id →
      news.filter (fun notice => notice.subscription = id) = []
  untouched : ∀ id, ¬s.References about id → s.Untouched s' id

/-- The references are deleted exactly if all of them are among what is told of, and none of
that is a subscription to executions. -/
theorem Deletes.references_gone_iff {s s' : EventSystem} {told : Finset SubscriptionId}
    (h : Deletes s s' told) (hs : s.Indexed) {about : ListKey → Prop}
    (htold : ∀ id ∈ told, s.References about id) :
    DeletesReferences about s s' ↔
      ∀ id, s.References about id → id ∈ told ∧ ¬s.Manages .processExecution id := by
  have hinfo : ∀ id, s.References about id →
      ∃ details, s.data.getSubscriptionInfo id = some details := by
    rintro id ⟨p, k, -, hid⟩
    obtain ⟨details, hinfo, -⟩ := hs.mem_listAt.mp hid
    exact ⟨details, hinfo⟩
  constructor
  · intro hdeletes id hid
    by_contra hno
    have hkept := h.kept id (by tauto)
    obtain ⟨details, hsome⟩ := hinfo id hid
    rw [(hdeletes.removed id hid).1, hsome] at hkept
    cases hkept
  · intro hall
    have hgone : ∀ id, s.References about id → s'.data.getSubscriptionInfo id = none :=
      fun id hid => h.gone id (hall id hid).1 (hall id hid).2
    have hkept : ∀ id, ¬s.References about id →
        s'.data.getSubscriptionInfo id = s.data.getSubscriptionInfo id :=
      fun id hid => h.kept id (.inl fun hmem => hid (htold id hmem))
    refine ⟨fun p k hk => ?_, fun id hid => h.indexed.unknown (hgone id hid), ?_,
      fun id hid => hs.untouched h.indexed (hkept id hid)⟩
    · refine List.eq_nil_iff_forall_not_mem.mpr fun id hid => ?_
      by_cases href : s.References about id
      · exact h.indexed.not_mem_listAt (hgone id href) p k hid
      · refine href ⟨p, k, hk, ?_⟩
        obtain ⟨details, hsome, hkeys⟩ := h.indexed.mem_listAt.mp hid
        exact hs.mem_listAt.mpr ⟨details, (hkept id href).symm.trans hsome, hkeys⟩
    · obtain ⟨news, hnotices, hnews⟩ := h.tells
      refine ⟨news, hnotices, fun id hid => ?_, fun id hid => ?_⟩
      · obtain ⟨details, hsome⟩ := hinfo id hid
        obtain ⟨recipient, hrecipient, hfor⟩ := hs.noticesFor hsome .subscriptionDeleted
        refine ⟨details, recipient, hsome, hrecipient, ?_⟩
        exact (hnews id).trans ((if_pos (hall id hid).1).trans hfor)
      · exact (hnews id).trans (if_neg fun hmem => hid (htold id hmem))

/-- What all processors collect for an Entity are the subscriptions listed for it that are
not to movements. -/
theorem Indexed.mem_collected_iff {s : EventSystem} (hs : s.Indexed) {id : Id}
    {x : SubscriptionId} :
    x ∈ s.collected (fun p lists => (processor p).matchedForEntity lists id) ↔
      s.References (ListKey.IsAboutEntity id) x ∧ ¬s.Manages .movement x := by
  rw [mem_collected]
  constructor
  · rintro ⟨p, hx⟩
    obtain ⟨table, htable, hx⟩ := mem_matchedForEntity.mp hx
    refine ⟨⟨p, .entity table id, rfl, hx⟩, fun hmovement => ?_⟩
    rw [(hs.manages hx).unique hmovement] at htable
    cases htable
  · rintro ⟨⟨p, k, hk, hx⟩, hmovement⟩
    have hp : p ≠ .movement := by
      rintro rfl
      exact hmovement (hs.manages hx)
    cases k with
    | entity table id' =>
      cases hk
      obtain ⟨details, -, hkeys⟩ := hs.mem_listAt.mp hx
      exact ⟨p, mem_matchedForEntity.mpr ⟨table, table_of_mem_addKeys hp hkeys, hx⟩⟩
    | _ => cases hk

/-- **An Entity takes its subscriptions along exactly if none of them is to movements or
executions, and a site if it has none.** -/
theorem deletesReferences_iff {s : EventSystem} (hs : s.Reaches) :
    (∀ id, (∃ order s', s.entityDeleted id order = some s') ∧
      ∀ order s', s.entityDeleted id order = some s' →
        (DeletesReferences (ListKey.IsAboutEntity id) s s' ↔
          ∀ x, s.References (ListKey.IsAboutEntity id) x →
            ¬s.Manages .movement x ∧ ¬s.Manages .processExecution x)) ∧
      ∀ siteId, (∃ order s', s.siteDeleted siteId order = some s') ∧
        ∀ order s', s.siteDeleted siteId order = some s' →
          (DeletesReferences (ListKey.IsAboutSite siteId) s s' ↔
            ∀ x, ¬s.References (ListKey.IsAboutSite siteId) x) := by
  have hindexed := indexed_of_reaches hs
  refine ⟨fun id => ⟨?_, fun order s' h => ?_⟩, fun siteId => ⟨?_, fun order s' h => ?_⟩⟩
  · exact exists_foldlM (fun p lists => (processor p).matchedForEntity lists id) (by decide) s
  · have hdeletes := deletes_entityDeleted hindexed h
    rw [hdeletes.references_gone_iff hindexed fun x hx =>
      (hindexed.mem_collected_iff.mp hx).1]
    refine forall₂_congr fun x hx => ?_
    rw [hindexed.mem_collected_iff]
    exact and_congr_left fun _ => and_iff_right hx
  · exact exists_foldlM (fun p lists => (processor p).matchedForSite lists siteId)
      (by decide) s
  · have hdeletes := deletes_siteDeleted hindexed h
    rw [hdeletes.references_gone_iff hindexed fun x hx => absurd hx (Finset.notMem_empty x)]
    refine forall_congr' fun x => ⟨fun hall hx => ?_, fun hno hx => absurd hx hno⟩
    exact Finset.notMem_empty x (hall hx).1

/-! ### Two subscriptions for an Entity -/

/-- A subscription to what an Entity emits. -/
def sampleEmit : SubscriptionParams := .emit ⟨⟨1, 5⟩, ⟨0, 0⟩, ⟨0, 0⟩⟩

/-- A subscription to movements of the same Entity. -/
def sampleMovement : SubscriptionParams := .movement ⟨[⟨1, 5⟩], [], [], 0, .all, ⟨0, 0⟩⟩

theorem subscribed_emit_deleted :
    ∃ s', (subscribed sampleEmit).entityDeleted ⟨1, 5⟩
        (fun p => if p = .emit then [1] else []) = some s' ∧
      DeletesReferences (ListKey.IsAboutEntity ⟨1, 5⟩) (subscribed sampleEmit) s' ∧
        s'.notices = [⟨.process 7, 1, .subscriptionDeleted⟩] := by
  refine ⟨_, rfl, ?_, rfl⟩
  refine (((deletesReferences_iff (reaches_subscribed sampleEmit (by decide))).1 ⟨1, 5⟩).2
    (fun p => if p = .emit then [1] else []) _ rfl).mpr ?_
  intro x _
  refine ⟨?_, ?_⟩
  · rintro ⟨details, hinfo, htype⟩
    change SortedMap.find x [(1, _)] = some details at hinfo
    rw [SortedMap.find] at hinfo
    split at hinfo
    · cases hinfo
      cases htype
    · cases hinfo
  · rintro ⟨details, hinfo, htype⟩
    change SortedMap.find x [(1, _)] = some details at hinfo
    rw [SortedMap.find] at hinfo
    split at hinfo
    · cases hinfo
      cases htype
    · cases hinfo

/-- A subscription to movements of the Entity stays. -/
theorem subscribed_movement_stays :
    (subscribed sampleMovement).Reaches ∧
      ∃ order s', (subscribed sampleMovement).entityDeleted ⟨1, 5⟩ order = some s' ∧
        (s'.lists .movement).listAt (.entity .who ⟨1, 5⟩) = [1] ∧ s'.notices = [] ∧
          ¬DeletesReferences (ListKey.IsAboutEntity ⟨1, 5⟩) (subscribed sampleMovement) s' := by
  refine ⟨reaches_subscribed sampleMovement (by decide), fun _ => [], _, rfl, rfl, rfl, ?_⟩
  intro hdeletes
  have hlist := hdeletes.unlisted .movement (.entity .who ⟨1, 5⟩) rfl
  cases hlist

end EventSystem

end Mutgos.Events
