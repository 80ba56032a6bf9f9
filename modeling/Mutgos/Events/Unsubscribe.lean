import Mutgos.Events.SubscriptionRemoval

/-!
# Unsubscribing

`EventAccess::unsubscribe` should undo `EventAccess::subscribe`.

## Main results

* `EventSystem.unsubscribeUndoes_iff` — **all subscriptions can be undone but those to
  executions and sites.**
-/

namespace Mutgos.Events

open DbTypes
open Executor (PID)

namespace EventSystem

/-- The calls that do not give out an ID. -/
def DoesNotReissue (id : SubscriptionId) (s : EventSystem) : EventCall → Prop
  | .subscribe params callback => ∀ s', s.subscribe params callback ≠ some (id, s')
  | _ => True

/-- Who has been called back about a subscription. -/
def noticesAbout (s : EventSystem) (id : SubscriptionId) : List Notice :=
  s.notices.filter fun notice => notice.subscription = id

/-- A subscription is gone once it has been unsubscribed, the others are as before, and nobody
is called back about it as long as its ID is not given out again. -/
structure UnsubscribeUndoes (s : EventSystem) (id : SubscriptionId) : Prop where
  succeeds : (s.unsubscribe id).1 = true
  unlisted : ∀ p k, id ∉ ((s.unsubscribe id).2.lists p).listAt k
  unknown : (s.unsubscribe id).2.Unknown id
  others : ∀ id', id' ≠ id → s.Untouched (s.unsubscribe id).2 id'
  silent : ∀ calls s', Steps EventSystem.step (DoesNotReissue id) (s.unsubscribe id).2 calls s' →
    s'.noticesAbout id = s.noticesAbout id

/-! ### Nobody is called back -/

/-- What is not subscribed is not told of, and stays so. -/
def Silent (id : SubscriptionId) (s s' : EventSystem) : Prop :=
  s.data.getSubscriptionInfo id = none →
    s'.data.getSubscriptionInfo id = none ∧ s'.noticesAbout id = s.noticesAbout id

theorem Silent.refl (id : SubscriptionId) (s : EventSystem) : Silent id s s :=
  fun hnone => ⟨hnone, rfl⟩

variable {s s' : EventSystem}

theorem Silent.trans {id : SubscriptionId} {s'' : EventSystem} (h : Silent id s s')
    (h' : Silent id s' s'') : Silent id s s'' := by
  intro hnone
  obtain ⟨hnone', hnotices⟩ := h hnone
  obtain ⟨hnone'', hnotices'⟩ := h' hnone'
  exact ⟨hnone'', hnotices'.trans hnotices⟩

/-- A step after which the table says the same, and of which nobody is told. -/
theorem silent_of_tells {id : SubscriptionId} {told : SubscriptionId → List Notice}
    (hinfo : s.data.getSubscriptionInfo id = none → s'.data.getSubscriptionInfo id = none)
    (htells : Tells s s' told) (htold : s.data.getSubscriptionInfo id = none → told id = []) :
    Silent id s s' := by
  intro hnone
  refine ⟨hinfo hnone, ?_⟩
  obtain ⟨news, hnotices, hnews⟩ := htells
  rw [noticesAbout, hnotices, List.filter_append, hnews, htold hnone, List.append_nil,
    noticesAbout]

theorem noticesFor_eq_nil {id : SubscriptionId} (hnone : s.data.getSubscriptionInfo id = none)
    (reason : Reason) : s.noticesFor reason id = [] := by
  rw [noticesFor, hnone, Option.bind_none]

theorem silent_callBack (s : EventSystem) (reason : Reason) (id id' : SubscriptionId) :
    Silent id s (s.callBack reason id') := by
  refine silent_of_tells (fun hnone => hnone) (tells_callBack s reason id') fun hnone => ?_
  split
  · next heq => exact heq ▸ noticesFor_eq_nil hnone reason
  · rfl

theorem silent_dispatch (s : EventSystem) (p : EventType) (event : Event)
    (id : SubscriptionId) : Silent id s (s.dispatch p event) := by
  have hloop : ∀ (ids : List SubscriptionId) (s : EventSystem),
      Silent id s (ids.foldl (fun s id => s.callBack (.eventMatched event) id) s) := by
    intro ids
    induction ids with
    | nil => exact Silent.refl id
    | cons id' ids ih => exact fun s => (silent_callBack s _ id id').trans (ih _)
  rw [dispatch]
  split
  · exact Silent.refl id s
  · exact hloop _ s

theorem Deletes.silent {told : Finset SubscriptionId} (h : Deletes s s' told)
    (id : SubscriptionId) : Silent id s s' := by
  refine silent_of_tells (fun hnone => ?_) h.tells fun hnone => ?_
  · by_cases hid : id ∈ told ∧ ¬s.Manages .processExecution id
    · exact h.gone id hid.1 hid.2
    · rw [h.kept id (by tauto), hnone]
  · rw [noticesFor_eq_nil hnone, ite_self]

theorem silent_unsubscribe (hs : s.Indexed) (id id' : SubscriptionId) :
    Silent id s (s.unsubscribe id').2 := by
  cases hinfo : s.data.getSubscriptionInfo id' with
  | none =>
    rw [unsubscribe, hinfo]
    exact Silent.refl id s
  | some details =>
    rcases unsubscribe_cases hs hinfo with ⟨hsame, -⟩ | ⟨-, -, -, hnotices, hfind⟩
    · rw [hsame]
      exact Silent.refl id s
    · refine silent_of_tells (fun hnone => ?_) (tells_of_notices_eq hnotices) fun _ => rfl
      rw [hfind, hnone, ite_self]

theorem silent_unsubscribeProcess (hs : s.Indexed) (pid : PID) (id : SubscriptionId) :
    Silent id s (s.unsubscribeProcess pid) := by
  have hloop : ∀ (ids : List SubscriptionId) (s : EventSystem), s.Indexed →
      Silent id s (ids.foldl (fun s id => (s.unsubscribe id).2) s) := by
    intro ids
    induction ids with
    | nil => exact fun s _ => Silent.refl id s
    | cons id' ids ih =>
      exact fun s hs => (silent_unsubscribe hs id id').trans (ih _ (hs.unsubscribe id'))
  exact hloop _ s hs

theorem silent_processEvent (hs : s.Indexed) {event : Event}
    {order : EventType → List SubscriptionId} (h : s.processEvent event order = some s')
    (id : SubscriptionId) : Silent id s s' := by
  have hindexed := hs.dispatch event.eventType event
  have hdispatch := silent_dispatch s event.eventType event id
  unfold processEvent at h
  cases event with
  | entityChanged event =>
    dsimp only at h
    split at h
    · exact hdispatch.trans ((deletes_entityDeleted hindexed h).silent id)
    · cases h
      exact hdispatch
  | site event =>
    dsimp only at h
    split at h
    · exact hdispatch.trans ((deletes_siteDeleted hindexed h).silent id)
    · cases h
      exact hdispatch
  | processExecution event =>
    dsimp only at h
    split at h
    · cases h
      have hremoved := (hindexed.deletes_removeForProcess event.processId).silent id
      have hunsubscribed :=
        silent_unsubscribeProcess (hindexed.removeForProcess event.processId) event.processId id
      exact hdispatch.trans (hremoved.trans hunsubscribed)
    · cases h
      exact hdispatch
  | _ =>
    cases h
    exact hdispatch

theorem silent_step (hs : s.Indexed) {call : EventCall} {id : SubscriptionId}
    (hcall : DoesNotReissue id s call) (h : s.step call = some s') : Silent id s s' := by
  cases call with
  | subscribe params callback =>
    rw [EventSystem.step, Option.map_eq_some_iff] at h
    obtain ⟨⟨id', s₁⟩, hsubscribe, rfl⟩ := h
    have hne : id ≠ id' := by
      rintro rfl
      exact hcall s₁ hsubscribe
    rcases subscribe_cases hs hsubscribe with ⟨-, rfl⟩ | ⟨-, -, -, hnotices, hfind⟩
    · exact Silent.refl id _
    · refine silent_of_tells (fun hnone => ?_) (tells_of_notices_eq hnotices) fun _ => rfl
      rw [hfind, if_neg hne, hnone]
  | unsubscribe id' =>
    cases h
    exact silent_unsubscribe hs id id'
  | processEvent event order => exact silent_processEvent hs h id

/-- Nobody is called back about what is not subscribed. -/
theorem silent_of_steps (hs : s.Indexed) {calls : List EventCall} {id : SubscriptionId}
    (h : Steps EventSystem.step (DoesNotReissue id) s calls s') : Silent id s s' := by
  induction h with
  | nil s => exact Silent.refl id s
  | cons hcall hstep _ ih => exact (silent_step hs hcall hstep).trans (ih (hs.step hstep))

/-! ### What can be undone -/

/-- Subscriptions to executions and sites are registered for other processors. -/
theorem manages_registersAs_iff (t : SubscriptionType) :
    (processor (processor (processorFor t)).registersAs).manages = t ↔
      t ≠ .processExecution ∧ t ≠ .site := by
  cases t <;> decide

/-- **All subscriptions can be undone but those to executions and sites.** -/
theorem unsubscribeUndoes_iff {s : EventSystem} (hs : s.Reaches) {id : SubscriptionId}
    {details : SubscriptionDetails} (hinfo : s.data.getSubscriptionInfo id = some details) :
    UnsubscribeUndoes s id ↔
      details.params.getType ≠ .processExecution ∧ details.params.getType ≠ .site := by
  have hindexed := indexed_of_reaches hs
  rw [← manages_registersAs_iff, ← hindexed.registered id details hinfo]
  rcases unsubscribe_cases hindexed hinfo with
    ⟨hsame, hno⟩ | ⟨hok, hmanages, hindexed', hnotices, hfind⟩
  · refine ⟨fun hundoes => ?_, fun hmanages => absurd hmanages hno⟩
    have hsucceeds := hundoes.succeeds
    rw [hsame] at hsucceeds
    cases hsucceeds
  · refine iff_of_true ?_ hmanages
    have hnone : (s.unsubscribe id).2.data.getSubscriptionInfo id = none := by
      rw [hfind, if_pos rfl]
    refine ⟨hok, hindexed'.not_mem_listAt hnone, hindexed'.unknown hnone, ?_, ?_⟩
    · intro id' hid'
      refine hindexed.untouched hindexed' ?_
      rw [hfind, if_neg hid']
    · intro calls s' hsteps
      rw [(silent_of_steps hindexed' hsteps hnone).2, noticesAbout, hnotices, noticesAbout]

theorem unsubscribeUndoes_emit :
    UnsubscribeUndoes (subscribed (.emit ⟨⟨1, 5⟩, ⟨0, 0⟩, ⟨0, 0⟩⟩)) 1 :=
  (unsubscribeUndoes_iff (reaches_subscribed _ (by decide)) rfl).mpr (by decide)

/-- A subscription to executions stays when it is unsubscribed. -/
theorem unsubscribe_processExecution :
    ∃ s : EventSystem, s.Reaches ∧ (s.data.getSubscriptionInfo 1).isSome = true ∧
      (s.unsubscribe 1).1 = false ∧
        ((s.unsubscribe 1).2.lists .processExecution).listAt (.pid 9) = [1] ∧
          ¬UnsubscribeUndoes s 1 := by
  refine ⟨subscribed (.processExecution ⟨9, ⟨0, 0⟩, .nativeAndInterpreted, ⟨0, 0⟩, [], []⟩),
    reaches_subscribed _ (by decide), by decide, rfl, rfl, fun hundoes => ?_⟩
  have hsucceeds := hundoes.succeeds
  cases hsucceeds

end EventSystem

end Mutgos.Events
