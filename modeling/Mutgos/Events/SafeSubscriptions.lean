import Mutgos.Events.SubscriptionRemoval

/-!
# Adding subscriptions safely

A processor gives copies of the parameters and of the callback away and then sets the ID in the
callback, also where the table has freed them.  And of the IDs that the search visits there is
one fewer than it takes for none to be left, so that the search for the last one never ends.

## Main results

* `addsSafely_iff` — **subscriptions are added safely exactly where the callback is valid and an
  ID is left, if it comes to that.**
-/

namespace Mutgos.Events

/-- The search for an ID ends unless each that it visits is in use. -/
theorem SubscriptionData.WellFormed.getNextSubscriptionId_isSome_iff {data : SubscriptionData}
    (h : data.WellFormed) : data.getNextSubscriptionId.isSome = true ↔
      data.subscriptionData.length + 1 < maxSubscriptionId := by
  have hused : ∀ m, data.inUse m = true ↔ m ∈ (data.subscriptionData.map Prod.fst).toFinset := by
    intro m
    rw [SubscriptionData.inUse, Option.isSome_iff_ne_none, List.mem_toFinset]
    refine ⟨fun hfind => ?_, SortedMap.find_ne_none⟩
    obtain ⟨details, hdetails⟩ := Option.ne_none_iff_exists'.mp hfind
    exact SortedMap.mem_keys_of_find hdetails
  have hall : (∀ m, 0 < m → m < maxSubscriptionId → data.inUse m = true) ↔
      data.subscriptionData.length = maxSubscriptionId - 1 := by
    simp only [hused]
    rw [forall_mem_iff_card fun m hm => h.range m (List.mem_toFinset.mp hm),
      List.toFinset_card_of_nodup h.nodup, List.length_map]
  have hlt := h.length_lt
  rw [show data.subscriptionData.length + 1 < maxSubscriptionId ↔
    ¬ data.subscriptionData.length = maxSubscriptionId - 1 by omega, ← hall,
    SubscriptionData.getNextSubscriptionId]
  split
  · next hfree =>
    refine iff_of_true rfl fun hused => ?_
    rw [hused _ h.next.1 h.next.2] at hfree
    cases hfree
  · rw [if_neg (Nat.not_le.mpr hlt), Option.isSome_iff_ne_none, ne_eq,
      Executor.findFree_eq_none_iff_inUse h.next (Nat.sub_le _ 1)]

namespace EventSystem

/-- What a processor and the table do with the two copies. -/
inductive CopyUse where
  | freed | used
  deriving DecidableEq

/-- What `add_subscription` does with the copies: the table frees them where it returns 0, and
the processor sets the ID in the callback and, unless it is 0, puts both in its lists. -/
def copyUses (s : EventSystem) (p : EventType) (params : SubscriptionParams)
    (callback : SubscriptionCallback) : Option (List CopyUse) :=
  if params.getType ≠ (processor p).manages then some []
  else if !params.validate then some []
  else (s.data.addSubscription params (processor p).registersAs callback).map fun result =>
    if result.1 = 0 then [.freed, .used] else [.used, .used]

/-- The call ends, no copy is used after it has been freed, and an ID other than 0 is new. -/
structure AddsSafely (s : EventSystem) (p : EventType) (params : SubscriptionParams)
    (callback : SubscriptionCallback) : Prop where
  ends : (s.addSubscription p params callback).isSome = true
  notFreed : ∀ uses ∈ s.copyUses p params callback, ¬ [.freed, .used].Sublist uses
  fresh : ∀ id s', s.addSubscription p params callback = some (id, s') → id ≠ 0 →
    s.data.getSubscriptionInfo id = none

/-- **Subscriptions are added safely exactly where they are refused at once, or the callback is
valid and not all IDs are in use.** -/
theorem addsSafely_iff {s : EventSystem} (h : s.Reaches) (p : EventType)
    (params : SubscriptionParams) (callback : SubscriptionCallback) :
    s.AddsSafely p params callback ↔ params.getType ≠ (processor p).manages ∨
      params.validate = false ∨ callback.valid = true ∧
        s.data.subscriptionData.length + 1 < maxSubscriptionId := by
  have hdata := (indexed_of_reaches h).data
  by_cases htype : params.getType = (processor p).manages
  swap
  · refine iff_of_true ⟨?_, ?_, ?_⟩ (.inl htype) <;> simp [addSubscription, copyUses, htype]
  cases hvalidate : params.validate with
  | false =>
    refine iff_of_true ⟨?_, ?_, ?_⟩ (.inr (.inl rfl)) <;>
      simp [addSubscription, copyUses, htype, hvalidate]
  | true =>
    have huses : s.copyUses p params callback =
        (s.data.addSubscription params (processor p).registersAs callback).map fun result =>
          if result.1 = 0 then [.freed, .used] else [.used, .used] := by
      simp [copyUses, htype, hvalidate]
    have hends : (s.addSubscription p params callback).isSome =
        (s.data.addSubscription params (processor p).registersAs callback).isSome := by
      simp [addSubscription, htype, hvalidate]
    rw [← hdata.getNextSubscriptionId_isSome_iff]
    cases hvalid : callback.valid with
    | false =>
      have hfreed : s.data.addSubscription params (processor p).registersAs callback =
          some (0, s.data) := if_neg (by simp [hvalid])
      refine iff_of_false (fun h => ?_) (by simp [htype])
      exact h.notFreed _ (by rw [huses, hfreed]; rfl) (List.Sublist.refl _)
    | true =>
      have hsome : (s.data.addSubscription params (processor p).registersAs callback).isSome =
          s.data.getNextSubscriptionId.isSome := by
        rw [SubscriptionData.addSubscription, if_pos hvalid, Option.isSome_map]
      simp only [htype, ne_eq, not_true_eq_false, false_or, true_and, Bool.true_eq_false]
      rw [← hsome, ← hends]
      refine ⟨AddsSafely.ends, fun hsafe => ⟨hsafe, ?_, ?_⟩⟩
      all_goals
        obtain ⟨⟨id, data⟩, hadd⟩ := Option.isSome_iff_exists.mp (hends ▸ hsafe)
        obtain ⟨-, hpos, hnone⟩ := hdata.addSubscription hvalid hadd
      · intro uses huse
        rw [huses, hadd, Option.map_some, if_neg hpos.ne'] at huse
        cases huse
        decide
      · intro id' s' hcall _
        simp only [addSubscription, htype, hvalidate, hadd, ne_eq, hpos.ne', not_false_eq_true,
          not_true_eq_false, if_false, if_true, Option.map_some, Bool.not_true, Bool.false_eq_true,
          Option.some.injEq, Prod.mk.injEq] at hcall
        exact hcall.1 ▸ hnone

theorem addsSafely_iff_process :
    init.AddsSafely .emit (.emit ⟨⟨1, 2⟩, default, default⟩) ⟨7, none⟩ :=
  (addsSafely_iff .init _ _ _).mpr (.inr (.inr ⟨rfl, by decide⟩))

/-- **A callback that is not valid** is used after it has been freed. -/
theorem not_addsSafely :
    ¬ init.AddsSafely .emit (.emit ⟨⟨1, 2⟩, default, default⟩) ⟨0, none⟩ :=
  fun h => h.notFreed _ rfl (List.Sublist.refl _)

end EventSystem

end Mutgos.Events
