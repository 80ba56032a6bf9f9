import Mutgos.DbInterface.UpdateThread

/-!
# What a step changes

What other parts of the database rely on, of any step of the update manager: that an
Entity or a site stays marked for its deletion, and that what is to be deleted has been
marked.

## Main results

* `step_effect`, `step_queueEffect` — it is known after every step.
-/

namespace Mutgos.DbInterface

open DbTypes UpdateSystem Finset

/-- In `process_db_commits`. -/
def ThreadPhase.isCommitting : ThreadPhase → Bool
  | committing _ _ _ => true
  | deleting _ _ _ => true
  | _ => false

/-- Every update is kept under the Entity that it is for. -/
def Keyed (updates : List (Id × EntityUpdate)) : Prop :=
  ∀ update ∈ updates, update.2.entityId = update.1

theorem Keyed.addPending {manager : UpdateManager} (h : Keyed manager.pendingUpdates)
    (update : EntityUpdate) : Keyed (manager.addPending update).pendingUpdates := by
  intro entry hentry
  obtain rfl | hentry := SortedMap.mem_of_mem_insert hentry
  · split
    · rfl
    · rename_i existing hfind
      exact h (update.entityId, existing) (SortedMap.mem_of_find hfind)
  · exact h entry hentry

theorem Keyed.foldl_addPending {manager : UpdateManager} (h : Keyed manager.pendingUpdates)
    (updates : List EntityUpdate) :
    Keyed (updates.foldl UpdateManager.addPending manager).pendingUpdates := by
  induction updates generalizing manager with
  | nil => exact h
  | cons update updates ih => exact ih (h.addPending update)

namespace UpdateSystem

variable {s s' : UpdateSystem}

/-- What is known after a step. -/
structure StepEffect (s s' : UpdateSystem) (label : UpdateStep) : Prop where
  flagged : ∀ id, label ≠ .newEntity id → s.deletedFlag id = true → s'.deletedFlag id = true
  siteFlagged : ∀ siteId, s.siteDeletePending siteId = true → s'.siteDeletePending siteId = true
  pendingDeletes : ∀ id ∈ s'.manager.pendingDeletes,
    id ∈ s.manager.pendingDeletes ∪ s.phase.deletes ∨ s'.deletedFlag id = true
  pendingSites : ∀ siteId ∈ s'.manager.pendingSiteDeletes,
    siteId ∈ s.manager.pendingSiteDeletes ∨ s'.siteDeletePending siteId = true
  deletes : label ≠ .takePending → s'.phase.deletes ⊆ s.phase.deletes
  taken : label = .takePending → s.phase.isCommitting = false ∧ s'.phase.isCommitting = true ∧
    s'.phase.deletes ⊆ s.manager.pendingDeletes
  committing : s.phase.isCommitting = true → label ≠ .finishCommits →
    s'.phase.isCommitting = true
  finished : label = .finishCommits → s.phase.deletes = ∅
  keyed : Keyed s.manager.pendingUpdates → Keyed s'.manager.pendingUpdates

variable {label : UpdateStep}

/-- Nothing of all this has changed. -/
theorem StepEffect.of_eq (hflag : s'.deletedFlag = s.deletedFlag)
    (hsite : s'.siteDeletePending = s.siteDeletePending)
    (hpending : s'.manager.pendingDeletes ⊆ s.manager.pendingDeletes ∪ s.phase.deletes)
    (hsites : s'.manager.pendingSiteDeletes ⊆ s.manager.pendingSiteDeletes)
    (hdeletes : s'.phase.deletes ⊆ s.phase.deletes) (hlabel : label ≠ .takePending)
    (hcommitting : s.phase.isCommitting = true → label ≠ .finishCommits →
      s'.phase.isCommitting = true) (hfinished : label = .finishCommits → s.phase.deletes = ∅)
    (hkeyed : Keyed s.manager.pendingUpdates → Keyed s'.manager.pendingUpdates) :
    StepEffect s s' label where
  flagged _ _ h := hflag ▸ h
  siteFlagged _ h := hsite ▸ h
  pendingDeletes _ hid := .inl (hpending hid)
  pendingSites _ hid := .inl (hsites hid)
  deletes _ := hdeletes
  taken h := absurd h hlabel
  committing := hcommitting
  finished := hfinished
  keyed := hkeyed

/-- A site that is deleted has been marked. -/
theorem deleteSite_effect (siteId : SiteIdType) (referenced : Bool) (sitesAccepted : List SiteIdType)
    {phase : ThreadPhase} (hdeletes : phase.deletes ⊆ s.phase.deletes)
    (hcommitting : phase.isCommitting = s.phase.isCommitting) {label : UpdateStep}
    (hlabel : label ≠ .takePending) (hlabel' : label ≠ .finishCommits) :
    StepEffect s { { s with sitesAccepted := sitesAccepted }.deleteSite siteId referenced with
      phase := phase } label := by
  have hmark : ∀ site, s.siteDeletePending site = true →
      Function.update s.siteDeletePending siteId true site = true :=
    fun _ h => update_eq_true siteId h
  cases referenced with
  | false =>
    exact ⟨fun _ _ h => h, hmark, fun _ hid => .inl (mem_union_left _ hid),
      fun _ hsite => .inl hsite, fun _ => hdeletes, fun h => absurd h hlabel,
      fun h _ => hcommitting ▸ h, fun h => absurd h hlabel', fun h => h⟩
  | true =>
    refine ⟨fun _ _ h => h, hmark, fun _ hid => .inl (mem_union_left _ hid), ?_,
      fun _ => hdeletes, fun h => absurd h hlabel,
      fun h _ => hcommitting ▸ h, fun h => absurd h hlabel', fun h => h⟩
    intro site hsite
    obtain hsite | hsite := List.mem_append.mp hsite
    · exact .inl hsite
    · rw [List.mem_singleton.mp hsite]
      exact .inr (Function.update_self ..)

theorem call_effect (hs' : s.call label = some s') : StepEffect s s' label := by
  have hpending : s.manager.pendingDeletes ⊆ s.manager.pendingDeletes ∪ s.phase.deletes :=
    subset_union_left
  have hrefl : s.phase.deletes ⊆ s.phase.deletes := Finset.Subset.refl _
  cases label with
  | entityChanged entityId changes =>
    cases hs'
    have hmanager : (s.manager.entityChanged entityId changes).pendingDeletes =
          s.manager.pendingDeletes ∧
        (s.manager.entityChanged entityId changes).pendingSiteDeletes =
          s.manager.pendingSiteDeletes ∧
        (Keyed s.manager.pendingUpdates →
          Keyed (s.manager.entityChanged entityId changes).pendingUpdates) := by
      unfold UpdateManager.entityChanged
      split
      · exact ⟨rfl, rfl, fun h => h.addPending _⟩
      · exact ⟨rfl, rfl, fun h => h⟩
    exact .of_eq rfl rfl (hmanager.1 ▸ hpending) (hmanager.2.1 ▸ List.Subset.refl _) hrefl (by simp)
      (fun h _ => h) (by simp)
      hmanager.2.2
  | newEntity entityId =>
    rw [call] at hs'
    split at hs'
    · cases hs'
    · cases hs'
      refine ⟨?_, fun _ h => h, fun _ hid => .inl (hpending hid), fun _ h => .inl h,
        fun _ => hrefl, (by simp), fun h _ => h, (by simp), fun h => h⟩
      intro id hlabel h
      have hne : id ≠ entityId := fun heq => hlabel (heq ▸ rfl)
      exact (Function.update_of_ne hne _ _).trans h
  | setDeletedFlag entityId =>
    cases hs'
    exact ⟨fun _ _ h => update_eq_true entityId h, fun _ h => h, fun _ hid => .inl (hpending hid),
      fun _ h => .inl h, fun _ => hrefl, (by simp), fun h _ => h, (by simp), fun h => h⟩
  | entitiesDeleted entities =>
    rw [call] at hs'
    split at hs'
    · rename_i hflagged
      cases hs'
      refine ⟨fun _ _ h => h, fun _ h => h, ?_, fun _ h => .inl h, fun _ => hrefl, (by simp),
        fun h _ => h, (by simp),
        fun h => h⟩
      intro id hid
      obtain hid | hid := mem_union.mp hid
      · exact .inl (hpending hid)
      · exact .inr (hflagged id hid)
    · cases hs'
  | deleteSite siteId referenced =>
    cases hs'
    have heffect := @deleteSite_effect s siteId referenced (s.sitesAccepted ++ [siteId]) s.phase
      hrefl rfl (.deleteSite siteId referenced) (by simp) (by simp)
    cases referenced <;> exact heffect
  | shutdown =>
    cases hs'
    exact .of_eq rfl rfl hpending (List.Subset.refl _) hrefl (by simp) (fun h _ => h) (by simp)
      fun h => h
  | _ => cases hs'

theorem threadStep_effect (hs' : s.threadStep s.phase label = some s') : StepEffect s s' label := by
  have hpending : s.manager.pendingDeletes ⊆ s.manager.pendingDeletes ∪ s.phase.deletes :=
    subset_union_left
  cases threadNext hs' with
  | takeImmediate hphase =>
    exact .of_eq rfl rfl hpending (List.Subset.refl _) (empty_subset _) (by simp)
      (by rw [hphase]; rintro ⟨⟩) (by simp) fun h => h
  | processIdReferences hphase =>
    exact .of_eq rfl rfl hpending (List.Subset.refl _) (empty_subset _) (by simp)
      (by rw [hphase]; rintro ⟨⟩) (by simp) fun h => h
  | @mergeImmediate done hphase =>
    have hfold := (@UpdateManager.foldl_addPending s.manager done).1
    refine .of_eq rfl rfl ?_ ?_ (empty_subset _) (by simp)
      (by rw [hphase]; rintro ⟨⟩) (by simp) fun h => h.foldl_addPending done
    · rw [hfold]
      exact hpending
    · rw [hfold]
      exact List.Subset.refl _
  | skipCommits hphase =>
    exact .of_eq rfl rfl hpending (List.Subset.refl _) (empty_subset _) (by simp)
      (by rw [hphase]; rintro ⟨⟩) (by simp) fun h => h
  | takePending hphase =>
    exact ⟨fun _ _ h => h, fun _ h => h, (by simp), (by simp), fun h => absurd rfl h,
      fun _ => ⟨by rw [hphase]; rfl, rfl, Finset.Subset.refl _⟩, by rw [hphase]; rintro ⟨⟩,
      (by simp),
      by rintro _ _ ⟨⟩⟩
  | @commitEntity _ _ _ deletes _ hphase =>
    have hdeletes : s.phase.deletes = deletes := by rw [hphase, ThreadPhase.deletes]
    exact .of_eq rfl rfl hpending (List.Subset.refl _) hdeletes.superset (by simp)
      (fun _ _ => rfl) (by simp) fun h => h
  | @eraseUpdate _ deletes _ hphase hmem =>
    have hdeletes : s.phase.deletes = deletes := by rw [hphase, ThreadPhase.deletes]
    refine .of_eq rfl rfl hpending (List.Subset.refl _) ?_ (by simp) (fun _ _ => rfl) (by simp)
      fun h update hupdate => h update (SortedMap.erase_subset _ _ hupdate)
    rw [hdeletes, ThreadPhase.deletes, insert_erase hmem]
  | @deleteEntity entityId deletes _ inUse hphase =>
    have hdeletes : s.phase.deletes = insert entityId deletes := by
      rw [hphase, ThreadPhase.deletes]
    refine .of_eq rfl rfl ?_ (List.Subset.refl _) ?_ (by simp) (fun _ _ => rfl) (by simp)
      fun h => h
    · cases inUse with
      | false => exact hpending
      | true =>
        refine insert_subset ?_ hpending
        exact mem_union_right _ (hdeletes ▸ mem_insert_self ..)
    · rw [hdeletes]
      exact subset_insert entityId deletes
  | @deleteNextSite siteId sites referenced hphase =>
    have hdeletes : s.phase.deletes = ∅ := by rw [hphase, ThreadPhase.deletes]
    exact @deleteSite_effect s siteId referenced s.sitesAccepted (.committing [] ∅ sites)
      hdeletes.superset (by rw [hphase]; rfl) _ (by simp) (by simp)
  | finishCommits hphase =>
    have hdeletes : s.phase.deletes = ∅ := by rw [hphase, ThreadPhase.deletes]
    exact .of_eq rfl rfl hpending (List.Subset.refl _) (empty_subset _) (by simp)
      (fun _ h => absurd rfl h) (fun _ => hdeletes) fun h => h
  | exitTest hphase =>
    refine .of_eq rfl rfl hpending (List.Subset.refl _) ?_ (by simp) (by rw [hphase]; rintro ⟨⟩) (by simp)
      fun h => h
    split <;> exact empty_subset _

/-- **This is known after every step.** -/
theorem step_effect (hs' : s.step label = some s') : StepEffect s s' label := by
  unfold step at hs'
  split at hs'
  · cases hs'
  · rw [Option.or_eq_some_iff] at hs'
    obtain hcall | ⟨-, hthread⟩ := hs'
    · exact call_effect hcall
    · exact threadStep_effect hthread

/-- What the thread does not do, another thread has called. -/
theorem step_eq_call (hthread : ∀ phase, s.threadStep phase label ≠ some s')
    (hs' : s.step label = some s') : s.call label = some s' := by
  unfold step at hs'
  split at hs'
  · cases hs'
  · rw [Option.or_eq_some_iff] at hs'
    obtain hcall | ⟨-, h⟩ := hs'
    · exact hcall
    · exact absurd h (hthread _)

/-- A new Entity is not marked. -/
theorem step_newEntity {id : Id} (hs' : s.step (.newEntity id) = some s') :
    s'.deletedFlag id = false ∧ s'.siteDeletePending = s.siteDeletePending := by
  have hcall : s.call (.newEntity id) = some s' := by
    refine step_eq_call ?_ hs'
    intro phase h
    cases phase with
    | applying done todo => cases todo <;> cases h
    | committing updates deletes sites => cases updates <;> cases sites <;> cases h
    | _ => cases h
  rw [call] at hcall
  split at hcall
  · cases hcall
  · cases hcall
    exact ⟨Function.update_self .., rfl⟩

/-- A site that is deleted is marked. -/
theorem step_deleteSite {siteId : SiteIdType} {referenced : Bool}
    (hs' : s.step (.deleteSite siteId referenced) = some s') :
    s'.siteDeletePending siteId = true := by
  have hcall : s.call (.deleteSite siteId referenced) = some s' := by
    refine step_eq_call ?_ hs'
    intro phase h
    cases phase with
    | applying done todo => cases todo <;> cases h
    | committing updates deletes sites => cases updates <;> cases sites <;> cases h
    | _ => cases h
  cases hcall
  cases referenced <;> exact Function.update_self ..

theorem step_deleteNextSite {siteId : SiteIdType} {referenced : Bool}
    {updates : List (Id × EntityUpdate)} {deletes : Finset Id} {sites : List SiteIdType}
    (hphase : s.phase = .committing updates deletes (siteId :: sites))
    (hs' : s.step (.deleteNextSite referenced) = some s') : s'.siteDeletePending siteId = true := by
  rw [step, hphase] at hs'
  cases updates with
  | nil =>
    simp only [call, threadStep, Option.none_or] at hs'
    split at hs'
    · cases hs'
      cases referenced <;> exact Function.update_self ..
    · cases hs'
  | cons update updates => cases hs'

/-! ### The queue of the journals -/

/-- What becomes of the updates that are yet to be gone through. -/
inductive QueueEffect (s s' : UpdateSystem) : UpdateStep → Prop
  | told (entityId : Id) (changes : EntityChanges)
    (hqueue : s'.unapplied = s.unapplied ++
      if ChangedIdFieldsMap.isEmpty changes.ids then [] else [.new entityId changes]) :
    QueueEffect s s' (.entityChanged entityId changes)
  | applied (update : EntityUpdate) (hqueue : s.unapplied = update :: s'.unapplied) :
    QueueEffect s s' .processIdReferences
  | same (label : UpdateStep) (hlabel : ∀ entityId changes, label ≠ .entityChanged entityId changes)
    (hqueue : s'.unapplied = s.unapplied) : QueueEffect s s' label

theorem call_queueEffect (hs' : s.call label = some s') : QueueEffect s s' label := by
  cases label with
  | entityChanged entityId changes =>
    cases hs'
    refine .told entityId changes ?_
    by_cases hempty : ChangedIdFieldsMap.isEmpty changes.ids = true
    · simp only [UpdateManager.entityChanged, hempty, if_true, List.append_nil]
      rfl
    · simp only [UpdateManager.entityChanged, hempty, unapplied, Bool.false_eq_true, if_false,
        List.append_assoc]
  | newEntity entityId =>
    rw [call] at hs'
    split at hs'
    · cases hs'
    · cases hs'
      exact .same _ (by simp) rfl
  | entitiesDeleted entities =>
    rw [call] at hs'
    split at hs'
    · cases hs'
      exact .same _ (by simp) rfl
    · cases hs'
  | deleteSite siteId referenced =>
    cases hs'
    cases referenced <;> exact .same _ (by simp) rfl
  | setDeletedFlag entityId => cases hs'; exact .same _ (by simp) rfl
  | shutdown => cases hs'; exact .same _ (by simp) rfl
  | _ => cases hs'

theorem threadStep_queueEffect (hs' : s.threadStep s.phase label = some s') :
    QueueEffect s s' label := by
  have hsame : (∀ entityId changes, label ≠ .entityChanged entityId changes) →
      ∀ phase manager, s.phase = phase → phase.todo = [] → s'.phase.todo = [] →
      s'.manager.immediateUpdateQueue = manager →
      s.manager.immediateUpdateQueue = manager → QueueEffect s s' label := by
    rintro hlabel phase manager rfl htodo htodo' hqueue' hqueue
    refine .same label hlabel ?_
    rw [unapplied, unapplied, htodo, htodo', hqueue, hqueue']
  cases threadNext hs' with
  | takeImmediate hphase =>
    refine .same _ (by simp) ?_
    rw [unapplied, unapplied, hphase]
    exact List.append_nil _
  | @processIdReferences _ update _ hphase =>
    refine .applied update ?_
    rw [unapplied, hphase]
    rfl
  | @mergeImmediate done hphase =>
    have hfold := (@UpdateManager.foldl_addPending s.manager done).1
    exact hsame (by simp) _ s.manager.immediateUpdateQueue hphase rfl rfl (by rw [hfold]) rfl
  | skipCommits hphase => exact hsame (by simp) _ _ hphase rfl rfl rfl rfl
  | takePending hphase => exact hsame (by simp) _ _ hphase rfl rfl rfl rfl
  | commitEntity hphase => exact hsame (by simp) _ _ hphase rfl rfl rfl rfl
  | eraseUpdate hphase hmem => exact hsame (by simp) _ _ hphase rfl rfl rfl rfl
  | deleteEntity hphase => exact hsame (by simp) _ _ hphase rfl rfl rfl rfl
  | @deleteNextSite _ _ referenced hphase =>
    cases referenced <;> exact hsame (by simp) _ _ hphase rfl rfl rfl rfl
  | finishCommits hphase => exact hsame (by simp) _ _ hphase rfl rfl rfl rfl
  | exitTest hphase =>
    refine hsame (by simp) _ _ hphase rfl ?_ rfl rfl
    change (if s.manager.doShutdown then ThreadPhase.exited else .waiting).todo = []
    split <;> rfl

theorem step_queueEffect (hs' : s.step label = some s') : QueueEffect s s' label := by
  unfold step at hs'
  split at hs'
  · cases hs'
  · rw [Option.or_eq_some_iff] at hs'
    obtain hcall | ⟨-, hthread⟩ := hs'
    · exact call_queueEffect hcall
    · exact threadStep_queueEffect hthread

/-- What other threads call leaves the thread where it is. -/
theorem call_phase (hs' : s.call label = some s') : s'.phase = s.phase := by
  cases label with
  | newEntity entityId =>
    rw [call] at hs'
    split at hs' <;> cases hs'
    rfl
  | entitiesDeleted entities =>
    rw [call] at hs'
    split at hs' <;> cases hs'
    rfl
  | deleteSite siteId referenced =>
    cases hs'
    cases referenced <;> rfl
  | entityChanged entityId changes => cases hs'; rfl
  | setDeletedFlag entityId => cases hs'; rfl
  | shutdown => cases hs'; rfl
  | _ => cases hs'

/-- The thread is about to delete an Entity only after `eraseUpdate`. -/
theorem step_phase_deleting (hs' : s.step label = some s') {entityId : Id} {deletes : Finset Id}
    {sites : List SiteIdType} (hphase' : s'.phase = .deleting entityId deletes sites) :
    s.phase = .deleting entityId deletes sites ∨ label = .eraseUpdate entityId := by
  unfold step at hs'
  split at hs'
  · cases hs'
  rw [Option.or_eq_some_iff] at hs'
  obtain hcall | ⟨-, hthread⟩ := hs'
  · exact .inl ((call_phase hcall).symm.trans hphase')
  · cases threadNext hthread with
    | eraseUpdate hphase hmem =>
      cases hphase'
      exact .inr rfl
    | exitTest hphase =>
      change (if s.manager.doShutdown then ThreadPhase.exited else .waiting) = _ at hphase'
      split at hphase' <;> cases hphase'
    | _ => cases hphase'

end UpdateSystem

end Mutgos.DbInterface
