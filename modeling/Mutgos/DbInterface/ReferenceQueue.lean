import Mutgos.DbInterface.ReferenceSystem

/-!
# Indexes and the queue

Which Entities will have a reference in their index once the queue has been gone
through, and what a step makes of that.  Nothing but a change of a field puts another
Entity among them, and it puts there only what is in the field.

## Main results

* `mem_processIdReferences` — what an update makes of an index.
-/

namespace Mutgos.DbInterface

open DbTypes IdFields SetJournal List

/-! ### One update -/

theorem EntityField.mem_all (field : EntityField) : field ∈ EntityField.all := by
  cases field <;> decide

theorem EntityField.nodup_all : EntityField.all.Nodup := by decide

variable {field : EntityField} {changedFields : ChangedIdFieldsMap}

theorem mem_addEntityReference {references : EntityReferences} {id : Id}
    {reference : Id × EntityField} :
    reference ∈ addEntityReference references id field ↔
      reference = (id, field) ∨ reference ∈ references := mem_insert_iff

theorem mem_removeEntityReference {references : EntityReferences} {id : Id}
    {reference : Id × EntityField} :
    reference ∈ removeEntityReference references id field ↔
      reference ∈ references ∧ reference ≠ (id, field) := by
  rw [removeEntityReference, mem_filter, decide_eq_true_eq]

theorem mem_processField {id : Id} {target : Id} {references : EntityReferences} :
    (id, field) ∈ processField id changedFields target references field ↔
      (id, field) ∈ references ∧ target ∉ ((changedFields field).getD .empty).removed ∨
        target ∈ ((changedFields field).getD .empty).added := by
  unfold processField
  cases changedFields field with
  | none => simp [empty]
  | some journal =>
    by_cases hremoved : target ∈ journal.removed
    · by_cases hadded : target ∈ journal.added
      · simp [hremoved, hadded, mem_addEntityReference]
      · simp [hremoved, hadded, mem_removeEntityReference]
    · by_cases hadded : target ∈ journal.added
      · simp [hremoved, hadded, mem_addEntityReference]
      · simp [hremoved, hadded]

theorem mem_processField_of_ne {id : Id} {target : Id} {references : EntityReferences}
    {reference : Id × EntityField} (hne : reference ≠ (id, field)) :
    reference ∈ processField id changedFields target references field ↔
      reference ∈ references := by
  unfold processField
  cases changedFields field with
  | none => exact Iff.rfl
  | some journal =>
    by_cases hremoved : target ∈ journal.removed
    · by_cases hadded : target ∈ journal.added
      · simp [hremoved, hadded, mem_addEntityReference, mem_removeEntityReference, hne]
      · simp [hremoved, hadded, mem_removeEntityReference, hne]
    · by_cases hadded : target ∈ journal.added
      · simp [hremoved, hadded, mem_addEntityReference, hne]
      · simp [hremoved, hadded]

/-- Each field of an update is gone through once. -/
theorem mem_foldl_processField {id : Id} {target : Id} {fields : List EntityField}
    (hfields : fields.Nodup) {references : EntityReferences} {source : Id} :
    (source, field) ∈ fields.foldl (processField id changedFields target) references ↔
      if source = id ∧ field ∈ fields then
        (source, field) ∈ references ∧ target ∉ ((changedFields field).getD .empty).removed ∨
          target ∈ ((changedFields field).getD .empty).added
      else (source, field) ∈ references := by
  induction fields generalizing references with
  | nil => simp
  | cons first fields ih =>
    obtain ⟨hfirst, hfields⟩ := nodup_cons.mp hfields
    rw [foldl_cons, ih hfields]
    by_cases hsource : source = id
    · subst hsource
      by_cases hfield : field = first
      · subst hfield
        simp only [hfirst, and_false, if_false, mem_cons_self, and_self, if_true]
        exact mem_processField
      · have hne : (source, field) ≠ (source, first) := by
          intro heq
          exact hfield (Prod.mk.inj heq).2
        simp only [mem_cons, hfield, false_or, true_and, mem_processField_of_ne hne]
    · have hne : (source, field) ≠ (id, first) := by
        intro heq
        exact hsource (Prod.mk.inj heq).1
      simp only [hsource, false_and, if_false]
      exact mem_processField_of_ne hne

/-- **What an update makes of an index.** -/
theorem mem_processIdReferences {entities : Finset Id} {id : Id}
    {references : Id → EntityReferences} {source target : Id} :
    (source, field) ∈ processIdReferences entities id changedFields references target ↔
      if target ∈ entities ∧ source = id then
        (source, field) ∈ references target ∧
            target ∉ ((changedFields field).getD .empty).removed ∨
          target ∈ ((changedFields field).getD .empty).added
      else (source, field) ∈ references target := by
  unfold processIdReferences
  by_cases htarget : target ∈ entities
  · rw [if_pos htarget, mem_foldl_processField EntityField.nodup_all]
    simp only [EntityField.mem_all, and_true, htarget, true_and]
  · simp only [htarget, if_false, false_and]

namespace ReferenceSystem

variable {s s' : ReferenceSystem} {source : Id} {field : EntityField}

/-! ### What is expected of the indexes -/

/-- The Entities that have the reference in their index. -/
def holders (s : ReferenceSystem) (source : Id) (field : EntityField) : Finset Id :=
  s.entities.filter fun target => (source, field) ∈ s.references target

/-- The journals of a field that are yet to be gone through. -/
def queued (s : ReferenceSystem) (source : Id) (field : EntityField) : List (SetJournal Id) :=
  s.updates.unapplied.filterMap fun update =>
    if update.entityId = source then update.idsChanged field else none

/-- The Entities that are to have the reference in their index once the queue is done. -/
def expected (s : ReferenceSystem) (source : Id) (field : EntityField) : Finset Id :=
  applyAll (s.queued source field) (s.holders source field)

theorem mem_holders {target : Id} : target ∈ s.holders source field ↔
    target ∈ s.entities ∧ (source, field) ∈ s.references target := Finset.mem_filter

theorem queued_eq (h : s'.updates.unapplied = s.updates.unapplied) : s'.queued = s.queued := by
  funext source field
  rw [queued, queued, h]

theorem expected_subset (hqueued : s'.queued = s.queued)
    (hholders : ∀ source field, s'.holders source field ⊆ s.holders source field) (source : Id)
    (field : EntityField) : s'.expected source field ⊆ s.expected source field := by
  rw [expected, expected, hqueued]
  exact applyAll_mono (hholders source field)

/-- What no journal in the queue adds is in the index now. -/
theorem mem_holders_of_mem_expected {target : Id} (h : target ∈ s.expected source field)
    (hadded : ∀ journal ∈ s.queued source field, target ∉ journal.added) :
    target ∈ s.holders source field :=
  mem_of_mem_applyAll h hadded

/-- No reference is put in an index, and no field changes. -/
structure Shrinks (s s' : ReferenceSystem) : Prop where
  entities : s'.entities = s.entities
  fields : s'.fields = s.fields
  removed : s'.removed = s.removed
  expected : ∀ source field, s'.expected source field ⊆ s.expected source field
  queued : ∀ source field, ∀ journal ∈ s'.queued source field, journal ∈ s.queued source field
  references : ∀ id ∉ s.entities, s.references id = [] → s'.references id = []

/-- The indexes lose references, and the queue stays. -/
theorem Shrinks.of_subset (hentities : s'.entities = s.entities) (hfields : s'.fields = s.fields)
    (hremoved : s'.removed = s.removed)
    (hreferences : ∀ id, s'.references id ⊆ s.references id)
    (hqueue : s'.updates.unapplied = s.updates.unapplied) : Shrinks s s' where
  entities := hentities
  fields := hfields
  removed := hremoved
  expected := by
    refine expected_subset (queued_eq hqueue) ?_
    intro source field target htarget
    rw [mem_holders, hentities] at htarget
    exact mem_holders.mpr ⟨htarget.1, hreferences target htarget.2⟩
  queued source field journal hjournal := queued_eq hqueue ▸ hjournal
  references id _ h := eq_nil_of_subset_nil (h ▸ hreferences id)

theorem Shrinks.of_eq (hentities : s'.entities = s.entities) (hfields : s'.fields = s.fields)
    (hremoved : s'.removed = s.removed) (hreferences : s'.references = s.references)
    (hqueue : s'.updates.unapplied = s.updates.unapplied) : Shrinks s s' :=
  .of_subset hentities hfields hremoved (fun id => hreferences ▸ List.Subset.refl _) hqueue

/-- An update is gone through. -/
theorem shrinks_processIdReferences {update : EntityUpdate}
    (hqueue : s.updates.unapplied = update :: s'.updates.unapplied)
    (hentities : s'.entities = s.entities) (hfields : s'.fields = s.fields)
    (hremoved : s'.removed = s.removed)
    (hreferences : s'.references =
      processIdReferences s.entities update.entityId update.idsChanged s.references) :
    Shrinks s s' where
  entities := hentities
  fields := hfields
  removed := hremoved
  expected source field := by
    have hholders : s'.holders source field ⊆
        if update.entityId = source then
          ((update.idsChanged field).getD .empty).apply (s.holders source field)
        else s.holders source field := by
      intro target htarget
      rw [mem_holders, hreferences, hentities, mem_processIdReferences] at htarget
      obtain ⟨hthere, htarget⟩ := htarget
      by_cases hsource : source = update.entityId
      · rw [if_pos ⟨hthere, hsource⟩] at htarget
        rw [if_pos hsource.symm, mem_apply, mem_holders]
        exact htarget.imp_left fun h => ⟨⟨hthere, h.1⟩, h.2⟩
      · rw [if_neg fun h => hsource h.2] at htarget
        rw [if_neg fun h => hsource h.symm]
        exact mem_holders.mpr ⟨hthere, htarget⟩
    refine (applyAll_mono hholders).trans (Finset.Subset.antisymm_iff.mp ?_).1
    rw [expected, queued, queued, hqueue, filterMap_cons]
    by_cases hsource : update.entityId = source
    · rw [if_pos hsource, if_pos hsource]
      cases update.idsChanged field with
      | none =>
        rw [Option.getD_none, apply_empty]
      | some journal => rw [Option.getD_some, applyAll_cons]
    · rw [if_neg hsource, if_neg hsource]
  queued source field journal hjournal := by
    rw [queued, hqueue, mem_filterMap]
    obtain ⟨update', hupdate', heq⟩ := mem_filterMap.mp hjournal
    exact ⟨update', mem_cons_of_mem update hupdate', heq⟩
  references id hid h := by
    rw [hreferences, processIdReferences, if_neg hid]
    exact h

/-! ### A field changes -/

/-- Fields of an Entity have changed, and the manager has been told. -/
structure ChangeEffect (s s' : ReferenceSystem) (id : Id) (changes : Option EntityChanges)
    (fields : IdFields) : Prop where
  entities : s'.entities = s.entities
  fields : s'.fields = Function.update s.fields id fields
  references : s'.references = s.references
  removal : s'.removal = s.removal
  removed : s'.removed = s.removed
  deleting : ∀ entityId deletes sites, s'.updates.phase = .deleting entityId deletes sites →
    s.updates.phase = .deleting entityId deletes sites
  expected : ∀ field, s'.expected id field = (toldIds changes field).apply (s.expected id field)
  others : ∀ source ≠ id, ∀ field, s'.expected source field = s.expected source field
  queued : ∀ source field, ∀ journal ∈ s'.queued source field,
    journal ∈ s.queued source field ∨ source = id ∧ journal = toldIds changes field

theorem expected_of_queued_append {update : EntityUpdate} (hentities : s'.entities = s.entities)
    (hreferences : s'.references = s.references)
    (hqueue : s'.updates.unapplied = s.updates.unapplied ++ [update]) (source : Id)
    (field : EntityField) :
    s'.expected source field =
      if update.entityId = source then
        ((update.idsChanged field).getD .empty).apply (s.expected source field)
      else s.expected source field := by
  have hholders : s'.holders source field = s.holders source field := by
    rw [holders, holders, hentities, hreferences]
  rw [expected, expected, hholders, queued, queued, hqueue, filterMap_append]
  by_cases hsource : update.entityId = source
  · rw [if_pos hsource, filterMap_cons, if_pos hsource]
    cases update.idsChanged field with
    | none => rw [Option.getD_none, apply_empty, filterMap_nil, append_nil]
    | some journal => exact applyAll_concat ..
  · rw [if_neg hsource, filterMap_cons, if_neg hsource, filterMap_nil, append_nil]

/-- The queue tells what has changed. -/
theorem changeEffect_of_queue {id : Id} {changes : EntityChanges} {fields : IdFields}
    (hentities : s'.entities = s.entities) (hfields : s'.fields = Function.update s.fields id fields)
    (hreferences : s'.references = s.references) (hremoval : s'.removal = s.removal)
    (hremoved : s'.removed = s.removed)
    (hdeleting : ∀ entityId deletes sites, s'.updates.phase = .deleting entityId deletes sites →
      s.updates.phase = .deleting entityId deletes sites)
    (hqueue : s'.updates.unapplied = s.updates.unapplied ++
      if ChangedIdFieldsMap.isEmpty changes.ids then [] else [.new id changes]) :
    ChangeEffect s s' id (some changes) fields := by
  by_cases hempty : ChangedIdFieldsMap.isEmpty changes.ids = true
  · -- Nothing is put in the queue.
    rw [if_pos hempty, append_nil] at hqueue
    have hids : ∀ field, toldIds (some changes) field = .empty := by
      intro field
      have hnone : changes.ids field = none := of_decide_eq_true hempty field
      rw [toldIds, Option.bind_some, hnone, Option.getD_none]
    have hexpected : ∀ source field, s'.expected source field = s.expected source field := by
      intro source field
      rw [expected, expected, queued_eq hqueue, holders, holders, hentities, hreferences]
    refine ⟨hentities, hfields, hreferences, hremoval, hremoved, hdeleting, ?_, ?_, ?_⟩
    · intro field
      rw [hids, apply_empty]
      exact hexpected id field
    · intro source _ field
      exact hexpected source field
    · intro source field journal hjournal
      exact .inl (queued_eq hqueue ▸ hjournal)
  · rw [if_neg hempty] at hqueue
    have hexpected := expected_of_queued_append hentities hreferences hqueue
    refine ⟨hentities, hfields, hreferences, hremoval, hremoved, hdeleting, ?_, ?_, ?_⟩
    · intro field
      exact (hexpected id field).trans (if_pos rfl)
    · intro source hsource field
      exact (hexpected source field).trans (if_neg fun heq => hsource heq.symm)
    · intro source field journal hjournal
      rw [queued, hqueue, filterMap_append, mem_append] at hjournal
      refine hjournal.imp_right ?_
      intro hnew
      obtain ⟨update, hupdate, heq⟩ := mem_filterMap.mp hnew
      obtain rfl := mem_singleton.mp hupdate
      by_cases hsource : id = source
      · refine ⟨hsource.symm, ?_⟩
        have heq' : changes.ids field = some journal := (if_pos hsource).symm.trans heq
        rw [toldIds, Option.bind_some, heq', Option.getD_some]
      · cases (if_neg hsource).symm.trans heq

/-- **What a change makes of what is expected.** -/
theorem applyChange_effect {id : Id} {change : IdFields → IdFields} {now : TimeStamp}
    (h : s.applyChange id change now = some s') :
    ChangeEffect s s' id ((s.fields id).underLock change now).1
      ((s.fields id).underLock change now).2 := by
  unfold applyChange at h
  generalize (s.fields id).underLock change now = result at h ⊢
  obtain ⟨changes, fields⟩ := result
  cases changes with
  | none =>
    cases h
    refine ⟨rfl, rfl, rfl, rfl, rfl, fun _ _ _ h => h, ?_, fun _ _ _ => rfl,
      fun _ _ _ h => .inl h⟩
    intro field
    exact (apply_empty _).symm
  | some changes =>
    obtain ⟨updates, hupdates, rfl⟩ := Option.map_eq_some_iff.mp h
    cases UpdateSystem.step_queueEffect hupdates with
    | same _ hlabel => exact absurd rfl (hlabel id changes)
    | told _ _ hqueue =>
      refine changeEffect_of_queue rfl rfl rfl rfl rfl ?_ hqueue
      intro entityId deletes sites hphase
      exact (UpdateSystem.step_phase_deleting hupdates hphase).resolve_right nofun

end ReferenceSystem

end Mutgos.DbInterface
