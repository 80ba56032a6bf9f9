import Mutgos.DbInterface.BrokenReferences
import Mutgos.DbInterface.ReferenceQueue

/-!
# References to what is deleted

No Entity refers to one that has been removed from the database, and no index lists one,
as long as nothing gets past the two passes of the manager.  The first pass takes the
Entity out of the indexes of those it refers to.  It does not look at what is disabled
in a group, and what is still in the queue comes after it.  The second pass empties the
fields that the index of the Entity lists.  A Security is never listed, a change in the
queue not yet, and a target that an action has twice is removed once.

## Main results

* `referencesGone_of_reachable` — **in a run that keeps to the guard no reference is left.**
-/

namespace Mutgos.DbInterface

open DbTypes IdFields List Finset

namespace ReferenceSystem

variable {s s' : ReferenceSystem} {id : Id}

/-- What is promised of a state: when the queue has been gone through, none of the
Entities refers to one that has been removed, or lists it in its index. -/
def ReferencesGone (s : ReferenceSystem) : Prop :=
  s.updates.unapplied = [] → ∀ id ∈ s.removed, ∀ entityId ∈ s.entities, ∀ field,
    id ∉ (s.fields entityId).ids field ∧ (id, field) ∉ s.references entityId

/-- The Entity that is being removed. -/
def target (s : ReferenceSystem) : Option Id :=
  match s.removal with
  | .leaving id _ => some id
  | .breaking id _ => some id
  | .idle =>
    match s.updates.phase with
    | .deleting id _ _ => some id
    | _ => none

/-- The index of the Entity lists every field that it is in, those disabled in groups
apart, and no action has it as a target twice. -/
def IndexComplete (s : ReferenceSystem) (id : Id) : Prop :=
  ∀ source ∈ s.entities, source ≠ id →
    (∀ field ≠ .groupDisabledIds, id ∈ (s.fields source).ids field →
      (source, field) ∈ s.references id) ∧
    (s.fields source).actionEntityTargets.count id ≤ 1

/-- **The guard.**  No field is given the ID of an Entity that has been or is being
removed, and those of the latter are given none.  When its removal begins, no journal of
it that is in the queue adds an ID, and it is no group with members that are disabled.
When its index is read, the index is complete. -/
def ok (s : ReferenceSystem) : ReferenceStep → Prop
  | .change entityId calls _ => ∀ call ∈ calls, ∀ id ∈ call.newIds,
      id = default ∨ id ∉ s.removed ∧ s.target ≠ some id ∧ s.target ≠ some entityId
  | .getEntityDeleted entityId =>
    (∀ field, ∀ journal ∈ s.queued entityId field, ∀ id ∈ journal.added, id = default) ∧
      ((s.fields entityId).idSet .groupDisabledIds).ids = []
  | .getAllReferences =>
    match s.removal with
    | .leaving id _ => s.IndexComplete id
    | _ => True
  | _ => True

instance (s : ReferenceSystem) (id : Id) : Decidable (s.IndexComplete id) :=
  inferInstanceAs (Decidable (∀ source ∈ s.entities, source ≠ id →
    (∀ field ≠ .groupDisabledIds, id ∈ (s.fields source).ids field →
      (source, field) ∈ s.references id) ∧
    (s.fields source).actionEntityTargets.count id ≤ 1))

instance (s : ReferenceSystem) (label : ReferenceStep) : Decidable (s.ok label) :=
  match label with
  | .change entityId calls _ =>
    inferInstanceAs (Decidable (∀ call ∈ calls, ∀ id ∈ call.newIds,
      id = default ∨ id ∉ s.removed ∧ s.target ≠ some id ∧ s.target ≠ some entityId))
  | .getEntityDeleted entityId =>
    inferInstanceAs (Decidable
      ((∀ field, ∀ journal ∈ s.queued entityId field, ∀ id ∈ journal.added, id = default) ∧
        ((s.fields entityId).idSet .groupDisabledIds).ids = []))
  | .getAllReferences =>
    match h : s.removal with
    | .leaving id _ => decidable_of_iff (s.IndexComplete id) (by simp only [ok, h])
    | .idle => .isTrue (by simp only [ok, h])
    | .breaking _ _ => .isTrue (by simp only [ok, h])
  | .newEntity _ _ | .update _ | .processIdReferences | .removeReference
  | .removeReferenceFromSource _ | .eraseUpdate | .deleteEntity _ => .isTrue trivial

/-! ### The invariant -/

/-- No index is to list the Entity. -/
def Unlisted (s : ReferenceSystem) (id : Id) : Prop :=
  ∀ field, ∀ target ∈ s.expected id field, target = default

/-- In the first pass: what is still to be listed is still to be done. -/
structure Leaving (s : ReferenceSystem) (id : Id) (todo : List (Id × EntityField)) : Prop where
  there : id ∈ s.entities
  queued : ∀ field, ∀ journal ∈ s.queued id field, ∀ target ∈ journal.added, target = default
  todo : ∀ field, ∀ target ∈ s.expected id field, target = default ∨ (target, field) ∈ todo

/-- In the second pass: the fields that still have the Entity are still to be done. -/
structure Breaking (s : ReferenceSystem) (id : Id) (todo : List (Id × EntityField)) : Prop where
  there : id ∈ s.entities
  unlisted : s.Unlisted id
  todo : ∀ source ∈ s.entities, source ≠ id → ∀ field ≠ .groupDisabledIds,
    id ∈ (s.fields source).ids field → (source, field) ∈ todo
  once : ∀ source ∈ s.entities, source ≠ id →
    ((s.fields source).ids .actionTargets).count id ≤ 1

/-- The invariant, as far as it is not about a removal. -/
structure Sound (s : ReferenceSystem) : Prop where
  quiet : ∀ id ∈ s.entities, (s.fields id).Quiet
  /-- What is to be listed is in the field. -/
  known : ∀ id ∈ s.entities, ∀ field, ∀ target ∈ s.expected id field,
    target = default ∨ target ∈ (s.fields id).ids field ∧ field ≠ .security
  gone : ∀ id ∉ s.entities, s.Unlisted id
  present : ∀ id ∈ s.entities, ∀ field, ∀ target ∈ (s.fields id).ids field, target ∉ s.removed
  removed : ∀ id ∈ s.removed, id ∉ s.entities ∧ id ≠ default
  references : ∀ id ∉ s.entities, s.references id = []
  notDefault : default ∉ s.entities

/-- The invariant. -/
structure Consistent (s : ReferenceSystem) : Prop where
  sound : s.Sound
  leaving : ∀ id todo, s.removal = .leaving id todo → s.Leaving id todo
  breaking : ∀ id todo, s.removal = .breaking id todo → s.Breaking id todo
  deleting : ∀ id deletes sites, s.updates.phase = .deleting id deletes sites →
    s.removal = .idle ∧ s.Breaking id []

/-! ### Where no reference is put in an index -/

theorem Unlisted.shrinks (h : s.Unlisted id) (hs : Shrinks s s') : s'.Unlisted id :=
  fun field target htarget => h field target (hs.expected id field htarget)

theorem Leaving.shrinks {todo : List (Id × EntityField)} (h : s.Leaving id todo)
    (hs : Shrinks s s') : s'.Leaving id todo where
  there := hs.entities ▸ h.there
  queued field journal hjournal := h.queued field journal (hs.queued id field journal hjournal)
  todo field target htarget := h.todo field target (hs.expected id field htarget)

theorem Breaking.shrinks {todo : List (Id × EntityField)} (h : s.Breaking id todo)
    (hs : Shrinks s s') : s'.Breaking id todo where
  there := hs.entities ▸ h.there
  unlisted := h.unlisted.shrinks hs
  todo := by
    rw [hs.entities, hs.fields]
    exact h.todo
  once := by
    rw [hs.entities, hs.fields]
    exact h.once

theorem Sound.shrinks (h : s.Sound) (hs : Shrinks s s') : s'.Sound where
  quiet := by
    rw [hs.entities, hs.fields]
    exact h.quiet
  known := by
    rw [hs.entities, hs.fields]
    intro id hid field target htarget
    exact h.known id hid field target (hs.expected id field htarget)
  gone := by
    rw [hs.entities]
    intro id hid
    exact (h.gone id hid).shrinks hs
  present := by
    rw [hs.entities, hs.fields, hs.removed]
    exact h.present
  removed := by
    rw [hs.entities, hs.removed]
    exact h.removed
  references := by
    rw [hs.entities]
    intro id hid
    exact hs.references id hid (h.references id hid)
  notDefault := hs.entities ▸ h.notDefault

/-- Nothing happens to the removal. -/
theorem Consistent.shrinks (h : Consistent s) (hs : Shrinks s s') (hremoval : s'.removal = s.removal)
    (hdeleting : ∀ id deletes sites, s'.updates.phase = .deleting id deletes sites →
      s.updates.phase = .deleting id deletes sites) : Consistent s' where
  sound := h.sound.shrinks hs
  leaving id todo htodo := (h.leaving id todo (hremoval ▸ htodo)).shrinks hs
  breaking id todo htodo := (h.breaking id todo (hremoval ▸ htodo)).shrinks hs
  deleting id deletes sites hphase :=
    have hold := h.deleting id deletes sites (hdeleting id deletes sites hphase)
    ⟨hremoval.trans hold.1, hold.2.shrinks hs⟩

/-! ### Where a field changes -/

section Change

variable {fresh : Id → Prop} {source : Id} {changes : Option EntityChanges} {fields : IdFields}

/-- The IDs that are known of the fields of an Entity. -/
def base (s : ReferenceSystem) (source : Id) (field : EntityField) : Finset Id :=
  (s.expected source field).erase default

theorem Sound.busy (h : s.Sound) (hsource : source ∈ s.entities) :
    Busy fresh (s.base source) (s.fields source).ids (s.fields source) := by
  refine (h.quiet source hsource).busy ?_
  intro field target htarget
  obtain ⟨hne, htarget⟩ := mem_erase.mp htarget
  exact (h.known source hsource field target htarget).resolve_left hne

section

variable (hs : ChangeEffect s s' source changes fields)
  (htold : Told fresh (s.base source) (s.fields source).ids changes fields)
include hs htold

/-- What is expected after a change is in the field. -/
theorem ChangeEffect.mem_ids {field : EntityField} {target : Id}
    (htarget : target ∈ s'.expected source field) :
    target = default ∨ target ∈ fields.ids field ∧ field ≠ .security := by
  by_cases hdefault : target = default
  · exact .inl hdefault
  · refine .inr (htold.known field target ?_)
    rw [hs.expected, SetJournal.mem_apply] at htarget
    rw [SetJournal.mem_apply]
    exact htarget.imp_left fun h => ⟨mem_erase.mpr ⟨hdefault, h.1⟩, h.2⟩

/-- An Entity that is given no ID is listed nowhere that it was not. -/
theorem ChangeEffect.expected_of_self (hself : ∀ x, fresh x → x = default) {field : EntityField}
    {target : Id} (htarget : target ∈ s'.expected source field) :
    target = default ∨ target ∈ s.expected source field := by
  rw [hs.expected, SetJournal.mem_apply] at htarget
  rcases htarget with ⟨htarget, -⟩ | hadded
  · exact .inr htarget
  · exact .inl (hself target (htold.added field target hadded))

end

theorem Sound.change (h : s.Sound) (hsource : source ∈ s.entities)
    (hs : ChangeEffect s s' source changes fields)
    (htold : Told fresh (s.base source) (s.fields source).ids changes fields)
    (hfresh : ∀ x, fresh x → x = default ∨ x ∉ s.removed) : s'.Sound where
  quiet := by
    rw [hs.entities, hs.fields]
    intro id hid
    by_cases heq : id = source
    · rw [heq, Function.update_self]
      exact htold.quiet
    · rw [Function.update_of_ne heq]
      exact h.quiet id hid
  known := by
    rw [hs.entities, hs.fields]
    intro id hid field target htarget
    by_cases heq : id = source
    · subst heq
      rw [Function.update_self]
      exact hs.mem_ids htold htarget
    · rw [Function.update_of_ne heq]
      rw [hs.others id heq] at htarget
      exact h.known id hid field target htarget
  gone := by
    rw [hs.entities]
    intro id hid field target htarget
    have hne : id ≠ source := by
      rintro rfl
      exact hid hsource
    rw [hs.others id hne] at htarget
    exact h.gone id hid field target htarget
  present := by
    rw [hs.entities, hs.fields, hs.removed]
    intro id hid field target htarget
    by_cases heq : id = source
    · rw [heq, Function.update_self] at htarget
      rcases htold.within field target with hnew | hcount
      · rcases hfresh target hnew with rfl | hnot
        · exact fun hremoved => (h.removed default hremoved).2 rfl
        · exact hnot
      · have hpos := count_pos_iff.mpr htarget
        exact h.present source hsource field target (count_pos_iff.mp (hpos.trans_le hcount))
    · rw [Function.update_of_ne heq] at htarget
      exact h.present id hid field target htarget
  removed := by
    rw [hs.entities, hs.removed]
    exact h.removed
  references := by
    rw [hs.entities, hs.references]
    exact h.references
  notDefault := hs.entities ▸ h.notDefault

theorem Leaving.change {todo : List (Id × EntityField)} (h : s.Leaving id todo)
    (hs : ChangeEffect s s' source changes fields)
    (htold : Told fresh (s.base source) (s.fields source).ids changes fields)
    (hself : source = id → ∀ x, fresh x → x = default) : s'.Leaving id todo where
  there := hs.entities ▸ h.there
  queued field journal hjournal := by
    rcases hs.queued id field journal hjournal with hold | ⟨heq, rfl⟩
    · exact h.queued field journal hold
    · intro target htarget
      exact hself heq.symm target (htold.added field target htarget)
  todo field target htarget := by
    by_cases heq : id = source
    · subst heq
      rcases hs.expected_of_self htold (hself rfl) htarget with hdefault | hold
      · exact .inl hdefault
      · exact h.todo field target hold
    · rw [hs.others id heq] at htarget
      exact h.todo field target htarget

theorem Breaking.change {todo : List (Id × EntityField)} (h : s.Breaking id todo)
    (hsource : source ∈ s.entities) (hs : ChangeEffect s s' source changes fields)
    (htold : Told fresh (s.base source) (s.fields source).ids changes fields)
    (hself : source = id → ∀ x, fresh x → x = default) (hother : ¬ fresh id) :
    s'.Breaking id todo where
  there := hs.entities ▸ h.there
  unlisted field target htarget := by
    by_cases heq : id = source
    · subst heq
      rcases hs.expected_of_self htold (hself rfl) htarget with hdefault | hold
      · exact hdefault
      · exact h.unlisted field target hold
    · rw [hs.others id heq] at htarget
      exact h.unlisted field target htarget
  todo := by
    rw [hs.entities, hs.fields]
    intro id' hid' hne field hfield hmem
    by_cases heq : id' = source
    · rw [heq, Function.update_self] at hmem
      have hpos := count_pos_iff.mpr hmem
      have hcount := (htold.within field id).resolve_left hother
      rw [heq]
      exact h.todo source hsource (heq ▸ hne) field hfield
        (count_pos_iff.mp (hpos.trans_le hcount))
    · rw [Function.update_of_ne heq] at hmem
      exact h.todo id' hid' hne field hfield hmem
  once := by
    rw [hs.entities, hs.fields]
    intro id' hid' hne
    by_cases heq : id' = source
    · rw [heq, Function.update_self]
      exact ((htold.within .actionTargets id).resolve_left hother).trans
        (h.once source hsource (heq ▸ hne))
    · rw [Function.update_of_ne heq]
      exact h.once id' hid' hne

/-- The Entity that is being removed is given to no field, and is given no ID. -/
theorem Consistent.change (h : Consistent s) (hsource : source ∈ s.entities)
    (hs : ChangeEffect s s' source changes fields)
    (htold : Told fresh (s.base source) (s.fields source).ids changes fields)
    (hfresh : ∀ x, fresh x → x = default ∨ x ∉ s.removed)
    (htarget : ∀ id, s.target = some id →
      ¬ fresh id ∧ (source = id → ∀ x, fresh x → x = default)) : Consistent s' where
  sound := h.sound.change hsource hs htold hfresh
  leaving id todo htodo := by
    rw [hs.removal] at htodo
    have hid : s.target = some id := by rw [target, htodo]
    exact (h.leaving id todo htodo).change hs htold (htarget id hid).2
  breaking id todo htodo := by
    rw [hs.removal] at htodo
    have hid : s.target = some id := by rw [target, htodo]
    exact (h.breaking id todo htodo).change hsource hs htold (htarget id hid).2 (htarget id hid).1
  deleting id deletes sites hphase := by
    have hphase := hs.deleting id deletes sites hphase
    obtain ⟨hidle, hbreaking⟩ := h.deleting id deletes sites hphase
    have hid : s.target = some id := by rw [target, hidle, hphase]
    exact ⟨hs.removal.trans hidle,
      hbreaking.change hsource hs htold (htarget id hid).2 (htarget id hid).1⟩

end Change

/-! ### The steps -/

theorem consistent_init : Consistent init where
  sound :=
    { quiet := nofun
      known := nofun
      gone := by
        intro _ _ field target htarget
        exact absurd htarget (notMem_empty target)
      present := nofun
      removed := nofun
      references := fun _ _ => rfl
      notDefault := notMem_empty _ }
  leaving := nofun
  breaking := nofun
  deleting := nofun

theorem Consistent.update (h : Consistent s) {label : UpdateStep}
    (hother : isOther label s.removal = true) {updates : UpdateSystem}
    (hstep : s.updates.step label = some updates) : Consistent { s with updates := updates } := by
  have hqueue : updates.unapplied = s.updates.unapplied := by
    cases UpdateSystem.step_queueEffect hstep with
    | told entityId changes hqueue =>
      have hempty : ChangedIdFieldsMap.isEmpty changes.ids = true := hother
      rw [hqueue, if_pos hempty, append_nil]
    | applied _ _ => cases hother
    | same _ _ hqueue => exact hqueue
  refine h.shrinks (.of_eq rfl rfl rfl rfl hqueue) rfl ?_
  intro id deletes sites hphase
  refine (UpdateSystem.step_phase_deleting hstep hphase).resolve_right ?_
  rintro rfl
  cases hother

theorem Consistent.processIdReferences (h : Consistent s)
    (hstep : s.step .processIdReferences = some s') : Consistent s' := by
  rw [step] at hstep
  split at hstep
  · next done update todo hidle hphase =>
    obtain ⟨updates, hupdates, rfl⟩ := Option.map_eq_some_iff.mp hstep
    have hqueue : s.updates.unapplied = update :: updates.unapplied := by
      cases UpdateSystem.step_queueEffect hupdates with
      | applied update' hqueue =>
        have hhead : s.updates.unapplied =
            update :: (todo ++ s.updates.manager.immediateUpdateQueue) := by
          rw [UpdateSystem.unapplied, hphase]
          rfl
        rw [hhead] at hqueue ⊢
        obtain ⟨-, htail⟩ := List.cons.inj hqueue
        rw [htail]
      | same _ _ hsame =>
        rw [UpdateSystem.step, hphase] at hupdates
        cases hupdates
        rw [UpdateSystem.unapplied, hphase]
        rfl
    refine h.shrinks (shrinks_processIdReferences hqueue rfl rfl rfl rfl) rfl ?_
    intro id deletes sites hphase'
    exact (UpdateSystem.step_phase_deleting hupdates hphase').resolve_right (by rintro ⟨⟩)
  · cases hstep

variable {now : TimeStamp} {field : EntityField} {x : Id}

/-- A new Entity has no IDs in its fields. -/
theorem mem_ids_new (h : x ∈ (IdFields.new id now).ids field) : x = default := by
  unfold ids at h
  rw [entity_new, Entity.entitySecurity_new] at h
  cases hkind : field.idKind with
  | single => rw [hkind] at h; exact List.mem_singleton.mp h
  | contained => rw [hkind] at h; exact List.mem_singleton.mp h
  | _ => rw [hkind] at h; exact absurd h not_mem_nil

theorem quiet_new (id : Id) (now : TimeStamp) : (IdFields.new id now).Quiet where
  listening := by
    rw [entity_new]
    exact Entity.listening_new now
  security := by
    rw [entity_new, Entity.entitySecurity_new]
    exact Security.wellFormed_empty
  disabled := nofun
  told field := by
    rw [entity_new]
    exact Entity.diffIdsChanged_new true now field

/-- There is a new Entity. -/
structure NewEffect (s s' : ReferenceSystem) (id : Id) (fields : IdFields) : Prop where
  entities : s'.entities = insert id s.entities
  fields : s'.fields = Function.update s.fields id fields
  references : s'.references = Function.update s.references id []
  removal : s'.removal = s.removal
  removed : s'.removed = s.removed.erase id
  unapplied : s'.updates.unapplied = s.updates.unapplied
  deleting : ∀ entityId deletes sites, s'.updates.phase = .deleting entityId deletes sites →
    s.updates.phase = .deleting entityId deletes sites

section NewEntity

variable {now : TimeStamp}

theorem NewEffect.expected (hs : NewEffect s s' id (.new id now)) (source : Id)
    (field : EntityField) : s'.expected source field ⊆ s.expected source field := by
  refine expected_subset (queued_eq hs.unapplied) ?_ source field
  intro source field target htarget
  rw [mem_holders, hs.entities, hs.references] at htarget
  obtain ⟨hthere, hmem⟩ := htarget
  by_cases heq : target = id
  · -- its index is empty
    rw [heq, Function.update_self] at hmem
    cases hmem
  · rw [Function.update_of_ne heq] at hmem
    exact mem_holders.mpr ⟨(mem_insert.mp hthere).resolve_left heq, hmem⟩

variable {id' : Id}

theorem NewEffect.fields_of_mem (hs : NewEffect s s' id (.new id now)) (hid : id ∉ s.entities)
    (hid' : id' ∈ s.entities) : s'.fields id' = s.fields id' := by
  have hne : id' ≠ id := by
    rintro rfl
    exact hid hid'
  rw [hs.fields, Function.update_of_ne hne]

theorem NewEffect.fields_self (hs : NewEffect s s' id (.new id now)) :
    s'.fields id = .new id now := by
  rw [hs.fields, Function.update_self]

theorem Sound.newEntity (h : s.Sound) (hid : id ∉ s.entities) (hdefault : id ≠ default)
    (hs : NewEffect s s' id (.new id now)) : s'.Sound where
  quiet := by
    rw [hs.entities]
    intro id' hid'
    rcases mem_insert.mp hid' with rfl | hid'
    · rw [hs.fields_self]
      exact quiet_new id' now
    · rw [hs.fields_of_mem hid hid']
      exact h.quiet id' hid'
  known := by
    rw [hs.entities]
    intro id' hid' field target htarget
    have htarget := hs.expected id' field htarget
    rcases mem_insert.mp hid' with rfl | hid'
    · exact .inl (h.gone id' hid field target htarget)
    · rw [hs.fields_of_mem hid hid']
      exact h.known id' hid' field target htarget
  gone := by
    rw [hs.entities]
    intro id' hid' field target htarget
    have hid' : id' ∉ s.entities := fun hmem => hid' (Finset.mem_insert_of_mem hmem)
    exact h.gone id' hid' field target (hs.expected id' field htarget)
  present := by
    rw [hs.entities, hs.removed]
    intro id' hid' field target htarget herased
    have hremoved := Finset.mem_of_mem_erase herased
    rcases mem_insert.mp hid' with rfl | hid'
    · rw [hs.fields_self] at htarget
      exact (h.removed target hremoved).2 (mem_ids_new htarget)
    · rw [hs.fields_of_mem hid hid'] at htarget
      exact h.present id' hid' field target htarget hremoved
  removed := by
    rw [hs.entities, hs.removed]
    intro id' hid'
    obtain ⟨hother, hremoved⟩ := mem_erase.mp hid'
    obtain ⟨hnot, hdefault'⟩ := h.removed id' hremoved
    refine ⟨?_, hdefault'⟩
    intro hmem
    exact hnot ((mem_insert.mp hmem).resolve_left hother)
  references := by
    rw [hs.entities, hs.references]
    intro id' hid'
    obtain ⟨hother, hid'⟩ := not_or.mp fun hmem => hid' (mem_insert.mpr hmem)
    rw [Function.update_of_ne hother]
    exact h.references id' hid'
  notDefault := by
    rw [hs.entities]
    intro hmem
    rcases mem_insert.mp hmem with heq | hmem
    · exact hdefault heq.symm
    · exact h.notDefault hmem

theorem Leaving.newEntity {todo : List (Id × EntityField)} (h : s.Leaving id' todo)
    (hs : NewEffect s s' id (.new id now)) : s'.Leaving id' todo where
  there := hs.entities ▸ Finset.mem_insert_of_mem h.there
  queued := by
    rw [queued_eq hs.unapplied]
    exact h.queued
  todo field target htarget := h.todo field target (hs.expected id' field htarget)

theorem Breaking.newEntity {todo : List (Id × EntityField)} (h : s.Breaking id' todo)
    (hid : id ∉ s.entities) (hdefault : default ∉ s.entities)
    (hs : NewEffect s s' id (.new id now)) : s'.Breaking id' todo where
  there := hs.entities ▸ Finset.mem_insert_of_mem h.there
  unlisted field target htarget := h.unlisted field target (hs.expected id' field htarget)
  todo := by
    rw [hs.entities]
    intro source hsource hother field hfield hmem
    rcases mem_insert.mp hsource with rfl | hsource
    · rw [hs.fields_self] at hmem
      exact absurd (mem_ids_new hmem ▸ h.there) hdefault
    · rw [hs.fields_of_mem hid hsource] at hmem
      exact h.todo source hsource hother field hfield hmem
  once := by
    rw [hs.entities]
    intro source hsource hother
    rcases mem_insert.mp hsource with rfl | hsource
    · rw [hs.fields_self]
      exact Nat.zero_le 1
    · rw [hs.fields_of_mem hid hsource]
      exact h.once source hsource hother

theorem Consistent.newEntity (h : Consistent s) (hstep : s.step (.newEntity id now) = some s') :
    Consistent s' := by
  rw [step] at hstep
  split at hstep
  · cases hstep
  · next hnew =>
    obtain ⟨hid, hdefault⟩ := not_or.mp hnew
    rw [Id.isDefault_iff] at hdefault
    obtain ⟨updates, hupdates, heq⟩ := Option.map_eq_some_iff.mp hstep
    have hs : NewEffect s s' id (.new id now) := by
      subst heq
      refine ⟨rfl, rfl, rfl, rfl, rfl, ?_, ?_⟩
      · cases UpdateSystem.step_queueEffect hupdates with
        | same _ _ hqueue => exact hqueue
      · intro entityId deletes sites hphase
        exact (UpdateSystem.step_phase_deleting hupdates hphase).resolve_right nofun
    refine ⟨h.sound.newEntity hid hdefault hs, ?_, ?_, ?_⟩
    · intro id' todo htodo
      exact (h.leaving id' todo (hs.removal ▸ htodo)).newEntity hs
    · intro id' todo htodo
      exact (h.breaking id' todo (hs.removal ▸ htodo)).newEntity hid h.sound.notDefault hs
    · intro id' deletes sites hphase
      obtain ⟨hidle, hold⟩ := h.deleting id' deletes sites (hs.deleting id' deletes sites hphase)
      exact ⟨hs.removal.trans hidle, hold.newEntity hid h.sound.notDefault hs⟩

end NewEntity

theorem Consistent.mem_of_target (h : Consistent s) (htarget : s.target = some id) :
    id ∈ s.entities := by
  unfold target at htarget
  split at htarget
  · next id' todo hremoval =>
    cases htarget
    exact (h.leaving id todo hremoval).there
  · next id' todo hremoval =>
    cases htarget
    exact (h.breaking id todo hremoval).there
  · split at htarget
    · next id' deletes sites hphase =>
      cases htarget
      exact (h.deleting id deletes sites hphase).2.there
    · cases htarget

theorem Consistent.changeFields (h : Consistent s) {calls : List FieldCall}
    (hok : s.ok (.change id calls now)) (hstep : s.step (.change id calls now) = some s') :
    Consistent s' := by
  rw [step] at hstep
  split at hstep
  · next hid =>
    have htold := told_underLock (fun fields => calls.foldl IdFields.call fields)
      ((h.sound.busy hid).foldl_call calls hok) now
    refine h.change hid (applyChange_effect hstep) htold ?_ ?_
    · intro x hx
      exact hx.imp_right And.left
    · intro target htarget
      refine ⟨?_, ?_⟩
      · rintro (rfl | hx)
        · exact h.sound.notDefault (h.mem_of_target htarget)
        · exact hx.2.1 htarget
      · rintro rfl x hx
        exact hx.resolve_right fun hx => hx.2.2 htarget
  · cases hstep

/-! ### The first pass -/

theorem mem_ownFields {fields : IdFields} (h : x ∈ fields.ids field)
    (hfield : field ≠ .groupDisabledIds) : field ∈ ownFields := by
  cases field <;> first | decide | exact absurd rfl hfield | exact absurd h not_mem_nil

theorem mem_ownReferences {fields : IdFields} (h : x ∈ fields.ids field)
    (hfield : field ≠ .groupDisabledIds) : (x, field) ∈ ownReferences fields :=
  mem_flatMap.mpr ⟨field, mem_ownFields h hfield, List.mem_map.mpr ⟨x, h, rfl⟩⟩

theorem Consistent.getEntityDeleted (h : Consistent s) (hok : s.ok (.getEntityDeleted id))
    (hstep : s.step (.getEntityDeleted id) = some s') : Consistent s' := by
  rw [step] at hstep
  split at hstep
  · next deletes sites hidle hphase =>
    split at hstep
    · next hid =>
      cases hstep
      obtain ⟨hqueued, hdisabled⟩ := hok
      have hs : Shrinks s { s with removal := .leaving id (ownReferences (s.fields id)) } :=
        .of_eq rfl rfl rfl rfl rfl
      refine ⟨h.sound.shrinks hs, ?_, nofun, ?_⟩
      · intro id' todo htodo
        cases htodo
        refine ⟨hid.2, hqueued, ?_⟩
        intro field target htarget
        refine (h.sound.known id hid.2 field target htarget).imp_right ?_
        rintro ⟨hmem, -⟩
        refine mem_ownReferences hmem ?_
        rintro rfl
        rw [ids_of_set rfl, hdisabled] at hmem
        cases hmem
      · intro id' deletes' sites' hdeleting
        cases hphase.symm.trans hdeleting
    · cases hstep
  · cases hstep

theorem Consistent.removeReference (h : Consistent s) (hstep : s.step .removeReference = some s') :
    Consistent s' := by
  rw [step] at hstep
  split at hstep
  · next id target field todo hremoval =>
    have hreferences : ∀ id', s'.references id' =
        if id' = target ∧ target ∈ s.entities then
          removeEntityReference (s.references target) id field
        else s.references id' := by
      cases hstep
      intro id'
      by_cases hthere : target ∈ s.entities
      · have hdefault : ¬ target.isDefault = true := by
          rw [Id.isDefault_iff]
          rintro rfl
          exact h.sound.notDefault hthere
        rw [if_pos ⟨hdefault, hthere⟩]
        simp only [hthere, and_true]
        exact Function.update_apply ..
      · simp only [hthere, and_false, if_false]
    have hs : Shrinks s s' := by
      refine .of_subset ?_ ?_ ?_ ?_ ?_
      · cases hstep; rfl
      · cases hstep; rfl
      · cases hstep; rfl
      · intro id' reference hreference
        rw [hreferences] at hreference
        split at hreference
        · next htarget => exact htarget.1 ▸ (mem_removeEntityReference.mp hreference).1
        · exact hreference
      · cases hstep; rfl
    have hleaving := h.leaving id _ hremoval
    have hleaving' := hleaving.shrinks hs
    have hremoval' : s'.removal = .leaving id todo := by cases hstep; rfl
    refine ⟨h.sound.shrinks hs, ?_, ?_, ?_⟩
    · intro id' todo' htodo
      cases hremoval'.symm.trans htodo
      refine ⟨hleaving'.there, hleaving'.queued, ?_⟩
      intro field' target' htarget'
      rcases hleaving'.todo field' target' htarget' with hdefault | hmem
      · exact .inl hdefault
      rcases List.mem_cons.mp hmem with heq | hmem
      · -- it has just been taken out of the index
        by_cases hdefault : target' = default
        · exact .inl hdefault
        obtain ⟨rfl, rfl⟩ := Prod.mk.inj heq
        have hholds : target' ∈ s'.holders id field' := by
          refine mem_holders_of_mem_expected htarget' ?_
          intro journal hjournal hadded
          exact hdefault (hleaving'.queued field' journal hjournal target' hadded)
        obtain ⟨hthere, hholds⟩ := mem_holders.mp hholds
        rw [hreferences, if_pos ⟨rfl, hs.entities ▸ hthere⟩] at hholds
        exact absurd rfl (mem_removeEntityReference.mp hholds).2
      · exact .inr hmem
    · intro id' todo' htodo
      cases hremoval'.symm.trans htodo
    · intro id' deletes sites hphase
      have hphase' : s.updates.phase = .deleting id' deletes sites := by cases hstep; exact hphase
      cases hremoval.symm.trans (h.deleting id' deletes sites hphase').1
  · cases hstep

/-! ### The second pass -/

theorem Consistent.getAllReferences (h : Consistent s) (hok : s.ok .getAllReferences)
    (hstep : s.step .getAllReferences = some s') : Consistent s' := by
  rw [step] at hstep
  split at hstep
  · next id hremoval =>
    cases hstep
    have hs : Shrinks s { s with removal := .breaking id (s.references id) } :=
      .of_eq rfl rfl rfl rfl rfl
    have hleaving := h.leaving id [] hremoval
    have hcomplete : s.IndexComplete id := by
      rw [ok, hremoval] at hok
      exact hok
    refine ⟨h.sound.shrinks hs, nofun, ?_, ?_⟩
    · intro id' todo htodo
      cases htodo
      refine ⟨hleaving.there, ?_, ?_, ?_⟩
      · intro field target htarget
        exact (hleaving.todo field target htarget).resolve_right not_mem_nil
      · intro source hsource hother
        exact (hcomplete source hsource hother).1
      · intro source hsource hother
        exact (hcomplete source hsource hother).2
    · intro id' deletes sites hphase
      cases hremoval.symm.trans (h.deleting id' deletes sites hphase).1
  · cases hstep

/-- A reference that is in no field any more need not be broken. -/
theorem Breaking.tail {source : Id} {todo : List (Id × EntityField)}
    (h : s.Breaking id ((source, field) :: todo))
    (hgone : source ∈ s.entities → source ≠ id → field ≠ .groupDisabledIds →
      id ∉ (s.fields source).ids field) : s.Breaking id todo where
  there := h.there
  unlisted := h.unlisted
  todo := by
    intro source' hsource' hother field' hfield' hmem
    rcases List.mem_cons.mp (h.todo source' hsource' hother field' hfield' hmem) with heq | htail
    · obtain ⟨rfl, rfl⟩ := Prod.mk.inj heq
      exact absurd hmem (hgone hsource' hother hfield')
    · exact htail
  once := h.once

theorem Consistent.removeReferenceFromSource (h : Consistent s)
    (hstep : s.step (.removeReferenceFromSource now) = some s') : Consistent s' := by
  rw [step] at hstep
  split at hstep
  · next id source field todo hremoval =>
    have hbreaking := h.breaking id _ hremoval
    have hdefault : id ≠ default := by
      rintro rfl
      exact h.sound.notDefault hbreaking.there
    have hdeleting : ∀ {id' deletes sites}, s.updates.phase ≠ .deleting id' deletes sites := by
      intro id' deletes sites hphase
      cases hremoval.symm.trans (h.deleting id' deletes sites hphase).1
    have hs : Shrinks s { s with removal := .breaking id todo } := .of_eq rfl rfl rfl rfl rfl
    have hbreaking₁ := hbreaking.shrinks hs
    have hsound₁ := h.sound.shrinks hs
    by_cases hsource : source ∈ s.entities
    · simp only [hsource, if_true] at hstep
      have heffect := applyChange_effect hstep
      have hquiet : Busy (· = default) (base _ source) _ (s.fields source) := hsound₁.busy hsource
      have htold := told_underLock _ (busy_removeReferenceFromSource hquiet rfl id field) now
      have hchange := hbreaking₁.change hsource heffect htold (fun _ x hx => hx) hdefault
      have hremoval' : s'.removal = .breaking id todo := heffect.removal
      refine ⟨hsound₁.change hsource heffect htold fun x hx => .inl hx, ?_, ?_, ?_⟩
      · intro id' todo' htodo
        cases hremoval'.symm.trans htodo
      · intro id' todo' htodo
        cases hremoval'.symm.trans htodo
        refine hchange.tail ?_
        intro _ hother hfield
        rw [heffect.fields, Function.update_self, ids_underLock]
        exact notMem_ids_removeReferenceFromSource (h.sound.quiet source hsource).security hdefault
          hfield (hbreaking.once source hsource hother)
      · intro id' deletes sites hphase
        exact absurd (heffect.deleting id' deletes sites hphase) hdeleting
    · simp only [hsource, if_false] at hstep
      cases hstep
      refine ⟨hsound₁, nofun, ?_, ?_⟩
      · intro id' todo' htodo
        cases htodo
        exact hbreaking₁.tail fun hthere => absurd hthere hsource
      · intro id' deletes sites hphase
        exact absurd hphase hdeleting
  · cases hstep

theorem unapplied_eq {updates updates' : UpdateSystem} {label : UpdateStep}
    (hstep : updates.step label = some updates') (htold : ∀ id changes, label ≠ .entityChanged id changes)
    (happlied : label ≠ .processIdReferences) : updates'.unapplied = updates.unapplied := by
  cases UpdateSystem.step_queueEffect hstep with
  | told id changes _ => exact absurd rfl (htold id changes)
  | applied _ _ => exact absurd rfl happlied
  | same _ _ hqueue => exact hqueue

theorem Consistent.eraseUpdate (h : Consistent s) (hstep : s.step .eraseUpdate = some s') :
    Consistent s' := by
  rw [step] at hstep
  split at hstep
  · next id hremoval =>
    obtain ⟨updates, hupdates, rfl⟩ := Option.map_eq_some_iff.mp hstep
    have hs : Shrinks s { s with updates := updates, removal := .idle } :=
      .of_eq rfl rfl rfl rfl (unapplied_eq hupdates nofun nofun)
    refine ⟨h.sound.shrinks hs, nofun, nofun, ?_⟩
    intro id' deletes sites hphase
    refine ⟨rfl, ?_⟩
    rcases UpdateSystem.step_phase_deleting hupdates hphase with hbefore | hlabel
    · cases hremoval.symm.trans (h.deleting id' deletes sites hbefore).1
    · cases hlabel
      exact (h.breaking id [] hremoval).shrinks hs
  · cases hstep

/-! ### An Entity is removed -/

/-- What is disabled in a group is in the group. -/
theorem Breaking.notMem_ids (h : s.Breaking id []) (hs : s.Sound) {source : Id}
    (hsource : source ∈ s.entities) (hother : source ≠ id) (field : EntityField) :
    id ∉ (s.fields source).ids field := by
  by_cases hfield : field = .groupDisabledIds
  · subst hfield
    intro hmem
    have hgroup : id ∈ (s.fields source).ids .groupIds :=
      (hs.quiet source hsource).disabled id hmem
    exact not_mem_nil (h.todo source hsource hother .groupIds nofun hgroup)
  · intro hmem
    exact not_mem_nil (h.todo source hsource hother field hfield hmem)

theorem Sound.deleteEntity (h : s.Sound) (hid : s.Breaking id [])
    (hentities : s'.entities = s.entities.erase id) (hfields : s'.fields = s.fields)
    (hreferences : s'.references = Function.update s.references id [])
    (hremoved : s'.removed = insert id s.removed)
    (hqueue : s'.updates.unapplied = s.updates.unapplied) : s'.Sound := by
  have hexpected : ∀ source field, s'.expected source field ⊆ s.expected source field := by
    refine expected_subset (queued_eq hqueue) ?_
    intro source field target htarget
    rw [mem_holders, hentities, hreferences] at htarget
    obtain ⟨hthere, hmem⟩ := htarget
    obtain ⟨hne, hthere⟩ := mem_erase.mp hthere
    rw [Function.update_of_ne hne] at hmem
    exact mem_holders.mpr ⟨hthere, hmem⟩
  refine ⟨?_, ?_, ?_, ?_, ?_, ?_, ?_⟩
  · rw [hentities, hfields]
    intro id' hid'
    exact h.quiet id' (Finset.mem_of_mem_erase hid')
  · rw [hentities, hfields]
    intro id' hid' field target htarget
    exact h.known id' (Finset.mem_of_mem_erase hid') field target (hexpected id' field htarget)
  · rw [hentities]
    intro id' hid' field target htarget
    have htarget := hexpected id' field htarget
    by_cases heq : id' = id
    · exact hid.unlisted field target (heq ▸ htarget)
    · exact h.gone id' (fun hmem => hid' (mem_erase.mpr ⟨heq, hmem⟩)) field target htarget
  · rw [hentities, hfields, hremoved]
    intro id' hid' field target htarget hmem
    obtain ⟨hne, hthere⟩ := mem_erase.mp hid'
    rcases mem_insert.mp hmem with rfl | hmem
    · exact hid.notMem_ids h hthere hne field htarget
    · exact h.present id' hthere field target htarget hmem
  · rw [hentities, hremoved]
    intro id' hid'
    rcases mem_insert.mp hid' with rfl | hid'
    · refine ⟨notMem_erase id' s.entities, ?_⟩
      rintro rfl
      exact h.notDefault hid.there
    · obtain ⟨hnot, hdefault⟩ := h.removed id' hid'
      exact ⟨fun hmem => hnot (Finset.mem_of_mem_erase hmem), hdefault⟩
  · rw [hentities, hreferences]
    intro id' hid'
    by_cases heq : id' = id
    · rw [heq, Function.update_self]
    · rw [Function.update_of_ne heq]
      exact h.references id' fun hmem => hid' (mem_erase.mpr ⟨heq, hmem⟩)
  · rw [hentities]
    exact fun hmem => h.notDefault (Finset.mem_of_mem_erase hmem)

theorem Consistent.deleteEntity (h : Consistent s) {inUse : Bool}
    (hstep : s.step (.deleteEntity inUse) = some s') : Consistent s' := by
  rw [step] at hstep
  split at hstep
  · next id deletes sites hidle hphase =>
    obtain ⟨updates, hupdates, heq⟩ := Option.map_eq_some_iff.mp hstep
    have hqueue : updates.unapplied = s.updates.unapplied :=
      unapplied_eq hupdates (by rintro _ _ ⟨⟩) (by rintro ⟨⟩)
    have hphase' : updates.phase = .committing [] deletes sites := by
      rw [UpdateSystem.step, hphase] at hupdates
      cases hupdates
      rfl
    have hremoval : s'.removal = .idle := by
      subst heq
      split <;> exact hidle
    have hs'phase : s'.updates.phase = .committing [] deletes sites := by
      subst heq
      split <;> exact hphase'
    have hsound : s'.Sound := by
      subst heq
      cases inUse with
      | true => exact h.sound.shrinks (.of_eq rfl rfl rfl rfl hqueue)
      | false => exact h.sound.deleteEntity (h.deleting id deletes sites hphase).2 rfl rfl rfl rfl hqueue
    refine ⟨hsound, ?_, ?_, ?_⟩
    · intro id' todo htodo
      cases hremoval.symm.trans htodo
    · intro id' todo htodo
      cases hremoval.symm.trans htodo
    · intro id' deletes' sites' hdeleting
      cases hs'phase.symm.trans hdeleting
  · cases hstep

/-- **Every step that the guard allows keeps the invariant.** -/
theorem Consistent.step (h : Consistent s) {label : ReferenceStep} (hok : s.ok label)
    (hstep : s.step label = some s') : Consistent s' := by
  cases label with
  | newEntity id now => exact h.newEntity hstep
  | change id calls now => exact h.changeFields hok hstep
  | update label =>
    rw [ReferenceSystem.step] at hstep
    split at hstep
    · next hother =>
      obtain ⟨updates, hupdates, rfl⟩ := Option.map_eq_some_iff.mp hstep
      exact h.update hother hupdates
    · cases hstep
  | processIdReferences => exact h.processIdReferences hstep
  | getEntityDeleted id => exact h.getEntityDeleted hok hstep
  | removeReference => exact h.removeReference hstep
  | getAllReferences => exact h.getAllReferences hok hstep
  | removeReferenceFromSource now => exact h.removeReferenceFromSource hstep
  | eraseUpdate => exact h.eraseUpdate hstep
  | deleteEntity inUse => exact h.deleteEntity hstep

theorem consistent_of_reachable (h : Reachable step ok init s) : Consistent s :=
  h.invariant consistent_init fun _ _ _ hs hok hstep => hs.step hok hstep

/-- What has been removed is listed nowhere and in no field. -/
theorem Consistent.referencesGone (h : Consistent s) : s.ReferencesGone := by
  intro hqueue id hid source hsource field
  obtain ⟨hnot, -⟩ := h.sound.removed id hid
  refine ⟨fun hmem => h.sound.present source hsource field id hmem hid, ?_⟩
  intro hmem
  have hexpected : s.expected id field = s.holders id field := by
    rw [expected, queued, hqueue]
    rfl
  have hdefault := h.sound.gone id hnot field source
    (hexpected ▸ mem_holders.mpr ⟨hsource, hmem⟩)
  exact h.sound.notDefault (hdefault ▸ hsource)

/-- **Whatever is changed and deleted**, as long as nothing gets past the passes of the
manager: no Entity refers to one that has been removed, and no index lists one. -/
theorem referencesGone_of_reachable (h : Reachable step ok init s) : s.ReferencesGone :=
  (consistent_of_reachable h).referencesGone

/-- An owner is deleted, and the Entity that it owned has no owner. -/
theorem referencesGone_owner : ∃ s : ReferenceSystem, s.ReferencesGone ∧ s.updates.unapplied.length = 0 ∧
    s.removed = {⟨1, 1⟩} ∧ s.entities = {⟨1, 2⟩} ∧ (s.fields ⟨1, 2⟩).ids .owner = [default] := by
  have hrun : (run (guarded step ok) init [.newEntity ⟨1, 1⟩ 0, .newEntity ⟨1, 2⟩ 0,
      .change ⟨1, 2⟩ [.setEntityOwner ⟨1, 1⟩] 0, .update .takeImmediate, .processIdReferences,
      .update .mergeImmediate, .update (.setDeletedFlag ⟨1, 1⟩),
      .update (.entitiesDeleted {⟨1, 1⟩}), .update .takePending, .update .commitEntity,
      .getEntityDeleted ⟨1, 1⟩, .removeReference, .removeReference, .removeReference,
      .removeReference, .removeReference, .removeReference, .removeReference, .getAllReferences,
      .removeReferenceFromSource 0, .eraseUpdate, .deleteEntity false, .update .finishCommits,
      .update .exitTest, .update .takeImmediate, .processIdReferences]).map (fun s =>
        (s.updates.unapplied.length, s.removed, s.entities, (s.fields ⟨1, 2⟩).ids .owner)) =
      some (0, {⟨1, 1⟩}, {⟨1, 2⟩}, [default]) := by decide +kernel
  obtain ⟨s, hs, heq⟩ := Option.map_eq_some_iff.mp hrun
  simp only [Prod.mk.injEq] at heq
  exact ⟨s, referencesGone_of_reachable (reachable_of_run_guarded .init hs), heq⟩

/-- A group is deleted, and the member that is disabled goes on listing it. -/
theorem referencesGone_broken : ∃ s,
    run step init [.newEntity ⟨1, 1⟩ 0, .newEntity ⟨1, 2⟩ 0,
      .change ⟨1, 1⟩ [.addToGroup ⟨1, 2⟩, .addToDisabledGroup ⟨1, 2⟩] 0,
      .update .takeImmediate, .processIdReferences, .update .mergeImmediate,
      .update (.setDeletedFlag ⟨1, 1⟩), .update (.entitiesDeleted {⟨1, 1⟩}), .update .takePending,
      .update .commitEntity, .getEntityDeleted ⟨1, 1⟩, .removeReference, .removeReference,
      .removeReference, .removeReference, .removeReference, .removeReference, .removeReference,
      .removeReference, .getAllReferences, .eraseUpdate, .deleteEntity false] = some s ∧
    s.updates.unapplied = [] ∧ s.removed = {⟨1, 1⟩} ∧ s.entities = {⟨1, 2⟩} ∧
    s.references ⟨1, 2⟩ = [(⟨1, 1⟩, .groupDisabledIds)] ∧ ¬ s.ReferencesGone := by
  have hrun : (run step init [.newEntity ⟨1, 1⟩ 0, .newEntity ⟨1, 2⟩ 0,
      .change ⟨1, 1⟩ [.addToGroup ⟨1, 2⟩, .addToDisabledGroup ⟨1, 2⟩] 0,
      .update .takeImmediate, .processIdReferences, .update .mergeImmediate,
      .update (.setDeletedFlag ⟨1, 1⟩), .update (.entitiesDeleted {⟨1, 1⟩}), .update .takePending,
      .update .commitEntity, .getEntityDeleted ⟨1, 1⟩, .removeReference, .removeReference,
      .removeReference, .removeReference, .removeReference, .removeReference, .removeReference,
      .removeReference, .getAllReferences, .eraseUpdate, .deleteEntity false]).map (fun s =>
        (s.updates.unapplied.length, s.removed, s.entities, s.references ⟨1, 2⟩)) =
      some (0, {⟨1, 1⟩}, {⟨1, 2⟩}, [(⟨1, 1⟩, .groupDisabledIds)]) := by decide +kernel
  obtain ⟨s, hs, heq⟩ := Option.map_eq_some_iff.mp hrun
  simp only [Prod.mk.injEq, List.length_eq_zero_iff] at heq
  obtain ⟨hqueue, hremoved, hentities, hreferences⟩ := heq
  refine ⟨s, hs, hqueue, hremoved, hentities, hreferences, ?_⟩
  intro hgone
  have hlisted := (hgone hqueue ⟨1, 1⟩ (hremoved ▸ by decide) ⟨1, 2⟩ (hentities ▸ by decide)
    .groupDisabledIds).2
  rw [hreferences] at hlisted
  exact hlisted List.mem_cons_self

end ReferenceSystem

end Mutgos.DbInterface
