import Mutgos.DbInterface.DeleteSystem

/-!
# What becomes of deleted Entities

The update thread uses no reference that is null, and every Entity that has been given the
deleted flag is removed in the end or is still pending, in every run that avoids three
things.

Whether the deletion of an Entity is pending is asked of a set that the update thread
empties before it does the work.  While it is at work the Entity can still be found, so it
may be asked for once more, and come up again after it has been removed: then the reference
to it is null, and its dirty flag is cleared all the same.  A table of references may name an
Entity that has been removed, whose reference is then null as well, and is asked for the ID
that is logged.  And `delete_entity_db` says that the row is gone where SQLite has not
deleted it.

## Main results

* `processDbCommits_accounted` — **no null reference is used, and no deletion is lost, in
  every run that avoids the three.**
-/

namespace Mutgos.DbInterface

open DbTypes Function CommitPhase Option Finset

namespace UpdateManager

@[simp] theorem pendingDeletes_entityChanged (manager : UpdateManager) (id : Id)
    (changes : EntityChanges) :
    (manager.entityChanged id changes).pendingDeletes = manager.pendingDeletes := by
  rw [entityChanged]
  split <;> rfl

end UpdateManager

namespace DeleteSystem

/-! ### What is promised -/

/-- The Entity is neither in the database nor in memory. -/
def Removed (s : DeleteSystem) (id : Id) : Prop :=
  (s.rows id).isSome = false ∧ s.isLoaded id = false

/-- The Entities whose deletion a call is about to ask for. -/
def callEntities (s : DeleteSystem) (t : Caller) : Finset Id :=
  (s.calls t).elim ∅ DeleteCall.entities

/-- How many steps a call has before it. -/
def callRemaining (s : DeleteSystem) (t : Caller) : ℕ := (s.calls t).elim 0 DeleteCall.remaining

/-- The update thread, or a call, is at work on the Entity. -/
def InHand (s : DeleteSystem) (id : Id) : Prop :=
  id ∈ s.phase.rest ∨ s.phase.current? = some id ∨ ∃ t, id ∈ s.callEntities t

/-- No deletion is lost. -/
def Accounted (s : DeleteSystem) : Prop :=
  ∀ id ∈ s.marked, s.Removed id ∨ id ∈ s.manager.pendingDeletes ∨ s.InHand id

/-- Whoever is at work comes to an end with it. -/
structure Progresses (s : DeleteSystem) : Prop where
  /-- The thread does something about what it has taken. -/
  commits : ∀ a s', s.step a = some s' → a.commits = true →
    s'.phase.remaining < s.phase.remaining
  /-- Nobody else does. -/
  commits_frame : ∀ a s', s.step a = some s' → a.commits = false → a ≠ .takePending →
    s'.phase = s.phase
  /-- The thread can always go on. -/
  commits_enabled : s.phase ≠ .idle → ∃ a, a.commits = true ∧ (s.step a).isSome
  /-- A call does something about what it has found. -/
  marks : ∀ t a s', s.step a = some s' → a.marks t = true → s'.callRemaining t < s.callRemaining t
  /-- Nobody else does. -/
  marks_frame : ∀ t a s', s.step a = some s' → a.marks t = false → a ≠ .searchDone t →
    s'.callRemaining t = s.callRemaining t
  /-- A call can always go on. -/
  marks_enabled : ∀ t, s.callRemaining t ≠ 0 → ∃ a, a.marks t = true ∧ (s.step a).isSome

/-- The Entity is in memory, or SQLite answers. -/
def Readable (s : DeleteSystem) (id : Id) (readable : Bool) : Prop :=
  s.isLoaded id = true ∨ readable = true

/-- What a run has to avoid. -/
def ok (s : DeleteSystem) : DeleteStep → Prop
  -- what is queued has not been removed since it was found
  | .entitiesDeleted t => ∀ id ∈ s.callEntities t, (s.rows id).isSome = true
  -- what is removed has not been queued again
  | .deleteRow deleted => ∀ id ∈ s.phase.row?, s.isLoaded id = false →
      deleted = true ∧ id ∉ s.manager.pendingDeletes
  -- what is removed is not referenced by what is not there
  | .getDeleted id readable => s.Readable id readable ∧
      ∀ reference ∈ s.references id, (s.rows reference.1).isSome = true ∧
        s.Readable reference.1 readable
  | _ => True

instance (s : DeleteSystem) (id : Id) (readable : Bool) : Decidable (s.Readable id readable) :=
  inferInstanceAs (Decidable (_ ∨ _))

instance (s : DeleteSystem) : ∀ a, Decidable (s.ok a)
  | .entitiesDeleted _ => inferInstanceAs (Decidable (∀ id ∈ _, _))
  | .deleteRow _ => inferInstanceAs (Decidable (∀ id ∈ _, _))
  | .getDeleted .. => inferInstanceAs (Decidable (_ ∧ _))
  | .deleteEntity .. | .searchNext .. | .searchDone _ | .setDeletedFlag .. | .processImmediate
  | .takePending | .getUpdated _ | .commitEntity _ | .clearDirty | .eraseUpdate | .deleteCache _
  | .reinsert | .finish | .newEntity _ | .load .. | .change .. | .setReferences .. =>
    inferInstanceAs (Decidable True)

/-! ### The invariant -/

/-- The invariant. -/
structure Inv (s : DeleteSystem) : Prop where
  rows_nondefault : ∀ id, (s.rows id).isSome = true → id.isDefault = false
  memory_rows : ∀ id, s.isLoaded id = true → (s.rows id).isSome = true
  pending_rows : ∀ id ∈ s.manager.pendingDeletes, (s.rows id).isSome = true
  rest_rows : ∀ id ∈ s.phase.rest, (s.rows id).isSome = true
  current_rows : ∀ id, s.phase.current? = some id → (s.rows id).isSome = true ∧ id ∉ s.phase.rest
  valid : ∀ id valid deletes, s.phase = .clearing id valid deletes → valid = true
  marking : ∀ t todo entities, s.calls t = some (.marking todo entities) → todo ⊆ entities
  accounted : s.Accounted
  not_null : s.nullDereferenced = false

/-- Entities have been read, and nothing else has happened. -/
structure Reads (s s' : DeleteSystem) : Prop where
  rows : s'.rows = s.rows
  references : s'.references = s.references
  pendingDeletes : s'.manager.pendingDeletes = s.manager.pendingDeletes
  calls : s'.calls = s.calls
  phase : s'.phase = s.phase
  marked : s'.marked = s.marked
  isLoaded : ∀ id, s.isLoaded id = true → s'.isLoaded id = true
  isLoaded_rows : ∀ id, s'.isLoaded id = true → s.isLoaded id = true ∨ (s.rows id).isSome = true

theorem Reads.refl (s : DeleteSystem) : s.Reads s :=
  ⟨rfl, rfl, rfl, rfl, rfl, rfl, fun _ h => h, fun _ h => .inl h⟩

theorem Reads.trans {s s' s'' : DeleteSystem} (h : s.Reads s') (h' : s'.Reads s'') :
    s.Reads s'' where
  rows := h'.rows.trans h.rows
  references := h'.references.trans h.references
  pendingDeletes := h'.pendingDeletes.trans h.pendingDeletes
  calls := h'.calls.trans h.calls
  phase := h'.phase.trans h.phase
  marked := h'.marked.trans h.marked
  isLoaded id hid := h'.isLoaded id (h.isLoaded id hid)
  isLoaded_rows id hid := by
    rcases h'.isLoaded_rows id hid with hid | hid
    · exact h.isLoaded_rows id hid
    · exact .inr (h.rows ▸ hid)

section Reading

variable {s : DeleteSystem} {id : Id} {readable : Bool}

theorem isLoaded_update (memory : Id → Option LoadedEntity) (id id' : Id)
    (f : LoadedEntity → LoadedEntity) :
    (update memory id ((memory id).map f) id').isSome = (memory id').isSome := by
  by_cases h : id' = id
  · subst h
    simp
  · simp [h]

/-- An Entity changes. -/
theorem reads_changeEntity (s : DeleteSystem) (id : Id) (change : LoadedEntity → LoadedEntity)
    (changes : EntityChanges) : s.Reads (s.changeEntity id change changes) := by
  have hloaded : ∀ id', (s.changeEntity id change changes).isLoaded id' = s.isLoaded id' :=
    fun id' => isLoaded_update s.memory id id' change
  refine ⟨rfl, rfl, UpdateManager.pendingDeletes_entityChanged .., rfl, rfl, rfl, ?_, ?_⟩
  · intro id' hid'
    rw [hloaded]
    exact hid'
  · intro id' hid'
    rw [hloaded] at hid'
    exact .inl hid'

theorem reads_getEntityDeleted (s : DeleteSystem) (id : Id) (readable : Bool) :
    s.Reads (s.getEntityDeleted id readable) := by
  rw [getEntityDeleted]
  split
  · rename_i deletedFlag hmemory hrow
    split
    · refine Reads.trans ?_ (reads_changeEntity _ id _ _)
      refine ⟨rfl, rfl, rfl, rfl, rfl, rfl, fun id' hid' => ?_, fun id' hid' => ?_⟩
      · by_cases h : id' = id
        · subst h
          simp [isLoaded]
        · simpa [isLoaded, h] using hid'
      · by_cases h : id' = id
        · subst h
          exact .inr (by rw [hrow]; rfl)
        · refine .inl ?_
          simpa [isLoaded, h] using hid'
    · exact .refl s
  · exact .refl s

/-- An Entity that is there can be read, if SQLite answers. -/
theorem isLoaded_getEntityDeleted (hrow : (s.rows id).isSome = true)
    (hdefault : id.isDefault = false) (hreadable : s.Readable id readable) :
    (s.getEntityDeleted id readable).isLoaded id = true := by
  cases hmemory : s.memory id with
  | some entity =>
    refine (reads_getEntityDeleted s id readable).isLoaded id ?_
    rw [isLoaded, hmemory]
    rfl
  | none =>
    rcases hreadable with hloaded | rfl
    · rw [isLoaded, hmemory] at hloaded
      cases hloaded
    · obtain ⟨deletedFlag, hflag⟩ := isSome_iff_exists.mp hrow
      simp [getEntityDeleted, hmemory, hflag, hdefault, setAccessedTimestamp, changeEntity,
        isLoaded]

theorem reads_removeReferenceFromSource (readable : Bool) (s : DeleteSystem)
    (reference : Id × EntityField) : s.Reads (s.removeReferenceFromSource readable reference) := by
  have hread := reads_getEntityDeleted s reference.1 readable
  rw [removeReferenceFromSource]
  split
  · exact hread
  · exact ⟨hread.rows, hread.references, hread.pendingDeletes, hread.calls, hread.phase,
      hread.marked, hread.isLoaded, hread.isLoaded_rows⟩

theorem reads_foldl (readable : Bool) : ∀ (references : EntityReferences) (s : DeleteSystem),
    s.Reads (references.foldl (removeReferenceFromSource readable) s) := by
  intro references
  induction references with
  | nil => exact .refl
  | cons reference references ih =>
    intro s
    exact (reads_removeReferenceFromSource readable s reference).trans (ih _)

end Reading

/-! ### Steps -/

theorem notNull_getEntityDeleted (s : DeleteSystem) (id : Id) (readable : Bool) :
    (s.getEntityDeleted id readable).nullDereferenced = s.nullDereferenced := by
  rw [getEntityDeleted]
  split
  · split <;> rfl
  · rfl

/-- A thread of calls, after one of them. -/
theorem callEntities_update (s : DeleteSystem) (t t' : Caller) (call : Option DeleteCall) :
    callEntities { s with calls := update s.calls t call } t' =
      if t' = t then call.elim ∅ DeleteCall.entities else s.callEntities t' := by
  by_cases h : t' = t
  · subst h
    simp [callEntities]
  · simp [callEntities, h]

namespace Inv

variable {s : DeleteSystem} {s' : DeleteSystem} {a : DeleteStep}

/-- What is removed stays so while others read. -/
theorem removed_of_reads {id : Id} (hreads : s.Reads s') (hremoved : s.Removed id) :
    s'.Removed id := by
  obtain ⟨hrow, hmemory⟩ := hremoved
  refine ⟨hreads.rows ▸ hrow, ?_⟩
  rw [Bool.eq_false_iff]
  intro hloaded
  rcases hreads.isLoaded_rows id hloaded with h | h
  · rw [hmemory] at h
    cases h
  · rw [hrow] at h
    cases h

section

variable (h : s.Inv)
include h

/-- Reading Entities keeps the invariant. -/
theorem of_reads (hreads : s.Reads s') (hnull : s'.nullDereferenced = false) : s'.Inv where
  rows_nondefault := hreads.rows ▸ h.rows_nondefault
  memory_rows id hid := by
    rw [hreads.rows]
    rcases hreads.isLoaded_rows id hid with hid | hid
    · exact h.memory_rows id hid
    · exact hid
  pending_rows := by
    rw [hreads.pendingDeletes, hreads.rows]
    exact h.pending_rows
  rest_rows := by
    rw [hreads.phase, hreads.rows]
    exact h.rest_rows
  current_rows := by
    rw [hreads.phase, hreads.rows]
    exact h.current_rows
  valid := hreads.phase ▸ h.valid
  marking := hreads.calls ▸ h.marking
  accounted id hid := by
    rw [hreads.marked] at hid
    have hcalls : ∀ t, s'.callEntities t = s.callEntities t := fun t => by
      rw [callEntities, callEntities, hreads.calls]
    simp only [InHand, hreads.pendingDeletes, hreads.phase, hcalls]
    exact (h.accounted id hid).imp_left (removed_of_reads hreads)
  not_null := hnull

theorem getEntityDeleted (id : Id) (readable : Bool) : (s.getEntityDeleted id readable).Inv :=
  h.of_reads (reads_getEntityDeleted s id readable)
    ((notNull_getEntityDeleted s id readable).trans h.not_null)

theorem changeEntity (id : Id) (change : LoadedEntity → LoadedEntity) (changes : EntityChanges) :
    (s.changeEntity id change changes).Inv :=
  h.of_reads (reads_changeEntity s id change changes) h.not_null

/-- A call goes on, and does not forget what it has found. -/
theorem setCall (t : Caller) (call : Option DeleteCall)
    (hmarking : ∀ todo entities, call = some (.marking todo entities) → todo ⊆ entities)
    (hkept : ∀ id ∈ s.callEntities t,
      id ∈ call.elim ∅ DeleteCall.entities ∨ id ∈ s.manager.pendingDeletes) :
    Inv { s with calls := update s.calls t call } := by
  refine { h with
    marking := fun t' todo entities ht' => ?_
    accounted := fun id hid => ?_ }
  · change update s.calls t call t' = _ at ht'
    by_cases heq : t' = t
    · subst heq
      rw [update_self] at ht'
      exact hmarking todo entities ht'
    · rw [update_of_ne heq] at ht'
      exact h.marking t' todo entities ht'
  · rcases h.accounted id hid with hremoved | hpending | hrest | hcurrent | ⟨t', ht'⟩
    · exact .inl hremoved
    · exact .inr (.inl hpending)
    · exact .inr (.inr (.inl hrest))
    · exact .inr (.inr (.inr (.inl hcurrent)))
    · by_cases heq : t' = t
      · subst heq
        rcases hkept id ht' with hin | hpending
        · refine .inr (.inr (.inr (.inr ⟨t', ?_⟩)))
          rw [callEntities_update, if_pos rfl]
          exact hin
        · exact .inr (.inl hpending)
      · refine .inr (.inr (.inr (.inr ⟨t', ?_⟩)))
        rw [callEntities_update, if_neg heq]
        exact ht'

/-- The thread goes on, and does not forget what it has taken. -/
theorem setPhase (phase : CommitPhase) (hrest : ∀ id ∈ phase.rest, (s.rows id).isSome = true)
    (hcurrent : ∀ id, phase.current? = some id → (s.rows id).isSome = true ∧ id ∉ phase.rest)
    (hvalid : ∀ id valid deletes, phase = .clearing id valid deletes → valid = true)
    (hkept : ∀ id, id ∈ s.phase.rest ∨ s.phase.current? = some id →
      s.Removed id ∨ id ∈ s.manager.pendingDeletes ∨ id ∈ phase.rest ∨ phase.current? = some id) :
    Inv { s with phase := phase } := by
  refine { h with
    rest_rows := hrest
    current_rows := hcurrent
    valid := hvalid
    accounted := fun id hid => ?_ }
  have hinHand : id ∈ s.phase.rest ∨ s.phase.current? = some id →
      s.Removed id ∨ id ∈ s.manager.pendingDeletes ∨ InHand { s with phase := phase } id := by
    intro hphase
    rcases hkept id hphase with hremoved | hpending | hrest | hcurrent
    · exact .inl hremoved
    · exact .inr (.inl hpending)
    · exact .inr (.inr (.inl hrest))
    · exact .inr (.inr (.inr (.inl hcurrent)))
  rcases h.accounted id hid with hremoved | hpending | hrest | hcurrent | hcall
  · exact .inl hremoved
  · exact .inr (.inl hpending)
  · exact hinHand (.inl hrest)
  · exact hinHand (.inr hcurrent)
  · exact .inr (.inr (.inr (.inr hcall)))

/-- The thread goes on with the same Entities. -/
theorem setPhase_of_eq (phase : CommitPhase) (hrest : phase.rest = s.phase.rest)
    (hcurrent : phase.current? = s.phase.current?)
    (hvalid : ∀ id valid deletes, phase ≠ .clearing id valid deletes) :
    Inv { s with phase := phase } := by
  refine h.setPhase phase ?_ ?_ ?_ fun id hid => ?_
  · rw [hrest]
    exact h.rest_rows
  · rw [hrest, hcurrent]
    exact h.current_rows
  · intro id valid deletes heq
    exact absurd heq (hvalid id valid deletes)
  · rw [hrest, hcurrent]
    exact .inr (.inr hid)

/-- What is pending stays so, and more may be, if it is there. -/
theorem setManager (manager : UpdateManager)
    (hkept : s.manager.pendingDeletes ⊆ manager.pendingDeletes)
    (hrows : ∀ id ∈ manager.pendingDeletes,
      id ∈ s.manager.pendingDeletes ∨ (s.rows id).isSome = true) :
    Inv { s with manager := manager } := by
  refine { h with
    pending_rows := fun id hid => ?_
    accounted := fun id hid => ?_ }
  · rcases hrows id hid with hid | hid
    · exact h.pending_rows id hid
    · exact hid
  · exact (h.accounted id hid).imp_right (Or.imp_left fun hpending => hkept hpending)

/-- The manager forgets updates. -/
theorem setUpdates (manager : UpdateManager)
    (hdeletes : manager.pendingDeletes = s.manager.pendingDeletes) :
    Inv { s with manager := manager } :=
  h.setManager manager hdeletes.symm.subset fun _ hid => .inl (hdeletes ▸ hid)

/-- An Entity that is not in hand for anything else loses what is in memory of it. -/
theorem forget (id : Id) : Inv { s with memory := update s.memory id none } := by
  refine { h with
    memory_rows := fun id' hid' => h.memory_rows id' ?_
    accounted := fun id' hid' => (h.accounted id' hid').imp_left fun hremoved => ?_ }
  · change (update s.memory id none id').isSome = true at hid'
    by_cases heq : id' = id
    · subst heq
      rw [update_self] at hid'
      cases hid'
    · rw [update_of_ne heq] at hid'
      exact hid'
  · obtain ⟨hrow, hmemory⟩ := hremoved
    refine ⟨hrow, ?_⟩
    change (update s.memory id none id').isSome = false
    by_cases heq : id' = id
    · rw [heq, update_self]
      rfl
    · rw [update_of_ne heq]
      exact hmemory

/-- An Entity is written to the database. -/
theorem commitEntity (id : Id) : (s.commitEntity id).Inv := by
  rw [DeleteSystem.commitEntity]
  split
  · exact h
  · rename_i entity hentity
    have hrows : ∀ id', (update s.rows id ((s.rows id).map fun _ => entity.deletedFlag)
        id').isSome = (s.rows id').isSome := by
      intro id'
      by_cases heq : id' = id
      · subst heq
        simp
      · simp [heq]
    have hmemory : ∀ id', (update s.memory id (some { entity with dirty := false })
        id').isSome = (s.memory id').isSome := by
      intro id'
      by_cases heq : id' = id
      · subst heq
        simp [hentity]
      · simp [heq]
    refine { h with
      rows_nondefault := fun id' hid' => h.rows_nondefault id' ((hrows id').symm.trans hid')
      memory_rows := fun id' hid' =>
        (hrows id').trans (h.memory_rows id' ((hmemory id').symm.trans hid'))
      pending_rows := fun id' hid' => (hrows id').trans (h.pending_rows id' hid')
      rest_rows := fun id' hid' => (hrows id').trans (h.rest_rows id' hid')
      current_rows := fun id' hid' => ?_
      accounted := fun id' hid' => (h.accounted id' hid').imp_left fun hremoved => ?_ }
    · obtain ⟨hrow, hnot⟩ := h.current_rows id' hid'
      exact ⟨(hrows id').trans hrow, hnot⟩
    · obtain ⟨hrow, hmemory'⟩ := hremoved
      exact ⟨(hrows id').trans hrow, (hmemory id').trans hmemory'⟩

/-- An Entity is given the deleted flag by a call that has found it. -/
theorem markEntity {t : Caller} {id : Id} (readable : Bool) (ht : id ∈ s.callEntities t) :
    (s.markEntity id readable).Inv := by
  have hread := h.getEntityDeleted id readable
  rw [DeleteSystem.markEntity]
  split
  · have hchanged := hread.changeEntity id (fun _ => ⟨true, true⟩)
      ⟨{.deletedFlag, .updatedTimestamp}, .empty, fun _ => none⟩
    refine { hchanged with accounted := fun id' hid' => ?_ }
    rcases mem_insert.mp hid' with rfl | hid'
    · refine .inr (.inr (.inr (.inr ⟨t, ?_⟩)))
      have hcalls := (reads_getEntityDeleted s id' readable).calls
      change id' ∈ ((s.getEntityDeleted id' readable).calls t).elim ∅ DeleteCall.entities
      rw [hcalls]
      exact ht
    · exact hchanged.accounted id' hid'
  · exact hread

/-- The row of an Entity goes away, when nobody has asked for it again. -/
theorem deleteRow {id : Id} {deletes : Finset Id} (hphase : s.phase = .deletingRow id deletes)
    (hloaded : s.isLoaded id = false) (hpending : id ∉ s.manager.pendingDeletes) :
    Inv { s with
      rows := update s.rows id none
      phase := .committing [] deletes } := by
  have hrest : s.phase.rest = deletes := by rw [hphase]; rfl
  have hcurrent : s.phase.current? = some id := by rw [hphase]; rfl
  have hnot := (h.current_rows id hcurrent).2
  rw [hrest] at hnot
  have hkept : ∀ id', id' ≠ id → (s.rows id').isSome = true →
      (update s.rows id none id').isSome = true := by
    intro id' hne hrow
    rw [update_of_ne hne]
    exact hrow
  have hrows : ∀ id', (update s.rows id none id').isSome = true →
      (s.rows id').isSome = true := by
    intro id' hid'
    by_cases heq : id' = id
    · rw [heq, update_self] at hid'
      cases hid'
    · rw [update_of_ne heq] at hid'
      exact hid'
  refine { h with
    rows_nondefault := fun id' hid' => h.rows_nondefault id' (hrows id' hid')
    memory_rows := fun id' hid' => hkept id' ?_ (h.memory_rows id' hid')
    pending_rows := fun id' hid' => hkept id' ?_ (h.pending_rows id' hid')
    rest_rows := fun id' hid' => hkept id' ?_ (h.rest_rows id' (hrest ▸ hid'))
    current_rows := nofun
    valid := nofun
    accounted := fun id' hid' => ?_ }
  · rintro rfl
    have hloaded' : s.isLoaded id' = true := hid'
    rw [hloaded] at hloaded'
    cases hloaded'
  · rintro rfl
    exact hpending hid'
  · rintro rfl
    exact hnot hid'
  · by_cases heq : id' = id
    · subst heq
      refine .inl ⟨?_, hloaded⟩
      change (update s.rows id' none id').isSome = false
      rw [update_self]
      rfl
    · rcases h.accounted id' hid' with ⟨hrow, hmemory⟩ | hpending' | hin | hcur | hcall
      · refine .inl ⟨?_, hmemory⟩
        change (update s.rows id none id').isSome = false
        rw [update_of_ne heq]
        exact hrow
      · exact .inr (.inl hpending')
      · exact .inr (.inr (.inl (hrest ▸ hin)))
      · rw [hcurrent] at hcur
        exact absurd (Option.some.inj hcur).symm heq
      · exact .inr (.inr (.inr (.inr hcall)))

/-- A new Entity. -/
theorem newEntity {id : Id} (hdefault : id.isDefault = false) :
    Inv { s with
      rows := update s.rows id (some false)
      memory := update s.memory id (some ⟨false, true⟩)
      references := update s.references id []
      marked := s.marked.erase id } := by
  have hrows : ∀ id', (s.rows id').isSome = true →
      (update s.rows id (some false) id').isSome = true := by
    intro id' hid'
    by_cases heq : id' = id
    · rw [heq, update_self]
      rfl
    · rw [update_of_ne heq]
      exact hid'
  refine { h with
    rows_nondefault := fun id' hid' => ?_
    memory_rows := fun id' hid' => ?_
    pending_rows := fun id' hid' => hrows id' (h.pending_rows id' hid')
    rest_rows := fun id' hid' => hrows id' (h.rest_rows id' hid')
    current_rows := fun id' hid' => ?_
    accounted := fun id' hid' => ?_ }
  · change (update s.rows id (some false) id').isSome = true at hid'
    by_cases heq : id' = id
    · rw [heq, hdefault]
    · rw [update_of_ne heq] at hid'
      exact h.rows_nondefault id' hid'
  · change (update s.memory id (some ⟨false, true⟩) id').isSome = true at hid'
    by_cases heq : id' = id
    · change (update s.rows id (some false) id').isSome = true
      rw [heq, update_self]
      rfl
    · rw [update_of_ne heq] at hid'
      exact hrows id' (h.memory_rows id' hid')
  · obtain ⟨hrow, hnot⟩ := h.current_rows id' hid'
    exact ⟨hrows id' hrow, hnot⟩
  · obtain ⟨hne, hid'⟩ := Finset.mem_erase.mp hid'
    refine (h.accounted id' hid').imp_left fun hremoved => ?_
    simpa [Removed, isLoaded, hne] using hremoved

end

/-- The sources of references are all there. -/
theorem removeReferences (readable : Bool) : ∀ (references : EntityReferences) {s : DeleteSystem},
    s.Inv → (∀ reference ∈ references, (s.rows reference.1).isSome = true ∧
      s.Readable reference.1 readable) →
    (references.foldl (removeReferenceFromSource readable) s).Inv := by
  intro references
  induction references with
  | nil =>
    intro s h _
    exact h
  | cons reference references ih =>
    intro s h hsources
    obtain ⟨hrow, hreadable⟩ := hsources reference List.mem_cons_self
    have hloaded := isLoaded_getEntityDeleted hrow (h.rows_nondefault _ hrow) hreadable
    have hfirst : s.removeReferenceFromSource readable reference =
        s.getEntityDeleted reference.1 readable := by
      rw [removeReferenceFromSource, if_pos hloaded]
    rw [List.foldl_cons, hfirst]
    have hreads := reads_getEntityDeleted s reference.1 readable
    refine ih (h.getEntityDeleted reference.1 readable) fun other hother => ?_
    obtain ⟨hrow', hreadable'⟩ := hsources other (List.mem_cons_of_mem _ hother)
    refine ⟨hreads.rows ▸ hrow', hreadable'.imp_left (hreads.isLoaded _)⟩

/-- What a call does keeps the invariant. -/
theorem callStep (h : s.Inv) {t : Caller} {call : DeleteCall} (hcall : s.calls t = some call)
    (hqueue : ∀ t', a = .entitiesDeleted t' → ∀ id ∈ s.callEntities t, (s.rows id).isSome = true)
    (hstep : s.callStep t call a = some s') : s'.Inv := by
  have hentities : s.callEntities t = call.entities := by rw [callEntities, hcall]; rfl
  rw [DeleteSystem.callStep.eq_def] at hstep
  split at hstep
  · rename_i id todo entities _ readable
    split at hstep
    · cases hstep
      refine h.setCall t _ (fun _ _ heq => by cases heq) fun id' hid' => ?_
      rw [hentities] at hid'
      exact .inl hid'
    · cases hstep
      refine (h.getEntityDeleted id readable).setCall t _ (fun todo' entities' heq => ?_)
        fun id' hid' => ?_
      · split at heq
        · cases heq
        · cases heq
      · rw [callEntities, (reads_getEntityDeleted s id readable).calls, hcall] at hid'
        exact absurd hid' (notMem_empty id')
  · rename_i entities _
    cases hstep
    refine h.setCall t _ (fun todo' entities' heq => ?_) fun id' hid' => ?_
    · cases heq
      exact Finset.Subset.refl _
    · rw [hentities] at hid'
      exact absurd hid' (notMem_empty id')
  · rename_i todo entities t' id readable
    rw [ite_none_right_eq_some] at hstep
    obtain ⟨hid, hstep⟩ := hstep
    cases hstep
    have hsubset := h.marking t todo entities hcall
    have hin : id ∈ s.callEntities t := by
      rw [hentities]
      exact hsubset hid
    have hcalls : (s.markEntity id readable).calls = s.calls := by
      rw [DeleteSystem.markEntity]
      split
      · exact (reads_getEntityDeleted s id readable).calls
      · exact (reads_getEntityDeleted s id readable).calls
    have hmarked := (h.markEntity readable hin).setCall t (some (.marking (todo.erase id) entities))
      (fun todo' entities' heq => by
        cases heq
        exact (erase_subset id todo).trans hsubset)
      fun id' hid' => by
        rw [callEntities, hcalls, hcall] at hid'
        exact .inl hid'
    rw [hcalls] at hmarked
    exact hmarked
  · rename_i todo entities t'
    rw [ite_none_right_eq_some] at hstep
    obtain ⟨-, hstep⟩ := hstep
    cases hstep
    have hrows := hqueue t' rfl
    rw [hentities] at hrows
    have hqueued := h.setManager (s.manager.entitiesDeleted entities) subset_union_left
      fun id' hid' => (mem_union.mp hid').imp_right (hrows id')
    refine hqueued.setCall t none (fun _ _ heq => by cases heq) fun id' hid' => ?_
    refine .inr (mem_union_right _ ?_)
    change id' ∈ (s.calls t).elim ∅ DeleteCall.entities at hid'
    rw [hcall] at hid'
    exact hid'
  · cases hstep

/-- What the thread does keeps the invariant. -/
theorem commitStep (h : s.Inv) {phase : CommitPhase} (hphase : s.phase = phase) (hok : s.ok a)
    (hstep : s.commitStep phase a = some s') : s'.Inv := by
  rw [DeleteSystem.commitStep.eq_def] at hstep
  split at hstep
  · -- what has been queued for immediate processing
    cases hstep
    refine h.setUpdates _ ?_
    rw [(UpdateManager.foldl_addPending _).1]
  · -- what is pending is taken
    cases hstep
    have hrest : s.phase.rest = ∅ := by rw [hphase]; rfl
    refine { h with
      pending_rows := fun id hid => absurd hid (notMem_empty id)
      rest_rows := h.pending_rows
      current_rows := nofun
      valid := nofun
      accounted := fun id hid => ?_ }
    rcases h.accounted id hid with hremoved | hpending | hin | hcurrent | hcall
    · exact .inl hremoved
    · exact .inr (.inr (.inl hpending))
    · rw [hrest] at hin
      exact absurd hin (notMem_empty id)
    · rw [hphase] at hcurrent
      cases hcurrent
    · exact .inr (.inr (.inr (.inr hcall)))
  · -- `get_entity` of an Entity that has changed
    rename_i id updates deletes readable
    have hreads := reads_getEntityDeleted s id readable
    have hread := h.getEntityDeleted id readable
    have hphase' := hreads.phase.trans hphase
    dsimp only at hstep
    split at hstep
    · cases hstep
      exact hread.setPhase_of_eq (.saving id updates deletes) (by rw [hphase']; rfl)
        (by rw [hphase']; rfl) nofun
    · cases hstep
      exact hread.setPhase_of_eq (.committing updates deletes) (by rw [hphase']; rfl)
        (by rw [hphase']; rfl) nofun
  · -- `internal_commit_entity`
    rename_i id updates deletes saved
    cases hstep
    cases saved with
    | false =>
      exact h.setPhase_of_eq (.committing updates deletes) (by rw [hphase]; rfl)
        (by rw [hphase]; rfl) nofun
    | true =>
      have hphase' : (s.commitEntity id).phase = .saving id updates deletes := by
        rw [DeleteSystem.commitEntity]
        split <;> exact hphase
      exact (h.commitEntity id).setPhase_of_eq (.committing updates deletes) (by rw [hphase']; rfl)
        (by rw [hphase']; rfl) nofun
  · -- `get_entity_deleted` of an Entity that is to be removed
    rename_i deletes id readable
    rw [ite_none_right_eq_some] at hstep
    obtain ⟨hid, hstep⟩ := hstep
    obtain ⟨hreadable, hsources⟩ := hok
    have hrow := h.rest_rows id (by rw [hphase]; exact hid)
    have hloaded := isLoaded_getEntityDeleted hrow (h.rows_nondefault id hrow) hreadable
    have hreads := reads_getEntityDeleted s id readable
    have hread := h.getEntityDeleted id readable
    dsimp only at hstep
    rw [if_pos hloaded, hreads.references] at hstep
    cases hstep
    have hreferences := removeReferences readable (s.references id) hread
      fun reference href => by
        obtain ⟨hrow', hreadable'⟩ := hsources reference href
        exact ⟨hreads.rows ▸ hrow', hreadable'.imp_left (hreads.isLoaded _)⟩
    have hreads' := hreads.trans (reads_foldl readable (s.references id) _)
    refine hreferences.setPhase (.clearing id true (deletes.erase id)) ?_ ?_ ?_ ?_
    · intro id' hid'
      rw [hreads'.rows]
      exact h.rest_rows id' (by rw [hphase]; exact mem_of_mem_erase hid')
    · intro id' hid'
      cases hid'
      rw [hreads'.rows]
      exact ⟨hrow, notMem_erase id deletes⟩
    · intro id' valid deletes' heq
      cases heq
      rfl
    · intro id' hid'
      rw [hreads'.phase, hphase] at hid'
      rcases hid' with hid' | hid'
      · by_cases heq : id' = id
        · exact .inr (.inr (.inr (congrArg some heq.symm)))
        · exact .inr (.inr (.inl (Finset.mem_erase.mpr ⟨heq, hid'⟩)))
      · cases hid'
  · -- `clear_dirty`
    rename_i id valid deletes
    cases hstep
    have hvalid := h.valid id valid deletes hphase
    subst hvalid
    have hloaded := isLoaded_update s.memory id
    have hreads : s.Reads { s with
        memory := update s.memory id ((s.memory id).map fun x => { x with dirty := false })
        nullDereferenced := s.nullDereferenced || !true } :=
      ⟨rfl, rfl, rfl, rfl, rfl, rfl, fun id' hid' => (hloaded id' _).trans hid',
        fun id' hid' => .inl ((hloaded id' _).symm.trans hid')⟩
    exact (h.of_reads hreads (by simp [h.not_null])).setPhase_of_eq (.erasing id deletes)
      (by change _ = s.phase.rest; rw [hphase]; rfl)
      (by change _ = s.phase.current?; rw [hphase]; rfl) nofun
  · -- `pending_updates.erase`
    rename_i id deletes
    cases hstep
    exact (h.setUpdates { s.manager with
      pendingUpdates := SortedMap.erase id s.manager.pendingUpdates } rfl).setPhase_of_eq
      (.deletingCache id deletes) (by change _ = s.phase.rest; rw [hphase]; rfl)
      (by change _ = s.phase.current?; rw [hphase]; rfl) nofun
  · -- `delete_entity_cache`
    rename_i id deletes inUse
    split at hstep
    · cases hstep
      exact h.setPhase_of_eq (.reinserting id deletes) (by rw [hphase]; rfl) (by rw [hphase]; rfl)
        nofun
    · cases hstep
      exact (h.forget id).setPhase_of_eq (.deletingRow id deletes)
        (by change _ = s.phase.rest; rw [hphase]; rfl)
        (by change _ = s.phase.current?; rw [hphase]; rfl) nofun
  · -- `delete_entity_db`
    rename_i id deletes deleted
    split at hstep
    · cases hstep
      exact h.setPhase_of_eq (.reinserting id deletes) (by rw [hphase]; rfl) (by rw [hphase]; rfl)
        nofun
    · rename_i hloaded
      have hloaded := Bool.eq_false_iff.mpr hloaded
      obtain ⟨rfl, hpending⟩ := hok id (by rw [hphase]; rfl) hloaded
      cases hstep
      exact h.deleteRow hphase hloaded hpending
  · -- the Entity is still in use
    rename_i id deletes
    cases hstep
    have hcurrent := h.current_rows id (by rw [hphase]; rfl)
    have hinserted := h.setManager
      { s.manager with pendingDeletes := insert id s.manager.pendingDeletes }
      (subset_insert id _) fun id' hid' => by
        rcases mem_insert.mp hid' with rfl | hid'
        · exact .inr hcurrent.1
        · exact .inl hid'
    refine hinserted.setPhase (.committing [] deletes) ?_ nofun nofun fun id' hid' => ?_
    · intro id' hid'
      exact h.rest_rows id' (by rw [hphase]; exact hid')
    · change id' ∈ s.phase.rest ∨ s.phase.current? = some id' at hid'
      rw [hphase] at hid'
      rcases hid' with hid' | hid'
      · exact .inr (.inr (.inl hid'))
      · cases hid'
        exact .inr (.inl (mem_insert_self id _))
  · -- the end
    rename_i deletes
    rw [ite_none_right_eq_some] at hstep
    obtain ⟨rfl, hstep⟩ := hstep
    cases hstep
    exact h.setPhase_of_eq .idle (by rw [hphase]; rfl) (by rw [hphase]; rfl) nofun
  · cases hstep

/-- **A step keeps the invariant.** -/
theorem step (h : s.Inv) (hok : s.ok a) (hstep : s.step a = some s') : s'.Inv := by
  cases a with
  | deleteEntity t id =>
    rw [DeleteSystem.step, ite_none_left_eq_some] at hstep
    obtain ⟨hcall, hstep⟩ := hstep
    split at hstep
    · cases hstep
      exact h
    · cases hstep
      refine h.setCall t _ (fun _ _ heq => by cases heq) fun id' hid' => ?_
      rw [callEntities, not_isSome_iff_eq_none.mp hcall] at hid'
      exact absurd hid' (notMem_empty id')
  | searchNext t readable =>
    obtain ⟨call, hcall, hstep⟩ := bind_eq_some_iff.mp hstep
    exact h.callStep hcall (fun _ heq => by cases heq) hstep
  | searchDone t =>
    obtain ⟨call, hcall, hstep⟩ := bind_eq_some_iff.mp hstep
    exact h.callStep hcall (fun _ heq => by cases heq) hstep
  | setDeletedFlag t id readable =>
    obtain ⟨call, hcall, hstep⟩ := bind_eq_some_iff.mp hstep
    exact h.callStep hcall (fun _ heq => by cases heq) hstep
  | entitiesDeleted t =>
    obtain ⟨call, hcall, hstep⟩ := bind_eq_some_iff.mp hstep
    exact h.callStep hcall (fun _ _ => hok) hstep
  | newEntity id =>
    rw [DeleteSystem.step, ite_none_left_eq_some] at hstep
    obtain ⟨hnot, hstep⟩ := hstep
    cases hstep
    have hdefault : id.isDefault = false := by
      rw [Bool.or_eq_true, not_or] at hnot
      exact Bool.eq_false_iff.mpr hnot.1
    exact h.newEntity hdefault
  | load id readable =>
    cases hstep
    exact h.getEntityDeleted id readable
  | change id changes =>
    rw [DeleteSystem.step, ite_none_right_eq_some] at hstep
    obtain ⟨-, hstep⟩ := hstep
    cases hstep
    exact h.changeEntity id _ changes
  | setReferences id references =>
    cases hstep
    exact { h with }
  | processImmediate => exact h.commitStep rfl hok hstep
  | takePending => exact h.commitStep rfl hok hstep
  | getUpdated readable => exact h.commitStep rfl hok hstep
  | commitEntity saved => exact h.commitStep rfl hok hstep
  | getDeleted id readable => exact h.commitStep rfl hok hstep
  | clearDirty => exact h.commitStep rfl hok hstep
  | eraseUpdate => exact h.commitStep rfl hok hstep
  | deleteCache inUse => exact h.commitStep rfl hok hstep
  | deleteRow deleted => exact h.commitStep rfl hok hstep
  | reinsert => exact h.commitStep rfl hok hstep
  | finish => exact h.commitStep rfl hok hstep

/-- There is nothing yet. -/
theorem init : DeleteSystem.init.Inv := by
  constructor <;> simp [DeleteSystem.init, isLoaded, Accounted, UpdateManager.new,
    rest, current?]

end Inv

/-! ### Coming to an end -/

section Progress

variable {s s' : DeleteSystem} {a : DeleteStep} {t : Caller}

/-- Each step of the thread leaves less to be done. -/
theorem remaining_commitStep {phase : CommitPhase} (hphase : s.phase = phase)
    (hstep : s.commitStep phase a = some s') :
    (a.commits = true → s'.phase.remaining < phase.remaining) ∧
      (a.commits = false → a ≠ .takePending → s'.phase = s.phase) := by
  rw [commitStep.eq_def] at hstep
  split at hstep
  · cases hstep
    exact ⟨nofun, fun _ _ => rfl⟩
  · cases hstep
    exact ⟨nofun, fun _ hne => absurd rfl hne⟩
  · rename_i id updates deletes readable
    refine ⟨fun _ => ?_, nofun⟩
    dsimp only at hstep
    split at hstep
    · cases hstep
      simp only [remaining, List.length_cons]
      omega
    · cases hstep
      simp only [remaining, List.length_cons]
      omega
  · cases hstep
    refine ⟨fun _ => ?_, nofun⟩
    simp only [remaining]
    omega
  · rename_i deletes id readable
    rw [ite_none_right_eq_some] at hstep
    obtain ⟨hid, hstep⟩ := hstep
    have hcard := card_erase_add_one hid
    refine ⟨fun _ => ?_, nofun⟩
    dsimp only at hstep
    split at hstep
    · cases hstep
      simp only [remaining, List.length_nil]
      omega
    · cases hstep
      simp only [remaining, List.length_nil]
      omega
  · cases hstep
    exact ⟨fun _ => by simp [remaining], nofun⟩
  · cases hstep
    exact ⟨fun _ => by simp [remaining], nofun⟩
  · refine ⟨fun _ => ?_, nofun⟩
    split at hstep
    · cases hstep
      simp [remaining]
    · cases hstep
      simp [remaining]
  · refine ⟨fun _ => ?_, nofun⟩
    split at hstep
    · cases hstep
      simp [remaining]
    · cases hstep
      simp [remaining]
  · cases hstep
    exact ⟨fun _ => by simp [remaining], nofun⟩
  · rw [ite_none_right_eq_some] at hstep
    obtain ⟨rfl, hstep⟩ := hstep
    cases hstep
    exact ⟨fun _ => by simp [remaining], nofun⟩
  · cases hstep

/-- The thread leaves the calls alone. -/
theorem calls_commitStep {phase : CommitPhase} (hstep : s.commitStep phase a = some s') :
    s'.calls = s.calls := by
  rw [commitStep.eq_def] at hstep
  split at hstep
  · cases hstep
    rfl
  · cases hstep
    rfl
  · rename_i id updates deletes readable
    have hcalls := (reads_getEntityDeleted s id readable).calls
    dsimp only at hstep
    split at hstep
    · cases hstep
      exact hcalls
    · cases hstep
      exact hcalls
  · rename_i id updates deletes saved
    cases hstep
    dsimp only
    split
    · rw [commitEntity]
      split <;> rfl
    · rfl
  · rename_i deletes id readable
    rw [ite_none_right_eq_some] at hstep
    obtain ⟨-, hstep⟩ := hstep
    have hcalls := (reads_getEntityDeleted s id readable).calls
    dsimp only at hstep
    split at hstep
    · cases hstep
      exact (reads_foldl readable _ _).calls.trans hcalls
    · cases hstep
      exact hcalls
  · cases hstep
    rfl
  · cases hstep
    rfl
  · split at hstep
    · cases hstep
      rfl
    · cases hstep
      rfl
  · split at hstep
    · cases hstep
      rfl
    · cases hstep
      rfl
  · cases hstep
    rfl
  · rw [ite_none_right_eq_some] at hstep
    obtain ⟨-, hstep⟩ := hstep
    cases hstep
    rfl
  · cases hstep

/-- A call leaves the thread alone. -/
theorem phase_callStep {call : DeleteCall} (hstep : s.callStep t call a = some s') :
    s'.phase = s.phase := by
  rw [callStep.eq_def] at hstep
  split at hstep
  · rename_i id todo entities _ readable
    split at hstep
    · cases hstep
      rfl
    · cases hstep
      exact (reads_getEntityDeleted s id readable).phase
  · cases hstep
    rfl
  · rename_i todo entities _ id readable
    rw [ite_none_right_eq_some] at hstep
    obtain ⟨-, hstep⟩ := hstep
    cases hstep
    have hphase := (reads_getEntityDeleted s id readable).phase
    dsimp only
    rw [markEntity]
    split
    · exact hphase
    · exact hphase
  · rw [ite_none_right_eq_some] at hstep
    obtain ⟨-, hstep⟩ := hstep
    cases hstep
    rfl
  · cases hstep

/-- What a call has before it, after a step of a call. -/
theorem callRemaining_of_calls {t' : Caller} {call : Option DeleteCall}
    (hcalls : s'.calls = update s.calls t call) :
    s'.callRemaining t' =
      if t' = t then call.elim 0 DeleteCall.remaining else s.callRemaining t' := by
  rw [callRemaining, hcalls]
  by_cases h : t' = t
  · subst h
    rw [update_self, if_pos rfl]
  · rw [update_of_ne h, if_neg h, callRemaining]

/-- Each step of a call leaves less to be done, once it has found what there is. -/
theorem remaining_callStep {call : DeleteCall} (hstep : s.callStep t call a = some s') :
    ∃ call', s'.calls = update s.calls t call' ∧
      (a.marks t = true → call'.elim 0 DeleteCall.remaining < call.remaining) ∧
      ((∃ readable, a = .searchNext t readable) →
        call'.elim 0 DeleteCall.remaining = call.remaining) := by
  rw [callStep.eq_def] at hstep
  split at hstep
  · rename_i id todo entities _ readable
    split at hstep
    · cases hstep
      exact ⟨_, rfl, nofun, fun _ => rfl⟩
    · cases hstep
      refine ⟨_, congrArg (update · t _) (reads_getEntityDeleted s id readable).calls,
        nofun, fun _ => ?_⟩
      rw [elim_some]
      split <;> rfl
  · cases hstep
    exact ⟨_, rfl, nofun, nofun⟩
  · rename_i todo entities _ id readable
    rw [ite_none_right_eq_some] at hstep
    obtain ⟨hid, hstep⟩ := hstep
    cases hstep
    have hcard := card_erase_add_one hid
    refine ⟨_, rfl, fun _ => ?_, nofun⟩
    simp only [elim_some, DeleteCall.remaining]
    omega
  · rw [ite_none_right_eq_some] at hstep
    obtain ⟨-, hstep⟩ := hstep
    cases hstep
    exact ⟨none, rfl, fun _ => Nat.succ_pos _, nofun⟩
  · cases hstep

/-- The thread can always go on. -/
theorem exists_commits (hphase : s.phase ≠ .idle) : ∃ a, a.commits = true ∧ (s.step a).isSome := by
  cases hs : s.phase with
  | idle => exact absurd hs hphase
  | committing updates deletes =>
    cases updates with
    | cons id updates =>
      refine ⟨.getUpdated true, rfl, ?_⟩
      simp only [step, hs, commitStep]
      split <;> rfl
    | nil =>
      by_cases hdeletes : deletes = ∅
      · refine ⟨.finish, rfl, ?_⟩
        simp [step, hs, commitStep, hdeletes]
      · obtain ⟨id, hid⟩ := nonempty_iff_ne_empty.mpr hdeletes
        refine ⟨.getDeleted id true, rfl, ?_⟩
        simp only [step, hs, commitStep, if_pos hid]
        split <;> rfl
  | saving id updates deletes => exact ⟨.commitEntity true, rfl, by simp [step, hs, commitStep]⟩
  | clearing id valid deletes => exact ⟨.clearDirty, rfl, by simp [step, hs, commitStep]⟩
  | erasing id deletes => exact ⟨.eraseUpdate, rfl, by simp [step, hs, commitStep]⟩
  | deletingCache id deletes =>
    refine ⟨.deleteCache true, rfl, ?_⟩
    simp only [step, hs, commitStep]
    split <;> rfl
  | deletingRow id deletes =>
    refine ⟨.deleteRow true, rfl, ?_⟩
    simp only [step, hs, commitStep]
    split <;> rfl
  | reinserting id deletes => exact ⟨.reinsert, rfl, by simp [step, hs, commitStep]⟩

/-- A call that has found what there is can always go on. -/
theorem exists_marks (ht : s.callRemaining t ≠ 0) : ∃ a, a.marks t = true ∧ (s.step a).isSome := by
  rw [callRemaining] at ht
  cases hcall : s.calls t with
  | none =>
    rw [hcall] at ht
    exact absurd rfl ht
  | some call =>
    rw [hcall] at ht
    cases call with
    | searching todo entities => exact absurd rfl ht
    | marking todo entities =>
      by_cases htodo : todo = ∅
      · exact ⟨.entitiesDeleted t, decide_eq_true rfl, by simp [step, hcall, callStep, htodo]⟩
      · obtain ⟨id, hid⟩ := nonempty_iff_ne_empty.mpr htodo
        exact ⟨.setDeletedFlag t id true, decide_eq_true rfl, by simp [step, hcall, callStep, hid]⟩

/-- What a step does to what the thread has before it. -/
theorem remaining_step (hstep : s.step a = some s') :
    (a.commits = true → s'.phase.remaining < s.phase.remaining) ∧
      (a.commits = false → a ≠ .takePending → s'.phase = s.phase) := by
  have hcall : ∀ {t a}, (s.calls t).bind (fun call => s.callStep t call a) = some s' →
      s'.phase = s.phase := fun h => by
    obtain ⟨call, -, h⟩ := bind_eq_some_iff.mp h
    exact phase_callStep h
  cases a with
  | deleteEntity t id =>
    rw [step, ite_none_left_eq_some] at hstep
    obtain ⟨-, hstep⟩ := hstep
    split at hstep
    · cases hstep
      exact ⟨nofun, fun _ _ => rfl⟩
    · cases hstep
      exact ⟨nofun, fun _ _ => rfl⟩
  | searchNext t readable => exact ⟨nofun, fun _ _ => hcall hstep⟩
  | searchDone t => exact ⟨nofun, fun _ _ => hcall hstep⟩
  | setDeletedFlag t id readable => exact ⟨nofun, fun _ _ => hcall hstep⟩
  | entitiesDeleted t => exact ⟨nofun, fun _ _ => hcall hstep⟩
  | newEntity id =>
    rw [step, ite_none_left_eq_some] at hstep
    obtain ⟨-, hstep⟩ := hstep
    cases hstep
    exact ⟨nofun, fun _ _ => rfl⟩
  | load id readable =>
    cases hstep
    exact ⟨nofun, fun _ _ => (reads_getEntityDeleted s id readable).phase⟩
  | change id changes =>
    rw [step, ite_none_right_eq_some] at hstep
    obtain ⟨-, hstep⟩ := hstep
    cases hstep
    exact ⟨nofun, fun _ _ => rfl⟩
  | setReferences id references =>
    cases hstep
    exact ⟨nofun, fun _ _ => rfl⟩
  | processImmediate => exact remaining_commitStep rfl hstep
  | takePending => exact remaining_commitStep rfl hstep
  | getUpdated readable => exact remaining_commitStep rfl hstep
  | commitEntity saved => exact remaining_commitStep rfl hstep
  | getDeleted id readable => exact remaining_commitStep rfl hstep
  | clearDirty => exact remaining_commitStep rfl hstep
  | eraseUpdate => exact remaining_commitStep rfl hstep
  | deleteCache inUse => exact remaining_commitStep rfl hstep
  | deleteRow deleted => exact remaining_commitStep rfl hstep
  | reinsert => exact remaining_commitStep rfl hstep
  | finish => exact remaining_commitStep rfl hstep

/-- What a step does to what a call has before it. -/
theorem callRemaining_step (hstep : s.step a = some s') :
    (a.marks t = true → s'.callRemaining t < s.callRemaining t) ∧
      (a.marks t = false → a ≠ .searchDone t → s'.callRemaining t = s.callRemaining t) := by
  have hother : s'.calls = s.calls → s'.callRemaining t = s.callRemaining t := fun hcalls => by
    rw [callRemaining, callRemaining, hcalls]
  have hcall : ∀ {t' : Caller} {a : DeleteStep},
      (s.calls t').bind (fun call => s.callStep t' call a) = some s' →
      (t ≠ t' → s'.callRemaining t = s.callRemaining t) ∧
      (t = t' → a.marks t' = true → s'.callRemaining t < s.callRemaining t) ∧
      (t = t' → (∃ readable, a = .searchNext t' readable) →
        s'.callRemaining t = s.callRemaining t) := fun h => by
    obtain ⟨call, hin, h⟩ := bind_eq_some_iff.mp h
    obtain ⟨call', hcalls, hless, hsame⟩ := remaining_callStep h
    refine ⟨fun hne => ?_, ?_, ?_⟩
    · rw [callRemaining_of_calls hcalls, if_neg hne]
    · rintro rfl ha
      rw [callRemaining_of_calls hcalls, if_pos rfl, callRemaining, hin]
      exact hless ha
    · rintro rfl ha
      rw [callRemaining_of_calls hcalls, if_pos rfl, callRemaining, hin]
      exact hsame ha
  cases a with
  | deleteEntity t' id =>
    rw [step, ite_none_left_eq_some] at hstep
    obtain ⟨hnone, hstep⟩ := hstep
    refine ⟨nofun, fun _ _ => ?_⟩
    split at hstep
    · cases hstep
      rfl
    · cases hstep
      by_cases heq : t = t'
      · subst heq
        rw [callRemaining_of_calls rfl, if_pos rfl, callRemaining,
          not_isSome_iff_eq_none.mp hnone]
        rfl
      · rw [callRemaining_of_calls rfl, if_neg heq]
  | searchNext t' readable =>
    refine ⟨nofun, fun _ _ => ?_⟩
    by_cases heq : t = t'
    · exact (hcall hstep).2.2 heq ⟨readable, rfl⟩
    · exact (hcall hstep).1 heq
  | searchDone t' =>
    refine ⟨nofun, fun _ hne => (hcall hstep).1 ?_⟩
    rintro rfl
    exact hne rfl
  | setDeletedFlag t' id readable =>
    refine ⟨fun ha => ?_, fun ha _ => (hcall hstep).1 ?_⟩
    · exact (hcall hstep).2.1 (of_decide_eq_true ha).symm (decide_eq_true rfl)
    · exact fun heq => of_decide_eq_false ha heq.symm
  | entitiesDeleted t' =>
    refine ⟨fun ha => ?_, fun ha _ => (hcall hstep).1 ?_⟩
    · exact (hcall hstep).2.1 (of_decide_eq_true ha).symm (decide_eq_true rfl)
    · exact fun heq => of_decide_eq_false ha heq.symm
  | newEntity id =>
    rw [step, ite_none_left_eq_some] at hstep
    obtain ⟨-, hstep⟩ := hstep
    cases hstep
    exact ⟨nofun, fun _ _ => rfl⟩
  | load id readable =>
    cases hstep
    exact ⟨nofun, fun _ _ => hother (reads_getEntityDeleted s id readable).calls⟩
  | change id changes =>
    rw [step, ite_none_right_eq_some] at hstep
    obtain ⟨-, hstep⟩ := hstep
    cases hstep
    exact ⟨nofun, fun _ _ => rfl⟩
  | setReferences id references =>
    cases hstep
    exact ⟨nofun, fun _ _ => rfl⟩
  | processImmediate => exact ⟨nofun, fun _ _ => hother (calls_commitStep hstep)⟩
  | takePending => exact ⟨nofun, fun _ _ => hother (calls_commitStep hstep)⟩
  | getUpdated readable => exact ⟨nofun, fun _ _ => hother (calls_commitStep hstep)⟩
  | commitEntity saved => exact ⟨nofun, fun _ _ => hother (calls_commitStep hstep)⟩
  | getDeleted id readable => exact ⟨nofun, fun _ _ => hother (calls_commitStep hstep)⟩
  | clearDirty => exact ⟨nofun, fun _ _ => hother (calls_commitStep hstep)⟩
  | eraseUpdate => exact ⟨nofun, fun _ _ => hother (calls_commitStep hstep)⟩
  | deleteCache inUse => exact ⟨nofun, fun _ _ => hother (calls_commitStep hstep)⟩
  | deleteRow deleted => exact ⟨nofun, fun _ _ => hother (calls_commitStep hstep)⟩
  | reinsert => exact ⟨nofun, fun _ _ => hother (calls_commitStep hstep)⟩
  | finish => exact ⟨nofun, fun _ _ => hother (calls_commitStep hstep)⟩

/-- Whoever is at work comes to an end with it. -/
theorem progresses (s : DeleteSystem) : s.Progresses where
  commits _ _ hstep := (remaining_step hstep).1
  commits_frame _ _ hstep := (remaining_step hstep).2
  commits_enabled := exists_commits
  marks _ _ _ hstep := (callRemaining_step hstep).1
  marks_frame _ _ _ hstep := (callRemaining_step hstep).2
  marks_enabled _ := exists_marks

end Progress

end DeleteSystem

open DeleteSystem

/-- **No null reference is used, and no deletion is lost**: in every state of a run that
avoids the three, an Entity with the deleted flag has been removed, is pending, or is in the
hands of the update thread or a call, who come to an end with it. -/
theorem processDbCommits_accounted {s : DeleteSystem}
    (h : Reachable step ok DeleteSystem.init s) :
    s.nullDereferenced = false ∧ s.Accounted ∧ s.Progresses ∧
      (s.phase = .idle → (∀ t, s.callRemaining t = 0) → ∀ id ∈ s.marked,
        s.Removed id ∨ id ∈ s.manager.pendingDeletes) := by
  have hinv : s.Inv := h.invariant Inv.init fun s a s' hs hok hstep => hs.step hok hstep
  refine ⟨hinv.not_null, hinv.accounted, progresses s, fun hphase hcalls id hid => ?_⟩
  rcases hinv.accounted id hid with hremoved | hpending | hrest | hcurrent | ⟨t, ht⟩
  · exact .inl hremoved
  · exact .inr hpending
  · rw [hphase] at hrest
    exact absurd hrest (Finset.notMem_empty id)
  · rw [hphase] at hcurrent
    cases hcurrent
  · have hnone := hcalls t
    rw [callRemaining] at hnone
    rw [callEntities] at ht
    cases hcall : s.calls t with
    | none =>
      rw [hcall] at ht
      exact absurd ht (Finset.notMem_empty id)
    | some call =>
      rw [hcall] at hnone ht
      cases call with
      | searching todo entities => exact absurd ht (Finset.notMem_empty id)
      | marking todo entities => exact absurd hnone (Nat.succ_ne_zero _)

/-- `delete_entity`, by one thread and without interruption, for an Entity that contains
nothing. -/
def deleteOne (t : Caller) (id : Id) : List DeleteStep :=
  [.deleteEntity t id, .searchNext t true, .searchDone t, .setDeletedFlag t id true,
    .entitiesDeleted t]

/-- What the thread does about an Entity that is not in use. -/
def removeOne (id : Id) : List DeleteStep :=
  [.getDeleted id true, .clearDirty, .eraseUpdate, .deleteCache false, .deleteRow true]

theorem processDbCommits_deleteOne :
    ∃ s, Reachable step ok DeleteSystem.init s ∧ s.marked = {⟨1, 5⟩} ∧
      s.manager.pendingDeletes = ∅ ∧ s.nullDereferenced = false ∧ s.Accounted := by
  obtain ⟨s, hs, hmarked⟩ := Option.map_eq_some_iff.mp
    (show (run (guarded step ok) DeleteSystem.init ([.newEntity ⟨1, 5⟩] ++ deleteOne 1 ⟨1, 5⟩ ++
      [.takePending, .getUpdated true] ++ removeOne ⟨1, 5⟩ ++ [.finish])).map
        (fun s => (s.marked, s.manager.pendingDeletes)) = some ({⟨1, 5⟩}, ∅) by decide +kernel)
  have hreach := reachable_of_run_guarded .init hs
  obtain ⟨hnull, haccounted, -⟩ := processDbCommits_accounted hreach
  exact ⟨s, hreach, congrArg Prod.fst hmarked, congrArg Prod.snd hmarked, hnull, haccounted⟩

/-- An Entity is asked for twice, and the second time while it is being removed: it is
pending again when it is gone. -/
theorem processDbCommits_requeued :
    ¬ ∀ s as, run step DeleteSystem.init as = some s → s.nullDereferenced = false := by
  intro h
  obtain ⟨s, hs, hnull⟩ := Option.map_eq_some_iff.mp
    (show (run step DeleteSystem.init ([.newEntity ⟨1, 5⟩] ++ deleteOne 1 ⟨1, 5⟩ ++
      [.takePending, .getUpdated true] ++ deleteOne 2 ⟨1, 5⟩ ++ removeOne ⟨1, 5⟩ ++
      [.finish, .takePending, .getDeleted ⟨1, 5⟩ true, .clearDirty])).map
        (·.nullDereferenced) = some true by decide +kernel)
  have hnot := h s _ hs
  rw [hnull] at hnot
  cases hnot

end Mutgos.DbInterface
