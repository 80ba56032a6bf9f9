import Mutgos.DbTypes.Entity
import Mutgos.Lib.TransitionSystem

/-!
# The journal of the IDs

Between two calls of the listeners the journal of a field says how the IDs in it
have changed.  The code that receives it goes through the removals first and the
additions then, and is to end up with the IDs that are in the field now.

An entry follows the IDs of a field whatever is added and removed.  What it does
not follow is `set_single_id_field` after the field has gone back to what it was
by a removal and an addition: the entry is there but empty, the new ID is written
into it, and the old one, which nobody enters, stays.

## Main results

* `journal_addedId`, `journal_removedId`, `journal_setSingleIdField_some` — what
  becomes of an entry.
-/

namespace Mutgos.DbTypes

open Function

namespace Entity

variable {e : Entity} {field other : EntityField}

/-! ### What becomes of an entry -/

theorem diffIdsChanged_setEntry (e : Entity) (field : EntityField) (ids : SetJournal Id) :
    (e.setEntry field ids).diffIdsChanged = update e.diffIdsChanged field (some ids) := rfl

theorem journal_of_none (h : e.diffIdsChanged field = none) : e.journal field = .empty := by
  rw [journal, h, Option.getD_none]

theorem journal_of_some {ids : SetJournal Id} (h : e.diffIdsChanged field = some ids) :
    e.journal field = ids := by
  rw [journal, h, Option.getD_some]

@[simp] theorem journal_setEntry (e : Entity) (field : EntityField) (ids : SetJournal Id) :
    (e.setEntry field ids).journal field = ids := by
  rw [journal, diffIdsChanged_setEntry, update_self, Option.getD_some]

theorem journal_setEntry_of_ne (ids : SetJournal Id) (h : other ≠ field) :
    (e.setEntry field ids).journal other = e.journal other := by
  rw [journal, diffIdsChanged_setEntry, update_of_ne h, journal]

theorem journal_addedId (e : Entity) (field : EntityField) (id : Id) :
    (e.addedId field id).journal field = (e.journal field).add id := by
  unfold addedId
  split
  · next hnone =>
    rw [journal_setEntry, journal_of_none hnone]
    rfl
  · next ids hsome =>
    rw [journal_of_some hsome, SetJournal.add]
    split
    · rw [journal_setEntry]
    · rw [journal_setEntry]

theorem journal_removedId (e : Entity) (field : EntityField) (id : Id) :
    (e.removedId field id).journal field = (e.journal field).remove id := by
  unfold removedId
  split
  · next hnone =>
    rw [journal_setEntry, journal_of_none hnone]
    rfl
  · next ids hsome =>
    rw [journal_of_some hsome, SetJournal.remove]
    split
    · rw [journal_setEntry]
    · rw [journal_setEntry]

theorem journal_setSingleIdField_none (h : e.diffIdsChanged field = none) (oldId newId : Id) :
    (e.setSingleIdField field oldId newId).journal field = ⟨{oldId}, {newId}⟩ := by
  rw [setSingleIdField, h]
  exact journal_setEntry e field _

theorem journal_setSingleIdField_some (h : e.diffIdsChanged field ≠ none) (oldId newId : Id) :
    (e.setSingleIdField field oldId newId).journal field
      = (e.journal field).replaceAdded newId := by
  obtain ⟨ids, hids⟩ := Option.ne_none_iff_exists'.mp h
  rw [setSingleIdField, hids, journal_of_some hids]
  exact journal_setEntry e field _

/-! ### The other entries -/

theorem journal_addedId_of_ne (id : Id) (h : other ≠ field) :
    (e.addedId field id).journal other = e.journal other := by
  unfold addedId
  split
  · exact journal_setEntry_of_ne _ h
  · split
    · exact journal_setEntry_of_ne _ h
    · exact journal_setEntry_of_ne _ h

theorem journal_removedId_of_ne (id : Id) (h : other ≠ field) :
    (e.removedId field id).journal other = e.journal other := by
  unfold removedId
  split
  · exact journal_setEntry_of_ne _ h
  · split
    · exact journal_setEntry_of_ne _ h
    · exact journal_setEntry_of_ne _ h

theorem journal_setSingleIdField_of_ne (oldId newId : Id) (h : other ≠ field) :
    (e.setSingleIdField field oldId newId).journal other = e.journal other := by
  unfold setSingleIdField
  split
  · exact journal_setEntry_of_ne _ h
  · exact journal_setEntry_of_ne _ h

theorem diffIdsChanged_notifyFieldChanged (e : Entity) (field : EntityField) :
    (e.notifyFieldChanged field).diffIdsChanged = e.diffIdsChanged := by
  unfold notifyFieldChanged
  split <;> rfl

theorem journal_notifyFieldChanged (e : Entity) (field other : EntityField) :
    (e.notifyFieldChanged field).journal other = e.journal other := by
  rw [journal, diffIdsChanged_notifyFieldChanged, journal]

end Entity

/-- `process_id_references`, over the entry of one field: which Entities have the
reference, once it has been taken from those removed and given to those added. -/
def processIdReferences (removed added : List Id) (held : Finset Id) : Finset Id :=
  added.foldl (fun held id => insert id held) (removed.foldl Finset.erase held)

/-- In whatever order the sets are gone through. -/
theorem processIdReferences_eq {ids : SetJournal Id} {removed added : List Id}
    (hremoved : removed.toFinset = ids.removed) (hadded : added.toFinset = ids.added)
    (held : Finset Id) : processIdReferences removed added held = ids.apply held :=
  SetJournal.foldl_erase_insert hremoved hadded held

/-- An Entity, and the IDs in its fields. -/
structure FieldsState where
  entity : Entity
  /-- The IDs that are in each field. -/
  ids : EntityField → Finset Id
  /-- The IDs that were in each field when the listeners were last called. -/
  notified : EntityField → Finset Id

namespace FieldsState

/-- What happens to an Entity between two calls of its listeners, and such a call. -/
inductive Call where
  | addedId (field : EntityField) (id : Id)
  | removedId (field : EntityField) (id : Id)
  | setSingleIdField (field : EntityField) (oldId newId : Id)
  | notifyFieldChanged (field : EntityField)
  | notifyDbListener (now : TimeStamp)

/-- A field gets new IDs. -/
def setIds (s : FieldsState) (field : EntityField) (entity : Entity) (ids : Finset Id) :
    FieldsState :=
  { s with entity := entity, ids := update s.ids field ids }

@[simp] theorem ids_setIds (s : FieldsState) (field : EntityField) (entity : Entity)
    (ids : Finset Id) : (s.setIds field entity ids).ids field = ids := update_self ..

theorem ids_setIds_of_ne {field other : EntityField} (h : other ≠ field) (s : FieldsState)
    (entity : Entity) (ids : Finset Id) : (s.setIds field entity ids).ids other = s.ids other :=
  update_of_ne h ..

/-- The calls.  An ID is entered as added if it was not in the field and as removed
if it was, and replaced if it was the only one. -/
def step (s : FieldsState) : Call → Option FieldsState
  | .addedId field id =>
    if id ∉ s.ids field then
      some (s.setIds field (s.entity.addedId field id) (insert id (s.ids field)))
    else none
  | .removedId field id =>
    if id ∈ s.ids field then
      some (s.setIds field (s.entity.removedId field id) ((s.ids field).erase id))
    else none
  | .setSingleIdField field oldId newId =>
    if s.ids field = {oldId} then
      some (s.setIds field (s.entity.setSingleIdField field oldId newId) {newId})
    else none
  | .notifyFieldChanged field => some { s with entity := s.entity.notifyFieldChanged field }
  | .notifyDbListener now =>
    match s.entity.notifyDbListener now with
    | (none, entity) => some { s with entity := entity }
    | (some _, entity) => some { s with entity := entity, notified := s.ids }

/-- The listeners have just been called. -/
def start (e : Entity) (ids : EntityField → Finset Id) : FieldsState :=
  ⟨{ e with diffIdsChanged := fun _ => none }, ids, ids⟩

/-- Where the field has an entry, an ID is replaced only if it is listed there as
added. -/
def ReplacesAdded (s : FieldsState) : Call → Prop
  | .setSingleIdField field oldId _ =>
    s.entity.diffIdsChanged field = none ∨ oldId ∈ (s.entity.journal field).added
  | _ => True

/-- Every entry says how the IDs in its field have changed. -/
def Tracked (s : FieldsState) : Prop :=
  ∀ field, (s.entity.journal field).Tracks (s.notified field) (s.ids field)

section Preservation

variable {s s' : FieldsState} {field : EntityField}

/-- The listeners have been called, and know what is in the fields. -/
theorem tracked_of_none (hnone : ∀ field, s.entity.diffIdsChanged field = none)
    (hnotified : s.notified = s.ids) : s.Tracked := by
  intro field
  rw [Entity.journal_of_none (hnone field), hnotified]
  exact .empty (s.ids field)

/-- One entry follows the IDs in its field, the others stay. -/
theorem Tracked.setIds (h : s.Tracked) {e : Entity} {ids : Finset Id}
    (hfield : (e.journal field).Tracks (s.notified field) ids)
    (hothers : ∀ other, other ≠ field → e.journal other = s.entity.journal other) :
    (s.setIds field e ids).Tracked := by
  intro other
  by_cases hother : other = field
  · subst hother
    rw [ids_setIds]
    exact hfield
  · have hsame : (s.setIds field e ids).entity.journal other = s.entity.journal other :=
      hothers other hother
    rw [ids_setIds_of_ne hother, hsame]
    exact h other

theorem Tracked.addedId (h : s.Tracked) {id : Id} (hid : id ∉ s.ids field) :
    (s.setIds field (s.entity.addedId field id) (insert id (s.ids field))).Tracked := by
  apply h.setIds
  · rw [Entity.journal_addedId]
    exact (h field).add hid
  · intro other hother
    exact Entity.journal_addedId_of_ne id hother

theorem Tracked.removedId (h : s.Tracked) {id : Id} (hid : id ∈ s.ids field) :
    (s.setIds field (s.entity.removedId field id) ((s.ids field).erase id)).Tracked := by
  apply h.setIds
  · rw [Entity.journal_removedId]
    exact (h field).remove hid
  · intro other hother
    exact Entity.journal_removedId_of_ne id hother

theorem Tracked.setSingleIdField (h : s.Tracked) {oldId : Id} (newId : Id)
    (hids : s.ids field = {oldId}) (hok : s.ReplacesAdded (.setSingleIdField field oldId newId)) :
    (s.setIds field (s.entity.setSingleIdField field oldId newId) {newId}).Tracked := by
  have hfield := h field
  rw [hids] at hfield
  apply h.setIds
  · by_cases hnone : s.entity.diffIdsChanged field = none
    · -- nothing has happened to the field, so the ID was in it all the time
      rw [Entity.journal_of_none hnone] at hfield
      rw [Entity.journal_setSingleIdField_none hnone, hfield.eq_of_empty]
      exact .replace oldId newId
    · rw [Entity.journal_setSingleIdField_some hnone]
      exact hfield.replaceAdded (hok.resolve_left hnone) newId
  · intro other hother
    exact Entity.journal_setSingleIdField_of_ne oldId newId hother

theorem Tracked.notifyDbListener (h : s.Tracked) (now : TimeStamp)
    (hstep : s.step (.notifyDbListener now) = some s') : s'.Tracked := by
  rw [step, Entity.notifyDbListener] at hstep
  split at hstep
  · next hget =>
    split at hget
    · cases hget
    · cases hget
      cases hstep
      exact h
  · next hget =>
    split at hget
    · cases hget
      cases hstep
      exact tracked_of_none (fun _ => rfl) rfl
    · cases hget

/-- **Every call keeps the entries up to date**, if it replaces only what has been
added. -/
theorem tracked_step {c : Call} (h : s.Tracked) (hok : s.ReplacesAdded c)
    (hstep : s.step c = some s') : s'.Tracked := by
  cases c with
  | addedId field id =>
    rw [step, Option.ite_none_right_eq_some] at hstep
    obtain ⟨hid, hstep⟩ := hstep
    cases hstep
    exact h.addedId hid
  | removedId field id =>
    rw [step, Option.ite_none_right_eq_some] at hstep
    obtain ⟨hid, hstep⟩ := hstep
    cases hstep
    exact h.removedId hid
  | setSingleIdField field oldId newId =>
    rw [step, Option.ite_none_right_eq_some] at hstep
    obtain ⟨hids, hstep⟩ := hstep
    cases hstep
    exact h.setSingleIdField newId hids hok
  | notifyFieldChanged field =>
    cases hstep
    intro other
    rw [Entity.journal_notifyFieldChanged]
    exact h other
  | notifyDbListener now => exact h.notifyDbListener now hstep

end Preservation

theorem tracked_of_reachable {e : Entity} {ids : EntityField → Finset Id} {s : FieldsState}
    (h : Reachable step ReplacesAdded (start e ids) s) : s.Tracked := by
  apply h.invariant
  · exact tracked_of_none (fun _ => rfl) rfl
  · intro s c s' hs hok hstep
    exact tracked_step hs hok hstep

/-- **As long as single IDs are replaced only where they are listed as added**, or
the field has no entry: the removals and then the additions make of the IDs that
were in a field those that are. -/
theorem idJournal_apply {e : Entity} {ids : EntityField → Finset Id} {s : FieldsState}
    (h : Reachable step ReplacesAdded (start e ids) s) (field : EntityField)
    (removed added : List Id) (hremoved : removed.toFinset = (s.entity.journal field).removed)
    (hadded : added.toFinset = (s.entity.journal field).added) :
    processIdReferences removed added (s.notified field) = s.ids field := by
  rw [processIdReferences_eq hremoved hadded]
  exact (tracked_of_reachable h field).apply

/-- A run goes on with a single ID that is replaced. -/
theorem reachable_setSingleIdField {s₀ s : FieldsState}
    (h : Reachable step ReplacesAdded s₀ s) (field : EntityField) (oldId newId : Id)
    (hids : s.ids field = {oldId})
    (hok : s.entity.diffIdsChanged field = none ∨ oldId ∈ (s.entity.journal field).added) :
    Reachable step ReplacesAdded s₀
      (s.setIds field (s.entity.setSingleIdField field oldId newId) {newId}) :=
  h.step (a := .setSingleIdField field oldId newId) hok (if_pos hids)

/-- An ID replaced, and the one in its place replaced again. -/
theorem idJournal_apply_replaced :
    ∃ s, Reachable step ReplacesAdded (start (.new true 0) fun _ => {⟨1, 1⟩}) s ∧
      processIdReferences [⟨1, 1⟩] [⟨1, 3⟩] (s.notified .containedBy) = s.ids .containedBy ∧
      s.ids .containedBy = {⟨1, 3⟩} := by
  have hstart : Reachable step ReplacesAdded (start (.new true 0) fun _ => {⟨1, 1⟩})
      (start (.new true 0) fun _ => {⟨1, 1⟩}) := .init
  have hfirst := reachable_setSingleIdField hstart .containedBy ⟨1, 1⟩ ⟨1, 2⟩ rfl (.inl rfl)
  have hsecond := reachable_setSingleIdField hfirst .containedBy ⟨1, 2⟩ ⟨1, 3⟩ (ids_setIds ..)
    (.inr (by decide +kernel))
  have hprocessed := idJournal_apply hsecond .containedBy [⟨1, 1⟩] [⟨1, 3⟩]
    (by decide +kernel) (by decide +kernel)
  exact ⟨_, hsecond, hprocessed, ids_setIds ..⟩

/-- An ID goes and comes back, and is then replaced: nobody takes the reference from
it. -/
theorem idJournal_apply_broken :
    ∃ s, Steps step (fun _ _ => True) (start (.new true 0) fun _ => {⟨1, 1⟩})
        [.removedId .containedBy ⟨1, 1⟩, .addedId .containedBy ⟨1, 1⟩,
          .setSingleIdField .containedBy ⟨1, 1⟩ ⟨1, 2⟩] s ∧
      s.entity.journal .containedBy = ⟨∅, {⟨1, 2⟩}⟩ ∧
      processIdReferences [] [⟨1, 2⟩] (s.notified .containedBy) = {⟨1, 1⟩, ⟨1, 2⟩} ∧
      s.ids .containedBy = {⟨1, 2⟩} := by
  have hrun : (run step (start (.new true 0) fun _ => {⟨1, 1⟩})
      [.removedId .containedBy ⟨1, 1⟩, .addedId .containedBy ⟨1, 1⟩,
        .setSingleIdField .containedBy ⟨1, 1⟩ ⟨1, 2⟩]).map (fun s =>
          (s.entity.journal .containedBy, s.notified .containedBy, s.ids .containedBy))
      = some (⟨∅, {⟨1, 2⟩}⟩, {⟨1, 1⟩}, {⟨1, 2⟩}) := by decide +kernel
  obtain ⟨s, hs, heq⟩ := Option.map_eq_some_iff.mp hrun
  obtain ⟨hjournal, heq⟩ := Prod.mk.inj heq
  obtain ⟨hnotified, hids⟩ := Prod.mk.inj heq
  refine ⟨s, steps_of_run hs fun _ _ _ => trivial, hjournal, ?_, hids⟩
  rw [hnotified]
  decide

end FieldsState

end Mutgos.DbTypes
