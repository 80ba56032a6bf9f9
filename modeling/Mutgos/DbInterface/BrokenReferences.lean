import Mutgos.DbInterface.ReferenceSystem

/-!
# A reference is broken

The table by which the manager breaks a reference has an entry for every kind of field
but one.  Where it has an entry, the Entity that is referred to is gone from the field,
except that an action loses only the first of its targets that are the same.  Nothing
but the default ID comes into a field.

## Main results

* `busy_removeReferenceFromSource` — it is a change like others.
-/

namespace Mutgos.DbInterface

open DbTypes IdFields

variable {source : IdFields} {target id : Id} {field : EntityField}

/-! ### Securities -/

/-- The Security without an ID. -/
theorem removeAdmin_removeFromList (security : Security) (target : Id) :
    ((security.removeFromList target).2.removeAdmin target).2 = { security with
      adminIds := VectorSet.swapRemove target security.adminIds
      listIds := VectorSet.swapRemove target security.listIds } := by
  rw [Security.removeAdmin_snd, Security.removeFromList_snd]

theorem count_removeAdmin_removeFromList (security : Security) (target x : Id) :
    (((security.removeFromList target).2.removeAdmin target).2.adminIds ++
        ((security.removeFromList target).2.removeAdmin target).2.listIds).count x
      ≤ (security.adminIds ++ security.listIds).count x := by
  rw [removeAdmin_removeFromList, List.count_append, List.count_append,
    (VectorSet.swapRemove_perm target security.adminIds).count_eq,
    (VectorSet.swapRemove_perm target security.listIds).count_eq]
  have hadmin := (List.erase_sublist (a := target) (l := security.adminIds)).count_le x
  have hlist := (List.erase_sublist (a := target) (l := security.listIds)).count_le x
  omega

theorem notMem_removeAdmin_removeFromList {security : Security} (h : security.WellFormed)
    (target : Id) :
    target ∉ ((security.removeFromList target).2.removeAdmin target).2.adminIds ++
      ((security.removeFromList target).2.removeAdmin target).2.listIds := by
  rw [removeAdmin_removeFromList, List.mem_append, VectorSet.mem_swapRemove h.nodup_admin,
    VectorSet.mem_swapRemove h.nodup_list]
  rintro (hmem | hmem)
  · exact hmem.1 rfl
  · exact hmem.1 rfl

/-! ### What comes into a field -/

/-- Nothing but the default ID is put in a field. -/
theorem busy_removeReferenceFromSource {fresh : Id → Prop} {base : EntityField → Finset Id}
    {old : EntityField → List Id} (h : Busy fresh base old source) (hdefault : fresh default)
    (target : Id) (field : EntityField) :
    Busy fresh base old (removeReferenceFromSource target field source) := by
  cases field with
  | containedBy => exact h.setContainedBy hdefault
  | actionContainedBy => exact h.replaceId rfl hdefault
  | playerHome => exact h.replaceOther rfl hdefault
  | thingHome => exact h.replaceId rfl hdefault
  | programIncludes => exact h.setProgramIncludes nofun
  | actionTargets => exact h.removeActionTarget target
  | groupIds => exact h.removeFromGroup target
  | vehicleController => exact h.replaceId rfl hdefault
  | vehicleInterior => exact h.replaceId rfl hdefault
  | linkedPrograms => exact h.eraseId .linkedPrograms rfl target nofun
  | security =>
    refine h.setEntitySecurity ((h.security.removeFromList target).removeAdmin target) ?_
    intro x
    refine (h.journaled.within .security x).imp_right ?_
    exact (count_removeAdmin_removeFromList source.entity.entitySecurity target x).trans
  | owner => exact h.replaceOther rfl hdefault
  | _ => exact h

/-! ### What leaves a field -/

theorem notMem_ids_replaceId (hsingle : field.idKind = .single) (hid : target ≠ id) :
    target ∉ (source.replaceId field id).ids field := by
  rw [ids_of_single hsingle, replaceId, singleId_setSingleId, Function.update_self,
    List.mem_singleton]
  exact hid

theorem notMem_ids_replaceOther (hsingle : field.idKind = .single) (hid : target ≠ id) :
    target ∉ (source.replaceOther field id).ids field := by
  unfold replaceOther
  split
  · exact notMem_ids_replaceId hsingle hid
  · next hsame =>
    rw [ids_of_single hsingle, not_not.mp hsame, List.mem_singleton]
    exact hid

theorem notMem_ids_setContainedBy (hid : target ≠ id) :
    target ∉ (source.setContainedBy id).ids .containedBy := by
  rw [ids_of_contained rfl, List.mem_singleton]
  unfold setContainedBy
  split
  · rw [singleId_setSingleId, Function.update_self]
    exact hid
  · next hsame =>
    rw [not_not.mp hsame]
    exact hid

theorem notMem_ids_eraseId (hset : field.idKind = .set) (target : Id) :
    target ∉ (source.eraseId field target).ids field := by
  rw [ids_of_set hset]
  unfold eraseId
  split
  · rw [idSet_setIdSet, Function.update_self, IdSet.ids_erase]
    exact (source.idSet field).nodup.not_mem_erase
  · assumption

theorem notMem_ids_removeFromGroup (target : Id) :
    target ∉ (source.removeFromGroup target).ids .groupIds := by
  unfold removeFromGroup
  split
  · exact notMem_ids_eraseId rfl target
  · assumption

theorem notMem_ids_clearIncludedPrograms (target : Id) :
    target ∉ source.clearIncludedPrograms.ids .programIncludes := by
  rw [ids_of_set rfl, clearIncludedPrograms, setProgramIncludes, idSet_setIdSet,
    Function.update_self]
  exact List.not_mem_nil

theorem notMem_ids_removeActionTarget (honce : (source.ids .actionTargets).count target ≤ 1) :
    target ∉ (source.removeActionTarget target).ids .actionTargets := by
  change source.actionEntityTargets.count target ≤ 1 at honce
  change target ∉ (source.removeActionTarget target).actionEntityTargets
  unfold removeActionTarget
  split
  · change target ∉ source.actionEntityTargets.erase target
    rw [← List.count_eq_zero, List.count_erase_self]
    omega
  · assumption

theorem notMem_ids_setEntitySecurity (h : source.entity.entitySecurity.WellFormed) (target : Id) :
    target ∉ (removeReferenceFromSource target .security source).ids .security := by
  have hentity : ∀ (e : Entity) (security : Security), e.entitySecurity.WellFormed →
      security.WellFormed → (e.setEntitySecurity security).entitySecurity = security := by
    intro e security he hsecurity
    rw [Entity.setEntitySecurity, Security.diffIds_of_wellFormed he hsecurity]
    exact Entity.entitySecurity_of_setup (Entity.setup_notifyFieldChanged _ _)
  have hnew := hentity source.entity _ h ((h.removeFromList target).removeAdmin target)
  change target ∉ (source.entity.setEntitySecurity _).entitySecurity.adminIds ++
    (source.entity.setEntitySecurity _).entitySecurity.listIds
  rw [hnew]
  exact notMem_removeAdmin_removeFromList h target

/-- **What is broken is gone from the field**, the field not being one that is only
logged. -/
theorem notMem_ids_removeReferenceFromSource (h : source.entity.entitySecurity.WellFormed)
    (htarget : target ≠ default) (hfield : field ≠ .groupDisabledIds)
    (honce : (source.ids .actionTargets).count target ≤ 1) :
    target ∉ (removeReferenceFromSource target field source).ids field := by
  cases field with
  | containedBy => exact notMem_ids_setContainedBy htarget
  | actionContainedBy => exact notMem_ids_replaceId rfl htarget
  | playerHome => exact notMem_ids_replaceOther rfl htarget
  | thingHome => exact notMem_ids_replaceId rfl htarget
  | programIncludes => exact notMem_ids_clearIncludedPrograms target
  | actionTargets => exact notMem_ids_removeActionTarget honce
  | groupIds => exact notMem_ids_removeFromGroup target
  | vehicleController => exact notMem_ids_replaceId rfl htarget
  | vehicleInterior => exact notMem_ids_replaceId rfl htarget
  | linkedPrograms => exact notMem_ids_eraseId rfl target
  | security => exact notMem_ids_setEntitySecurity h target
  | owner => exact notMem_ids_replaceOther rfl htarget
  | groupDisabledIds => exact absurd rfl hfield
  | _ => exact List.not_mem_nil

end Mutgos.DbInterface
