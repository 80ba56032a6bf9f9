import Mutgos.DbTypes.Security

/-!
# Who is in a Security

The two vectors of a Security stay sets with no ID in common, whatever calls are
made and in whatever order: an administrator who is added leaves the list, nobody
who is an administrator enters it, and the ID that stands for nobody enters
neither.

Of the two queries, the one about the list answers from the list.  The one about
administrators looks through the list as well, and compares where it ends up with
the end of the other vector.  It answers yes for every ID.

## Main results

* `addAdmin_snd`, `removeAdmin_snd`, `addToList_snd`, `removeFromList_snd` — what
  the calls make of the vectors.
-/

namespace Mutgos.DbTypes.Security

open VectorSet

variable {s : Security} {id : Id}

/-- The two vectors are sets of IDs with none in common. -/
structure WellFormed (s : Security) : Prop where
  nodup_admin : s.adminIds.Nodup
  nodup_list : s.listIds.Nodup
  default_admin : default ∉ s.adminIds
  default_list : default ∉ s.listIds
  disjoint : ∀ id ∈ s.adminIds, id ∉ s.listIds

/-! ### What the calls make of the vectors -/

theorem find_eq_endOf {v : SecurityIds} : s.find v id = s.endOf v ↔ id ∉ s.vector v := by
  rw [← find_ne_endOf, not_not]

@[simp] theorem vector_admin (s : Security) : s.vector .admin = s.adminIds := rfl

@[simp] theorem vector_list (s : Security) : s.vector .list = s.listIds := rfl

theorem addAdmin_snd (s : Security) (h : id ≠ default) :
    (s.addAdmin id).2
      = { s with adminIds := pushNew id s.adminIds, listIds := s.listIds.erase id } := by
  have hdefault : ¬ id.isDefault = true := fun hid => h (Id.isDefault_iff.mp hid)
  -- erasing an ID that is not in the list changes nothing
  have hlist : (if s.find .list id ≠ s.endOf .list then { s with listIds := s.listIds.erase id }
      else s) = { s with listIds := s.listIds.erase id } := by
    split
    · rfl
    · next hfind =>
      have hid : id ∉ s.listIds := find_eq_endOf.mp (not_not.mp hfind)
      rw [List.erase_of_not_mem hid]
  rw [Security.addAdmin, if_neg hdefault, hlist, pushNew]
  simp only [find_eq_endOf, vector_admin]
  by_cases hid : id ∈ s.adminIds
  · simp [hid]
  · simp [hid]

theorem removeAdmin_snd (s : Security) (id : Id) :
    (s.removeAdmin id).2 = { s with adminIds := swapRemove id s.adminIds } := by
  unfold removeAdmin
  split
  · rfl
  · next hfind =>
    have hid : id ∉ s.adminIds := find_eq_endOf.mp (not_not.mp hfind)
    rw [swapRemove, if_neg hid]

theorem addToList_snd (s : Security) (h : id ≠ default) :
    (s.addToList id).2
      = { s with listIds := if id ∈ s.adminIds then s.listIds else pushNew id s.listIds } := by
  have hdefault : ¬ id.isDefault = true := fun hid => h (Id.isDefault_iff.mp hid)
  rw [Security.addToList, if_neg hdefault, pushNew]
  simp only [find_eq_endOf, vector_admin, vector_list]
  by_cases hadmin : id ∈ s.adminIds
  · simp [hadmin]
  · by_cases hlist : id ∈ s.listIds
    · simp [hadmin, hlist]
    · simp [hadmin, hlist]

theorem removeFromList_snd (s : Security) (id : Id) :
    (s.removeFromList id).2 = { s with listIds := swapRemove id s.listIds } := by
  unfold removeFromList
  split
  · rfl
  · next hfind =>
    have hid : id ∉ s.listIds := find_eq_endOf.mp (not_not.mp hfind)
    rw [swapRemove, if_neg hid]

/-! ### The calls keep the vectors well-formed -/

theorem wellFormed_empty : empty.WellFormed := ⟨.nil, .nil, nofun, nofun, nofun⟩

section

variable (h : s.WellFormed)
include h

theorem WellFormed.addAdmin (id : Id) : (s.addAdmin id).2.WellFormed := by
  by_cases hdefault : id = default
  · subst hdefault
    exact h
  · rw [addAdmin_snd s hdefault]
    refine ⟨nodup_pushNew h.nodup_admin id, h.nodup_list.erase id, ?_, ?_, ?_⟩
    · rw [mem_pushNew]
      exact not_or.mpr ⟨Ne.symm hdefault, h.default_admin⟩
    · intro hmem
      exact h.default_list (List.mem_of_mem_erase hmem)
    · intro other hother
      rw [h.nodup_list.mem_erase_iff]
      rintro ⟨hne, hlist⟩
      exact h.disjoint other ((mem_pushNew.mp hother).resolve_left hne) hlist

theorem WellFormed.removeAdmin (id : Id) : (s.removeAdmin id).2.WellFormed := by
  rw [removeAdmin_snd]
  have hmem : ∀ other, other ∈ swapRemove id s.adminIds → other ∈ s.adminIds := by
    intro other hother
    exact ((mem_swapRemove h.nodup_admin).mp hother).2
  refine ⟨nodup_swapRemove h.nodup_admin id, h.nodup_list, ?_, h.default_list, ?_⟩
  · intro hdefault
    exact h.default_admin (hmem default hdefault)
  · intro other hother
    exact h.disjoint other (hmem other hother)

theorem WellFormed.clearAdmins : s.clearAdmins.WellFormed :=
  ⟨.nil, h.nodup_list, nofun, h.default_list, nofun⟩

theorem WellFormed.addToList (id : Id) : (s.addToList id).2.WellFormed := by
  by_cases hdefault : id = default
  · subst hdefault
    exact h
  · rw [addToList_snd s hdefault]
    split
    · exact h
    · next hadmin =>
      refine ⟨h.nodup_admin, nodup_pushNew h.nodup_list id, h.default_admin, ?_, ?_⟩
      · rw [mem_pushNew]
        exact not_or.mpr ⟨Ne.symm hdefault, h.default_list⟩
      · intro other hother hlist
        rcases mem_pushNew.mp hlist with heq | hlist
        · exact hadmin (heq ▸ hother)
        · exact h.disjoint other hother hlist

theorem WellFormed.removeFromList (id : Id) : (s.removeFromList id).2.WellFormed := by
  rw [removeFromList_snd]
  have hmem : ∀ other, other ∈ swapRemove id s.listIds → other ∈ s.listIds := by
    intro other hother
    exact ((mem_swapRemove h.nodup_list).mp hother).2
  refine ⟨h.nodup_admin, nodup_swapRemove h.nodup_list id, h.default_admin, ?_, ?_⟩
  · intro hdefault
    exact h.default_list (hmem default hdefault)
  · intro other hother hlist
    exact h.disjoint other hother (hmem other hlist)

theorem WellFormed.clearList : s.clearList.WellFormed :=
  ⟨h.nodup_admin, .nil, h.default_admin, nofun, fun _ _ => nofun⟩

theorem WellFormed.apply (op : Op) : (op.apply s).WellFormed := by
  cases op with
  | addAdmin id => exact h.addAdmin id
  | removeAdmin id => exact h.removeAdmin id
  | clearAdmins => exact h.clearAdmins
  | addToList id => exact h.addToList id
  | removeFromList id => exact h.removeFromList id
  | clearList => exact h.clearList

end

/-- **Every sequence of calls keeps the vectors well-formed.** -/
theorem wellFormed_build (ops : List Op) : (build ops).WellFormed := by
  have hfold : ∀ s : Security, s.WellFormed → (ops.foldl Op.apply s).WellFormed := by
    induction ops with
    | nil => intro s h; exact h
    | cons op ops ih => intro s h; exact ih _ (h.apply op)
  exact hfold empty wellFormed_empty

/-! ### The queries -/

theorem isInList_iff : s.isInList id = true ↔ id ∈ s.listIds := by
  rw [isInList, decide_eq_true_iff]
  exact find_ne_endOf

/-- A place in the list is not the end of the other vector. -/
theorem isAdmin_eq_true (s : Security) (id : Id) : s.isAdmin id = true := by
  rw [isAdmin, decide_eq_true_iff, find, endOf]
  intro heq
  cases (IdsIterator.mk.inj heq).1

/-- **The queries are right for administrators**, and for nobody else. -/
theorem securityMembership_iff (ops : List Op) (id : Id) :
    ((build ops).WellFormed ∧
      ((build ops).isAdmin id = true ↔ id ∈ (build ops).adminIds) ∧
      ((build ops).isInList id = true ↔ id ∈ (build ops).listIds)) ↔
    id ∈ (build ops).adminIds := by
  constructor
  · rintro ⟨-, hadmin, -⟩
    exact hadmin.mp (isAdmin_eq_true _ id)
  · intro hid
    exact ⟨wellFormed_build ops, iff_of_true (isAdmin_eq_true _ id) hid, isInList_iff⟩

/-- An administrator, and somebody who is none and is taken for one. -/
theorem securityMembership_broken :
    (build [.addAdmin ⟨1, 1⟩]).adminIds = [⟨1, 1⟩] ∧
    (build [.addAdmin ⟨1, 1⟩]).isAdmin ⟨1, 2⟩ = true ∧
    ¬ ((build [.addAdmin ⟨1, 1⟩]).isAdmin ⟨1, 2⟩ = true ↔
      ⟨1, 2⟩ ∈ (build [.addAdmin ⟨1, 1⟩]).adminIds) := by
  decide

end Mutgos.DbTypes.Security
