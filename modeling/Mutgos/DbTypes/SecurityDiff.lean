import Mutgos.DbTypes.IdJournal
import Mutgos.DbTypes.SecurityMembership

/-!
# What changes from one Security to another

The IDs that an Entity gets or loses with a new Security are entered in its
journal, as `diff_ids` reports them.  It compares the administrators with the
administrators and the list with the list, and then drops what is on both sides.

Both comparisons report what the two vectors have in common.  Between two
Securities that calls have made, what they have in common is the same on both
sides, so that nothing at all is reported.

## Main results

* `count_diffIds_fst`, `count_diffIds_snd` — what it does report.
-/

namespace Mutgos.DbTypes

open List

namespace Security

variable {a b : Security}

/-- The IDs that only the first refers to are removed, and those that only the second
refers to are added, each once. -/
structure ExactDiff (a b : Security) : Prop where
  nodup_removed : (a.diffIds b).1.Nodup
  nodup_added : (a.diffIds b).2.Nodup
  mem_removed : ∀ id, id ∈ (a.diffIds b).1 ↔ id ∈ a.ids ∧ id ∉ b.ids
  mem_added : ∀ id, id ∈ (a.diffIds b).2 ↔ id ∈ b.ids ∧ id ∉ a.ids

/-- How often the first has an ID in a vector in which the second has it too. -/
def shared (a b : Security) (id : Id) : ℕ :=
  (if id ∈ b.adminIds then a.adminIds.count id else 0)
    + (if id ∈ b.listIds then a.listIds.count id else 0)

/-! ### What is reported -/

theorem count_filter_mem (id : Id) (l m : List Id) :
    (l.filter (· ∈ m)).count id = if id ∈ m then l.count id else 0 := by
  split
  · next hid => exact count_filter (by simpa using hid)
  · next hid =>
    rw [count_eq_zero, mem_filter]
    rintro ⟨-, hmem⟩
    exact hid (of_decide_eq_true hmem)

/-- The two halves of a report, before what is on both sides is dropped. -/
theorem diffIds_eq (a b : Security) :
    a.diffIds b = VectorSet.cancel
      (a.adminIds.filter (· ∈ b.adminIds) ++ a.listIds.filter (· ∈ b.listIds))
      (b.adminIds.filter (· ∈ a.adminIds) ++ b.listIds.filter (· ∈ a.listIds)) := by
  rw [← VectorSet.ite_cancel]
  rfl

theorem count_diffIds_fst (a b : Security) (id : Id) :
    (a.diffIds b).1.count id = a.shared b id - b.shared a id := by
  rw [diffIds_eq, VectorSet.count_cancel_fst]
  simp only [count_append, count_filter_mem, shared]

theorem count_diffIds_snd (a b : Security) (id : Id) :
    (a.diffIds b).2.count id = b.shared a id - a.shared b id := by
  rw [diffIds_eq, VectorSet.count_cancel_snd]
  simp only [count_append, count_filter_mem, shared]

theorem shared_eq_zero {id : Id} (h : id ∉ b.ids) : a.shared b id = 0 := by
  rw [mem_ids, not_or] at h
  rw [shared, if_neg h.1, if_neg h.2]

/-- Between Securities whose vectors are sets it makes no difference from which side
one looks. -/
theorem WellFormed.shared_comm (ha : a.WellFormed) (hb : b.WellFormed) (id : Id) :
    a.shared b id = b.shared a id := by
  have hcount : ∀ l m : List Id, l.Nodup → m.Nodup →
      (if id ∈ m then l.count id else 0) = if id ∈ l then m.count id else 0 := by
    intro l m hl hm
    rw [hl.count, hm.count]
    by_cases hlid : id ∈ l
    · simp [hlid]
    · simp [hlid]
  rw [shared, shared, hcount _ _ ha.nodup_admin hb.nodup_admin,
    hcount _ _ ha.nodup_list hb.nodup_list]

theorem diffIds_eq_nil (h : ∀ id, a.shared b id = b.shared a id) : a.diffIds b = ([], []) := by
  have hempty : ∀ l : List Id, (∀ id, l.count id = 0) → l = [] := by
    intro l hl
    rw [eq_nil_iff_forall_not_mem]
    intro id
    exact count_eq_zero.mp (hl id)
  apply Prod.ext
  · apply hempty
    intro id
    rw [count_diffIds_fst, h id, Nat.sub_self]
  · apply hempty
    intro id
    rw [count_diffIds_snd, h id, Nat.sub_self]

/-- **Between Securities that calls have made, nothing is reported.** -/
theorem diffIds_of_wellFormed (ha : a.WellFormed) (hb : b.WellFormed) : a.diffIds b = ([], []) :=
  diffIds_eq_nil (ha.shared_comm hb)

/-! ### Where the report is right -/

theorem ExactDiff.ids_eq (h : a.ExactDiff b) : a.ids = b.ids := by
  ext id
  constructor
  · intro hid
    by_contra hnot
    have hmem := (h.mem_removed id).mpr ⟨hid, hnot⟩
    rw [← count_pos_iff, count_diffIds_fst, shared_eq_zero hnot] at hmem
    omega
  · intro hid
    by_contra hnot
    have hmem := (h.mem_added id).mpr ⟨hid, hnot⟩
    rw [← count_pos_iff, count_diffIds_snd, shared_eq_zero hnot] at hmem
    omega

theorem ExactDiff.shared_comm (h : a.ExactDiff b) (id : Id) : a.shared b id = b.shared a id := by
  have hremoved : id ∉ (a.diffIds b).1 := by
    rw [h.mem_removed, h.ids_eq]
    exact and_not_self
  have hadded : id ∉ (a.diffIds b).2 := by
    rw [h.mem_added, h.ids_eq]
    exact and_not_self
  rw [← count_eq_zero, count_diffIds_fst] at hremoved
  rw [← count_eq_zero, count_diffIds_snd] at hadded
  omega

/-- **The report is right where the two refer to the same IDs** and have them equally
often in the vectors that they share them in. -/
theorem exactDiff_iff :
    a.ExactDiff b ↔ a.ids = b.ids ∧ ∀ id, a.shared b id = b.shared a id := by
  constructor
  · intro h
    exact ⟨h.ids_eq, h.shared_comm⟩
  · rintro ⟨hids, hshared⟩
    have hnil := diffIds_eq_nil hshared
    refine ⟨?_, ?_, ?_, ?_⟩
    · rw [hnil]; exact .nil
    · rw [hnil]; exact .nil
    · intro id; rw [hnil, hids]; simp
    · intro id; rw [hnil, hids]; simp

end Security

namespace Entity

variable {e : Entity} {field : EntityField}

/-! ### What is entered in the journal -/

theorem journal_foldl_removedId (e : Entity) (field : EntityField) (ids : List Id) :
    (ids.foldl (fun e id => e.removedId field id) e).journal field
      = ids.foldl SetJournal.remove (e.journal field) := by
  induction ids generalizing e with
  | nil => rfl
  | cons id ids ih => rw [foldl_cons, ih, journal_removedId, foldl_cons]

theorem journal_foldl_addedId (e : Entity) (field : EntityField) (ids : List Id) :
    (ids.foldl (fun e id => e.addedId field id) e).journal field
      = ids.foldl SetJournal.add (e.journal field) := by
  induction ids generalizing e with
  | nil => rfl
  | cons id ids ih => rw [foldl_cons, ih, journal_addedId, foldl_cons]

theorem journal_setEntitySecurity (e : Entity) (b : Security) :
    (e.setEntitySecurity b).journal .security
      = (e.entitySecurity.diffIds b).2.foldl SetJournal.add
          ((e.entitySecurity.diffIds b).1.foldl SetJournal.remove (e.journal .security)) := by
  rw [setEntitySecurity, journal_foldl_addedId, journal_foldl_removedId,
    journal_notifyFieldChanged]
  rfl

/-- **If the report is right, the journal follows it.** -/
theorem tracks_setEntitySecurity {b : Security} {base : Finset Id}
    (hdiff : e.entitySecurity.ExactDiff b)
    (h : (e.journal .security).Tracks base e.entitySecurity.ids) :
    ((e.setEntitySecurity b).journal .security).Tracks base b.ids := by
  rw [journal_setEntitySecurity]
  have hremoved := h.removeAll hdiff.nodup_removed fun id hid => ((hdiff.mem_removed id).mp hid).1
  have hadded := hremoved.addAll hdiff.nodup_added ?_
  · have hids : e.entitySecurity.ids \ (e.entitySecurity.diffIds b).1.toFinset
        ∪ (e.entitySecurity.diffIds b).2.toFinset = b.ids := by
      ext id
      simp only [Finset.mem_union, Finset.mem_sdiff, mem_toFinset, hdiff.mem_removed,
        hdiff.mem_added]
      tauto
    rw [hids] at hadded
    exact hadded
  · intro id hid hmem
    exact ((hdiff.mem_added id).mp hid).2 (Finset.mem_sdiff.mp hmem).1

end Entity

/-- **A change of Security is reported and journaled exactly** where the old one and
the new one refer to the same IDs and have them equally often in the vectors that
they share them in. -/
theorem securityDiff_iff (a b : Security) :
    (a.ExactDiff b ∧ ∀ (e : Entity) (base : Finset Id), e.entitySecurity = a →
      (e.journal .security).Tracks base a.ids →
      ((e.setEntitySecurity b).journal .security).apply base = b.ids) ↔
    a.ids = b.ids ∧ ∀ id, a.shared b id = b.shared a id := by
  rw [← Security.exactDiff_iff]
  constructor
  · exact And.left
  · intro hdiff
    refine ⟨hdiff, ?_⟩
    rintro e base rfl h
    exact (Entity.tracks_setEntitySecurity hdiff h).apply

/-- An administrator is lost with the Security.  Nothing is reported, nothing is
journaled, and the administrator keeps the reference. -/
theorem securityDiff_broken :
    let a := Security.build [.addAdmin ⟨1, 1⟩]
    let e := { Entity.new true 0 with entitySecurity := a }
    a.ids = {⟨1, 1⟩} ∧ Security.empty.ids = ∅ ∧
      a.diffIds .empty = ([], []) ∧ ¬ a.ExactDiff .empty ∧
      ((e.setEntitySecurity .empty).journal .security).apply a.ids = {⟨1, 1⟩} := by
  refine ⟨by decide, by decide, by decide, ?_, by decide +kernel⟩
  rw [Security.exactDiff_iff]
  rintro ⟨hids, -⟩
  exact absurd hids (by decide)

end Mutgos.DbTypes
