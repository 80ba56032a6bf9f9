import Mutgos.DbTypes.IdSections

/-!
# The members of a group

A Group has two sets of IDs, its members and those of them that are disabled, and each of
the two is journaled.  Who is taken out of the group is taken out of the disabled as well, so
that who comes back is enabled.

## Main results

* `group_of_run` — **in every run** only members are disabled, nobody is a member of itself,
  and the journals make the sets out of those that the listeners know.
-/

namespace Mutgos.DbTypes

open Function List

/-- The calls that change a group. -/
inductive GroupCall
  | addToGroup (idToAdd : Id)
  | removeFromGroup (idToRemove : Id)
  | addToDisabledGroup (idToAdd : Id)
  | removeFromDisabledGroup (idToRemove : Id)

namespace IdFields

variable {s : IdFields} {base : EntityField → Finset Id} {entityId : Id}

def groupCall (s : IdFields) : GroupCall → IdFields
  | .addToGroup idToAdd => s.addToGroup idToAdd
  | .removeFromGroup idToRemove => s.removeFromGroup idToRemove
  | .addToDisabledGroup idToAdd => s.addToDisabledGroup idToAdd
  | .removeFromDisabledGroup idToRemove => s.removeFromDisabledGroup idToRemove

def groupCalls (s : IdFields) (calls : List GroupCall) : IdFields := calls.foldl groupCall s

def groupIds (s : IdFields) : List Id := (s.idSet .groupIds).ids

def disabledIds (s : IdFields) : List Id := (s.idSet .groupDisabledIds).ids

def isInGroup (s : IdFields) (idToCheck : Id) : Bool :=
  if ¬ idToCheck.isDefault then idToCheck ∉ s.disabledIds ∧ idToCheck ∈ s.groupIds else false

/-! ### The sets -/

@[simp] theorem mem_insertId (field other : EntityField) (id x : Id) :
    x ∈ ((s.insertId field id).idSet other).ids ↔
      x ∈ (s.idSet other).ids ∨ other = field ∧ x = id := by
  unfold insertId
  split
  · next hmem =>
    refine (or_iff_left_of_imp ?_).symm
    rintro ⟨rfl, rfl⟩
    exact hmem
  · by_cases hother : other = field
    · subst hother
      simp [or_comm]
    · simp [hother]

@[simp] theorem mem_eraseId (field other : EntityField) (id x : Id) :
    x ∈ ((s.eraseId field id).idSet other).ids ↔
      x ∈ (s.idSet other).ids ∧ ¬ (other = field ∧ x = id) := by
  unfold eraseId
  split
  · by_cases hother : other = field
    · subst hother
      simp [(s.idSet other).nodup.mem_erase_iff, and_comm]
    · simp [hother]
  · next hmem =>
    refine (and_iff_left_of_imp ?_).symm
    rintro hx ⟨rfl, rfl⟩
    exact hmem hx

/-- Only members are disabled, and they are others. -/
structure Grouped (entityId : Id) (s : IdFields) : Prop where
  self : s.entityId = entityId
  disabled : ∀ id ∈ s.disabledIds, id ∈ s.groupIds
  member : ∀ id ∈ s.groupIds, id ≠ entityId ∧ ¬ id.isDefault

theorem Grouped.insertId (h : s.Grouped entityId) (field : EntityField) (id : Id)
    (hmember : field = .groupIds → id ≠ entityId ∧ ¬ id.isDefault)
    (hdisabled : field = .groupDisabledIds → id ∈ s.groupIds) :
    (s.insertId field id).Grouped entityId where
  self := by
    unfold IdFields.insertId
    split <;> exact h.self
  disabled x hx := by
    have hin := h.disabled x
    simp only [disabledIds, groupIds, mem_insertId] at hx hin hdisabled ⊢
    grind
  member x hx := by
    have hin := h.member x
    simp only [groupIds, mem_insertId] at hx hin
    grind

/-- Who goes out of the group has been enabled before. -/
theorem Grouped.eraseId (h : s.Grouped entityId) (field : EntityField) (id : Id)
    (henabled : field = .groupIds → id ∉ s.disabledIds) :
    (s.eraseId field id).Grouped entityId where
  self := by
    unfold IdFields.eraseId
    split <;> exact h.self
  disabled x hx := by
    have hin := h.disabled x
    simp only [disabledIds, groupIds, mem_eraseId] at hx hin henabled ⊢
    grind
  member x hx := h.member x ((mem_eraseId field _ id x).mp hx).1

/-- **A member that goes is not disabled any more.** -/
theorem Grouped.removeFromGroup (h : s.Grouped entityId) (id : Id) :
    (s.removeFromGroup id).Grouped entityId ∧ id ∉ (s.removeFromGroup id).groupIds := by
  unfold IdFields.removeFromGroup
  split
  · refine ⟨(h.eraseId .groupDisabledIds id nofun).eraseId .groupIds id fun _ => ?_, ?_⟩
    · simp [disabledIds]
    · simp [groupIds]
  · next hmem => exact ⟨h, hmem⟩

theorem Grouped.groupCall (h : s.Grouped entityId) (call : GroupCall) :
    (s.groupCall call).Grouped entityId := by
  cases call with
  | addToGroup id =>
    rw [IdFields.groupCall, IdFields.addToGroup]
    split
    · next hid => exact h.insertId .groupIds id (fun _ => h.self ▸ hid) nofun
    · exact h
  | removeFromGroup id => exact (h.removeFromGroup id).1
  | addToDisabledGroup id =>
    rw [IdFields.groupCall, IdFields.addToDisabledGroup]
    split
    · next hid => exact h.insertId .groupDisabledIds id nofun fun _ => hid
    · exact h
  | removeFromDisabledGroup id => exact h.eraseId .groupDisabledIds id nofun

/-- **Who comes into the group is enabled**, since nobody else is disabled. -/
theorem Grouped.isInGroup_addToGroup (h : s.Grouped entityId) {id : Id} (hid : id ∉ s.groupIds)
    (hother : id ≠ entityId) (hdefault : ¬ id.isDefault) :
    (s.addToGroup id).isInGroup id = true := by
  have hdisabled : id ∉ (s.idSet .groupDisabledIds).ids := fun hmem => hid (h.disabled id hmem)
  rw [addToGroup, if_pos ⟨h.self ▸ hother, hdefault⟩, isInGroup, if_pos hdefault]
  simp [groupIds, disabledIds, hdisabled]

theorem Grouped.isInGroup_iff (h : s.Grouped entityId) (id : Id) :
    s.isInGroup id = true ↔ id ∈ s.groupIds ∧ id ∉ s.disabledIds := by
  unfold isInGroup
  split
  · rw [decide_eq_true_iff, and_comm]
  · next hdefault =>
    refine iff_of_false Bool.false_ne_true ?_
    rintro ⟨hmem, -⟩
    exact hdefault (h.member id hmem).2

/-! ### The journals -/

/-- What happens to the sets is in the journals, and will be told. -/
structure Written (base : EntityField → Finset Id) (s : IdFields) : Prop where
  listening : s.entity.Listening
  called : s.entity.needCallListener = true ∨ ∀ field, s.entity.diffIdsChanged field = none
  tracks : ∀ field, (s.entity.journal field).Tracks (base field) (s.idSet field).ids.toFinset

/-- A set and its journal change, and are marked. -/
theorem Written.setIdSet (h : s.Written base) {field : EntityField} {set : IdSet}
    {journal : SetJournal Id} (htracks : journal.Tracks (base field) set.ids.toFinset) :
    (s.setIdSet field set ((s.entity.setEntry field journal).notifyFieldChanged field)).Written
      base where
  listening := h.listening.of_setup (Entity.setup_notifyFieldChanged _ field)
  called := by
    have hlistening : (s.entity.setEntry field journal).Listening := h.listening.of_setup rfl
    exact .inl (hlistening.needCallListener_notifyFieldChanged field)
  tracks other := by
    have hjournal : (s.setIdSet field set ((s.entity.setEntry field journal).notifyFieldChanged
        field)).entity.journal other = (s.entity.setEntry field journal).journal other :=
      Entity.journal_notifyFieldChanged _ field other
    rw [hjournal, idSet_setIdSet]
    by_cases hother : other = field
    · subst hother
      rw [Entity.journal_setEntry, update_self]
      exact htracks
    · rw [Entity.journal_setEntry_of_ne _ hother, update_of_ne hother]
      exact h.tracks other

theorem Written.insertId (h : s.Written base) (field : EntityField) (id : Id) :
    (s.insertId field id).Written base := by
  unfold IdFields.insertId
  split
  · exact h
  · next hid =>
    rw [Entity.addedId_eq]
    refine h.setIdSet ?_
    have hset : ((s.idSet field).ids.insert id).toFinset
        = insert id (s.idSet field).ids.toFinset := by
      ext x
      simp
    rw [IdSet.ids_insert, hset]
    exact (h.tracks field).add (mt mem_toFinset.mp hid)

theorem Written.eraseId (h : s.Written base) (field : EntityField) (id : Id) :
    (s.eraseId field id).Written base := by
  unfold IdFields.eraseId
  split
  · next hid =>
    rw [Entity.removedId_eq]
    refine h.setIdSet ?_
    have hset : ((s.idSet field).ids.erase id).toFinset
        = (s.idSet field).ids.toFinset.erase id := by
      ext x
      simp [(s.idSet field).nodup.mem_erase_iff]
    rw [IdSet.ids_erase, hset]
    exact (h.tracks field).remove (mem_toFinset.mpr hid)
  · exact h

theorem Written.groupCall (h : s.Written base) (call : GroupCall) :
    (s.groupCall call).Written base := by
  cases call with
  | addToGroup id =>
    rw [IdFields.groupCall, addToGroup]
    split
    · exact h.insertId .groupIds id
    · exact h
  | removeFromGroup id =>
    rw [IdFields.groupCall, removeFromGroup]
    split
    · exact (h.eraseId .groupDisabledIds id).eraseId .groupIds id
    · exact h
  | addToDisabledGroup id =>
    rw [IdFields.groupCall, addToDisabledGroup]
    split
    · exact h.insertId .groupDisabledIds id
    · exact h
  | removeFromDisabledGroup id => exact h.eraseId .groupDisabledIds id

/-- **What the listeners are told is what has happened**: with it they know the sets, and then
nothing is left to be told.  They are not called only if nothing has happened. -/
theorem Written.told (h : s.Written base) (now : TimeStamp) (field : EntityField) :
    let result := s.entity.notifyDbListener now
    result.2.diffIdsChanged field = none ∧
      ((result.1.bind fun changes => changes.ids field).getD .empty).apply (base field)
        = (s.idSet field).ids.toFinset ∧
      (result.1.isSome = false → base field = (s.idSet field).ids.toFinset) := by
  have htracks := h.tracks field
  rw [Entity.notifyDbListener, h.listening.1, Bool.and_true]
  split
  · refine ⟨rfl, ?_, fun hsome => by simp at hsome⟩
    rw [Option.bind_some, (Entity.stampUpdate_eq _ now).2]
    exact htracks.apply
  · next hcall =>
    have hnone := h.called.resolve_left hcall field
    rw [Entity.journal_of_none hnone] at htracks
    exact ⟨hnone, htracks.apply, fun _ => htracks.eq_of_empty⟩

theorem Written.groupCalls (h : s.Written base ∧ s.Grouped entityId) (calls : List GroupCall) :
    (s.groupCalls calls).Written base ∧ (s.groupCalls calls).Grouped entityId := by
  induction calls generalizing s with
  | nil => exact h
  | cons call calls ih => exact ih ⟨h.1.groupCall call, h.2.groupCall call⟩

end IdFields

/-! ### A run -/

/-- A group, and the IDs that its fields had when the listeners were last called. -/
structure GroupRun where
  group : IdFields
  notified : EntityField → Finset Id

namespace GroupRun

variable {g : GroupRun} {entityId : Id}

/-- The group is new. -/
def new (entityId : Id) (now : TimeStamp) : GroupRun := ⟨.new entityId now, fun _ => ∅⟩

/-- Some calls under one lock, and its release. -/
def underLock (g : GroupRun) (calls : List GroupCall) (now : TimeStamp) : GroupRun :=
  let result := g.group.underLock (fun s => s.groupCalls calls) now
  ⟨result.2, if result.1.isSome then fun field => (result.2.idSet field).ids.toFinset
    else g.notified⟩

/-- One lock after the other. -/
def run (g : GroupRun) (locks : List (List GroupCall × TimeStamp)) : GroupRun :=
  locks.foldl (fun g lock => g.underLock lock.1 lock.2) g

/-- The journals make the sets out of those that the listeners know.  Where the listeners are not
called, nothing is new. -/
def Tells (g : GroupRun) (calls : List GroupCall) (now : TimeStamp) : Prop :=
  ∀ field : EntityField,
    (((g.group.underLock (fun s => s.groupCalls calls) now).1.bind fun changes =>
        changes.ids field).getD .empty).apply (g.notified field)
      = ((g.group.groupCalls calls).idSet field).ids.toFinset

/-- Nothing is left to be told. -/
structure Quiet (entityId : Id) (g : GroupRun) : Prop where
  grouped : g.group.Grouped entityId
  listening : g.group.entity.Listening
  told : ∀ field, g.group.entity.diffIdsChanged field = none
  notified : ∀ field, g.notified field = (g.group.idSet field).ids.toFinset

theorem quiet_new (entityId : Id) (now : TimeStamp) : (new entityId now).Quiet entityId where
  grouped := ⟨rfl, nofun, nofun⟩
  listening := by
    rw [new, IdFields.entity_new]
    exact Entity.listening_new now
  told := by
    rw [new, IdFields.entity_new]
    exact Entity.diffIdsChanged_new true now
  notified _ := rfl

theorem Quiet.groupCalls (h : g.Quiet entityId) (calls : List GroupCall) :
    (g.group.groupCalls calls).Written g.notified ∧
      (g.group.groupCalls calls).Grouped entityId := by
  refine IdFields.Written.groupCalls ⟨⟨h.listening, .inr h.told, fun field => ?_⟩, h.grouped⟩ calls
  rw [Entity.journal_of_none (h.told field), h.notified]
  exact .empty _

/-- **What is told when a lock is released** is what was done under it. -/
theorem Quiet.underLock (h : g.Quiet entityId) (calls : List GroupCall) (now : TimeStamp) :
    g.Tells calls now ∧ (g.underLock calls now).Quiet entityId := by
  obtain ⟨hwritten, hgrouped⟩ := h.groupCalls calls
  refine ⟨fun field => (hwritten.told now field).2.1,
    ⟨hgrouped.self, hgrouped.disabled, hgrouped.member⟩,
    hwritten.listening.of_setup (Entity.setup_notifyDbListener _ now),
    fun field => (hwritten.told now field).1, ?_⟩
  intro field
  unfold GroupRun.underLock
  dsimp only
  split
  · rfl
  · next hcall => exact (hwritten.told now field).2.2 (Bool.eq_false_iff.mpr hcall)

theorem Quiet.run (h : g.Quiet entityId) (locks : List (List GroupCall × TimeStamp)) :
    (g.run locks).Quiet entityId := by
  induction locks generalizing g with
  | nil => exact h
  | cons lock locks ih => exact ih (h.underLock lock.1 lock.2).2

/-- **After any run, and any calls under the next lock**: only members are disabled, neither the
default ID nor the group itself is in a set, the members that are not disabled are in the group,
who is removed is out of it and who comes in is enabled, and the journals make the sets out of
those that were last told. -/
theorem group_of_run (entityId : Id) (now : TimeStamp)
    (locks : List (List GroupCall × TimeStamp)) (calls : List GroupCall) :
    let g := (new entityId now).run locks
    let s := g.group.groupCalls calls
    (∀ id ∈ s.disabledIds, id ∈ s.groupIds) ∧
      (∀ id, id = entityId ∨ id.isDefault → id ∉ s.groupIds ∧ id ∉ s.disabledIds) ∧
      (∀ id, s.isInGroup id = true ↔ id ∈ s.groupIds ∧ id ∉ s.disabledIds) ∧
      (∀ id, id ∉ (s.removeFromGroup id).groupIds) ∧
      (∀ id, id ∉ s.groupIds → id ≠ entityId → ¬ id.isDefault →
        (s.addToGroup id).isInGroup id = true) ∧
      (∀ id ∈ s.groupIds, ((s.removeFromGroup id).addToGroup id).isInGroup id = true) ∧
      ∀ now' : TimeStamp, g.Tells calls now' := by
  have hquiet := (quiet_new entityId now).run locks
  obtain ⟨-, hgrouped⟩ := hquiet.groupCalls calls
  refine ⟨hgrouped.disabled, ?_, hgrouped.isInGroup_iff, fun id => (hgrouped.removeFromGroup id).2,
    fun id => hgrouped.isInGroup_addToGroup, ?_, fun now' => (hquiet.underLock calls now').1⟩
  · intro id hid
    have hout : id ∉ ((((new entityId now).run locks).group).groupCalls calls).groupIds := by
      intro hmem
      obtain ⟨hother, hdefault⟩ := hgrouped.member id hmem
      exact hid.elim hother hdefault
    exact ⟨hout, fun hmem => hout (hgrouped.disabled id hmem)⟩
  · intro id hmem
    obtain ⟨hother, hdefault⟩ := hgrouped.member id hmem
    obtain ⟨hremoved, hout⟩ := hgrouped.removeFromGroup id
    exact hremoved.isInGroup_addToGroup hout hother hdefault

end GroupRun

end Mutgos.DbTypes
