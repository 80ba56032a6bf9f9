import Mutgos.DbTypes.IdFields

/-!
# What the listeners are told of the fields

Whatever is done under one lock, the journal that the listeners get when it is released
does not give a field an ID that is not there.  It may take away one that is: a target
that an action has twice is taken away with the first of the two.

## Main results

* `told_underLock` — **what the listeners are told does not exceed what is in the
  fields.**
-/

namespace Mutgos.DbTypes

open Function EntityField SetJournal List

/-- The field is journaled as removals and additions. -/
def IdKind.isListed : IdKind → Bool
  | .contained | .set | .targets => true
  | _ => false

/-- The entry of a field, from the IDs known of it to those in it: with the entry, no
others come to be known, now or later. -/
def EntityField.Follows (field : EntityField) (base : Finset Id) (journal : Option (SetJournal Id))
    (ids : List Id) : Prop :=
  match field.idKind with
  | .none => journal = none ∧ base = ∅
  | .security => journal = none ∧ base = ∅
  | .single => ∃ id, ids = [id] ∧ (journal = none ∧ (∀ x ∈ base, x = id) ∨
      ∃ old, journal = some ⟨{old}, {id}⟩ ∧ ∀ x ∈ base, x = old)
  | _ => (journal.getD .empty).Bounded base ids

namespace EntityField

variable {field : EntityField} {base : Finset Id} {journal : Option (SetJournal Id)}
  {ids : List Id}

theorem follows_of_isListed (h : field.idKind.isListed = true) :
    field.Follows base journal ids ↔ (journal.getD .empty).Bounded base ids := by
  unfold Follows
  cases hkind : field.idKind with
  | contained => rfl
  | set => rfl
  | targets => rfl
  | _ => rw [hkind] at h; cases h

theorem follows_of_single (h : field.idKind = .single) :
    field.Follows base journal ids ↔ ∃ id, ids = [id] ∧
      (journal = none ∧ (∀ x ∈ base, x = id) ∨
        ∃ old, journal = some ⟨{old}, {id}⟩ ∧ ∀ x ∈ base, x = old) := by
  unfold Follows
  rw [h]

theorem follows_of_security (h : field.idKind = .security) :
    field.Follows base journal ids ↔ journal = none ∧ base = ∅ := by
  unfold Follows
  rw [h]

/-- **No other ID comes to be known.** -/
theorem Follows.mem (h : field.Follows base journal ids) {x : Id}
    (hx : x ∈ (journal.getD .empty).apply base) : x ∈ ids ∧ field ≠ .security := by
  by_cases hlisted : field.idKind.isListed = true
  · refine ⟨((follows_of_isListed hlisted).mp h).mem_of_mem_apply hx, ?_⟩
    rintro rfl
    cases hlisted
  · unfold Follows at h
    have hnothing : journal = none → base = ∅ → x ∈ ids ∧ field ≠ .security := by
      rintro rfl rfl
      simp [mem_apply, empty] at hx
    cases hkind : field.idKind with
    | none => rw [hkind] at h; exact hnothing h.1 h.2
    | security => rw [hkind] at h; exact hnothing h.1 h.2
    | single =>
      rw [hkind] at h
      obtain ⟨id, rfl, h⟩ := h
      refine ⟨?_, ?_⟩
      · rw [mem_singleton]
        rcases h with ⟨rfl, hbase⟩ | ⟨old, rfl, hbase⟩
        · refine hbase x ?_
          simpa [mem_apply, empty] using hx
        · rw [Option.getD_some, mem_apply] at hx
          rcases hx with ⟨hx, hremoved⟩ | hx
          · exact absurd (Finset.mem_singleton.mpr (hbase x hx)) hremoved
          · exact Finset.mem_singleton.mp hx
      · rintro rfl
        cases hkind
    | _ => rw [hkind] at hlisted; exact absurd rfl hlisted

end EntityField

/-! ### The entries of an Entity -/

namespace Entity

variable {e : Entity} {field : EntityField}

theorem addedId_eq (e : Entity) (field : EntityField) (id : Id) :
    e.addedId field id = e.setEntry field ((e.journal field).add id) := by
  unfold addedId
  split
  · next hnone => rw [journal_of_none hnone]; rfl
  · next ids hsome =>
    rw [journal_of_some hsome, add]
    split <;> rfl

theorem removedId_eq (e : Entity) (field : EntityField) (id : Id) :
    e.removedId field id = e.setEntry field ((e.journal field).remove id) := by
  unfold removedId
  split
  · next hnone => rw [journal_of_none hnone]; rfl
  · next ids hsome =>
    rw [journal_of_some hsome, remove]
    split <;> rfl

/-- What the calls that enter IDs do not change. -/
def setup (e : Entity) : Bool × Bool × Security :=
  (e.hasDbListeners, e.ignoreChanges, e.entitySecurity)

@[simp] theorem setup_addedId (e : Entity) (field : EntityField) (id : Id) :
    (e.addedId field id).setup = e.setup := by rw [addedId_eq]; rfl

@[simp] theorem setup_removedId (e : Entity) (field : EntityField) (id : Id) :
    (e.removedId field id).setup = e.setup := by rw [removedId_eq]; rfl

@[simp] theorem setup_setSingleIdField (e : Entity) (field : EntityField) (oldId newId : Id) :
    (e.setSingleIdField field oldId newId).setup = e.setup := by
  unfold setSingleIdField
  split <;> rfl

@[simp] theorem setup_notifyFieldChanged (e : Entity) (field : EntityField) :
    (e.notifyFieldChanged field).setup = e.setup := by
  unfold notifyFieldChanged
  split <;> rfl

theorem setup_foldl_addedId (ids : List Id) (e : Entity) (field : EntityField) :
    (ids.foldl (fun e id => e.addedId field id) e).setup = e.setup := by
  induction ids generalizing e with
  | nil => rfl
  | cons id ids ih => rw [foldl_cons, ih, setup_addedId]

theorem setup_foldl_removedId (ids : List Id) (e : Entity) (field : EntityField) :
    (ids.foldl (fun e id => e.removedId field id) e).setup = e.setup := by
  induction ids generalizing e with
  | nil => rfl
  | cons id ids ih => rw [foldl_cons, ih, setup_removedId]

theorem stampUpdate_eq (e : Entity) (now : TimeStamp) :
    (e.stampUpdate now).setup = e.setup ∧ (e.stampUpdate now).diffIdsChanged = e.diffIdsChanged := by
  unfold stampUpdate
  split <;> exact ⟨rfl, rfl⟩

@[simp] theorem setup_notifyDbListener (e : Entity) (now : TimeStamp) :
    (e.notifyDbListener now).2.setup = e.setup := by
  unfold notifyDbListener
  split
  · exact (e.stampUpdate_eq now).1
  · rfl

/-- What several fields have changed keeps. -/
theorem foldl_notifyFieldChanged (fields : List EntityField) (e : Entity) :
    (fields.foldl notifyFieldChanged e).setup = e.setup ∧
      (fields.foldl notifyFieldChanged e).diffIdsChanged = e.diffIdsChanged := by
  induction fields generalizing e with
  | nil => exact ⟨rfl, rfl⟩
  | cons field fields ih =>
    obtain ⟨hsetup, hdiff⟩ := ih (e.notifyFieldChanged field)
    exact ⟨hsetup.trans (setup_notifyFieldChanged e field),
      hdiff.trans (diffIdsChanged_notifyFieldChanged e field)⟩

/-- Where nothing is left to be told, the listeners are told nothing and it stays so. -/
theorem diffIdsChanged_notifyDbListener {e : Entity} (h : ∀ field, e.diffIdsChanged field = none)
    (now : TimeStamp) (field : EntityField) :
    (e.notifyDbListener now).2.diffIdsChanged field = none := by
  unfold notifyDbListener
  split
  · rfl
  · exact h field

theorem setup_new (hasDbListeners : Bool) (now : TimeStamp) :
    (new hasDbListeners now).setup = (hasDbListeners, false, .empty) := by
  unfold new
  rw [setup_notifyDbListener, (foldl_notifyFieldChanged _ _).1]
  rfl

theorem diffIdsChanged_new (hasDbListeners : Bool) (now : TimeStamp) (field : EntityField) :
    (new hasDbListeners now).diffIdsChanged field = none := by
  refine diffIdsChanged_notifyDbListener (fun field => ?_) now field
  rw [(foldl_notifyFieldChanged _ _).2]

/-- The listeners are called for what changes. -/
def Listening (e : Entity) : Prop := e.hasDbListeners = true ∧ e.ignoreChanges = false

theorem Listening.of_setup {e' : Entity} (h : e.Listening) (hsetup : e'.setup = e.setup) :
    e'.Listening := by
  obtain ⟨hlisteners, hrest⟩ := Prod.mk.inj hsetup
  obtain ⟨hignore, -⟩ := Prod.mk.inj hrest
  exact ⟨hlisteners.trans h.1, hignore.trans h.2⟩

theorem entitySecurity_of_setup {e' : Entity} (hsetup : e'.setup = e.setup) :
    e'.entitySecurity = e.entitySecurity :=
  (Prod.mk.inj (Prod.mk.inj hsetup).2).2

theorem listening_new (now : TimeStamp) : (new true now).Listening := by
  obtain ⟨hlisteners, hrest⟩ := Prod.mk.inj (setup_new true now)
  exact ⟨hlisteners, (Prod.mk.inj hrest).1⟩

theorem entitySecurity_new (hasDbListeners : Bool) (now : TimeStamp) :
    (new hasDbListeners now).entitySecurity = .empty :=
  (Prod.mk.inj (Prod.mk.inj (setup_new hasDbListeners now)).2).2

theorem Listening.needCallListener_notifyFieldChanged (h : e.Listening) (field : EntityField) :
    (e.notifyFieldChanged field).needCallListener = true := by
  rw [notifyFieldChanged, h.1, h.2]
  rfl

end Entity

/-- The entries of an Entity whose fields have the given IDs.  What has been added, and
what a field has more often than before, is `fresh`. -/
structure Journaled (fresh : Id → Prop) (base : EntityField → Finset Id)
    (old : EntityField → List Id) (e : Entity) (ids : EntityField → List Id) : Prop where
  follows : ∀ field : EntityField, field.Follows (base field) (e.diffIdsChanged field) (ids field)
  added : ∀ field : EntityField, ∀ x ∈ (e.journal field).added, fresh x
  within : ∀ (field : EntityField) (x : Id), fresh x ∨ (ids field).count x ≤ (old field).count x

namespace Journaled

variable {fresh : Id → Prop} {base : EntityField → Finset Id} {old ids : EntityField → List Id}
  {e e' : Entity} {field : EntityField} {id : Id}

section

variable (h : Journaled fresh base old e ids)
include h

/-- What the entries are is all that matters. -/
theorem of_diffIdsChanged (he : e'.diffIdsChanged = e.diffIdsChanged) :
    Journaled fresh base old e' ids where
  follows := he ▸ h.follows
  added field := by
    rw [Entity.journal, he]
    exact h.added field
  within := h.within

/-- One field is given other IDs, and its entry another value. -/
theorem setEntry (field : EntityField) {journal : SetJournal Id} {fieldIds : List Id}
    (hfollows : field.Follows (base field) (some journal) fieldIds)
    (hadded : ∀ x ∈ journal.added, fresh x)
    (hwithin : ∀ x, fresh x ∨ fieldIds.count x ≤ (old field).count x) :
    Journaled fresh base old (e.setEntry field journal) (update ids field fieldIds) where
  follows other := by
    rw [Entity.diffIdsChanged_setEntry]
    by_cases hother : other = field
    · subst hother
      rw [update_self, update_self]
      exact hfollows
    · rw [update_of_ne hother, update_of_ne hother]
      exact h.follows other
  added other := by
    by_cases hother : other = field
    · subst hother
      rw [Entity.journal_setEntry]
      exact hadded
    · rw [Entity.journal_setEntry_of_ne _ hother]
      exact h.added other
  within other x := by
    by_cases hother : other = field
    · subst hother
      rw [update_self]
      exact hwithin x
    · rw [update_of_ne hother]
      exact h.within other x

theorem bounded (hlisted : field.idKind.isListed = true) :
    (e.journal field).Bounded (base field) (ids field) :=
  (follows_of_isListed hlisted).mp (h.follows field)

theorem addedId (field : EntityField) (hlisted : field.idKind.isListed = true) (hid : fresh id) :
    Journaled fresh base old (e.addedId field id) (update ids field (id :: ids field)) := by
  rw [Entity.addedId_eq]
  refine h.setEntry field ?_ ?_ ?_
  · rw [follows_of_isListed hlisted]
    exact (h.bounded hlisted).add id
  · intro x hx
    unfold add at hx
    split at hx
    · exact h.added field x hx
    · rcases Finset.mem_insert.mp hx with rfl | hx
      · exact hid
      · exact h.added field x hx
  · intro x
    by_cases hx : x = id
    · exact .inl (hx ▸ hid)
    · rw [count_cons_of_ne (Ne.symm hx)]
      exact h.within field x

theorem removedId (field : EntityField) (hlisted : field.idKind.isListed = true)
    (hid : id ∈ ids field) :
    Journaled fresh base old (e.removedId field id)
      (update ids field ((ids field).erase id)) := by
  rw [Entity.removedId_eq]
  refine h.setEntry field ?_ ?_ ?_
  · rw [follows_of_isListed hlisted]
    exact (h.bounded hlisted).remove hid
  · intro x hx
    unfold remove at hx
    split at hx
    · exact h.added field x (Finset.mem_of_mem_erase hx)
    · exact h.added field x hx
  · intro x
    refine (h.within field x).imp_right ?_
    intro hcount
    exact ((erase_sublist).count_le x).trans hcount

theorem setSingleIdField (hsingle : field.idKind = .single) {oldId : Id}
    (hids : ids field = [oldId]) (hid : fresh id) :
    Journaled fresh base old (e.setSingleIdField field oldId id)
      (update ids field [id]) := by
  have hfollows := (follows_of_single hsingle).mp (h.follows field)
  rw [hids] at hfollows
  obtain ⟨current, hcurrent, hfollows⟩ := hfollows
  cases hcurrent
  have hwithin : ∀ x, fresh x ∨ [id].count x ≤ (old field).count x := by
    intro x
    by_cases hx : x = id
    · exact .inl (hx ▸ hid)
    · rw [count_singleton, beq_eq_false_iff_ne.mpr (Ne.symm hx)]
      exact .inr (Nat.zero_le _)
  have hadded : ∀ x ∈ ({id} : Finset Id), fresh x := by
    intro x hx
    rw [Finset.mem_singleton.mp hx]
    exact hid
  rcases hfollows with ⟨hnone, hbase⟩ | ⟨first, hsome, hbase⟩
  · rw [Entity.setSingleIdField, hnone]
    refine h.setEntry field ?_ hadded hwithin
    exact (follows_of_single hsingle).mpr ⟨id, rfl, .inr ⟨oldId, rfl, hbase⟩⟩
  · rw [Entity.setSingleIdField, hsome]
    refine h.setEntry field ?_ hadded hwithin
    exact (follows_of_single hsingle).mpr ⟨id, rfl, .inr ⟨first, rfl, hbase⟩⟩

theorem notifyFieldChanged (field : EntityField) :
    Journaled fresh base old (e.notifyFieldChanged field) ids :=
  h.of_diffIdsChanged (Entity.diffIdsChanged_notifyFieldChanged e field)

/-- All IDs of a field are removed. -/
theorem foldl_removedId (field : EntityField) (hlisted : field.idKind.isListed = true) :
    Journaled fresh base old ((ids field).foldl (fun e id => e.removedId field id) e)
      (update ids field []) := by
  generalize hlist : ids field = list
  induction list generalizing e ids with
  | nil =>
    have hsame : update ids field [] = ids := by rw [← hlist, update_eq_self]
    rw [hsame]
    exact h
  | cons id list ih =>
    have hfirst := h.removedId field hlisted (hlist ▸ mem_cons_self)
    rw [hlist, erase_cons_head] at hfirst
    have hrest := ih hfirst (update_self ..)
    rw [update_idem] at hrest
    exact hrest

/-- IDs are added to a field. -/
theorem foldl_addedId (field : EntityField) (hlisted : field.idKind.isListed = true)
    {list : List Id} (hlist : ∀ id ∈ list, fresh id) :
    Journaled fresh base old (list.foldl (fun e id => e.addedId field id) e)
      (update ids field (list.reverse ++ ids field)) := by
  induction list generalizing e ids with
  | nil =>
    rw [reverse_nil, nil_append, update_eq_self]
    exact h
  | cons id list ih =>
    have hfirst := h.addedId field hlisted (hlist id mem_cons_self)
    have hrest := ih hfirst fun id' hid' => hlist id' (mem_cons_of_mem id hid')
    rw [update_idem, update_self] at hrest
    rw [reverse_cons, append_assoc]
    exact hrest

end

/-- The IDs of a field that is journaled as removals and additions, in another order. -/
theorem perm {list list' : List Id}
    (h : Journaled fresh base old e (update ids field list))
    (hlisted : field.idKind.isListed = true) (hperm : list.Perm list') :
    Journaled fresh base old e (update ids field list') where
  follows other := by
    have hother := h.follows other
    by_cases heq : other = field
    · subst heq
      rw [update_self, follows_of_isListed hlisted] at hother ⊢
      exact hother.perm hperm
    · rw [update_of_ne heq] at hother ⊢
      exact hother
  added := h.added
  within other x := by
    have hother := h.within other x
    by_cases heq : other = field
    · subst heq
      rw [update_self] at hother ⊢
      rw [← hperm.count_eq]
      exact hother
    · rw [update_of_ne heq] at hother ⊢
      exact hother

end Journaled

/-! ### While the lock is held -/

namespace IdFields

/-- What is known while the lock is held. -/
structure Busy (fresh : Id → Prop) (base : EntityField → Finset Id) (old : EntityField → List Id)
    (s : IdFields) : Prop where
  journaled : Journaled fresh base old s.entity s.ids
  listening : s.entity.Listening
  security : s.entity.entitySecurity.WellFormed
  /-- What is disabled in a group is in the group. -/
  disabled : ∀ id ∈ (s.idSet .groupDisabledIds).ids, id ∈ (s.idSet .groupIds).ids
  called : s.entity.needCallListener = true ∨ ∀ field, s.entity.diffIdsChanged field = none

section Ids

variable {s s' : IdFields} {field : EntityField} {e : Entity}

theorem ids_of_single (h : field.idKind = .single) : s.ids field = [s.singleId field] := by
  rw [ids, h]

theorem ids_of_contained (h : field.idKind = .contained) : s.ids field = [s.singleId field] := by
  rw [ids, h]

theorem ids_of_set (h : field.idKind = .set) : s.ids field = (s.idSet field).ids := by
  rw [ids, h]

/-- What a field has depends on nothing but what is kept for it. -/
theorem ids_congr (hsecurity : s'.entity.entitySecurity = s.entity.entitySecurity)
    (hsingle : s'.singleId field = s.singleId field) (hset : s'.idSet field = s.idSet field)
    (htargets : field = .actionTargets → s'.actionEntityTargets = s.actionEntityTargets) :
    s'.ids field = s.ids field := by
  rw [ids, ids, hsecurity, hsingle, hset]
  cases hkind : field.idKind with
  | targets =>
    have hfield : field = .actionTargets := by cases field <;> first | rfl | cases hkind
    rw [htargets hfield]
  | _ => rfl

theorem ids_setSingleId (h : field.idKind = .single ∨ field.idKind = .contained) (id : Id)
    (he : e.entitySecurity = s.entity.entitySecurity) :
    (s.setSingleId field id e).ids = update s.ids field [id] := by
  funext other
  by_cases hother : other = field
  · subst hother
    have hids : (s.setSingleId other id e).ids other = [(s.setSingleId other id e).singleId other] :=
      h.elim ids_of_single ids_of_contained
    rw [hids, singleId_setSingleId, update_self, update_self]
  · rw [update_of_ne hother]
    exact ids_congr he (update_of_ne hother ..) rfl fun _ => rfl

theorem ids_setIdSet (h : field.idKind = .set) (set : IdSet)
    (he : e.entitySecurity = s.entity.entitySecurity) :
    (s.setIdSet field set e).ids = update s.ids field set.ids := by
  funext other
  by_cases hother : other = field
  · subst hother
    rw [update_self, ids_of_set h, idSet_setIdSet, update_self]
  · rw [update_of_ne hother]
    exact ids_congr he rfl (update_of_ne hother ..) fun _ => rfl

theorem ids_setTargets (targets : List Id) (he : e.entitySecurity = s.entity.entitySecurity) :
    (s.setTargets targets e).ids = update s.ids .actionTargets targets := by
  funext other
  by_cases hother : other = .actionTargets
  · subst hother
    rw [update_self]
    rfl
  · rw [update_of_ne hother]
    exact ids_congr he rfl rfl fun heq => absurd heq hother

end Ids

namespace Busy

variable {fresh : Id → Prop} {base : EntityField → Finset Id} {old : EntityField → List Id}
  {s : IdFields} {field : EntityField} {id : Id}

section

variable (h : Busy fresh base old s)
include h

/-- A field has changed, and is marked. -/
theorem changed {s' : IdFields} {e : Entity} (he : s'.entity = e.notifyFieldChanged field)
    (hsetup : e.setup = s.entity.setup) (hjournaled : Journaled fresh base old e s'.ids)
    (hdisabled : ∀ id ∈ (s'.idSet .groupDisabledIds).ids, id ∈ (s'.idSet .groupIds).ids) :
    Busy fresh base old s' := by
  have hlistening := h.listening.of_setup hsetup
  refine ⟨?_, ?_, ?_, hdisabled, ?_⟩
  · rw [he]
    exact hjournaled.notifyFieldChanged field
  · rw [he]
    exact hlistening.of_setup (Entity.setup_notifyFieldChanged e field)
  · rw [he, Entity.entitySecurity_of_setup (Entity.setup_notifyFieldChanged e field),
      Entity.entitySecurity_of_setup hsetup]
    exact h.security
  · rw [he]
    exact .inl (hlistening.needCallListener_notifyFieldChanged field)

theorem replaceId (hsingle : field.idKind = .single) (hid : fresh id) :
    Busy fresh base old (s.replaceId field id) := by
  have hsetup := Entity.setup_setSingleIdField s.entity field (s.singleId field) id
  refine h.changed rfl hsetup ?_ h.disabled
  have hids := ids_setSingleId (.inl hsingle) id (Entity.entitySecurity_of_setup
    ((Entity.setup_notifyFieldChanged _ field).trans hsetup))
  rw [IdFields.replaceId, hids]
  exact h.journaled.setSingleIdField hsingle (ids_of_single hsingle) hid

theorem replaceOther (hsingle : field.idKind = .single) (hid : fresh id) :
    Busy fresh base old (s.replaceOther field id) := by
  unfold IdFields.replaceOther
  split
  · exact h.replaceId hsingle hid
  · exact h

theorem setContainedBy (hid : fresh id) : Busy fresh base old (s.setContainedBy id) := by
  unfold IdFields.setContainedBy
  split
  · next hother =>
    have hremoved := h.journaled.removedId .containedBy rfl mem_cons_self
    have hadded := (hremoved.notifyFieldChanged .containedBy).addedId .containedBy rfl hid
    rw [update_idem, update_self] at hadded
    have hsetup := Entity.setup_addedId ((s.entity.removedId .containedBy
      (s.singleId .containedBy)).notifyFieldChanged .containedBy) .containedBy id
    rw [Entity.setup_notifyFieldChanged, Entity.setup_removedId] at hsetup
    refine h.changed rfl hsetup ?_ h.disabled
    rw [ids_setSingleId (.inr rfl) id (Entity.entitySecurity_of_setup
      ((Entity.setup_notifyFieldChanged _ _).trans hsetup))]
    have hnone : (s.ids .containedBy).erase (s.singleId .containedBy) = [] := erase_cons_head ..
    rw [hnone] at hadded
    exact hadded
  · exact h

theorem insertId (field : EntityField) (hset : field.idKind = .set) (hid : fresh id)
    (hdisabled : field = .groupDisabledIds → id ∈ (s.idSet .groupIds).ids) :
    Busy fresh base old (s.insertId field id) := by
  unfold IdFields.insertId
  split
  · exact h
  · next hmem =>
    have hsetup := Entity.setup_addedId s.entity field id
    refine h.changed rfl hsetup ?_ ?_
    · rw [ids_setIdSet hset _ (Entity.entitySecurity_of_setup
        ((Entity.setup_notifyFieldChanged _ _).trans hsetup)), IdSet.ids_insert,
        insert_of_not_mem hmem, ← ids_of_set hset]
      exact h.journaled.addedId field (by rw [hset]; rfl) hid
    · intro x hx
      have hgroup : ∀ y ∈ (s.idSet .groupIds).ids,
          y ∈ (update s.idSet field ((s.idSet field).insert id) .groupIds).ids := by
        intro y hy
        by_cases hfield : groupIds = field
        · subst hfield
          rw [update_self]
          exact mem_insert_of_mem hy
        · rwa [update_of_ne hfield]
      by_cases hfield : groupDisabledIds = field
      · subst hfield
        rw [idSet_setIdSet, update_self] at hx
        rcases mem_insert_iff.mp hx with rfl | hx
        · exact hgroup x (hdisabled rfl)
        · exact hgroup x (h.disabled x hx)
      · rw [idSet_setIdSet, update_of_ne hfield] at hx
        exact hgroup x (h.disabled x hx)

theorem eraseId (field : EntityField) (hset : field.idKind = .set) (id : Id)
    (hdisabled : field = .groupIds → id ∉ (s.idSet .groupDisabledIds).ids) :
    Busy fresh base old (s.eraseId field id) := by
  unfold IdFields.eraseId
  split
  · next hmem =>
    have hsetup := Entity.setup_removedId s.entity field id
    refine h.changed rfl hsetup ?_ ?_
    · rw [ids_setIdSet hset _ (Entity.entitySecurity_of_setup
        ((Entity.setup_notifyFieldChanged _ _).trans hsetup)), IdSet.ids_erase,
        ← ids_of_set hset]
      exact h.journaled.removedId field (by rw [hset]; rfl) (by rw [ids_of_set hset]; exact hmem)
    · intro x hx
      have hx' : x ∈ (s.idSet .groupDisabledIds).ids := by
        by_cases hfield : groupDisabledIds = field
        · subst hfield
          rw [idSet_setIdSet, update_self] at hx
          exact mem_of_mem_erase hx
        · rwa [idSet_setIdSet, update_of_ne hfield] at hx
      have hgroup := h.disabled x hx'
      rw [idSet_setIdSet]
      by_cases hfield : groupIds = field
      · subst hfield
        rw [update_self]
        have hne : x ≠ id := by
          rintro rfl
          exact hdisabled rfl hx'
        exact (mem_erase_of_ne hne).mpr hgroup
      · rwa [update_of_ne hfield]
  · exact h

theorem addToGroup (hid : fresh id) : Busy fresh base old (s.addToGroup id) := by
  unfold IdFields.addToGroup
  split
  · exact h.insertId .groupIds rfl hid nofun
  · exact h

theorem removeFromGroup (id : Id) : Busy fresh base old (s.removeFromGroup id) := by
  unfold IdFields.removeFromGroup
  split
  · refine (h.eraseId .groupDisabledIds rfl id nofun).eraseId .groupIds rfl id ?_
    intro _ hmem
    -- it is no longer among those that are disabled
    unfold IdFields.eraseId at hmem
    split at hmem
    · rw [idSet_setIdSet, update_self, IdSet.ids_erase] at hmem
      exact (s.idSet .groupDisabledIds).nodup.not_mem_erase hmem
    · next hnot => exact hnot hmem
  · exact h

theorem addToDisabledGroup (hid : fresh id) : Busy fresh base old (s.addToDisabledGroup id) := by
  unfold IdFields.addToDisabledGroup
  split
  · next hgroup => exact h.insertId .groupDisabledIds rfl hid fun _ => hgroup
  · exact h

theorem setProgramIncludes {includes : IdSet} (hincludes : ∀ id ∈ includes.ids, fresh id) :
    Busy fresh base old (s.setProgramIncludes includes) := by
  have hremoved := h.journaled.foldl_removedId .programIncludes rfl
  have hadded := hremoved.foldl_addedId .programIncludes rfl hincludes
  rw [update_idem, update_self, append_nil] at hadded
  have hsetup := (Entity.setup_foldl_addedId includes.ids _ .programIncludes).trans
    (Entity.setup_foldl_removedId (s.idSet .programIncludes).ids s.entity .programIncludes)
  refine h.changed rfl hsetup ?_ h.disabled
  rw [IdFields.setProgramIncludes, ids_setIdSet rfl _ (Entity.entitySecurity_of_setup
    ((Entity.setup_notifyFieldChanged _ _).trans hsetup))]
  exact hadded.perm rfl (reverse_perm includes.ids)

theorem addActionTarget (hid : fresh id) : Busy fresh base old (s.addActionTarget id) := by
  unfold IdFields.addActionTarget
  split
  · exact h
  · have hsetup := Entity.setup_addedId s.entity .actionTargets id
    refine h.changed rfl hsetup ?_ h.disabled
    rw [ids_setTargets _ (Entity.entitySecurity_of_setup
      ((Entity.setup_notifyFieldChanged _ _).trans hsetup))]
    exact (h.journaled.addedId .actionTargets rfl hid).perm rfl
      (perm_append_singleton id _).symm

theorem removeActionTarget (id : Id) : Busy fresh base old (s.removeActionTarget id) := by
  unfold IdFields.removeActionTarget
  split
  · next hmem =>
    have hsetup := Entity.setup_removedId s.entity .actionTargets id
    refine h.changed rfl hsetup ?_ h.disabled
    rw [ids_setTargets _ (Entity.entitySecurity_of_setup
      ((Entity.setup_notifyFieldChanged _ _).trans hsetup))]
    exact h.journaled.removedId .actionTargets rfl hmem
  · exact h

theorem clearActionTarget : Busy fresh base old s.clearActionTarget := by
  unfold IdFields.clearActionTarget
  split
  · exact h
  · have hsetup := Entity.setup_foldl_removedId s.actionEntityTargets s.entity .actionTargets
    refine h.changed rfl hsetup ?_ h.disabled
    rw [ids_setTargets _ (Entity.entitySecurity_of_setup
      ((Entity.setup_notifyFieldChanged _ _).trans hsetup))]
    exact h.journaled.foldl_removedId .actionTargets rfl

theorem setActionTarget {targets : List Id} (htargets : ∀ id ∈ targets, fresh id) :
    Busy fresh base old (s.setActionTarget targets) := by
  have hclear := h.clearActionTarget
  have hnone : s.clearActionTarget.actionEntityTargets = [] := by
    unfold IdFields.clearActionTarget
    split
    · assumption
    · rfl
  by_cases hempty : targets = []
  · subst hempty
    have hids : (s.setActionTarget []).ids = s.clearActionTarget.ids := by
      funext field
      exact ids_congr rfl rfl rfl fun _ => hnone.symm
    refine ⟨?_, hclear.listening, hclear.security, hclear.disabled, hclear.called⟩
    rw [hids]
    exact hclear.journaled
  · have hadded := hclear.journaled.foldl_addedId .actionTargets rfl htargets
    have hids : s.clearActionTarget.ids .actionTargets = [] := hnone
    rw [hids, append_nil] at hadded
    have hsetup := Entity.setup_foldl_addedId targets s.clearActionTarget.entity .actionTargets
    rw [IdFields.setActionTarget, if_neg hempty]
    refine hclear.changed rfl hsetup ?_ hclear.disabled
    rw [ids_setTargets _ (Entity.entitySecurity_of_setup
      ((Entity.setup_notifyFieldChanged _ _).trans hsetup))]
    exact hadded.perm rfl (reverse_perm targets)

/-- A Security that calls have made is put in the place of another one, and nothing is
entered. -/
theorem setEntitySecurity {security : Security} (hsecurity : security.WellFormed)
    (hwithin : ∀ x, fresh x ∨ (security.adminIds ++ security.listIds).count x
      ≤ (old .security).count x) : Busy fresh base old (s.setEntitySecurity security) := by
  have hentity : s.entity.setEntitySecurity security
      = ({ s.entity with entitySecurity := security } : Entity).notifyFieldChanged .security := by
    rw [Entity.setEntitySecurity, Security.diffIds_of_wellFormed h.security hsecurity]
    rfl
  have hlistening : ({ s.entity with entitySecurity := security } : Entity).Listening := h.listening
  have hsetup := Entity.setup_notifyFieldChanged
    ({ s.entity with entitySecurity := security } : Entity) .security
  have hjournals : (s.setEntitySecurity security).entity.diffIdsChanged = s.entity.diffIdsChanged := by
    rw [IdFields.setEntitySecurity, hentity, Entity.diffIdsChanged_notifyFieldChanged]
  have hnew : (s.setEntitySecurity security).entity.entitySecurity = security := by
    rw [IdFields.setEntitySecurity, hentity, Entity.entitySecurity_of_setup hsetup]
  have hids : ∀ field ≠ .security, (s.setEntitySecurity security).ids field = s.ids field := by
    intro field hfield
    unfold ids
    cases field <;> first | rfl | exact absurd rfl hfield
  refine ⟨⟨?_, ?_, ?_⟩, ?_, ?_, h.disabled, ?_⟩
  · intro field
    rw [hjournals]
    by_cases hfield : field = .security
    · subst hfield
      exact (follows_of_security rfl).mpr
        ((follows_of_security rfl).mp (h.journaled.follows .security))
    · rw [hids field hfield]
      exact h.journaled.follows field
  · intro field
    rw [Entity.journal, hjournals]
    exact h.journaled.added field
  · intro field x
    by_cases hfield : field = .security
    · subst hfield
      have hids' : (s.setEntitySecurity security).ids .security
          = security.adminIds ++ security.listIds := by
        rw [ids]
        simp only [idKind, hnew]
      rw [hids']
      exact hwithin x
    · rw [hids field hfield]
      exact h.journaled.within field x
  · rw [IdFields.setEntitySecurity, hentity]
    exact hlistening.of_setup hsetup
  · rw [hnew]
    exact hsecurity
  · rw [IdFields.setEntitySecurity, hentity]
    exact .inl (hlistening.needCallListener_notifyFieldChanged .security)

/-- **Every call keeps what is known**, if what it puts in a field is fresh. -/
theorem call (c : FieldCall) (hnew : ∀ id ∈ c.newIds, fresh id) :
    Busy fresh base old (s.call c) := by
  cases c with
  | setEntityOwner owner => exact h.replaceOther rfl (hnew owner mem_cons_self)
  | setEntitySecurity security hsecurity =>
    refine h.setEntitySecurity hsecurity ?_
    intro x
    by_cases hx : x ∈ security.adminIds ++ security.listIds
    · exact .inl (hnew x hx)
    · rw [count_eq_zero.mpr hx]
      exact .inr (Nat.zero_le _)
  | setContainedBy id => exact h.setContainedBy (hnew id mem_cons_self)
  | addProgram id => exact h.insertId .linkedPrograms rfl (hnew id mem_cons_self) nofun
  | removeProgram id => exact h.eraseId .linkedPrograms rfl id nofun
  | setPlayerHome home => exact h.replaceOther rfl (hnew home mem_cons_self)
  | setThingHome home => exact h.replaceId rfl (hnew home mem_cons_self)
  | setVehicleInterior interior => exact h.replaceId rfl (hnew interior mem_cons_self)
  | setVehicleController controller => exact h.replaceId rfl (hnew controller mem_cons_self)
  | addToGroup id => exact h.addToGroup (hnew id mem_cons_self)
  | removeFromGroup id => exact h.removeFromGroup id
  | addToDisabledGroup id => exact h.addToDisabledGroup (hnew id mem_cons_self)
  | removeFromDisabledGroup id => exact h.eraseId .groupDisabledIds rfl id nofun
  | setProgramIncludes includes => exact h.setProgramIncludes hnew
  | clearIncludedPrograms => exact h.setProgramIncludes nofun
  | setActionContainedBy container => exact h.replaceId rfl (hnew container mem_cons_self)
  | addActionTarget target => exact h.addActionTarget (hnew target mem_cons_self)
  | removeActionTarget target => exact h.removeActionTarget target
  | clearActionTarget => exact h.clearActionTarget
  | setActionTarget targets => exact h.setActionTarget hnew

theorem foldl_call (calls : List FieldCall) (hnew : ∀ c ∈ calls, ∀ id ∈ c.newIds, fresh id) :
    Busy fresh base old (calls.foldl IdFields.call s) := by
  induction calls generalizing s with
  | nil => exact h
  | cons c calls ih =>
    exact ih (h.call c (hnew c mem_cons_self)) fun c' hc' => hnew c' (mem_cons_of_mem c hc')

end

end Busy

/-! ### When the lock is released -/

/-- What is known while no lock is held: nothing is left to be told. -/
structure Quiet (s : IdFields) : Prop where
  listening : s.entity.Listening
  security : s.entity.entitySecurity.WellFormed
  disabled : ∀ id ∈ (s.idSet .groupDisabledIds).ids, id ∈ (s.idSet .groupIds).ids
  told : ∀ field, s.entity.diffIdsChanged field = none

/-- The journal of a field that the listeners are told. -/
def toldIds (changes : Option EntityChanges) (field : EntityField) : SetJournal Id :=
  (changes.bind fun changes => changes.ids field).getD .empty

/-- What is known of what the listeners are told, and of the fields then. -/
structure Told (fresh : Id → Prop) (base : EntityField → Finset Id) (old : EntityField → List Id)
    (changes : Option EntityChanges) (s : IdFields) : Prop where
  quiet : s.Quiet
  /-- No ID comes to be known of a field that does not have it. -/
  known : ∀ field, ∀ x ∈ (toldIds changes field).apply (base field),
    x ∈ s.ids field ∧ field ≠ .security
  added : ∀ field, ∀ x ∈ (toldIds changes field).added, fresh x
  within : ∀ field x, fresh x ∨ (s.ids field).count x ≤ (old field).count x

section Release

variable {fresh : Id → Prop} {base : EntityField → Finset Id} {old : EntityField → List Id}
  {s : IdFields}

theorem Quiet.busy (h : s.Quiet) (hbase : ∀ field, ∀ x ∈ base field, x ∈ s.ids field ∧
    field ≠ .security) : Busy fresh base s.ids s where
  journaled :=
    { follows := by
        intro field
        rw [h.told field]
        by_cases hlisted : field.idKind.isListed = true
        · rw [follows_of_isListed hlisted]
          exact .empty fun x hx => (hbase field x hx).1
        · unfold EntityField.Follows
          cases hkind : field.idKind with
          | none =>
            refine ⟨rfl, Finset.eq_empty_of_forall_notMem ?_⟩
            intro x hx
            have hmem := (hbase field x hx).1
            rw [ids, hkind] at hmem
            cases hmem
          | security =>
            refine ⟨rfl, Finset.eq_empty_of_forall_notMem ?_⟩
            intro x hx
            refine (hbase field x hx).2 ?_
            cases field <;> first | rfl | cases hkind
          | single =>
            refine ⟨s.singleId field, ids_of_single hkind, .inl ⟨rfl, ?_⟩⟩
            intro x hx
            have hmem := (hbase field x hx).1
            rw [ids_of_single hkind] at hmem
            exact mem_singleton.mp hmem
          | _ => rw [hkind] at hlisted; exact absurd rfl hlisted
      added := by
        intro field x hx
        rw [Entity.journal_of_none (h.told field)] at hx
        cases hx
      within := fun _ _ => .inr le_rfl }
  listening := h.listening
  security := h.security
  disabled := h.disabled
  called := .inr h.told

/-- What is in the fields does not change when the lock is released. -/
theorem ids_underLock (s : IdFields) (change : IdFields → IdFields) (now : TimeStamp)
    (field : EntityField) : (s.underLock change now).2.ids field = (change s).ids field :=
  ids_congr (Entity.entitySecurity_of_setup (Entity.setup_notifyDbListener _ now)) rfl rfl
    fun _ => rfl

/-- **What the listeners are told does not exceed what is in the fields.**  They are
called if there is anything to tell. -/
theorem told_underLock (change : IdFields → IdFields) (h : Busy fresh base old (change s))
    (now : TimeStamp) :
    Told fresh base old (s.underLock change now).1 (s.underLock change now).2 := by
  have htold : (∀ field, ((change s).entity.notifyDbListener now).2.diffIdsChanged field = none) ∧
      ∀ field, toldIds ((change s).entity.notifyDbListener now).1 field =
        (change s).entity.journal field := by
    unfold Entity.notifyDbListener
    split
    · refine ⟨fun _ => rfl, ?_⟩
      intro field
      rw [toldIds, Option.bind_some, ((change s).entity.stampUpdate_eq now).2, Entity.journal]
    · next hnot =>
      have hnone : ∀ field, (change s).entity.diffIdsChanged field = none := by
        refine h.called.resolve_left ?_
        intro hcalled
        rw [hcalled, h.listening.1] at hnot
        exact hnot rfl
      refine ⟨hnone, ?_⟩
      intro field
      rw [Entity.journal_of_none (hnone field)]
      rfl
  have hsetup : (s.underLock change now).2.entity.setup = (change s).entity.setup :=
    Entity.setup_notifyDbListener _ now
  refine ⟨⟨h.listening.of_setup hsetup, ?_, h.disabled, htold.1⟩, ?_, ?_, ?_⟩
  · rw [Entity.entitySecurity_of_setup hsetup]
    exact h.security
  · intro field x hx
    rw [ids_underLock]
    have hx' : x ∈ ((change s).entity.journal field).apply (base field) := htold.2 field ▸ hx
    exact (h.journaled.follows field).mem hx'
  · intro field x hx
    exact h.journaled.added field x (htold.2 field ▸ hx)
  · intro field x
    rw [ids_underLock]
    exact h.journaled.within field x

end Release

end IdFields

end Mutgos.DbTypes
