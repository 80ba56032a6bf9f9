import Mutgos.DbTypes.Entity
import Mutgos.Lib.ListWalk
import Mutgos.Lib.SortedMap
import Mutgos.Lib.SortedSet

/-!
# Who refers to an Entity

An Entity knows which Entities refer to it, and by which of their fields.  It keeps that twice:
`entity_references` has the fields under the ID, and `entity_references_field` the IDs under the
field, in an array of pointers to sets that exist only while they are not empty.  Only the
first is saved; the second is made out of it when the Entity is restored.

## Main results

* `agrees_of_reached` — **the two indexes agree after any operations.**

## Implementation notes

A field is its number in the enumeration of `dbtype::EntityField`, with the markers, since the
operations compare it with `ENTITYFIELD_BEGIN` and `ENTITYFIELD_END`.
-/

namespace Mutgos.DbTypes

open Function SortedMap

/-- An `EntityField` as a number. -/
abbrev FieldNumber := ℕ

/-- `ENTITYFIELD_BEGIN` -/
def fieldBegin : FieldNumber := 0

/-- `ENTITYFIELD_END` -/
def fieldEnd : FieldNumber := 75

/-- An Entity with the two indexes of its references. -/
structure ReferencedEntity extends Entity where
  entityReferences : List (Id × List FieldNumber)
  /-- `entity_references_field`; null is `none`. -/
  entityReferencesField : FieldNumber → Option (List Id)

namespace ReferencedEntity

/-- The field is out of range. -/
def outOfRange (field : FieldNumber) : Bool :=
  decide (fieldEnd ≤ field) || decide (field ≤ fieldBegin)

/-- A field is put under an ID, which is entered if it is not there. -/
def putField (id : Id) (field : FieldNumber) (references : List (Id × List FieldNumber)) :
    List (Id × List FieldNumber) :=
  SortedMap.insert id
    (SortedSet.insert field ((SortedMap.find id references).getD [])) references

/-- An ID is put into the set of a field, which is made if there is none. -/
def putId (id : Id) (index : FieldNumber → Option (List Id)) (field : FieldNumber) :
    FieldNumber → Option (List Id) :=
  update index field (some (SortedSet.insert id ((index field).getD [])))

/-- An ID is taken out of the set of a field, which is deleted when it becomes empty. -/
def dropId (id : Id) (index : FieldNumber → Option (List Id)) (field : FieldNumber) :
    FieldNumber → Option (List Id) :=
  match index field with
  | none => index
  | some ids =>
    update index field
      (if SortedSet.erase id ids = [] then none else some (SortedSet.erase id ids))

variable (e : ReferencedEntity)

def addEntityReference (id : Id) (field : FieldNumber) : Bool × ReferencedEntity :=
  if outOfRange field then (false, e)
  else
    (true,
      { toEntity := e.notifyFieldChanged .references
        entityReferences := putField id field e.entityReferences
        entityReferencesField := putId id e.entityReferencesField field })

/-- The first half of `remove_entity_reference`: the field is taken from the ID, which goes with
its last field. -/
def dropField (id : Id) (field : FieldNumber) (references : List (Id × List FieldNumber)) :
    List (Id × List FieldNumber) :=
  match SortedMap.find id references with
  | none => references
  | some fields =>
    if SortedSet.erase field fields = [] then SortedMap.erase id references
    else SortedMap.insert id (SortedSet.erase field fields) references

/-- `remove_entity_reference` of an ID and a field. -/
def removeEntityReference (id : Id) (field : FieldNumber) : Bool × ReferencedEntity :=
  if outOfRange field then (false, e)
  else
    (true,
      { toEntity := e.notifyFieldChanged .references
        entityReferences := dropField id field e.entityReferences
        entityReferencesField := dropId id e.entityReferencesField field })

/-- `remove_entity_reference` of an ID. -/
def removeEntityReferences (id : Id) : Bool × ReferencedEntity :=
  match SortedMap.find id e.entityReferences with
  | none => (true, e)
  | some fields =>
    (true,
      { toEntity := e.notifyFieldChanged .references
        entityReferences := SortedMap.erase id e.entityReferences
        entityReferencesField := fields.foldl (dropId id) e.entityReferencesField })

def clearAllReferences : Bool × ReferencedEntity :=
  (true,
    { toEntity := e.notifyFieldChanged .references
      entityReferences := []
      entityReferencesField := fun _ => none })

/-- `populate_entity_references_field`: the array out of the map. -/
def populateEntityReferencesField (references : List (Id × List FieldNumber)) :
    FieldNumber → Option (List Id) :=
  references.foldl (fun index entry => entry.2.foldl (putId entry.1) index) fun _ => none

/-- The Entity has been given the references of another one, by an archive or by `copy_fields`,
and makes its array out of them. -/
def restoreReferences (references : List (Id × List FieldNumber)) : ReferencedEntity :=
  { e with
    entityReferences := references
    entityReferencesField := populateEntityReferencesField references }

/-! ### What is read -/

def getFieldReferences (id : Id) : List FieldNumber :=
  (SortedMap.find id e.entityReferences).getD []

def getReferenceIds : List Id := e.entityReferences.map Prod.fst

/-- `get_reference_ids` of a field. -/
def getFieldReferenceIds (field : FieldNumber) : List Id :=
  if outOfRange field then [] else (e.entityReferencesField field).getD []

def getFirstReference : Id := e.getReferenceIds.head?.getD default

def getNextReference (id : Id) : Id := (nextIn id e.getReferenceIds).getD default

def getLastReference : Id := e.getReferenceIds.getLast?.getD default

/-- `get_first_reference` of a field. -/
def getFirstFieldReference (field : FieldNumber) : Id :=
  (e.getFieldReferenceIds field).head?.getD default

/-- `get_next_reference` of a field. -/
def getNextFieldReference (field : FieldNumber) (id : Id) : Id :=
  (nextIn id (e.getFieldReferenceIds field)).getD default

/-- `get_last_reference` of a field. -/
def getLastFieldReference (field : FieldNumber) : Id :=
  (e.getFieldReferenceIds field).getLast?.getD default

/-! ### The relation -/

/-- An Entity as it is made. -/
def new (hasDbListeners : Bool) (now : TimeStamp) : ReferencedEntity where
  toEntity := .new hasDbListeners now
  entityReferences := []
  entityReferencesField := fun _ => none

/-- What the operations make of a new Entity.  What it is restored from is what has been saved
of one of them. -/
inductive Reached : ReferencedEntity → Prop
  | new (hasDbListeners : Bool) (now : TimeStamp) : Reached (new hasDbListeners now)
  | add {e : ReferencedEntity} (id : Id) (field : FieldNumber) :
    Reached e → Reached (e.addEntityReference id field).2
  | remove {e : ReferencedEntity} (id : Id) (field : FieldNumber) :
    Reached e → Reached (e.removeEntityReference id field).2
  | removeId {e : ReferencedEntity} (id : Id) : Reached e → Reached (e.removeEntityReferences id).2
  | clear {e : ReferencedEntity} : Reached e → Reached e.clearAllReferences.2
  | restore {e saved : ReferencedEntity} :
    Reached e → Reached saved → Reached (e.restoreReferences saved.entityReferences)

/-- **The two indexes are one relation**, and whatever reads them reads that. -/
structure Agrees : Prop where
  /-- One has the field under the ID exactly if the other has the ID under the field. -/
  mem_iff : ∀ id field, outOfRange field = false →
    ((∃ fields, SortedMap.find id e.entityReferences = some fields ∧ field ∈ fields) ↔
      ∃ ids, e.entityReferencesField field = some ids ∧ id ∈ ids)
  fields_ne_nil : ∀ id fields, SortedMap.find id e.entityReferences = some fields → fields ≠ []
  ids_ne_nil : ∀ field ids, e.entityReferencesField field = some ids → ids ≠ []
  /-- The sets that are answered. -/
  sets : ∀ id field, outOfRange field = false →
    (field ∈ e.getFieldReferences id ↔ id ∈ e.getFieldReferenceIds field)
  ids : ∀ id, id ∈ e.getReferenceIds ↔
    ∃ field, outOfRange field = false ∧ id ∈ e.getFieldReferenceIds field
  /-- The IDs are gone through in order, each once. -/
  sorted : SortedSet.Sorted e.getReferenceIds
  walks : Mutgos.Walks e.getFirstReference e.getNextReference e.getLastReference e.getReferenceIds
  sorted_field : ∀ field, SortedSet.Sorted (e.getFieldReferenceIds field)
  walks_field : ∀ field, Mutgos.Walks (e.getFirstFieldReference field) (e.getNextFieldReference field)
    (e.getLastFieldReference field) (e.getFieldReferenceIds field)

/-- The field is listed under the ID. -/
def HasField (references : List (Id × List FieldNumber)) (id : Id) (field : FieldNumber) : Prop :=
  ∃ fields, SortedMap.find id references = some fields ∧ field ∈ fields

/-- The ID is listed under the field. -/
def HasId (index : FieldNumber → Option (List Id)) (id : Id) (field : FieldNumber) : Prop :=
  ∃ ids, index field = some ids ∧ id ∈ ids

/-- What a map of references is like. -/
structure ValidReferences (references : List (Id × List FieldNumber)) : Prop where
  sorted : SortedMap.Sorted references
  fields : ∀ id fields, SortedMap.find id references = some fields →
    fields ≠ [] ∧ SortedSet.Sorted fields ∧ ∀ field ∈ fields, outOfRange field = false

/-- What an array of sets is like. -/
def ValidIndex (index : FieldNumber → Option (List Id)) : Prop :=
  ∀ field ids, index field = some ids → ids ≠ [] ∧ SortedSet.Sorted ids

/-- The invariant. -/
structure Valid (references : List (Id × List FieldNumber))
    (index : FieldNumber → Option (List Id)) : Prop where
  map : ValidReferences references
  array : ValidIndex index
  mem_iff : ∀ id field, HasField references id field ↔ HasId index id field

variable {e} {references : List (Id × List FieldNumber)} {index : FieldNumber → Option (List Id)}
  {id id' : Id} {field field' : FieldNumber}

/-! ### The array -/

theorem hasId_putId : HasId (putId id index field) id' field' ↔
    id' = id ∧ field' = field ∨ HasId index id' field' := by
  unfold HasId putId
  by_cases hfield : field' = field
  · subst hfield
    rw [update_self]
    cases hget : index field' with
    | none => simp [SortedSet.mem_insert]
    | some ids => simp [SortedSet.mem_insert]
  · simp [hfield]

theorem ValidIndex.putId (h : ValidIndex index) (id : Id) (field : FieldNumber) :
    ValidIndex (putId id index field) := by
  intro field' ids hids
  by_cases hfield : field' = field
  · subst hfield
    rw [ReferencedEntity.putId, update_self, Option.some.injEq] at hids
    subst hids
    refine ⟨SortedSet.insert_ne_nil, SortedSet.Sorted.insert ?_ id⟩
    cases hget : index field' with
    | none => exact SortedSet.sorted_nil
    | some ids => exact (h field' ids hget).2
  · rw [ReferencedEntity.putId, update_of_ne hfield] at hids
    exact h field' ids hids

theorem dropId_of_none (h : index field = none) : dropId id index field = index := by
  rw [dropId, h]

theorem dropId_of_some {ids : List Id} (h : index field = some ids) : dropId id index field =
    update index field
      (if SortedSet.erase id ids = [] then none else some (SortedSet.erase id ids)) := by
  rw [dropId, h]

theorem hasId_dropId (h : ValidIndex index) : HasId (dropId id index field) id' field' ↔
    ¬ (id' = id ∧ field' = field) ∧ HasId index id' field' := by
  cases hget : index field with
  | none =>
    rw [dropId_of_none hget]
    refine (and_iff_right_of_imp ?_).symm
    rintro ⟨ids, hids, -⟩ ⟨-, rfl⟩
    rw [hget] at hids
    cases hids
  | some ids =>
    have herase : ∀ {k}, k ∈ SortedSet.erase id ids ↔ k ≠ id ∧ k ∈ ids :=
      (h field ids hget).2.mem_erase
    rw [dropId_of_some hget]
    unfold HasId
    by_cases hfield : field' = field
    · subst hfield
      rw [update_self, hget]
      split
      · next hempty =>
        have hnone : ¬ (id' ≠ id ∧ id' ∈ ids) := by
          rw [← herase, hempty]
          exact List.not_mem_nil
        simpa using hnone
      · simp [herase]
    · simp [hfield]

theorem ValidIndex.dropId (h : ValidIndex index) (id : Id) (field : FieldNumber) :
    ValidIndex (dropId id index field) := by
  intro field' ids hids
  cases hget : index field with
  | none =>
    rw [dropId_of_none hget] at hids
    exact h field' ids hids
  | some old =>
    rw [dropId_of_some hget] at hids
    by_cases hfield : field' = field
    · subst hfield
      rw [update_self] at hids
      split at hids
      · cases hids
      · next hne =>
        cases hids
        exact ⟨hne, (h field' old hget).2.erase id⟩
    · rw [update_of_ne hfield] at hids
      exact h field' ids hids

/-- An ID is taken out of the sets of several fields. -/
theorem hasId_dropId_foldl (h : ValidIndex index) (id : Id) (fields : List FieldNumber) :
    ValidIndex (fields.foldl (ReferencedEntity.dropId id) index) ∧
      ∀ id' field', HasId (fields.foldl (ReferencedEntity.dropId id) index) id' field' ↔
        ¬ (id' = id ∧ field' ∈ fields) ∧ HasId index id' field' := by
  induction fields generalizing index with
  | nil => exact ⟨h, fun id' field' => by simp⟩
  | cons field fields ih =>
    obtain ⟨hvalid, hmem⟩ := ih (h.dropId id field)
    refine ⟨hvalid, fun id' field' => ?_⟩
    rw [List.foldl_cons, hmem, hasId_dropId h, List.mem_cons]
    tauto

/-! ### The map -/

theorem HasField.outOfRange (h : ValidReferences references)
    (hfield : HasField references id field) :
    ReferencedEntity.outOfRange field = false := by
  obtain ⟨fields, hfind, hmem⟩ := hfield
  exact (h.fields id fields hfind).2.2 field hmem

theorem hasField_putField : HasField (putField id field references) id' field' ↔
    id' = id ∧ field' = field ∨ HasField references id' field' := by
  unfold HasField putField
  rw [find_insert]
  by_cases hid : id' = id
  · subst hid
    cases hget : SortedMap.find id' references with
    | none => simp [SortedSet.mem_insert]
    | some fields => simp [SortedSet.mem_insert]
  · simp [hid]

theorem ValidReferences.putField (h : ValidReferences references) (id : Id)
    (hrange : ReferencedEntity.outOfRange field = false) :
    ValidReferences (putField id field references) where
  sorted := h.sorted.insert id _
  fields := by
    intro id' fields hfind
    rw [ReferencedEntity.putField, find_insert] at hfind
    split at hfind
    · cases hfind
      refine ⟨SortedSet.insert_ne_nil, SortedSet.Sorted.insert ?_ field, fun field' hmem => ?_⟩
      · cases hget : SortedMap.find id references with
        | none => exact SortedSet.sorted_nil
        | some fields => exact (h.fields id fields hget).2.1
      · rcases SortedSet.mem_insert.mp hmem with rfl | hold
        · exact hrange
        · cases hget : SortedMap.find id references with
          | none =>
            rw [hget] at hold
            cases hold
          | some fields =>
            rw [hget] at hold
            exact (h.fields id fields hget).2.2 field' hold
    · exact h.fields id' fields hfind

theorem dropField_of_none (h : SortedMap.find id references = none) :
    dropField id field references = references := by
  rw [dropField, h]

theorem dropField_of_some {fields : List FieldNumber}
    (h : SortedMap.find id references = some fields) : dropField id field references =
      if SortedSet.erase field fields = [] then SortedMap.erase id references
      else SortedMap.insert id (SortedSet.erase field fields) references := by
  rw [dropField, h]

theorem hasField_erase : HasField (SortedMap.erase id references) id' field' ↔
    id' ≠ id ∧ HasField references id' field' := by
  unfold HasField
  rw [find_erase]
  by_cases hid : id' = id
  · simp [hid]
  · simp [hid]

theorem hasField_dropField (h : ValidReferences references) :
    HasField (dropField id field references) id' field' ↔
      ¬ (id' = id ∧ field' = field) ∧ HasField references id' field' := by
  cases hget : SortedMap.find id references with
  | none =>
    rw [dropField_of_none hget]
    refine (and_iff_right_of_imp ?_).symm
    rintro ⟨fields, hfields, -⟩ ⟨rfl, -⟩
    rw [hget] at hfields
    cases hfields
  | some fields =>
    have herase : ∀ {k}, k ∈ SortedSet.erase field fields ↔ k ≠ field ∧ k ∈ fields :=
      (h.fields id fields hget).2.1.mem_erase
    rw [dropField_of_some hget]
    by_cases hid : id' = id
    · subst hid
      split
      · next hempty =>
        have hnone : ¬ (field' ≠ field ∧ field' ∈ fields) := by
          rw [← herase, hempty]
          exact List.not_mem_nil
        rw [hasField_erase]
        simpa [HasField, hget] using hnone
      · simp [HasField, find_insert, hget, herase]
    · split
      · rw [hasField_erase]
        simp [hid]
      · simp [HasField, find_insert, hid]

theorem ValidReferences.erase (h : ValidReferences references) (id : Id) :
    ValidReferences (SortedMap.erase id references) where
  sorted := h.sorted.erase id
  fields := by
    intro id' fields hfind
    rw [find_erase] at hfind
    split at hfind
    · cases hfind
    · exact h.fields id' fields hfind

theorem ValidReferences.dropField (h : ValidReferences references) (id : Id)
    (field : FieldNumber) : ValidReferences (dropField id field references) := by
  cases hget : SortedMap.find id references with
  | none =>
    rw [dropField_of_none hget]
    exact h
  | some old =>
    obtain ⟨-, hsorted, hrange⟩ := h.fields id old hget
    rw [dropField_of_some hget]
    split
    · exact h.erase id
    · next hne =>
      refine ⟨h.sorted.insert id _, fun id' fields hfind => ?_⟩
      rw [find_insert] at hfind
      split at hfind
      · cases hfind
        exact ⟨hne, hsorted.erase field, fun field' hmem =>
          hrange field' (hsorted.mem_erase.mp hmem).2⟩
      · exact h.fields id' fields hfind

/-! ### What the operations preserve -/

theorem valid_nil : Valid [] fun _ => none where
  map := ⟨sorted_nil, nofun⟩
  array := nofun
  mem_iff := fun id field => iff_of_false (by simp [HasField]) (by simp [HasId])

/-- **A reference is added** to both. -/
theorem Valid.putReference (h : Valid references index) (id : Id)
    (hrange : outOfRange field = false) :
    Valid (putField id field references) (putId id index field) where
  map := h.map.putField id hrange
  array := h.array.putId id field
  mem_iff := fun id' field' => by rw [hasField_putField, hasId_putId, h.mem_iff]

/-- **A reference is removed** from both. -/
theorem Valid.dropReference (h : Valid references index) (id : Id) (field : FieldNumber) :
    Valid (dropField id field references) (dropId id index field) where
  map := h.map.dropField id field
  array := h.array.dropId id field
  mem_iff := fun id' field' => by
    rw [hasField_dropField h.map, hasId_dropId h.array, h.mem_iff]

/-- **All references of an ID are removed** from both: the fields that are gone through are
those under which it is listed. -/
theorem Valid.dropReferences (h : Valid references index) {fields : List FieldNumber}
    (hfind : SortedMap.find id references = some fields) :
    Valid (SortedMap.erase id references) (fields.foldl (dropId id) index) := by
  obtain ⟨hvalid, hmem⟩ := hasId_dropId_foldl h.array id fields
  refine ⟨h.map.erase id, hvalid, fun id' field' => ?_⟩
  rw [hasField_erase, hmem, ← h.mem_iff]
  by_cases hid : id' = id
  · subst hid
    simp [HasField, hfind]
  · simp [hid]

/-- An ID is put into the sets of several fields. -/
theorem hasId_putId_foldl (h : ValidIndex index) (id : Id) (fields : List FieldNumber) :
    ValidIndex (fields.foldl (ReferencedEntity.putId id) index) ∧
      ∀ id' field', HasId (fields.foldl (ReferencedEntity.putId id) index) id' field' ↔
        id' = id ∧ field' ∈ fields ∨ HasId index id' field' := by
  induction fields generalizing index with
  | nil => exact ⟨h, fun id' field' => by simp⟩
  | cons field fields ih =>
    obtain ⟨hvalid, hmem⟩ := ih (h.putId id field)
    refine ⟨hvalid, fun id' field' => ?_⟩
    rw [List.foldl_cons, hmem, hasId_putId, List.mem_cons]
    tauto

/-- What the array holds when some entries have been put into it. -/
theorem hasId_populate (references : List (Id × List FieldNumber)) (h : ValidIndex index) :
    ValidIndex (references.foldl (fun index entry => entry.2.foldl (putId entry.1) index) index) ∧
      ∀ id field, HasId (references.foldl
        (fun index entry => entry.2.foldl (putId entry.1) index) index) id field ↔
          HasId index id field ∨ ∃ fields, (id, fields) ∈ references ∧ field ∈ fields := by
  induction references generalizing index with
  | nil => exact ⟨h, fun id field => by simp⟩
  | cons entry references ih =>
    obtain ⟨id₀, fields₀⟩ := entry
    obtain ⟨hfirst, hput⟩ := hasId_putId_foldl h id₀ fields₀
    obtain ⟨hvalid, hmem⟩ := ih hfirst
    refine ⟨hvalid, fun id field => ?_⟩
    rw [List.foldl_cons, hmem, hput]
    simp only [List.mem_cons, Prod.mk.injEq]
    constructor
    · rintro ((⟨rfl, hfield⟩ | hindex) | ⟨fields, hentry, hfield⟩)
      · exact Or.inr ⟨fields₀, Or.inl ⟨rfl, rfl⟩, hfield⟩
      · exact Or.inl hindex
      · exact Or.inr ⟨fields, Or.inr hentry, hfield⟩
    · rintro (hindex | ⟨fields, ⟨rfl, rfl⟩ | hentry, hfield⟩)
      · exact Or.inl (Or.inr hindex)
      · exact Or.inl (Or.inl ⟨rfl, hfield⟩)
      · exact Or.inr ⟨fields, hentry, hfield⟩

/-- **The array is made out of the map.** -/
theorem ValidReferences.populate (h : ValidReferences references) :
    Valid references (populateEntityReferencesField references) := by
  obtain ⟨hvalid, hmem⟩ := hasId_populate references valid_nil.array
  refine ⟨h, hvalid, fun id field => ?_⟩
  rw [populateEntityReferencesField, hmem]
  have hnone : ¬ HasId (fun _ => none) id field := by simp [HasId]
  rw [or_iff_right hnone]
  exact exists_congr fun fields => and_congr_left fun _ => h.sorted.mem_iff.symm

/-- **Every operation keeps the invariant.** -/
theorem valid_of_reached (h : e.Reached) : Valid e.entityReferences e.entityReferencesField := by
  induction h with
  | new => exact valid_nil
  | @add e id field _ ih =>
    unfold addEntityReference
    split
    · exact ih
    · next hrange => exact ih.putReference id (Bool.not_eq_true _ ▸ hrange)
  | @remove e id field _ ih =>
    unfold removeEntityReference
    split
    · exact ih
    · exact ih.dropReference id field
  | @removeId e id _ ih =>
    unfold removeEntityReferences
    split
    · exact ih
    · next fields hfind => exact ih.dropReferences hfind
  | clear => exact valid_nil
  | restore _ _ _ ih => exact ih.map.populate

/-! ### What is read of both -/

theorem hasField_iff : HasField e.entityReferences id field ↔ field ∈ e.getFieldReferences id := by
  unfold HasField getFieldReferences
  cases SortedMap.find id e.entityReferences with
  | none => simp
  | some fields => simp

theorem hasId_iff (hrange : outOfRange field = false) :
    HasId e.entityReferencesField id field ↔ id ∈ e.getFieldReferenceIds field := by
  unfold HasId getFieldReferenceIds
  rw [hrange]
  cases e.entityReferencesField field with
  | none => simp
  | some ids => simp

/-- An ID is in the map if some field is listed under it. -/
theorem Valid.mem_getReferenceIds (h : Valid e.entityReferences e.entityReferencesField) (id : Id) :
    id ∈ e.getReferenceIds ↔
      ∃ field, outOfRange field = false ∧ id ∈ e.getFieldReferenceIds field := by
  constructor
  · intro hmem
    obtain ⟨fields, hfind⟩ := Option.ne_none_iff_exists'.mp (find_ne_none hmem)
    obtain ⟨field, hfield⟩ := List.exists_mem_of_ne_nil fields (h.map.fields id fields hfind).1
    have hhas : HasField e.entityReferences id field := ⟨fields, hfind, hfield⟩
    have hrange := hhas.outOfRange h.map
    exact ⟨field, hrange, (hasId_iff hrange).mp ((h.mem_iff id field).mp hhas)⟩
  · rintro ⟨field, hrange, hmem⟩
    obtain ⟨fields, hfind, -⟩ := (h.mem_iff id field).mpr ((hasId_iff hrange).mpr hmem)
    exact mem_keys_of_find hfind

theorem Valid.sorted_getFieldReferenceIds (h : Valid e.entityReferences e.entityReferencesField)
    (field : FieldNumber) : SortedSet.Sorted (e.getFieldReferenceIds field) := by
  unfold getFieldReferenceIds
  split
  · exact SortedSet.sorted_nil
  · cases hget : e.entityReferencesField field with
    | none => exact SortedSet.sorted_nil
    | some ids => exact (h.array field ids hget).2

/-- **The two indexes agree after any operations.** -/
theorem agrees_of_reached (h : e.Reached) : e.Agrees := by
  have hvalid := valid_of_reached h
  refine ⟨fun id field _ => hvalid.mem_iff id field,
    fun id fields hfind => (hvalid.map.fields id fields hfind).1,
    fun field ids hget => (hvalid.array field ids hget).1, fun id field hrange => ?_,
    hvalid.mem_getReferenceIds, hvalid.map.sorted, walks_nextIn hvalid.map.sorted.nodup,
    hvalid.sorted_getFieldReferenceIds,
    fun field => walks_nextIn (hvalid.sorted_getFieldReferenceIds field).nodup⟩
  rw [← hasField_iff, ← hasId_iff hrange]
  exact hvalid.mem_iff id field

/-- Two references of one ID, one of another, and a restoration. -/
theorem agrees_of_reached_restored :
    ((((new true 0).addEntityReference ⟨1, 2⟩ 14).2.addEntityReference ⟨1, 2⟩ 31).2
      |>.restoreReferences
        ((new true 0).addEntityReference ⟨1, 3⟩ 14).2.entityReferences).Agrees :=
  agrees_of_reached (.restore (.add ⟨1, 2⟩ 31 (.add ⟨1, 2⟩ 14 (.new true 0)))
    (.add ⟨1, 3⟩ 14 (.new true 0)))

end ReferencedEntity

end Mutgos.DbTypes
