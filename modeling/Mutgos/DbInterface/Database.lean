import Mutgos.DbTypes.EntityData

/-!
# How Entities are found

What an `EntityRef` gives, and what `DatabaseAccess` gives for an ID.  A reference
that is valid is the Entity it refers to.

-/

namespace Mutgos.DbInterface

open DbTypes

variable {δ : Type}

/-- `dbinterface::EntityRef`: the Entity, if it is valid. -/
abbrev EntityRef (δ : Type) := Option (EntityData δ)

/-- The Entities that `DatabaseAccess` can get, from its caches or from the back
end. -/
structure Database (δ : Type) where
  entities : List (EntityData δ)

namespace Database

/-- `get_entity_deleted`: a reference to the Entity of an ID. -/
def object (db : Database δ) (id : Id) : EntityRef δ :=
  if id.isDefault then none else db.entities.find? (fun e => e.id = id)

/-- `get_entity`: Entities that are being deleted are filtered out. -/
def getEntity (db : Database δ) (id : Id) : EntityRef δ :=
  (db.object id).filter fun e => !e.deleted

def getEntityType (db : Database δ) (id : Id) : EntityType :=
  match db.object id with
  | some e => e.entityType
  | none => .invalid

/-- An Entity is changed by one of its setters. -/
def update (db : Database δ) (id : Id) (set : EntityData δ → EntityData δ) : Database δ :=
  ⟨db.entities.map fun e => if e.id = id then set e else e⟩

variable {db : Database δ} {e : EntityData δ}

theorem id_eq_of_object {id : Id} (h : db.object id = some e) : e.id = id := by
  rw [object] at h
  split at h
  · cases h
  · simpa using List.find?_some h

theorem ne_default_of_object {id : Id} (h : db.object id = some e) : id ≠ default := by
  rintro rfl
  cases h

theorem mem_of_object {id : Id} (h : db.object id = some e) : e ∈ db.entities := by
  rw [object] at h
  split at h
  · cases h
  · exact List.mem_of_find?_eq_some h

theorem getEntity_eq_some_iff {id : Id} :
    db.getEntity id = some e ↔ db.object id = some e ∧ e.deleted = false := by
  simp [getEntity, Option.filter_eq_some_iff]

theorem id_eq_of_getEntity {id : Id} (h : db.getEntity id = some e) : e.id = id :=
  id_eq_of_object (getEntity_eq_some_iff.mp h).1

theorem ne_default_of_getEntity {id : Id} (h : db.getEntity id = some e) : id ≠ default :=
  ne_default_of_object (getEntity_eq_some_iff.mp h).1

/-- The setters do not change IDs, so that an Entity stays where it is found. -/
theorem object_update {set : EntityData δ → EntityData δ} (hset : ∀ e, (set e).id = e.id)
    (db : Database δ) (id target : Id) :
    (db.update id set).object target =
      (db.object target).map fun e => if target = id then set e else e := by
  rw [object, object]
  split
  · rfl
  · have hfound : ∀ e : EntityData δ, (decide ((if e.id = id then set e else e).id = target)) =
        decide (e.id = target) := by
      intro e
      split <;> simp [hset]
    rw [update, List.find?_map]
    have hcomp : ((fun e : EntityData δ => decide (e.id = target)) ∘
        fun e => if e.id = id then set e else e) = fun e => decide (e.id = target) :=
      funext hfound
    rw [hcomp]
    cases hfind : db.entities.find? (fun e => decide (e.id = target)) with
    | none => rfl
    | some e =>
      have he : e.id = target := by simpa using List.find?_some hfind
      simp [he]

@[simp] theorem getEntity_default (db : Database δ) : db.getEntity default = none := rfl

end Database

end Mutgos.DbInterface
