import Mutgos.DbInterface.Database
import Mutgos.DbInterface.ReferenceSystem
import Mutgos.Lib.Worklist

/-!
# Deleting what an Entity contains

`get_entities_contained_by` searches the tables of references, and `delete_entity` deletes what
has been found, unless the deletion of the Entity it is called for is pending.

## Main results

* `mem_getEntitiesContainedBy` — **what is found** is what can be reached, whatever is in what.
* `deletes_contained` — **what is deleted** is what is found.
-/

namespace Mutgos.DbInterface

open DbTypes

variable {δ : Type}

def setDeletedFlag (e : EntityData δ) : EntityData δ := { e with deleted := true }

/-- The Entities of the sites that there are, and the tables of references. -/
structure ReferencedDatabase (δ : Type) extends Database δ where
  references : Id → EntityReferences
  sites : List SiteIdType
  site_mem : ∀ e ∈ entities, e.id.siteId ∈ sites

/-- `DbResultCode`, as `delete_entity` returns it. -/
inductive DeleteResult where
  | badId | badSiteId | okDelayed
  deriving DecidableEq

/-- An `EntityListener` -/
abbrev Listener := ℕ

/-- What `delete_entity` returns and leaves behind. -/
structure Deletion (δ : Type) where
  rc : DeleteResult
  db : Database δ
  /-- `pending_deletes` of the `UpdateManager`. -/
  pendingDeletes : List Id
  /-- The calls of `entity_deleted`. -/
  told : List (Listener × Id)

namespace ReferencedDatabase

variable (db : ReferencedDatabase δ)

def getReferenceIds (id : Id) (field : EntityField) : List Id :=
  ((db.references id).filter (·.2 = field)).map Prod.fst

/-- What is under an Entity that can be loaded. -/
def under (id : Id) : Option (List Id) :=
  (db.object id).map fun _ =>
    db.getReferenceIds id .containedBy ++ db.getReferenceIds id .actionContainedBy

theorem mem_ids_of_under (id : Id) (h : (db.under id).isSome) :
    id ∈ (db.entities.map fun e => e.id).toFinset := by
  rw [under, Option.isSome_map] at h
  obtain ⟨e, he⟩ := Option.isSome_iff_exists.mp h
  rw [List.mem_toFinset, List.mem_map]
  exact ⟨e, Database.mem_of_object he, Database.id_eq_of_object he⟩

def getEntitiesContainedBy (rootEntityId : Id) : List Id :=
  worklist db.under _ db.mem_ids_of_under [rootEntityId] []

/-- The loop of `delete_entity`. -/
def markDeleted (listeners : List Listener) :
    List Id → Database δ → Database δ × List (Listener × Id)
  | [], db => (db, [])
  | id :: ids, db =>
    match db.getEntity id with
    | none => markDeleted listeners ids db
    | some _ =>
      let (db, told) := markDeleted listeners ids (db.update id setDeletedFlag)
      (db, listeners.map (·, id) ++ told)

def deleteEntity (pendingDeletes : List Id) (listeners : List Listener) (id : Id) : Deletion δ :=
  if id.isDefault then ⟨.badId, db.toDatabase, pendingDeletes, []⟩
  -- Already processed by a previous call.
  else if id ∈ pendingDeletes then ⟨.okDelayed, db.toDatabase, pendingDeletes, []⟩
  else if id.siteId ∉ db.sites then ⟨.badSiteId, db.toDatabase, pendingDeletes, []⟩
  else
    let entities := db.getEntitiesContainedBy id
    let (marked, told) := markDeleted listeners entities db.toDatabase
    ⟨.okDelayed, marked, entities.foldl (fun pending id => SortedSet.insert id pending)
      pendingDeletes, told⟩

/-! ### What is found -/

/-- An Entity refers to another as to what it is in, and both can be loaded. -/
def Contains (container content : Id) : Prop :=
  (db.object container).isSome ∧ (db.object content).isSome ∧
    ((content, .containedBy) ∈ db.references container ∨
      (content, .actionContainedBy) ∈ db.references container)

/-- An Entity is in another, or in what is in it, or is it. -/
def IsUnder (root id : Id) : Prop :=
  (db.object root).isSome ∧ Relation.ReflTransGen db.Contains root id

variable {db}

theorem leadsTo_iff {id id' : Id} : LeadsTo db.under id id' ↔ db.Contains id id' := by
  cases hobject : db.object id <;>
    simp [LeadsTo, under, Contains, hobject, getReferenceIds]

/-- **What is found**: what is under the root. -/
theorem mem_getEntitiesContainedBy {root id : Id} :
    id ∈ db.getEntitiesContainedBy root ↔ db.IsUnder root id := by
  have hcontains : LeadsTo db.under = db.Contains :=
    funext fun _ => funext fun _ => propext leadsTo_iff
  rw [getEntitiesContainedBy, mem_worklist (by simp [VisitsNext])]
  simp [ReachedFromAny, hcontains, IsUnder, under]

theorem nodup_getEntitiesContainedBy (root : Id) : (db.getEntitiesContainedBy root).Nodup :=
  (sorted_worklist SortedSet.sorted_nil).nodup

/-! ### What is deleted -/

/-- What becomes of an Entity, and who is told of it. -/
theorem markDeleted_spec (listeners : List Listener) {ids : List Id} (h : ids.Nodup)
    (db : Database δ) (id : Id) :
    (markDeleted listeners ids db).1.object id =
        (db.object id).map (fun e => if id ∈ ids then setDeletedFlag e else e) ∧
      ∀ l, (markDeleted listeners ids db).2.count (l, id) =
        if id ∈ ids ∧ (db.getEntity id).isSome then listeners.count l else 0 := by
  induction ids generalizing db with
  | nil => simp [markDeleted]
  | cons id' ids ih =>
    obtain ⟨hid', hids⟩ := List.nodup_cons.mp h
    rw [markDeleted]
    cases hget : db.getEntity id' with
    | none =>
      obtain ⟨hobject, htold⟩ := ih hids db
      simp only [hobject, htold, List.mem_cons]
      by_cases hid : id = id'
      · subst hid
        -- What is not got is not there, or has been marked before.
        cases hdb : db.object id with
        | none => simp [hget]
        | some e =>
          have hdeleted : e.deleted = true := by simpa [Database.getEntity, hdb] using hget
          have hmarked : setDeletedFlag e = e := by rw [setDeletedFlag, ← hdeleted]
          simp [hget, hid', hmarked]
      · simp [hid]
    | some e' =>
      have hupdate := @Database.object_update δ setDeletedFlag (fun _ => rfl) db id' id
      obtain ⟨hobject, htold⟩ := ih hids (db.update id' setDeletedFlag)
      have hcount : ∀ l, (listeners.map (·, id')).count (l, id) =
          if id = id' then listeners.count l else 0 := by
        intro l
        split_ifs with hid
        · rw [hid]
          exact List.count_map_of_injective listeners (·, id') (fun _ _ => congrArg Prod.fst) l
        · rw [List.count_eq_zero]
          simp [Ne.symm hid]
      simp only [hobject, htold, hupdate, List.count_append, hcount, List.mem_cons,
        Database.getEntity]
      by_cases hid : id = id'
      · subst hid
        rw [Database.getEntity] at hget
        simp [hid', hget, Function.comp_def]
      · simp [hid]

theorem mem_insertAll {ids pending : List Id} {id : Id} :
    id ∈ ids.foldl (fun pending id => SortedSet.insert id pending) pending ↔
      id ∈ pending ∨ id ∈ ids := by
  induction ids generalizing pending with
  | nil => simp
  | cons id' ids ih =>
    rw [List.foldl_cons, ih, SortedSet.mem_insert, List.mem_cons]
    tauto

/-- What `delete_entity` does to what is under the root, and to nothing else. -/
structure Deletes (db : ReferencedDatabase δ) (pendingDeletes : List Id)
    (listeners : List Listener) (root : Id) (r : Deletion δ) : Prop where
  marks : ∀ id, db.IsUnder root id →
    r.db.object id = (db.object id).map setDeletedFlag
  leaves : ∀ id, ¬ db.IsUnder root id → r.db.object id = db.object id
  queues : ∀ id, id ∈ r.pendingDeletes ↔ id ∈ pendingDeletes ∨ db.IsUnder root id
  tells : ∀ l id, db.IsUnder root id → (db.getEntity id).isSome →
    r.told.count (l, id) = listeners.count l
  tellsOnly : ∀ l id, (l, id) ∈ r.told → db.IsUnder root id ∧ (db.getEntity id).isSome

/-- **What is deleted** is what is under the root, unless its deletion is pending. -/
theorem deletes_contained (db : ReferencedDatabase δ) {pendingDeletes : List Id}
    (listeners : List Listener) {root : Id} (h : root ∉ pendingDeletes) :
    (∀ id, id ∈ db.getEntitiesContainedBy root ↔ db.IsUnder root id) ∧
      db.Deletes pendingDeletes listeners root (db.deleteEntity pendingDeletes listeners root) := by
  refine ⟨fun id => mem_getEntitiesContainedBy, ?_⟩
  have hnone : ∀ rc, (∀ id, ¬ db.IsUnder root id) →
      db.Deletes pendingDeletes listeners root ⟨rc, db.toDatabase, pendingDeletes, []⟩ :=
    fun rc hempty => ⟨fun id hid => absurd hid (hempty id), fun _ _ => rfl,
      fun id => by simp [hempty], fun _ id hid => absurd hid (hempty id), by simp⟩
  rw [deleteEntity, if_neg h]
  split_ifs with hdefault hsite
  · refine hnone _ fun id hid => ?_
    simp [Database.object, hdefault, IsUnder] at hid
  · have hspec := markDeleted_spec listeners (db.nodup_getEntitiesContainedBy root) db.toDatabase
    refine ⟨fun id hid => ?_, fun id hid => ?_, fun id => ?_, fun l id hid hget => ?_,
      fun l id hmem => ?_⟩
    · simp [(hspec id).1, mem_getEntitiesContainedBy.mpr hid]
    · simp [(hspec id).1, mem_getEntitiesContainedBy, hid]
    · exact mem_insertAll.trans (or_congr_right mem_getEntitiesContainedBy)
    · simp [(hspec id).2, mem_getEntitiesContainedBy.mpr hid, hget]
    · have hpos := List.count_pos_iff.mpr hmem
      rw [(hspec id).2] at hpos
      split_ifs at hpos with hboth
      · exact hboth.imp_left mem_getEntitiesContainedBy.mp
      · omega
  · refine hnone _ fun id hid => hsite ?_
    obtain ⟨e, he⟩ := Option.isSome_iff_exists.mp hid.1
    exact Database.id_eq_of_object he ▸ db.site_mem e (Database.mem_of_object he)

/-- Room 1:2, whose deletion is pending, has had player 1:3 put into it. -/
def roomSite : ReferencedDatabase Unit where
  entities := [setDeletedFlag (.ofType ⟨1, 2⟩ .room), .ofType ⟨1, 3⟩ .player]
  references id := if id = ⟨1, 2⟩ then [(⟨1, 3⟩, .containedBy)] else []
  sites := [1]
  site_mem := by simp [EntityData.ofType, setDeletedFlag]

theorem deletes_contained_player :
    ⟨1, 3⟩ ∈ (roomSite.deleteEntity [] [7] ⟨1, 2⟩).pendingDeletes := by
  refine ((deletes_contained roomSite [7] List.not_mem_nil).2.queues _).mpr (.inr ⟨rfl, ?_⟩)
  exact .single ⟨rfl, rfl, .inl (by decide)⟩

/-- **What is put into an Entity later** is not deleted with it. -/
theorem not_deletes_contained : ¬ roomSite.Deletes [⟨1, 2⟩] [7] ⟨1, 2⟩
    (roomSite.deleteEntity [⟨1, 2⟩] [7] ⟨1, 2⟩) := by
  intro h
  have hmem := (h.queues ⟨1, 3⟩).mpr (.inr ⟨rfl, .single ⟨rfl, rfl, .inl (by decide)⟩⟩)
  exact absurd hmem (by decide)

end ReferencedDatabase

end Mutgos.DbInterface
