import Mutgos.Lib.Forest
import Mutgos.Lib.TransitionSystem
import Mutgos.Primitives.MovementPrims

/-!
# What is in what

The walks that look for what is near, or for a command, go up from container to container
until there is none.  They end as long as nothing is in itself.  A move is only kept from
putting a container into itself, and not from putting it into what is in it.

## Main results

* `walksEnd_of_acyclic` — **walks end** if nothing is in itself.
-/

namespace Mutgos.Primitives

open DbTypes DbInterface Events Security EntityData Database

variable {δ : Type}

/-- A container is in another. -/
def ContainedIn (db : Database δ) (child parent : Id) : Prop :=
  ∃ e, db.object child = some e ∧ e.entityType.isContainerPropertyEntity = true ∧
    e.containedBy = parent

/-! ### The walks -/

/-- The `Region` that a container is in, if it is in one. -/
def regionAbove (db : Database δ) (e : EntityData δ) : EntityRef δ :=
  e.asContainer.bind fun container =>
    (db.getEntity container.containedBy).filter fun region => region.entityType = .region

/-- What `match_in_environment` has found so far. -/
structure Found where
  /-- `found_entity` -/
  entity : Id
  /-- `current_exact_match` -/
  exactMatch : Bool
  ambiguous : Bool
  deriving DecidableEq

/-- What matches in a Region is put to what has been found, where something matches. -/
def Found.add (found : Found) : Option Found → Found
  | none => { found with exactMatch := false }
  | some current =>
    if current.ambiguous then { found with exactMatch := current.exactMatch, ambiguous := true }
    else if found.entity.isDefault || current.exactMatch then current
    else { found with exactMatch := current.exactMatch, ambiguous := true }

/-- The loop of `match_in_environment` over the regions above a room, for the matches that
`match_name_in_contents` has in each of them. -/
def matchInRegions (db : Database δ) (matchNameInContents : EntityData δ → Option Found)
    (room : EntityRef δ) (found : Found) : Option Found :=
  climbFold (regionAbove db) (fun region found => found.add (matchNameInContents region))
    (·.exactMatch) db.entities.length (room.bind (regionAbove db)) found

/-- The walks end, wherever they start. -/
structure WalksEnd (db : Database δ) : Prop where
  local_ends : ∀ source target includeSourceInventory,
    (isEntityLocal db source target includeSourceInventory).isSome
  match_ends : ∀ matchNameInContents room found,
    (matchInRegions db matchNameInContents room found).isSome

section Walks

variable {db : Database δ}

/-- A walk goes from an Entity to what it is in. -/
structure GoesUp (db : Database δ) (up : EntityData δ → EntityRef δ) : Prop where
  container : ∀ {a b}, up a = some b → a.entityType.isContainerPropertyEntity = true
  getEntity : ∀ {a b}, up a = some b → db.getEntity a.containedBy = some b

theorem goesUp_containerOf : GoesUp db (containerOf db) := by
  have hcases : ∀ {a b : EntityData δ}, containerOf db a = some b →
      a.entityType.isContainerPropertyEntity = true ∧ db.getEntity a.containedBy = some b := by
    intro a b hab
    rw [containerOf, asContainer] at hab
    split_ifs at hab with hcontainer
    · exact ⟨hcontainer, hab⟩
    · cases hab
  exact ⟨fun hab => (hcases hab).1, fun hab => (hcases hab).2⟩

theorem goesUp_regionAbove : GoesUp db (regionAbove db) := by
  have hcases : ∀ {a b : EntityData δ}, regionAbove db a = some b →
      a.entityType.isContainerPropertyEntity = true ∧ db.getEntity a.containedBy = some b := by
    intro a b hab
    rw [regionAbove, asContainer] at hab
    split_ifs at hab with hcontainer
    · exact ⟨hcontainer, (Option.filter_eq_some_iff.mp hab).1⟩
    · cases hab
  exact ⟨fun hab => (hcases hab).1, fun hab => (hcases hab).2⟩

/-- What a walk comes to is found under its ID. -/
def IsLive (db : Database δ) (e : EntityData δ) : Prop := db.getEntity e.id = some e

theorem isLive_of_getEntity {id : Id} {e : EntityData δ} (h : db.getEntity id = some e) :
    IsLive db e := by
  rw [IsLive, id_eq_of_getEntity h]
  exact h

variable {up : EntityData δ → EntityRef δ}

/-- A walk that starts at an Entity of the database stays there, and follows what is in
what. -/
theorem GoesUp.containedIn (h : GoesUp db up) {a b : EntityData δ} (ha : IsLive db a)
    (hab : up a = some b) : IsLive db b ∧ ContainedIn db a.id b.id := by
  have hb := h.getEntity hab
  refine ⟨isLive_of_getEntity hb, a, (getEntity_eq_some_iff.mp ha).1, h.container hab, ?_⟩
  exact (id_eq_of_getEntity hb).symm

theorem GoesUp.reflTransGen (h : GoesUp db up) {a b : EntityData δ} (ha : IsLive db a)
    (hab : Relation.ReflTransGen (LinkedTo up) a b) :
    IsLive db b ∧ Relation.ReflTransGen (ContainedIn db) a.id b.id := by
  induction hab with
  | refl => exact ⟨ha, .refl⟩
  | tail _ hbc ih =>
    obtain ⟨hb, hab⟩ := ih
    obtain ⟨hc, hbc⟩ := h.containedIn hb hbc
    exact ⟨hc, hab.tail hbc⟩

/-- No Entity is above itself. -/
theorem GoesUp.acyclic (h : GoesUp db up) (hacyclic : Acyclic (ContainedIn db))
    (a : EntityData δ) : ¬Relation.TransGen (LinkedTo up) a a := by
  intro ha
  -- the walk has come to where it started
  have hlive : IsLive db a := by
    obtain ⟨b, _, hba⟩ := Relation.TransGen.tail'_iff.mp ha
    exact isLive_of_getEntity (h.getEntity hba)
  obtain ⟨b, hab, hba⟩ := Relation.TransGen.head'_iff.mp ha
  obtain ⟨hb, hin⟩ := h.containedIn hlive hab
  exact hacyclic a.id (.head' hin (h.reflTransGen hb hba).2)

/-- A walk comes to no more places than there are Entities. -/
theorem GoesUp.exists_places (h : GoesUp db up) {a : EntityData δ} (ha : IsLive db a) :
    ∃ places : Finset (EntityData δ), places.card ≤ db.entities.length ∧
      ∀ b, Relation.ReflTransGen (LinkedTo up) a b → b ∈ places := by
  classical
  refine ⟨db.entities.toFinset, db.entities.toFinset_card_le, fun b hab => ?_⟩
  have hb := (h.reflTransGen ha hab).1
  exact List.mem_toFinset.mpr (mem_of_object (getEntity_eq_some_iff.mp hb).1)

/-- A walk ends if nothing is in itself. -/
theorem GoesUp.climbFold_isSome {σ : Type} (h : GoesUp db up)
    (hacyclic : Acyclic (ContainedIn db)) (body : EntityData δ → σ → σ) (stop : σ → Bool)
    {start : EntityRef δ} (hstart : ∀ a, start = some a → IsLive db a) (s : σ) :
    (climbFold up body stop db.entities.length start s).isSome := by
  cases start with
  | none => simp
  | some a =>
    obtain ⟨places, hcard, hplaces⟩ := h.exists_places (hstart a rfl)
    exact Mutgos.climbFold_isSome (h.acyclic hacyclic) hcard hplaces s

theorem searchEnds_of_acyclic (h : Acyclic (ContainedIn db)) : SearchEnds db := by
  intro targetId start
  exact goesUp_containerOf.climbFold_isSome h _ _ (fun a ha => isLive_of_getEntity ha) _

/-- **Walks end** if nothing is in itself. -/
theorem walksEnd_of_acyclic (h : Acyclic (ContainedIn db)) : WalksEnd db where
  local_ends := isEntityLocal_isSome (searchEnds_of_acyclic h)
  match_ends _ room _ := by
    refine goesUp_regionAbove.climbFold_isSome h _ _ (fun a ha => ?_) _
    obtain ⟨room, -, ha⟩ := Option.bind_eq_some_iff.mp ha
    exact isLive_of_getEntity (goesUp_regionAbove.getEntity ha)

/-- A search that does not end in as many steps as there are Entities never ends. -/
theorem isRegionAbove_eq_none_iff {targetId start : Id} :
    isRegionAbove db targetId (db.getEntity start) = none ↔
      ∀ n, climb (containerOf db) (fun region => region.id = targetId) n
        (db.getEntity start) = none := by
  cases hstart : db.getEntity start with
  | none => simp [isRegionAbove]
  | some a =>
    obtain ⟨places, hcard, hplaces⟩ := goesUp_containerOf.exists_places (isLive_of_getEntity hstart)
    exact climb_eq_none_iff hcard hplaces

end Walks

/-! ### Moves -/

/-- A call that may move something. -/
inductive MoveCall where
  | moveEntity (ctx : Context) (entity entityDestination : Id) (throwOnViolation : Bool)
  | moveRequesterWithExit (ctx : Context) (exit : Id) (throwOnViolation : Bool)

namespace MoveCall

/-- Make the call. -/
def perform [BEq δ] (db : Database δ) : MoveCall → Option (MoveResult δ)
  | moveEntity ctx entity entityDestination throwOnViolation =>
    Primitives.moveEntity db ctx entity entityDestination throwOnViolation
  | moveRequesterWithExit ctx exit throwOnViolation =>
    Primitives.moveRequesterWithExit db ctx exit throwOnViolation

/-- The call passes all checks, and moves a container into another. -/
def Moves [BEq δ] (db : Database δ) (call : MoveCall) (x y : Id) : Prop :=
  match call with
  | moveEntity ctx entity entityDestination throwOnViolation =>
    ∃ e destination, MovesEntity db ctx entity entityDestination throwOnViolation e destination ∧
      x = entity ∧ y = entityDestination
  | moveRequesterWithExit ctx exit throwOnViolation =>
    ∃ e destination, MovesRequester db ctx exit throwOnViolation e destination ∧
      x = ctx.requester ∧ y = destination.id

end MoveCall

/-- What a call leaves behind, if it comes back: it may use a null pointer, and it may hang
in a security check. -/
def step [BEq δ] (db : Database δ) (call : MoveCall) : Option (Database δ) :=
  (call.perform db).bind fun r => if r.ending = .nullDereferenced then none else some r.db

/-- What is promised of a database: nothing is in itself, and walks end. -/
structure WellContained (db : Database δ) : Prop where
  acyclic : Acyclic (ContainedIn db)
  walksEnd : WalksEnd db

/-- If the call moves something, it does not put it into itself or into what is in it. -/
def KeepsOut [BEq δ] (db : Database δ) (call : MoveCall) : Prop :=
  ∀ x y, call.Moves db x y → ¬Relation.ReflTransGen (ContainedIn db) y x

section Steps

variable {db db' : Database δ}

/-- `set_contained_by` moves a container. -/
theorem containedIn_setContainedBy {x y : Id} {e : EntityData δ} (he : db.object x = some e)
    (hcontainer : e.entityType.isContainerPropertyEntity = true) (a b : Id) :
    ContainedIn (db.update x (·.setContainedBy y)) a b ↔ relink (ContainedIn db) x y a b := by
  have hobject := @object_update δ (·.setContainedBy y) (fun _ => rfl) db x a
  rw [ContainedIn, hobject]
  by_cases ha : a = x
  · subst ha
    simp only [he, Option.map_some, if_true, relink, ne_eq, not_true, false_and, or_false,
      true_and, Option.some.injEq, exists_eq_left', setContainedBy, hcontainer]
    exact eq_comm
  · simp [ha, relink, ContainedIn]

/-- `set_action_contained_by` moves none. -/
theorem containedIn_setActionContainedBy (x y a b : Id) :
    ContainedIn (db.update x (·.setActionContainedBy y)) a b ↔ ContainedIn db a b := by
  have hobject := @object_update δ (·.setActionContainedBy y) (fun _ => rfl) db x a
  rw [ContainedIn, hobject, ContainedIn]
  by_cases ha : a = x
  · subst ha
    simp [setActionContainedBy]
  · simp [ha]

variable [BEq δ] {call : MoveCall}

/-- What a call that comes back has done: it has moved one container, or none. -/
theorem step_cases (h : step db call = some db') :
    (∃ x y, (∀ x' y', call.Moves db x' y' ↔ x' = x ∧ y' = y) ∧
        ∀ a b, ContainedIn db' a b ↔ relink (ContainedIn db) x y a b) ∨
      (∀ x y, ¬call.Moves db x y) ∧ ∀ a b, ContainedIn db' a b ↔ ContainedIn db a b := by
  obtain ⟨r, hr, h⟩ := Option.bind_eq_some_iff.mp h
  split_ifs at h
  obtain rfl := Option.some.inj h
  cases call with
  | moveEntity ctx entity entityDestination throwOnViolation =>
    rcases moveEntity_cases hr with ⟨e, destination, hmoves, hdb⟩ | ⟨hnot, hdb⟩
    · refine .inl ⟨entity, entityDestination, fun x y => ⟨?_, ?_⟩, fun a b => ?_⟩
      · rintro ⟨e', destination', -, rfl, rfl⟩
        exact ⟨rfl, rfl⟩
      · rintro ⟨rfl, rfl⟩
        exact ⟨e, destination, hmoves, rfl, rfl⟩
      · rw [hdb]
        exact containedIn_setContainedBy (getEntity_eq_some_iff.mp hmoves.get_entity).1
          hmoves.canTransfer.container a b
    · refine .inr ⟨fun x y => ?_, fun a b => ?_⟩
      · rintro ⟨e, destination, hmoves, -⟩
        exact hnot e destination hmoves
      · rcases hdb with hdb | ⟨e, he, haction, hdb⟩
        · rw [hdb]
        · rw [hdb]
          exact containedIn_setActionContainedBy entity entityDestination a b
  | moveRequesterWithExit ctx exit throwOnViolation =>
    rcases moveRequesterWithExit_cases hr with ⟨e, destination, hmoves, hdb⟩ | ⟨hnot, hdb⟩
    · refine .inl ⟨ctx.requester, destination.id, fun x y => ⟨?_, ?_⟩, fun a b => ?_⟩
      · rintro ⟨e', destination', hmoves', rfl, rfl⟩
        exact ⟨rfl, congrArg (·.id) (hmoves'.destination_unique hmoves)⟩
      · rintro ⟨rfl, rfl⟩
        exact ⟨e, destination, hmoves, rfl, rfl⟩
      · rw [hdb]
        exact containedIn_setContainedBy
          (getEntity_eq_some_iff.mp hmoves.get_requester).1 hmoves.container a b
    · refine .inr ⟨fun x y => ?_, fun a b => ?_⟩
      · rintro ⟨e, destination, hmoves, -⟩
        exact hnot e destination hmoves
      · rw [hdb]

/-- **What a call keeps**: nothing comes to be in itself exactly if the call keeps it
out. -/
theorem acyclic_step_iff (hacyclic : Acyclic (ContainedIn db)) (h : step db call = some db') :
    Acyclic (ContainedIn db') ↔ KeepsOut db call := by
  rcases step_cases h with ⟨x, y, hmoves, hdb⟩ | ⟨hnot, hdb⟩
  · rw [acyclic_congr hdb, acyclic_relink_iff hacyclic, KeepsOut]
    simp [hmoves]
  · rw [acyclic_congr hdb]
    exact iff_of_true hacyclic fun x y hmoves => absurd hmoves (hnot x y)

/-- A call comes back unless it uses a null pointer, if nothing is in itself. -/
theorem step_isSome_or_nullDereferenced (h : Acyclic (ContainedIn db)) (call : MoveCall) :
    (step db call).isSome ∨ ∃ r, call.perform db = some r ∧ r.ending = .nullDereferenced := by
  have hends : (call.perform db).isSome := by
    cases call with
    | moveEntity => exact moveEntity_isSome (searchEnds_of_acyclic h) _ _ _
    | moveRequesterWithExit => exact moveRequesterWithExit_isSome (searchEnds_of_acyclic h) _ _
  obtain ⟨r, hr⟩ := Option.isSome_iff_exists.mp hends
  by_cases hnull : r.ending = .nullDereferenced
  · exact .inr ⟨r, hr, hnull⟩
  · exact .inl (by simp [step, hr, hnull])

/-- **Nothing comes to be in itself, and walks end, exactly in the runs that keep it
out**: those whose calls put no container into what is in it. -/
theorem wellContained_iff {calls : List MoveCall} (hacyclic : Acyclic (ContainedIn db))
    (hrun : run step db calls = some db') :
    (∀ before call after s s', calls = before ++ call :: after → run step db before = some s →
        step s call = some s' → WellContained s') ↔
      Steps step KeepsOut db calls db' := by
  refine steps_iff_forall_step (I := fun db => Acyclic (ContainedIn db))
    (P := fun _ _ db => WellContained db) ?_ ?_ hacyclic hrun
  · intro s call s' hs hok hstep
    have hs' := (acyclic_step_iff hs hstep).mpr hok
    exact ⟨hs', hs', walksEnd_of_acyclic hs'⟩
  · intro s call s' hs hstep hs'
    exact (acyclic_step_iff hs hstep).mp hs'.acyclic

end Steps

/-- Nothing is in itself if there is an order in which everything is below what it is
in. -/
theorem acyclic_containedIn {db : Database δ} (rank : Id → ℕ)
    (h : ∀ e ∈ db.entities, rank e.id < rank e.containedBy) : Acyclic (ContainedIn db) := by
  refine acyclic_of_rank rank ?_
  rintro child parent ⟨e, he, -, rfl⟩
  rw [← id_eq_of_object he]
  exact h e (mem_of_object he)

/-- A player with a room, in a region of a region of theirs, and a room of somebody
else. -/
def regionSite : Database Unit :=
  ⟨[{ ofType ⟨2, 7⟩ .region with owner := ⟨2, 3⟩ },
    { ofType ⟨2, 10⟩ .region with owner := ⟨2, 5⟩, containedBy := ⟨2, 7⟩ },
    { ofType ⟨2, 11⟩ .region with owner := ⟨2, 5⟩, containedBy := ⟨2, 10⟩ },
    { ofType ⟨2, 8⟩ .room with owner := ⟨2, 5⟩, containedBy := ⟨2, 11⟩ },
    { ofType ⟨2, 12⟩ .room with owner := ⟨2, 3⟩, containedBy := ⟨2, 7⟩ },
    { ofType ⟨2, 5⟩ .player with owner := ⟨2, 5⟩, containedBy := ⟨2, 8⟩ }]⟩

/-- The player, without any capabilities. -/
def regionContext : Context := { Context.new ⟨2, 5⟩ default with runAsRequester := true }

/-- From the inside out. -/
def regionRank (id : Id) : ℕ := [5, 8, 11, 10, 12, 7, 0].idxOf id.entityId

theorem acyclic_regionSite : Acyclic (ContainedIn regionSite) :=
  acyclic_containedIn regionRank (by decide)

/-- The room is moved to the outer region. -/
def moveRoom : MoveCall := .moveEntity regionContext ⟨2, 8⟩ ⟨2, 10⟩ false

theorem wellContained_moveRoom :
    ∃ db', run step regionSite [moveRoom] = some db' ∧
      ∀ before call after s s', [moveRoom] = before ++ call :: after →
        run step regionSite before = some s → step s call = some s' → WellContained s' := by
  obtain ⟨db', hstep, hrank⟩ : ∃ db', step regionSite moveRoom = some db' ∧
      ∀ e ∈ db'.entities, regionRank e.id < regionRank e.containedBy := by
    refine ⟨(step regionSite moveRoom).get (by decide), by simp, by decide⟩
  have hok : KeepsOut regionSite moveRoom :=
    (acyclic_step_iff acyclic_regionSite hstep).mp (acyclic_containedIn regionRank hrank)
  have hrun : run step regionSite [moveRoom] = some db' := by
    rw [run, hstep]
    rfl
  exact ⟨db', hrun, (wellContained_iff acyclic_regionSite hrun).mpr (.cons hok hstep (.nil db'))⟩

/-- The outer region is moved into the inner one. -/
def moveRegion : MoveCall := .moveEntity regionContext ⟨2, 10⟩ ⟨2, 11⟩ false

/-- **Something comes to be in itself**, and what is near the player is looked for without
end. -/
theorem wellContained_broken :
    ¬ ∀ (db db' : Database Unit) (calls : List MoveCall), Acyclic (ContainedIn db) →
      run step db calls = some db' → Acyclic (ContainedIn db') ∧ WalksEnd db' := by
  intro h
  obtain ⟨db', hrun, hlocal⟩ := Option.map_eq_some_iff.mp
    (show (run step regionSite [moveRegion]).map
      (fun db => isEntityLocal db (db.getEntity ⟨2, 5⟩) (db.getEntity ⟨2, 12⟩) true) =
        some none by decide)
  have hends := (h regionSite db' [moveRegion] acyclic_regionSite hrun).2.local_ends
    (db'.getEntity ⟨2, 5⟩) (db'.getEntity ⟨2, 12⟩) true
  rw [hlocal] at hends
  cases hends

end Mutgos.Primitives
