import Mutgos.DbInterface.Database
import Mutgos.Lib.Climb
import Mutgos.Security.Operations

/-!
# What the checkers have in common

`security::CheckerHelpers`: whether one Entity is near another, and whether somebody
has permissions on an Entity or is an administrator of it.

Permissions and administrators are asked for in the same way, for an Entity or for
an application of one: those who act are the requester, the program, or both, which
depends on how the program runs.  `none` is that it could not be determined who acts
or on what, and the result of the caller then stays what it was.

The loop that goes up through the containers has as many steps as there are Entities;
`none` is that it goes around in a circle and never ends.

## Main results

* `isInList_iff` — the loop finds those who are in the list.
-/

namespace Mutgos.Security

open DbTypes DbInterface Text

variable {δ : Type}

inductive BasicFlagHandling where
  | excludeBasic | includeBasic | includeBasicButIgnoreOther
  deriving DecidableEq

/-! ### Locality -/

/-- The container above an Entity. -/
def containerOf (db : Database δ) (e : EntityData δ) : EntityRef δ :=
  e.asContainer.bind fun container => db.getEntity container.containedBy

/-- The loop of `is_entity_local`: whether the target is where the search starts or
above it. -/
def isRegionAbove (db : Database δ) (targetId : Id) (start : EntityRef δ) : Option Bool :=
  climb (containerOf db) (fun region => region.id = targetId) db.entities.length start

/-- What is looked for near the source: the target, or what it is attached to if it is
an action.  The actions of another player are never near. -/
def localTarget (db : Database δ) (source target : EntityData δ) : EntityRef δ :=
  match target.asContainer with
  | some target => some target
  | none =>
    if target.entityType.isActionEntity then
      match db.getEntity target.actionContainedBy with
      | none => none
      | some actionContainer =>
        let actionOnPlayer :=
          actionContainer.entityType = .player ∨ actionContainer.entityType = .guest ∨
            actionContainer.entityType = .puppet
        if ¬actionOnPlayer ∨ source.id = actionContainer.id then actionContainer.asContainer
        else none
    else none

def isEntityLocal (db : Database δ) (source target : EntityRef δ)
    (includeSourceInventory : Bool) : Option Bool :=
  match source, target with
  | some source, some target =>
    match source.asContainer, localTarget db source target with
    | some source, some target =>
      if target.id = source.id then some true
      else if includeSourceInventory ∧ target.containedBy = source.id then some true
      else if source.containedBy = target.containedBy then some true
      else if source.containedBy = target.id then some true
      else isRegionAbove db target.id (db.getEntity source.containedBy)
    | _, _ => some false
  | _, _ => some false

def isEntityLocalViaInventory (db : Database δ) (source target : EntityRef δ)
    (includeSourceInventory : Bool) : Option Bool :=
  let carried :=
    match source.bind EntityData.asContainer, target.bind EntityData.asContainer with
    | some source, some target =>
      match (db.getEntity target.containedBy).bind EntityData.asContainer with
      | some container => decide (container.containedBy = source.containedBy)
      | none => false
    | _, _ => false
  if carried then some true else isEntityLocal db source target includeSourceInventory

/-- The search for the regions above ends, wherever it starts. -/
def SearchEnds (db : Database δ) : Prop :=
  ∀ targetId start, (isRegionAbove db targetId (db.getEntity start)).isSome

variable {db : Database δ} {runningAsRequester : Bool} {requester : EntityRef δ}
  {programId ownerId : Id} {security : Security}

theorem isEntityLocal_isSome (h : SearchEnds db) (source target : EntityRef δ)
    (includeSourceInventory : Bool) :
    (isEntityLocal db source target includeSourceInventory).isSome := by
  unfold isEntityLocal
  split
  · split
    · split_ifs
      · rfl
      · rfl
      · rfl
      · rfl
      · exact h _ _
    · rfl
  · rfl

theorem isEntityLocalViaInventory_isSome (h : SearchEnds db) (source target : EntityRef δ)
    (includeSourceInventory : Bool) :
    (isEntityLocalViaInventory db source target includeSourceInventory).isSome := by
  rw [isEntityLocalViaInventory]
  split_ifs
  · rfl
  · exact isEntityLocal_isSome h source target includeSourceInventory

/-! ### Permissions and administrators -/

/-- `is_in_list`: an ID is listed, or in a Group that is listed. -/
def isInList (db : Database δ) (listContents : List Id) (idToCheck otherIdToCheck : Id) : Bool :=
  listContents.any fun listed =>
    decide (listed = idToCheck) ||
      (!otherIdToCheck.isDefault && decide (listed = otherIdToCheck)) ||
      (decide (db.getEntityType listed = .group) &&
        match db.getEntity listed with
        | none => false
        | some group =>
          decide (group.entityType = .group) && !group.deleted &&
            (group.isInGroup idToCheck ||
              (!otherIdToCheck.isDefault && group.isInGroup otherIdToCheck)))

/-- Whether a flag is set, or `basic` where that counts as well. -/
def flagOrBasic (get : SecurityFlag → Bool) (flag : SecurityFlag) (basicCounts : Bool) : Bool :=
  get flag || (basicCounts && get .basic)

/-- `has_permission` of one Entity. -/
def hasPermissionFor (db : Database δ) (ownerId : Id) (security : Security)
    (flag : SecurityFlag) (basicHandling : BasicFlagHandling) (entity : EntityRef δ) : Bool :=
  match entity with
  | none => false
  | some entity =>
    decide (ownerId = entity.id) ||
      flagOrBasic security.getOtherSecurityFlag flag (basicHandling = .includeBasic) ||
      isInList db security.adminIds entity.id default ||
      (flagOrBasic security.getListSecurityFlag flag (basicHandling ≠ .excludeBasic) &&
        isInList db security.listIds entity.id default)

/-- `has_permission` of one of two Entities. -/
def hasPermissionForBoth (db : Database δ) (ownerId : Id) (security : Security)
    (flag : SecurityFlag) (basicHandling : BasicFlagHandling) (entity otherEntity : EntityRef δ) :
    Bool :=
  match entity, otherEntity with
  | some entity, some otherEntity =>
    decide (ownerId = entity.id) || decide (ownerId = otherEntity.id) ||
      flagOrBasic security.getOtherSecurityFlag flag (basicHandling = .includeBasic) ||
      isInList db security.adminIds entity.id default ||
      isInList db security.adminIds otherEntity.id default ||
      (flagOrBasic security.getListSecurityFlag flag (basicHandling ≠ .excludeBasic) &&
        isInList db security.listIds entity.id otherEntity.id)
  | _, _ => false

/-- `is_admin` of one Entity. -/
def isAdminFor (db : Database δ) (ownerId : Id) (security : Security) (entity : EntityRef δ) :
    Bool :=
  match entity with
  | none => false
  | some entity =>
    decide (ownerId = entity.id) || isInList db security.adminIds entity.id default

/-- `is_admin` of one of two Entities. -/
def isAdminForBoth (db : Database δ) (ownerId : Id) (security : Security)
    (entity otherEntity : EntityRef δ) : Bool :=
  match entity, otherEntity with
  | some entity, some otherEntity =>
    decide (ownerId = entity.id) || decide (ownerId = otherEntity.id) ||
      isInList db security.adminIds entity.id default ||
      isInList db security.adminIds otherEntity.id default
  | _, _ => false

/-- `RESULT_ACCEPT` or `RESULT_DENY`. -/
def acceptOrDeny (permission : Bool) : Result := if permission then .accept else .deny

/-- The part that the overloads with a run mode share: who is asked for.  There is one
question for a program that runs as the requester, or for the requester alone then, and
one for whoever acts otherwise. -/
def byRunMode (asRequester : EntityRef δ → Bool)
    (both : EntityRef δ → EntityRef δ → Bool) (otherwise : EntityRef δ → Bool)
    (runningAsRequester : Bool) (requester : EntityRef δ) (programId : Id)
    (program : EntityRef δ) : Option Result :=
  if runningAsRequester then
    if requester.isSome then
      if programId.isDefault then some (acceptOrDeny (asRequester requester))
      else if program.isSome then some (acceptOrDeny (both requester program))
      else none
    else none
  else if programId.isDefault then
    -- a native program; whether there is a requester is left to the question
    some (acceptOrDeny (otherwise requester))
  else if program.isSome then some (acceptOrDeny (otherwise program))
  else none

/-- `has_permission` on an Entity. -/
def hasPermission (db : Database δ) (flag : SecurityFlag) (basicHandling : BasicFlagHandling)
    (runningAsRequester : Bool) (target requester : EntityRef δ) (programId : Id)
    (program : EntityRef δ) : Option Result :=
  match target with
  | none => none
  | some target =>
    byRunMode (hasPermissionFor db target.owner target.security flag basicHandling)
      (hasPermissionForBoth db target.owner target.security flag basicHandling)
      (hasPermissionFor db target.owner target.security flag basicHandling)
      runningAsRequester requester programId program

/-- The owner and the security of an application, where there is such an
application. -/
def applicationSecurity (target : EntityRef δ) (targetApplication : ByteString) :
    Option (Id × Security) :=
  match target with
  | none => none
  | some target =>
    if target.entityType.isPropertyEntity then
      let settings := target.applications.getSecuritySettings targetApplication
      if settings.1.isDefault then none else some settings
    else none

/-- `has_permission` on an application. -/
def hasApplicationPermission (db : Database δ) (flag : SecurityFlag) (runningAsRequester : Bool)
    (target : EntityRef δ) (targetApplication : ByteString) (requester : EntityRef δ)
    (programId : Id) (program : EntityRef δ) : Option Result :=
  match applicationSecurity target targetApplication with
  | none => none
  | some (owner, security) =>
    byRunMode (hasPermissionFor db owner security flag .excludeBasic)
      (hasPermissionForBoth db owner security flag .excludeBasic)
      (hasPermissionFor db owner security flag .excludeBasic)
      runningAsRequester requester programId program

/-- `is_admin` of an Entity.  If the program does not run as the requester it is the ID
of the target that is passed as the owner. -/
def isAdmin (db : Database δ) (runningAsRequester : Bool) (target requester : EntityRef δ)
    (programId : Id) (program : EntityRef δ) : Option Result :=
  match target with
  | none => none
  | some target =>
    byRunMode (isAdminFor db target.owner target.security)
      (isAdminForBoth db target.owner target.security)
      (isAdminFor db target.id target.security)
      runningAsRequester requester programId program

/-- `is_admin` of an application. -/
def isApplicationAdmin (db : Database δ) (runningAsRequester : Bool) (target : EntityRef δ)
    (targetApplication : ByteString) (requester : EntityRef δ) (programId : Id)
    (program : EntityRef δ) : Option Result :=
  match applicationSecurity target targetApplication with
  | none => none
  | some (owner, security) =>
    byRunMode (isAdminFor db owner security) (isAdminForBoth db owner security)
      (isAdminFor db owner security) runningAsRequester requester programId program

/-! ### Who acts -/

/-- It is known who acts. -/
def CanAct (runningAsRequester : Bool) (requester : EntityRef δ) (programId : Id)
    (program : EntityRef δ) : Prop :=
  (runningAsRequester = true → requester.isSome) ∧ (programId ≠ default → program.isSome)

instance (runningAsRequester : Bool) (requester : EntityRef δ) (programId : Id)
    (program : EntityRef δ) : Decidable (CanAct runningAsRequester requester programId program) :=
  inferInstanceAs (Decidable (_ ∧ _))

/-- Those who act: the requester, the program, or both. -/
def actingIds (runningAsRequester : Bool) (requester : EntityRef δ) (programId : Id)
    (program : EntityRef δ) : List Id :=
  if programId.isDefault then requester.toList.map (·.id)
  else if runningAsRequester then (requester.toList ++ program.toList).map (·.id)
  else program.toList.map (·.id)

@[simp] theorem acceptOrDeny_eq_accept {permission : Bool} :
    acceptOrDeny permission = .accept ↔ permission = true := by
  cases permission <;> simp [acceptOrDeny]

@[simp] theorem acceptOrDeny_ne_skip (permission : Bool) : acceptOrDeny permission ≠ .skip := by
  cases permission <;> simp [acceptOrDeny]

variable {asRequester otherwise : EntityRef δ → Bool} {both : EntityRef δ → EntityRef δ → Bool}
  {t : EntityData δ} {listContents : List Id}

/-- Nothing can be determined exactly if it is not known who acts. -/
theorem byRunMode_eq_none_iff {program : EntityRef δ} :
    byRunMode asRequester both otherwise runningAsRequester requester programId program = none ↔
      ¬CanAct runningAsRequester requester programId program := by
  cases runningAsRequester <;> cases requester <;> cases program <;>
    cases hdefault : programId.isDefault <;>
    simp [byRunMode, CanAct, hdefault, ← Id.isDefault_iff]

theorem isAdmin_eq_none_iff {program : EntityRef δ} :
    isAdmin db runningAsRequester (some t) requester programId program = none ↔
      ¬CanAct runningAsRequester requester programId program :=
  byRunMode_eq_none_iff

theorem hasPermission_eq_none_iff {flag : SecurityFlag} {basicHandling : BasicFlagHandling}
    {program : EntityRef δ} :
    hasPermission db flag basicHandling runningAsRequester (some t) requester programId program =
      none ↔ ¬CanAct runningAsRequester requester programId program :=
  byRunMode_eq_none_iff

/-- What a question with a run mode answers is never that it is skipped. -/
theorem byRunMode_ne_skip {program : EntityRef δ} :
    byRunMode asRequester both otherwise runningAsRequester requester programId program ≠
      some .skip := by
  rw [byRunMode]
  split_ifs <;> simp

/-! ### Who is in a list -/

/-- An ID is listed, or is in a live Group that is. -/
def MemberOf (db : Database δ) (listContents : List Id) (id : Id) : Prop :=
  id ∈ listContents ∨
    ∃ listed ∈ listContents, ∃ group, db.getEntity listed = some group ∧
      group.entityType = .group ∧ group.isInGroup id = true

/-- The owner, or an administrator. -/
def OwnerOrAdmin (db : Database δ) (ownerId : Id) (security : Security) (id : Id) : Prop :=
  ownerId = id ∨ MemberOf db security.adminIds id

theorem isInList_iff {id other : Id} :
    isInList db listContents id other = true ↔
      MemberOf db listContents id ∨ other ≠ default ∧ MemberOf db listContents other := by
  -- what the part of the loop about Groups looks for
  have hgroup : ∀ listed, (decide (db.getEntityType listed = .group) &&
        match db.getEntity listed with
        | none => false
        | some group =>
          decide (group.entityType = .group) && !group.deleted &&
            (group.isInGroup id || (!other.isDefault && group.isInGroup other))) = true ↔
      ∃ group, db.getEntity listed = some group ∧ group.entityType = .group ∧
        (group.isInGroup id = true ∨ other ≠ default ∧ group.isInGroup other = true) := by
    intro listed
    cases hget : db.getEntity listed with
    | none => simp
    | some group =>
      obtain ⟨hobject, hdeleted⟩ := Database.getEntity_eq_some_iff.mp hget
      simp only [Database.getEntityType, hobject, hdeleted, Option.some.injEq, exists_eq_left',
        Bool.and_eq_true, Bool.or_eq_true, decide_eq_true_eq, Bool.not_eq_true', and_true,
        ← Id.isDefault_iff, Bool.not_eq_true, ne_eq]
      tauto
  rw [isInList, List.any_eq_true]
  simp only [Bool.or_eq_true, hgroup, decide_eq_true_eq, Bool.and_eq_true, Bool.not_eq_true',
    ← Bool.not_eq_true, Id.isDefault_iff]
  constructor
  · rintro ⟨listed, hlisted, (rfl | ⟨hother, rfl⟩) | ⟨group, hget, htype, hin | ⟨hother, hin⟩⟩⟩
    · exact .inl (.inl hlisted)
    · exact .inr ⟨hother, .inl hlisted⟩
    · exact .inl (.inr ⟨listed, hlisted, group, hget, htype, hin⟩)
    · exact .inr ⟨hother, .inr ⟨listed, hlisted, group, hget, htype, hin⟩⟩
  · rintro ((hlisted | ⟨listed, hlisted, group, hget, htype, hin⟩) |
      ⟨hother, hlisted | ⟨listed, hlisted, group, hget, htype, hin⟩⟩)
    · exact ⟨id, hlisted, .inl (.inl rfl)⟩
    · exact ⟨listed, hlisted, .inr ⟨group, hget, htype, .inl hin⟩⟩
    · exact ⟨other, hlisted, .inl (.inr ⟨hother, rfl⟩)⟩
    · exact ⟨listed, hlisted, .inr ⟨group, hget, htype, .inr ⟨hother, hin⟩⟩⟩

theorem isInList_default_iff {id : Id} :
    isInList db listContents id default = true ↔ MemberOf db listContents id := by
  simp [isInList_iff]

instance (db : Database δ) (listContents : List Id) (id : Id) :
    Decidable (MemberOf db listContents id) :=
  decidable_of_iff _ isInList_default_iff

instance (db : Database δ) (ownerId : Id) (security : Security) (id : Id) :
    Decidable (OwnerOrAdmin db ownerId security id) :=
  inferInstanceAs (Decidable (_ ∨ _))

theorem isAdminFor_iff {entity : EntityRef δ} :
    isAdminFor db ownerId security entity = true ↔
      ∃ e ∈ entity, OwnerOrAdmin db ownerId security e.id := by
  cases entity with
  | none => simp [isAdminFor]
  | some e => simp [isAdminFor, OwnerOrAdmin, isInList_default_iff]

theorem isAdminForBoth_iff {e e' : EntityData δ} :
    isAdminForBoth db ownerId security (some e) (some e') = true ↔
      OwnerOrAdmin db ownerId security e.id ∨ OwnerOrAdmin db ownerId security e'.id := by
  simp only [isAdminForBoth, Bool.or_eq_true, decide_eq_true_eq, isInList_default_iff,
    OwnerOrAdmin]
  tauto

/-- Administrators have every permission. -/
theorem hasPermissionFor_of_isAdminFor {entity : EntityRef δ}
    (h : isAdminFor db ownerId security entity = true) (flag : SecurityFlag)
    (basicHandling : BasicFlagHandling) :
    hasPermissionFor db ownerId security flag basicHandling entity = true := by
  cases entity with
  | none => cases h
  | some e =>
    rcases Bool.or_eq_true_iff.mp h with h | h <;> simp [hasPermissionFor, h]

theorem hasPermissionForBoth_of_isAdminForBoth {e e' : EntityRef δ}
    (h : isAdminForBoth db ownerId security e e' = true) (flag : SecurityFlag)
    (basicHandling : BasicFlagHandling) :
    hasPermissionForBoth db ownerId security flag basicHandling e e' = true := by
  cases e with
  | none => cases h
  | some e =>
    cases e' with
    | none => cases h
    | some e' =>
      simp only [isAdminForBoth, Bool.or_eq_true] at h
      rcases h with ((h | h) | h) | h <;> simp [hasPermissionForBoth, h]

end Mutgos.Security
