import Mutgos.Security.CheckerHelpers
import Mutgos.Security.Context

/-!
# Security checkers

The classes derived from `security::SecurityChecker`.  Each answers some of the
overloads, and the base class skips the others.  References are valid when a checker
is called, so that the target and the source of a request are Entities.

A checker that looks at what is near may never return, which is `none`.
-/

namespace Mutgos.Security

open DbTypes DbInterface Text

variable {δ : Type}

def globalSiteId : SiteIdType := 1

/-! ### Sites and administrators -/

namespace CrossSiteChecker

def checkSite (requesterId targetId : Id) : Result :=
  if requesterId.siteId = globalSiteId ∨
      (targetId.siteId = requesterId.siteId ∨ targetId.siteId = globalSiteId) then .accept
  else .denyAlways

def securityCheck (ctx : Context) : Request (EntityData δ) → Result
  | .target target | .application target _ | .field target _ => checkSite ctx.requester target.id
  | .source target source =>
    if checkSite ctx.requester target.id = .accept ∧ checkSite ctx.requester source.id = .accept
    then .accept
    else .denyAlways
  | _ => .skip

end CrossSiteChecker

namespace AdminSecurityChecker

def adminCheck (ctx : Context) : Result := if ctx.admin then .acceptAlways else .skip

def crossSiteAdminCheck (ctx : Context) (e : EntityData δ) : Result :=
  if adminCheck ctx = .skip then .skip
  else if ctx.requester.siteId = e.id.siteId then .acceptAlways
  else .skip

def securityCheck (ctx : Context) : Request (EntityData δ) → Result
  | .contextOnly | .entityType _ => adminCheck ctx
  | .target target | .application target _ | .field target _ => crossSiteAdminCheck ctx target
  | .source target source =>
    if crossSiteAdminCheck ctx target = .skip then .skip else crossSiteAdminCheck ctx source

end AdminSecurityChecker

/-! ### Capabilities -/

/-- Accepted for those who have a capability. -/
def acceptCapability (ctx : Context) (capability : Capability) : Result :=
  acceptOrDeny (ctx.hasCapability capability)

def FindCharacterByNameChecker.securityCheck (ctx : Context) : Request (EntityData δ) → Result
  | .contextOnly => acceptCapability ctx .characterFindByNameAfar
  | _ => .skip

def CharacterOnlineChecker.securityCheck (ctx : Context) : Request (EntityData δ) → Result
  | .contextOnly | .target _ => acceptCapability ctx .connectionCheck
  | _ => .skip

def CreateEntityChecker.securityCheck (ctx : Context) : Request (EntityData δ) → Result
  | .entityType entityType =>
    match entityType with
    | .player | .guest => acceptCapability ctx .createPlayer
    | .capability | .program => acceptOrDeny ctx.admin
    | _ => acceptCapability ctx .builder
  | _ => .skip

def SendTextRoomUnrestrictedChecker.securityCheck (ctx : Context) :
    Request (EntityData δ) → Result
  | .target _ => acceptCapability ctx .sendTextRoomUnrestricted
  | _ => .skip

def SendTextEntityChecker.securityCheck (ctx : Context) : Request (EntityData δ) → Result
  | .target _ => acceptCapability ctx .sendTextEntity
  | _ => .skip

def SendTextRoomChecker.securityCheck (db : Database δ) (ctx : Context) :
    Request (EntityData δ) → Result
  | .target target =>
    match (db.getEntity ctx.requester).bind EntityData.asContainer with
    | none => .skip
    | some requester =>
      if requester.containedBy = target.id then .accept
      else acceptCapability ctx .sendTextRoomUnrestricted
  | _ => .skip

/-! ### Fields and applications -/

/-- `is_admin`, for who acts in a context. -/
def contextIsAdmin (db : Database δ) (ctx : Context) (target : EntityData δ) : Option Result :=
  isAdmin db ctx.runAsRequester (some target) (db.getEntity ctx.requester) ctx.program
    (db.getEntity ctx.program)

/-- It is known who acts in a context. -/
def Context.CanAct (db : Database δ) (ctx : Context) : Prop :=
  Security.CanAct ctx.runAsRequester (db.getEntity ctx.requester) ctx.program
    (db.getEntity ctx.program)

theorem contextIsAdmin_eq_none_iff {db : Database δ} {ctx : Context} {t : EntityData δ} :
    contextIsAdmin db ctx t = none ↔ ¬ctx.CanAct db :=
  isAdmin_eq_none_iff

/-- `has_permission`, for who acts in a context. -/
def contextHasPermission (db : Database δ) (ctx : Context) (flag : SecurityFlag)
    (basicHandling : BasicFlagHandling) (target : EntityData δ) : Option Result :=
  hasPermission db flag basicHandling ctx.runAsRequester (some target)
    (db.getEntity ctx.requester) ctx.program (db.getEntity ctx.program)

namespace GetEntityFieldChecker

def nameSecurityCheck (db : Database δ) (ctx : Context) (target : EntityData δ) :
    Option Result :=
  if ctx.hasCapability .anyIdToName then some .accept
  else if ctx.runAsRequester ∧ target.owner = ctx.requester then some .accept
  else
    match db.getEntity ctx.requester with
    | none => some .skip
    | some requester => do
      if ← isEntityLocalViaInventory db (some requester) (some target) true then some .accept
      else some ((contextHasPermission db ctx .read .excludeBasic target).getD .deny)

def localitySecurityCheck (db : Database δ) (ctx : Context) (target : EntityData δ) :
    Option Result :=
  match db.getEntity ctx.requester with
  | none => some .skip
  | some requester => do
    -- the basic flag counts for everybody near, and otherwise for those listed
    let basicHandling ←
      if ← isEntityLocalViaInventory db (some requester) (some target) ctx.runAsRequester then
        some .includeBasic
      else some .includeBasicButIgnoreOther
    some ((contextHasPermission db ctx .read basicHandling target).getD .skip)

/-- `security_check` of a field. -/
def fieldSecurityCheck (db : Database δ) (ctx : Context) (target : EntityData δ) :
    EntityField → Option Result
  | .id => some .accept
  | .name | .playerDisplayName | .puppetDisplayName => nameSecurityCheck db ctx target
  | .type | .owner | .flags | .deletedFlag | .containedBy | .actionContainedBy
  | .actionCommands => localitySecurityCheck db ctx target
  | _ => some ((contextHasPermission db ctx .read .excludeBasic target).getD .skip)

def securityCheck (db : Database δ) (operation : Operation) (ctx : Context) :
    Request (EntityData δ) → Option Result
  | .target target =>
    match operation with
    | .entityToString => fieldSecurityCheck db ctx target .note
    | .getContains => localitySecurityCheck db ctx target
    | .getActions =>
      if target.entityType = .player ∨ target.entityType = .guest then
        fieldSecurityCheck db ctx target .references
      else localitySecurityCheck db ctx target
    | _ => some .skip
  | .field target entityField => fieldSecurityCheck db ctx target entityField
  | _ => some .skip

end GetEntityFieldChecker

def DeleteEntityChecker.securityCheck (db : Database δ) (ctx : Context) :
    Request (EntityData δ) → Result
  | .target target =>
    if !ctx.hasCapability .builder then .deny else (contextIsAdmin db ctx target).getD .skip
  | _ => .skip

def SetEntityFieldChecker.securityCheck (db : Database δ) (ctx : Context) :
    Request (EntityData δ) → Result
  | .field target entityField =>
    if entityField = .owner ∨ entityField = .security then
      (contextIsAdmin db ctx target).getD .skip
    else (contextHasPermission db ctx .write .excludeBasic target).getD .skip
  | _ => .skip

def GetSetApplicationSecurityChecker.securityCheck (db : Database δ) (ctx : Context) :
    Request (EntityData δ) → Result
  | .application target application =>
    (isApplicationAdmin db ctx.runAsRequester (some target) application
      (db.getEntity ctx.requester) ctx.program (db.getEntity ctx.program)).getD .skip
  | _ => .skip

/-- What `GetApplicationPropertyChecker` and `SetApplicationPropertyChecker` share. -/
def applicationPropertyCheck (db : Database δ) (ctx : Context) (flag : SecurityFlag) :
    Request (EntityData δ) → Result
  | .application target application =>
    (hasApplicationPermission db flag ctx.runAsRequester (some target) application
      (db.getEntity ctx.requester) ctx.program (db.getEntity ctx.program)).getD .skip
  | _ => .skip

def GetApplicationPropertyChecker.securityCheck (db : Database δ) (ctx : Context) :
    Request (EntityData δ) → Result :=
  applicationPropertyCheck db ctx .read

def SetApplicationPropertyChecker.securityCheck (db : Database δ) (ctx : Context) :
    Request (EntityData δ) → Result :=
  applicationPropertyCheck db ctx .write

/-! ### Actions -/

namespace UseActionChecker

/-- What the lock of an action makes of an accepted request. -/
def checkLock [BEq δ] (db : Database δ) (requester : EntityRef δ) (lock : Lock δ) : Result :=
  match lock.lockType with
  | .byId | .byProperty => if lock.evaluate requester then .accept else .deny
  | .byGroup =>
    match db.getEntity lock.getId with
    | none => .skip
    | some group =>
      if group.entityType.isGroup then
        if lock.evaluateGroup requester group then .accept else .deny
      else .skip
  | .invalid => .skip

def securityCheck [BEq δ] (db : Database δ) (ctx : Context) : Request (EntityData δ) → Result
  | .target target =>
    let requester := db.getEntity ctx.requester
    let result :=
      (hasPermission db .read .includeBasic false (some target) requester default none).getD .skip
    if result = .accept ∧ target.entityType.isActionEntity then
      checkLock db requester target.actionLock
    else result
  | _ => .skip

end UseActionChecker

/-! ### Transfers -/

namespace TransferEntityChecker

def checkForOwner (db : Database δ) (ctx : Context) (first second : EntityData δ) : Result :=
  match contextIsAdmin db ctx first with
  | none => .skip
  | some sourceResult =>
    match contextIsAdmin db ctx second with
    | none => .skip
    | some targetResult =>
      if sourceResult = .accept ∧ targetResult = .accept then .accept else .deny

/-- Whether the requester and the other place are in the room. -/
def allInRoom (db : Database δ) (ctx : Context) (room other : EntityData δ) : Option Bool := do
  if ← isEntityLocal db (some room) (db.getEntity ctx.requester) true then
    isEntityLocal db (some room) (some other) true
  else some false

/-- The first part of `check_room_to_entity`: whether all are in the same room, which is
where the Entity is picked up or where it is dropped. -/
def checkSameRoom (db : Database δ) (ctx : Context) (room other : EntityData δ) :
    Option Result := do
  if ctx.runAsRequester then
    if ← allInRoom db ctx room other then
      if (contextIsAdmin db ctx other).getD .deny = .accept then some .accept else some .deny
    else some .deny
  else some .skip

/-- The second part: whether the context is an administrator of what is moved, or of the
destination. -/
def checkAdmin (db : Database δ) (ctx : Context) (result : Result) (toMove target : EntityData δ) :
    Result :=
  if (contextIsAdmin db ctx toMove).getD result = .accept then .accept
  else (contextIsAdmin db ctx target).getD .skip

def checkRoomToEntity (db : Database δ) (ctx : Context) (toMove toMoveContainer : EntityData δ)
    (toMoveContainerIsRoom : Bool) (target : EntityData δ) (targetIsRoom : Bool) :
    Option Result :=
  if toMoveContainerIsRoom = targetIsRoom then some .skip
  else do
    let result ←
      if toMoveContainerIsRoom then checkSameRoom db ctx toMoveContainer target
      else checkSameRoom db ctx target toMoveContainer
    if result = .accept then some .accept else some (checkAdmin db ctx result toMove target)

def securityCheck (db : Database δ) (ctx : Context) : Request (EntityData δ) → Option Result
  | .source target source =>
    match target.asContainer, source.asContainer with
    | some target, some source =>
      match (db.getEntity source.containedBy).bind EntityData.asContainer with
      | none => some .skip
      | some container =>
        let containerIsRoom := decide (container.entityType = .room)
        let targetIsRoom := decide (target.entityType = .room)
        if containerIsRoom ≠ targetIsRoom then
          checkRoomToEntity db ctx source container containerIsRoom target targetIsRoom
        else if containerIsRoom ∧ targetIsRoom then some (checkForOwner db ctx container target)
        else if ctx.runAsRequester then some (checkForOwner db ctx source target)
        else some .skip
    | _, _ => some .skip
  | _ => some .skip

section Room

variable {db : Database δ} {ctx : Context}

theorem checkSameRoom_isSome {room other : EntityData δ} :
    (checkSameRoom db ctx room other).isSome ↔
      (ctx.runAsRequester = true → (allInRoom db ctx room other).isSome) := by
  rw [checkSameRoom]
  cases ctx.runAsRequester with
  | false => simp
  | true =>
    cases allInRoom db ctx room other with
    | none => simp
    | some all => cases all <;> simp [apply_ite Option.isSome]

/-- The first part accepts who is in the room and an administrator of the other place. -/
theorem checkSameRoom_eq_accept_iff {room other : EntityData δ} :
    checkSameRoom db ctx room other = some .accept ↔
      ctx.runAsRequester = true ∧ allInRoom db ctx room other = some true ∧
        contextIsAdmin db ctx other = some .accept := by
  have hadmin : (contextIsAdmin db ctx other).getD .deny = .accept ↔
      contextIsAdmin db ctx other = some .accept := by
    cases contextIsAdmin db ctx other <;> simp
  rw [checkSameRoom]
  cases ctx.runAsRequester with
  | false => simp
  | true =>
    cases allInRoom db ctx room other with
    | none => simp
    | some all => cases all <;> simp [ite_eq_iff, hadmin]

/-- The second part accepts administrators of either. -/
theorem checkAdmin_eq_accept_iff {result : Result} {toMove target : EntityData δ}
    (h : result ≠ .accept) :
    checkAdmin db ctx result toMove target = .accept ↔
      contextIsAdmin db ctx toMove = some .accept ∨
        contextIsAdmin db ctx target = some .accept := by
  rw [checkAdmin]
  cases contextIsAdmin db ctx toMove <;> cases contextIsAdmin db ctx target <;>
    simp [h, ite_eq_iff]
  tauto

theorem checkForOwner_eq_accept_iff {first second : EntityData δ} :
    checkForOwner db ctx first second = .accept ↔
      contextIsAdmin db ctx first = some .accept ∧
        contextIsAdmin db ctx second = some .accept := by
  rw [checkForOwner]
  cases contextIsAdmin db ctx first <;> cases contextIsAdmin db ctx second <;>
    simp [ite_eq_iff]

end Room

end TransferEntityChecker

/-! ### All checkers -/

/-- The classes derived from `SecurityChecker`. -/
inductive SecurityChecker where
  | crossSite | admin | acceptAll | findCharacterByName | characterOnline | getEntityField
  | createEntity | deleteEntity | setEntityField | getSetApplicationSecurity
  | getApplicationProperty | setApplicationProperty | useAction | transferEntity | sendTextRoom
  | sendTextRoomUnrestricted | sendTextEntity
  deriving DecidableEq

/-- `security_check`, by the class of the checker. -/
def SecurityChecker.securityCheck [BEq δ] (db : Database δ) (operation : Operation)
    (ctx : Context) (request : Request (EntityData δ)) : SecurityChecker → Option Result
  | crossSite => some (CrossSiteChecker.securityCheck ctx request)
  | admin => some (AdminSecurityChecker.securityCheck ctx request)
  | acceptAll => some .accept
  | findCharacterByName => some (FindCharacterByNameChecker.securityCheck ctx request)
  | characterOnline => some (CharacterOnlineChecker.securityCheck ctx request)
  | getEntityField => GetEntityFieldChecker.securityCheck db operation ctx request
  | createEntity => some (CreateEntityChecker.securityCheck ctx request)
  | deleteEntity => some (DeleteEntityChecker.securityCheck db ctx request)
  | setEntityField => some (SetEntityFieldChecker.securityCheck db ctx request)
  | getSetApplicationSecurity =>
    some (GetSetApplicationSecurityChecker.securityCheck db ctx request)
  | getApplicationProperty => some (GetApplicationPropertyChecker.securityCheck db ctx request)
  | setApplicationProperty => some (SetApplicationPropertyChecker.securityCheck db ctx request)
  | useAction => some (UseActionChecker.securityCheck db ctx request)
  | transferEntity => TransferEntityChecker.securityCheck db ctx request
  | sendTextRoom => some (SendTextRoomChecker.securityCheck db ctx request)
  | sendTextRoomUnrestricted =>
    some (SendTextRoomUnrestrictedChecker.securityCheck ctx request)
  | sendTextEntity => some (SendTextEntityChecker.securityCheck ctx request)

end Mutgos.Security
