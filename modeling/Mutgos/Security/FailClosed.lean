import Mutgos.Security.SecurityAccess

/-!
# Security checks fail closed

A check returns true only for a combined result of `ACCEPT`, and a request with a
target is accepted only because somebody accepts it who knows about it: that all are
on the same site is not enough.  Both fail.  A request that is refused at once returns
its result as a `bool`, which is true.  And the site checker accepts, so that what no
other checker can decide is accepted because of the site.

## Main results

* `securityCheck_eq_skip_iff` — the checkers skip what they cannot
  decide.
-/

namespace Mutgos.Security

open DbTypes DbInterface Text SecurityChecker List Option

variable {δ : Type}

/-! ### What the checkers cannot decide -/

/-- `locality_security_check` has found out what is near, but not who acts. -/
def GetEntityFieldChecker.LocalityUndecided (db : Database δ) (ctx : Context)
    (target : EntityData δ) : Prop :=
  db.getEntity ctx.requester = none ∨
    (isEntityLocalViaInventory db (db.getEntity ctx.requester) (some target)
      ctx.runAsRequester).isSome ∧ ¬ctx.CanAct db

/-- `name_security_check` has nobody to decide about. -/
def GetEntityFieldChecker.NameUndecided (db : Database δ) (ctx : Context)
    (target : EntityData δ) : Prop :=
  ctx.hasCapability .anyIdToName = false ∧
    ¬(ctx.runAsRequester = true ∧ target.owner = ctx.requester) ∧
    db.getEntity ctx.requester = none

/-- A field about which nothing is known of who acts. -/
def GetEntityFieldChecker.FieldUndecided (db : Database δ) (ctx : Context)
    (target : EntityData δ) : EntityField → Prop
  | .id => False
  | .name | .playerDisplayName | .puppetDisplayName => NameUndecided db ctx target
  | .type | .owner | .flags | .deletedFlag | .containedBy | .actionContainedBy
  | .actionCommands => LocalityUndecided db ctx target
  | _ => ¬ctx.CanAct db

/-- An action that the requester may read, but that is not locked, or whose group is
gone. -/
def UseActionChecker.LockUndecided (db : Database δ) (ctx : Context) (action : EntityData δ) :
    Prop :=
  hasPermissionFor db action.owner action.security .read .includeBasic
      (db.getEntity ctx.requester) = true ∧
    action.entityType.isActionEntity = true ∧
    (action.actionLock.lockType = .invalid ∨
      action.actionLock.lockType = .byGroup ∧
        ∀ group ∈ db.getEntity action.actionLock.getId, group.entityType.isGroup = false)

/-- A transfer that is not one between containers, or for which it is not known who
acts. -/
def TransferEntityChecker.Undecided (db : Database δ) (ctx : Context)
    (target source : EntityData δ) : Prop :=
  match target.asContainer, source.asContainer with
  | some target, some source =>
    match (db.getEntity source.containedBy).bind EntityData.asContainer with
    | none => True
    | some container =>
      if container.entityType = .room then
        ¬ctx.CanAct db ∧ (target.entityType ≠ .room ∧ ctx.runAsRequester = true →
          (allInRoom db ctx container target).isSome)
      else if target.entityType = .room then
        ¬ctx.CanAct db ∧ (ctx.runAsRequester = true → (allInRoom db ctx target container).isSome)
      else ctx.runAsRequester = true → ¬ctx.CanAct db
  | _, _ => True

/-- The requests that a checker skips. -/
def SecurityChecker.Undecided (db : Database δ) (operation : Operation) (ctx : Context)
    (request : Request (EntityData δ)) : SecurityChecker → Prop
  | crossSite => request.hasTarget = false
  | admin =>
    match request with
    | .contextOnly | .entityType _ => ctx.admin = false
    | .target e | .application e _ | .field e _ =>
      ctx.admin = false ∨ ctx.requester.siteId ≠ e.id.siteId
    | .source e e' =>
      ctx.admin = false ∨ ctx.requester.siteId ≠ e.id.siteId ∨
        ctx.requester.siteId ≠ e'.id.siteId
  | acceptAll => False
  | findCharacterByName => request ≠ .contextOnly
  | characterOnline => request ≠ .contextOnly ∧ ∀ e, request ≠ .target e
  | createEntity => ∀ type, request ≠ .entityType type
  | sendTextRoomUnrestricted | sendTextEntity => ∀ e, request ≠ .target e
  | getEntityField =>
    match request with
    | .target target =>
      match operation with
      | .entityToString => ¬ctx.CanAct db
      | .getContains => GetEntityFieldChecker.LocalityUndecided db ctx target
      | .getActions =>
        if target.entityType = .player ∨ target.entityType = .guest then ¬ctx.CanAct db
        else GetEntityFieldChecker.LocalityUndecided db ctx target
      | _ => True
    | .field target entityField => GetEntityFieldChecker.FieldUndecided db ctx target entityField
    | _ => True
  | deleteEntity =>
    match request with
    | .target _ => ctx.hasCapability .builder = true ∧ ¬ctx.CanAct db
    | _ => True
  | setEntityField =>
    match request with
    | .field _ _ => ¬ctx.CanAct db
    | _ => True
  | getSetApplicationSecurity | getApplicationProperty | setApplicationProperty =>
    match request with
    | .application target application =>
      applicationSecurity (some target) application = none ∨ ¬ctx.CanAct db
    | _ => True
  | useAction =>
    match request with
    | .target target => UseActionChecker.LockUndecided db ctx target
    | _ => True
  | transferEntity =>
    match request with
    | .source target source => TransferEntityChecker.Undecided db ctx target source
    | _ => True
  | sendTextRoom =>
    match request with
    | .target _ => (db.getEntity ctx.requester).bind EntityData.asContainer = none
    | _ => True

/-! ### The checkers skip what they cannot decide -/

/-- An answer that may be missing is skipped if it is. -/
theorem getD_skip_eq_skip_iff {o : Option Result} (h : o ≠ some .skip) :
    o.getD .skip = .skip ↔ o = none := by
  cases o with
  | none => simp
  | some r => simpa using fun hr : r = .skip => h (congrArg some hr)

variable {db : Database δ} {ctx : Context} {t : EntityData δ} {operation : Operation}
  {request : Request (EntityData δ)}

theorem contextIsAdmin_getD_skip : (contextIsAdmin db ctx t).getD .skip = .skip ↔ ¬ctx.CanAct db :=
  (getD_skip_eq_skip_iff byRunMode_ne_skip).trans contextIsAdmin_eq_none_iff

variable {flag : SecurityFlag} {basicHandling : BasicFlagHandling}

theorem contextHasPermission_getD_skip :
    (contextHasPermission db ctx flag basicHandling t).getD .skip = .skip ↔ ¬ctx.CanAct db :=
  (getD_skip_eq_skip_iff byRunMode_ne_skip).trans hasPermission_eq_none_iff

/-- A permission that is not skipped is granted or denied. -/
theorem contextHasPermission_getD_deny :
    (contextHasPermission db ctx flag basicHandling t).getD .deny ≠ .skip := by
  cases h : contextHasPermission db ctx flag basicHandling t with
  | none => simp
  | some r =>
    rintro rfl
    exact byRunMode_ne_skip h

@[simp] theorem acceptCapability_ne_skip (ctx : Context) (capability : Capability) :
    acceptCapability ctx capability ≠ .skip :=
  acceptOrDeny_ne_skip _

namespace GetEntityFieldChecker

variable {db : Database δ} {ctx : Context} {target : EntityData δ}

theorem localitySecurityCheck_eq_skip_iff :
    localitySecurityCheck db ctx target = some .skip ↔ LocalityUndecided db ctx target := by
  rw [localitySecurityCheck, LocalityUndecided]
  cases hrequester : db.getEntity ctx.requester with
  | none => simp
  | some requester =>
    cases hlocal : isEntityLocalViaInventory db (some requester) (some target)
        ctx.runAsRequester with
    | none => simp [hlocal]
    | some isLocal =>
      cases isLocal <;> simp [hlocal, contextHasPermission_getD_skip]

theorem nameSecurityCheck_eq_skip_iff :
    nameSecurityCheck db ctx target = some .skip ↔ NameUndecided db ctx target := by
  rw [nameSecurityCheck, NameUndecided]
  split_ifs with hcapability howner
  · simp [hcapability]
  · simp [howner]
  · cases hrequester : db.getEntity ctx.requester with
    | none => simp [hcapability, howner]
    | some requester =>
      cases hlocal : isEntityLocalViaInventory db (some requester) (some target) true with
      | none => simp [hlocal]
      | some isLocal =>
        cases isLocal <;> simp [hlocal, contextHasPermission_getD_deny]

theorem fieldSecurityCheck_eq_skip_iff {entityField : EntityField} :
    fieldSecurityCheck db ctx target entityField = some .skip ↔
      FieldUndecided db ctx target entityField := by
  cases entityField <;>
    simp [fieldSecurityCheck, FieldUndecided, localitySecurityCheck_eq_skip_iff,
      nameSecurityCheck_eq_skip_iff, contextHasPermission_getD_skip]

end GetEntityFieldChecker

namespace UseActionChecker

variable {db : Database δ} {ctx : Context} {action : EntityData δ}

theorem checkLock_eq_skip_iff [BEq δ] {requester : EntityRef δ} {lock : Lock δ} :
    checkLock db requester lock = .skip ↔
      lock.lockType = .invalid ∨
        lock.lockType = .byGroup ∧
          ∀ group ∈ db.getEntity lock.getId, group.entityType.isGroup = false := by
  cases htype : lock.lockType with
  | invalid => simp [checkLock, htype]
  | byId => simp [checkLock, htype, apply_ite (· = Result.skip)]
  | byProperty => simp [checkLock, htype, apply_ite (· = Result.skip)]
  | byGroup =>
    cases hgroup : db.getEntity lock.getId with
    | none => simp [checkLock, htype, hgroup]
    | some group =>
      cases hclass : group.entityType.isGroup <;>
        simp [checkLock, htype, hgroup, hclass, apply_ite (· = Result.skip)]

theorem securityCheck_target_eq_skip_iff [BEq δ] :
    securityCheck db ctx (.target action) = .skip ↔ LockUndecided db ctx action := by
  -- for a native program permission is granted or denied
  have hpermission : (hasPermission db .read .includeBasic false (some action)
      (db.getEntity ctx.requester) default none).getD .skip =
        acceptOrDeny (hasPermissionFor db action.owner action.security .read .includeBasic
          (db.getEntity ctx.requester)) := rfl
  rw [securityCheck, LockUndecided, hpermission]
  cases hasPermissionFor db action.owner action.security .read .includeBasic
      (db.getEntity ctx.requester) with
  | false => simp [acceptOrDeny]
  | true =>
    cases action.entityType.isActionEntity <;>
      simp [acceptOrDeny, checkLock_eq_skip_iff]

end UseActionChecker

namespace TransferEntityChecker

variable {db : Database δ} {ctx : Context}

theorem checkForOwner_eq_skip_iff {first second : EntityData δ} :
    checkForOwner db ctx first second = .skip ↔ ¬ctx.CanAct db := by
  rw [checkForOwner]
  cases hfirst : contextIsAdmin db ctx first with
  | none => simpa using contextIsAdmin_eq_none_iff.mp hfirst
  | some sourceResult =>
    have hact : ctx.CanAct db := by
      by_contra hact
      rw [contextIsAdmin_eq_none_iff.mpr hact] at hfirst
      cases hfirst
    cases hsecond : contextIsAdmin db ctx second with
    | none => exact absurd hact (contextIsAdmin_eq_none_iff.mp hsecond)
    | some targetResult =>
      refine iff_of_false ?_ (not_not_intro hact)
      dsimp only
      split <;> simp

variable {toMove : EntityData δ}

theorem checkAdmin_eq_skip_iff {result : Result} {target : EntityData δ} (h : result ≠ .accept) :
    checkAdmin db ctx result toMove target = .skip ↔ ¬ctx.CanAct db := by
  rw [checkAdmin]
  split_ifs with haccept
  · refine iff_of_false (by simp) (not_not_intro ?_)
    by_contra hact
    rw [contextIsAdmin_eq_none_iff.mpr hact, getD_none] at haccept
    exact h haccept
  · exact contextIsAdmin_getD_skip

/-- The two parts of the check for a room and something else. -/
theorem checkBoth_eq_skip_iff {room other target : EntityData δ} :
    ((checkSameRoom db ctx room other).bind fun result =>
        if result = .accept then some .accept
        else some (checkAdmin db ctx result toMove target)) = some .skip ↔
      ¬ctx.CanAct db ∧ (ctx.runAsRequester = true → (allInRoom db ctx room other).isSome) := by
  rw [← checkSameRoom_isSome]
  cases hroom : checkSameRoom db ctx room other with
  | none => simp
  | some result =>
    by_cases haccept : result = .accept
    · subst haccept
      have hact : ctx.CanAct db := by
        by_contra hact
        have hadmin := (checkSameRoom_eq_accept_iff.mp hroom).2.2
        rw [contextIsAdmin_eq_none_iff.mpr hact] at hadmin
        cases hadmin
      simp [hact]
    · simp [haccept, checkAdmin_eq_skip_iff]

theorem securityCheck_source_eq_skip_iff {target source : EntityData δ} :
    securityCheck db ctx (.source target source) = some .skip ↔ Undecided db ctx target source := by
  rw [securityCheck, Undecided]
  cases target.asContainer with
  | none => simp
  | some target =>
    cases source.asContainer with
    | none => simp
    | some source =>
      dsimp only
      cases (db.getEntity source.containedBy).bind EntityData.asContainer with
      | none => simp
      | some container =>
        by_cases hcontainer : container.entityType = .room <;>
          by_cases htarget : target.entityType = .room
        · simp [hcontainer, htarget, checkForOwner_eq_skip_iff]
        · simpa [hcontainer, htarget, checkRoomToEntity] using checkBoth_eq_skip_iff
        · simpa [hcontainer, htarget, checkRoomToEntity] using checkBoth_eq_skip_iff
        · cases hrun : ctx.runAsRequester <;>
            simp [hcontainer, htarget, hrun, checkForOwner_eq_skip_iff]

end TransferEntityChecker

/-- What cannot be decided about an application. -/
theorem getD_skip_applicationQuestion {settings : Option (Id × Security)}
    {asRequester otherwise : Id → Security → EntityRef δ → Bool}
    {both : Id → Security → EntityRef δ → EntityRef δ → Bool} :
    (match settings with
      | none => none
      | some (owner, security) =>
        byRunMode (asRequester owner security) (both owner security) (otherwise owner security)
          ctx.runAsRequester (db.getEntity ctx.requester) ctx.program
          (db.getEntity ctx.program)).getD .skip = .skip ↔
      settings = none ∨ ¬ctx.CanAct db := by
  cases settings with
  | none => simp
  | some settings =>
    simpa [Context.CanAct] using
      (getD_skip_eq_skip_iff byRunMode_ne_skip).trans byRunMode_eq_none_iff

/-- The checkers skip what they cannot decide, and nothing else. -/
theorem SecurityChecker.securityCheck_eq_skip_iff [BEq δ] {checker : SecurityChecker} :
    checker.securityCheck db operation ctx request = some .skip ↔
      checker.Undecided db operation ctx request := by
  cases checker with
  | crossSite =>
    cases request <;>
      simp [securityCheck, Undecided, CrossSiteChecker.securityCheck, CrossSiteChecker.checkSite,
        Request.hasTarget, apply_ite (· = Result.skip)]
  | admin =>
    cases hadmin : ctx.admin <;> cases request <;>
      simp [securityCheck, Undecided, AdminSecurityChecker.securityCheck,
        AdminSecurityChecker.crossSiteAdminCheck, AdminSecurityChecker.adminCheck, hadmin]
    -- both the target and the source are on the site of the requester
    tauto
  | acceptAll => simp [securityCheck, Undecided]
  | findCharacterByName =>
    cases request <;> simp [securityCheck, Undecided, FindCharacterByNameChecker.securityCheck]
  | characterOnline =>
    cases request <;> simp [securityCheck, Undecided, CharacterOnlineChecker.securityCheck]
  | createEntity =>
    cases request with
    | entityType type =>
      cases type <;> simp [securityCheck, Undecided, CreateEntityChecker.securityCheck]
    | _ => simp [securityCheck, Undecided, CreateEntityChecker.securityCheck]
  | sendTextRoomUnrestricted =>
    cases request <;>
      simp [securityCheck, Undecided, SendTextRoomUnrestrictedChecker.securityCheck]
  | sendTextEntity =>
    cases request <;> simp [securityCheck, Undecided, SendTextEntityChecker.securityCheck]
  | getEntityField =>
    cases request with
    | target target =>
      cases operation <;>
        simp [securityCheck, Undecided, GetEntityFieldChecker.securityCheck,
          GetEntityFieldChecker.localitySecurityCheck_eq_skip_iff,
          GetEntityFieldChecker.fieldSecurityCheck_eq_skip_iff,
          GetEntityFieldChecker.FieldUndecided]
      split_ifs <;>
        simp [GetEntityFieldChecker.localitySecurityCheck_eq_skip_iff,
          GetEntityFieldChecker.fieldSecurityCheck_eq_skip_iff,
          GetEntityFieldChecker.FieldUndecided]
    | field target entityField => exact GetEntityFieldChecker.fieldSecurityCheck_eq_skip_iff
    | _ => simp [securityCheck, Undecided, GetEntityFieldChecker.securityCheck]
  | deleteEntity =>
    cases request with
    | target target =>
      cases hbuilder : ctx.hasCapability .builder <;>
        simp [securityCheck, Undecided, DeleteEntityChecker.securityCheck, hbuilder,
          contextIsAdmin_getD_skip]
    | _ => simp [securityCheck, Undecided, DeleteEntityChecker.securityCheck]
  | setEntityField =>
    cases request with
    | field target entityField =>
      by_cases hadmin : entityField = .owner ∨ entityField = .security <;>
        simp [securityCheck, Undecided, SetEntityFieldChecker.securityCheck, hadmin,
          contextIsAdmin_getD_skip, contextHasPermission_getD_skip]
    | _ => simp [securityCheck, Undecided, SetEntityFieldChecker.securityCheck]
  | getSetApplicationSecurity =>
    cases request with
    | application target application =>
      exact some_inj.trans getD_skip_applicationQuestion
    | _ => simp [securityCheck, Undecided, GetSetApplicationSecurityChecker.securityCheck]
  | getApplicationProperty =>
    cases request with
    | application target application =>
      exact some_inj.trans getD_skip_applicationQuestion
    | _ =>
      simp [securityCheck, Undecided, GetApplicationPropertyChecker.securityCheck,
        applicationPropertyCheck]
  | setApplicationProperty =>
    cases request with
    | application target application =>
      exact some_inj.trans getD_skip_applicationQuestion
    | _ =>
      simp [securityCheck, Undecided, SetApplicationPropertyChecker.securityCheck,
        applicationPropertyCheck]
  | useAction =>
    cases request with
    | target target => exact some_inj.trans UseActionChecker.securityCheck_target_eq_skip_iff
    | _ => simp [securityCheck, Undecided, UseActionChecker.securityCheck]
  | transferEntity =>
    cases request with
    | source target source => exact TransferEntityChecker.securityCheck_source_eq_skip_iff
    | _ => simp [securityCheck, Undecided, TransferEntityChecker.securityCheck]
  | sendTextRoom =>
    cases request with
    | target target =>
      cases hrequester : (db.getEntity ctx.requester).bind EntityData.asContainer with
      | none => simp [securityCheck, Undecided, SendTextRoomChecker.securityCheck, hrequester]
      | some requester =>
        simp [securityCheck, Undecided, SendTextRoomChecker.securityCheck, hrequester,
          apply_ite (· = Result.skip)]
    | _ => simp [securityCheck, Undecided, SendTextRoomChecker.securityCheck]

/-! ### Putting the answers together -/

/-- The answers that end the loop over the checkers. -/
def Result.decides : Result → Bool
  | .acceptAlways | .deny | .denyAlways => true
  | .accept | .skip => false

/-- The answers of the checkers, until one of them has decided. -/
def answers [BEq δ] (db : Database δ) (operation : Operation) (ctx : Context)
    (request : Request (EntityData δ)) :
    List SecurityChecker → Option (List (SecurityChecker × Result))
  | [] => some []
  | checker :: checkers => do
    let answer ← checker.securityCheck db operation ctx request
    if answer.decides then some [(checker, answer)]
    else
      let others ← answers db operation ctx request checkers
      some ((checker, answer) :: others)

/-- Somebody accepts, other than the site checker, and nobody denies. -/
def AcceptedByOthers (log : List (SecurityChecker × Result)) : Prop :=
  (∃ answer ∈ log, answer.1 ≠ .crossSite ∧ (answer.2 = .accept ∨ answer.2 = .acceptAlways)) ∧
    ∀ answer ∈ log, answer.2 ≠ .deny ∧ answer.2 ≠ .denyAlways

section Answers

variable [BEq δ] {db : Database δ} {operation : Operation} {ctx : Context}
  {request : Request (EntityData δ)} {checkers : List SecurityChecker} {checker : SecurityChecker}

/-- The loop in its two cases. -/
theorem answers_cons_eq_some_iff {log : List (SecurityChecker × Result)} :
    answers db operation ctx request (checker :: checkers) = some log ↔
      ∃ answer, checker.securityCheck db operation ctx request = some answer ∧
        (answer.decides = true ∧ log = [(checker, answer)] ∨
          answer.decides = false ∧ ∃ others,
            answers db operation ctx request checkers = some others ∧
              log = (checker, answer) :: others) := by
  rw [answers]
  cases checker.securityCheck db operation ctx request with
  | none => simp
  | some answer =>
    cases hdecides : answer.decides with
    | true => simpa [hdecides] using eq_comm
    | false =>
      cases answers db operation ctx request checkers with
      | none => simp [hdecides]
      | some others => simpa [hdecides] using eq_comm

/-- Every answer is that of its checker. -/
theorem securityCheck_of_mem_answers {log : List (SecurityChecker × Result)}
    (h : answers db operation ctx request checkers = some log) {answer : SecurityChecker × Result}
    (hanswer : answer ∈ log) :
    answer.1 ∈ checkers ∧
      answer.1.securityCheck db operation ctx request = some answer.2 := by
  induction checkers generalizing log with
  | nil =>
    cases h
    cases hanswer
  | cons checker checkers ih =>
    obtain ⟨first, hfirst, ⟨_, rfl⟩ | ⟨_, others, hothers, rfl⟩⟩ := answers_cons_eq_some_iff.mp h
    · obtain rfl := mem_singleton.mp hanswer
      exact ⟨mem_cons_self, hfirst⟩
    · rcases mem_cons.mp hanswer with rfl | hanswer
      · exact ⟨mem_cons_self, hfirst⟩
      · obtain ⟨hmem, hcheck⟩ := ih hothers hanswer
        exact ⟨mem_cons_of_mem _ hmem, hcheck⟩

/-- If nobody decides, everybody is asked. -/
theorem exists_answer_of_mem {log : List (SecurityChecker × Result)}
    (h : answers db operation ctx request checkers = some log)
    (hdecides : ∀ answer ∈ log, answer.2.decides = false) (hchecker : checker ∈ checkers) :
    ∃ result, (checker, result) ∈ log := by
  induction checkers generalizing log with
  | nil => cases hchecker
  | cons first checkers ih =>
    obtain ⟨answer, hfirst, ⟨hanswer, rfl⟩ | ⟨_, others, hothers, rfl⟩⟩ :=
      answers_cons_eq_some_iff.mp h
    · rw [hdecides _ (mem_singleton_self _)] at hanswer
      cases hanswer
    · rcases mem_cons.mp hchecker with rfl | hchecker
      · exact ⟨answer, mem_cons_self⟩
      · obtain ⟨result, hresult⟩ :=
          ih hothers (fun a ha => hdecides a (mem_cons_of_mem _ ha)) hchecker
        exact ⟨result, mem_cons_of_mem _ hresult⟩

/-- **What is accepted**: as long as nobody denies, what was accepted before or what
somebody accepts. -/
theorem runCheckers_eq_accept_iff {result : Result} {log : List (SecurityChecker × Result)}
    (h : answers db operation ctx request checkers = some log)
    (hresult : result = .skip ∨ result = .accept) :
    runCheckers db operation ctx request checkers result = some .accept ↔
      (result = .accept ∨ ∃ answer ∈ log, answer.2 = .accept ∨ answer.2 = .acceptAlways) ∧
        ∀ answer ∈ log, answer.2 ≠ .deny ∧ answer.2 ≠ .denyAlways := by
  induction checkers generalizing log result with
  | nil =>
    cases h
    simp [runCheckers]
  | cons checker checkers ih =>
    obtain ⟨answer, hanswer, ⟨hdecides, rfl⟩ | ⟨hdecides, others, hothers, rfl⟩⟩ :=
      answers_cons_eq_some_iff.mp h
    · rw [runCheckers, hanswer]
      cases answer <;> simp_all [Result.decides, checkResult]
    · rw [runCheckers, hanswer]
      cases answer with
      | accept =>
        have haccept : checkResult .accept result = (true, .accept) := by
          rcases hresult with rfl | rfl <;> rfl
        simp only [bind_eq_bind, bind_some, haccept, if_true]
        rw [ih hothers (.inr rfl)]
        simp
      | skip =>
        simp only [bind_eq_bind, bind_some, checkResult, if_true]
        rw [ih hothers hresult]
        simp
      | acceptAlways => cases hdecides
      | deny => cases hdecides
      | denyAlways => cases hdecides

end Answers

/-! ### Checks end -/

section Ends

variable {db : Database δ} {ctx : Context}

section

variable (h : SearchEnds db)
include h

theorem GetEntityFieldChecker.localitySecurityCheck_isSome (target : EntityData δ) :
    (localitySecurityCheck db ctx target).isSome := by
  rw [localitySecurityCheck]
  cases db.getEntity ctx.requester with
  | none => rfl
  | some requester =>
    obtain ⟨isLocal, hlocal⟩ := isSome_iff_exists.mp
      (isEntityLocalViaInventory_isSome h (some requester) (some target) ctx.runAsRequester)
    cases isLocal <;> simp [hlocal]

theorem GetEntityFieldChecker.nameSecurityCheck_isSome (target : EntityData δ) :
    (nameSecurityCheck db ctx target).isSome := by
  rw [nameSecurityCheck]
  split_ifs
  · rfl
  · rfl
  · cases db.getEntity ctx.requester with
    | none => rfl
    | some requester =>
      obtain ⟨isLocal, hlocal⟩ := isSome_iff_exists.mp
        (isEntityLocalViaInventory_isSome h (some requester) (some target) true)
      cases isLocal <;> simp [hlocal]

theorem GetEntityFieldChecker.fieldSecurityCheck_isSome (target : EntityData δ)
    (entityField : EntityField) : (fieldSecurityCheck db ctx target entityField).isSome := by
  cases entityField <;>
    simp [fieldSecurityCheck, localitySecurityCheck_isSome h, nameSecurityCheck_isSome h]

theorem GetEntityFieldChecker.securityCheck_isSome (operation : Operation)
    (request : Request (EntityData δ)) : (securityCheck db operation ctx request).isSome := by
  cases request with
  | target target =>
    cases operation <;>
      simp [securityCheck, localitySecurityCheck_isSome h, fieldSecurityCheck_isSome h]
    split_ifs <;> simp [localitySecurityCheck_isSome h, fieldSecurityCheck_isSome h]
  | field target entityField => exact fieldSecurityCheck_isSome h target entityField
  | _ => rfl

theorem TransferEntityChecker.checkSameRoom_isSome_of_searchEnds (ctx : Context)
    (room other : EntityData δ) : (checkSameRoom db ctx room other).isSome := by
  refine checkSameRoom_isSome.mpr fun _ => ?_
  rw [allInRoom]
  obtain ⟨isLocal, hlocal⟩ := isSome_iff_exists.mp
    (isEntityLocal_isSome h (some room) (db.getEntity ctx.requester) true)
  cases isLocal <;> simp [hlocal, isEntityLocal_isSome h]

theorem TransferEntityChecker.checkRoomToEntity_isSome (toMove container target : EntityData δ)
    (containerIsRoom targetIsRoom : Bool) :
    (checkRoomToEntity db ctx toMove container containerIsRoom target targetIsRoom).isSome := by
  rw [checkRoomToEntity]
  split
  · rfl
  · cases containerIsRoom with
    | true =>
      obtain ⟨result, hresult⟩ := isSome_iff_exists.mp
        (checkSameRoom_isSome_of_searchEnds h ctx container target)
      simp [hresult, apply_ite Option.isSome]
    | false =>
      obtain ⟨result, hresult⟩ := isSome_iff_exists.mp
        (checkSameRoom_isSome_of_searchEnds h ctx target container)
      simp [hresult, apply_ite Option.isSome]

theorem TransferEntityChecker.securityCheck_isSome (request : Request (EntityData δ)) :
    (securityCheck db ctx request).isSome := by
  rw [securityCheck.eq_def]
  split
  · split
    · split
      · rfl
      · dsimp only
        split_ifs
        · exact checkRoomToEntity_isSome h _ _ _ _ _
        · rfl
        · rfl
        · rfl
    · rfl
  · rfl

/-- **Checks end** if the search for regions does. -/
theorem evaluate_isSome [BEq δ] (operation : Operation) (request : Request (EntityData δ)) :
    (evaluate db operation ctx request).isSome := by
  have hchecker : ∀ checker : SecurityChecker,
      (checker.securityCheck db operation ctx request).isSome := by
    intro checker
    cases checker with
    | getEntityField => exact GetEntityFieldChecker.securityCheck_isSome h operation request
    | transferEntity => exact TransferEntityChecker.securityCheck_isSome h request
    | _ => rfl
  suffices ∀ checkers result,
      (runCheckers db operation ctx request checkers result).isSome from this _ _
  intro checkers
  induction checkers with
  | nil => exact fun result => rfl
  | cons checker checkers ih =>
    intro result
    obtain ⟨answer, hanswer⟩ := isSome_iff_exists.mp (hchecker checker)
    rw [runCheckers, hanswer]
    simp only [bind_eq_bind, bind_some]
    split
    · exact ih _
    · rfl

/-- A call ends if the search for regions does. -/
theorem securityCheck_isSome [BEq δ] (operation : Operation) (ctx : Context)
    (request : Request (EntityRef δ)) (throwExceptionOnDenied : Bool) :
    (securityCheck db operation ctx request throwExceptionOnDenied).isSome := by
  cases hvalid : request.validate with
  | none =>
    rw [securityCheck_of_refused hvalid]
    rfl
  | some valid =>
    rw [securityCheck_of_valid hvalid]
    split
    · rfl
    · rw [isSome_map]
      exact evaluate_isSome h operation valid

end

end Ends

/-! ### Failing closed -/

/-- What is expected of a call. -/
structure FailsClosed [BEq δ] (db : Database δ) (operation : Operation) (ctx : Context)
    (request : Request (EntityRef δ)) (throwExceptionOnDenied : Bool) : Prop where
  /-- The call ends if the search for regions does. -/
  ends : SearchEnds db →
    (securityCheck db operation ctx request throwExceptionOnDenied).isSome
  /-- It returns true only when the combined result is `ACCEPT`. -/
  returnsTrue : ∀ ctx', securityCheck db operation ctx request throwExceptionOnDenied =
    some (.returned true, ctx') → combinedResult db operation ctx request = some .accept
  /-- If it is to throw, it returns true or throws. -/
  throws : throwExceptionOnDenied = true → ∀ outcome ctx',
    securityCheck db operation ctx request throwExceptionOnDenied = some (outcome, ctx') →
      outcome = .returned true ∨ ∃ e, outcome = .thrown e
  /-- A reference that is not valid, and an empty name of an application, are denied. -/
  refuses : request.validate = none → ∀ ctx',
    securityCheck db operation ctx request throwExceptionOnDenied ≠ some (.returned true, ctx')
  /-- What is accepted on a target is accepted by somebody besides the site checker. -/
  accepts : ∀ valid, request.validate = some valid → valid.hasTarget = true →
    ∀ log, answers db operation ctx valid (operationSecurity operation) = some log →
      evaluate db operation ctx valid = some .accept → AcceptedByOthers log

/-- Requests with a target on the site of the requester, or on the global one, that no
checker of the operation can decide, nor the checker for administrators. -/
def DecidedBySiteAlone (db : Database δ) (operation : Operation) (ctx : Context)
    (request : Request (EntityData δ)) : Prop :=
  request.hasTarget = true ∧ CrossSiteChecker.securityCheck ctx request = .accept ∧
    ∀ checker ∈ operationSecurity operation, checker ≠ .crossSite →
      checker.Undecided db operation ctx request

/-- The site checker is only asked at first. -/
theorem crossSite_notMem (operation : Operation) :
    crossSite ∉ admin :: ownCheckers operation := by
  cases operation <;> simp [ownCheckers]

/-- What the site checker alone has an opinion on is accepted, on account of its answer. -/
theorem not_acceptedByOthers [BEq δ] (h : DecidedBySiteAlone db operation ctx request) :
    ∃ log, answers db operation ctx request (operationSecurity operation) = some log ∧
      evaluate db operation ctx request = some .accept ∧ ¬AcceptedByOthers log := by
  obtain ⟨_, hsite, hothers⟩ := h
  have hskips : ∀ checker ∈ admin :: ownCheckers operation,
      checker.securityCheck db operation ctx request = some .skip := by
    intro checker hchecker
    refine securityCheck_eq_skip_iff.mpr
      (hothers checker (mem_cons_of_mem _ hchecker) ?_)
    rintro rfl
    exact crossSite_notMem operation hchecker
  -- everybody after the site checker is asked, and skips
  obtain ⟨log, hlog, hall⟩ : ∃ log,
      answers db operation ctx request (admin :: ownCheckers operation) =
        some log ∧ ∀ answer ∈ log, answer.2 = .skip := by
    generalize admin :: ownCheckers operation = checkers at hskips
    induction checkers with
    | nil => exact ⟨[], rfl, by simp⟩
    | cons checker checkers ih =>
      obtain ⟨log, hlog, hall⟩ := ih fun c hc => hskips c (mem_cons_of_mem _ hc)
      exact ⟨(checker, .skip) :: log,
        answers_cons_eq_some_iff.mpr
          ⟨.skip, hskips checker mem_cons_self, .inr ⟨rfl, log, hlog, rfl⟩⟩,
        by simpa using hall⟩
  have hanswers : answers db operation ctx request (operationSecurity operation) =
      some ((.crossSite, .accept) :: log) :=
    answers_cons_eq_some_iff.mpr
      ⟨.accept, congrArg some hsite, .inr ⟨rfl, log, hlog, rfl⟩⟩
  refine ⟨_, hanswers, ?_, ?_⟩
  · refine (runCheckers_eq_accept_iff hanswers (.inl rfl)).mpr ⟨.inr ⟨_, mem_cons_self, ?_⟩, ?_⟩
    · exact .inl rfl
    · rintro answer (_ | ⟨_, hanswer⟩)
      · simp
      · simp [hall answer hanswer]
  · rintro ⟨⟨answer, hanswer, hne, haccept⟩, _⟩
    rcases mem_cons.mp hanswer with rfl | hanswer
    · exact hne rfl
    · rw [hall answer hanswer] at haccept
      simp at haccept

/-- What is accepted otherwise is accepted by somebody else. -/
theorem acceptedByOthers_of_not_decidedBySiteAlone [BEq δ] (htarget : request.hasTarget = true)
    (h : ¬DecidedBySiteAlone db operation ctx request) {log : List (SecurityChecker × Result)}
    (hlog : answers db operation ctx request (operationSecurity operation) = some log)
    (haccept : evaluate db operation ctx request = some .accept) : AcceptedByOthers log := by
  obtain ⟨haccepts | ⟨answer, hanswer, haccepts⟩, hdenies⟩ :=
    (runCheckers_eq_accept_iff hlog (.inl rfl)).mp haccept
  · cases haccepts
  refine ⟨?_, hdenies⟩
  by_contra hothers
  apply h
  -- nobody else accepts, so that everybody else is asked and skips
  have hcrossSite : ∀ a ∈ log, a.2 = .accept ∨ a.2 = .acceptAlways → a.1 = .crossSite := by
    intro a ha haccepts
    by_contra hne
    exact hothers ⟨a, ha, hne, haccepts⟩
  have hsite : CrossSiteChecker.securityCheck ctx request = .accept := by
    have hcheck := (securityCheck_of_mem_answers hlog hanswer).2
    rw [hcrossSite answer hanswer haccepts] at hcheck
    have hcheck : CrossSiteChecker.securityCheck ctx request = answer.2 := some_inj.mp hcheck
    rcases haccepts with haccepts | haccepts
    · rw [hcheck, haccepts]
    · rw [haccepts] at hcheck
      cases request <;>
        simp [CrossSiteChecker.securityCheck, CrossSiteChecker.checkSite, ite_eq_iff] at hcheck
  have hdecides : ∀ a ∈ log, a.2.decides = false := by
    intro a ha
    have hdeny := hdenies a ha
    cases hresult : a.2 with
    | accept => rfl
    | skip => rfl
    | deny => exact absurd hresult hdeny.1
    | denyAlways => exact absurd hresult hdeny.2
    | acceptAlways =>
      have hcheck := (securityCheck_of_mem_answers hlog ha).2
      rw [hcrossSite a ha (.inr hresult), hresult] at hcheck
      have hcheck := some_inj.mp hcheck
      rw [hsite] at hcheck
      cases hcheck
  refine ⟨htarget, hsite, fun checker hchecker hne => ?_⟩
  obtain ⟨result, hresult⟩ := exists_answer_of_mem hlog hdecides hchecker
  obtain rfl : result = .skip := by
    have hdecided := hdecides _ hresult
    cases result with
    | skip => rfl
    | accept => exact absurd (hcrossSite _ hresult (.inl rfl)) hne
    | acceptAlways => cases hdecided
    | deny => cases hdecided
    | denyAlways => cases hdecided
  exact securityCheck_eq_skip_iff.mp (securityCheck_of_mem_answers hlog hresult).2

/-- A call for a valid request ends as its combined result says. -/
theorem outcome_of_valid [BEq δ] {ctx' : Context} {request : Request (EntityRef δ)}
    {valid : Request (EntityData δ)} {throwExceptionOnDenied : Bool} {outcome : Outcome}
    (hvalid : request.validate = some valid)
    (h : securityCheck db operation ctx request throwExceptionOnDenied = some (outcome, ctx')) :
    (outcome = .returned true → combinedResult db operation ctx request = some .accept) ∧
      (throwExceptionOnDenied = true → outcome = .returned true ∨ ∃ e, outcome = .thrown e) := by
  obtain ⟨result, hresult, rfl⟩ := combinedResult_of_securityCheck hvalid h
  by_cases haccept : result = .accept
  · subst haccept
    exact ⟨fun _ => hresult, fun _ => .inl (by simp [outcomeOf])⟩
  · refine ⟨fun houtcome => ?_, fun hthrow => .inr ⟨_, if_pos ⟨hthrow, haccept⟩⟩⟩
    simp [outcomeOf, haccept, ite_eq_iff] at houtcome

/-- **Security checks fail closed except in two cases**: a request that is refused before
a checker is asked, and one that only the site checker has an opinion on. -/
theorem failsClosed_iff [BEq δ] (db : Database δ) (operation : Operation) (ctx : Context)
    (request : Request (EntityRef δ)) (throwExceptionOnDenied : Bool) :
    FailsClosed db operation ctx request throwExceptionOnDenied ↔
      ∃ valid, request.validate = some valid ∧ ¬DecidedBySiteAlone db operation ctx valid := by
  constructor
  · intro hcloses
    cases hvalid : request.validate with
    | none => exact absurd (securityCheck_of_refused hvalid) (hcloses.refuses hvalid ctx)
    | some valid =>
      refine ⟨valid, rfl, fun hsite => ?_⟩
      obtain ⟨log, hlog, haccept, hothers⟩ := not_acceptedByOthers hsite
      exact hothers (hcloses.accepts valid hvalid hsite.1 log hlog haccept)
  · rintro ⟨valid, hvalid, hsite⟩
    refine ⟨fun hends => securityCheck_isSome hends operation ctx request _,
      fun ctx' h => (outcome_of_valid hvalid h).1 rfl,
      fun hthrow outcome ctx' h => (outcome_of_valid hvalid h).2 hthrow, fun hnone => ?_, ?_⟩
    · rw [hvalid] at hnone
      cases hnone
    · rintro valid' hvalid' htarget log hlog haccept
      obtain rfl : valid = valid' := Option.some_inj.mp (hvalid.symm.trans hvalid')
      exact acceptedByOthers_of_not_decidedBySiteAlone htarget hsite hlog haccept

/-- A player who may build, running a program that has been deleted meanwhile. -/
def orphanedContext : Context :=
  { Context.new ⟨2, 5⟩ ⟨2, 20⟩ with capabilities := [.builder], runAsRequester := true }

/-- A site with that player, and a room of somebody else. -/
def orphanedSite : Database Unit :=
  ⟨[EntityData.ofType ⟨2, 5⟩ .player,
    { EntityData.ofType ⟨2, 9⟩ .room with owner := ⟨2, 3⟩ }]⟩

/-- **Checks do not fail closed**: a reference that is not valid is let through, even if
the call is to throw, and the room of somebody else may be deleted by way of a program
that does not exist. -/
theorem failsClosed_broken :
    ¬FailsClosed orphanedSite .deleteEntity orphanedContext (.target none) true ∧
      ¬FailsClosed orphanedSite .deleteEntity orphanedContext
        (.target (orphanedSite.object ⟨2, 9⟩)) true := by
  constructor
  · intro hcloses
    exact hcloses.refuses rfl orphanedContext rfl
  · intro hcloses
    have hothers := hcloses.accepts (.target _) rfl rfl
      [(.crossSite, .accept), (.admin, .skip), (.deleteEntity, .skip)] (by decide) (by decide)
    revert hothers
    unfold AcceptedByOthers
    decide

end Mutgos.Security
