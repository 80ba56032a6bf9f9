import Mutgos.Security.CheckerHelpers

/-!
# The rule for administrators

Whoever acts is an administrator of an Entity, or of an application of one, if one of
the acting IDs is the owner or is in the admin list, and administrators have every
permission.  That is so however it is asked, except in one way: about an Entity, for
who does not run as the requester.  There the ID of the target stands in the place of
the owner.

## Main results

* `byRunMode_isAdmin_iff` — who is accepted when the owner is passed as the owner.
-/

namespace Mutgos.Security

open DbTypes DbInterface Text

variable {δ : Type}

/-- The owner and the security of an Entity, or of an application of it. -/
def administered (target : EntityRef δ) : Option ByteString → Option (Id × Security)
  | none => target.map fun target => (target.owner, target.security)
  | some application => applicationSecurity target application

/-- `is_admin`, for an Entity or for an application of it. -/
def isAdminOf (db : Database δ) (runningAsRequester : Bool) (target : EntityRef δ)
    (application : Option ByteString) (requester : EntityRef δ) (programId : Id)
    (program : EntityRef δ) : Option Result :=
  match application with
  | none => isAdmin db runningAsRequester target requester programId program
  | some application =>
    isApplicationAdmin db runningAsRequester target application requester programId program

/-- `has_permission`, for an Entity or for an application of it, where there is no basic
flag to handle. -/
def hasPermissionOn (db : Database δ) (flag : SecurityFlag) (basicHandling : BasicFlagHandling)
    (runningAsRequester : Bool) (target : EntityRef δ) (application : Option ByteString)
    (requester : EntityRef δ) (programId : Id) (program : EntityRef δ) : Option Result :=
  match application with
  | none =>
    hasPermission db flag basicHandling runningAsRequester target requester programId program
  | some application =>
    hasApplicationPermission db flag runningAsRequester target application requester programId
      program

/-- The rule for administrators, for one question. -/
structure AdminRule (db : Database δ) (runningAsRequester : Bool) (target : EntityRef δ)
    (application : Option ByteString) (requester : EntityRef δ) (programId : Id)
    (program : EntityRef δ) : Prop where
  /-- What can be decided is decided by the acting IDs. -/
  accepts : ∀ owner security, administered target application = some (owner, security) →
    ∀ result, isAdminOf db runningAsRequester target application requester programId program =
      some result →
    (result = .accept ↔
      ∃ id ∈ actingIds runningAsRequester requester programId program,
        OwnerOrAdmin db owner security id)
  /-- Administrators have every permission. -/
  permits : isAdminOf db runningAsRequester target application requester programId program =
      some .accept →
    ∀ flag basicHandling, hasPermissionOn db flag basicHandling runningAsRequester target
      application requester programId program = some .accept

/-- The questions about applications, those of who runs as the requester, and those where
the owner and the target are the same to whoever acts. -/
def AdminRuleApplies (db : Database δ) (runningAsRequester : Bool) (target : EntityRef δ)
    (application : Option ByteString) (requester : EntityRef δ) (programId : Id)
    (program : EntityRef δ) : Prop :=
  application.isSome ∨ runningAsRequester = true ∨
    ∀ t ∈ target, ∀ id ∈ actingIds runningAsRequester requester programId program,
      (t.owner = id ↔ t.id = id) ∨ MemberOf db t.security.adminIds id

/-! ### The questions in the different run modes -/

variable {runningAsRequester : Bool} {requester : EntityRef δ} {programId owner : Id}
  {result : Result} {db : Database δ} {security : Security} {application : Option ByteString}
  {t : EntityData δ}

/-- A question that is accepted is one that can be decided. -/
theorem canAct_of_byRunMode {asRequester otherwise : EntityRef δ → Bool}
    {both : EntityRef δ → EntityRef δ → Bool} {program : EntityRef δ}
    (h : byRunMode asRequester both otherwise runningAsRequester requester programId program =
      some result) : CanAct runningAsRequester requester programId program := by
  by_contra hact
  rw [byRunMode_eq_none_iff.mpr hact] at h
  cases h

/-- Who is accepted when the owner is passed as the owner. -/
theorem byRunMode_isAdmin_iff {program : EntityRef δ}
    (h : byRunMode (isAdminFor db owner security) (isAdminForBoth db owner security)
      (isAdminFor db owner security) runningAsRequester requester programId program =
        some result) :
    result = .accept ↔
      ∃ id ∈ actingIds runningAsRequester requester programId program,
        OwnerOrAdmin db owner security id := by
  obtain ⟨hrequester, hprogram⟩ := canAct_of_byRunMode h
  rw [byRunMode] at h
  cases hdefault : programId.isDefault with
  | true =>
    -- nobody but the requester acts
    have hresult : acceptOrDeny (isAdminFor db owner security requester) = result := by
      cases runningAsRequester with
      | true => simpa [hdefault, hrequester rfl] using h
      | false => simpa [hdefault] using h
    rw [← hresult, acceptOrDeny_eq_accept, isAdminFor_iff]
    cases requester <;> simp [actingIds, hdefault]
  | false =>
    have hne : programId ≠ default := by
      rw [ne_eq, ← Id.isDefault_iff, hdefault]
      exact Bool.false_ne_true
    obtain ⟨p, rfl⟩ := Option.isSome_iff_exists.mp (hprogram hne)
    cases runningAsRequester with
    | true =>
      obtain ⟨r, rfl⟩ := Option.isSome_iff_exists.mp (hrequester rfl)
      have hresult : acceptOrDeny (isAdminForBoth db owner security (some r) (some p)) = result :=
        by simpa [hdefault] using h
      rw [← hresult, acceptOrDeny_eq_accept, isAdminForBoth_iff]
      simp [actingIds, hdefault]
    | false =>
      have hresult : acceptOrDeny (isAdminFor db owner security (some p)) = result := by
        simpa [hdefault] using h
      rw [← hresult, acceptOrDeny_eq_accept, isAdminFor_iff]
      simp [actingIds, hdefault]

/-- Who is accepted by one question is accepted by one that is as generous. -/
theorem byRunMode_mono {asRequester otherwise asRequester' otherwise' : EntityRef δ → Bool}
    {both both' : EntityRef δ → EntityRef δ → Bool} {program : EntityRef δ}
    (hrequester : ∀ e, asRequester e = true → asRequester' e = true)
    (hboth : ∀ e e', both e e' = true → both' e e' = true)
    (hotherwise : ∀ e, otherwise e = true → otherwise' e = true)
    (h : byRunMode asRequester both otherwise runningAsRequester requester programId program =
      some .accept) :
    byRunMode asRequester' both' otherwise' runningAsRequester requester programId program =
      some .accept := by
  rw [byRunMode] at h ⊢
  split_ifs at h ⊢ <;>
    simp only [Option.some.injEq, acceptOrDeny_eq_accept, reduceCtorEq] at h ⊢
  · exact hrequester _ h
  · exact hboth _ _ h
  · exact hotherwise _ h
  · exact hotherwise _ h

/-- For who does not run as the requester only the last of the three questions counts. -/
theorem byRunMode_false (asRequester asRequester' otherwise : EntityRef δ → Bool)
    (both both' : EntityRef δ → EntityRef δ → Bool) (requester : EntityRef δ) (programId : Id)
    (program : EntityRef δ) :
    byRunMode asRequester both otherwise false requester programId program =
      byRunMode asRequester' both' otherwise false requester programId program := rfl

/-- For who runs as the requester the last of the three questions does not count. -/
theorem byRunMode_true (asRequester otherwise otherwise' : EntityRef δ → Bool)
    (both : EntityRef δ → EntityRef δ → Bool) (requester : EntityRef δ) (programId : Id)
    (program : EntityRef δ) :
    byRunMode asRequester both otherwise true requester programId program =
      byRunMode asRequester both otherwise' true requester programId program := rfl

/-! ### The rule where the owner is passed as the owner -/

/-- The question that the rule is about. -/
theorem isAdminOf_eq_bind {target program : EntityRef δ}
    (h : application.isSome ∨ runningAsRequester = true) :
    isAdminOf db runningAsRequester target application requester programId program =
      (administered target application).bind fun settings =>
        byRunMode (isAdminFor db settings.1 settings.2) (isAdminForBoth db settings.1 settings.2)
          (isAdminFor db settings.1 settings.2) runningAsRequester requester programId program := by
  cases application with
  | some name =>
    rw [isAdminOf, isApplicationAdmin, administered]
    cases applicationSecurity target name <;> rfl
  | none =>
    obtain rfl : runningAsRequester = true := by simpa using h
    cases target <;> rfl

/-- Permissions are always asked for with the owner. -/
theorem hasPermissionOn_eq_bind (db : Database δ) (flag : SecurityFlag)
    (basicHandling : BasicFlagHandling) (runningAsRequester : Bool)
    (target requester program : EntityRef δ) (application : Option ByteString) (programId : Id) :
    ∃ handling, hasPermissionOn db flag basicHandling runningAsRequester target application
        requester programId program =
      (administered target application).bind fun settings =>
        byRunMode (hasPermissionFor db settings.1 settings.2 flag handling)
          (hasPermissionForBoth db settings.1 settings.2 flag handling)
          (hasPermissionFor db settings.1 settings.2 flag handling)
          runningAsRequester requester programId program := by
  cases application with
  | some name =>
    refine ⟨.excludeBasic, ?_⟩
    rw [hasPermissionOn, hasApplicationPermission, administered]
    cases applicationSecurity target name <;> rfl
  | none =>
    refine ⟨basicHandling, ?_⟩
    cases target <;> rfl

/-- Administrators by the owner have every permission. -/
theorem hasPermissionOn_of_isAdmin {target program : EntityRef δ}
    (hadministered : administered target application = some (owner, security))
    (h : byRunMode (isAdminFor db owner security) (isAdminForBoth db owner security)
      (isAdminFor db owner security) runningAsRequester requester programId program =
        some .accept) (flag : SecurityFlag) (basicHandling : BasicFlagHandling) :
    hasPermissionOn db flag basicHandling runningAsRequester target application requester
      programId program = some .accept := by
  obtain ⟨handling, heq⟩ := hasPermissionOn_eq_bind db flag basicHandling runningAsRequester
    target requester program application programId
  rw [heq, hadministered]
  exact byRunMode_mono (fun e he => hasPermissionFor_of_isAdminFor he flag handling)
    (fun e e' he => hasPermissionForBoth_of_isAdminForBoth he flag handling)
    (fun e he => hasPermissionFor_of_isAdminFor he flag handling) h

theorem adminRule_of_passesOwner {target program : EntityRef δ}
    (h : application.isSome ∨ runningAsRequester = true) :
    AdminRule db runningAsRequester target application requester programId program where
  accepts owner security hadministered result hresult := by
    rw [isAdminOf_eq_bind h, hadministered] at hresult
    exact byRunMode_isAdmin_iff hresult
  permits haccept flag basicHandling := by
    rw [isAdminOf_eq_bind h] at haccept
    obtain ⟨⟨owner, security⟩, hadministered, haccept⟩ := Option.bind_eq_some_iff.mp haccept
    exact hasPermissionOn_of_isAdmin hadministered haccept flag basicHandling

/-! ### The rule where the target is passed as the owner -/

/-- Who does not run as the requester acts alone. -/
theorem exists_actingIds_eq (requester program : EntityRef δ) (programId : Id) :
    ∃ actor : EntityRef δ,
      actingIds false requester programId program = actor.toList.map (·.id) := by
  cases hdefault : programId.isDefault
  · exact ⟨program, by simp [actingIds, hdefault]⟩
  · exact ⟨requester, by simp [actingIds, hdefault]⟩

/-- Nobody acts if it is not known who does. -/
theorem actingIds_eq_nil {program : EntityRef δ} (h : ¬CanAct false requester programId program) :
    actingIds false requester programId program = [] := by
  have hne : programId.isDefault = false ∧ program = none := by
    simpa [CanAct, ← Id.isDefault_iff] using h
  simp [actingIds, hne]

/-- Who is accepted for the ID of the target. -/
theorem isAdmin_false_iff {program : EntityRef δ}
    (h : isAdmin db false (some t) requester programId program = some result) :
    result = .accept ↔
      ∃ id ∈ actingIds false requester programId program, OwnerOrAdmin db t.id t.security id :=
  byRunMode_isAdmin_iff
    ((byRunMode_false _ (isAdminFor db t.owner t.security) _ _
      (isAdminForBoth db t.owner t.security) _ _ _).trans h)

/-- The two IDs that may stand in the place of the owner are the same to whoever acts. -/
theorem ownerOrAdmin_congr_iff {owner' id : Id} :
    (OwnerOrAdmin db owner security id ↔ OwnerOrAdmin db owner' security id) ↔
      (owner' = id ↔ owner = id) ∨ MemberOf db security.adminIds id := by
  rw [OwnerOrAdmin, OwnerOrAdmin]
  tauto

/-- The part of the rule about who is accepted, where the target is passed. -/
theorem accepts_iff {program : EntityRef δ} :
    (∀ result, isAdmin db false (some t) requester programId program = some result →
      (result = .accept ↔ ∃ id ∈ actingIds false requester programId program,
        OwnerOrAdmin db t.owner t.security id)) ↔
    ∀ id ∈ actingIds false requester programId program,
      (t.owner = id ↔ t.id = id) ∨ MemberOf db t.security.adminIds id := by
  obtain ⟨actor, hacting⟩ := exists_actingIds_eq requester program programId
  constructor
  · intro haccepts id hid
    have hact : CanAct false requester programId program := by
      by_contra hact
      rw [actingIds_eq_nil hact] at hid
      cases hid
    obtain ⟨result, hresult⟩ :
        ∃ result, isAdmin db false (some t) requester programId program = some result :=
      Option.ne_none_iff_exists'.mp fun hnone => isAdmin_eq_none_iff.mp hnone hact
    have haccepts := (haccepts result hresult).symm.trans (isAdmin_false_iff hresult)
    rw [hacting] at haccepts hid
    cases actor with
    | none => cases hid
    | some a =>
      obtain rfl : id = a.id := by simpa using hid
      exact ownerOrAdmin_congr_iff.mp (by simpa using haccepts.symm)
  · intro hsame result hresult
    rw [isAdmin_false_iff hresult]
    exact exists_congr fun id => and_congr_right fun hid =>
      ownerOrAdmin_congr_iff.mpr (hsame id hid)

/-- Whoever is accepted by the rule has every permission. -/
theorem permits_of_accepts {program : EntityRef δ}
    (haccepts : ∃ id ∈ actingIds false requester programId program,
      OwnerOrAdmin db t.owner t.security id)
    (h : isAdmin db false (some t) requester programId program = some .accept) (flag : SecurityFlag)
    (basicHandling : BasicFlagHandling) :
    hasPermissionOn db flag basicHandling false (some t) none requester programId program =
      some .accept := by
  have hadministered : administered (some t) none = some (t.owner, t.security) := rfl
  have hact : CanAct false requester programId program := by
    by_contra hact
    rw [isAdmin_eq_none_iff.mpr hact] at h
    cases h
  -- it would be accepted as well if the owner were passed
  obtain ⟨result, hresult⟩ : ∃ result, byRunMode (isAdminFor db t.owner t.security)
      (isAdminForBoth db t.owner t.security) (isAdminFor db t.owner t.security) false
      requester programId program = some result :=
    Option.ne_none_iff_exists'.mp fun hnone => byRunMode_eq_none_iff.mp hnone hact
  obtain rfl : result = .accept := (byRunMode_isAdmin_iff hresult).mpr haccepts
  exact hasPermissionOn_of_isAdmin hadministered hresult flag basicHandling

/-- **The rule for administrators holds exactly for the questions it applies to**: those
about applications, those of who runs as the requester, and those in which it makes no
difference to whoever acts that the ID of the target is passed as the owner. -/
theorem adminRule_iff (db : Database δ) (runningAsRequester : Bool)
    (target requester program : EntityRef δ) (application : Option ByteString) (programId : Id) :
    AdminRule db runningAsRequester target application requester programId program ↔
      AdminRuleApplies db runningAsRequester target application requester programId program := by
  by_cases howner : application.isSome ∨ runningAsRequester = true
  · refine iff_of_true (adminRule_of_passesOwner howner) ?_
    rcases howner with h | h
    · exact .inl h
    · exact .inr (.inl h)
  · obtain ⟨rfl, rfl⟩ : application = none ∧ runningAsRequester = false := by simpa using howner
    cases target with
    | none => exact iff_of_true ⟨nofun, nofun⟩ (.inr (.inr fun t ht => by cases ht))
    | some t =>
      constructor
      · intro hrule
        refine .inr (.inr ?_)
        rintro t' ht
        cases ht
        exact accepts_iff.mp (hrule.accepts t.owner t.security rfl)
      · rintro (h | h | h)
        · cases h
        · cases h
        · have haccepts := accepts_iff.mpr (h t rfl)
          refine ⟨?_, fun haccept => permits_of_accepts ((haccepts _ haccept).mp rfl) haccept⟩
          rintro owner security hadministered
          cases hadministered
          exact haccepts

/-- A thing and its owner, who is online without a program. -/
def ownedThing : EntityData Unit :=
  { EntityData.ofType ⟨2, 9⟩ .thing with owner := ⟨2, 5⟩ }

/-- **Owners are refused**: a player who acts without a program, and not as the requester,
is no administrator of the thing that the player owns. -/
theorem adminRule_broken :
    ¬AdminRule ⟨[EntityData.ofType ⟨2, 5⟩ .player, ownedThing]⟩ false (some ownedThing) none
      (some (EntityData.ofType ⟨2, 5⟩ .player)) default none := by
  intro hrule
  have hdenied : isAdminOf (⟨[EntityData.ofType ⟨2, 5⟩ .player, ownedThing]⟩ : Database Unit)
      false (some ownedThing) none (some (EntityData.ofType ⟨2, 5⟩ .player)) default none =
      some .deny := by decide
  have haccepts := hrule.accepts ⟨2, 5⟩ Security.empty rfl .deny hdenied
  exact absurd (haccepts.mpr ⟨⟨2, 5⟩, by decide, .inl rfl⟩) (by decide)

end Mutgos.Security
