import Mutgos.Security.AdminRule
import Mutgos.Security.Checkers

/-!
# The rules for transfers

Between a room and something else an Entity may be moved by who is in that room, with
everything that is involved, or by who controls what is moved and where it goes.
Between two rooms, or two other places, only the latter counts.  The checker gives more
than that: between a room and something else it is enough to control what is moved or
where it goes, and those near the room are taken for those in it.

## Main results

* `contextIsAdmin_eq_accept_iff` — who runs as the requester is accepted for what is
  controlled.
-/

namespace Mutgos.Security

open DbTypes DbInterface TransferEntityChecker

variable {δ : Type}

namespace Context

/-- Those who act own something, or are administrators of it. -/
def Controls (db : Database δ) (ctx : Context) (e : EntityData δ) : Prop :=
  ∃ id ∈ actingIds ctx.runAsRequester (db.getEntity ctx.requester) ctx.program
    (db.getEntity ctx.program), OwnerOrAdmin db e.owner e.security id

/-- The requester and something else are in a room. -/
def AllIn (db : Database δ) (ctx : Context) (room other : EntityData δ) : Prop :=
  (∃ requester ∈ db.getEntity ctx.requester, requester.containedBy = room.id) ∧
    other.containedBy = room.id

instance (db : Database δ) (ctx : Context) (e : EntityData δ) : Decidable (ctx.Controls db e) :=
  inferInstanceAs (Decidable (∃ id ∈ actingIds _ _ _ _, _))

instance (db : Database δ) (ctx : Context) (room other : EntityData δ) :
    Decidable (ctx.AllIn db room other) :=
  inferInstanceAs (Decidable (_ ∧ _))

end Context

/-- What is accepted by `is_admin`. -/
abbrev Passes (db : Database δ) (ctx : Context) (e : EntityData δ) : Prop :=
  contextIsAdmin db ctx e = some .accept

/-- An Entity in a container may be moved to a target. -/
def TransferAllowed (db : Database δ) (ctx : Context) (container source target : EntityData δ) :
    Prop :=
  if container.entityType = .room then
    if target.entityType = .room then ctx.Controls db container ∧ ctx.Controls db target
    else ctx.AllIn db container target ∨
      (ctx.Controls db source ∨ ctx.Controls db container) ∧ ctx.Controls db target
  else if target.entityType = .room then
    ctx.AllIn db target container ∨
      (ctx.Controls db source ∨ ctx.Controls db container) ∧ ctx.Controls db target
  else ctx.Controls db source ∧ ctx.Controls db target

/-- What the checker accepts for Entities in valid containers is allowed. -/
def TransferRules (db : Database δ) (ctx : Context) (source target : EntityData δ) : Prop :=
  ∀ container, source.entityType.isContainerPropertyEntity = true →
    target.entityType.isContainerPropertyEntity = true →
    db.getEntity source.containedBy = some container →
    container.entityType.isContainerPropertyEntity = true →
    TransferEntityChecker.securityCheck db ctx (.source target source) = some .accept →
    TransferAllowed db ctx container source target

/-- Who does not run as the requester is something, or is in its admin list. -/
def Context.ActsFor (db : Database δ) (ctx : Context) (e : EntityData δ) : Prop :=
  ∃ id ∈ actingIds ctx.runAsRequester (db.getEntity ctx.requester) ctx.program
    (db.getEntity ctx.program), OwnerOrAdmin db e.id e.security id

/-- The transfers between a room and another place that the checker decides by the rules.
If not all are in the room, and the search for what is near ends, then who runs as the
requester must control what is moved and where it goes together, and near the room the
other place only together with where it goes. -/
def RoomRulesApply (db : Database δ) (ctx : Context) (room other container source target :
    EntityData δ) : Prop :=
  ctx.AllIn db room other ∨
    if ctx.runAsRequester then
      ¬ctx.CanAct db ∨ allInRoom db ctx room other = none ∨
        (ctx.Controls db source → ctx.Controls db target) ∧
        (ctx.Controls db target → ctx.Controls db source ∨ ctx.Controls db container) ∧
        (allInRoom db ctx room other = some true →
          ctx.Controls db other → ctx.Controls db target)
    else ctx.ActsFor db source ∨ ctx.ActsFor db target →
      (ctx.Controls db source ∨ ctx.Controls db container) ∧ ctx.Controls db target

/-- The transfers that the checker decides by the rules. -/
def TransferRulesApply (db : Database δ) (ctx : Context) (container source target : EntityData δ) :
    Prop :=
  if container.entityType = .room then
    if target.entityType = .room then
      ctx.runAsRequester = true ∨ (ctx.ActsFor db container → ctx.ActsFor db target →
        ctx.Controls db container ∧ ctx.Controls db target)
    else RoomRulesApply db ctx container target container source target
  else if target.entityType = .room then RoomRulesApply db ctx target container container source target
  else True

section Rules

variable {db : Database δ} {ctx : Context}

/-! ### Who is accepted -/

theorem canAct_of_passes {e : EntityData δ} (h : Passes db ctx e) : ctx.CanAct db := by
  by_contra hact
  rw [Passes, contextIsAdmin_eq_none_iff.mpr hact] at h
  cases h

/-- If it is known who acts, there is an answer. -/
theorem exists_contextIsAdmin (hact : ctx.CanAct db) (e : EntityData δ) :
    ∃ result, contextIsAdmin db ctx e = some result :=
  Option.ne_none_iff_exists'.mp fun hnone => contextIsAdmin_eq_none_iff.mp hnone hact

/-- Who runs as the requester is accepted for what is controlled. -/
theorem passes_iff_controls (hrun : ctx.runAsRequester = true) {e : EntityData δ} :
    Passes db ctx e ↔ ctx.CanAct db ∧ ctx.Controls db e := by
  have hquestion : ∀ result, contextIsAdmin db ctx e = some result →
      (result = .accept ↔ ctx.Controls db e) := by
    intro result hresult
    rw [contextIsAdmin, hrun] at hresult
    rw [Context.Controls, hrun]
    exact byRunMode_isAdmin_iff
      ((byRunMode_true _ _ (isAdminFor db e.owner e.security) _ _ _ _).symm.trans hresult)
  constructor
  · intro h
    exact ⟨canAct_of_passes h, (hquestion _ h).mp rfl⟩
  · rintro ⟨hact, hcontrols⟩
    obtain ⟨result, hresult⟩ := exists_contextIsAdmin hact e
    rw [Passes, hresult, (hquestion result hresult).mpr hcontrols]

/-- Who does not is accepted for what it is. -/
theorem passes_iff_actsFor (hrun : ctx.runAsRequester = false) {e : EntityData δ} :
    Passes db ctx e ↔ ctx.ActsFor db e := by
  rw [Context.ActsFor, hrun]
  constructor
  · intro h
    rw [Passes, contextIsAdmin, hrun] at h
    exact (isAdmin_false_iff h).mp rfl
  · rintro ⟨id, hid, hadmin⟩
    have hact : ctx.CanAct db := by
      rw [Context.CanAct, hrun]
      by_contra hact
      rw [actingIds_eq_nil hact] at hid
      cases hid
    obtain ⟨result, hresult⟩ := exists_contextIsAdmin hact e
    rw [Passes, hresult]
    rw [contextIsAdmin, hrun] at hresult
    rw [(isAdmin_false_iff hresult).mpr ⟨id, hid, hadmin⟩]

/-! ### What the checker accepts -/

/-- What the checker grants for a room and another place, if its search for what is near
ends: transfers of those it finds near the room, if they are administrators of the other
place, and of administrators of what is moved, or of where it goes. -/
def LooselyGranted (db : Database δ) (ctx : Context) (room other source target : EntityData δ) :
    Prop :=
  (ctx.runAsRequester = true → (allInRoom db ctx room other).isSome) ∧
    (ctx.runAsRequester = true ∧ allInRoom db ctx room other = some true ∧
        Passes db ctx other ∨
      Passes db ctx source ∨ Passes db ctx target)

/-- The two parts of the check for a room and another place. -/
theorem checkBoth_eq_accept_iff {room other source target : EntityData δ} :
    ((checkSameRoom db ctx room other).bind fun result =>
        if result = .accept then some .accept
        else some (checkAdmin db ctx result source target)) =
      some .accept ↔ LooselyGranted db ctx room other source target := by
  rw [LooselyGranted, ← checkSameRoom_isSome,
    ← checkSameRoom_eq_accept_iff]
  cases checkSameRoom db ctx room other with
  | none => simp
  | some result =>
    by_cases haccept : result = .accept
    · simp [haccept]
    · simp [haccept, checkAdmin_eq_accept_iff]

/-- **What the checker accepts**, by the four shapes of a transfer. -/
theorem securityCheck_source_eq_accept_iff {container source target : EntityData δ}
    (hsource : source.entityType.isContainerPropertyEntity = true)
    (htarget : target.entityType.isContainerPropertyEntity = true)
    (hget : db.getEntity source.containedBy = some container)
    (hcontainer : container.entityType.isContainerPropertyEntity = true) :
    TransferEntityChecker.securityCheck db ctx (.source target source) = some .accept ↔
      if container.entityType = .room then
        if target.entityType = .room then Passes db ctx container ∧ Passes db ctx target
        else LooselyGranted db ctx container target source target
      else if target.entityType = .room then
        LooselyGranted db ctx target container source target
      else ctx.runAsRequester = true ∧ Passes db ctx source ∧ Passes db ctx target := by
  have hcast : ∀ {e : EntityData δ}, e.entityType.isContainerPropertyEntity = true →
      e.asContainer = some e := fun h => if_pos h
  rw [TransferEntityChecker.securityCheck, hcast hsource, hcast htarget]
  dsimp only
  rw [hget, Option.bind_some, hcast hcontainer]
  dsimp only
  by_cases hroom : container.entityType = .room <;>
    by_cases htroom : target.entityType = .room
  · simp [hroom, htroom, checkForOwner_eq_accept_iff]
  · simpa [hroom, htroom, checkRoomToEntity] using checkBoth_eq_accept_iff
  · simpa [hroom, htroom, checkRoomToEntity] using checkBoth_eq_accept_iff
  · cases ctx.runAsRequester <;>
      simp [hroom, htroom, checkForOwner_eq_accept_iff]

/-! ### Where it keeps to the rules -/

/-- Between a room and another place the checker keeps to the rules where they apply. -/
theorem looselyGranted_allowed_iff {room other container source target : EntityData δ}
    (hother : other = target ∨ other = container) :
    (LooselyGranted db ctx room other source target → ctx.AllIn db room other ∨
      (ctx.Controls db source ∨ ctx.Controls db container) ∧ ctx.Controls db target) ↔
    RoomRulesApply db ctx room other container source target := by
  rw [LooselyGranted, RoomRulesApply]
  cases hrun : ctx.runAsRequester with
  | false =>
    simp only [passes_iff_actsFor hrun, Bool.false_eq_true, if_false, false_and, false_or,
      false_implies, true_and]
    tauto
  | true =>
    simp only [passes_iff_controls hrun, if_true, true_and, true_implies]
    by_cases hact : ctx.CanAct db
    · cases hall : allInRoom db ctx room other with
      | none => simp
      | some all =>
        rcases hother with rfl | rfl <;> cases all <;>
          simp only [hact, true_and, Option.isSome_some, not_true, false_or, reduceCtorEq,
            Option.some.injEq, Bool.false_eq_true, false_and, true_implies, false_implies,
            and_true] <;>
          tauto
    · simp [hact]

/-- **The checker keeps to the rules exactly for those transfers**: all between two places
that are not rooms, those between two rooms in which the wrong owner makes no difference,
and those between a room and another place in which those who act control both sides, or
none. -/
theorem transferRules_iff (db : Database δ) (ctx : Context) (source target : EntityData δ) :
    TransferRules db ctx source target ↔
      ∀ container, source.entityType.isContainerPropertyEntity = true →
        target.entityType.isContainerPropertyEntity = true →
        db.getEntity source.containedBy = some container →
        container.entityType.isContainerPropertyEntity = true →
        TransferRulesApply db ctx container source target := by
  refine forall_congr' fun container => forall_congr' fun hsource => forall_congr' fun htarget =>
    forall_congr' fun hget => forall_congr' fun hcontainer => ?_
  rw [securityCheck_source_eq_accept_iff hsource htarget hget hcontainer, TransferAllowed,
    TransferRulesApply]
  split_ifs with hroom htroom htroom
  · cases hrun : ctx.runAsRequester with
    | true =>
      refine iff_of_true ?_ (.inl rfl)
      rw [passes_iff_controls hrun, passes_iff_controls hrun]
      tauto
    | false =>
      rw [passes_iff_actsFor hrun, passes_iff_actsFor hrun]
      simp
  · exact looselyGranted_allowed_iff (.inl rfl)
  · exact looselyGranted_allowed_iff (.inr rfl)
  · refine iff_of_true ?_ True.intro
    rintro ⟨hrun, hsource, htarget⟩
    exact ⟨((passes_iff_controls hrun).mp hsource).2, ((passes_iff_controls hrun).mp htarget).2⟩

end Rules

/-- A player in a room, who owns a bag there, and a lamp of somebody else in another
room. -/
def lampSite : Database Unit :=
  ⟨[{ EntityData.ofType ⟨2, 8⟩ .room with owner := ⟨2, 3⟩ },
    { EntityData.ofType ⟨2, 5⟩ .player with owner := ⟨2, 5⟩, containedBy := ⟨2, 8⟩ },
    { EntityData.ofType ⟨2, 6⟩ .thing with owner := ⟨2, 5⟩, containedBy := ⟨2, 8⟩ },
    { EntityData.ofType ⟨2, 10⟩ .room with owner := ⟨2, 3⟩ },
    { EntityData.ofType ⟨2, 9⟩ .thing with owner := ⟨2, 3⟩, containedBy := ⟨2, 10⟩ }]⟩

/-- The player, without any capabilities. -/
def lampContext : Context := { Context.new ⟨2, 5⟩ default with runAsRequester := true }

/-- **The checker does not keep to the rules**: the player may take the lamp away, from
another room. -/
theorem transferRules_broken :
    ∃ source ∈ lampSite.object ⟨2, 9⟩, ∃ target ∈ lampSite.object ⟨2, 6⟩,
      ¬TransferRules lampSite lampContext source target := by
  refine ⟨_, rfl, _, rfl, fun hrules => ?_⟩
  have hallowed := hrules _ rfl rfl rfl rfl (by decide)
  revert hallowed
  rw [TransferAllowed]
  decide

end Mutgos.Security
