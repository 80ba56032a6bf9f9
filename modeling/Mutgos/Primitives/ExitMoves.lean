import Mutgos.Primitives.MovementPrims

/-!
# Using an exit

`move_requester_with_exit` asks the requester for its name before it knows that it can be moved,
and the target of the exit for its ID before it knows that there is one.

## Main results

* `usedSafely_iff` — **an exit moves all or nothing, and uses no null pointer, exactly if the
  requester is a container and an exit has a target.**
-/

namespace Mutgos.Primitives

open DbTypes DbInterface Security

variable {δ : Type} {db : Database δ} {ctx : Context} {exit : Id} {r : MoveResult δ}

/-- No null pointer is used; nothing is changed or published unless the status is `STATUS_OK`,
and then the requester is in the first target, and one event says so. -/
structure UsedSafely (db : Database δ) (ctx : Context) (exit : Id) (r : MoveResult δ) : Prop where
  notNull : r.ending ≠ .nullDereferenced
  failed : r.ending ≠ .returned .ok → r.db = db ∧ r.event = none
  moved : r.ending = .returned .ok → ∃ e ∈ db.getEntity ctx.requester,
    ∃ exitData ∈ db.getEntity exit,
      r.db.object ctx.requester = some (e.setContainedBy exitData.getFirstActionTarget) ∧
      r.event =
        some ⟨ctx.requester, e.containedBy, exitData.getFirstActionTarget, false, exit⟩

/-- Both are valid, but the requester is no container, or the exit has no valid target. -/
def UsesNull (db : Database δ) (ctx : Context) (exit : Id) : Prop :=
  ∃ e ∈ db.getEntity ctx.requester, ∃ exitData ∈ db.getEntity exit,
    e.entityType.isContainerPropertyEntity = false ∨
      exitData.entityType = .exit ∧ db.getEntity exitData.getFirstActionTarget = none

/-- What has moved nothing, without the use of a null pointer. -/
theorem usedSafely_notMoved {ending : MoveEnd} {ctx' : Context} (hnull : ending ≠ .nullDereferenced)
    (hok : ending ≠ .returned .ok) : UsedSafely db ctx exit (notMoved db ctx' ending) :=
  ⟨hnull, fun _ => ⟨rfl, rfl⟩, fun h => absurd h hok⟩

variable [BEq δ]

/-- A check leaves the requester as it is. -/
theorem requester_securityCheck {operation : Security.Operation} {ctx' : Context}
    {valid : Request (EntityData δ)} {request : Request (EntityRef δ)} {throwOnViolation : Bool}
    {outcome : Outcome} (hvalid : request.validate = some valid)
    (h : securityCheck db operation ctx request throwOnViolation = some (outcome, ctx')) :
    ctx'.requester = ctx.requester := by
  rw [securityCheck_of_valid hvalid] at h
  split at h
  · cases h
    rfl
  · obtain ⟨result, -, h⟩ := Option.map_eq_some_iff.mp h
    cases h
    rfl

/-- **An exit moves all or nothing, exactly if no null pointer is used.** -/
theorem usedSafely_iff {throwOnViolation : Bool}
    (h : moveRequesterWithExit db ctx exit throwOnViolation = some r) :
    UsedSafely db ctx exit r ↔ ¬ UsesNull db ctx exit := by
  rw [moveRequesterWithExit] at h
  split_ifs at h with hdefault
  · cases h
    refine iff_of_true (usedSafely_notMoved (by simp) (by simp)) ?_
    rintro ⟨e, he, exitData, hexit, -⟩
    have hrequester := Database.ne_default_of_getEntity he
    have hexit := Database.ne_default_of_getEntity hexit
    simp [Id.isDefault_iff, hrequester, hexit] at hdefault
  split at h
  swap
  · rename_i hnone
    cases h
    refine iff_of_true (usedSafely_notMoved (by simp) (by simp)) ?_
    rintro ⟨e, he, exitData, hexit, -⟩
    exact hnone e exitData he hexit
  rename_i e exitData he hexit
  have huses : UsesNull db ctx exit ↔ e.entityType.isContainerPropertyEntity = false ∨
      exitData.entityType = .exit ∧ db.getEntity exitData.getFirstActionTarget = none := by
    simp [UsesNull, he, hexit]
  rw [huses]
  split_ifs at h with hcontainer htype
  · cases h
    exact iff_of_false (fun h => h.notNull rfl) (not_not.mpr (.inl (by simpa using hcontainer)))
  · cases h
    exact iff_of_true (usedSafely_notMoved (by simp) (by simp)) (by simp_all)
  split at h
  · next hnone =>
    cases h
    exact iff_of_false (fun h => h.notNull rfl) (by simp_all)
  next destination hdestination =>
    have hsafe : ¬ (e.entityType.isContainerPropertyEntity = false ∨
        exitData.entityType = .exit ∧ db.getEntity exitData.getFirstActionTarget = none) := by
      simp_all
    refine iff_of_true ?_ hsafe
    split_ifs at h
    · cases h
      exact usedSafely_notMoved (by simp) (by simp)
    · cases h
      exact usedSafely_notMoved (by simp) (by simp)
    rw [Option.bind_eq_bind, Option.bind_eq_some_iff] at h
    obtain ⟨⟨outcome, ctx'⟩, hcheck, h⟩ := h
    rcases outcome with (_ | _) | ex
    · cases h
      exact usedSafely_notMoved (by simp) (by simp)
    · cases h
      refine ⟨by simp, fun h => absurd rfl h, fun _ => ⟨e, he, exitData, hexit, ?_, ?_⟩⟩
      · have hset := @Database.object_update δ (·.setContainedBy destination.id) (fun _ => rfl)
        rw [hset, Database.id_eq_of_getEntity he, Database.id_eq_of_getEntity hdestination]
        simp [(Database.getEntity_eq_some_iff.mp he).1]
      · rw [Database.id_eq_of_getEntity hexit, Database.id_eq_of_getEntity hdestination,
          requester_securityCheck rfl hcheck]
    · cases h
      exact usedSafely_notMoved (by simp) (by simp)

/-- A player, an exit, and the room it leads to or none. -/
def exitSite (targets : List Id) : Database Unit :=
  ⟨[.ofType ⟨1, 2⟩ .player, .ofType ⟨1, 5⟩ .room,
    { EntityData.ofType ⟨1, 9⟩ .exit with actionTargets := targets }]⟩

theorem usedSafely_iff_room : ∃ r, moveRequesterWithExit (exitSite [⟨1, 5⟩])
    (.new ⟨1, 2⟩ default) ⟨1, 9⟩ false = some r ∧ r.ending = .returned .ok ∧
      (UsedSafely (exitSite [⟨1, 5⟩]) (.new ⟨1, 2⟩ default) ⟨1, 9⟩ r ↔
        ¬ UsesNull (exitSite [⟨1, 5⟩]) (.new ⟨1, 2⟩ default) ⟨1, 9⟩) := by
  obtain ⟨r, hr, hok⟩ := Option.map_eq_some_iff.mp (show (moveRequesterWithExit (exitSite [⟨1, 5⟩])
    (.new ⟨1, 2⟩ default) ⟨1, 9⟩ false).map MoveResult.ending = some (.returned .ok) by decide)
  exact ⟨r, hr, hok, usedSafely_iff hr⟩

/-- **An exit without targets**: the ID of a reference that is not valid is asked for. -/
theorem not_usedSafely : ∃ r, moveRequesterWithExit (exitSite []) (.new ⟨1, 2⟩ default) ⟨1, 9⟩
    false = some r ∧ ¬ UsedSafely (exitSite []) (.new ⟨1, 2⟩ default) ⟨1, 9⟩ r :=
  ⟨_, rfl, fun h => h.notNull rfl⟩

end Mutgos.Primitives
