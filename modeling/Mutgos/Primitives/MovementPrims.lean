import Mutgos.Events.Event
import Mutgos.Security.FailClosed

/-!
# Moving Entities

`primitives::MovementPrims`: a program moves an Entity, or the requester takes an exit.
The messages that are shown on the way are left out, since nothing is read from them.

A call that uses a null pointer ends the server.  `none` is that a security check never
ends.

## Main results

* `moveEntity_cases`, `moveRequesterWithExit_cases` — **what a call does to the database**:
  it moves a container, or leaves all containers where they are.
-/

namespace Mutgos.Primitives

open DbTypes DbInterface Events Security Option

variable {δ : Type}

inductive Status where
  | ok | securityViolation | badArguments | badEntityType | impossible
  deriving DecidableEq

/-- How a call ends. -/
inductive MoveEnd where
  | returned (status : Status)
  | thrown (e : SecurityException)
  | nullDereferenced
  deriving DecidableEq

/-- How a call ends, and what it leaves behind. -/
structure MoveResult (δ : Type) where
  ending : MoveEnd
  ctx : Context
  db : Database δ
  /-- The event that is published. -/
  event : Option MovementEvent

/-! ### The calls -/

/-- A call that has moved nothing. -/
def notMoved (db : Database δ) (ctx : Context) (ending : MoveEnd) : MoveResult δ :=
  ⟨ending, ctx, db, none⟩

/-- Rooms are moved between regions, and players between rooms. -/
def goodToMove (entity destination : EntityData δ) : Bool :=
  if entity.entityType = .room then destination.entityType = .region
  else if entity.entityType.isPlayer then destination.entityType = .room
  else true

/-- `move_entity`, after the security check. -/
def transfer (db : Database δ) (ctx : Context) (e destination : EntityData δ) : MoveResult δ :=
  let container := e.entityType.isContainerPropertyEntity
  let action := e.entityType.isActionEntity
  if !(container || action) || !destination.entityType.isContainerPropertyEntity then
    notMoved db ctx (.returned .badEntityType)
  else if (container ∧ e.containedBy = destination.id) ∨
      (action ∧ e.actionContainedBy = destination.id) then
    notMoved db ctx (.returned .ok)
  else if !goodToMove e destination then notMoved db ctx (.returned .badEntityType)
  else if container then
    ⟨.returned .ok, ctx, db.update e.id (·.setContainedBy destination.id),
      some ⟨e.id, e.containedBy, destination.id, true, ctx.program⟩⟩
  else
    ⟨.returned .ok, ctx, db.update e.id (·.setActionContainedBy destination.id),
      some ⟨e.id, e.actionContainedBy, destination.id, true, ctx.program⟩⟩

def moveEntity [BEq δ] (db : Database δ) (ctx : Context) (entity entityDestination : Id)
    (throwOnViolation : Bool) : Option (MoveResult δ) :=
  if entity.isDefault || entityDestination.isDefault then
    some (notMoved db ctx (.returned .badArguments))
  else if entity.entityId < 4 then
    -- the system level rooms and players
    some (notMoved db ctx (.returned .badArguments))
  else if entity = entityDestination then some (notMoved db ctx (.returned .impossible))
  else
    match db.getEntity entity, db.getEntity entityDestination with
    | some e, some destination => do
      let (outcome, ctx) ← securityCheck db .transferEntity ctx
        (.source (some destination) (some e)) throwOnViolation
      match outcome with
      | .thrown ex => some (notMoved db ctx (.thrown ex))
      | .returned false => some (notMoved db ctx (.returned .securityViolation))
      | .returned true => some (transfer db ctx e destination)
    | _, _ => some (notMoved db ctx (.returned .badArguments))

def moveRequesterWithExit [BEq δ] (db : Database δ) (ctx : Context) (exit : Id)
    (throwOnViolation : Bool) : Option (MoveResult δ) :=
  if ctx.requester.isDefault || exit.isDefault then
    some (notMoved db ctx (.returned .badArguments))
  else
    match db.getEntity ctx.requester, db.getEntity exit with
    | some e, some exit =>
      -- the name of the requester is asked for before the type is checked
      if !e.entityType.isContainerPropertyEntity then some (notMoved db ctx .nullDereferenced)
      else if exit.entityType ≠ .exit then some (notMoved db ctx (.returned .badArguments))
      else
        match db.getEntity exit.getFirstActionTarget with
        -- the reference is asked for its ID even if it is not valid
        | none => some (notMoved db ctx .nullDereferenced)
        | some destination =>
          if !destination.entityType.isContainerPropertyEntity then
            some (notMoved db ctx (.returned .badArguments))
          else if destination.id = ctx.requester then
            some (notMoved db ctx (.returned .impossible))
          else do
            let (outcome, ctx) ← securityCheck db .useAction ctx (.target (some exit))
              throwOnViolation
            match outcome with
            | .thrown ex => some (notMoved db ctx (.thrown ex))
            | .returned false => some (notMoved db ctx (.returned .securityViolation))
            | .returned true =>
              some ⟨.returned .ok, ctx, db.update e.id (·.setContainedBy destination.id),
                some ⟨ctx.requester, e.containedBy, destination.id, false, exit.id⟩⟩
    | _, _ => some (notMoved db ctx (.returned .badArguments))

/-! ### When a container is moved -/

/-- What has been checked, besides security, of a container that `move_entity` moves. -/
structure CanTransfer (e destination : EntityData δ) : Prop where
  container : e.entityType.isContainerPropertyEntity = true
  destination_container : destination.entityType.isContainerPropertyEntity = true
  elsewhere : e.containedBy ≠ destination.id
  good : goodToMove e destination = true

/-- `security_check` allows an operation. -/
def Allows [BEq δ] (db : Database δ) (operation : Security.Operation) (ctx : Context)
    (request : Request (EntityRef δ)) (throwOnViolation : Bool) : Prop :=
  (securityCheck db operation ctx request throwOnViolation).map Prod.fst = some (.returned true)

/-- `move_entity` moves a container: both IDs are valid, it may be moved, and the
transfer is allowed. -/
structure MovesEntity [BEq δ] (db : Database δ) (ctx : Context) (entity entityDestination : Id)
    (throwOnViolation : Bool) (e destination : EntityData δ) : Prop where
  get_entity : db.getEntity entity = some e
  get_destination : db.getEntity entityDestination = some destination
  not_system : 4 ≤ entity.entityId
  ne : entity ≠ entityDestination
  canTransfer : CanTransfer e destination
  allows : Allows db .transferEntity ctx (.source (some destination) (some e)) throwOnViolation

/-- `move_requester_with_exit` moves the requester: the exit and its destination are
valid, and the requester may use the exit. -/
structure MovesRequester [BEq δ] (db : Database δ) (ctx : Context) (exit : Id)
    (throwOnViolation : Bool) (e destination : EntityData δ) : Prop where
  get_requester : db.getEntity ctx.requester = some e
  container : e.entityType.isContainerPropertyEntity = true
  uses : ∃ exitData, db.getEntity exit = some exitData ∧ exitData.entityType = .exit ∧
    db.getEntity exitData.getFirstActionTarget = some destination ∧
    Allows db .useAction ctx (.target (some exitData)) throwOnViolation
  destination_container : destination.entityType.isContainerPropertyEntity = true
  ne : destination.id ≠ ctx.requester

/-- An exit leads to one place. -/
theorem MovesRequester.destination_unique [BEq δ] {db : Database δ} {ctx : Context} {exit : Id}
    {throwOnViolation : Bool} {e e' destination destination' : EntityData δ}
    (h : MovesRequester db ctx exit throwOnViolation e destination)
    (h' : MovesRequester db ctx exit throwOnViolation e' destination') :
    destination = destination' := by
  obtain ⟨exitData, hexit, -, htarget, -⟩ := h.uses
  obtain ⟨exitData', hexit', -, htarget', -⟩ := h'.uses
  obtain rfl : exitData = exitData' := Option.some.inj (hexit.symm.trans hexit')
  exact Option.some.inj (htarget.symm.trans htarget')

section Cases

variable {db : Database δ} {ctx : Context}

/-! ### What a call does to the database -/

/-- What `transfer` does: it moves a container, or attaches an action to it, or
nothing. -/
theorem transfer_cases (e destination : EntityData δ) :
    CanTransfer e destination ∧ (transfer db ctx e destination).db =
        db.update e.id (·.setContainedBy destination.id) ∨
      ¬CanTransfer e destination ∧ ((transfer db ctx e destination).db = db ∨
        e.entityType.isContainerPropertyEntity = false ∧ (transfer db ctx e destination).db =
          db.update e.id (·.setActionContainedBy destination.id)) := by
  rw [transfer]
  split_ifs with htypes hthere hgood hcontainer
  · refine .inr ⟨fun h => ?_, .inl rfl⟩
    simp [h.container, h.destination_container] at htypes
  · refine .inr ⟨fun h => ?_, .inl rfl⟩
    rcases hthere with ⟨_, hthere⟩ | ⟨haction, _⟩
    · exact h.elsewhere hthere
    · -- an action is not a container
      have hcontainer := h.container
      cases htype : e.entityType <;> simp [htype, EntityType.isActionEntity,
        EntityType.isContainerPropertyEntity] at haction hcontainer
  · refine .inr ⟨fun h => ?_, .inl rfl⟩
    simp [h.good] at hgood
  · simp only [Bool.or_eq_true, Bool.not_eq_true', not_or, Bool.not_eq_false,
      not_and] at htypes hthere hgood
    exact .inl ⟨⟨hcontainer, htypes.2, hthere.1 hcontainer, hgood⟩, rfl⟩
  · refine .inr ⟨fun h => hcontainer h.container, .inr ⟨by simpa using hcontainer, rfl⟩⟩

variable [BEq δ]

/-- **What `move_entity` does to the database**: it moves a container if all checks are
passed, and otherwise leaves all of them where they are. -/
theorem moveEntity_cases {entity entityDestination : Id} {throwOnViolation : Bool}
    {r : MoveResult δ} (h : moveEntity db ctx entity entityDestination throwOnViolation = some r) :
    (∃ e destination,
        MovesEntity db ctx entity entityDestination throwOnViolation e destination ∧
          r.db = db.update entity (·.setContainedBy entityDestination)) ∨
      (∀ e destination,
          ¬MovesEntity db ctx entity entityDestination throwOnViolation e destination) ∧
        (r.db = db ∨ ∃ e, db.getEntity entity = some e ∧
          e.entityType.isContainerPropertyEntity = false ∧
          r.db = db.update entity (·.setActionContainedBy entityDestination)) := by
  rw [moveEntity] at h
  split_ifs at h with hdefault hsystem hne
  · cases h
    refine .inr ⟨fun e destination hmoves => ?_, .inl rfl⟩
    have hentity := Database.ne_default_of_getEntity hmoves.get_entity
    have hdestination := Database.ne_default_of_getEntity hmoves.get_destination
    simp [Id.isDefault_iff, hentity, hdestination] at hdefault
  · cases h
    refine .inr ⟨fun e destination hmoves => ?_, .inl rfl⟩
    exact absurd hsystem (Nat.not_lt.mpr hmoves.not_system)
  · cases h
    exact .inr ⟨fun e destination hmoves => hmoves.ne hne, .inl rfl⟩
  · split at h
    · rename_i e destination he hdestination
      rw [bind_eq_bind, bind_eq_some_iff] at h
      obtain ⟨⟨outcome, ctx'⟩, hcheck, h⟩ := h
      -- there is only one outcome
      have hallows : ∀ e' destination',
          MovesEntity db ctx entity entityDestination throwOnViolation e' destination' →
          e' = e ∧ destination' = destination ∧ outcome = .returned true := by
        intro e' destination' hmoves
        obtain rfl : e' = e := Option.some.inj (hmoves.get_entity.symm.trans he)
        obtain rfl : destination' = destination :=
          Option.some.inj (hmoves.get_destination.symm.trans hdestination)
        have hallows := hmoves.allows
        rw [Allows, hcheck] at hallows
        exact ⟨rfl, rfl, Option.some.inj hallows⟩
      cases outcome with
      | thrown ex =>
        cases h
        refine .inr ⟨fun e' destination' hmoves => ?_, .inl rfl⟩
        cases (hallows e' destination' hmoves).2.2
      | returned allowed =>
        cases allowed with
        | false =>
          cases h
          refine .inr ⟨fun e' destination' hmoves => ?_, .inl rfl⟩
          cases (hallows e' destination' hmoves).2.2
        | true =>
          obtain rfl : transfer db ctx' e destination = r := Option.some.inj h
          have hid := Database.id_eq_of_getEntity he
          have hdid := Database.id_eq_of_getEntity hdestination
          rcases @transfer_cases δ db ctx' e destination with
            ⟨hcan, hdb⟩ | ⟨hcan, hdb⟩
          · rw [hid, hdid] at hdb
            refine .inl ⟨e, destination, ⟨he, hdestination, Nat.not_lt.mp hsystem, hne, hcan, ?_⟩, hdb⟩
            rw [Allows, hcheck]
            rfl
          · refine .inr ⟨fun e' destination' hmoves => ?_, ?_⟩
            · obtain ⟨rfl, rfl, -⟩ := hallows e' destination' hmoves
              exact hcan hmoves.canTransfer
            · rw [hid, hdid] at hdb
              exact hdb.imp_right fun hdb => ⟨e, he, hdb⟩
    · rename_i hnone
      cases h
      exact .inr ⟨fun e destination hmoves =>
        hnone e destination hmoves.get_entity hmoves.get_destination, .inl rfl⟩

/-- **What `move_requester_with_exit` does to the database**: it moves the requester if all
checks are passed. -/
theorem moveRequesterWithExit_cases {exit : Id} {throwOnViolation : Bool} {r : MoveResult δ}
    (h : moveRequesterWithExit db ctx exit throwOnViolation = some r) :
    (∃ e destination, MovesRequester db ctx exit throwOnViolation e destination ∧
        r.db = db.update ctx.requester (·.setContainedBy destination.id)) ∨
      (∀ e destination, ¬MovesRequester db ctx exit throwOnViolation e destination) ∧
        r.db = db := by
  rw [moveRequesterWithExit] at h
  split_ifs at h with hdefault
  · cases h
    refine .inr ⟨fun e destination hmoves => ?_, rfl⟩
    obtain ⟨exitData, hexit, -⟩ := hmoves.uses
    have hrequester := Database.ne_default_of_getEntity hmoves.get_requester
    have hexit := Database.ne_default_of_getEntity hexit
    simp [Id.isDefault_iff, hrequester, hexit] at hdefault
  split at h
  swap
  · rename_i hnone
    cases h
    refine .inr ⟨fun e destination hmoves => ?_, rfl⟩
    obtain ⟨exitData, hexit, -⟩ := hmoves.uses
    exact hnone e exitData hmoves.get_requester hexit
  rename_i e exitData he hexit
  -- who moves, and where to, is known from here on
  have hsame : ∀ e' destination', MovesRequester db ctx exit throwOnViolation e' destination' →
      e' = e ∧ exitData.entityType = .exit ∧
        db.getEntity exitData.getFirstActionTarget = some destination' ∧
        Allows db .useAction ctx (.target (some exitData)) throwOnViolation := by
    intro e' destination' hmoves
    obtain ⟨exitData', hexit', huses⟩ := hmoves.uses
    obtain rfl : exitData' = exitData := Option.some.inj (hexit'.symm.trans hexit)
    exact ⟨Option.some.inj (hmoves.get_requester.symm.trans he), huses⟩
  split_ifs at h with hcontainer htype
  · cases h
    refine .inr ⟨fun e' destination' hmoves => ?_, rfl⟩
    obtain ⟨rfl, -⟩ := hsame e' destination' hmoves
    simp [hmoves.container] at hcontainer
  · cases h
    exact .inr ⟨fun e' destination' hmoves => htype (hsame e' destination' hmoves).2.1, rfl⟩
  split at h
  · rename_i hnone
    cases h
    refine .inr ⟨fun e' destination' hmoves => ?_, rfl⟩
    have htarget := (hsame e' destination' hmoves).2.2.1
    rw [hnone] at htarget
    cases htarget
  rename_i destination hdestination
  have hdest : ∀ e' destination',
      MovesRequester db ctx exit throwOnViolation e' destination' → destination' = destination :=
    fun e' destination' hmoves =>
      Option.some.inj ((hsame e' destination' hmoves).2.2.1.symm.trans hdestination)
  split_ifs at h with hdcontainer hself
  · cases h
    refine .inr ⟨fun e' destination' hmoves => ?_, rfl⟩
    obtain rfl := hdest e' destination' hmoves
    simp [hmoves.destination_container] at hdcontainer
  · cases h
    refine .inr ⟨fun e' destination' hmoves => ?_, rfl⟩
    obtain rfl := hdest e' destination' hmoves
    exact hmoves.ne hself
  rw [bind_eq_bind, bind_eq_some_iff] at h
  obtain ⟨⟨outcome, ctx'⟩, hcheck, h⟩ := h
  have hallowed : ∀ e' destination',
      MovesRequester db ctx exit throwOnViolation e' destination' → outcome = .returned true := by
    intro e' destination' hmoves
    have hallows := (hsame e' destination' hmoves).2.2.2
    rw [Allows, hcheck] at hallows
    exact Option.some.inj hallows
  cases outcome with
  | thrown ex =>
    cases h
    exact .inr ⟨fun e' destination' hmoves => (nomatch hallowed e' destination' hmoves), rfl⟩
  | returned allowed =>
    cases allowed with
    | false =>
      cases h
      exact .inr ⟨fun e' destination' hmoves => (nomatch hallowed e' destination' hmoves), rfl⟩
    | true =>
      cases h
      have hid := Database.id_eq_of_getEntity he
      refine .inl ⟨e, destination, ⟨he, by simpa using hcontainer, ⟨exitData, hexit,
        not_not.mp htype, hdestination, ?_⟩, by simpa using hdcontainer, hself⟩, ?_⟩
      · rw [Allows, hcheck]
        rfl
      · rw [hid]

/-! ### Calls end -/

/-- A call ends if the search for regions does. -/
theorem moveEntity_isSome (h : SearchEnds db) (entity entityDestination : Id)
    (throwOnViolation : Bool) :
    (moveEntity db ctx entity entityDestination throwOnViolation).isSome := by
  rw [moveEntity]
  split_ifs
  · rfl
  · rfl
  · rfl
  · split
    · rename_i e destination _ _
      obtain ⟨⟨outcome, ctx'⟩, hcheck⟩ := isSome_iff_exists.mp
        (securityCheck_isSome h .transferEntity ctx (.source (some destination) (some e))
          throwOnViolation)
      rw [hcheck, bind_eq_bind, bind_some]
      rcases outcome with (_ | _) | _ <;> rfl
    · rfl

theorem moveRequesterWithExit_isSome (h : SearchEnds db) (exit : Id) (throwOnViolation : Bool) :
    (moveRequesterWithExit db ctx exit throwOnViolation).isSome := by
  rw [moveRequesterWithExit]
  split_ifs
  · rfl
  split
  swap
  · rfl
  rename_i e exitData _ _
  split_ifs
  · rfl
  · rfl
  split
  · rfl
  split_ifs
  · rfl
  · rfl
  obtain ⟨⟨outcome, ctx'⟩, hcheck⟩ := isSome_iff_exists.mp
    (securityCheck_isSome h .useAction ctx (.target (some exitData)) throwOnViolation)
  rw [hcheck, bind_eq_bind, bind_some]
  rcases outcome with (_ | _) | _ <;> rfl

end Cases

end Mutgos.Primitives
