import Mutgos.DbTypes.FromString
import Mutgos.DbTypes.LockDecisions

/-!
# What a dump is read into

`DumpReaderInterface`, by which the reader of dumps has the database changed.  Most of its functions
set something on the Entity that is selected and say whether they could; what they do is a
parameter.  The two that set a lock are written out.  They build the lock that is asked for, and
then they store another one, which has just been constructed.

## Main results

* `storeLock_cases` — **when a lock can be set, the Entity is unlocked.**
-/

namespace Mutgos.DbDump

open DbTypes Text

inductive SetFieldMethod where
  | string | stringMultiple | id | idMultiple | document | lock | invalid
  deriving DecidableEq

def whichSetFieldMethod : EntityField → SetFieldMethod
  | .name | .note | .password | .playerDisplayName | .puppetDisplayName | .programRegName
  | .programLanguage | .actionSuccMsg | .actionSuccRoomMsg | .actionFailMsg | .actionFailRoomMsg
  | .exitArriveMsg | .exitArriveRoomMsg => .string
  | .actionCommands => .stringMultiple
  | .owner | .containedBy | .playerHome | .thingHome | .vehicleInterior | .vehicleController
  | .actionContainedBy => .id
  | .groupIds | .linkedPrograms | .actionTargets => .idMultiple
  | .programSourceCode => .document
  | .thingLock | .actionLock => .lock
  | _ => .invalid

/-- An Entity, with the lock that a `Thing` has. -/
structure DumpEntity extends EntityData PropertyData where
  thingLock : PropertyLock

namespace DumpEntity

/-- `get_thing_lock` or `get_action_lock`, by the field, if the Entity has it. -/
def lockOf (e : DumpEntity) : EntityField → Option PropertyLock
  | .thingLock => if e.entityType.isThing then some e.thingLock else none
  | .actionLock => if e.entityType.isActionEntity then some e.actionLock else none
  | _ => none

/-- `set_thing_lock` or `set_action_lock`, if the Entity has the field. -/
def setLock (e : DumpEntity) (lock : PropertyLock) : EntityField → Option DumpEntity
  | .thingLock => if e.entityType.isThing then some { e with thingLock := lock.copy } else none
  | .actionLock =>
    if e.entityType.isActionEntity then some { e with actionLock := lock.copy } else none
  | _ => none

/-- A lock is set where there is one. -/
theorem setLock_cases (e : DumpEntity) (lock : PropertyLock) (field : EntityField) :
    (e.lockOf field = none ∧ e.setLock lock field = none) ∨
      (e.lockOf field).isSome = true ∧ whichSetFieldMethod field = .lock ∧
        ∃ e', e.setLock lock field = some e' ∧ e'.lockOf field = some lock.copy := by
  cases field
  case thingLock =>
    cases hthing : e.entityType.isThing <;> simp [lockOf, setLock, whichSetFieldMethod, hthing]
  case actionLock =>
    cases haction : e.entityType.isActionEntity <;>
      simp [lockOf, setLock, whichSetFieldMethod, haction]
  all_goals exact .inl ⟨rfl, rfl⟩

end DumpEntity

/-- The database, and the state of the interface to it. -/
structure DumpDatabase (γ : Type*) where
  /-- `get_entity` -/
  entities : Id → Option DumpEntity
  currentEntity : Option Id
  rest : γ

/-- A function of the interface that says whether it could do what it was called for. -/
inductive DumpCall where
  | setSiteDescription (description : ByteString)
  | setSite (id : SiteIdType)
  | endSite
  | setEntity (id : Id)
  | endEntity
  | setEntityName (name : ByteString)
  | setEntityOwner (owner : Id)
  | addEntityFlag (flag : ByteString)
  | setEntitySecurity
  | endSecurity
  | addToSecurityGroup (id : Id)
  | addToSecurityAdmins (id : Id)
  | addSecurityFlagList (flag : SecurityFlag)
  | addSecurityFlagOther (flag : SecurityFlag)
  | addApplication (application : ByteString) (owner : Id)
  | setApplicationPropsSecurity (application : ByteString)
  | setEntityFieldString (field : EntityField) (value : ByteString)
  | setEntityFieldId (field : EntityField) (value : Id)
  | setEntityFieldDocument (field : EntityField) (value : DocumentProperty)
  | setProp (path : ByteString) (data : PropertyData)

structure DumpReaderInterface (γ : Type*) where
  /-- `config::db` -/
  limits : DbLimits
  limitsPropertySetItems : ℕ
  /-- `from_string` of a floating point number -/
  floatFromString : ByteString → Option FloatData
  /-- `make_site`, with the variable for the ID of the site -/
  makeSite : ByteString → SiteIdType → DumpDatabase γ → (Bool × SiteIdType) × DumpDatabase γ
  makeEntity : EntityType → DumpDatabase γ → Id × DumpDatabase γ
  findProgramByRegName : SiteIdType → ByteString → DumpDatabase γ → Id
  /-- The other functions, but for those of locks. -/
  perform : DumpCall → DumpDatabase γ → Bool × DumpDatabase γ

variable {γ : Type*}

/-- `create_property_data` -/
def DumpReaderInterface.createPropertyData (d : DumpReaderInterface γ)
    (type : Option PropertyDataType) (data : ByteString) : Option PropertyData :=
  type.bind (PropertyData.setFromString d.limits d.floatFromString data)

namespace DumpDatabase

variable (db : DumpDatabase γ) (field : EntityField)

/-- The Entity that is selected. -/
def current : Option DumpEntity := db.currentEntity.bind db.entities

/-- The selected Entity has changed. -/
def updateCurrent (e : DumpEntity) : DumpDatabase γ :=
  { db with entities := fun id => if some id = db.currentEntity then some e else db.entities id }

/-- The lock of the selected Entity in a field it has. -/
def currentLock : Option PropertyLock := db.current.bind fun e => e.lockOf field

/-- What the two functions do when a lock could be built, or could not. -/
def storeLock (lockResult : Bool) : Bool × DumpDatabase γ :=
  match db.current, lockResult with
  | some e, true =>
    if whichSetFieldMethod field = .lock then
      -- not the lock that has been built, but one of the same name in the inner scope
      let lock : PropertyLock := .unlocked
      match e.setLock lock field with
      | some e => (true, db.updateCurrent e)
      | none => (false, db)
    else (false, db)
  | _, _ => (false, db)

/-- `set_entity_lock_field` by an ID -/
def setEntityLockFieldById (lockId : Id) (isNot : Bool) : Bool × DumpDatabase γ :=
  let lockIdRef := db.entities lockId
  db.storeLock field (Lock.lockByEntity .unlocked (lockIdRef.map DumpEntity.toEntityData) isNot).1

/-- `set_entity_lock_field` by a property -/
def setEntityLockFieldByProperty (lockPath : ByteString) (lockData : PropertyData) (isNot : Bool) :
    Bool × DumpDatabase γ :=
  db.storeLock field (Lock.lockByProperty .unlocked lockPath lockData isNot).1

variable {db field}

theorem currentLock_updateCurrent {e e' : DumpEntity} (h : db.current = some e) :
    (db.updateCurrent e').currentLock field = e'.lockOf field := by
  obtain ⟨id, hid, -⟩ := Option.bind_eq_some_iff.mp h
  simp [currentLock, current, updateCurrent, hid]

variable (db field) in
/-- **When a lock can be set, the Entity is unlocked**, and otherwise nothing happens. -/
theorem storeLock_cases (lockResult : Bool) :
    (lockResult = true ∧ (db.currentLock field).isSome = true ∧
      (db.storeLock field lockResult).1 = true ∧
      (db.storeLock field lockResult).2.currentLock field = some .unlocked) ∨
    ((lockResult = false ∨ db.currentLock field = none) ∧
      db.storeLock field lockResult = (false, db)) := by
  cases hcurrent : db.current with
  | none =>
    have hnone : db.currentLock field = none := by rw [currentLock, hcurrent]; rfl
    exact .inr ⟨.inr hnone, by simp [storeLock, hcurrent]⟩
  | some e =>
    have hlock : db.currentLock field = e.lockOf field := by rw [currentLock, hcurrent]; rfl
    cases lockResult with
    | false => exact .inr ⟨.inl rfl, by simp [storeLock, hcurrent]⟩
    | true =>
      obtain ⟨hnone, hset⟩ | ⟨hsome, hmethod, e', hset, hlock'⟩ := e.setLock_cases .unlocked field
      · refine .inr ⟨.inr (hlock.trans hnone), ?_⟩
        simp [storeLock, hcurrent, hset]
      · have hstore : db.storeLock field true = (true, db.updateCurrent e') := by
          simp [storeLock, hcurrent, hmethod, hset]
        refine .inl ⟨rfl, by rw [hlock]; exact hsome, by rw [hstore], ?_⟩
        rw [hstore, currentLock_updateCurrent hcurrent, hlock']
        rfl

end DumpDatabase

/-- An interface to a database with one Entity, which is made by `makeEntity`, that can do all it
is called for. -/
def DumpReaderInterface.ofOneEntity : DumpReaderInterface Unit where
  limits := ⟨1000, 100, 100, 1000⟩
  limitsPropertySetItems := 100
  floatFromString _ := none
  makeSite _ _ db := ((true, 1), db)
  makeEntity type db :=
    (⟨1, 1⟩,
      { db with
        entities := fun id =>
          if id = ⟨1, 1⟩ then some { EntityData.ofType ⟨1, 1⟩ type with thingLock := .unlocked }
          else none
        currentEntity := some ⟨1, 1⟩ })
  findProgramByRegName _ _ _ := default
  perform c db :=
    match c with
    | .endEntity => (true, { db with currentEntity := none })
    | _ => (true, db)

/-- The database without Entities. -/
def DumpDatabase.empty : DumpDatabase Unit := ⟨fun _ => none, none, ()⟩

end Mutgos.DbDump
