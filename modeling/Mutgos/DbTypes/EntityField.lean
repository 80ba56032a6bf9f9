import Mathlib.Order.Basic

/-!
# Fields of an Entity

`dbtype::EntityField`: the fields on an Entity and all its subclasses, in the
order of the enumeration.  Its markers for where the fields of a class begin and
end are not fields and are left out.
-/

namespace Mutgos.DbTypes

inductive EntityField where
  /-- Invalid field.  Error condition. -/
  | invalid
  -- Entity
  | type | id | name | note | security | instanceNumber | version | createdTimestamp
  | updatedTimestamp | accessedTimestamp | accessCount | owner | flags | references | deleteBatchId
  | deletedFlag
  -- Group
  | groupIds | groupDisabledIds
  -- PropertyEntity
  | applicationProperties
  -- ContainerPropertyEntity
  | containedBy | linkedPrograms | registrations
  -- Player
  | password | playerDisplayName | playerHome | playerLastConnect
  -- Thing
  | thingHome | thingLock
  -- Puppet
  | puppetDisplayName
  -- Vehicle
  | vehicleInterior | vehicleController
  -- Program
  | programRuntimeSec | programRegName | programSourceCode | programCompiledCode | programLanguage
  | programIncludes
  -- ActionEntity
  | actionTargets | actionLock | actionSuccMsg | actionSuccRoomMsg | actionFailMsg
  | actionFailRoomMsg | actionContainedBy | actionCommands
  -- Exit
  | exitArriveMsg | exitArriveRoomMsg
  deriving DecidableEq, Repr

end Mutgos.DbTypes
