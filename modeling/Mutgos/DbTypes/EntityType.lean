import Mathlib.Order.Basic

/-!
# Types of Entities

`dbtype::EntityType` and the classes behind it.  An Entity is made by the class of
its type and never changes it, so a `dynamic_cast` asks for the type.

-/

namespace Mutgos.DbTypes

/-- `dbtype::EntityType`, without the marker for its end. -/
inductive EntityType where
  | invalid | entity | propertyEntity | containerPropertyEntity | region | room | player | guest
  | thing | puppet | vehicle | group | capability | program | action | exit | command
  deriving DecidableEq, Repr

namespace EntityType

/-- `Group`, and `Capability` below it. -/
def isGroup : EntityType → Bool
  | group | capability => true
  | _ => false

/-- `Player`, and `Guest` below it. -/
def isPlayer : EntityType → Bool
  | player | guest => true
  | _ => false

/-- `Thing`, and `Puppet` and `Vehicle` below it. -/
def isThing : EntityType → Bool
  | thing | puppet | vehicle => true
  | _ => false

/-- `ContainerPropertyEntity` and the classes below it. -/
def isContainerPropertyEntity : EntityType → Bool
  | containerPropertyEntity | region | room | player | guest | thing | puppet | vehicle => true
  | _ => false

/-- `ActionEntity`, and `Exit` and `Command` below it. -/
def isActionEntity : EntityType → Bool
  | action | exit | command => true
  | _ => false

/-- `PropertyEntity` and the classes below it. -/
def isPropertyEntity (type : EntityType) : Bool :=
  type = propertyEntity || type = program || type.isContainerPropertyEntity || type.isActionEntity

end EntityType

end Mutgos.DbTypes
