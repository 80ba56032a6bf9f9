import Mutgos.DbTypes.EntityField
import Mutgos.DbTypes.EntityType
import Mutgos.DbTypes.PropertyData
import Mutgos.DbTypes.Security
import Mutgos.Text.StringParsing

/-!
# What is read from strings

The names of fields, types and flags, numbers, and the values of properties, as the classes of
`dbtype` and `text::from_string` read them.

-/

namespace Mutgos.DbTypes

open Text

/-- `ENTITY_FIELD_AS_STRING`, without the entries of the markers. -/
def EntityField.names : List (EntityField × ByteString) :=
  [(.type, ascii "type"), (.id, ascii "id"), (.name, ascii "name"), (.note, ascii "note"),
    (.security, ascii "security"), (.instanceNumber, ascii "instance"),
    (.version, ascii "version"), (.createdTimestamp, ascii "created_timestamp"),
    (.updatedTimestamp, ascii "updated_timestamp"),
    (.accessedTimestamp, ascii "accessed_timestamp"), (.accessCount, ascii "access_count"),
    (.owner, ascii "owner"), (.flags, ascii "flags"), (.references, ascii "references"),
    (.deleteBatchId, ascii "delete_batch_id"), (.deletedFlag, ascii "deleted_flag"),
    (.groupIds, ascii "group_ids"), (.groupDisabledIds, ascii "group_disabled_ids"),
    (.applicationProperties, ascii "application_properties"),
    (.containedBy, ascii "contained_by"), (.linkedPrograms, ascii "linked_programs"),
    (.registrations, ascii "registrations"), (.password, ascii "password"),
    (.playerDisplayName, ascii "player_display_name"), (.playerHome, ascii "player_home"),
    (.playerLastConnect, ascii "player_last_connect"), (.thingHome, ascii "thing_home"),
    (.thingLock, ascii "thing_lock"), (.puppetDisplayName, ascii "puppet_display_name"),
    (.vehicleInterior, ascii "vehicle_interior"),
    (.vehicleController, ascii "vehicle_controller"),
    (.programRuntimeSec, ascii "program_runtime_sec"),
    (.programRegName, ascii "program_reg_name"),
    (.programSourceCode, ascii "program_source_code"),
    (.programCompiledCode, ascii "program_compiled_code"),
    (.programLanguage, ascii "program_language"),
    (.programIncludes, ascii "program_includes"), (.actionTargets, ascii "action_targets"),
    (.actionLock, ascii "action_lock"), (.actionSuccMsg, ascii "action_succ_msg"),
    (.actionSuccRoomMsg, ascii "action_succ_room_msg"),
    (.actionFailMsg, ascii "action_fail_msg"),
    (.actionFailRoomMsg, ascii "action_fail_room_msg"),
    (.actionContainedBy, ascii "action_contained_by"),
    (.actionCommands, ascii "action_commands"), (.exitArriveMsg, ascii "exit_arrive_msg"),
    (.exitArriveRoomMsg, ascii "exit_arrive_room_msg")]

/-- `string_to_entity_field`; nothing for the name of the markers. -/
def stringToEntityField (str : ByteString) : Option EntityField :=
  if str = ascii "invalid" then none
  else
    match EntityField.names.find? fun entry => entry.2 = str with
    | some (field, _) => some field
    | none => some .invalid

/-- `ENTITY_TYPE_AS_STRING` and `ENTITY_TYPE_AS_FRIENDLY_STRING` -/
def EntityType.names : List (EntityType × ByteString × ByteString) :=
  [(.entity, ascii "entity", ascii "Entity"),
    (.propertyEntity, ascii "property_entity", ascii "PropertyEntity"),
    (.containerPropertyEntity, ascii "container_property_entity", ascii "ContainerPropertyEntity"),
    (.region, ascii "region", ascii "Region"), (.room, ascii "room", ascii "Room"),
    (.player, ascii "player", ascii "Player"), (.guest, ascii "guest", ascii "Guest"),
    (.thing, ascii "thing", ascii "Thing"), (.puppet, ascii "puppet", ascii "Puppet"),
    (.vehicle, ascii "vehicle", ascii "Vehicle"), (.group, ascii "group", ascii "Group"),
    (.capability, ascii "capability", ascii "Capability"),
    (.program, ascii "program", ascii "Program"), (.action, ascii "action", ascii "Action"),
    (.exit, ascii "exit", ascii "Exit"), (.command, ascii "command", ascii "Command")]

def stringToEntityType (str : ByteString) : EntityType :=
  match EntityType.names.find? fun entry => entry.2.1 = str ∨ entry.2.2 = str with
  | some (type, _) => type
  | none => .invalid

/-- `PROPERTY_DATA_TYPE_AS_STRING` and `PROPERTY_DATA_TYPE_AS_SHORT_STRING` -/
def PropertyDataType.names : List (PropertyDataType × ByteString × ByteString) :=
  [(.string, ascii "string", ascii "str"), (.integer, ascii "integer", ascii "int"),
    (.float, ascii "float", ascii "flo"), (.boolean, ascii "boolean", ascii "boo"),
    (.id, ascii "id", ascii "id "), (.document, ascii "document", ascii "doc"),
    (.set, ascii "set", ascii "set")]

def stringToPropertyDataType (str : ByteString) : Option PropertyDataType :=
  (PropertyDataType.names.find? fun entry => entry.2.1 = str ∨ entry.2.2 = str).map Prod.fst

/-- `SECURITY_FLAGS_STRING` and `SECURITY_FLAGS_LONG_STRING` -/
def SecurityFlag.names : List (SecurityFlag × ByteString × ByteString) :=
  [(.read, ascii "r", ascii "read"), (.write, ascii "w", ascii "write"),
    (.basic, ascii "b", ascii "base"), (.chown, ascii "c", ascii "chown")]

def securityFlagFromString (flag : ByteString) : SecurityFlag :=
  match SecurityFlag.names.find? fun entry => entry.2.1 = flag ∨ entry.2.2 = flag with
  | some (parsed, _) => parsed
  | none => .invalid

/-! ### Numbers -/

/-- The value of decimal digits, where there are some and nothing else. -/
def digitsValue (str : ByteString) : Option ℕ :=
  if str ≠ [] ∧ str.all (fun c => 48 ≤ c && c ≤ 57) then
    some (str.foldl (fun value c => 10 * value + (c.toNat - 48)) 0)
  else none

/-- `from_string` of an unsigned type with so many values.  A minus sign is no error. -/
def fromStringUnsigned (size : ℕ) (str : ByteString) : Option ℕ :=
  let within (digits : ByteString) := (digitsValue digits).filter (· < size)
  match str with
  | 45 :: digits => (within digits).map fun value => (size - value) % size
  | 43 :: digits => within digits
  | digits => within digits

/-- `from_string` of an `MG_UnsignedInt` -/
def fromStringUnsignedInt (str : ByteString) : Option ℕ := fromStringUnsigned (2 ^ 32) str

/-- `from_string` of a signed type, from the least value of it on. -/
def fromStringSigned (half : ℕ) : ByteString → Option ℤ
  | 45 :: digits => ((digitsValue digits).filter (· ≤ half)).map fun value => -(value : ℤ)
  | 43 :: digits => ((digitsValue digits).filter (· < half)).map Int.ofNat
  | digits => ((digitsValue digits).filter (· < half)).map Int.ofNat

/-! ### Values of properties -/

/-- `BooleanProperty::set_from_string` -/
def booleanFromString (str : ByteString) : Option Bool :=
  let lower := toLowerCopy str
  if lower ∈ [ascii "t", ascii "true", ascii "yes", ascii "y"] then some true
  else if lower ∈ [ascii "f", ascii "false", ascii "no", ascii "n"] then some false
  else none

/-- `IdProperty::set_from_string` -/
def idFromString (str : ByteString) : Option Id :=
  let trimmedStr := trimCopy str
  if trimmedStr.head? = some 35 then
    match tokens 32 (trimmedStr.map fun c => if c = 35 ∨ c = 45 then 32 else c) with
    | [siteIdStr, entityIdStr] => do
      let siteId ← fromStringUnsignedInt siteIdStr
      let entityId ← fromStringUnsigned (2 ^ 64) entityIdStr
      pure ⟨siteId, entityId⟩
    | _ => none
  else none

namespace PropertyData

/-- The `set_from_string` of the class for a type. -/
def setFromString (limits : DbLimits) (floatFromString : ByteString → Option FloatData)
    (str : ByteString) : PropertyDataType → Option PropertyData
  | .string => if limits.limitsStringSize < utf8Size str then none else some (string str)
  | .integer => (fromStringSigned (2 ^ 31) str).map integer
  | .float => (floatFromString str).map float
  | .boolean => (booleanFromString str).map boolean
  | .id => (idFromString str).map id
  | .document =>
    match (DocumentProperty.new limits).setFromString limits str with
    | (true, d) => some (document d)
    | (false, _) => none
  | .set => none

end PropertyData

end Mutgos.DbTypes
