import Mutgos.DbTypes.EntityField
import Mutgos.DbTypes.EntityType
import Mutgos.DbTypes.Id
import Mutgos.Text.ByteString

/-!
# Operations and the results of checking them

What the security subsystem can check for, what a checker can answer, and the
capabilities.  The overloads of the functions that check something are one function
of a `Request`, a constructor for each list of arguments that says what is operated
on.
-/

namespace Mutgos.Security

open DbTypes Text

/-- `security::Operation`, without the marker for its end. -/
inductive Operation where
  | getFormattedProcesses | findByNameRelative | findCharacterByName | characterOnline
  | getContains | getActions | createEntity | deleteEntity | getEntityField | setEntityField
  | getApplicationSecurity | setApplicationSecurity | getApplicationProperty
  | setApplicationProperty | deleteApplicationProperty | entityToString | transferEntity
  | sendTextRoomUnrestricted | sendTextRoom | sendTextEntity | useAction
  deriving DecidableEq, Repr

/-- `security::Result`, without the marker for its end. -/
inductive Result where
  | accept | acceptAlways | denyAlways | deny | skip
  deriving DecidableEq, Repr

/-- `security::Capability`, without the marker for its end. -/
inductive Capability where
  | admin | createPlayer | builder | sendTextRoomUnrestricted | sendTextEntity
  | characterFindByNameAfar | anyIdToName | connectionCheck | runAsUser
  deriving DecidableEq, Repr

/-- What an operation is about, besides the context: the arguments of the overloads of
`security_check`. -/
inductive Request (ε : Type*) where
  | contextOnly
  | entityType (entityType : EntityType)
  | target (entityTarget : ε)
  | application (entityTarget : ε) (application : ByteString)
  | field (entityTarget : ε) (entityField : EntityField)
  | source (entityTarget entitySource : ε)
  deriving DecidableEq

namespace Request

variable {ε ζ : Type*}

/-- The same with other Entities. -/
def map (f : ε → ζ) : Request ε → Request ζ
  | contextOnly => contextOnly
  | entityType type => entityType type
  | target e => target (f e)
  | application e name => application (f e) name
  | field e entityField => field (f e) entityField
  | source e e' => source (f e) (f e')

/-- The overloads with a target. -/
def hasTarget : Request ε → Bool
  | contextOnly | entityType _ => false
  | _ => true

end Request

end Mutgos.Security
