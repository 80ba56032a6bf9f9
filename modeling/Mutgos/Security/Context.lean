import Mutgos.Lib.Ring
import Mutgos.Security.Operations

/-!
# Contexts

`security::Context`: who requests operations, through which program and with which
capabilities, and a cache of the results of the checks made for it.  Whether the
capabilities have been looked up, and the ID of the process, are left out: no check
reads them.

-/

namespace Mutgos.Security

open DbTypes Text

def contextCacheSize : ℕ := 64

structure ContextCacheEntry where
  operationResult : Result
  operation : Operation
  entityType : EntityType
  entityField : EntityField
  applicationName : ByteString
  entityTarget : Id
  entitySource : Id
  deriving DecidableEq

structure Context where
  requester : Id
  program : Id
  admin : Bool
  runAsRequester : Bool
  capabilities : List Capability
  /-- `context_cache`, and `context_cache_index` as what is overwritten next. -/
  contextCache : Ring ContextCacheEntry

namespace ContextCacheEntry

/-- The comparison that each overload of `security_check_cache` makes: only the fields
that it is given. -/
def answers (entry : ContextCacheEntry) (operation : Operation) : Request Id → Bool
  | .contextOnly => decide (entry.operation = operation)
  | .entityType entityType =>
    decide (entry.operation = operation) && decide (entry.entityType = entityType)
  | .target target =>
    decide (entry.operation = operation) && decide (entry.entityTarget = target)
  | .application target application =>
    decide (entry.operation = operation) && decide (entry.entityTarget = target) &&
      decide (entry.applicationName = application)
  | .field target entityField =>
    decide (entry.operation = operation) && decide (entry.entityTarget = target) &&
      decide (entry.entityField = entityField)
  | .source target source =>
    decide (entry.operation = operation) && decide (entry.entityTarget = target) &&
      decide (entry.entitySource = source)

/-- What each overload of `save_security_check_result` saves: the defaults for the
fields that it is not given. -/
def saved (operation : Operation) (request : Request Id) (result : Result) :
    ContextCacheEntry :=
  match request with
  | .contextOnly => ⟨result, operation, .invalid, .invalid, [], default, default⟩
  | .entityType entityType => ⟨result, operation, entityType, .invalid, [], default, default⟩
  | .target target => ⟨result, operation, .invalid, .invalid, [], target, default⟩
  | .application target application =>
    ⟨result, operation, .invalid, .invalid, application, target, default⟩
  | .field target entityField => ⟨result, operation, .invalid, entityField, [], target, default⟩
  | .source target source => ⟨result, operation, .invalid, .invalid, [], target, source⟩

@[simp] theorem operationResult_saved (operation : Operation) (request : Request Id)
    (result : Result) : (saved operation request result).operationResult = result := by
  cases request <;> rfl

end ContextCacheEntry

namespace Context

/-- The constructor. -/
def new (requestingEntity requestingProgram : Id) : Context where
  requester := requestingEntity
  program := requestingProgram
  admin := false
  runAsRequester := false
  capabilities := []
  contextCache := Ring.empty

def addCapability (ctx : Context) (capability : Capability) : Context :=
  if capability ∈ ctx.capabilities then ctx
  else { ctx with capabilities := ctx.capabilities ++ [capability] }

/-- `has_capability`: with admin rights it has all of them. -/
def hasCapability (ctx : Context) (capability : Capability) : Bool :=
  ctx.admin || decide (capability ∈ ctx.capabilities)

/-- `security_check_cache`: the first entry that answers. -/
def securityCheckCache (ctx : Context) (operation : Operation) (request : Request Id) :
    Option Result :=
  (ctx.contextCache.items.find? (·.answers operation request)).map (·.operationResult)

/-- `save_security_check_result`, with `add_cache_entry` -/
def saveSecurityCheckResult (ctx : Context) (operation : Operation) (request : Request Id)
    (result : Result) : Context :=
  { ctx with
    contextCache :=
      ctx.contextCache.push contextCacheSize (.saved operation request result) }

def clearSecurityCheckCache (ctx : Context) : Context :=
  { ctx with contextCache := Ring.empty }

@[simp] theorem securityCheckCache_clear (ctx : Context) (operation : Operation)
    (request : Request Id) :
    ctx.clearSecurityCheckCache.securityCheckCache operation request = none := rfl

end Context

end Mutgos.Security
