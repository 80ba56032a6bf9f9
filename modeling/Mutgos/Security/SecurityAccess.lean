import Mutgos.Security.Checkers

/-!
# Access to the security subsystem

`security::SecurityAccess`: every operation has a vector of checkers, which are asked
in turn until one of them decides.  The results are cached in the context.

## Main results

* `securityCheck_of_refused`, `securityCheck_of_valid` — what a call does.
-/

namespace Mutgos.Security

open DbTypes DbInterface Text

variable {δ : Type}

/-- `check_result`: the new result, and whether to ask more checkers. -/
def checkResult (newResult currentResult : Result) : Bool × Result :=
  match newResult with
  | .accept => (true, if currentResult = .skip then .accept else currentResult)
  | .acceptAlways => (false, .accept)
  | .deny | .denyAlways => (false, .deny)
  | .skip => (true, currentResult)

/-- The checkers that `populate_security` adds for an operation. -/
def ownCheckers : Operation → List SecurityChecker
  | .getFormattedProcesses => []
  | .findByNameRelative => [.acceptAll]
  | .findCharacterByName => [.findCharacterByName]
  | .characterOnline => [.characterOnline]
  | .getContains | .getActions | .getEntityField | .entityToString => [.getEntityField]
  | .createEntity => [.createEntity]
  | .deleteEntity => [.deleteEntity]
  | .setEntityField => [.setEntityField]
  | .getApplicationSecurity | .setApplicationSecurity | .deleteApplicationProperty =>
    [.getSetApplicationSecurity]
  | .getApplicationProperty => [.getApplicationProperty]
  | .setApplicationProperty => [.setApplicationProperty]
  | .transferEntity => [.transferEntity]
  | .sendTextRoom => [.sendTextRoom]
  | .sendTextRoomUnrestricted => [.sendTextRoomUnrestricted]
  | .sendTextEntity => [.sendTextEntity]
  | .useAction => [.useAction]

/-- `operation_security`: the site and admin checkers are in front of the others. -/
def operationSecurity (operation : Operation) : List SecurityChecker :=
  .crossSite :: .admin :: ownCheckers operation

/-- The loop over the checkers.  It never ends if a checker does not. -/
def runCheckers [BEq δ] (db : Database δ) (operation : Operation) (ctx : Context)
    (request : Request (EntityData δ)) : List SecurityChecker → Result → Option Result
  | [], result => some result
  | checker :: checkers, result => do
    let newResult ← checker.securityCheck db operation ctx request
    let (checkMore, result) := checkResult newResult result
    if checkMore then runCheckers db operation ctx request checkers result else some result

/-- What the checkers of an operation make of a request. -/
def evaluate [BEq δ] (db : Database δ) (operation : Operation) (ctx : Context)
    (request : Request (EntityData δ)) : Option Result :=
  runCheckers db operation ctx request (operationSecurity operation) .skip

/-- The request as the checkers get it, with the name of the application.  Nothing is left
of one with a reference that is not valid, or without a name. -/
def Request.validate : Request (EntityRef δ) → Option (Request (EntityData δ))
  | .contextOnly => some .contextOnly
  | .entityType type => some (.entityType type)
  | .target e => e.map .target
  | .application e path =>
    e.bind fun e =>
      let applicationName := getApplicationNameFromPath path
      if applicationName = [] then none else some (.application e applicationName)
  | .field e entityField => e.map fun e => .field e entityField
  | .source e e' => e.bind fun e => e'.map fun e' => .source e e'

/-- What a `SecurityException` is made of. -/
structure SecurityException where
  operation : Operation
  request : Request Id
  deriving DecidableEq

/-- How a call ends. -/
inductive Outcome where
  | returned (allowed : Bool)
  | thrown (e : SecurityException)
  deriving DecidableEq

/-- A `Result` as the `bool` that is returned: the first of the enumeration is false. -/
def Result.toBool : Result → Bool
  | .accept => false
  | _ => true

/-- `security_check`: how the call ends, and the context afterwards. -/
def securityCheck [BEq δ] (db : Database δ) (operation : Operation) (ctx : Context)
    (request : Request (EntityRef δ)) (throwExceptionOnDenied : Bool) :
    Option (Outcome × Context) :=
  match request.validate with
  | none => some (.returned (Result.toBool .skip), ctx)
  | some request => do
    let ids := request.map (·.id)
    let (result, ctx) ←
      match ctx.securityCheckCache operation ids with
      | some result => some (result, ctx)
      | none => do
        let result ← evaluate db operation ctx request
        some (result, ctx.saveSecurityCheckResult operation ids result)
    if throwExceptionOnDenied ∧ result ≠ .accept then some (.thrown ⟨operation, ids⟩, ctx)
    else some (.returned (result = .accept), ctx)

/-- The result that a call ends with. -/
def combinedResult [BEq δ] (db : Database δ) (operation : Operation) (ctx : Context)
    (request : Request (EntityRef δ)) : Option Result :=
  match request.validate with
  | none => some .skip
  | some request =>
    match ctx.securityCheckCache operation (request.map (·.id)) with
    | some result => some result
    | none => evaluate db operation ctx request

/-! ### What a call does -/

/-- How a call with a result ends. -/
def outcomeOf (operation : Operation) (request : Request Id) (throwExceptionOnDenied : Bool)
    (result : Result) : Outcome :=
  if throwExceptionOnDenied ∧ result ≠ .accept then .thrown ⟨operation, request⟩
  else .returned (result = .accept)

variable {db : Database δ} {operation : Operation} {ctx : Context} {request : Request (EntityRef δ)}
  {throwExceptionOnDenied : Bool}

/-- A call that is refused at once returns the result as it was in the beginning. -/
theorem securityCheck_of_refused [BEq δ] (h : request.validate = none) :
    securityCheck db operation ctx request throwExceptionOnDenied = some (.returned true, ctx) := by
  rw [securityCheck, h]
  rfl

/-- Otherwise it ends with the result that is cached, or with that of the checkers, which
is cached then. -/
theorem securityCheck_of_valid [BEq δ] {valid : Request (EntityData δ)}
    (h : request.validate = some valid) :
    securityCheck db operation ctx request throwExceptionOnDenied =
      match ctx.securityCheckCache operation (valid.map (·.id)) with
      | some result =>
        some (outcomeOf operation (valid.map (·.id)) throwExceptionOnDenied result, ctx)
      | none => (evaluate db operation ctx valid).map fun result =>
        (outcomeOf operation (valid.map (·.id)) throwExceptionOnDenied result,
          ctx.saveSecurityCheckResult operation (valid.map (·.id)) result) := by
  rw [securityCheck, h]
  dsimp only
  cases ctx.securityCheckCache operation (valid.map (·.id)) with
  | some result =>
    simp only [Option.bind_eq_bind, Option.bind_some, outcomeOf]
    split <;> rfl
  | none =>
    cases evaluate db operation ctx valid with
    | none => rfl
    | some result =>
      simp only [Option.bind_eq_bind, Option.bind_some, outcomeOf, Option.map_some]
      split <;> rfl

/-- A call that ends has a combined result. -/
theorem combinedResult_of_securityCheck [BEq δ] {ctx' : Context} {valid : Request (EntityData δ)}
    {outcome : Outcome} (hvalid : request.validate = some valid)
    (h : securityCheck db operation ctx request throwExceptionOnDenied = some (outcome, ctx')) :
    ∃ result, combinedResult db operation ctx request = some result ∧
      outcome = outcomeOf operation (valid.map (·.id)) throwExceptionOnDenied result := by
  rw [securityCheck_of_valid hvalid] at h
  rw [combinedResult, hvalid]
  dsimp only
  split at h
  · rename_i result hcached
    cases h
    exact ⟨result, rfl, rfl⟩
  · rename_i hcached
    obtain ⟨result, hresult, h⟩ := Option.map_eq_some_iff.mp h
    cases h
    exact ⟨result, hresult, rfl⟩

end Mutgos.Security
