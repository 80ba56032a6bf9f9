import Mutgos.DbDump.DumpReaderInterface
import Mutgos.DbDump.MutgosDumpFileReader

/-!
# The parsers of the lines of a dump

`parse_none` and the others: what the lines of a dump say, by the mode the parser is in.  A property
or a document can take several lines, and then the parsers for it keep what they have read so far.
A parser of this kind answers whether it is finished, and that is all it answers: it has to report
an error by itself, or there is none.
-/

namespace Mutgos.DbDump

open DbTypes Text

inductive ParserMode where
  | none | entity | security | fields | properties
  deriving DecidableEq

inductive SubParserMode where
  | none | lock | lockId | lockProperty | document
  deriving DecidableEq

/-- What a line does that can fail: functions of the interface, conversions, and adding to a
value. -/
inductive Attempt where
  | makeSite (siteName : ByteString)
  | makeEntity (type : EntityType)
  | call (c : DumpCall)
  | setEntityLockFieldById (field : EntityField) (lockId : Id) (isNot : Bool)
  | setEntityLockFieldByProperty (field : EntityField) (lockPath : ByteString)
      (lockData : PropertyData) (isNot : Bool)
  | createPropertyData (type : Option PropertyDataType) (data : ByteString)
  | fromString (str : ByteString)
  | appendLine (data : ByteString)
  | add (item : PropertyData)

/-- The members of a `MutgosDumpFileReader` that have to do with the lines. -/
structure LineParsers (γ : Type*) where
  db : DumpDatabase γ
  parserMode : ParserMode
  subparserMode : SubParserMode
  currentSite : SiteIdType
  currentId : Id
  currentProperty : ByteString
  currentEntityField : EntityField
  /-- `current_document_ptr` -/
  currentDocument : Option DocumentProperty
  itemsLeft : ℕ
  currentSetType : Option PropertyDataType
  /-- `current_set_ptr` -/
  currentSet : Option PropertyData
  operationNot : Bool
  /-- `variables` -/
  variableMap : List (ByteString × Id)
  /-- The cause of an error of the line. -/
  error : Option ByteString
  /-- What has been attempted, and whether it could be done. -/
  attempts : List (Attempt × Bool)

/-- `get_word`: the word, and what is left. -/
def getWord (input : ByteString) : ByteString × ByteString :=
  (input.takeWhile (· ≠ 32), ((input.dropWhile (· ≠ 32)).drop 1).dropWhile isSpace)

def getKeyValue (input : ByteString) : Option (ByteString × ByteString) :=
  match input.dropWhile (· ≠ 61) with
  | [] => none
  | _ :: value =>
    some (((input.takeWhile (· ≠ 61)).reverse.dropWhile isSpace).reverse, value.dropWhile isSpace)

def isVariable (input : ByteString) : Bool :=
  2 < input.length && input.head? = some 123 && input.getLast? = some 125

def isProgRegName (input : ByteString) : Bool := 1 < input.length && input.head? = some 36

/-- The name of a variable, without the braces. -/
def variableName (reference : ByteString) : ByteString := (reference.drop 1).dropLast

namespace LineParsers

variable {γ : Type*}

/-- What the constructor makes of the interface. -/
def new (db : DumpDatabase γ) : LineParsers γ where
  db := db
  parserMode := .none
  subparserMode := .none
  currentSite := 0
  currentId := default
  currentProperty := []
  currentEntityField := .invalid
  currentDocument := none
  itemsLeft := 0
  currentSetType := none
  currentSet := none
  operationNot := false
  variableMap := []
  error := none
  attempts := []

variable (d : DumpReaderInterface γ) (s : LineParsers γ)

def setError (cause : ByteString) : LineParsers γ := { s with error := some cause }

/-- Something has been attempted. -/
def attempted (a : Attempt) (result : Bool) : LineParsers γ :=
  { s with attempts := s.attempts ++ [(a, result)] }

/-- A function of the interface is called, which is an error if it cannot do it; otherwise there
is something else to do. -/
def demand (c : DumpCall) (cause : ByteString) (next : LineParsers γ → LineParsers γ) :
    LineParsers γ :=
  let (result, db) := d.perform c s.db
  let s := { s with db := db }.attempted (.call c) result
  if result then next s else s.setError cause

def getVariable (reference : ByteString) : Id :=
  if isVariable reference then (SortedMap.find (variableName reference) s.variableMap).getD default
  else default

def setVariable (reference : ByteString) (id : Id) : Bool × LineParsers γ :=
  if isVariable reference then
    (true, { s with variableMap := SortedMap.insert (variableName reference) id s.variableMap })
  else (false, s)

def getProgReg (regname : ByteString) : Id :=
  if isProgRegName regname then
    let result := d.findProgramByRegName s.currentSite (regname.drop 1) s.db
    if result.isDefault ∧ 1 < s.currentSite then d.findProgramByRegName 1 (regname.drop 1) s.db
    else result
  else default

def isParsingPropertyData : Bool := s.currentDocument.isSome || s.currentSet.isSome

/-! ### Values -/

/-- The line that ends a value is expected: `end`, and what is ended. -/
def endValue (kind what input : ByteString) : Bool × LineParsers γ :=
  let (command, rest) := getWord (toLowerCopy input)
  if command = ascii "end" then
    if rest = what then (true, s)
    else (false, s.setError (kind ++ ascii ": Unknown mode to end: " ++ rest))
  else (false, s.setError (kind ++ ascii ": Unexpected command: " ++ input))

def sharedDocumentParser (input : ByteString) : Bool × LineParsers γ :=
  match s.currentDocument with
  | none =>
    let (word, rest) := getWord input
    if toLowerCopy word = ascii "lines" then
      match fromStringUnsignedInt rest with
      | none =>
        (false, (s.attempted (.fromString rest) false).setError
          (ascii "document:  Cannot convert number of lines: " ++ rest))
      | some lines =>
        let document := DocumentProperty.new d.limits
        (false,
          { s.attempted (.fromString rest) true with
            itemsLeft := lines
            -- Source code gets a longer document.
            currentDocument := some
              (if s.currentEntityField = .programSourceCode then
                document.setMaxLines d.limits.limitsProgramLines
              else document) })
    else (false, s.setError (ascii "document: Missing number of lines: " ++ input))
  | some document =>
    if 0 < s.itemsLeft then
      if input = ascii ".end" then (true, { s with itemsLeft := 0 })
      else
        match document.appendLine d.limits input with
        | (true, document) =>
          (false,
            { s.attempted (.appendLine input) true with
              currentDocument := some document, itemsLeft := s.itemsLeft - 1 })
        | (false, _) =>
          (false, ({ s with itemsLeft := s.itemsLeft - 1 }.attempted (.appendLine input)
            false).setError (ascii "document:  Unable to append line."))
    else s.endValue (ascii "document") (ascii "lines") input

/-- The part of `shared_set_parser` for an item. -/
def addItem (set : PropertyData) (input : ByteString) : LineParsers γ :=
  match d.createPropertyData s.currentSetType input with
  | none => (s.attempted (.createPropertyData s.currentSetType input) false).setError
      (ascii "set: Unable to parse item: " ++ input)
  | some item =>
    match set.add d.limitsPropertySetItems item with
    | (true, set) =>
      { (s.attempted (.createPropertyData s.currentSetType input) true).attempted (.add item)
          true with currentSet := some set }
    | (false, _) =>
      ((s.attempted (.createPropertyData s.currentSetType input) true).attempted (.add item)
        false).setError (ascii "set: Unable to add item data: ")

/-- `shared_set_parser`.  The type of the items is a parameter it does not use. -/
def sharedSetParser (_setType : Option PropertyDataType) (input : ByteString) :
    Bool × LineParsers γ :=
  match s.currentSet with
  | none =>
    let (word, rest) := getWord input
    if toLowerCopy word = ascii "items" then
      match fromStringUnsignedInt rest with
      | none =>
        (false, (s.attempted (.fromString rest) false).setError
          (ascii "set:  Cannot convert number of items: " ++ rest))
      | some items =>
        (false,
          { s.attempted (.fromString rest) true with
            itemsLeft := items
            currentSet := some (.set none []) })
    else (false, s.setError (ascii "set: Missing number of items: " ++ input))
  | some set =>
    if 0 < s.itemsLeft then
      (false, { addItem d s set input with itemsLeft := s.itemsLeft - 1 })
    else s.endValue (ascii "set") (ascii "items") input

/-- The part of `shared_property_parser` for a type that is read from one line.  What cannot be
converted is no error. -/
def parseSimple (type : PropertyDataType) (input : ByteString) :
    Option (ByteString × PropertyData) × LineParsers γ :=
  match getKeyValue input with
  | none =>
    (none, s.setError (ascii "property (simple): Unable to parse key value pair: " ++ input))
  | some (key, text) =>
    match d.createPropertyData (some type) text with
    | some value => (some (key, value), s.attempted (.createPropertyData (some type) text) true)
    | none => (none, s.attempted (.createPropertyData (some type) text) false)

/-- The part of `shared_property_parser` for the first line of a property. -/
def parseFirst (input : ByteString) : Option (ByteString × PropertyData) × LineParsers γ :=
  let (word, rest) := getWord input
  match stringToPropertyDataType (toLowerCopy word) with
  | none => (none, s.setError (ascii "property: Unknown property type " ++ toLowerCopy word))
  | some .document =>
    match getKeyValue rest with
    | none =>
      (none, s.setError (ascii "property (document): Unable to parse key value pair: " ++ rest))
    | some (key, value) =>
      (none, (sharedDocumentParser d { s with currentProperty := key } value).2)
  | some .id =>
    match getKeyValue rest with
    | none => (none, s.setError (ascii "property (id): Unable to parse key value pair: " ++ rest))
    | some (key, value) =>
      if !isVariable value then (none, s.setError (ascii "property (id): Value is not a variable"))
      else if (s.getVariable value).isDefault then
        (none, s.setError
          (ascii "property (id): Variable " ++ value ++ ascii " does not exist."))
      else (some (key, .id (s.getVariable value)), s)
  | some .set =>
    let (setTypeWord, rest) := getWord rest
    let setType := stringToPropertyDataType (toLowerCopy setTypeWord)
    if setType = none then
      (none, s.setError (ascii "property (set): Invalid set type " ++ toLowerCopy setTypeWord))
    else
      match getKeyValue rest with
      | none =>
        (none, s.setError (ascii "property (set): Unable to parse key value pair: " ++ rest))
      | some (key, value) =>
        (none, (sharedSetParser d { s with currentProperty := key } setType value).2)
  | some type => parseSimple d s type rest

/-- `shared_property_parser`: the property, when it is finished. -/
def sharedPropertyParser (input : ByteString) :
    Option (ByteString × PropertyData) × LineParsers γ :=
  match s.currentDocument, s.currentSet with
  | some _, _ =>
    match sharedDocumentParser d s input with
    | (true, s') =>
      (s'.currentDocument.map fun document => (s'.currentProperty, .document document),
        { s' with currentProperty := [], currentDocument := none })
    | (false, s') => (none, s')
  | none, some _ =>
    match sharedSetParser d s s.currentSetType input with
    | (true, s') =>
      (s'.currentSet.map fun set => (s'.currentProperty, set),
        { s' with currentProperty := [], currentSet := none })
    | (false, s') => (none, s')
  | none, none => parseFirst d s input

/-! ### Items of several lines -/

def subparseLock (input : ByteString) : LineParsers γ :=
  let parsedInput := toLowerCopy input
  if parsedInput = ascii "id" then { s with subparserMode := .lockId, operationNot := false }
  else if parsedInput = ascii "!id" then { s with subparserMode := .lockId, operationNot := true }
  else if parsedInput = ascii "property" then
    { s with subparserMode := .lockProperty, operationNot := false }
  else if parsedInput = ascii "!property" then
    { s with subparserMode := .lockProperty, operationNot := true }
  else s.setError (ascii "lock: Unknown lock type " ++ input)

/-- The end of a lock. -/
def endLock (kind rest : ByteString) : LineParsers γ :=
  if rest ≠ ascii "lock" then s.setError (kind ++ ascii ": Unknown type to end " ++ rest)
  else { s with subparserMode := .none, operationNot := false }

def subparseLockId (input : ByteString) : LineParsers γ :=
  if isVariable input then
    let id := s.getVariable input
    if id.isDefault then
      s.setError (ascii "lock by ID: variable " ++ input ++ ascii " not found")
    else
      let (result, db) := s.db.setEntityLockFieldById s.currentEntityField id s.operationNot
      let s := { s with db := db }.attempted
        (.setEntityLockFieldById s.currentEntityField id s.operationNot) result
      if result then s else s.setError (ascii "lock by ID:  Could not lock against ID ")
  else
    let (command, rest) := getWord input
    if toLowerCopy command ≠ ascii "end" then
      s.setError (ascii "lock by ID: Unknown command " ++ toLowerCopy command)
    else s.endLock (ascii "lock by ID") rest

/-- The part of `subparse_lock_property` for a property that is finished. -/
def useLockProperty (key : ByteString) (value : PropertyData) : LineParsers γ :=
  let (result, db) :=
    s.db.setEntityLockFieldByProperty s.currentEntityField key value s.operationNot
  let s := { s with db := db }.attempted
    (.setEntityLockFieldByProperty s.currentEntityField key value s.operationNot) result
  if result then s else s.setError (ascii "lock by property: Unable to set lock")

def subparseLockProperty (input : ByteString) : LineParsers γ :=
  let (command, rest) := getWord input
  if !s.isParsingPropertyData ∧ toLowerCopy command = ascii "end" then
    s.endLock (ascii "lock by property") rest
  else
    match sharedPropertyParser d s input with
    | (some (key, value), s) => s.useLockProperty key value
    | (none, s) => s

def subparseDocument (input : ByteString) : LineParsers γ :=
  match sharedDocumentParser d s input with
  | (true, s) =>
    let close (s : LineParsers γ) : LineParsers γ :=
      { s with subparserMode := .none, currentDocument := none }
    match s.currentDocument with
    | none => close s
    | some document =>
      if s.currentProperty = [] then
        close (s.demand d (.setEntityFieldDocument s.currentEntityField document)
          (ascii "document:  Unable to set document on field ") id)
      else
        close (s.demand d (.setProp s.currentProperty (.document document))
          (ascii "document:  Unable to set document on property " ++ s.currentProperty) id)
  | (false, s) => s

/-! ### The modes -/

/-- The command `mksite` of `parse_none`. -/
def makeSite (siteName : ByteString) : LineParsers γ :=
  let ((result, site), db) := d.makeSite siteName s.currentSite s.db
  let s := { s with db := db, currentSite := site }.attempted (.makeSite siteName) result
  if result then s else s.setError (ascii "Unable to make site " ++ siteName)

/-- The command `mkentity` of `parse_none`. -/
def makeEntity (typeWord reference : ByteString) : LineParsers γ :=
  let type := stringToEntityType (toLowerCopy typeWord)
  let (entityId, db) := d.makeEntity type s.db
  let s := { s with db := db, currentId := entityId }.attempted (.makeEntity type)
    (!entityId.isDefault)
  if entityId.isDefault then
    s.setError (ascii "mkentity: Could not make Entity with type " ++ toLowerCopy typeWord)
  else
    let s := { s with parserMode := .entity }
    if reference = [] then s
    else
      let (result, s) := s.setVariable reference entityId
      if result then s
      else s.setError
        (ascii "mkentity: unable to set variable " ++ reference ++ ascii ".  Wrong format?")

def parseNone (input : ByteString) : LineParsers γ :=
  let (word, rest) := getWord input
  let command := toLowerCopy word
  if command = ascii "mksite" then
    s.makeSite d rest
  else if command = ascii "setsitedesc" then
    s.demand d (.setSiteDescription rest) (ascii "Unable to set site description to " ++ rest) id
  else if command = ascii "setsite" then
    match fromStringUnsignedInt rest with
    | none => (s.attempted (.fromString rest) false).setError
        (ascii "Cannot convert site ID: " ++ rest)
    | some site => (s.attempted (.fromString rest) true).demand d (.setSite site)
        (ascii "Unable to set site " ++ rest) id
  else if command = ascii "mkentity" then
    s.makeEntity d (getWord rest).1 (getWord rest).2
  else if command = ascii "modentity" then
    let toEntity (entityId : Id) : LineParsers γ :=
      s.demand d (.setEntity entityId) (ascii "modentity: unable to set Entity ") fun s =>
        { s with parserMode := .entity }
    if rest = [] then s.setError (ascii "modentity: missing variable or regname")
    else if isVariable rest then
      if (s.getVariable rest).isDefault then
        s.setError (ascii "modentity: variable does not exist: " ++ rest)
      else toEntity (s.getVariable rest)
    else if isProgRegName rest then
      if (s.getProgReg d rest).isDefault then
        s.setError (ascii "modentity: Program reg name does not exist: " ++ rest)
      else toEntity (s.getProgReg d rest)
    else s.setError (ascii "modentity: Unknown ID type")
  else if command = ascii "end" then
    if toLowerCopy rest = ascii "site" then
      s.demand d .endSite (ascii "end site: Wrong mode to end site!") fun s =>
        { s with currentSite := 0 }
    else s.setError (ascii "end: Invalid end command for this mode: " ++ toLowerCopy rest)
  else s.setError (ascii "Unknown command: " ++ command)

/-- A variable is looked up, and it is an error if there is none. -/
def withVariable (what reference : ByteString) (next : Id → LineParsers γ) : LineParsers γ :=
  if !isVariable reference then s.setError (what ++ ascii ": invalid variable reference")
  else if (s.getVariable reference).isDefault then
    s.setError (what ++ ascii ": cannot find variable " ++ reference)
  else next (s.getVariable reference)

/-- `parse_entity`.  Nothing comes of printing the Entity. -/
def parseEntity (input : ByteString) : LineParsers γ :=
  let (word, rest) := getWord input
  let command := toLowerCopy word
  if command = ascii "print" then s
  else if command = ascii "owner" then
    s.withVariable (ascii "entity owner") rest fun owner =>
      s.demand d (.setEntityOwner owner) (ascii "entity owner: cannot set") id
  else if command = ascii "name" then
    if rest = [] then s.setError (ascii "entity name: Missing name")
    else s.demand d (.setEntityName rest) (ascii "entity name: Unable to set!") id
  else if command = ascii "flag" then
    if rest = [] then s.setError (ascii "entity name: Missing flag")
    else s.demand d (.addEntityFlag rest) (ascii "entity flag: Unable to add flag!") id
  else if command = ascii "security" then
    s.demand d .setEntitySecurity (ascii "entity security:  Unable to set mode!") fun s =>
      { s with parserMode := .security }
  else if command = ascii "fields" then { s with parserMode := .fields }
  else if command = ascii "properties" then { s with parserMode := .properties }
  else if command = ascii "end" then
    if toLowerCopy rest = ascii "entity" then
      s.demand d .endEntity (ascii "end entity:  Wrong mode to end Entity.") fun s =>
        { s with currentId := default, parserMode := .none }
    else s.setError (ascii "entity: Unknown mode to end: " ++ toLowerCopy rest)
  else s.setError (ascii "entity: Unknown command: " ++ command)

def parseSecurity (input : ByteString) : LineParsers γ :=
  let (word, rest) := getWord input
  let command := toLowerCopy word
  if command = ascii "group" then
    s.withVariable (ascii "security group") rest fun group =>
      s.demand d (.addToSecurityGroup group) (ascii "security group: cannot add") id
  else if command = ascii "admin" then
    s.withVariable (ascii "security admin") rest fun admin =>
      s.demand d (.addToSecurityAdmins admin) (ascii "security admin: cannot add") id
  else if command = ascii "flag" then
    let (flagList, flagWord) := getWord (toLowerCopy rest)
    let parsedFlag := securityFlagFromString flagWord
    if parsedFlag = .invalid then
      s.setError (ascii "security flag: Unknown flag " ++ flagWord)
    else if flagList = ascii "group" then
      s.demand d (.addSecurityFlagList parsedFlag)
        (ascii "security flag set group: Could not set flag " ++ flagWord) id
    else if flagList = ascii "other" then
      s.demand d (.addSecurityFlagOther parsedFlag)
        (ascii "security flag set other: Could not set flag " ++ flagWord) id
    else s.setError (ascii "security flag set: Unknown flag list " ++ flagList)
  else if command = ascii "end" then
    if toLowerCopy rest = ascii "security" then
      s.demand d .endSecurity (ascii "end security:  Wrong mode to end Security") fun s =>
        { s with parserMode := if s.currentProperty = [] then .entity else .properties }
    else s.setError (ascii "security: Unknown mode to end: " ++ toLowerCopy rest)
  else s.setError (ascii "security: Unknown command: " ++ command)

/-- The part of `parse_fields` for a field that is an ID.  Whether one can be set that is named by
a registration is not looked at. -/
def parseIdField (field : EntityField) (value : ByteString) : LineParsers γ :=
  if isVariable value then
    if (s.getVariable value).isDefault then
      s.setError (ascii "entity field (id): Variable does not exist: " ++ value)
    else
      s.demand d (.setEntityFieldId field (s.getVariable value))
        (ascii "entity field (id):  Unable to set ID ") id
  else if isProgRegName value then
    if field = .linkedPrograms ∨ field = .actionTargets then
      let id := s.getProgReg d value
      if id.isDefault then
        s.setError (ascii "entity field (id): Program reg name does not exist: " ++ value)
      else
        let (result, db) := d.perform (.setEntityFieldId field id) s.db
        { s with db := db }.attempted (.call (.setEntityFieldId field id)) result
    else s.setError (ascii "entity field (id): Cannot use program reg names with this field")
  else s.setError (ascii "entity field (id): Unknown ID type")

def parseFields (input : ByteString) : LineParsers γ :=
  match getKeyValue input with
  | none =>
    let (command, rest) := getWord (toLowerCopy input)
    if command = ascii "end" ∧ rest = ascii "fields" then { s with parserMode := .entity }
    else s.setError (ascii "entity field: Malformed input: " ++ input)
  | some (fieldWord, value) =>
    let fieldString := toLowerCopy fieldWord
    match stringToEntityField fieldString with
    | none => s.setError (ascii "entity field: Invalid field for being set: " ++ fieldString)
    | some .invalid => s.setError (ascii "entity field:  Unknown field " ++ fieldString)
    | some field =>
      let s := { s with currentEntityField := field }
      match whichSetFieldMethod field with
      | .string | .stringMultiple =>
        s.demand d (.setEntityFieldString field value)
          (ascii "entity field (string): Cannot set field " ++ fieldString ++ ascii " to " ++ value)
          id
      | .id | .idMultiple => s.parseIdField d field value
      | .document => subparseDocument d { s with subparserMode := .document } value
      | .lock => subparseLock { s with subparserMode := .lock } value
      | .invalid =>
        s.setError (ascii "entity field: Invalid field for being set: " ++ fieldString)

def parseProperties (input : ByteString) : LineParsers γ :=
  let (word, rest) := getWord input
  let command := toLowerCopy word
  if !s.isParsingPropertyData ∧ command = ascii "security" then
    let (application, owner) := getWord rest
    if application = [] ∨ !isVariable owner then
      s.setError (ascii "properties: application name empty or no variable for owner: " ++ input)
    else if (s.getVariable owner).isDefault then
      s.setError (ascii "properties: Cannot find variable for owner: " ++ owner)
    else
      let cause :=
        ascii "properties: Unable to add application or set security for " ++ application
      s.demand d (.addApplication application (s.getVariable owner)) cause fun s =>
        s.demand d (.setApplicationPropsSecurity application) cause fun s =>
          { s with currentProperty := application, parserMode := .security }
  else if !s.isParsingPropertyData ∧ command = ascii "end" then
    if toLowerCopy rest = ascii "properties" then
      { s with parserMode := .entity, currentProperty := [] }
    else
      s.setError (ascii "properties: Invalid end command for this mode: " ++ toLowerCopy rest)
  else
    match sharedPropertyParser d s input with
    | (some (path, data), s) =>
      s.demand d (.setProp path data) (ascii "properties: Unable to set property " ++ path) id
    | (none, s) => s

/-- The parser for the mode. -/
def parse (input : ByteString) : LineParsers γ :=
  match s.subparserMode, s.parserMode with
  | .lock, _ => s.subparseLock input
  | .lockId, _ => s.subparseLockId input
  | .lockProperty, _ => s.subparseLockProperty d input
  | .document, _ => s.subparseDocument d input
  | .none, .none => s.parseNone d input
  | .none, .entity => s.parseEntity d input
  | .none, .security => s.parseSecurity d input
  | .none, .fields => s.parseFields d input
  | .none, .properties => s.parseProperties d input

end LineParsers

/-- The parsers, as the reader calls them. -/
def DumpReaderInterface.parsers {γ : Type*} (d : DumpReaderInterface γ) :
    DumpParsers (LineParsers γ) where
  inDocument s := s.currentDocument.isSome
  parse s input := (s.parse d input, (s.parse d input).error)
  closed s := s.parserMode = .none ∧ s.subparserMode = .none

end Mutgos.DbDump
