import Mutgos.DbDump.DocumentLines

/-!
# Locks in a dump

A field for a lock begins a section: what kind of lock it is, what it is locked by, in one line or
in more, and `end lock`.  What becomes of it is always the same.  If the lock can be built and the
Entity has the field, then the field is unlocked, without an error.

## Main results

* `loadsLock_iff` — **a lock is loaded as the section says if and only if there is nothing to load,
  and this is found to be an error.**
-/

namespace Mutgos.DbDump

open DbTypes Text LineParsers

variable {γ : Type*}

/-- The types of values that are read from one line. -/
def simpleTypes : List PropertyDataType := [.string, .integer, .float, .boolean]

/-- The type a line says it is a property of. -/
def typeOf (line : ByteString) : Option PropertyDataType :=
  stringToPropertyDataType (toLowerCopy (getWord line).1)

/-- A number of lines, or of items. -/
def Counts (what str : ByteString) (n : ℕ) : Prop :=
  toLowerCopy (getWord str).1 = what ∧ fromStringUnsignedInt (getWord str).2 = some n

/-- The line is not the first one of a property. -/
def Malformed (line : ByteString) : Prop :=
  let rest := (getWord line).2
  match typeOf line with
  | none => True
  | some .document =>
    ∀ key value, getKeyValue rest = some (key, value) → ∀ n, ¬ Counts (ascii "lines") value n
  | some .set =>
    typeOf rest = none ∨ ∀ key value, getKeyValue (getWord rest).2 = some (key, value) →
      ∀ n, ¬ Counts (ascii "items") value n
  | some _ => getKeyValue rest = none

/-- The document of lines, if they are within the limits. -/
def documentOf (limits : DbLimits) (lines : List ByteString) : Option PropertyData :=
  match (DocumentProperty.new limits).appendLines limits lines with
  | (true, document) => some (.document document)
  | (false, _) => none

/-- The set of items of a type, added to a set. -/
def setOf (d : DumpReaderInterface γ) (type : PropertyDataType) :
    PropertyData → List ByteString → Option PropertyData
  | set, [] => some set
  | set, item :: items =>
    (d.createPropertyData (some type) item).bind fun data =>
      match set.add d.limitsPropertySetItems data with
      | (true, set) => setOf d type set items
      | (false, _) => none

/-- The lines are a property, with its name, and with its value if there is one. -/
inductive PropertyText (d : DumpReaderInterface γ) (s : LineParsers γ) :
    List ByteString → ByteString → Option PropertyData → Prop
  | simple {line key text : ByteString} {type : PropertyDataType}
      (htype : typeOf line = some type) (hsimple : type ∈ simpleTypes)
      (hkey : getKeyValue (getWord line).2 = some (key, text)) :
      PropertyText d s [line] key (d.createPropertyData (some type) text)
  | id {line key reference : ByteString} (htype : typeOf line = some .id)
      (hkey : getKeyValue (getWord line).2 = some (key, reference)) :
      PropertyText d s [line] key
        (if (s.getVariable reference).isDefault then none
        else some (.id (s.getVariable reference)))
  | document {line key count closing : ByteString} {lines : List ByteString} {n : ℕ}
      (htype : typeOf line = some .document)
      (hkey : getKeyValue (getWord line).2 = some (key, count))
      (hcount : Counts (ascii "lines") count n) (hclosed : ClosedBy n lines closing) :
      PropertyText d s (line :: (lines ++ [closing])) key (documentOf d.limits lines)
  | set {line key count closing : ByteString} {items : List ByteString} {type : PropertyDataType}
      (htype : typeOf line = some .set) (hset : typeOf (getWord line).2 = some type)
      (hkey : getKeyValue (getWord (getWord line).2).2 = some (key, count))
      (hcount : Counts (ascii "items") count items.length)
      (hend : EndsValue (ascii "items") closing) :
      PropertyText d s (line :: (items ++ [closing])) key (setOf d type (.set none []) items)
  | malformed {line : ByteString} (h : Malformed line)
      (hend : toLowerCopy (getWord line).1 ≠ ascii "end") : PropertyText d s [line] [] none

/-- The lock by an ID, if there is the Entity. -/
def lockById (s : LineParsers γ) (reference : ByteString) (isNot : Bool) : Option PropertyLock :=
  if (s.getVariable reference).isDefault then none
  else
    (s.db.entities (s.getVariable reference)).map fun e =>
      (Lock.lockByEntity .unlocked (some e.toEntityData) isNot).2

/-- The lock by a property, if there is its value. -/
def lockByProperty (key : ByteString) (value : Option PropertyData) (isNot : Bool) :
    Option PropertyLock :=
  value.bind fun data =>
    match Lock.lockByProperty .unlocked key data isNot with
    | (true, lock) => some lock
    | (false, _) => none

/-- The lines say what a lock of a kind is locked by, and this is the lock, if it can be built. -/
inductive LockText (d : DumpReaderInterface γ) (s : LineParsers γ) (isNot : Bool) :
    SubParserMode → List ByteString → Option PropertyLock → Prop
  | byId {reference : ByteString} (h : isVariable reference = true) :
      LockText d s isNot .lockId [reference] (lockById s reference isNot)
  | byProperty {lines : List ByteString} {key : ByteString} {value : Option PropertyData}
      (h : PropertyText d s lines key value) :
      LockText d s isNot .lockProperty lines (lockByProperty key value isNot)

/-- The line of a lock field that begins the section. -/
def BeginsLock (header : ByteString) (field : EntityField) (kind : SubParserMode) (isNot : Bool) :
    Prop :=
  ∃ fieldWord kindWord,
    getKeyValue header = some (fieldWord, kindWord) ∧
      stringToEntityField (toLowerCopy fieldWord) = some field ∧
      whichSetFieldMethod field = .lock ∧
      (toLowerCopy kindWord, kind, isNot) ∈
        [(ascii "id", SubParserMode.lockId, false), (ascii "!id", .lockId, true),
          (ascii "property", .lockProperty, false), (ascii "!property", .lockProperty, true)]

/-- The line that ends the section. -/
def EndsLock (line : ByteString) : Prop :=
  toLowerCopy (getWord line).1 = ascii "end" ∧ (getWord line).2 = ascii "lock"

/-- A section loads the lock it describes: without an error the field has it, and where there is
none, or no field, this is an error and nothing else. -/
structure LoadsLock (s t : LineParsers γ) (field : EntityField) (built : Option PropertyLock) :
    Prop where
  loaded : t.error = none → ∃ lock, built = some lock ∧
    t.db.currentLock field = some lock.copy ∧ lock.lockValid = true
  refused : built = none ∨ s.db.currentLock field = none → t.error ≠ none ∧ t.db = s.db

/-- The lines are a set, and it has items. -/
def SetWithItems (lines : List ByteString) : Prop :=
  ∃ line items closing, lines = line :: (items ++ [closing]) ∧ typeOf line = some .set ∧ items ≠ []

theorem whichSetFieldMethod_eq_lock {field : EntityField} :
    whichSetFieldMethod field = .lock ↔ field = .thingLock ∨ field = .actionLock := by
  cases field <;> simp [whichSetFieldMethod]

/-- The line is a simple property whose value cannot be converted. -/
def NotConverted (d : DumpReaderInterface γ) (lines : List ByteString) : Prop :=
  ∃ line, lines = [line] ∧ Unconvertible d line

/-- What begins with a brace is no command. -/
theorem not_isVariable_of_end {line : ByteString}
    (h : toLowerCopy (getWord line).1 = ascii "end") : isVariable line ≠ true := by
  intro hvariable
  cases line with
  | nil => cases hvariable
  | cons c line =>
    obtain rfl : c = 123 := by simp [isVariable] at hvariable; exact hvariable.1.2
    rw [show ascii "end" = [101, 110, 100] by decide] at h
    simp [getWord, toLowerCopy] at h

/-! ### The lines of a section -/

section Lines

variable {d : DumpReaderInterface γ} {s : LineParsers γ} {field : EntityField}
  {kind : SubParserMode} {isNot : Bool}

/-- Within a section. -/
def inSection (s : LineParsers γ) (field : EntityField) (kind : SubParserMode) (isNot : Bool) :
    LineParsers γ :=
  { s with currentEntityField := field, subparserMode := kind, operationNot := isNot }

theorem parse_beginsLock (hmode : s.parserMode = .fields) (hsub : s.subparserMode = .none)
    {header : ByteString} (h : BeginsLock header field kind isNot) :
    s.parse d header = inSection s field kind isNot := by
  obtain ⟨fieldWord, kindWord, hkey, hfield, hmethod, hkind⟩ := h
  have hparse : s.parse d header =
      subparseLock { s with currentEntityField := field, subparserMode := .lock } kindWord := by
    rcases whichSetFieldMethod_eq_lock.mp hmethod with rfl | rfl
    · simp [parse, hsub, hmode, parseFields, hkey, hfield, hmethod]
    · simp [parse, hsub, hmode, parseFields, hkey, hfield, hmethod]
  rw [hparse, subparseLock]
  simp only [List.mem_cons, Prod.mk.injEq, List.not_mem_nil, or_false] at hkind
  obtain ⟨h, rfl, rfl⟩ | ⟨h, rfl, rfl⟩ | ⟨h, rfl, rfl⟩ | ⟨h, rfl, rfl⟩ := hkind
  all_goals
    rw [h]
    rfl

variable {closing : ByteString} {type : PropertyDataType} {value : Option PropertyData} {n : ℕ}
  {lines : List ByteString}

theorem parse_endsLock (hsub : s.subparserMode = .lockId ∨ s.subparserMode = .lockProperty)
    (hvalue : s.isParsingPropertyData = false) (h : EndsLock closing) :
    s.parse d closing = { s with subparserMode := .none, operationNot := false } := by
  have hend : ∀ kind, s.endLock kind (ascii "lock") =
      { s with subparserMode := .none, operationNot := false } := by
    intro kind
    simp [endLock]
  obtain ⟨hcommand, hrest⟩ := h
  have hcommand' := hcommand
  rcases hwords : getWord closing with ⟨command, rest⟩
  rw [hwords] at hcommand hrest
  obtain rfl : rest = ascii "lock" := hrest
  rcases hsub with hsub | hsub
  · have hvariable : isVariable closing = false :=
      Bool.not_eq_true _ ▸ not_isVariable_of_end hcommand'
    simp [parse, hsub, subparseLockId, hvariable, hwords, hcommand, hend]
  · simp [parse, hsub, subparseLockProperty, hvalue, hwords, hcommand, hend]

/-! ### Locks by ID -/

/-- What a line by which there is to be a lock has done. -/
inductive Loads (s t : LineParsers γ) (field : EntityField) (kind : SubParserMode)
    (built silent items : Prop) : Prop
  | unlocked (hbuilt : built) (hfield : (s.db.currentLock field).isSome = true)
      (hitems : ¬ items) (herror : t.error = none)
      (hlock : t.db.currentLock field = some .unlocked)
      (hsub : t.subparserMode = kind) (hvalue : t.isParsingPropertyData = false)
  | nothing (hbuilt : ¬ built) (hsilent : silent) (herror : t.error = none) (hdb : t.db = s.db)
      (hsub : t.subparserMode = kind) (hvalue : t.isParsingPropertyData = false)
  | refused (hbuilt : ¬ built ∨ s.db.currentLock field = none ∨ items) (hsilent : ¬ silent)
      (herror : t.error ≠ none) (hdb : t.db = s.db)

theorem not_setWithItems_singleton (line : ByteString) : ¬ SetWithItems [line] := by
  rintro ⟨line', items, closing, hlines, -⟩
  simp at hlines

/-- A lock that can be built is tried to be stored. -/
theorem loads_of_store {t : LineParsers γ} {built silent items : Prop} {lockResult : Bool}
    {store : Bool × DumpDatabase γ} (hstore : store = s.db.storeLock field lockResult)
    (herror : t.error = none) (hsub : t.subparserMode = kind)
    (hvalue : t.isParsingPropertyData = false) (hresult : lockResult = true ↔ built)
    (hsilent : ¬ silent) (hitems : ¬ items) (a : Attempt) (cause : ByteString) :
    Loads s
      (if store.1 = true then { t with db := store.2 }.attempted a store.1
      else ({ t with db := store.2 }.attempted a store.1).setError cause)
      field kind built silent items := by
  subst hstore
  obtain ⟨htrue, hfield, hstore, hlock⟩ | ⟨hnone, hstore⟩ :=
    s.db.storeLock_cases field lockResult
  · rw [if_pos hstore]
    exact .unlocked (hresult.mp htrue) hfield hitems herror hlock hsub hvalue
  · rw [hstore, if_neg Bool.false_ne_true]
    refine .refused ?_ hsilent (by simp [setError]) rfl
    rcases hnone with hfalse | hnone
    · refine .inl fun hbuilt => ?_
      rw [hresult.mpr hbuilt] at hfalse
      cases hfalse
    · exact .inr (.inl hnone)

theorem loads_byId {reference : ByteString} (hreference : isVariable reference = true)
    (hs : s.error = none) (hvalue : s.isParsingPropertyData = false) :
    Loads s (parseAll d (inSection s field .lockId isNot) [reference]) field .lockId
      (lockById s reference isNot ≠ none) False (SetWithItems [reference]) := by
  have hparse : parseAll d (inSection s field .lockId isNot) [reference] =
      subparseLockId (inSection s field .lockId isNot) reference := by
    rw [parseAll_singleton]
    rfl
  rw [hparse, subparseLockId, if_pos hreference]
  have hvar : (inSection s field .lockId isNot).getVariable reference = s.getVariable reference :=
    rfl
  by_cases hdefault : (s.getVariable reference).isDefault = true
  · rw [hvar]
    dsimp only
    rw [if_pos hdefault]
    exact .refused (.inl (by simp [lockById, hdefault])) not_false (by simp [setError]) rfl
  · rw [hvar]
    dsimp only
    rw [if_neg hdefault]
    refine loads_of_store (t := inSection s field .lockId isNot) rfl hs rfl hvalue ?_
      not_false (not_setWithItems_singleton reference) _ _
    rw [lockById, if_neg hdefault]
    show (Lock.lockByEntity .unlocked
      ((s.db.entities (s.getVariable reference)).map DumpEntity.toEntityData) isNot).1 = true ↔ _
    cases s.db.entities (s.getVariable reference) with
    | none => simp [Lock.lockByEntity]
    | some e => simp [Lock.lockByEntity]

/-! ### Locks by property -/

theorem typeOf_ne_end {line : ByteString} (h : typeOf line = some type) :
    toLowerCopy (getWord line).1 ≠ ascii "end" := by
  intro hend
  rw [typeOf, hend] at h
  have hnone : stringToPropertyDataType (ascii "end") = none := by decide +kernel
  rw [hnone] at h
  cases h

/-- The first line of a property. -/
theorem parse_first (hsub : s.subparserMode = .lockProperty)
    (hvalue : s.isParsingPropertyData = false) {line : ByteString}
    (hend : toLowerCopy (getWord line).1 ≠ ascii "end") :
    s.parse d line =
      match parseFirst d s line with
      | (some (key, value), t) => t.useLockProperty key value
      | (none, t) => t := by
  obtain ⟨hdocument, hset⟩ : s.currentDocument = none ∧ s.currentSet = none := by
    simpa [isParsingPropertyData] using hvalue
  have hshared : sharedPropertyParser d s line = parseFirst d s line := by
    simp [sharedPropertyParser, hdocument, hset]
  rw [parse, hsub]
  simp only [subparseLockProperty, hshared]
  exact if_neg fun h => hend h.2

/-- What has been read, and what is left to do. -/
inductive ReadsProperty (d : DumpReaderInterface γ) (s t : LineParsers γ)
    (lines : List ByteString) (key : ByteString) (value : Option PropertyData) : Prop
  | used (data : PropertyData) (hvalue : value = some data) (hitems : ¬ SetWithItems lines)
      (hconverted : ¬ NotConverted d lines)
      (s' : LineParsers γ) (hdb : s'.db = s.db)
      (hfield : s'.currentEntityField = s.currentEntityField)
      (hnot : s'.operationNot = s.operationNot) (hsub : s'.subparserMode = .lockProperty)
      (hfree : s'.isParsingPropertyData = false) (herror : s'.error = none)
      (ht : t = s'.useLockProperty key data)
  | nothing (hvalue : value = none) (hsilent : NotConverted d lines) (herror : t.error = none)
      (hdb : t.db = s.db) (hsub : t.subparserMode = .lockProperty)
      (hfree : t.isParsingPropertyData = false)
  | refused (hvalue : value = none ∨ SetWithItems lines) (hsilent : ¬ NotConverted d lines)
      (herror : t.error ≠ none) (hdb : t.db = s.db)

/-- Where the section begins: nothing is being read. -/
structure LockBegun (s : LineParsers γ) : Prop where
  error : s.error = none
  sub : s.subparserMode = .lockProperty
  free : s.isParsingPropertyData = false
  setType : s.currentSetType = none
  field : s.currentEntityField ≠ .programSourceCode

theorem notConverted_iff {line : ByteString} :
    NotConverted d [line] ↔ Unconvertible d line := by
  constructor
  · rintro ⟨line', hlines, h⟩
    obtain rfl := List.singleton_injective hlines
    exact h
  · exact fun h => ⟨line, rfl, h⟩

theorem readsProperty_simple (h : LockBegun s) {line key text : ByteString}
    (htype : typeOf line = some type) (hsimple : type ∈ simpleTypes)
    (hkey : getKeyValue (getWord line).2 = some (key, text)) :
    ReadsProperty d s (parseAll d s [line]) [line] key (d.createPropertyData (some type) text) := by
  rw [parseAll_singleton, parse_first h.sub h.free (typeOf_ne_end htype)]
  have hfirst : parseFirst d s line = parseSimple d s type (getWord line).2 := by
    rw [typeOf] at htype
    simp only [parseFirst, htype]
    rcases (by simpa [simpleTypes] using hsimple :
      type = .string ∨ type = .integer ∨ type = .float ∨ type = .boolean) with
      rfl | rfl | rfl | rfl <;> rfl
  rw [hfirst, parseSimple, hkey]
  dsimp only
  cases hdata : d.createPropertyData (some type) text with
  | none =>
    refine .nothing rfl (notConverted_iff.mpr ⟨type, key, text, htype, hsimple, hkey, hdata⟩)
      h.error rfl h.sub h.free
  | some data =>
    refine .used data rfl (not_setWithItems_singleton line) ?_
      (s.attempted (.createPropertyData (some type) text) true) rfl rfl rfl h.sub h.free h.error rfl
    rintro hsilent
    obtain ⟨type', key', text', htype', -, hkey', hnone⟩ := notConverted_iff.mp hsilent
    obtain rfl : type = type' := Option.some.inj (htype.symm.trans htype')
    obtain ⟨-, rfl⟩ := Prod.mk.inj (Option.some.inj (hkey.symm.trans hkey'))
    rw [hdata] at hnone
    cases hnone

/-- Only a line with a simple type can be silent. -/
theorem not_notConverted {line : ByteString} {rest : List ByteString}
    (h : ∀ type, typeOf line = some type → type ∉ simpleTypes) :
    ¬ NotConverted d (line :: rest) := by
  rintro ⟨line', hlines, type, key, text, htype, hsimple, -⟩
  obtain ⟨rfl, -⟩ := List.cons.inj hlines
  exact h type htype hsimple

/-- The first line is an error. -/
theorem readsProperty_of_error (h : LockBegun s) {line key : ByteString}
    (hend : toLowerCopy (getWord line).1 ≠ ascii "end") (hvalue : value = none)
    (hsilent : ¬ NotConverted d [line])
    (hfirst : (parseFirst d s line).1 = none ∧ (parseFirst d s line).2.error ≠ none ∧
      (parseFirst d s line).2.db = s.db) :
    ReadsProperty d s (parseAll d s [line]) [line] key value := by
  obtain ⟨hnone, herror, hdb⟩ := hfirst
  rw [parseAll_singleton, parse_first h.sub h.free hend,
    show parseFirst d s line = (none, (parseFirst d s line).2) from Prod.ext hnone rfl]
  exact .refused (.inl hvalue) hsilent herror hdb

theorem readsProperty_id (h : LockBegun s) {line key reference : ByteString}
    (htype : typeOf line = some .id)
    (hkey : getKeyValue (getWord line).2 = some (key, reference)) :
    ReadsProperty d s (parseAll d s [line]) [line] key
      (if (s.getVariable reference).isDefault then none
      else some (.id (s.getVariable reference))) := by
  have hsilent : ¬ NotConverted d [line] := by
    refine not_notConverted fun type htype' => ?_
    obtain rfl := Option.some.inj (htype.symm.trans htype')
    decide
  have hend := typeOf_ne_end htype
  rw [typeOf] at htype
  by_cases hdefault : (s.getVariable reference).isDefault = true
  · refine readsProperty_of_error h hend (if_pos hdefault) hsilent ?_
    simp only [parseFirst, htype, hkey, hdefault, if_true]
    split <;> exact ⟨rfl, by simp [setError], rfl⟩
  · have hvariable : isVariable reference = true := by
      by_contra hvariable
      exact hdefault (by rw [getVariable, if_neg hvariable]; rfl)
    rw [if_neg hdefault, parseAll_singleton, parse_first h.sub h.free hend]
    simp only [parseFirst, htype, hkey, hvariable, hdefault, Bool.not_true, Bool.false_eq_true,
      if_false]
    exact .used _ rfl (not_setWithItems_singleton line) hsilent s rfl rfl rfl h.sub h.free h.error
      rfl

/-- A number is announced, or the word in front of it or the number itself is wrong. -/
theorem counts_or (what input : ByteString) :
    (∃ n, Counts what input n) ∨ ((∀ n, ¬ Counts what input n) ∧
      (toLowerCopy (getWord input).1 ≠ what ∨
        toLowerCopy (getWord input).1 = what ∧ fromStringUnsignedInt (getWord input).2 = none)) := by
  by_cases hword : toLowerCopy (getWord input).1 = what
  · cases hcount : fromStringUnsignedInt (getWord input).2 with
    | none =>
      refine .inr ⟨?_, .inr ⟨hword, rfl⟩⟩
      rintro n ⟨-, hn⟩
      rw [hcount] at hn
      cases hn
    | some n => exact .inl ⟨n, hword, hcount⟩
  · exact .inr ⟨fun n hn => hword hn.1, .inl hword⟩

/-- A document is begun by how many lines it has. -/
theorem sharedDocumentParser_begin (h : s.currentDocument = none)
    (hfield : s.currentEntityField ≠ .programSourceCode) (input : ByteString) :
    (∃ n, Counts (ascii "lines") input n ∧ sharedDocumentParser d s input = (false,
      { s.attempted (.fromString (getWord input).2) true with
        itemsLeft := n, currentDocument := some (DocumentProperty.new d.limits) })) ∨
    ((∀ n, ¬ Counts (ascii "lines") input n) ∧ (sharedDocumentParser d s input).1 = false ∧
      (sharedDocumentParser d s input).2.error ≠ none ∧
      (sharedDocumentParser d s input).2.db = s.db) := by
  rcases counts_or (ascii "lines") input with ⟨n, hword, hcount⟩ | ⟨hno, hword | ⟨hword, hcount⟩⟩
  · refine .inl ⟨n, ⟨hword, hcount⟩, ?_⟩
    simp [sharedDocumentParser, h, hword, hcount, hfield]
  · refine .inr ⟨hno, ?_⟩
    simp [sharedDocumentParser, h, hword, setError]
  · refine .inr ⟨hno, ?_⟩
    simp [sharedDocumentParser, h, hword, hcount, setError, attempted]

/-- A set is begun by how many items it has. -/
theorem sharedSetParser_begin (h : s.currentSet = none) (type : Option PropertyDataType)
    (input : ByteString) :
    (∃ n, Counts (ascii "items") input n ∧ sharedSetParser d s type input = (false,
      { s.attempted (.fromString (getWord input).2) true with
        itemsLeft := n, currentSet := some (.set none []) })) ∨
    ((∀ n, ¬ Counts (ascii "items") input n) ∧ (sharedSetParser d s type input).1 = false ∧
      (sharedSetParser d s type input).2.error ≠ none ∧
      (sharedSetParser d s type input).2.db = s.db) := by
  rcases counts_or (ascii "items") input with ⟨n, hword, hcount⟩ | ⟨hno, hword | ⟨hword, hcount⟩⟩
  · refine .inl ⟨n, ⟨hword, hcount⟩, ?_⟩
    simp [sharedSetParser, h, hword, hcount]
  · refine .inr ⟨hno, ?_⟩
    simp [sharedSetParser, h, hword, setError]
  · refine .inr ⟨hno, ?_⟩
    simp [sharedSetParser, h, hword, hcount, setError, attempted]

theorem readsProperty_malformed (h : LockBegun s) {line : ByteString} (hmalformed : Malformed line)
    (hend : toLowerCopy (getWord line).1 ≠ ascii "end") :
    ReadsProperty d s (parseAll d s [line]) [line] [] none := by
  obtain ⟨hdocument, hset⟩ : s.currentDocument = none ∧ s.currentSet = none := by
    simpa [isParsingPropertyData] using h.free
  have hsilent : ¬ NotConverted d [line] := by
    rintro hsilent
    obtain ⟨type, key, text, htype, hsimple, hkey, -⟩ := notConverted_iff.mp hsilent
    rw [Malformed, typeOf, htype] at hmalformed
    rcases (by simpa using hsimple :
      type = .string ∨ type = .integer ∨ type = .float ∨ type = .boolean) with
      rfl | rfl | rfl | rfl <;> simp [hkey] at hmalformed
  refine readsProperty_of_error h hend rfl hsilent ?_
  rw [Malformed, typeOf] at hmalformed
  unfold parseFirst
  rcases hwords : getWord line with ⟨word, rest⟩
  rw [hwords] at hmalformed
  dsimp only at hmalformed ⊢
  split
  · exact ⟨rfl, by simp [setError], rfl⟩
  · next htype =>
    rw [htype] at hmalformed
    split
    · exact ⟨rfl, by simp [setError], rfl⟩
    · next key value hkey =>
      obtain ⟨n, hn, -⟩ | ⟨-, -, herror, hdb⟩ := sharedDocumentParser_begin (d := d)
        (s := { s with currentProperty := key }) hdocument h.field value
      · exact absurd hn (hmalformed key value hkey n)
      · exact ⟨rfl, herror, hdb⟩
  · next htype =>
    rw [htype] at hmalformed
    rw [show getKeyValue rest = none from hmalformed]
    exact ⟨rfl, by simp [setError], rfl⟩
  · next htype =>
    rw [htype] at hmalformed
    split
    · exact ⟨rfl, by simp [setError], rfl⟩
    next hsetType =>
      split
      · exact ⟨rfl, by simp [setError], rfl⟩
      · next key value hkey =>
        obtain hnone | hcount := hmalformed
        · exact absurd hnone hsetType
        obtain ⟨n, hn, -⟩ | ⟨-, -, herror, hdb⟩ := sharedSetParser_begin (d := d)
          (s := { s with currentProperty := key }) hset
          (stringToPropertyDataType (toLowerCopy (getWord rest).1)) value
        · exact absurd hn (hcount key value hkey n)
        · exact ⟨rfl, herror, hdb⟩
  · next type hdoc hid hset' htype =>
    have hkey : getKeyValue rest = none := by
      rw [htype] at hmalformed
      cases type <;> simp_all
    rw [parseSimple, hkey]
    exact ⟨rfl, by simp [setError], rfl⟩

theorem counts_unique {what str : ByteString} {m : ℕ} (hm : Counts what str m)
    (hn : Counts what str n) : m = n := Option.some.inj (hm.2.symm.trans hn.2)

/-- A line within a value. -/
theorem parse_inValue (hsub : s.subparserMode = .lockProperty)
    (hvalue : s.isParsingPropertyData = true) (line : ByteString) :
    s.parse d line =
      match sharedPropertyParser d s line with
      | (some (key, value), t) => t.useLockProperty key value
      | (none, t) => t := by
  rw [parse, hsub]
  simp only [subparseLockProperty]
  exact if_neg (by simp [hvalue])

theorem endValue_of_endsValue {kind what : ByteString} (h : EndsValue what closing)
    (s : LineParsers γ) : s.endValue kind what closing = (true, s) := by
  obtain ⟨hcommand, hrest⟩ := h
  rw [endValue, show getWord (toLowerCopy closing) = (ascii "end", what) from
    Prod.ext hcommand hrest]
  simp

/-- A value of several lines has been begun. -/
structure Begun (s t : LineParsers γ) (key : ByteString) (n : ℕ) : Prop where
  error : t.error = none
  db : t.db = s.db
  field : t.currentEntityField = s.currentEntityField
  operationNot : t.operationNot = s.operationNot
  sub : t.subparserMode = .lockProperty
  setType : t.currentSetType = none
  property : t.currentProperty = key
  left : t.itemsLeft = n

theorem begun_set (h : LockBegun s) {line key count : ByteString} (htype : typeOf line = some .set)
    (hset : typeOf (getWord line).2 = some type)
    (hkey : getKeyValue (getWord (getWord line).2).2 = some (key, count))
    (hcount : Counts (ascii "items") count n) :
    Begun s (s.parse d line) key n ∧ (s.parse d line).currentDocument = none ∧
      (s.parse d line).currentSet = some (.set none []) := by
  obtain ⟨hdocument, hnoset⟩ : s.currentDocument = none ∧ s.currentSet = none := by
    simpa [isParsingPropertyData] using h.free
  have hfirst := parse_first (d := d) h.sub h.free (typeOf_ne_end htype)
  rw [typeOf] at hset
  simp only [parseFirst, show stringToPropertyDataType _ = _ from htype, hset, hkey] at hfirst
  obtain ⟨m, hm, hbegin⟩ | ⟨hno, -⟩ := sharedSetParser_begin (d := d)
    (s := { s with currentProperty := key }) hnoset (some type) count
  · obtain rfl := counts_unique hm hcount
    rw [hbegin] at hfirst
    rw [hfirst]
    exact ⟨⟨h.error, rfl, rfl, rfl, h.sub, h.setType, rfl, rfl⟩, hdocument, rfl⟩
  · exact absurd hcount (hno n)

theorem begun_document (h : LockBegun s) {line key count : ByteString}
    (htype : typeOf line = some .document) (hkey : getKeyValue (getWord line).2 = some (key, count))
    (hcount : Counts (ascii "lines") count n) :
    Begun s (s.parse d line) key n ∧
      (s.parse d line).currentDocument = some (DocumentProperty.new d.limits) ∧
      (s.parse d line).currentSet = none := by
  obtain ⟨hdocument, hnoset⟩ : s.currentDocument = none ∧ s.currentSet = none := by
    simpa [isParsingPropertyData] using h.free
  have hfirst := parse_first (d := d) h.sub h.free (typeOf_ne_end htype)
  simp only [parseFirst, show stringToPropertyDataType _ = _ from htype, hkey] at hfirst
  obtain ⟨m, hm, hbegin⟩ | ⟨hno, -⟩ := sharedDocumentParser_begin (d := d)
    (s := { s with currentProperty := key }) hdocument h.field count
  · obtain rfl := counts_unique hm hcount
    rw [hbegin] at hfirst
    rw [hfirst]
    exact ⟨⟨h.error, rfl, rfl, rfl, h.sub, h.setType, rfl, rfl⟩, rfl, hnoset⟩
  · exact absurd hcount (hno n)

theorem readsProperty_set (h : LockBegun s) {line key count : ByteString} {items : List ByteString}
    (htype : typeOf line = some .set) (hset : typeOf (getWord line).2 = some type)
    (hkey : getKeyValue (getWord (getWord line).2).2 = some (key, count))
    (hcount : Counts (ascii "items") count items.length)
    (hend : EndsValue (ascii "items") closing) :
    ReadsProperty d s (parseAll d s (line :: (items ++ [closing]))) (line :: (items ++ [closing]))
      key (setOf d type (.set none []) items) := by
  have hsilent : ¬ NotConverted d (line :: (items ++ [closing])) := by
    refine not_notConverted fun type htype' => ?_
    obtain rfl := Option.some.inj (htype.symm.trans htype')
    decide
  obtain ⟨hbegun, hdocument, hbegunSet⟩ := begun_set (d := d) h htype hset hkey hcount
  rw [parseAll_cons _ hbegun.error]
  generalize s.parse d line = begun at *
  have hvalue : begun.isParsingPropertyData = true := by simp [isParsingPropertyData, hbegunSet]
  cases items with
  | nil =>
    have hshared : sharedPropertyParser d begun closing =
        (some (key, .set none []), { begun with currentProperty := [], currentSet := none }) := by
      simp [sharedPropertyParser, hdocument, hbegunSet, sharedSetParser, hbegun.left,
        endValue_of_endsValue hend, hbegun.property]
    rw [List.nil_append, parseAll_singleton, parse_inValue hbegun.sub hvalue, hshared]
    refine .used _ rfl ?_ hsilent { begun with currentProperty := [], currentSet := none }
      hbegun.db hbegun.field hbegun.operationNot hbegun.sub
      (by simp [isParsingPropertyData, hdocument]) hbegun.error rfl
    rintro ⟨line', items, closing', hlines, -, hitems⟩
    have hlength := congrArg List.length hlines
    simp at hlength
    exact hitems hlength
  | cons item items =>
    -- the type of the items has not been remembered
    have hconvert : d.createPropertyData begun.currentSetType item = none := by
      rw [hbegun.setType]
      rfl
    have hshared : (sharedPropertyParser d begun item).1 = none ∧
        (sharedPropertyParser d begun item).2.error ≠ none ∧
        (sharedPropertyParser d begun item).2.db = begun.db := by
      simp [sharedPropertyParser, hdocument, hbegunSet, sharedSetParser, hbegun.left, addItem,
        hconvert, setError, attempted]
    obtain ⟨hnone, herror, hdb⟩ := hshared
    have hparse : begun.parse d item = (sharedPropertyParser d begun item).2 := by
      rw [parse_inValue hbegun.sub hvalue]
      rw [show sharedPropertyParser d begun item = (none, (sharedPropertyParser d begun item).2)
        from Prod.ext hnone rfl]
    rw [List.cons_append, parseAll_of_error _ (by rw [hparse]; exact herror), hparse]
    refine .refused (.inr ?_) hsilent herror (hdb.trans hbegun.db)
    exact ⟨line, item :: items, closing, rfl, htype, List.cons_ne_nil _ _⟩

/-- The line that closes a document, or ends it early. -/
theorem sharedDocumentParser_closes (hclosed : ClosedBy n lines closing)
    (hdocument : s.currentDocument.isSome = true) (hleft : s.itemsLeft = n - lines.length) :
    sharedDocumentParser d s closing = (true, { s with itemsLeft := 0 }) := by
  unfold sharedDocumentParser
  split
  · next hnone =>
    rw [hnone] at hdocument
    cases hdocument
  · obtain ⟨hn, hend⟩ | ⟨hlt, rfl⟩ := hclosed.closes
    · have hzero : s.itemsLeft = 0 := by omega
      rw [if_neg (by omega), endValue_of_endsValue hend, ← hzero]
    · rw [if_pos (by omega), if_pos rfl]

theorem readsProperty_document (h : LockBegun s) {line key count : ByteString}
    (htype : typeOf line = some .document) (hkey : getKeyValue (getWord line).2 = some (key, count))
    (hcount : Counts (ascii "lines") count n) (hclosed : ClosedBy n lines closing) :
    ReadsProperty d s (parseAll d s (line :: (lines ++ [closing]))) (line :: (lines ++ [closing]))
      key (documentOf d.limits lines) := by
  have htypes : ∀ type, typeOf line = some type → type = .document := fun type htype' =>
    Option.some.inj (htype'.symm.trans htype)
  have hsilent : ¬ NotConverted d (line :: (lines ++ [closing])) := by
    refine not_notConverted fun type htype' => ?_
    obtain rfl := htypes type htype'
    decide
  obtain ⟨hbegun, hbegunDocument, hnoset⟩ := begun_document (d := d) h htype hkey hcount
  rw [parseAll_cons _ hbegun.error]
  generalize s.parse d line = begun at *
  have hleft : lines.length ≤ begun.itemsLeft := by
    rw [hbegun.left]
    rcases hclosed.closes with ⟨h, -⟩ | ⟨h, -⟩ <;> omega
  obtain ⟨last, hlast, hread⟩ | ⟨hfails, herror, hdb⟩ := parseAll_appendLines (d := d)
    (.inr (.inl hbegun.sub)) hbegunDocument hleft hclosed.inside hbegun.error
  · have hafter : (parseAll d begun lines).error = none := by rw [hread]; exact hbegun.error
    have hshared : sharedPropertyParser d (begun.appended last lines) closing =
        (some (key, .document last),
          { begun.appended last lines with
            itemsLeft := 0, currentProperty := [], currentDocument := none }) := by
      have hcloses := sharedDocumentParser_closes (d := d) (s := begun.appended last lines) hclosed
        rfl (by simp [appended, hbegun.left])
      simp only [sharedPropertyParser, appended] at hcloses ⊢
      rw [hcloses, ← hbegun.property]
      rfl
    have hparse := parse_inValue (d := d) (s := begun.appended last lines) hbegun.sub rfl closing
    rw [hshared] at hparse
    rw [parseAll_append _ hafter, hread, parseAll_singleton, hparse]
    refine .used (.document last) ?_ ?_ hsilent
      { begun.appended last lines with
        itemsLeft := 0, currentProperty := [], currentDocument := none }
      hbegun.db hbegun.field hbegun.operationNot hbegun.sub ?_ hbegun.error rfl
    · rw [documentOf, hlast]
    · rintro ⟨line', items, closing', hlines, hset, -⟩
      obtain ⟨rfl, -⟩ := List.cons.inj hlines
      cases htypes .set hset
    · simp [isParsingPropertyData, appended, hnoset]
  · rw [parseAll_append_of_error _ herror hbegun.error]
    refine .refused (.inl ?_) hsilent herror (hdb.trans hbegun.db)
    rw [documentOf, show (DocumentProperty.new d.limits).appendLines d.limits lines = (false, _)
      from Prod.ext hfails rfl]

/-- Reading a property that is to be a lock. -/
theorem readsProperty (h : LockBegun s) {key : ByteString}
    (htext : PropertyText d s lines key value) :
    ReadsProperty d s (parseAll d s lines) lines key value := by
  cases htext with
  | simple htype hsimple hkey => exact readsProperty_simple h htype hsimple hkey
  | id htype hkey => exact readsProperty_id h htype hkey
  | document htype hkey hcount hclosed => exact readsProperty_document h htype hkey hcount hclosed
  | set htype hset hkey hcount hend => exact readsProperty_set h htype hset hkey hcount hend
  | malformed hmalformed hend => exact readsProperty_malformed h hmalformed hend

theorem loads_byProperty (h : LockBegun (inSection s field .lockProperty isNot)) {key : ByteString}
    (htext : PropertyText d s lines key value) :
    Loads s (parseAll d (inSection s field .lockProperty isNot) lines) field .lockProperty
      (lockByProperty key value isNot ≠ none) (NotConverted d lines) (SetWithItems lines) := by
  have htext' : PropertyText d (inSection s field .lockProperty isNot) lines key value := by
    cases htext with
    | simple htype hsimple hkey => exact .simple htype hsimple hkey
    | id htype hkey => exact .id htype hkey
    | document htype hkey hcount hclosed => exact .document htype hkey hcount hclosed
    | set htype hset hkey hcount hend => exact .set htype hset hkey hcount hend
    | malformed hmalformed hend => exact .malformed hmalformed hend
  cases readsProperty h htext' with
  | used data hvalue hitems hsilent s' hdb hfield hnot hsub hfree herror ht =>
    have hstore : s'.db.setEntityLockFieldByProperty s'.currentEntityField key data
        s'.operationNot =
          s.db.storeLock field (Lock.lockByProperty .unlocked key data isNot).1 := by
      rw [hdb, hfield, hnot]
      rfl
    rw [ht]
    refine loads_of_store hstore herror hsub hfree ?_ hsilent hitems _ _
    rw [hvalue]
    unfold lockByProperty Lock.lockByProperty
    by_cases hkey : key = []
    · simp [hkey]
    · simp [hkey]
  | nothing hvalue hsilent herror hdb hsub hfree =>
    refine .nothing ?_ hsilent herror hdb hsub hfree
    rw [hvalue]
    exact not_not_intro rfl
  | refused hvalue hsilent herror hdb =>
    refine .refused ?_ hsilent herror hdb
    rcases hvalue with rfl | hitems
    · exact .inl (not_not_intro rfl)
    · exact .inr (.inr hitems)

end Lines

/-! ### The sections -/

variable {d : DumpReaderInterface γ} {db : DumpDatabase γ} {s : LineParsers γ}

/-- **A lock is loaded as the section says if and only if there is nothing to load**, and this is
found to be an error: the value is not one that cannot be converted, and there is no lock that can
be built, or no field to set it in, or a set with items. -/
theorem loadsLock_iff (hs : ReachedFrom d db s) (hmode : s.parserMode = .fields)
    (hsub : s.subparserMode = .none) {field : EntityField} {kind : SubParserMode} {isNot : Bool}
    {header closing : ByteString} {lines : List ByteString} {built : Option PropertyLock}
    (hheader : BeginsLock header field kind isNot) (htext : LockText d s isNot kind lines built)
    (hclosing : EndsLock closing) :
    LoadsLock s (parseAll d s (header :: (lines ++ [closing]))) field built ↔
      ¬ (kind = .lockProperty ∧ NotConverted d lines) ∧
        (built = none ∨ s.db.currentLock field = none ∨ SetWithItems lines) := by
  obtain ⟨hwell, herror⟩ := wellFormed_of_reachedFrom hs
  have hfree : s.isParsingPropertyData = false := by
    have htakes : ¬ s.TakesDocument := by simp [TakesDocument, TakesProperty, hsub, hmode]
    have hdocument : s.currentDocument.isSome = false :=
      Bool.eq_false_iff.mpr fun h => htakes (hwell.document h).1
    have hset : s.currentSet.isSome = false :=
      Bool.eq_false_iff.mpr fun h => htakes (.inr (hwell.set h))
    rw [isParsingPropertyData, hdocument, hset]
    rfl
  have hparse := parse_beginsLock (d := d) hmode hsub hheader
  have hfield : field = .thingLock ∨ field = .actionLock := by
    obtain ⟨-, -, -, -, hmethod, -⟩ := hheader
    exact whichSetFieldMethod_eq_lock.mp hmethod
  have hloads : Loads s (parseAll d (inSection s field kind isNot) lines) field kind (built ≠ none)
      (kind = .lockProperty ∧ NotConverted d lines) (SetWithItems lines) := by
    cases htext with
    | byId hreference =>
      have hid : Loads s (parseAll d (inSection s field .lockId isNot) _) field .lockId _ False _ :=
        loads_byId hreference herror hfree
      simpa using hid
    | byProperty hproperty =>
      simpa using loads_byProperty ⟨herror, rfl, hfree, hwell.setType, by
        rcases hfield with rfl | rfl <;> simp [inSection]⟩ hproperty
  have hkind : kind = .lockId ∨ kind = .lockProperty := by
    cases htext with
    | byId => exact .inl rfl
    | byProperty => exact .inr rfl
  rw [parseAll_cons _ (by rw [hparse]; exact herror), hparse]
  generalize ht : parseAll d (inSection s field kind isNot) lines = t at hloads
  have hclose : t.error = none → t.subparserMode = kind → t.isParsingPropertyData = false →
      parseAll d (inSection s field kind isNot) (lines ++ [closing]) =
        { t with subparserMode := .none, operationNot := false } := by
    intro hterror htsub htfree
    rw [parseAll_append _ (by rw [ht]; exact hterror), ht, parseAll_singleton]
    exact parse_endsLock (by rw [htsub]; exact hkind) htfree hclosing
  cases hloads with
  | unlocked hbuilt hfieldLock hitems hterror hlock htsub htfree =>
    rw [hclose hterror htsub htfree]
    constructor
    · intro h
      obtain ⟨lock, -, hstored, hvalid⟩ := h.loaded hterror
      rw [show DumpDatabase.currentLock _ field = some .unlocked from hlock] at hstored
      have htype : lock.lockType = .invalid := congrArg Lock.lockType (Option.some.inj hstored).symm
      simp [Lock.lockValid, htype] at hvalid
    · rintro ⟨-, hnone | hnone | hsome⟩
      · exact absurd hnone hbuilt
      · rw [hnone] at hfieldLock
        cases hfieldLock
      · exact absurd hsome hitems
  | nothing hbuilt hsilent hterror hdb htsub htfree =>
    rw [hclose hterror htsub htfree]
    constructor
    · intro h
      obtain ⟨lock, hsome, -⟩ := h.loaded hterror
      rw [hsome] at hbuilt
      exact absurd (Option.some_ne_none lock) hbuilt
    · rintro ⟨hloud, -⟩
      exact absurd hsilent hloud
  | refused hbuilt hsilent hterror hdb =>
    have hstops := parseAll_append_of_error (d := d) (s := inSection s field kind isNot)
      [closing] (by rw [ht]; exact hterror) herror
    rw [hstops, ht]
    constructor
    · intro _
      refine ⟨hsilent, ?_⟩
      rcases hbuilt with hbuilt | hbuilt
      · exact .inl (not_not.mp hbuilt)
      · exact .inr hbuilt
    · intro _
      exact ⟨fun h => absurd h hterror, fun _ => ⟨hterror, hdb⟩⟩

/-- The fields of a Thing that has been made. -/
def thingFields : LineParsers Unit :=
  parseAll .ofOneEntity (new .empty) [ascii "mkentity thing {t}", ascii "fields"]

theorem reachedFrom_thingFields : ReachedFrom .ofOneEntity .empty thingFields := by
  have hmade : (parse .ofOneEntity (new .empty) (ascii "mkentity thing {t}")).error = none := by
    decide +kernel
  have hfields : (parse .ofOneEntity (parse .ofOneEntity (new .empty)
      (ascii "mkentity thing {t}")) (ascii "fields")).error = none := by decide +kernel
  rw [thingFields, parseAll_cons _ hmade, parseAll_singleton]
  exact .step (.step .init hmade rfl) hfields rfl

/-- Of a lock of the Thing by itself. -/
theorem loadsLock_iff_thing :
    LoadsLock thingFields
        (parseAll .ofOneEntity thingFields
          (ascii "thing_lock=id" :: ([ascii "{t}"] ++ [ascii "end lock"])))
        .thingLock (lockById thingFields (ascii "{t}") false) ↔
      ¬ (SubParserMode.lockId = .lockProperty ∧ NotConverted .ofOneEntity [ascii "{t}"]) ∧
        (lockById thingFields (ascii "{t}") false = none ∨
          thingFields.db.currentLock .thingLock = none ∨ SetWithItems [ascii "{t}"]) :=
  loadsLock_iff reachedFrom_thingFields (by decide +kernel) (by decide +kernel)
    ⟨ascii "thing_lock", ascii "id", by decide +kernel, by decide +kernel, rfl, by decide +kernel⟩
    (.byId (by decide +kernel)) ⟨by decide +kernel, by decide +kernel⟩

/-- The lock can be built and the Thing has the field; there is no error, and the Thing is not
locked. -/
theorem loadsLock_unlocked :
    let t := parseAll .ofOneEntity thingFields
      [ascii "thing_lock=id", ascii "{t}", ascii "end lock"]
    (lockById thingFields (ascii "{t}") false).isSome = true ∧
      (thingFields.db.currentLock .thingLock).isSome = true ∧ t.error = none ∧
      (t.db.currentLock .thingLock).map Lock.lockValid = some false ∧
      ¬ LoadsLock thingFields t .thingLock (lockById thingFields (ascii "{t}") false) := by
  intro t
  have herror : t.error = none := by decide +kernel
  have hlock : (t.db.currentLock .thingLock).map Lock.lockValid = some false := by decide +kernel
  refine ⟨by decide +kernel, by decide +kernel, herror, hlock, ?_⟩
  intro h
  obtain ⟨lock, -, hstored, hvalid⟩ := h.loaded herror
  rw [hstored] at hlock
  have hcopy : lock.copy.lockValid = lock.lockValid := rfl
  rw [Option.map_some, hcopy, hvalid] at hlock
  cases hlock

end Mutgos.DbDump
