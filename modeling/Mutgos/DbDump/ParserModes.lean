import Mutgos.DbDump.LineParsers

/-!
# The modes of the parsers

What a line can do: report an error, or change the mode, or do neither, and then everything that it
attempts could be done, but for two kinds of lines, which fail silently.  From this follows what a
value that is being read has to do with the mode, and that nothing ever says of what type the items
of a set are.

## Main results

* `parse_cases` — **what a line can do.**
-/

namespace Mutgos.DbDump

open DbTypes Text

namespace LineParsers

variable {γ : Type*} (d : DumpReaderInterface γ) (s : LineParsers γ)

/-- A mode in which a line can be a property. -/
def TakesProperty : Prop :=
  s.subparserMode = .lockProperty ∨ (s.subparserMode = .none ∧ s.parserMode = .properties)

/-- A change of the mode, or of the value that is being read. -/
inductive Turn : LineParsers γ → Prop
  | stay : Turn s
  | mode (before after : ParserMode)
      (h : (before, after) ∈ [(ParserMode.none, ParserMode.entity), (.entity, .none),
        (.entity, .security), (.entity, .fields), (.entity, .properties), (.fields, .entity)])
      (hsub : s.subparserMode = .none) (hmode : s.parserMode = before) :
      Turn { s with parserMode := after }
  | leaveSecurity (hsub : s.subparserMode = .none) (hmode : s.parserMode = .security) :
      Turn { s with parserMode := if s.currentProperty = [] then .entity else .properties }
  | leaveProperties (hsub : s.subparserMode = .none) (hmode : s.parserMode = .properties)
      (hvalue : s.isParsingPropertyData = false) :
      Turn { s with parserMode := .entity, currentProperty := [] }
  | security (application : ByteString) (hsub : s.subparserMode = .none)
      (hmode : s.parserMode = .properties) (hvalue : s.isParsingPropertyData = false) :
      Turn { s with currentProperty := application, parserMode := .security }
  | field (field : EntityField) (hsub : s.subparserMode = .none) (hmode : s.parserMode = .fields) :
      Turn { s with currentEntityField := field }
  | lock (field : EntityField) (kind : SubParserMode) (isNot : Bool)
      (hkind : kind = .lockId ∨ kind = .lockProperty) (hmode : s.parserMode = .fields)
      (hsub : s.subparserMode = .none) :
      Turn { s with currentEntityField := field, subparserMode := kind, operationNot := isNot }
  | lockKind (kind : SubParserMode) (isNot : Bool) (hkind : kind = .lockId ∨ kind = .lockProperty)
      (hsub : s.subparserMode = .lock) :
      Turn { s with subparserMode := kind, operationNot := isNot }
  | leaveLock (hsub : s.subparserMode = .lockId ∨ s.subparserMode = .lockProperty)
      (hvalue : s.subparserMode = .lockProperty → s.isParsingPropertyData = false) :
      Turn { s with subparserMode := .none, operationNot := false }
  | fieldDocument (field : EntityField) (document : DocumentProperty) (lines : ℕ)
      (hempty : document.documentData = []) (hsub : s.subparserMode = .none)
      (hmode : s.parserMode = .fields) :
      Turn { s with
        currentEntityField := field, subparserMode := .document, currentDocument := some document
        itemsLeft := lines }
  | leaveDocument (lines : ℕ) (hsub : s.subparserMode = .document) :
      Turn { s with subparserMode := .none, currentDocument := none, itemsLeft := lines }
  | document (key : ByteString) (document : DocumentProperty) (lines : ℕ)
      (hempty : document.documentData = []) (hmode : s.TakesProperty)
      (hvalue : s.isParsingPropertyData = false) :
      Turn { s with
        currentProperty := key, currentDocument := some document, itemsLeft := lines }
  | line (document : DocumentProperty) (lines : ℕ) (hdocument : s.currentDocument.isSome = true) :
      Turn { s with currentDocument := some document, itemsLeft := lines }
  | set (key : ByteString) (items : ℕ) (hmode : s.TakesProperty)
      (hvalue : s.isParsingPropertyData = false) :
      Turn { s with currentProperty := key, currentSet := some (.set none []), itemsLeft := items }
  | item (set : PropertyData) (items : ℕ) (hmode : s.TakesProperty)
      (hset : s.currentSet.isSome = true) :
      Turn { s with currentSet := some set, itemsLeft := items }
  | endValue (lines : ℕ) (hmode : s.TakesProperty) (hvalue : s.isParsingPropertyData = true) :
      Turn { s with
        currentProperty := []
        currentDocument := none
        currentSet := if s.currentDocument.isSome then s.currentSet else none
        itemsLeft := lines }

/-- The line is a property of a type that is read from one line, and its value cannot be
converted. -/
def Unconvertible (input : ByteString) : Prop :=
  ∃ type key text,
    stringToPropertyDataType (toLowerCopy (getWord input).1) = some type ∧
      type ∈ [PropertyDataType.string, .integer, .float, .boolean] ∧
      getKeyValue (getWord input).2 = some (key, text) ∧
      d.createPropertyData (some type) text = none

/-- The line is a field that is to be set to a program, by its registration, and it cannot be. -/
def Unlinkable (input : ByteString) : Prop :=
  ∃ fieldWord value field,
    getKeyValue input = some (fieldWord, value) ∧
      stringToEntityField (toLowerCopy fieldWord) = some field ∧
      (field = .linkedPrograms ∨ field = .actionTargets) ∧ isVariable value = false ∧
      isProgRegName value = true ∧ (s.getProgReg d value).isDefault = false ∧
      (d.perform (.setEntityFieldId field (s.getProgReg d value)) s.db).1 = false

/-- What fails without an error. -/
def FailsSilently (input : ByteString) : Prop :=
  (s.TakesProperty ∧ s.isParsingPropertyData = false ∧ Unconvertible d input) ∨
    (s.subparserMode = .none ∧ s.parserMode = .fields ∧ Unlinkable d s input)

/-- Nothing is done but to the database, and to what is remembered of it; and all of it could be,
if the promise is made. -/
structure Works (promise : Prop) (s t : LineParsers γ) : Prop where
  parserMode : t.parserMode = s.parserMode
  subparserMode : t.subparserMode = s.subparserMode
  currentProperty : t.currentProperty = s.currentProperty
  currentEntityField : t.currentEntityField = s.currentEntityField
  currentDocument : t.currentDocument = s.currentDocument
  itemsLeft : t.itemsLeft = s.itemsLeft
  currentSetType : t.currentSetType = s.currentSetType
  currentSet : t.currentSet = s.currentSet
  operationNot : t.operationNot = s.operationNot
  attempts : ∃ new, t.attempts = s.attempts ++ new ∧ (promise → ∀ a ∈ new, a.2 = true)

/-- What a parser does: it reports an error, or changes the mode and works. -/
def Parsed (promise : Prop) (s t : LineParsers γ) : Prop :=
  t.error ≠ none ∨ ∃ s', Turn s s' ∧ Works promise s' t

variable {d s} {promise : Prop}

theorem Works.refl (s : LineParsers γ) : Works promise s s :=
  ⟨rfl, rfl, rfl, rfl, rfl, rfl, rfl, rfl, rfl, [], by simp⟩

/-- One thing has been attempted, and could be done. -/
theorem works_attempted (s : LineParsers γ) (db : DumpDatabase γ) (site : SiteIdType) (id : Id)
    (variableMap : List (ByteString × Id)) (a : Attempt) :
    Works promise s
      ({ s with
          db := db, currentSite := site, currentId := id, variableMap := variableMap }.attempted
        a true) :=
  ⟨rfl, rfl, rfl, rfl, rfl, rfl, rfl, rfl, rfl, [_], rfl, by simp⟩

variable {t : LineParsers γ}

/-- And so it is with something more that could be done. -/
theorem Works.attempted (h : Works promise s t) (db : DumpDatabase γ) (a : Attempt) :
    Works promise s ({ t with db := db }.attempted a true) := by
  obtain ⟨new, hnew, hdone⟩ := h.attempts
  refine ⟨h.parserMode, h.subparserMode, h.currentProperty, h.currentEntityField,
    h.currentDocument, h.itemsLeft, h.currentSetType, h.currentSet, h.operationNot,
    new ++ [(a, true)], ?_, ?_⟩
  · rw [← List.append_assoc, ← hnew]
    rfl
  · intro hpromise b hb
    rcases List.mem_append.mp hb with hb | hb
    · exact hdone hpromise b hb
    · rw [List.mem_singleton.mp hb]

theorem parsed_setError (s t : LineParsers γ) (cause : ByteString) :
    Parsed promise s (t.setError cause) := .inl (by simp [setError])

theorem Parsed.ite {c : Prop} [Decidable c] {u : LineParsers γ} (ht : Parsed promise s t)
    (hu : Parsed promise s u) : Parsed promise s (if c then t else u) := by
  split
  · exact ht
  · exact hu

theorem parsed_stay : Parsed promise s s := .inr ⟨s, .stay, .refl s⟩

/-- A function of the interface could be called, or that it could not is an error. -/
theorem parsed_demand {c : DumpCall} {cause : ByteString} {next : LineParsers γ → LineParsers γ}
    (h : ∀ db, Parsed promise s (next ({ t with db := db }.attempted (.call c) true))) :
    Parsed promise s (t.demand d c cause next) := by
  rcases hperform : d.perform c t.db with ⟨_ | _, db⟩
  · simp only [demand, hperform]
    exact parsed_setError s _ cause
  · simp only [demand, hperform]
    exact h db

/-- After a change of the mode that works. -/
theorem parsed_of_turn {s' : LineParsers γ} (h : Turn s s') (hworks : Works promise s' t) :
    Parsed promise s t := .inr ⟨s', h, hworks⟩

theorem parsed_withVariable {what reference : ByteString} {next : Id → LineParsers γ}
    (h : ∀ id, Parsed promise s (next id)) :
    Parsed promise s (s.withVariable what reference next) := by
  unfold withVariable
  split
  · exact parsed_setError s s _
  · split
    · exact parsed_setError s s _
    · exact h _

theorem parsed_parseEntity (input : ByteString) (hsub : s.subparserMode = .none)
    (hmode : s.parserMode = .entity) : Parsed promise s (s.parseEntity d input) := by
  unfold parseEntity
  generalize getWord input = words
  obtain ⟨word, rest⟩ := words
  have hstay : ∀ db c, Parsed promise s ({ s with db := db }.attempted (.call c) true) := by
    intro db c
    exact parsed_of_turn .stay (works_attempted s db _ _ _ _)
  dsimp only
  apply Parsed.ite
  · exact parsed_stay
  apply Parsed.ite
  · exact parsed_withVariable fun id => parsed_demand fun db => hstay db _
  apply Parsed.ite
  · apply Parsed.ite
    · exact parsed_setError s s _
    · exact parsed_demand fun db => hstay db _
  apply Parsed.ite
  · apply Parsed.ite
    · exact parsed_setError s s _
    · exact parsed_demand fun db => hstay db _
  apply Parsed.ite
  · refine parsed_demand fun db => ?_
    exact parsed_of_turn (.mode .entity .security (by simp) hsub hmode)
      (works_attempted _ db _ _ _ _)
  apply Parsed.ite
  · exact parsed_of_turn (.mode .entity .fields (by simp) hsub hmode) (.refl _)
  apply Parsed.ite
  · exact parsed_of_turn (.mode .entity .properties (by simp) hsub hmode) (.refl _)
  apply Parsed.ite
  · apply Parsed.ite
    · refine parsed_demand fun db => ?_
      exact parsed_of_turn (.mode .entity .none (by simp) hsub hmode)
        (works_attempted _ db _ _ _ _)
    · exact parsed_setError s s _
  · exact parsed_setError s s _

theorem parsed_makeSite (siteName : ByteString) :
    Parsed promise s (s.makeSite d siteName) := by
  rcases hmade : d.makeSite siteName s.currentSite s.db with ⟨⟨_ | _, site⟩, db⟩
  · simp only [makeSite, hmade]
    exact parsed_setError s _ _
  · simp only [makeSite, hmade]
    exact parsed_of_turn .stay (works_attempted s db site _ _ _)

theorem parsed_makeEntity (typeWord reference : ByteString) (hsub : s.subparserMode = .none)
    (hmode : s.parserMode = .none) : Parsed promise s (s.makeEntity d typeWord reference) := by
  have hentity : Turn s { s with parserMode := .entity } :=
    .mode .none .entity (by simp) hsub hmode
  rcases hmade : d.makeEntity (stringToEntityType (toLowerCopy typeWord)) s.db with ⟨id, db⟩
  simp only [makeEntity, hmade]
  cases hid : id.isDefault with
  | true => exact parsed_setError s _ _
  | false =>
    rw [if_neg Bool.false_ne_true]
    split
    · exact parsed_of_turn hentity (works_attempted _ db _ _ _ _)
    · unfold setVariable
      split
      · exact parsed_of_turn hentity (works_attempted _ db _ _ _ _)
      · exact parsed_setError s _ _

theorem parsed_parseNone (input : ByteString) (hsub : s.subparserMode = .none)
    (hmode : s.parserMode = .none) : Parsed promise s (s.parseNone d input) := by
  unfold parseNone
  generalize getWord input = words
  obtain ⟨word, rest⟩ := words
  have hselect : ∀ id, Parsed promise s
      (s.demand d (.setEntity id) (ascii "modentity: unable to set Entity ") fun s =>
        { s with parserMode := .entity }) := by
    intro id
    exact parsed_demand fun db => parsed_of_turn (.mode .none .entity (by simp) hsub hmode)
      (works_attempted _ db _ _ _ _)
  dsimp only
  apply Parsed.ite
  · exact parsed_makeSite rest
  apply Parsed.ite
  · exact parsed_demand fun db => parsed_of_turn .stay (works_attempted s db _ _ _ _)
  apply Parsed.ite
  · split
    · exact parsed_setError s _ _
    · refine parsed_demand fun db => parsed_of_turn .stay ?_
      exact ⟨rfl, rfl, rfl, rfl, rfl, rfl, rfl, rfl, rfl, [_, _], List.append_assoc _ _ _, by simp⟩
  apply Parsed.ite
  · exact parsed_makeEntity _ _ hsub hmode
  apply Parsed.ite
  · apply Parsed.ite
    · exact parsed_setError s _ _
    apply Parsed.ite
    · apply Parsed.ite
      · exact parsed_setError s _ _
      · exact hselect _
    apply Parsed.ite
    · apply Parsed.ite
      · exact parsed_setError s _ _
      · exact hselect _
    · exact parsed_setError s _ _
  apply Parsed.ite
  · apply Parsed.ite
    · exact parsed_demand fun db => parsed_of_turn .stay (works_attempted s db 0 _ _ _)
    · exact parsed_setError s _ _
  · exact parsed_setError s _ _

theorem parsed_parseSecurity (input : ByteString) (hsub : s.subparserMode = .none)
    (hmode : s.parserMode = .security) : Parsed promise s (s.parseSecurity d input) := by
  unfold parseSecurity
  generalize getWord input = words
  obtain ⟨word, rest⟩ := words
  have hstay : ∀ db c, Parsed promise s ({ s with db := db }.attempted (.call c) true) := by
    intro db c
    exact parsed_of_turn .stay (works_attempted s db _ _ _ _)
  dsimp only
  apply Parsed.ite
  · exact parsed_withVariable fun id => parsed_demand fun db => hstay db _
  apply Parsed.ite
  · exact parsed_withVariable fun id => parsed_demand fun db => hstay db _
  apply Parsed.ite
  · generalize getWord (toLowerCopy rest) = words
    obtain ⟨flagList, flagWord⟩ := words
    dsimp only
    apply Parsed.ite
    · exact parsed_setError s _ _
    apply Parsed.ite
    · exact parsed_demand fun db => hstay db _
    apply Parsed.ite
    · exact parsed_demand fun db => hstay db _
    · exact parsed_setError s _ _
  apply Parsed.ite
  · apply Parsed.ite
    · refine parsed_demand fun db => ?_
      exact parsed_of_turn (.leaveSecurity hsub hmode) (works_attempted _ db _ _ _ _)
    · exact parsed_setError s _ _
  · exact parsed_setError s _ _

/-! ### Values -/

/-- The line that is to begin a document. -/
theorem sharedDocumentParser_none (h : s.currentDocument = none) (input : ByteString) :
    (sharedDocumentParser d s input).1 = false ∧
      ((sharedDocumentParser d s input).2.error ≠ none ∨
        ∃ str document lines, document.documentData = [] ∧ (sharedDocumentParser d s input).2 =
          { s.attempted (.fromString str) true with
            itemsLeft := lines, currentDocument := some document }) := by
  unfold sharedDocumentParser
  split
  · generalize getWord input = words
    obtain ⟨word, rest⟩ := words
    dsimp only
    split
    · split
      · exact ⟨rfl, .inl (by simp [setError])⟩
      · refine ⟨rfl, .inr ⟨rest, _, _, ?_, rfl⟩⟩
        split
        · exact (DocumentProperty.new d.limits).documentData_setMaxLines _
        · rfl
    · exact ⟨rfl, .inl (by simp [setError])⟩
  · next hsome =>
    rw [h] at hsome
    cases hsome

theorem endValue_cases (s : LineParsers γ) (kind what input : ByteString) :
    s.endValue kind what input = (true, s) ∨
      (s.endValue kind what input).1 = false ∧ (s.endValue kind what input).2.error ≠ none := by
  unfold endValue
  generalize getWord (toLowerCopy input) = words
  obtain ⟨command, rest⟩ := words
  dsimp only
  split
  · split
    · exact .inl rfl
    · exact .inr ⟨rfl, by simp [setError]⟩
  · exact .inr ⟨rfl, by simp [setError]⟩

/-- A line within a document. -/
theorem sharedDocumentParser_some (h : s.currentDocument.isSome = true) (input : ByteString) :
    ((sharedDocumentParser d s input).1 = true ∧
        ∃ lines, (sharedDocumentParser d s input).2 = { s with itemsLeft := lines }) ∨
      (sharedDocumentParser d s input).1 = false ∧
        ((sharedDocumentParser d s input).2.error ≠ none ∨
          ∃ document lines, (sharedDocumentParser d s input).2 =
            { s.attempted (.appendLine input) true with
              currentDocument := some document, itemsLeft := lines }) := by
  unfold sharedDocumentParser
  split
  · next hnone =>
    rw [hnone] at h
    cases h
  · split
    · split
      · exact .inl ⟨rfl, 0, rfl⟩
      · split
        · exact .inr ⟨rfl, .inr ⟨_, _, rfl⟩⟩
        · exact .inr ⟨rfl, .inl (by simp [setError])⟩
    · rcases endValue_cases s (ascii "document") (ascii "lines") input with hend | hend
      · exact .inl ⟨congrArg Prod.fst hend, s.itemsLeft, congrArg Prod.snd hend⟩
      · exact .inr ⟨hend.1, .inl hend.2⟩

/-- The line that is to begin a set. -/
theorem sharedSetParser_none (h : s.currentSet = none) (type : Option PropertyDataType)
    (input : ByteString) :
    (sharedSetParser d s type input).1 = false ∧
      ((sharedSetParser d s type input).2.error ≠ none ∨
        ∃ str items, (sharedSetParser d s type input).2 =
          { s.attempted (.fromString str) true with
            itemsLeft := items, currentSet := some (.set none []) }) := by
  unfold sharedSetParser
  split
  · generalize getWord input = words
    obtain ⟨word, rest⟩ := words
    dsimp only
    split
    · split
      · exact ⟨rfl, .inl (by simp [setError])⟩
      · exact ⟨rfl, .inr ⟨rest, _, rfl⟩⟩
    · exact ⟨rfl, .inl (by simp [setError])⟩
  · next hsome =>
    rw [h] at hsome
    cases hsome

/-- A line within a set. -/
theorem sharedSetParser_some (h : s.currentSet.isSome = true) (type : Option PropertyDataType)
    (input : ByteString) :
    sharedSetParser d s type input = (true, s) ∨
      (sharedSetParser d s type input).1 = false ∧
        ((sharedSetParser d s type input).2.error ≠ none ∨
          ∃ data a set items, (sharedSetParser d s type input).2 =
            { (s.attempted data true).attempted a true with
              currentSet := some set, itemsLeft := items }) := by
  unfold sharedSetParser
  split
  · next hnone =>
    rw [hnone] at h
    cases h
  · split
    · refine .inr ⟨rfl, ?_⟩
      unfold addItem
      split
      · exact .inl (by simp [setError])
      · split
        · exact .inr ⟨_, _, _, _, rfl⟩
        · exact .inl (by simp [setError])
    · rcases endValue_cases s (ascii "set") (ascii "items") input with hend | hend
      · exact .inl hend
      · exact .inr ⟨hend.1, .inl hend.2⟩

/-- The parser of properties, in a mode for them: it is not finished, or it works. -/
def PropertyParsed (promise : Prop) (s : LineParsers γ)
    (r : Option (ByteString × PropertyData) × LineParsers γ) : Prop :=
  (r.1 = none ∧ Parsed promise s r.2) ∨ ∃ s', Turn s s' ∧ Works promise s' r.2

theorem propertyParsed_parseFirst (hmode : s.TakesProperty)
    (hvalue : s.isParsingPropertyData = false) (input : ByteString) :
    PropertyParsed (¬ Unconvertible d input) s (parseFirst d s input) := by
  obtain ⟨hdocument, hset⟩ : s.currentDocument = none ∧ s.currentSet = none := by
    simpa [isParsingPropertyData] using hvalue
  have herror : ∀ cause, PropertyParsed (¬ Unconvertible d input) s (none, s.setError cause) :=
    fun cause => .inl ⟨rfl, parsed_setError s s cause⟩
  unfold parseFirst
  rcases hwords : getWord input with ⟨word, rest⟩
  dsimp only
  split
  · exact herror _
  · split
    · exact herror _
    · next key value _ =>
      obtain ⟨-, h | ⟨str, document, lines, hempty, h⟩⟩ :=
        sharedDocumentParser_none (d := d) (s := { s with currentProperty := key }) hdocument value
      · exact .inl ⟨rfl, .inl h⟩
      · refine .inl ⟨rfl, parsed_of_turn (.document key document lines hempty hmode hvalue) ?_⟩
        rw [h]
        exact ⟨rfl, rfl, rfl, rfl, rfl, rfl, rfl, rfl, rfl, [_], rfl, by simp⟩
  · split
    · exact herror _
    split
    · exact herror _
    split
    · exact herror _
    · exact .inr ⟨s, .stay, .refl s⟩
  · generalize getWord rest = words
    obtain ⟨setTypeWord, rest⟩ := words
    dsimp only
    split
    · exact herror _
    split
    · exact herror _
    · next key value _ =>
      obtain ⟨-, h | ⟨str, items, h⟩⟩ :=
        sharedSetParser_none (d := d) (s := { s with currentProperty := key }) hset
          (stringToPropertyDataType (toLowerCopy setTypeWord)) value
      · exact .inl ⟨rfl, .inl h⟩
      · refine .inl ⟨rfl, parsed_of_turn (.set key items hmode hvalue) ?_⟩
        rw [h]
        exact ⟨rfl, rfl, rfl, rfl, rfl, rfl, rfl, rfl, rfl, [_], rfl, by simp⟩
  · next type hdoc hid hset' htype =>
    unfold parseSimple
    split
    · exact herror _
    · next key text hkey =>
      split
      · exact .inr ⟨s, .stay, works_attempted s s.db _ _ _ _⟩
      · next hnone =>
        refine .inl ⟨rfl, parsed_of_turn .stay ?_⟩
        refine ⟨rfl, rfl, rfl, rfl, rfl, rfl, rfl, rfl, rfl, [_], rfl, fun hpromise => ?_⟩
        refine absurd ⟨type, key, text, ?_, ?_, ?_, hnone⟩ hpromise
        · rw [hwords]
          exact htype
        · cases type <;> simp_all
        · rw [hwords]
          exact hkey

theorem propertyParsed_sharedPropertyParser (hmode : s.TakesProperty) (input : ByteString) :
    PropertyParsed (¬ (s.isParsingPropertyData = false ∧ Unconvertible d input)) s
      (sharedPropertyParser d s input) := by
  unfold sharedPropertyParser
  split
  · next hdocument =>
    have hsome : s.currentDocument.isSome = true := by rw [hdocument]; rfl
    have hvalue : s.isParsingPropertyData = true := by rw [isParsingPropertyData, hsome]; rfl
    rcases hparser : sharedDocumentParser d s input with ⟨_ | _, t⟩
    · have h := sharedDocumentParser_some (d := d) hsome input
      rw [hparser] at h
      obtain ⟨h, -⟩ | ⟨-, h | ⟨document, lines, h⟩⟩ := h
      · cases h
      · exact .inl ⟨rfl, .inl h⟩
      · obtain rfl := h
        exact .inl ⟨rfl, parsed_of_turn (.line document lines hsome)
          ⟨rfl, rfl, rfl, rfl, rfl, rfl, rfl, rfl, rfl, [_], rfl, by simp⟩⟩
    · have h := sharedDocumentParser_some (d := d) hsome input
      rw [hparser] at h
      obtain ⟨-, lines, h⟩ | ⟨h, -⟩ := h
      · obtain rfl := h
        refine .inr ⟨_, .endValue lines hmode hvalue, ?_⟩
        exact ⟨rfl, rfl, rfl, rfl, rfl, rfl, rfl, by simp [hsome], rfl, [], by simp⟩
      · cases h
  · next set hdocument hset =>
    have hvalue : s.isParsingPropertyData = true := by
      rw [isParsingPropertyData, hdocument, hset]
      rfl
    have hsome : s.currentSet.isSome = true := by rw [hset]; rfl
    rcases sharedSetParser_some (d := d) hsome s.currentSetType input with h | ⟨hfalse, h⟩
    · rw [h]
      refine .inr ⟨_, .endValue s.itemsLeft hmode hvalue, ?_⟩
      exact ⟨rfl, rfl, rfl, rfl, by simp [hdocument], rfl, rfl, by simp [hdocument], rfl, [],
        by simp⟩
    · rcases hparser : sharedSetParser d s s.currentSetType input with ⟨_ | _, t⟩
      · rw [hparser] at h
        obtain h | ⟨data, a, set, items, h⟩ := h
        · exact .inl ⟨rfl, .inl h⟩
        · obtain rfl := h
          refine .inl ⟨rfl, parsed_of_turn (.item set items hmode hsome) ?_⟩
          exact ⟨rfl, rfl, rfl, rfl, rfl, rfl, rfl, rfl, rfl, [_, _], List.append_assoc _ _ _,
            by simp⟩
      · rw [hparser] at hfalse
        cases hfalse
  · next hdocument hset =>
    have hvalue : s.isParsingPropertyData = false := by
      rw [isParsingPropertyData, hdocument, hset]
      rfl
    simpa [hvalue] using propertyParsed_parseFirst (d := d) hmode hvalue input

/-! ### The other modes -/

theorem parsed_endLock (kind rest : ByteString)
    (hsub : s.subparserMode = .lockId ∨ s.subparserMode = .lockProperty)
    (hvalue : s.subparserMode = .lockProperty → s.isParsingPropertyData = false) :
    Parsed promise s (s.endLock kind rest) := by
  unfold endLock
  split
  · exact parsed_setError s s _
  · exact parsed_of_turn (.leaveLock hsub hvalue) (.refl _)

theorem parsed_subparseLockId (input : ByteString) (hsub : s.subparserMode = .lockId) :
    Parsed promise s (s.subparseLockId input) := by
  unfold subparseLockId
  split
  · dsimp only
    split
    · exact parsed_setError s s _
    · split
      · next hresult =>
        rw [hresult]
        exact parsed_of_turn .stay (works_attempted s _ _ _ _ _)
      · exact parsed_setError s _ _
  · generalize getWord input = words
    obtain ⟨command, rest⟩ := words
    dsimp only
    split
    · exact parsed_setError s s _
    · refine parsed_endLock _ rest (.inl hsub) ?_
      rw [hsub]
      nofun

theorem PropertyParsed.unfinished (h : PropertyParsed promise s (none, t)) :
    Parsed promise s t := by
  obtain ⟨-, h⟩ | ⟨s', hturn, hworks⟩ := h
  · exact h
  · exact parsed_of_turn hturn hworks

/-- What is done with a property that is finished. -/
theorem PropertyParsed.finished {property : ByteString × PropertyData}
    (h : PropertyParsed promise s (some property, t)) : ∃ s', Turn s s' ∧ Works promise s' t := by
  obtain ⟨h, -⟩ | h := h
  · cases h
  · exact h

theorem parsed_subparseLockProperty (input : ByteString) (hsub : s.subparserMode = .lockProperty) :
    Parsed (¬ (s.isParsingPropertyData = false ∧ Unconvertible d input)) s
      (s.subparseLockProperty d input) := by
  have hparsed := propertyParsed_sharedPropertyParser (d := d) (.inl hsub) input
  unfold subparseLockProperty
  generalize getWord input = words
  obtain ⟨command, rest⟩ := words
  rcases hparser : sharedPropertyParser d s input with ⟨_ | ⟨key, value⟩, t⟩
  · rw [hparser] at hparsed
    dsimp only
    split
    · next hend => exact parsed_endLock _ _ (.inr hsub) fun _ => by simpa using hend.1
    · exact hparsed.unfinished
  · rw [hparser] at hparsed
    obtain ⟨s', hturn, hworks⟩ := hparsed.finished
    dsimp only
    split
    · next hend => exact parsed_endLock _ _ (.inr hsub) fun _ => by simpa using hend.1
    · unfold useLockProperty
      dsimp only
      split
      · next hresult =>
        rw [hresult]
        exact parsed_of_turn hturn (hworks.attempted _ _)
      · exact parsed_setError s _ _

theorem parsed_parseProperties (input : ByteString) (hsub : s.subparserMode = .none)
    (hmode : s.parserMode = .properties) :
    Parsed (¬ (s.isParsingPropertyData = false ∧ Unconvertible d input)) s
      (s.parseProperties d input) := by
  have hparsed := propertyParsed_sharedPropertyParser (d := d) (.inr ⟨hsub, hmode⟩) input
  unfold parseProperties
  rcases getWord input with ⟨word, rest⟩
  dsimp only
  split
  · next hvalue =>
    generalize getWord rest = words
    obtain ⟨application, owner⟩ := words
    dsimp only
    split
    · exact parsed_setError s s _
    split
    · exact parsed_setError s s _
    · refine parsed_demand fun db => parsed_demand fun db' => ?_
      refine parsed_of_turn (.security application hsub hmode (by simpa using hvalue.1)) ?_
      exact ⟨rfl, rfl, rfl, rfl, rfl, rfl, rfl, rfl, rfl, [_, _], List.append_assoc _ _ _, by simp⟩
  split
  · next hvalue =>
    split
    · exact parsed_of_turn (.leaveProperties hsub hmode (by simpa using hvalue.1)) (.refl _)
    · exact parsed_setError s s _
  · rcases hparser : sharedPropertyParser d s input with ⟨_ | ⟨key, value⟩, t⟩
    · rw [hparser] at hparsed
      exact hparsed.unfinished
    · rw [hparser] at hparsed
      obtain ⟨s', hturn, hworks⟩ := hparsed.finished
      exact parsed_demand fun db => parsed_of_turn hturn (hworks.attempted db _)

theorem parsed_subparseLock (input : ByteString)
    (h : ∀ kind isNot, kind = .lockId ∨ kind = .lockProperty →
      Turn s { t with subparserMode := kind, operationNot := isNot }) :
    Parsed promise s (t.subparseLock input) := by
  unfold subparseLock
  dsimp only
  split
  · exact parsed_of_turn (h .lockId false (.inl rfl)) (.refl _)
  split
  · exact parsed_of_turn (h .lockId true (.inl rfl)) (.refl _)
  split
  · exact parsed_of_turn (h .lockProperty false (.inr rfl)) (.refl _)
  split
  · exact parsed_of_turn (h .lockProperty true (.inr rfl)) (.refl _)
  · exact parsed_setError s t _

/-- A finished document is stored on a field or in a property, and is gone. -/
theorem parsed_closeDocument {c : DumpCall} {cause : ByteString}
    (hturn : Turn s { t with subparserMode := .none, currentDocument := none }) :
    Parsed promise s
      { t.demand d c cause id with subparserMode := .none, currentDocument := none } := by
  rcases hperform : d.perform c t.db with ⟨_ | _, db⟩
  · refine .inl ?_
    simp [demand, hperform, setError]
  · simp only [demand, hperform]
    exact parsed_of_turn hturn (works_attempted _ db _ _ _ _)

/-- Where there is a document already. -/
theorem parsed_subparseDocument (input : ByteString) (hsub : s.subparserMode = .document)
    (hdocument : s.currentDocument.isSome = true) :
    Parsed promise s (s.subparseDocument d input) := by
  have h := sharedDocumentParser_some (d := d) hdocument input
  unfold subparseDocument
  rcases hparser : sharedDocumentParser d s input with ⟨_ | _, t⟩
  · rw [hparser] at h
    obtain ⟨h, -⟩ | ⟨-, h | ⟨document, lines, h⟩⟩ := h
    · cases h
    · exact .inl h
    · obtain rfl := h
      exact parsed_of_turn (.line document lines hdocument)
        ⟨rfl, rfl, rfl, rfl, rfl, rfl, rfl, rfl, rfl, [_], rfl, by simp⟩
  · rw [hparser] at h
    obtain ⟨-, lines, h⟩ | ⟨h, -⟩ := h
    · have hturn : Turn s { t with subparserMode := .none, currentDocument := none } := by
        obtain rfl := h
        exact .leaveDocument lines hsub
      dsimp only
      split
      · exact parsed_of_turn hturn (.refl _)
      · split
        · exact parsed_closeDocument hturn
        · exact parsed_closeDocument hturn
    · cases h

theorem parsed_parseIdField (field : EntityField) (value : ByteString) {s' : LineParsers γ}
    (hturn : Turn s s')
    (hlinked : promise → ¬ ((field = .linkedPrograms ∨ field = .actionTargets) ∧
      isVariable value = false ∧ isProgRegName value = true ∧
      (s'.getProgReg d value).isDefault = false ∧
      (d.perform (.setEntityFieldId field (s'.getProgReg d value)) s'.db).1 = false)) :
    Parsed promise s (s'.parseIdField d field value) := by
  unfold parseIdField
  split
  · split
    · exact parsed_setError s s' _
    · exact parsed_demand fun db => parsed_of_turn hturn (works_attempted s' db _ _ _ _)
  next hvariable =>
  split
  next hreg =>
    split
    next hfield =>
      dsimp only
      split
      · exact parsed_setError s s' _
      next hid =>
        refine parsed_of_turn hturn ?_
        refine ⟨rfl, rfl, rfl, rfl, rfl, rfl, rfl, rfl, rfl, [_], rfl, fun hpromise => ?_⟩
        have hok := hlinked hpromise
        cases hresult : (d.perform (.setEntityFieldId field (s'.getProgReg d value)) s'.db).1 with
        | true => simp
        | false =>
          exact absurd ⟨hfield, by simpa using hvariable, hreg, by simpa using hid, hresult⟩ hok
    · exact parsed_setError s s' _
  · exact parsed_setError s s' _

theorem parsed_parseFields (input : ByteString) (hsub : s.subparserMode = .none)
    (hmode : s.parserMode = .fields) (hdocument : s.currentDocument = none) :
    Parsed (¬ Unlinkable d s input) s (s.parseFields d input) := by
  unfold parseFields
  split
  · generalize getWord (toLowerCopy input) = words
    obtain ⟨command, rest⟩ := words
    dsimp only
    split
    · exact parsed_of_turn (.mode .fields .entity (by simp) hsub hmode) (.refl _)
    · exact parsed_setError s s _
  next fieldWord value hkey =>
  dsimp only
  split
  · exact parsed_setError s s _
  · exact parsed_setError s s _
  next field _ hfield =>
  have hturn : Turn s { s with currentEntityField := field } := .field field hsub hmode
  have hid : Parsed (¬ Unlinkable d s input) s
      (parseIdField d { s with currentEntityField := field } field value) := by
    refine parsed_parseIdField field value hturn ?_
    intro hpromise hunlinkable
    exact hpromise ⟨fieldWord, value, field, hkey, hfield, hunlinkable⟩
  split
  · exact parsed_demand fun db => parsed_of_turn hturn (works_attempted _ db _ _ _ _)
  · exact parsed_demand fun db => parsed_of_turn hturn (works_attempted _ db _ _ _ _)
  · exact hid
  · exact hid
  · have h := sharedDocumentParser_none (d := d)
      (s := { s with currentEntityField := field, subparserMode := .document }) hdocument value
    unfold subparseDocument
    rcases hparser : sharedDocumentParser d
      { s with currentEntityField := field, subparserMode := .document } value with ⟨_ | _, t⟩
    · rw [hparser] at h
      obtain ⟨-, h | ⟨str, document, lines, hempty, h⟩⟩ := h
      · exact .inl h
      · refine parsed_of_turn (.fieldDocument field document lines hempty hsub hmode) ?_
        rw [show t = _ from h]
        exact ⟨rfl, rfl, rfl, rfl, rfl, rfl, rfl, rfl, rfl, [_], rfl, by simp⟩
    · rw [hparser] at h
      cases h.1
  · exact parsed_subparseLock (t := { s with currentEntityField := field, subparserMode := .lock })
      value fun kind isNot hkind => .lock field kind isNot hkind hmode hsub
  · exact parsed_setError s _ _

/-! ### The invariant -/

/-- A mode in which lines can belong to a document. -/
def TakesDocument (s : LineParsers γ) : Prop := s.subparserMode = .document ∨ s.TakesProperty

/-- What the mode says about the rest. -/
structure WellFormed (s : LineParsers γ) : Prop where
  setType : s.currentSetType = none
  lock : s.subparserMode ≠ .lock
  fields : s.subparserMode ≠ .none → s.parserMode = .fields
  document : s.currentDocument.isSome = true → s.TakesDocument ∧ s.currentSet = none
  inDocument : s.subparserMode = .document → s.currentDocument.isSome = true
  set : s.currentSet.isSome = true → s.TakesProperty
  property : s.isParsingPropertyData = false ∨ s.subparserMode = .document →
    s.parserMode ≠ .properties → s.parserMode ≠ .security → s.currentProperty = []

/-- **What a line can do**: report an error, or change the mode and work; and all that it attempts
could be done, if it does not fail silently. -/
theorem parse_cases (h : s.WellFormed) (input : ByteString) :
    Parsed (¬ FailsSilently d s input) s (s.parse d input) := by
  have hweaken : ∀ {promise : Prop} {t : LineParsers γ},
      (¬ FailsSilently d s input → promise) → Parsed promise s t →
      Parsed (¬ FailsSilently d s input) s t := by
    rintro promise t himp (herror | ⟨s', hturn, hworks⟩)
    · exact .inl herror
    · obtain ⟨new, hnew, hdone⟩ := hworks.attempts
      exact .inr ⟨s', hturn, { hworks with attempts := ⟨new, hnew, fun hp => hdone (himp hp)⟩ }⟩
  unfold parse
  split
  next hsub => exact absurd hsub h.lock
  next hsub => exact parsed_subparseLockId input hsub
  next hsub =>
    refine hweaken ?_ (parsed_subparseLockProperty input hsub)
    intro hloud hsilent
    exact hloud (.inl ⟨.inl hsub, hsilent⟩)
  next hsub => exact parsed_subparseDocument input hsub (h.inDocument hsub)
  next hsub hmode => exact parsed_parseNone input hsub hmode
  next hsub hmode => exact parsed_parseEntity input hsub hmode
  next hsub hmode => exact parsed_parseSecurity input hsub hmode
  next hsub hmode =>
    have hdocument : s.currentDocument = none := by
      by_contra hsome
      have htakes := (h.document (Option.isSome_iff_ne_none.mpr hsome)).1
      simp [TakesDocument, TakesProperty, hsub, hmode] at htakes
    refine hweaken ?_ (parsed_parseFields input hsub hmode hdocument)
    intro hloud hsilent
    exact hloud (.inr ⟨hsub, hmode, hsilent⟩)
  next hsub hmode =>
    refine hweaken ?_ (parsed_parseProperties input hsub hmode)
    intro hloud hsilent
    exact hloud (.inl ⟨.inr ⟨hsub, hmode⟩, hsilent⟩)

section Turns

variable {s' : LineParsers γ}

theorem WellFormed.turn_lock (h : s.WellFormed) (hturn : Turn s s') : s'.subparserMode ≠ .lock := by
  cases hturn with
  | lock field kind isNot hkind => rcases hkind with rfl | rfl <;> nofun
  | lockKind kind isNot hkind => rcases hkind with rfl | rfl <;> nofun
  | leaveLock => nofun
  | fieldDocument => nofun
  | leaveDocument => nofun
  | _ => exact h.lock

theorem WellFormed.turn_fields (h : s.WellFormed) (hturn : Turn s s') :
    s'.subparserMode ≠ .none → s'.parserMode = .fields := by
  cases hturn with
  | mode before after hmodes hsub => exact fun hne => absurd hsub hne
  | leaveSecurity hsub => exact fun hne => absurd hsub hne
  | leaveProperties hsub => exact fun hne => absurd hsub hne
  | security application hsub => exact fun hne => absurd hsub hne
  | lock field kind isNot hkind hmode => exact fun _ => hmode
  | lockKind kind isNot hkind hsub => exact absurd hsub h.lock
  | leaveLock => exact fun hne => absurd rfl hne
  | fieldDocument field document lines hempty hsub hmode => exact fun _ => hmode
  | leaveDocument => exact fun hne => absurd rfl hne
  | _ => exact h.fields

/-- In a mode that takes no property and no document there is no value. -/
theorem WellFormed.no_value (h : s.WellFormed) (hsub : s.subparserMode = .none)
    (hmode : s.parserMode ≠ .properties) : s.currentDocument = none ∧ s.currentSet = none := by
  have hproperty : ¬ s.TakesProperty := by
    rintro (hlock | ⟨-, hproperties⟩)
    · rw [hsub] at hlock
      cases hlock
    · exact hmode hproperties
  constructor
  · by_contra hsome
    rcases (h.document (Option.isSome_iff_ne_none.mpr hsome)).1 with hdocument | htakes
    · rw [hsub] at hdocument
      cases hdocument
    · exact hproperty htakes
  · by_contra hsome
    exact hproperty (h.set (Option.isSome_iff_ne_none.mpr hsome))

theorem isParsingPropertyData_eq_false_iff (s : LineParsers γ) : s.isParsingPropertyData = false ↔
    s.currentDocument = none ∧ s.currentSet = none := by
  rw [isParsingPropertyData, Bool.or_eq_false_iff, Option.isSome_eq_false_iff,
    Option.isSome_eq_false_iff, Option.isNone_iff_eq_none, Option.isNone_iff_eq_none]

section

variable (h : s.WellFormed) (hturn : Turn s s')
include h hturn

theorem WellFormed.turn_document :
    s'.currentDocument.isSome = true → s'.TakesDocument ∧ s'.currentSet = none := by
  have hdocument := h.document
  have hnone := h.no_value
  have hlock := h.lock
  clear h
  cases hturn <;> grind [TakesDocument, TakesProperty, isParsingPropertyData_eq_false_iff]

theorem WellFormed.turn_inDocument :
    s'.subparserMode = .document → s'.currentDocument.isSome = true := by
  have hin := h.inDocument
  clear h
  cases hturn <;> grind [TakesProperty]

theorem WellFormed.turn_set : s'.currentSet.isSome = true → s'.TakesProperty := by
  have hset := h.set
  have hdocument := h.document
  have hnone := h.no_value
  have hlock := h.lock
  have hin := h.inDocument
  clear h
  cases hturn <;> grind [TakesDocument, TakesProperty, isParsingPropertyData_eq_false_iff]

theorem WellFormed.turn_property :
    s'.isParsingPropertyData = false ∨ s'.subparserMode = .document →
    s'.parserMode ≠ .properties → s'.parserMode ≠ .security → s'.currentProperty = [] := by
  have hproperty := h.property
  have hnone := h.no_value
  have hlock := h.lock
  have hin := h.inDocument
  have hset := h.set
  clear h
  cases hturn <;> grind [TakesDocument, TakesProperty, isParsingPropertyData_eq_false_iff]

/-- A change of mode keeps the parsers well-formed. -/
theorem WellFormed.turn : s'.WellFormed where
  setType := by cases hturn <;> exact h.setType
  lock := h.turn_lock hturn
  fields := h.turn_fields hturn
  document := h.turn_document hturn
  inDocument := h.turn_inDocument hturn
  set := h.turn_set hturn
  property := h.turn_property hturn

end

end Turns

theorem WellFormed.works (h : s.WellFormed) (hworks : Works promise s t) : t.WellFormed := by
  obtain ⟨hparser, hsub, hproperty, -, hdocument, -, htype, hset, -, -⟩ := hworks
  obtain ⟨h1, h2, h3, h4, h5, h6, h7⟩ := h
  constructor <;>
    simpa only [TakesDocument, TakesProperty, isParsingPropertyData, hparser, hsub, hproperty,
      hdocument, htype, hset]

/-- A line keeps the parsers well-formed, if it is not an error. -/
theorem WellFormed.parse (h : s.WellFormed) (d : DumpReaderInterface γ) (input : ByteString)
    (herror : (s.parse d input).error = none) : (s.parse d input).WellFormed := by
  obtain herror' | ⟨s', hturn, hworks⟩ := parse_cases (d := d) h input
  · exact absurd herror herror'
  · exact (h.turn hturn).works hworks

theorem wellFormed_new (db : DumpDatabase γ) : (new db).WellFormed := by
  constructor <;> simp [new, isParsingPropertyData]

/-- The states that lines lead to, without an error. -/
def ReachedFrom (d : DumpReaderInterface γ) (db : DumpDatabase γ) (s : LineParsers γ) : Prop :=
  Reachable (fun s input => some (parse d s input)) (fun s input => (parse d s input).error = none)
    (new db) s

/-- **The parsers are well-formed as long as there is no error.** -/
theorem wellFormed_of_reachedFrom {db : DumpDatabase γ} (h : ReachedFrom d db s) :
    s.WellFormed ∧ s.error = none := by
  refine h.invariant (I := fun s => s.WellFormed ∧ s.error = none) ⟨wellFormed_new db, rfl⟩ ?_
  intro s input s' hs herror hparse
  obtain rfl := Option.some.inj hparse
  exact ⟨hs.1.parse d input herror, herror⟩

end LineParsers

end Mutgos.DbDump
