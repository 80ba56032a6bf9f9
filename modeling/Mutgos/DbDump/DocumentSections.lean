import Mutgos.DbDump.HandedLines
import Mutgos.DbDump.LockSections

/-!
# Documents in a dump

The lines of a document should be kept as they are, whatever they say.  But some of what is asked
of every line is asked of them as well: an empty line is left out, a line may name a file or end the
dump, and then something else is read in its place.

## Main results

* `storesDocument_iff` — **when a document is stored as it is written.**
-/

namespace Mutgos.DbDump

open DbTypes Text LineParsers DumpSetting DocumentProperty List

variable {γ : Type*}

/-- What a document in a dump is for. -/
inductive Destination where
  | entityField (field : EntityField)
  | property (key : ByteString)
  | lock (field : EntityField) (key : ByteString) (isNot : Bool)

namespace Destination

/-- What is done with the document. -/
def attempt (document : DocumentProperty) : Destination → Attempt
  | entityField field => .call (.setEntityFieldDocument field document)
  | property key => .call (.setProp key (.document document))
  | lock field key isNot => .setEntityLockFieldByProperty field key (.document document) isNot

/-- Whether it can be done, and what the database is then. -/
def store (d : DumpReaderInterface γ) (document : DocumentProperty) (db : DumpDatabase γ) :
    Destination → Bool × DumpDatabase γ
  | entityField field => d.perform (.setEntityFieldDocument field document) db
  | property key => d.perform (.setProp key (.document document)) db
  | lock field key isNot => db.setEntityLockFieldByProperty field key (.document document) isNot

/-- The document is where it belongs.  What the interface does with a document that it has been
given for a field or a property is its own business. -/
def Holds (document : DocumentProperty) (db : DumpDatabase γ) : Destination → Prop
  | lock field key isNot =>
    db.currentLock field =
      some (Lock.lockByProperty .unlocked key (.document document) isNot).2.copy
  | _ => True

/-- It is not a lock that could be set. -/
def NoLock (db : DumpDatabase γ) : Destination → Prop
  | lock field key _ => key = [] ∨ db.currentLock field = none
  | _ => True

/-- The mode in which a document for this is read. -/
def Receives (s : LineParsers γ) : Destination → Prop
  | entityField field =>
    s.subparserMode = .document ∧ s.currentProperty = [] ∧ s.currentEntityField = field
  | property key =>
    s.subparserMode = .none ∧ s.parserMode = .properties ∧ s.currentProperty = key
  | lock field key isNot =>
    s.subparserMode = .lockProperty ∧ s.currentEntityField = field ∧ s.currentProperty = key ∧
      s.operationNot = isNot

/-- The first line of a document with so many lines. -/
def Begins (s : LineParsers γ) (n : ℕ) (line : ByteString) : Destination → Prop
  | entityField field =>
    s.subparserMode = .none ∧ s.parserMode = .fields ∧
      ∃ fieldWord count, getKeyValue line = some (fieldWord, count) ∧
        stringToEntityField (toLowerCopy fieldWord) = some field ∧
        whichSetFieldMethod field = .document ∧ Counts (ascii "lines") count n
  | property key =>
    s.subparserMode = .none ∧ s.parserMode = .properties ∧ typeOf line = some .document ∧
      ∃ count, getKeyValue (getWord line).2 = some (key, count) ∧
        Counts (ascii "lines") count n
  | lock field key isNot =>
    s.subparserMode = .lockProperty ∧ s.currentEntityField = field ∧ s.operationNot = isNot ∧
      typeOf line = some .document ∧
      ∃ count, getKeyValue (getWord line).2 = some (key, count) ∧
        Counts (ascii "lines") count n

/-- The field there is when the document is begun. -/
def fieldOf (s : LineParsers γ) : Destination → EntityField
  | entityField field => field
  | _ => s.currentEntityField

/-- A document with nothing in it yet. -/
def begun (limits : DbLimits) (s : LineParsers γ) (dest : Destination) : DocumentProperty :=
  if dest.fieldOf s = .programSourceCode then
    (new limits).setMaxLines limits.limitsProgramLines
  else new limits

/-- The mode in which its first line is read. -/
def mode : Destination → SubParserMode
  | lock _ _ _ => .lockProperty
  | _ => .none

end Destination

/-- The lines of a section: the first one, those of the document, and the one that closes it. -/
structure DocumentText (s : LineParsers γ) (dest : Destination) (n : ℕ) (header : ByteString)
    (lines : List ByteString) (closing : ByteString) : Prop where
  /-- Nothing else is being read. -/
  free : s.isParsingPropertyData = false
  begins : dest.Begins s n (trimCopy header)
  headerValid : utf8Valid header = true
  inside : ∀ line ∈ lines, lineFeed ∉ line ∧ line ≠ ascii ".end"
  closes : (n = lines.length ∧ EndsValue (ascii "lines") closing) ∨
    (lines.length ≤ n ∧ closing = ascii ".end")
  closingValid : utf8Valid closing = true

/-- What comes after the last line of a section in a file, and the files that are then to be
read. -/
inductive FollowedBy (breaks : Bool) (files : List FileStream) :
    ByteString → List FileStream → Prop
  | line (rest : ByteString) :
      FollowedBy breaks files (lineFeed :: rest) (⟨rest, breaks, false, false⟩ :: files)
  /-- It is the last line of a file that another has named. -/
  | file (hbreaks : breaks = false) (hfiles : files ≠ []) : FollowedBy breaks files [] files

/-- The parsers, and the files there are. -/
def DumpReaderInterface.setting (d : DumpReaderInterface γ) (baseFilePath : ByteString)
    (files : ByteString → Option DumpFile) : DumpSetting (LineParsers γ) :=
  { d.parsers with baseFilePath := baseFilePath, files := files }

/-- A document is handed over with the line that closes it, and this is an error or all is as it
was before the section. -/
structure Handed (d : DumpReaderInterface γ) (dest : Destination) (document : DocumentProperty)
    (r before after : DumpFileReader (LineParsers γ)) (files : List FileStream) : Prop where
  reading : before.parsers.currentDocument = some document ∧ before.errorCondition = false
  attempts : after.parsers.attempts =
    before.parsers.attempts ++ [(dest.attempt document, (dest.store d document r.parsers.db).1)]
  db : after.parsers.db = (dest.store d document r.parsers.db).2
  refused : (dest.store d document r.parsers.db).1 = false → after.errorCondition = true
  stored : (dest.store d document r.parsers.db).1 = true →
    dest.Holds document after.parsers.db ∧ after.Running ∧ after.fileStack = files ∧
      after.parsers.parserMode = r.parsers.parserMode ∧
      after.parsers.subparserMode = r.parsers.subparserMode ∧
      after.parsers.isParsingPropertyData = false

/-- **The document has exactly the lines of the section, and is stored**: reading the first line
and the lines is so many iterations, and the one after them stores it. -/
def StoresDocument (d : DumpReaderInterface γ) (e : DumpSetting (LineParsers γ))
    (dest : Destination) (r : DumpFileReader (LineParsers γ)) (lines : List ByteString)
    (files : List FileStream) : Prop :=
  ∃ document : DocumentProperty, document.documentData = lines ∧
    Handed d dest document r (e.iteration^[lines.length + 1] r) (e.iteration^[lines.length + 2] r)
      files

/-- A line that is handed to the parsers within a document. -/
structure Plain (line : ByteString) : Prop where
  nonempty : line ≠ []
  noEnd : line ≠ endLine
  noInclude : find includeCommand line ≠ some 0
  valid : utf8Valid line = true

variable {d : DumpReaderInterface γ} {s : LineParsers γ} {dest : Destination}
  {document : DocumentProperty}

/-! ### The first line -/

theorem Destination.documentData_begun (limits : DbLimits) (s : LineParsers γ)
    (dest : Destination) : (dest.begun limits s).documentData = [] := by
  unfold begun
  split
  · exact (new limits).documentData_setMaxLines _
  · rfl

variable {input : ByteString} {n : ℕ}

theorem sharedDocumentParser_counts (h : s.currentDocument = none)
    (hcount : Counts (ascii "lines") input n) : sharedDocumentParser d s input = (false,
      { s.attempted (.fromString (getWord input).2) true with
        itemsLeft := n
        currentDocument := some ((Destination.property []).begun d.limits s) }) := by
  rcases hwords : getWord input with ⟨word, rest⟩
  rw [Counts, hwords] at hcount
  simp only [sharedDocumentParser, h, hwords, hcount.1, hcount.2, if_true]
  rfl

/-- What is known after the first line of a document. -/
structure DocumentBegun (d : DumpReaderInterface γ) (s t : LineParsers γ) (dest : Destination)
    (n : ℕ) : Prop where
  receives : dest.Receives t
  document : t.currentDocument = some (dest.begun d.limits s)
  left : t.itemsLeft = n
  set : t.currentSet = none
  error : t.error = none
  db : t.db = s.db
  parserMode : t.parserMode = s.parserMode

/-- The first line of a document that is a property, in a mode for properties. -/
theorem sharedPropertyParser_begins (hfree : s.isParsingPropertyData = false)
    {line key count : ByteString} (htype : typeOf line = some .document)
    (hkey : getKeyValue (getWord line).2 = some (key, count))
    (hcount : Counts (ascii "lines") count n) : sharedPropertyParser d s line = (none,
      { s.attempted (.fromString (getWord count).2) true with
        currentProperty := key
        itemsLeft := n
        currentDocument := some ((Destination.property key).begun d.limits s) }) := by
  obtain ⟨hdocument, hset⟩ : s.currentDocument = none ∧ s.currentSet = none := by
    simpa [isParsingPropertyData] using hfree
  rw [typeOf] at htype
  have hbegin := sharedDocumentParser_counts (d := d) (s := { s with currentProperty := key })
    hdocument hcount
  have hshared : sharedPropertyParser d s line = parseFirst d s line := by
    simp only [sharedPropertyParser, hdocument, hset]
  simp only [hshared, parseFirst, htype, hkey]
  rw [hbegin]
  rfl

variable {type : PropertyDataType} {left : ℕ} {next : DocumentProperty}

theorem typeOf_ne {line word : ByteString} (h : typeOf line = some type)
    (hword : stringToPropertyDataType word = none) : toLowerCopy (getWord line).1 ≠ word := by
  intro hword'
  rw [typeOf, hword', hword] at h
  cases h

theorem documentBegun_parse (hfree : s.isParsingPropertyData = false) (hs : s.error = none)
    (hproperty : s.parserMode = .fields → s.currentProperty = []) {line : ByteString}
    (h : dest.Begins s n line) : DocumentBegun d s (s.parse d line) dest n := by
  obtain ⟨hdocument, hset⟩ : s.currentDocument = none ∧ s.currentSet = none := by
    simpa [isParsingPropertyData] using hfree
  cases dest with
  | entityField field =>
    obtain ⟨hsub, hmode, fieldWord, count, hkey, hfield, hmethod, hcount⟩ := h
    have hbegin := sharedDocumentParser_counts (d := d)
      (s := { s with currentEntityField := field, subparserMode := .document }) hdocument hcount
    have hparse : s.parse d line =
        subparseDocument d { s with currentEntityField := field, subparserMode := .document }
          count := by
      cases field <;> cases hmethod
      simp only [parse, hsub, hmode, parseFields, hkey, hfield, whichSetFieldMethod]
    rw [hparse, subparseDocument, hbegin]
    exact ⟨⟨rfl, hproperty hmode, rfl⟩, rfl, rfl, hset, hs, rfl, rfl⟩
  | property key =>
    obtain ⟨hsub, hmode, htype, count, hkey, hcount⟩ := h
    have hsecurity := typeOf_ne htype
      (by decide : stringToPropertyDataType (ascii "security") = none)
    have hend := typeOf_ne_end htype
    have hparse : s.parse d line = (sharedPropertyParser d s line).2 := by
      have hbegin := sharedPropertyParser_begins (d := d) hfree htype hkey hcount
      simp only [parse, hsub, hmode, parseProperties, hsecurity, hend, and_false, if_false, hbegin]
    rw [hparse, sharedPropertyParser_begins hfree htype hkey hcount]
    exact ⟨⟨hsub, hmode, rfl⟩, rfl, rfl, hset, hs, rfl, rfl⟩
  | lock field key isNot =>
    obtain ⟨hsub, hfield, hnot, htype, count, hkey, hcount⟩ := h
    have hend := typeOf_ne_end htype
    have hparse : s.parse d line = (sharedPropertyParser d s line).2 := by
      have hbegin := sharedPropertyParser_begins (d := d) hfree htype hkey hcount
      simp only [parse, hsub, subparseLockProperty, hend, and_false, if_false, hbegin]
    rw [hparse, sharedPropertyParser_begins hfree htype hkey hcount]
    exact ⟨⟨hsub, hfield, rfl, hnot⟩, rfl, rfl, hset, hs, rfl, rfl⟩

theorem Destination.Begins.subparserMode_eq {line : ByteString} (h : dest.Begins s n line) :
    s.subparserMode = dest.mode := by
  cases dest with
  | entityField field => exact h.1
  | property key => exact h.1
  | lock field key isNot => exact h.1

/-! ### The last line -/

theorem Destination.Receives.takesDocument (h : dest.Receives s) : s.TakesDocument := by
  cases dest with
  | entityField field => exact .inl h.1
  | property key => exact .inr (.inr ⟨h.1, h.2.1⟩)
  | lock field key isNot => exact .inr (.inl h.1)

/-- A document that is being read is for something. -/
theorem exists_receives (hs : s.WellFormed) (h : s.TakesDocument) :
    ∃ dest : Destination, dest.Receives s := by
  rcases h with hsub | hsub | ⟨hsub, hmode⟩
  · have hfields := hs.fields (by simp [hsub])
    exact ⟨.entityField s.currentEntityField, hsub,
      hs.property (.inr hsub) (by simp [hfields]) (by simp [hfields]), rfl⟩
  · exact ⟨.lock s.currentEntityField s.currentProperty s.operationNot, hsub, rfl, rfl, rfl⟩
  · exact ⟨.property s.currentProperty, hsub, hmode, rfl⟩

/-- What has become of a document that is closed. -/
structure DocumentClosed (d : DumpReaderInterface γ) (s t : LineParsers γ) (dest : Destination)
    (document : DocumentProperty) : Prop where
  attempts : t.attempts =
    s.attempts ++ [(dest.attempt document, (dest.store d document s.db).1)]
  db : t.db = (dest.store d document s.db).2
  error : t.error = none ↔ s.error = none ∧ (dest.store d document s.db).1 = true
  parserMode : t.parserMode = s.parserMode
  subparserMode : t.subparserMode = dest.mode
  document : t.currentDocument = none
  set : t.currentSet = s.currentSet

theorem documentClosed_parse (hreceives : dest.Receives s)
    (hdocument : s.currentDocument = some document)
    (h : sharedDocumentParser d s input = (true, { s with itemsLeft := left })) :
    DocumentClosed d s (s.parse d input) dest document := by
  have hvalue : s.isParsingPropertyData = true := by rw [isParsingPropertyData, hdocument]; rfl
  have hshared : sharedPropertyParser d s input = (some (s.currentProperty, .document document),
      { s with itemsLeft := left, currentProperty := [], currentDocument := none }) := by
    simp [sharedPropertyParser, hdocument, h]
  cases dest with
  | entityField field =>
    obtain ⟨hsub, hproperty, hfield⟩ := hreceives
    have hparse : s.parse d input = { demand d { s with itemsLeft := left }
        (.setEntityFieldDocument field document)
        (ascii "document:  Unable to set document on field ") id with
          subparserMode := .none, currentDocument := none } := by
      simp [parse, hsub, subparseDocument, h, hdocument, hproperty, hfield]
    rcases hperform : d.perform (.setEntityFieldDocument field document) s.db with ⟨_ | _, db⟩
    · rw [hparse, demand, hperform]
      constructor <;> simp [Destination.attempt, Destination.store, Destination.mode, hperform,
        setError, attempted]
    · rw [hparse, demand, hperform]
      constructor <;> simp [Destination.attempt, Destination.store, Destination.mode, hperform,
        attempted]
  | property key =>
    obtain ⟨hsub, hmode, hproperty⟩ := hreceives
    have hparse : s.parse d input =
        demand d { s with itemsLeft := left, currentProperty := [], currentDocument := none }
          (.setProp key (.document document))
          (ascii "properties: Unable to set property " ++ key) id := by
      simp [parse, hsub, hmode, parseProperties, hvalue, hshared, hproperty]
    rcases hperform : d.perform (.setProp key (.document document)) s.db with ⟨_ | _, db⟩
    · rw [hparse, demand, hperform]
      constructor <;> simp [Destination.attempt, Destination.store, Destination.mode, hperform,
        setError, attempted, hsub]
    · rw [hparse, demand, hperform]
      constructor <;> simp [Destination.attempt, Destination.store, Destination.mode, hperform,
        attempted, hsub]
  | lock field key isNot =>
    obtain ⟨hsub, hfield, hproperty, hnot⟩ := hreceives
    have hparse : s.parse d input =
        useLockProperty { s with itemsLeft := left, currentProperty := [], currentDocument := none }
          key (.document document) := by
      simp [parse, hsub, subparseLockProperty, hvalue, hshared, hproperty]
    rcases hstore : s.db.setEntityLockFieldByProperty field key (.document document) isNot with
      ⟨_ | _, db⟩
    · rw [hparse, useLockProperty]
      constructor <;> simp [Destination.attempt, Destination.store, Destination.mode, hfield, hnot,
        hstore, setError, attempted, hsub]
    · rw [hparse, useLockProperty]
      constructor <;> simp [Destination.attempt, Destination.store, Destination.mode, hfield, hnot,
        hstore, attempted, hsub]

/-! ### The lines of a document -/

/-- A line within a document is appended to it, or closes it. -/
theorem documentData_parse (hs : s.WellFormed) (hdocument : s.currentDocument = some document)
    (herror : (s.parse d input).error = none)
    (hnext : (s.parse d input).currentDocument = some next) :
    next.documentData = document.documentData ++ [input] := by
  have hsome : s.currentDocument.isSome = true := by rw [hdocument]; rfl
  obtain ⟨htakes, -⟩ := hs.document hsome
  cases hparser : (sharedDocumentParser d s input).1 with
  | true =>
    obtain ⟨dest, hreceives⟩ := exists_receives hs htakes
    obtain ⟨-, left, hleft⟩ | ⟨hfalse, -⟩ := sharedDocumentParser_some (d := d) hsome input
    · have hclosed := documentClosed_parse (d := d) hreceives hdocument (Prod.ext hparser hleft)
      rw [hclosed.document] at hnext
      cases hnext
    · rw [hparser] at hfalse
      cases hfalse
  | false =>
    have hparse := parse_unfinished (d := d) htakes hsome hparser
    by_cases hleft : 0 < s.itemsLeft
    · by_cases hend : input = ascii ".end"
      · simp [sharedDocumentParser, hdocument, hleft, hend] at hparser
      · obtain ⟨last, happend, hread⟩ | ⟨-, hfails, -⟩ :=
          parse_appendLine (d := d) htakes hdocument hleft hend
        · rw [hread] at hnext
          obtain rfl : last = next := Option.some.inj hnext
          exact documentData_appendLine happend
        · exact absurd herror hfails
    · have hend := endValue_cases s (ascii "document") (ascii "lines") input
      have hshared : sharedDocumentParser d s input =
          s.endValue (ascii "document") (ascii "lines") input := by
        simp only [sharedDocumentParser, hdocument, if_neg hleft]
      rw [← hshared, ← hparse] at hend
      obtain hend | ⟨-, hfails⟩ := hend
      · rw [hend] at hparser
        cases hparser
      · exact absurd herror hfails

/-- Where there is no document, a line begins one that is empty, or none. -/
theorem documentData_parse_none (hs : s.WellFormed) (hdocument : s.currentDocument = none)
    (herror : (s.parse d input).error = none)
    (hnext : (s.parse d input).currentDocument = some next) : next.documentData = [] := by
  obtain hfails | ⟨s', hturn, hworks⟩ := parse_cases (d := d) hs input
  · exact absurd herror hfails
  · rw [hworks.currentDocument] at hnext
    cases hturn with
    | fieldDocument field document lines hempty =>
      obtain rfl := Option.some.inj hnext
      exact hempty
    | document key document lines hempty =>
      obtain rfl := Option.some.inj hnext
      exact hempty
    | line document lines hsome =>
      rw [hdocument] at hsome
      cases hsome
    | leaveDocument => cases hnext
    | endValue => cases hnext
    | _ =>
      have hnone : s.currentDocument = some next := hnext
      rw [hdocument] at hnone
      cases hnone

/-- The lines of the document that is being read. -/
def PlainLines (s : LineParsers γ) : Prop :=
  ∀ document, s.currentDocument = some document → ∀ line ∈ document.documentData, Plain line

/-- A line that is handed to the parsers keeps the lines of a document plain. -/
theorem PlainLines.parse (hs : s.WellFormed) (h : PlainLines s)
    (hinput : s.currentDocument.isSome = true → Plain input)
    (herror : (s.parse d input).error = none) : PlainLines (s.parse d input) := by
  intro next hnext line hline
  cases hdocument : s.currentDocument with
  | none =>
    rw [documentData_parse_none hs hdocument herror hnext] at hline
    cases hline
  | some document =>
    rw [documentData_parse hs hdocument herror hnext] at hline
    rcases mem_append.mp hline with hline | hline
    · exact h document hdocument line hline
    · rw [mem_singleton.mp hline]
      exact hinput (by rw [hdocument]; rfl)

/-! ### The line that begins a section is read -/

/-- What no command begins with. -/
def notCommand : List (Option UInt8) := [none, some commentPrefix, some 64]

theorem head_notMem_of_lower {word line : ByteString} (hword : word <+: line)
    (h : (toLowerCopy word).head? ∉ notCommand) : line.head? ∉ notCommand := by
  obtain ⟨rest, rfl⟩ := hword
  cases word with
  | nil => exact absurd (by decide) h
  | cons c word =>
    intro hmem
    have hc : c = commentPrefix ∨ c = 64 := by simpa [notCommand] using hmem
    rcases hc with rfl | rfl <;> exact absurd (by simp [notCommand, toLowerCopy, commentPrefix]) h

theorem head_typeOf {line : ByteString} (h : typeOf line = some type) :
    line.head? ∉ notCommand := by
  have hword : (getWord line).1 <+: line := List.takeWhile_prefix _
  refine head_notMem_of_lower hword ?_
  obtain ⟨entry, hfind, -⟩ := Option.map_eq_some_iff.mp h
  have hentry := mem_of_find?_eq_some hfind
  have hnames : ∀ entry ∈ PropertyDataType.names,
      entry.2.1.head? ∉ notCommand ∧ entry.2.2.head? ∉ notCommand := by decide +kernel
  obtain ⟨hlong, hshort⟩ := hnames entry hentry
  rcases (by simpa using find?_some hfind : entry.2.1 = _ ∨ entry.2.2 = _) with heq | heq
  · exact heq ▸ hlong
  · exact heq ▸ hshort

theorem head_getKeyValue {line word value : ByteString} {field : EntityField}
    (hkey : getKeyValue line = some (word, value))
    (hfield : stringToEntityField (toLowerCopy word) = some field) (hinvalid : field ≠ .invalid) :
    line.head? ∉ notCommand := by
  have hprefix : word <+: line := by
    unfold getKeyValue at hkey
    split at hkey
    · cases hkey
    · obtain ⟨rfl, -⟩ := Prod.mk.inj (Option.some.inj hkey)
      exact (List.rdropWhile_prefix _ _).trans (List.takeWhile_prefix _)
  refine head_notMem_of_lower hprefix ?_
  unfold stringToEntityField at hfield
  split at hfield
  · cases hfield
  · split at hfield
    next name hfind =>
      have hnames : ∀ entry ∈ EntityField.names, entry.2.head? ∉ notCommand := by decide +kernel
      have hname : name = toLowerCopy word := by simpa using find?_some hfind
      exact hname ▸ hnames _ (mem_of_find?_eq_some hfind)
    · exact absurd (Option.some.inj hfield).symm hinvalid

theorem Destination.Begins.head_notMem {line : ByteString} (h : dest.Begins s n line) :
    line.head? ∉ notCommand := by
  cases dest with
  | entityField field =>
    obtain ⟨-, -, word, count, hkey, hfield, hmethod, -⟩ := h
    refine head_getKeyValue hkey hfield ?_
    rintro rfl
    cases hmethod
  | property key => exact head_typeOf h.2.2.1
  | lock field key isNot => exact head_typeOf h.2.2.2.1

/-- The end of a dump is not the first line of a document. -/
theorem Destination.Begins.ne_endLine (h : dest.Begins s n (trimCopy endLine)) : False := by
  have hkey : getKeyValue (trimCopy endLine) = none := by decide +kernel
  have htype : typeOf (trimCopy endLine) = none := by decide +kernel
  cases dest with
  | entityField field =>
    obtain ⟨-, -, word, count, hsome, -⟩ := h
    rw [hkey] at hsome
    cases hsome
  | property key =>
    obtain ⟨-, -, hsome, -⟩ := h
    rw [htype] at hsome
    cases hsome
  | lock field key isNot =>
    obtain ⟨-, -, -, hsome, -⟩ := h
    rw [htype] at hsome
    cases hsome

/-- A valid line is one line. -/
theorem lineFeed_notMem_of_utf8ValidFrom {line : ByteString} (h : utf8ValidFrom left line = true) :
    lineFeed ∉ line := by
  induction line generalizing left with
  | nil => exact not_mem_nil
  | cons c line ih =>
    intro hmem
    cases left with
    | zero =>
      rw [utf8ValidFrom] at h
      split_ifs at h with hlow hhigh htwo hthree hfour
      all_goals
        rcases mem_cons.mp hmem with rfl | hmem
        · exact absurd (by decide) hlow
        · exact ih h hmem
    | succ left =>
      rw [utf8ValidFrom] at h
      split_ifs at h with hmiddle
      rcases mem_cons.mp hmem with rfl | hmem
      · exact absurd hmiddle (by decide)
      · exact ih h hmem

/-! ### The reader -/

section Reader

variable {e : DumpSetting (LineParsers γ)} {raw input : ByteString}

/-- What is handed to the parsers within a document is a plain line. -/
theorem plain_of_hands (h : e.Hands s raw input) (hdocument : e.inDocument s = true) :
    Plain input := by
  obtain rfl : raw = input := by simpa [inputOf, hdocument] using h.trimmed
  exact ⟨h.nonempty, h.noEnd, h.noInclude, h.valid⟩

theorem hands_of_plain (h : Plain raw) (hdocument : e.inDocument s = true) : e.Hands s raw raw :=
  ⟨h.noEnd, h.valid, by simp [inputOf, hdocument], h.nonempty, h.noInclude,
    .inl hdocument⟩

variable {b : ByteString} {f : ByteString → Option DumpFile}
  {r : DumpFileReader (LineParsers γ)} {breaks : Bool} {files after : List FileStream}
  {rest : ByteString} {n : ℕ} {db : DumpDatabase γ} {lines : List ByteString} {closing : ByteString}

/-- The first line of a section is handed to the parsers. -/
theorem hands_of_begins (hfree : s.isParsingPropertyData = false)
    (h : dest.Begins s n (trimCopy raw)) (hvalid : utf8Valid raw = true) :
    (d.setting b f).Hands s raw (trimCopy raw) := by
  have hhead := h.head_notMem
  have hdocument : s.currentDocument.isSome = false := (Bool.or_eq_false_iff.mp hfree).1
  have hinput : (d.setting b f).inputOf s raw = trimCopy raw :=
    if_neg (by simp [DumpReaderInterface.setting, DumpReaderInterface.parsers, hdocument])
  refine ⟨?_, hvalid, hinput, ?_, ?_, .inr ?_⟩
  · rintro rfl
    exact h.ne_endLine
  · intro hnil
    rw [hnil] at hhead
    exact hhead (by decide)
  · intro hinclude
    obtain ⟨w, t, hw, hline⟩ := exists_of_find hinclude
    rw [eq_nil_of_length_eq_zero hw, nil_append] at hline
    have hchar : (trimCopy raw).head? = some 64 := by
      rw [hline]
      rfl
    exact hhead (hchar ▸ by decide)
  · intro hcomment
    exact hhead (hcomment ▸ by decide)

/-- **The lines of a document that is being read are plain.** -/
theorem plainLines_of_reaches {fileName : ByteString}
    (h : (d.setting b f).Reaches ((d.setting b f).start fileName (new db)) r) :
    (r.parsers.WellFormed ∧ r.parsers.error = none ∧ PlainLines r.parsers) ∨
      r.errorCondition = true := by
  refine reaches_invariant
    (I := fun s => s.WellFormed ∧ s.error = none ∧ PlainLines s) ?_ h (.inl ?_)
  · rintro s raw input ⟨hs, -, hplain⟩ hhands herror
    exact ⟨hs.parse d input herror, herror,
      hplain.parse hs (fun hdocument => plain_of_hands hhands hdocument) herror⟩
  · rw [(parsers_start _ fileName (new db)).1]
    exact ⟨wellFormed_new db, rfl, fun document hdocument => by cases hdocument⟩

variable {last : DocumentProperty}

/-- **Plain lines are read into a document.** -/
theorem iterate_lines (hr : r.Running)
    (hstack : r.fileStack = ⟨joinLines lineFeed lines ++ rest, breaks, false, false⟩ :: files)
    (htakes : r.parsers.TakesDocument) (hdocument : r.parsers.currentDocument = some document)
    (hleft : lines.length ≤ r.parsers.itemsLeft)
    (hinside : ∀ line ∈ lines, lineFeed ∉ line ∧ line ≠ ascii ".end")
    (hplain : ∀ line ∈ lines, Plain line)
    (happend : document.appendLines d.limits lines = (true, last)) (hs : r.parsers.error = none) :
    (d.setting b f).iteration^[lines.length] r =
      { r with
        fileStack := ⟨rest, breaks, false, false⟩ :: files
        parsers := r.parsers.appended last lines
        handed := r.handed ++ lines } := by
  induction lines generalizing r document with
  | nil =>
    obtain rfl := (Prod.mk.inj happend).2
    rw [joinLines_nil, nil_append] at hstack
    simp [appended, ← hdocument, ← hstack]
  | cons line lines ih =>
    obtain ⟨⟨hfeed, hend⟩, hinside⟩ := forall_mem_cons.mp hinside
    obtain ⟨hline, hplain⟩ := forall_mem_cons.mp hplain
    rw [length_cons] at hleft
    rw [joinLines_cons, append_assoc, cons_append] at hstack
    have hsome : r.parsers.currentDocument.isSome = true := by rw [hdocument]; rfl
    rw [appendLines] at happend
    obtain ⟨next, hnext, hparse⟩ | ⟨hfails, -⟩ :=
      parse_appendLine (d := d) htakes hdocument (by omega) hend
    · rw [hnext] at happend
      have hhands : (d.setting b f).Hands r.parsers line line :=
        hands_of_plain hline hsome
      have hread : (d.setting b f).iteration r =
          { r with
            fileStack := ⟨joinLines lineFeed lines ++ rest, breaks, false, false⟩ :: files
            parsers := r.parsers.appended next [line]
            handed := r.handed ++ [line] } := by
        rw [iteration_line hr hfeed hhands hstack, callParser_of_none,
          ← hparse]
        · rfl
        · show (parse d r.parsers line).error = none
          rw [hparse]
          exact hs
      have hleft' : lines.length ≤ (r.parsers.appended next [line]).itemsLeft := by
        simp only [appended, length_singleton]
        omega
      have hrest := ih
        (r := { r with
          fileStack := ⟨joinLines lineFeed lines ++ rest, breaks, false, false⟩ :: files
          parsers := r.parsers.appended next [line]
          handed := r.handed ++ [line] })
        ⟨hr.fileParsed, hr.errorCondition⟩ rfl htakes rfl hleft' hinside hplain happend hs
      rw [length_cons, Function.iterate_succ_apply, hread, hrest]
      simp [appended_appended]
    · rcases hnext : document.appendLine d.limits line with ⟨_ | _, next⟩
      · rw [hnext] at happend
        cases happend
      · rw [hnext] at hfails
        cases hfails

/-- The last line of a file that another has named. -/
theorem endFile_callParser (hr : r.Running) (hstack : r.fileStack = readFile :: files)
    (hfiles : files ≠ []) (input : ByteString) :
    (endFile (e.callParser r input) true).parsers = (e.parse r.parsers input).1 ∧
      ((e.parse r.parsers input).2 = none →
        (endFile (e.callParser r input) true).Running ∧
          (endFile (e.callParser r input) true).fileStack = files) ∧
      ((e.parse r.parsers input).2 ≠ none →
        (endFile (e.callParser r input) true).errorCondition = true) := by
  obtain ⟨hparsers, -, herror⟩ := parsers_callParser (d := e) r input
  obtain ⟨hend, -, hfails⟩ := parsers_endFile (e.callParser r input) true
  refine ⟨hend.trans hparsers, fun hnone => ?_, fun hfail => hfails (herror hfail)⟩
  obtain ⟨hcalled, hcalledStack⟩ := running_callParser hr hnone
  rw [endFile_pop (hcalledStack.trans hstack) hfiles hcalled.errorCondition]
  exact ⟨⟨hcalled.fileParsed, hcalled.errorCondition⟩, rfl⟩

/-- The last line of a section, with what comes after it. -/
theorem iteration_closing {tail : ByteString} (hr : r.Running)
    (hfollowed : FollowedBy breaks files tail after) (hfeed : lineFeed ∉ closing)
    (hhands : e.Hands r.parsers closing input)
    (hstack : r.fileStack = ⟨closing ++ tail, breaks, false, false⟩ :: files) :
    (e.iteration r).parsers = (e.parse r.parsers input).1 ∧
      ((e.parse r.parsers input).2 = none →
        (e.iteration r).Running ∧ (e.iteration r).fileStack = after) ∧
      ((e.parse r.parsers input).2 ≠ none → (e.iteration r).errorCondition = true) := by
  have hrunning : ∀ files, { r with fileStack := files }.Running := fun _ =>
    ⟨hr.fileParsed, hr.errorCondition⟩
  cases hfollowed with
  | line rest =>
    obtain ⟨hparsers, -, herror⟩ := parsers_callParser (d := e)
      { r with fileStack := ⟨rest, breaks, false, false⟩ :: files } input
    rw [iteration_line hr hfeed hhands hstack]
    exact ⟨hparsers, fun hnone => running_callParser (hrunning _) hnone, herror⟩
  | file hbreaks hfiles =>
    rw [hbreaks, append_nil] at hstack
    rw [iteration_last hfeed hr hstack, processLine_of_hands
      (r := { r with fileStack := readFile :: files }) hhands]
    exact endFile_callParser (r := { r with fileStack := readFile :: files })
      (hrunning _) rfl hfiles input

/-- The first line of a section, and plain lines. -/
theorem iterate_section {header : ByteString} (hs : r.parsers.WellFormed)
    (herror : r.parsers.error = none) (hr : r.Running)
    (hfree : r.parsers.isParsingPropertyData = false)
    (hbegins : dest.Begins r.parsers n (trimCopy header)) (hvalid : utf8Valid header = true)
    (hstack : r.fileStack =
      ⟨joinLines lineFeed (header :: lines) ++ rest, breaks, false, false⟩ :: files)
    (hinside : ∀ line ∈ lines, lineFeed ∉ line ∧ line ≠ ascii ".end")
    (hplain : ∀ line ∈ lines, Plain line) (hleft : lines.length ≤ n)
    (happend : (dest.begun d.limits r.parsers).appendLines d.limits lines = (true, last)) :
    let before := (d.setting b f).iteration^[lines.length + 1] r
    ∃ t, DocumentBegun d r.parsers t dest n ∧ before.Running ∧
      before.parsers = t.appended last lines ∧
      before.fileStack = ⟨rest, breaks, false, false⟩ :: files := by
  intro before
  have hproperty : r.parsers.parserMode = .fields → r.parsers.currentProperty = [] := fun hmode =>
    hs.property (.inl hfree) (by simp [hmode]) (by simp [hmode])
  have hbegun := documentBegun_parse (d := d) hfree herror hproperty hbegins
  have hhands : (d.setting b f).Hands r.parsers header (trimCopy header) :=
    hands_of_begins hfree hbegins hvalid
  rw [joinLines_cons, append_assoc, cons_append] at hstack
  have hheader : (d.setting b f).iteration r =
      { r with
        fileStack := ⟨joinLines lineFeed lines ++ rest, breaks, false, false⟩ :: files
        parsers := parse d r.parsers (trimCopy header)
        handed := r.handed ++ [trimCopy header] } := by
    rw [iteration_line hr (lineFeed_notMem_of_utf8ValidFrom hvalid) hhands hstack,
      callParser_of_none]
    · rfl
    · exact hbegun.error
  have hread := iterate_lines (b := b) (f := f) (r := { r with
      fileStack := ⟨joinLines lineFeed lines ++ rest, breaks, false, false⟩ :: files
      parsers := parse d r.parsers (trimCopy header)
      handed := r.handed ++ [trimCopy header] })
    ⟨hr.fileParsed, hr.errorCondition⟩ rfl hbegun.receives.takesDocument hbegun.document
    (hbegun.left ▸ hleft) hinside hplain happend hbegun.error
  refine ⟨_, hbegun, ?_⟩
  have hbefore : before = (d.setting b f).iteration^[lines.length]
      ((d.setting b f).iteration r) := Function.iterate_succ_apply _ _ _
  rw [hbefore, hheader, hread]
  exact ⟨⟨hr.fileParsed, hr.errorCondition⟩, rfl, rfl⟩

/-- The line that closes a document too late is not for it. -/
theorem attempts_parse_late (htakes : s.TakesDocument)
    (hdocument : s.currentDocument = some document) (hleft : s.itemsLeft = 0) :
    (s.parse d (ascii ".end")).attempts = s.attempts := by
  have hend : s.endValue (ascii "document") (ascii "lines") (ascii ".end") =
      (false, s.setError (ascii "document: Unexpected command: " ++ ascii ".end")) := by
    have hwords : getWord (toLowerCopy (ascii ".end")) = (ascii ".end", []) := by decide +kernel
    rw [endValue, hwords]
    dsimp only
    rw [if_neg (by decide)]
    rfl
  have hshared : sharedDocumentParser d s (ascii ".end") =
      s.endValue (ascii "document") (ascii "lines") (ascii ".end") := by
    simp only [sharedDocumentParser, hdocument, if_neg (show ¬0 < s.itemsLeft by omega)]
  have hfalse : (sharedDocumentParser d s (ascii ".end")).1 = false := by rw [hshared, hend]
  rw [parse_unfinished htakes (by rw [hdocument]; rfl) hfalse, hshared, hend]
  rfl

/-- The line that closes a document is handed to the parsers. -/
theorem plain_closing (h : EndsValue (ascii "lines") closing ∨ closing = ascii ".end")
    (hvalid : utf8Valid closing = true) : Plain closing := by
  have hhead : closing.head?.map (fun c => if 65 ≤ c && c ≤ 90 then c + 32 else c) ∈
      [some 101, some 46] := by
    rcases h with ⟨hcommand, -⟩ | rfl
    · have hword : (toLowerCopy closing).head? = some 101 := by
        have hchars : (getWord (toLowerCopy closing)).1 = 101 :: [110, 100] := hcommand
        have hprefix : (getWord (toLowerCopy closing)).1 <+: toLowerCopy closing :=
          List.takeWhile_prefix _
        obtain ⟨rest, hrest⟩ := hprefix
        rw [← hrest, hchars]
        rfl
      rw [toLowerCopy, head?_map] at hword
      rw [hword]
      exact mem_cons_self
    · decide
  refine ⟨?_, ?_, ?_, hvalid⟩
  · rintro rfl
    exact absurd hhead (by decide)
  · rintro rfl
    exact absurd hhead (by decide)
  · intro hinclude
    obtain ⟨w, t, hw, rfl⟩ := exists_of_find hinclude
    obtain rfl := eq_nil_of_length_eq_zero hw
    exact absurd hhead (by simp [includeCommand, ascii])

/-- A lock is not held where one could be set. -/
theorem not_holds_lock (document : DocumentProperty) (h : ¬ dest.NoLock db) :
    (dest.store d document db).1 = true ∧ ¬ dest.Holds document (dest.store d document db).2 := by
  cases dest with
  | entityField field => exact absurd trivial h
  | property key => exact absurd trivial h
  | lock field key isNot =>
    obtain ⟨hkey, hcurrent⟩ := not_or.mp h
    have hbuilt : Lock.lockByProperty .unlocked key (.document document) isNot =
        (true, (Lock.lockByProperty .unlocked key (.document document) isNot).2) := by
      simp [Lock.lockByProperty, hkey]
    obtain ⟨-, -, hstore, hlock⟩ | ⟨hfalse | hnone, -⟩ := db.storeLock_cases field
      (Lock.lockByProperty .unlocked key (.document document) isNot).1
    · refine ⟨hstore, fun hholds => ?_⟩
      have hsame := hlock.symm.trans hholds
      rw [Lock.lockByProperty, if_neg hkey] at hsame
      have htype := congrArg Lock.lockType (Option.some.inj hsame)
      cases htype
    · rw [hbuilt] at hfalse
      cases hfalse
    · exact absurd hnone hcurrent

/-- Where no lock could be set, none is. -/
theorem holds_of_noLock (h : dest.NoLock db) (hstore : (dest.store d document db).1 = true) :
    dest.Holds document (dest.store d document db).2 := by
  cases dest with
  | entityField field => trivial
  | property key => trivial
  | lock field key isNot =>
    exfalso
    obtain ⟨htrue, hcurrent, -⟩ | ⟨-, hfails⟩ := db.storeLock_cases field
      (Lock.lockByProperty .unlocked key (.document document) isNot).1
    · obtain rfl | hnone := h
      · cases htrue
      · rw [hnone] at hcurrent
        cases hcurrent
    · have hfalse := congrArg Prod.fst hfails
      rw [show (db.storeLock field _).1 = true from hstore] at hfalse
      cases hfalse

/-- The line that closes a section, after its lines. -/
theorem iteration_closes {t : LineParsers γ} {tail : ByteString}
    (hbegun : DocumentBegun d s t dest n) (hr : r.Running)
    (hparsers : r.parsers = t.appended document lines) (hclosed : ClosedBy n lines closing)
    (hvalid : utf8Valid closing = true) (hfollowed : FollowedBy breaks files tail after)
    (hstack : r.fileStack = ⟨closing ++ tail, breaks, false, false⟩ :: files) :
    let t := (d.setting b f).iteration r
    DocumentClosed d r.parsers t.parsers dest document ∧
      ((dest.store d document s.db).1 = true → t.Running ∧ t.fileStack = after) ∧
      ((dest.store d document s.db).1 = false → t.errorCondition = true) := by
  have hsome : r.parsers.currentDocument = some document := by rw [hparsers]; rfl
  have hreceives : dest.Receives r.parsers := by
    rw [hparsers]
    cases dest <;> exact hbegun.receives
  have hplain : Plain closing := by
    refine plain_closing ?_ hvalid
    exact hclosed.closes.imp And.right And.right
  have hhands : (d.setting b f).Hands r.parsers closing closing := by
    refine hands_of_plain hplain ?_
    show r.parsers.currentDocument.isSome = true
    rw [hsome]
    rfl
  have hshared := sharedDocumentParser_closes (d := d) (s := r.parsers) hclosed
    (by rw [hsome]; rfl) (by rw [hparsers, ← hbegun.left]; rfl)
  have hclose := documentClosed_parse hreceives hsome hshared
  have hdb : r.parsers.db = s.db := by rw [hparsers]; exact hbegun.db
  have hnone : r.parsers.error = none := by rw [hparsers]; exact hbegun.error
  obtain ⟨hafter, hgoes, hfails⟩ := iteration_closing hr hfollowed
    (lineFeed_notMem_of_utf8ValidFrom hvalid) hhands hstack
  have hresult : (parse d r.parsers closing).error = none ↔
      (dest.store d document s.db).1 = true := by
    rw [hclose.error, hdb]
    exact and_iff_right hnone
  refine ⟨?_, fun hstored => ?_, fun hrefused => ?_⟩
  · rw [hafter]
    exact hclose
  · exact hgoes (hresult.mpr hstored)
  · refine hfails fun hno => ?_
    rw [hresult.mp hno] at hrefused
    cases hrefused

/-- **When a document is stored as it is written**: every line of it is plain, `.end` comes before
all of its lines have been read, and it is not for a lock that could be set. -/
theorem storesDocument_iff {fileName : ByteString} {db : DumpDatabase γ}
    (hreached : (d.setting b f).Reaches
      ((d.setting b f).start fileName (new db)) r)
    (hr : r.Running) {n : ℕ} {header closing tail : ByteString} {lines : List ByteString}
    (htext : DocumentText r.parsers dest n header lines closing)
    (hfollowed : FollowedBy breaks files tail after)
    (hstack : r.fileStack =
      ⟨joinLines lineFeed (header :: lines) ++ (closing ++ tail), breaks, false, false⟩ :: files)
    (hlimits : ((dest.begun d.limits r.parsers).appendLines d.limits lines).1 = true) :
    StoresDocument d (d.setting b f) dest r lines after ↔
      (∀ line ∈ lines, Plain line) ∧ (closing = ascii ".end" → lines.length < n) ∧
        dest.NoLock r.parsers.db := by
  obtain ⟨hs, herror, -⟩ | hfails := plainLines_of_reaches hreached
  swap
  · rw [hr.errorCondition] at hfails
    cases hfails
  obtain ⟨last, happend⟩ : ∃ last,
      (dest.begun d.limits r.parsers).appendLines d.limits lines = (true, last) :=
    ⟨_, Prod.ext hlimits rfl⟩
  have hleft : lines.length ≤ n := by
    rcases htext.closes with ⟨rfl, -⟩ | ⟨hle, -⟩
    · exact le_rfl
    · exact hle
  have hdata : last.documentData = lines := by
    rw [DocumentProperty.documentData_appendLines happend, Destination.documentData_begun,
      List.nil_append]
  have hsection : (∀ line ∈ lines, Plain line) → _ := fun hplain =>
    iterate_section (f := f) (b := b) hs herror hr htext.free
      htext.begins htext.headerValid hstack htext.inside hplain hleft happend
  have hreached' := hreached.trans ⟨lines.length + 1, rfl⟩
  have hsucc : (d.setting b f).iteration^[lines.length + 2] r = _ :=
    Function.iterate_succ_apply' _ (lines.length + 1) r
  rw [StoresDocument, hsucc]
  generalize (d.setting b f).iteration^[lines.length + 1] r = before
    at hreached' hsection ⊢
  constructor
  · rintro ⟨document, hdocument, ⟨⟨hreading, hnoerror⟩, hattempts, hdb, -, hstored⟩⟩
    obtain ⟨-, -, hlines⟩ | hfails := plainLines_of_reaches hreached'
    swap
    · rw [hnoerror] at hfails
      cases hfails
    have hplain : ∀ line ∈ lines, Plain line := hdocument ▸ hlines document hreading
    obtain ⟨t, hbegun, hrunning, hparsers, hbefore⟩ := hsection hplain
    have hend : closing = ascii ".end" → lines.length < n := by
      rintro rfl
      by_contra hle
      have htakes : before.parsers.TakesDocument := by
        rw [hparsers]
        exact hbegun.receives.takesDocument
      have hzero : before.parsers.itemsLeft = 0 := by
        rw [hparsers]
        show t.itemsLeft - lines.length = 0
        rw [hbegun.left]
        omega
      have hhands : (d.setting b f).Hands before.parsers (ascii ".end")
          (ascii ".end") := by
        refine hands_of_plain (plain_closing (.inr rfl) htext.closingValid) ?_
        show before.parsers.currentDocument.isSome = true
        rw [hreading]
        rfl
      obtain ⟨hafter, -⟩ := iteration_closing hrunning hfollowed (by decide) hhands hbefore
      have hsame : parse d before.parsers (ascii ".end") = _ := hafter.symm
      have hlate := attempts_parse_late (d := d) htakes hreading hzero
      rw [hsame, hattempts] at hlate
      simp at hlate
    refine ⟨hplain, hend, ?_⟩
    by_contra hlock
    obtain ⟨hstore, hnot⟩ := not_holds_lock (d := d) document hlock
    obtain ⟨hholds, -⟩ := hstored hstore
    rw [hdb] at hholds
    exact hnot hholds
  · rintro ⟨hplain, hend, hlock⟩
    obtain ⟨t, hbegun, hrunning, hparsers, hbefore⟩ := hsection hplain
    have hclosed : ClosedBy n lines closing := by
      refine ⟨fun line hline => (htext.inside line hline).2, ?_⟩
      rcases htext.closes with hcount | ⟨-, hclosing⟩
      · exact .inl hcount
      · exact .inr ⟨hend hclosing, hclosing⟩
    obtain ⟨hclose, hgoes, hfails⟩ := iteration_closes (b := b)
      (f := f) hbegun hrunning hparsers hclosed htext.closingValid hfollowed hbefore
    have hdb : before.parsers.db = r.parsers.db := by rw [hparsers]; exact hbegun.db
    have hattempts := hclose.attempts
    have hclosedDb := hclose.db
    rw [hdb] at hattempts hclosedDb
    refine ⟨last, hdata, ⟨?_, hrunning.errorCondition⟩, hattempts, hclosedDb, hfails, ?_⟩
    · rw [hparsers]
      rfl
    · intro hstore
      obtain ⟨hafter, hfiles⟩ := hgoes hstore
      refine ⟨hclosedDb ▸ holds_of_noLock hlock hstore, hafter, hfiles, ?_, ?_, ?_⟩
      · rw [hclose.parserMode, hparsers]
        exact hbegun.parserMode
      · rw [hclose.subparserMode, htext.begins.subparserMode_eq]
      · rw [isParsingPropertyData, hclose.document, hclose.set, hparsers]
        show (none.isSome || t.currentSet.isSome) = false
        rw [hbegun.set]
        rfl

end Reader

/-! ### Two dumps -/

/-- A dump with a Thing that has a document of three lines. -/
def documentDump (lines : List ByteString) : DumpSetting (LineParsers Unit) :=
  DumpReaderInterface.ofOneEntity.setting (ascii "data") fun fileName =>
    if fileName = ascii "a" then some ⟨joinLines lineFeed
      ([versionLine, ascii "mkentity thing {t}", ascii "properties",
        ascii "document about=lines 3"] ++ lines ++
      [ascii "end lines", ascii "end properties", ascii "end entity", endLine]), false⟩
    else none

/-- The reader of it, where the document begins. -/
def atDocument (lines : List ByteString) : DumpFileReader (LineParsers Unit) :=
  (documentDump lines).iteration^[2] ((documentDump lines).start (ascii "a") (new .empty))

/-- Lines that are like a comment, a command and a line that closes a set. -/
def likeCommands : List ByteString := [ascii "# notes", ascii " end properties ", ascii "end items"]

/-- What comes after the section. -/
def afterDocument : FileStream :=
  ⟨joinLines lineFeed [ascii "end properties", ascii "end entity", endLine], false, false, false⟩

theorem storesDocument_iff_likeCommands :
    StoresDocument .ofOneEntity (documentDump likeCommands) (.property (ascii "about"))
        (atDocument likeCommands) likeCommands [afterDocument] ↔
      (∀ line ∈ likeCommands, Plain line) ∧ (ascii "end lines" = ascii ".end" → 3 < 3) ∧
        (Destination.property (ascii "about")).NoLock (atDocument likeCommands).parsers.db := by
  have hreached : (documentDump likeCommands).Reaches
      ((documentDump likeCommands).start (ascii "a") (new .empty)) (atDocument likeCommands) :=
    ⟨2, rfl⟩
  have htext : DocumentText (atDocument likeCommands).parsers (.property (ascii "about")) 3
      (ascii "document about=lines 3") likeCommands (ascii "end lines") := by
    refine ⟨by decide +kernel, ⟨?_, ?_, ?_, ascii "lines 3", ?_, ?_⟩, by decide +kernel,
      by decide +kernel, .inl ⟨rfl, ?_⟩, by decide +kernel⟩
    · decide +kernel
    · decide +kernel
    · decide +kernel
    · decide +kernel
    · exact ⟨by decide +kernel, by decide +kernel⟩
    · exact ⟨by decide +kernel, by decide +kernel⟩
  have hrunning : (atDocument likeCommands).Running := ⟨by decide +kernel, by decide +kernel⟩
  have hstack : (atDocument likeCommands).fileStack =
      [⟨joinLines lineFeed (ascii "document about=lines 3" :: likeCommands) ++
        (ascii "end lines" ++ lineFeed :: afterDocument.rest), false, false, false⟩] := by
    decide +kernel
  exact storesDocument_iff hreached hrunning htext (.line _) hstack (by decide +kernel)

/-- Lines of which one is empty. -/
def withEmptyLine : List ByteString := [ascii "one", [], ascii "two"]

/-- There is one line less in the document, so the line that closes it is read as one of its lines,
and the one after it is an error. -/
theorem emptyLine_not_storesDocument :
    DocumentText (atDocument withEmptyLine).parsers (.property (ascii "about")) 3
        (ascii "document about=lines 3") withEmptyLine (ascii "end lines") ∧
      ((documentDump withEmptyLine).iteration^[5]
          (atDocument withEmptyLine)).parsers.currentDocument.map DocumentProperty.documentData =
        some [ascii "one", ascii "two", ascii "end lines"] ∧
      ((documentDump withEmptyLine).conclude
        ((documentDump withEmptyLine).iteration^[6] (atDocument withEmptyLine))).1 = false ∧
      ¬ StoresDocument .ofOneEntity (documentDump withEmptyLine) (.property (ascii "about"))
        (atDocument withEmptyLine) withEmptyLine [afterDocument] := by
  have htext : DocumentText (atDocument withEmptyLine).parsers (.property (ascii "about")) 3
      (ascii "document about=lines 3") withEmptyLine (ascii "end lines") := by
    refine ⟨by decide +kernel, ⟨?_, ?_, ?_, ascii "lines 3", ?_, ?_⟩, by decide +kernel,
      by decide +kernel, .inl ⟨rfl, ?_⟩, by decide +kernel⟩
    · decide +kernel
    · decide +kernel
    · decide +kernel
    · decide +kernel
    · exact ⟨by decide +kernel, by decide +kernel⟩
    · exact ⟨by decide +kernel, by decide +kernel⟩
  refine ⟨htext, by decide +kernel, by decide +kernel, ?_⟩
  rintro ⟨document, hdata, hhanded⟩
  have hread : ((documentDump withEmptyLine).iteration^[withEmptyLine.length + 1]
      (atDocument withEmptyLine)).parsers.currentDocument.map DocumentProperty.documentData =
      some [ascii "one", ascii "two"] := by decide +kernel
  rw [hhanded.reading.1, Option.map_some, hdata] at hread
  exact absurd hread (by decide +kernel)

end Mutgos.DbDump
