import Mutgos.DbDump.DocumentSections

/-!
# What a dump that is parsed has done

`parse` should return `true` only if every line has done what it says.  The parsers answer only
whether a value is finished, and a value that cannot be converted is one that is not finished.  A
program that cannot be linked to, a lock, and a file that is named in the last line of another are
lost in silence as well.

## Main results

* `appliedInFull_iff` — **when a dump has been applied in full.**
-/

namespace Mutgos.DbDump

open DbTypes Text LineParsers List

variable {γ : Type*} {d : DumpReaderInterface γ} {s : LineParsers γ}

/-! ### The lines that have been handed to the parsers -/

namespace LineParsers

/-- A line keeps what has been attempted. -/
theorem attempts_parse (hs : s.WellFormed) {input : ByteString}
    (herror : (s.parse d input).error = none) :
    ∃ new, (s.parse d input).attempts = s.attempts ++ new ∧
      (¬ FailsSilently d s input → ∀ a ∈ new, a.2 = true) := by
  obtain hfails | ⟨s', hturn, hworks⟩ := parse_cases (d := d) hs input
  · exact absurd herror hfails
  · have hattempts : s'.attempts = s.attempts := by cases hturn <;> rfl
    rw [← hattempts]
    exact hworks.attempts

variable {lines : List ByteString}

theorem wellFormed_parseAll (hs : s.WellFormed) (h : (parseAll d s lines).error = none) :
    (parseAll d s lines).WellFormed := by
  induction lines generalizing s with
  | nil => exact hs
  | cons line lines ih =>
    by_cases hline : (s.parse d line).error = none
    · rw [parseAll_cons _ hline] at h ⊢
      exact ih (hs.parse d line hline) h
    · rw [parseAll_of_error _ hline] at h
      exact absurd h hline

/-- Lines keep what has been attempted. -/
theorem attempts_parseAll (hs : s.WellFormed) (h : (parseAll d s lines).error = none) :
    s.attempts ⊆ (parseAll d s lines).attempts := by
  induction lines generalizing s with
  | nil => exact List.Subset.refl _
  | cons line lines ih =>
    by_cases hline : (s.parse d line).error = none
    · obtain ⟨new, hnew, -⟩ := attempts_parse hs hline
      rw [parseAll_cons _ hline] at h ⊢
      refine List.Subset.trans ?_ (ih (hs.parse d line hline) h)
      rw [hnew]
      exact subset_append_left _ _
    · rw [parseAll_of_error _ hline] at h
      exact absurd h hline

end LineParsers

/-- What the parsers know, by the lines they have been handed. -/
structure HandedLines (d : DumpReaderInterface γ) (db : DumpDatabase γ)
    (r : DumpFileReader (LineParsers γ)) : Prop where
  parsers : r.parsers = parseAll d (new db) r.handed
  noError : ∀ before input rest, r.handed = before ++ input :: rest →
    (parseAll d (new db) before).error = none
  stops : r.parsers.error ≠ none → r.errorCondition = true

section Run

variable {b fileName : ByteString} {f : ByteString → Option DumpFile} {db : DumpDatabase γ}
  {r : DumpFileReader (LineParsers γ)}

theorem HandedLines.iteration (h : HandedLines d db r) :
    HandedLines d db ((d.setting b f).iteration r) := by
  obtain ⟨hparsers, hhanded⟩ | ⟨raw, input, hhands, hparsers, hhanded, herror⟩ :=
    DumpSetting.iteration_cases (d.setting b f) r
  · refine ⟨?_, ?_, fun hfails => ?_⟩
    · rw [hparsers, hhanded]
      exact h.parsers
    · rw [hhanded]
      exact h.noError
    · rw [hparsers] at hfails
      exact DumpSetting.errorCondition_of_reaches (DumpSetting.reaches_iteration r) (h.stops hfails)
  · have hnone : r.parsers.error = none := by
      by_contra hfails
      have hover : r.isOver = true := by simp [DumpFileReader.isOver, h.stops hfails]
      have hsame : (d.setting b f).iteration r = r := by rw [DumpSetting.iteration, if_pos hover]
      rw [hsame] at hhanded
      simp at hhanded
    rw [h.parsers] at hnone
    have hnext : (parse d r.parsers input) = parseAll d (new db) (r.handed ++ [input]) := by
      rw [parseAll_append _ hnone, parseAll_singleton, h.parsers]
    refine ⟨?_, ?_, ?_⟩
    · rw [hparsers, hhanded]
      exact hnext
    · rw [hhanded]
      intro before line rest hsplit
      rcases eq_nil_or_concat rest with rfl | ⟨rest, last, rfl⟩
      · obtain ⟨hbefore, -⟩ := append_inj' hsplit rfl
        rw [← hbefore]
        exact hnone
      · rw [concat_eq_append, ← cons_append, ← append_assoc] at hsplit
        obtain ⟨hbefore, -⟩ := append_inj' hsplit rfl
        exact h.noError before line rest hbefore
    · rw [hparsers]
      exact herror

/-- **What the parsers know is made of the lines they have been handed**, none of which is an error
but perhaps the last. -/
theorem handedLines_of_reaches
    (h : (d.setting b f).Reaches ((d.setting b f).start fileName (new db)) r) :
    HandedLines d db r := by
  obtain ⟨n, rfl⟩ := h
  induction n with
  | zero =>
    obtain ⟨hparsers, hhanded⟩ := DumpSetting.parsers_start (d.setting b f) fileName (new db)
    refine ⟨?_, ?_, fun hfails => ?_⟩
    · rw [Function.iterate_zero_apply, hparsers, hhanded]
      rfl
    · rw [Function.iterate_zero_apply, hhanded]
      intro before input rest hnil
      simp at hnil
    · rw [Function.iterate_zero_apply, hparsers] at hfails
      exact absurd rfl hfails
  | succ n ih =>
    rw [Function.iterate_succ_apply']
    exact ih.iteration

end Run

/-! ### What fails is an error -/

/-- What a line attempts is done, and a lock that it sets is there; or there is an error. -/
structure Reports (d : DumpReaderInterface γ) (s : LineParsers γ) (input : ByteString) : Prop where
  done : (s.parse d input).error = none →
    ∃ new, (s.parse d input).attempts = s.attempts ++ new ∧ ∀ a ∈ new, a.2 = true
  lockedById : (s.parse d input).error = none → s.subparserMode = .lockId →
    isVariable input = true →
    (s.parse d input).db.currentLock s.currentEntityField =
      (lockById s input s.operationNot).map Lock.copy
  lockedByProperty : (s.parse d input).error = none → s.subparserMode = .lockProperty →
    ∀ key data, (sharedPropertyParser d s input).1 = some (key, data) →
    (s.parse d input).db.currentLock s.currentEntityField =
      some (Lock.lockByProperty .unlocked key data s.operationNot).2.copy

/-- A lock is set by the line. -/
def SetsLock (d : DumpReaderInterface γ) (s : LineParsers γ) (input : ByteString) : Prop :=
  (s.subparserMode = .lockId ∧ isVariable input = true ∧ (s.getVariable input).isDefault = false ∧
    (s.db.setEntityLockFieldById s.currentEntityField (s.getVariable input)
      s.operationNot).1 = true) ∨
  (s.subparserMode = .lockProperty ∧ ∃ key data,
    (sharedPropertyParser d s input).1 = some (key, data) ∧
      (s.db.setEntityLockFieldByProperty s.currentEntityField key data s.operationNot).1 = true)

namespace LineParsers

/-- Where no value is being read. -/
theorem sharedPropertyParser_free (hfree : s.isParsingPropertyData = false) (input : ByteString) :
    sharedPropertyParser d s input = parseFirst d s input := by
  obtain ⟨hdocument, hset⟩ : s.currentDocument = none ∧ s.currentSet = none := by
    simpa [isParsingPropertyData] using hfree
  simp only [sharedPropertyParser, hdocument, hset]

variable {t : LineParsers γ}

/-- A property that is finished has not been stored yet. -/
theorem sharedPropertyParser_finished {input key : ByteString} {data : PropertyData}
    (h : sharedPropertyParser d s input = (some (key, data), t)) :
    t.db = s.db ∧ t.currentEntityField = s.currentEntityField ∧ t.operationNot = s.operationNot ∧
      t.error = s.error ∧ ∃ new, t.attempts = s.attempts ++ new := by
  cases hfree : s.isParsingPropertyData with
  | false =>
    rw [sharedPropertyParser_free hfree] at h
    unfold parseFirst at h
    dsimp only at h
    split at h
    · cases h
    · split at h <;> cases h
    · split at h
      · cases h
      · split_ifs at h <;> cases h
        exact ⟨rfl, rfl, rfl, rfl, [], (append_nil _).symm⟩
    · split_ifs at h
      · cases h
      · split at h <;> cases h
    · unfold parseSimple at h
      split at h
      · cases h
      · split at h <;> cases h
        exact ⟨rfl, rfl, rfl, rfl, [_], rfl⟩
  | true =>
    unfold sharedPropertyParser at h
    split at h
    · next hdocument =>
      obtain ⟨htrue, left, hleft⟩ | ⟨hfalse, -⟩ := sharedDocumentParser_some (d := d)
        (by rw [hdocument]; rfl) input
      · rw [show sharedDocumentParser d s input = (true, { s with itemsLeft := left }) from
          Prod.ext htrue hleft] at h
        obtain ⟨-, rfl⟩ := Prod.mk.inj h
        exact ⟨rfl, rfl, rfl, rfl, [], (append_nil _).symm⟩
      · rw [show sharedDocumentParser d s input = (false, _) from Prod.ext hfalse rfl] at h
        cases h
    · next hdocument hset =>
      obtain hdone | ⟨hfalse, -⟩ := sharedSetParser_some (d := d) (by rw [hset]; rfl)
        s.currentSetType input
      · rw [hdone] at h
        obtain ⟨-, rfl⟩ := Prod.mk.inj h
        exact ⟨rfl, rfl, rfl, rfl, [], (append_nil _).symm⟩
      · rw [show sharedSetParser d s s.currentSetType input = (false, _) from
          Prod.ext hfalse rfl] at h
        cases h
    · next hdocument hset => simp [isParsingPropertyData, hdocument, hset] at hfree

/-- Where a property is finished, it is not the line that ends a lock. -/
theorem subparseLockProperty_finished (hsub : s.subparserMode = .lockProperty)
    {input key : ByteString} {data : PropertyData}
    (h : sharedPropertyParser d s input = (some (key, data), t)) :
    s.parse d input = t.useLockProperty key data := by
  have hend : ¬ (!s.isParsingPropertyData ∧ toLowerCopy (getWord input).1 = ascii "end") := by
    rintro ⟨hfree, hend⟩
    rw [sharedPropertyParser_free (by simpa using hfree)] at h
    have htype : stringToPropertyDataType (ascii "end") = none := by decide +kernel
    simp only [parseFirst, hend, htype] at h
    cases h
  rw [parse, hsub]
  simp only [subparseLockProperty, if_neg hend, h]

theorem useLockProperty_cases (t : LineParsers γ) (key : ByteString) (data : PropertyData) :
    let store := t.db.setEntityLockFieldByProperty t.currentEntityField key data t.operationNot
    (t.useLockProperty key data).db = store.2 ∧
      ((t.useLockProperty key data).error = none ↔ t.error = none ∧ store.1 = true) := by
  intro store
  unfold useLockProperty
  dsimp only
  split
  · next hstore => exact ⟨rfl, by simp [attempted, store, hstore]⟩
  · next hstore => exact ⟨rfl, by simp [setError, store, hstore]⟩

end LineParsers

/-- The lock that is stored is not the one that is to be. -/
theorem currentLock_of_set {db : DumpDatabase γ} {field : EntityField} {lockResult : Bool}
    (h : (db.storeLock field lockResult).1 = true) :
    lockResult = true ∧ (db.storeLock field lockResult).2.currentLock field = some .unlocked := by
  obtain ⟨htrue, -, -, hlock⟩ | ⟨-, hfails⟩ := db.storeLock_cases field lockResult
  · exact ⟨htrue, hlock⟩
  · rw [hfails] at h
    cases h

/-- The line ends a part of the dump, or begins the security of an application. -/
def IsCommand (s : LineParsers γ) (input : ByteString) : Prop :=
  toLowerCopy (getWord input).1 = ascii "end" ∨
    (s.subparserMode = .none ∧ toLowerCopy (getWord input).1 = ascii "security")

variable {input : ByteString}

theorem not_isCommand_of_typeOf {type : PropertyDataType} (h : typeOf input = some type) :
    ¬ IsCommand s input := by
  rintro (hend | ⟨-, hsecurity⟩)
  · exact typeOf_ne_end h hend
  · exact typeOf_ne h (by decide : stringToPropertyDataType (ascii "security") = none) hsecurity

section

variable (hmode : s.TakesProperty) (hfree : s.isParsingPropertyData = false)
include hmode hfree

/-- The first line of a property. -/
theorem parse_first_property (hcommand : ¬ IsCommand s input) :
    s.parse d input =
      match parseFirst d s input with
      | (some (key, data), t) =>
        if s.subparserMode = .lockProperty then t.useLockProperty key data
        else t.demand d (.setProp key data) (ascii "properties: Unable to set property " ++ key) id
      | (none, t) => t := by
  obtain ⟨hend, hsecurity⟩ := not_or.mp hcommand
  rcases hmode with hsub | ⟨hsub, hproperties⟩
  · rw [parse, hsub]
    simp only [subparseLockProperty, hend, and_false, if_false, sharedPropertyParser_free hfree,
      if_true] <;> rfl
  · have hword : toLowerCopy (getWord input).1 ≠ ascii "security" := fun h => hsecurity ⟨hsub, h⟩
    rw [parse, hsub, hproperties]
    simp only [parseProperties, hend, hword, and_false, if_false, sharedPropertyParser_free hfree,
      reduceCtorEq] <;> rfl

/-- A first line that does not finish the property. -/
theorem parse_first_unfinished (hcommand : ¬ IsCommand s input) {t : LineParsers γ}
    (h : parseFirst d s input = (none, t)) : s.parse d input = t := by
  rw [parse_first_property hmode hfree hcommand, h]

/-- A value that cannot be converted is no error. -/
theorem parse_unconvertible (h : Unconvertible d input) :
    ∃ a, s.parse d input = s.attempted a false := by
  obtain ⟨type, key, text, htype, hsimple, hkey, hnone⟩ := h
  have hfirst : parseFirst d s input =
      (none, s.attempted (.createPropertyData (some type) text) false) := by
    have hsimply : parseFirst d s input = parseSimple d s type (getWord input).2 := by
      simp only [parseFirst, htype]
      rcases (by simpa using hsimple :
        type = .string ∨ type = .integer ∨ type = .float ∨ type = .boolean) with
        rfl | rfl | rfl | rfl <;> rfl
    simp only [hsimply, parseSimple, hkey, hnone]
  exact ⟨_, parse_first_unfinished hmode hfree (not_isCommand_of_typeOf htype) hfirst⟩

end

/-- That a program cannot be linked to is no error. -/
theorem parse_unlinkable (hsub : s.subparserMode = .none) (hmode : s.parserMode = .fields)
    (h : Unlinkable d s input) :
    ∃ a, (s.parse d input).error = s.error ∧
      (s.parse d input).attempts = s.attempts ++ [(a, false)] := by
  obtain ⟨word, value, field, hkey, hfield, hprogram, hvariable, hreg, hid, hresult⟩ := h
  have hparse : s.parse d input = parseIdField d { s with currentEntityField := field } field
      value := by
    rcases hprogram with rfl | rfl
    · simp only [parse, hsub, hmode, parseFields, hkey, hfield, whichSetFieldMethod]
    · simp only [parse, hsub, hmode, parseFields, hkey, hfield, whichSetFieldMethod]
  refine ⟨.call (.setEntityFieldId field (s.getProgReg d value)), ?_⟩
  have hid' : (getProgReg d { s with currentEntityField := field } value).isDefault = false := hid
  rw [hparse, parseIdField, if_neg (by simp [hvariable]), if_pos hreg, if_pos hprogram]
  dsimp only
  rw [if_neg (by simp [hid'])]
  refine ⟨rfl, ?_⟩
  show s.attempts ++ [(_, _)] = _
  rw [show (d.perform (.setEntityFieldId field (getProgReg d { s with currentEntityField := field }
    value)) s.db).1 = false from hresult]
  rfl

/-- What is done with a variable in a lock by ID. -/
theorem parse_lockId (hsub : s.subparserMode = .lockId) (hvariable : isVariable input = true) :
    let store := s.db.setEntityLockFieldById s.currentEntityField (s.getVariable input)
      s.operationNot
    ((s.parse d input).error = none ↔
      s.error = none ∧ (s.getVariable input).isDefault = false ∧ store.1 = true) ∧
      ((s.getVariable input).isDefault = false → (s.parse d input).db = store.2) := by
  intro store
  rw [parse, hsub]
  simp only [subparseLockId, if_pos hvariable]
  cases hdefault : (s.getVariable input).isDefault with
  | true => simp [setError]
  | false =>
    rw [if_neg Bool.false_ne_true]
    split
    · next hstore => exact ⟨by simp [attempted, store, hstore], fun _ => rfl⟩
    · next hstore => exact ⟨by simp [setError, store, hstore], fun _ => rfl⟩

theorem lockById_of_set {isNot : Bool} (hdefault : (s.getVariable input).isDefault = false)
    (h : (s.db.setEntityLockFieldById s.currentEntityField (s.getVariable input) isNot).1 = true) :
    ∃ lock, lockById s input isNot = some lock ∧ lock.lockType ≠ .invalid ∧
      (s.db.setEntityLockFieldById s.currentEntityField (s.getVariable input)
        isNot).2.currentLock s.currentEntityField = some .unlocked := by
  obtain ⟨hbuilt, hlock⟩ := currentLock_of_set h
  cases hentity : s.db.entities (s.getVariable input) with
  | none =>
    rw [hentity] at hbuilt
    cases hbuilt
  | some e =>
    refine ⟨(Lock.lockByEntity .unlocked (some e.toEntityData) isNot).2, ?_, ?_, hlock⟩
    · rw [lockById, if_neg (by simp [hdefault]), hentity]
      rfl
    · simp only [Lock.lockByEntity]
      split <;> simp

/-- A line that fails silently is one that does not report it. -/
theorem not_failsSilently_of_reports (herror : s.error = none) (h : Reports d s input) :
    ¬ FailsSilently d s input := by
  intro hsilent
  obtain ⟨a, hnone, hattempts⟩ : ∃ a, (s.parse d input).error = none ∧
      (s.parse d input).attempts = s.attempts ++ [(a, false)] := by
    rcases hsilent with ⟨hmode, hfree, hvalue⟩ | ⟨hsub, hmode, hprogram⟩
    · obtain ⟨a, hparse⟩ := parse_unconvertible hmode hfree hvalue
      exact ⟨a, by rw [hparse]; exact herror, by rw [hparse]; rfl⟩
    · obtain ⟨a, hnone, hattempts⟩ := parse_unlinkable hsub hmode hprogram
      exact ⟨a, hnone.trans herror, hattempts⟩
  obtain ⟨new, hnew, hdone⟩ := h.done hnone
  obtain rfl := append_cancel_left (hattempts.symm.trans hnew)
  cases hdone _ (mem_singleton_self _)

/-- And so is one that sets a lock. -/
theorem not_setsLock_of_reports (herror : s.error = none) (h : Reports d s input) :
    ¬ SetsLock d s input := by
  rintro (⟨hsub, hvariable, hdefault, hstore⟩ | ⟨hsub, key, data, hfinished, hstore⟩)
  · obtain ⟨hnone, hdb⟩ := parse_lockId (d := d) hsub hvariable
    obtain ⟨lock, hlock, hvalid, hcurrent⟩ := lockById_of_set hdefault hstore
    have hlocked := h.lockedById (hnone.mpr ⟨herror, hdefault, hstore⟩) hsub hvariable
    rw [hdb hdefault, hcurrent, hlock] at hlocked
    exact hvalid (congrArg Lock.lockType (Option.some.inj hlocked)).symm
  · rcases hparser : sharedPropertyParser d s input with ⟨property, t⟩
    rw [hparser] at hfinished
    obtain rfl : property = some (key, data) := hfinished
    obtain ⟨hdb, hfield, hnot, hsame, -⟩ := sharedPropertyParser_finished hparser
    obtain ⟨hstored, hnone⟩ := useLockProperty_cases t key data
    rw [hdb, hfield, hnot] at hstored hnone
    have hparse := subparseLockProperty_finished hsub hparser
    have hlocked := h.lockedByProperty
      (by rw [hparse]; exact hnone.mpr ⟨hsame.trans herror, hstore⟩) hsub key data
      (congrArg Prod.fst hparser)
    obtain ⟨hbuilt, hcurrent⟩ := currentLock_of_set hstore
    have hkey : key ≠ [] := by
      rintro rfl
      cases hbuilt
    rw [hparse, hstored] at hlocked
    have hsame' := hcurrent.symm.trans hlocked
    rw [Lock.lockByProperty, if_neg hkey] at hsame'
    cases congrArg Lock.lockType (Option.some.inj hsame')

/-- **When what fails is an error**: the line does not fail silently, and sets no lock. -/
theorem reports_iff (hs : s.WellFormed) (herror : s.error = none) (input : ByteString) :
    Reports d s input ↔ ¬ FailsSilently d s input ∧ ¬ SetsLock d s input := by
  constructor
  · intro h
    exact ⟨not_failsSilently_of_reports herror h, not_setsLock_of_reports herror h⟩
  · rintro ⟨hloud, hlock⟩
    refine ⟨fun hnone => ?_, fun hnone hsub hvariable => ?_,
      fun hnone hsub key data hfinished => ?_⟩
    · obtain ⟨new, hnew, hdone⟩ := attempts_parse hs hnone
      exact ⟨new, hnew, hdone hloud⟩
    · obtain ⟨-, hdefault, hstore⟩ := (parse_lockId (d := d) hsub hvariable).1.mp hnone
      exact absurd (.inl ⟨hsub, hvariable, hdefault, hstore⟩) hlock
    · rcases hparser : sharedPropertyParser d s input with ⟨property, t⟩
      rw [hparser] at hfinished
      obtain rfl : property = some (key, data) := hfinished
      obtain ⟨hdb, hfield, hnot, -⟩ := sharedPropertyParser_finished hparser
      obtain ⟨-, hcases⟩ := useLockProperty_cases t key data
      rw [subparseLockProperty_finished hsub hparser] at hnone
      rw [hdb, hfield, hnot] at hcases
      exact absurd (.inr ⟨hsub, key, data, congrArg Prod.fst hparser, (hcases.mp hnone).2⟩) hlock

/-! ### Values that are finished -/

namespace LineParsers

/-- The lines lead to the end of the dump without an error. -/
structure LeadsToEnd (d : DumpReaderInterface γ) (s : LineParsers γ) (lines : List ByteString) :
    Prop where
  noError : (parseAll d s lines).error = none
  parserMode : (parseAll d s lines).parserMode = .none
  subparserMode : (parseAll d s lines).subparserMode = .none

section LeadsToEnd

variable {input : ByteString} {lines : List ByteString}

section

variable (h : LeadsToEnd d s (input :: lines))
include h

theorem LeadsToEnd.line : (s.parse d input).error = none := by
  by_contra hfails
  have hnone := h.noError
  rw [parseAll_of_error _ hfails] at hnone
  exact hfails hnone

theorem LeadsToEnd.parseAll_eq :
    parseAll d s (input :: lines) = parseAll d (s.parse d input) lines := parseAll_cons _ h.line

theorem LeadsToEnd.rest : LeadsToEnd d (s.parse d input) lines :=
  have heq := h.parseAll_eq
  ⟨heq ▸ h.noError, heq ▸ h.parserMode, heq ▸ h.subparserMode⟩

/-- What the first line attempts has been attempted in the end. -/
theorem LeadsToEnd.mem_attempts (hs : s.WellFormed) {a : Attempt × Bool}
    (ha : a ∈ (s.parse d input).attempts) : a ∈ (parseAll d s (input :: lines)).attempts := by
  rw [h.parseAll_eq]
  exact attempts_parseAll (hs.parse d input h.line) h.rest.noError ha

end

end LeadsToEnd

/-- How a property is stored. -/
def storeAttempt (s : LineParsers γ) (key : ByteString) (data : PropertyData) : Attempt :=
  if s.subparserMode = .lockProperty then
    .setEntityLockFieldByProperty s.currentEntityField key data s.operationNot
  else .call (.setProp key data)

/-- What a document that is the property is for. -/
def propertyDestination (s : LineParsers γ) (key : ByteString) : Destination :=
  if s.subparserMode = .lockProperty then .lock s.currentEntityField key s.operationNot
  else .property key

theorem attempt_propertyDestination (s : LineParsers γ) (key : ByteString)
    (document : DocumentProperty) :
    (s.propertyDestination key).attempt document = s.storeAttempt key (.document document) := by
  unfold propertyDestination storeAttempt
  split <;> rfl

/-- A property that is finished is stored, or there is an error. -/
theorem mem_attempts_of_finished (hmode : s.TakesProperty) {key : ByteString} {data : PropertyData}
    {t : LineParsers γ} (h : sharedPropertyParser d s input = (some (key, data), t))
    (herror : (s.parse d input).error = none) :
    (s.storeAttempt key data, true) ∈ (s.parse d input).attempts := by
  obtain ⟨-, hfield, hnot, -⟩ := sharedPropertyParser_finished h
  rcases hmode with hsub | ⟨hsub, hproperties⟩
  · rw [subparseLockProperty_finished hsub h] at herror ⊢
    rw [storeAttempt, if_pos hsub, ← hfield, ← hnot]
    unfold useLockProperty at herror ⊢
    dsimp only at herror ⊢
    split at herror
    · next hstore => simp [hstore, attempted]
    · simp [setError] at herror
  · have hcommand : ∀ word, stringToPropertyDataType word = none →
        ¬ (!s.isParsingPropertyData ∧ toLowerCopy (getWord input).1 = word) := by
      rintro word hword ⟨hfree, rfl⟩
      rw [sharedPropertyParser_free (by simpa using hfree)] at h
      simp only [parseFirst, hword] at h
      cases h
    have hparse : s.parse d input = t.demand d (.setProp key data)
        (ascii "properties: Unable to set property " ++ key) id := by
      rw [parse, hsub, hproperties]
      simp only [parseProperties]
      rw [if_neg (hcommand _ (by decide)), if_neg (hcommand _ (by decide))]
      simp only [h]
    rw [hparse] at herror ⊢
    rw [storeAttempt, if_neg (by simp [hsub])]
    rcases hperform : d.perform (.setProp key data) t.db with ⟨_ | _, db⟩
    · simp [demand, hperform, setError] at herror
    · simp [demand, hperform, attempted]

theorem endsValue_of_endValue {kind what : ByteString} (h : (s.endValue kind what input).1 = true) :
    EndsValue what input := by
  unfold endValue at h
  dsimp only at h
  split_ifs at h with hcommand hrest
  exact ⟨hcommand, hrest⟩

variable {dest : Destination}

/-- Where the modes are closed, no document is being read. -/
theorem not_receives_of_closed (hmode : s.parserMode = .none) (hsub : s.subparserMode = .none) :
    ¬ dest.Receives s := by
  intro h
  cases dest with
  | entityField field =>
    have hsub' := h.1
    rw [hsub] at hsub'
    cases hsub'
  | property key =>
    have hmode' := h.2.1
    rw [hmode] at hmode'
    cases hmode'
  | lock field key isNot =>
    have hsub' := h.1
    rw [hsub] at hsub'
    cases hsub'

/-- **A document that has been begun is finished**, where the lines lead to the end without an
error, and it has the lines up to there. -/
theorem exists_closes {document : DocumentProperty} {rest : List ByteString} (hs : s.WellFormed)
    (hreceives : dest.Receives s) (hdocument : s.currentDocument = some document)
    (hleads : LeadsToEnd d s rest) :
    ∃ lines closing after last, rest = lines ++ closing :: after ∧
      ClosedBy s.itemsLeft lines closing ∧ last.documentData = document.documentData ++ lines ∧
      (dest.attempt last, true) ∈ (parseAll d s rest).attempts := by
  induction rest generalizing s document with
  | nil => exact absurd hreceives (not_receives_of_closed hleads.parserMode hleads.subparserMode)
  | cons line rest ih =>
    have hsome : s.currentDocument.isSome = true := by rw [hdocument]; rfl
    have hline := hleads.line
    by_cases hcloses : (sharedDocumentParser d s line).1 = true
    · -- the line closes the document, which is stored
      obtain ⟨-, left, hleft⟩ | ⟨hfalse, -⟩ := sharedDocumentParser_some (d := d) hsome line
      · have hclosed := documentClosed_parse (d := d) hreceives hdocument
          (Prod.ext hcloses hleft)
        have hstored := (hclosed.error.mp hline).2
        refine ⟨[], line, rest, document, rfl, ⟨by simp, ?_⟩, (append_nil _).symm, ?_⟩
        · by_cases hzero : 0 < s.itemsLeft
          · refine .inr ⟨hzero, ?_⟩
            by_contra hend
            simp only [sharedDocumentParser, hdocument, if_pos hzero, if_neg hend] at hcloses
            split at hcloses <;> cases hcloses
          · refine .inl ⟨by simpa using hzero, ?_⟩
            simp only [sharedDocumentParser, hdocument, if_neg hzero] at hcloses
            exact endsValue_of_endValue hcloses
        · refine hleads.mem_attempts hs ?_
          rw [hclosed.attempts, hstored]
          exact mem_append_right _ (mem_singleton_self _)
      · rw [hcloses] at hfalse
        cases hfalse
    · -- the line is appended to it
      have hfalse : (sharedDocumentParser d s line).1 = false := by simpa using hcloses
      have hparse := parse_unfinished hreceives.takesDocument hsome hfalse
      have hzero : 0 < s.itemsLeft := by
        by_contra hzero
        have hend := endValue_cases s (ascii "document") (ascii "lines") line
        have hshared : sharedDocumentParser d s line =
            s.endValue (ascii "document") (ascii "lines") line := by
          simp only [sharedDocumentParser, hdocument, if_neg hzero]
        rw [← hshared, ← hparse] at hend
        obtain hend | ⟨-, hfails⟩ := hend
        · rw [hend] at hcloses
          exact hcloses rfl
        · exact hfails hline
      have hend : line ≠ ascii ".end" := by
        rintro rfl
        simp [sharedDocumentParser, hdocument, hzero] at hcloses
      obtain ⟨next, happend, hread⟩ | ⟨-, hfails, -⟩ :=
        parse_appendLine (d := d) hreceives.takesDocument hdocument hzero hend
      · have hreceives' : dest.Receives (s.parse d line) := by
          rw [hread]
          cases dest <;> exact hreceives
        obtain ⟨lines, closing, after, last, rfl, hclosed, hdata, hstored⟩ :=
          ih (hs.parse d line hline) hreceives' (by rw [hread]; rfl) hleads.rest
        rw [← hleads.parseAll_eq] at hstored
        refine ⟨line :: lines, closing, after, last, rfl, ⟨?_, ?_⟩, ?_, hstored⟩
        · exact forall_mem_cons.mpr ⟨hend, hclosed.inside⟩
        · have hleft : (s.parse d line).itemsLeft = s.itemsLeft - 1 := by rw [hread]; rfl
          rw [length_cons]
          rcases hclosed.closes with ⟨hcount, hvalue⟩ | ⟨hcount, hvalue⟩
          · exact .inl ⟨by omega, hvalue⟩
          · exact .inr ⟨by omega, hvalue⟩
        · rw [hdata, DocumentProperty.documentData_appendLine happend, append_assoc,
            singleton_append]
      · exact absurd hline hfails

/-- In a set a line is its next item, or ends it. -/
theorem sharedPropertyParser_set (d : DumpReaderInterface γ) {set : PropertyData}
    (line : ByteString) (hdocument : s.currentDocument = none) (hset : s.currentSet = some set) :
    sharedPropertyParser d s line =
      match sharedSetParser d s s.currentSetType line with
      | (true, s') =>
        (s'.currentSet.map fun set => (s'.currentProperty, set),
          { s' with currentProperty := [], currentSet := none })
      | (false, s') => (none, s') := by
  simp only [sharedPropertyParser, hdocument, hset] <;> rfl

/-- **A set that has been begun is finished**, where the lines lead to the end without an error,
and there is nothing in it. -/
theorem set_closes {rest : List ByteString} (hs : s.WellFormed)
    (hdocument : s.currentDocument = none) (hset : s.currentSet = some (.set none []))
    (hleads : LeadsToEnd d s rest) :
    ∃ closing after, rest = closing :: after ∧ s.itemsLeft = 0 ∧
      EndsValue (ascii "items") closing ∧
      (s.storeAttempt s.currentProperty (.set none []), true) ∈ (parseAll d s rest).attempts := by
  have htakes : s.TakesProperty := hs.set (by rw [hset]; rfl)
  cases rest with
  | nil =>
    exfalso
    rcases htakes with hlock | ⟨-, hproperties⟩
    · rw [show s.subparserMode = .none from hleads.subparserMode] at hlock
      cases hlock
    · rw [show s.parserMode = .none from hleads.parserMode] at hproperties
      cases hproperties
  | cons closing after =>
    have hline := hleads.line
    have hvalue : s.isParsingPropertyData = true := by simp [isParsingPropertyData, hset]
    have hshared := sharedPropertyParser_set d closing hdocument hset
    -- what is not finished is an error
    have hfinished : ∀ t, sharedSetParser d s s.currentSetType closing = (false, t) →
        t.error = none := by
      intro t ht
      rw [ht] at hshared
      have hparse : s.parse d closing = t := by
        rcases htakes with hlock | ⟨hfree, hproperties⟩
        · rw [parse_inValue hlock hvalue, hshared]
        · simp [parse, hfree, hproperties, parseProperties, hvalue, hshared]
      rw [← hparse]
      exact hline
    have hzero : s.itemsLeft = 0 := by
      by_contra hleft
      have hset' : sharedSetParser d s s.currentSetType closing =
          (false, { addItem d s (.set none []) closing with itemsLeft := s.itemsLeft - 1 }) := by
        simp only [sharedSetParser, hset, if_pos (Nat.pos_of_ne_zero hleft)]
      have hadded := hfinished _ hset'
      -- the type of the items has not been remembered
      have hconvert : d.createPropertyData s.currentSetType closing = none := by
        rw [hs.setType]
        rfl
      simp [addItem, hconvert, setError] at hadded
    have hset' : sharedSetParser d s s.currentSetType closing =
        s.endValue (ascii "set") (ascii "items") closing := by
      simp only [sharedSetParser, hset, hzero, lt_irrefl, if_false]
    obtain hend | ⟨hfalse, hfails⟩ := endValue_cases s (ascii "set") (ascii "items") closing
    · rw [hset', hend] at hshared
      simp only [hset, Option.map_some] at hshared
      refine ⟨closing, after, rfl, hzero, endsValue_of_endValue (by rw [hend]), ?_⟩
      exact hleads.mem_attempts hs (mem_attempts_of_finished htakes hshared hline)
    · exact absurd (hfinished _ (hset'.trans (Prod.ext hfalse rfl))) hfails

end LineParsers

/-- The lines are a property, with its name and its value. -/
inductive NamesProperty (d : DumpReaderInterface γ) (s : LineParsers γ) :
    List ByteString → ByteString → PropertyData → Prop
  | simple {line key text : ByteString} {type : PropertyDataType} {data : PropertyData}
      (htype : typeOf line = some type) (hsimple : type ∈ simpleTypes)
      (hkey : getKeyValue (getWord line).2 = some (key, text))
      (hdata : d.createPropertyData (some type) text = some data) :
      NamesProperty d s [line] key data
  | id {line key reference : ByteString} (htype : typeOf line = some .id)
      (hkey : getKeyValue (getWord line).2 = some (key, reference))
      (hid : (s.getVariable reference).isDefault = false) :
      NamesProperty d s [line] key (.id (s.getVariable reference))
  | document {line key count closing : ByteString} {lines : List ByteString} {n : ℕ}
      {document : DocumentProperty} (htype : typeOf line = some .document)
      (hkey : getKeyValue (getWord line).2 = some (key, count))
      (hcount : Counts (ascii "lines") count n) (hclosed : ClosedBy n lines closing)
      (hdata : document.documentData = lines) :
      NamesProperty d s (line :: (lines ++ [closing])) key (.document document)
  | set {line key count closing : ByteString} {items : List ByteString} {type : PropertyDataType}
      {data : PropertyData} (htype : typeOf line = some .set)
      (hset : typeOf (getWord line).2 = some type)
      (hkey : getKeyValue (getWord (getWord line).2).2 = some (key, count))
      (hcount : Counts (ascii "items") count items.length)
      (hend : EndsValue (ascii "items") closing)
      (hdata : setOf d type (.set none []) items = some data) :
      NamesProperty d s (line :: (items ++ [closing])) key data

/-- The lines begin with a property, and it is stored. -/
def StoresProperty (d : DumpReaderInterface γ) (s : LineParsers γ) (lines : List ByteString)
    (attempts : List (Attempt × Bool)) : Prop :=
  ∃ first after key data, lines = first ++ after ∧ NamesProperty d s first key data ∧
    (s.storeAttempt key data, true) ∈ attempts

/-- A document is begun by how many lines it has, or this is an error. -/
theorem counts_of_sharedDocumentParser (h : s.currentDocument = none)
    (herror : (sharedDocumentParser d s input).2.error = none) :
    ∃ n, Counts (ascii "lines") input n := by
  simp only [sharedDocumentParser, h] at herror
  split at herror
  · next hword =>
    split at herror
    · simp [setError] at herror
    · next n hn => exact ⟨n, hword, hn⟩
  · simp [setError] at herror

/-- A set is begun by how many items it has, or this is an error. -/
theorem counts_of_sharedSetParser (h : s.currentSet = none) {type : Option PropertyDataType}
    (herror : (sharedSetParser d s type input).2.error = none) :
    ∃ n, Counts (ascii "items") input n ∧ sharedSetParser d s type input = (false,
      { s.attempted (.fromString (getWord input).2) true with
        itemsLeft := n, currentSet := some (.set none []) }) := by
  obtain ⟨n, hcount, hbegin⟩ | ⟨-, -, hfails, -⟩ := sharedSetParser_begin (d := d) h type input
  · exact ⟨n, hcount, hbegin⟩
  · exact absurd herror hfails

/-! ### Properties -/

section Property

variable {input : ByteString} {rest : List ByteString} {t : LineParsers γ} {type : PropertyDataType}

/-- A first line that does not finish the property is no error. -/
theorem error_parseFirst (hmode : s.TakesProperty) (hfree : s.isParsingPropertyData = false)
    (hcommand : ¬ IsCommand s input) (hleads : LeadsToEnd d s (input :: rest))
    (h : parseFirst d s input = (none, t)) : t.error = none := by
  rw [← parse_first_unfinished hmode hfree hcommand h]
  exact hleads.line

/-- A first line that finishes the property stores it. -/
theorem storesProperty_of_finished (hs : s.WellFormed) (hmode : s.TakesProperty)
    (hfree : s.isParsingPropertyData = false) (hleads : LeadsToEnd d s (input :: rest))
    {key : ByteString} {data : PropertyData} (h : parseFirst d s input = (some (key, data), t))
    (hnames : NamesProperty d s [input] key data) :
    StoresProperty d s (input :: rest) (parseAll d s (input :: rest)).attempts := by
  refine ⟨[input], rest, key, data, rfl, hnames, hleads.mem_attempts hs ?_⟩
  exact mem_attempts_of_finished hmode ((sharedPropertyParser_free hfree input).trans h) hleads.line

theorem parseFirst_simple (htype : typeOf input = some type) (hsimple : type ∈ simpleTypes) :
    parseFirst d s input = parseSimple d s type (getWord input).2 := by
  rw [typeOf] at htype
  simp only [parseFirst, htype]
  rcases (by simpa [simpleTypes] using hsimple :
    type = .string ∨ type = .integer ∨ type = .float ∨ type = .boolean) with
    rfl | rfl | rfl | rfl <;> rfl

theorem storesProperty_simple (hs : s.WellFormed) (hmode : s.TakesProperty)
    (hfree : s.isParsingPropertyData = false) (hloud : ¬ FailsSilently d s input)
    (hleads : LeadsToEnd d s (input :: rest)) (htype : typeOf input = some type)
    (hsimple : type ∈ simpleTypes) :
    StoresProperty d s (input :: rest) (parseAll d s (input :: rest)).attempts := by
  have hfirst := parseFirst_simple (d := d) (s := s) htype hsimple
  cases hkey : getKeyValue (getWord input).2 with
  | none =>
    have hfails := error_parseFirst hmode hfree (not_isCommand_of_typeOf htype) hleads
      (hfirst.trans (by rw [parseSimple, hkey]))
    simp [setError] at hfails
  | some pair =>
    obtain ⟨key, text⟩ := pair
    cases hdata : d.createPropertyData (some type) text with
    | none =>
      refine absurd (.inl ⟨hmode, hfree, type, key, text, htype, ?_, hkey, hdata⟩) hloud
      simpa [simpleTypes] using hsimple
    | some data =>
      refine storesProperty_of_finished hs hmode hfree hleads
        (t := s.attempted (.createPropertyData (some type) text) true) ?_
        (.simple htype hsimple hkey hdata)
      rw [hfirst, parseSimple, hkey]
      simp only [hdata]

theorem storesProperty_id (hs : s.WellFormed) (hmode : s.TakesProperty)
    (hfree : s.isParsingPropertyData = false) (hleads : LeadsToEnd d s (input :: rest))
    (htype : typeOf input = some .id) :
    StoresProperty d s (input :: rest) (parseAll d s (input :: rest)).attempts := by
  have hunfinished : ∀ t, parseFirst d s input = (none, t) → t.error = none := fun _ =>
    error_parseFirst hmode hfree (not_isCommand_of_typeOf htype) hleads
  have hword : stringToPropertyDataType (toLowerCopy (getWord input).1) = some .id := htype
  simp only [parseFirst, hword] at hunfinished
  cases hkey : getKeyValue (getWord input).2 with
  | none => simp [hkey, setError] at hunfinished
  | some pair =>
    obtain ⟨key, reference⟩ := pair
    simp only [hkey] at hunfinished
    by_cases hvariable : isVariable reference = true
    · cases hdefault : (s.getVariable reference).isDefault with
      | true => simp [hvariable, hdefault, setError] at hunfinished
      | false =>
        refine storesProperty_of_finished hs hmode hfree hleads (t := s) ?_
          (.id htype hkey hdefault)
        simp [parseFirst, hword, hkey, hvariable, hdefault]
    · simp [hvariable, setError] at hunfinished

theorem storesProperty_document (hs : s.WellFormed) (hserror : s.error = none)
    (hmode : s.TakesProperty) (hfree : s.isParsingPropertyData = false)
    (hleads : LeadsToEnd d s (input :: rest)) (htype : typeOf input = some .document) :
    StoresProperty d s (input :: rest) (parseAll d s (input :: rest)).attempts := by
  have hdocument : s.currentDocument = none := by simpa using (Bool.or_eq_false_iff.mp hfree).1
  have hunfinished : ∀ t, parseFirst d s input = (none, t) → t.error = none := fun _ =>
    error_parseFirst hmode hfree (not_isCommand_of_typeOf htype) hleads
  have hword : stringToPropertyDataType (toLowerCopy (getWord input).1) = some .document := htype
  simp only [parseFirst, hword] at hunfinished
  cases hkey : getKeyValue (getWord input).2 with
  | none => simp [hkey, setError] at hunfinished
  | some pair =>
    obtain ⟨key, count⟩ := pair
    simp only [hkey] at hunfinished
    obtain ⟨n, hcount⟩ := counts_of_sharedDocumentParser (s := { s with currentProperty := key })
      hdocument (hunfinished _ rfl)
    have hbegins : (s.propertyDestination key).Begins s n input := by
      unfold propertyDestination
      rcases hmode with hsub | ⟨hsub, hproperties⟩
      · rw [if_pos hsub]
        exact ⟨hsub, rfl, rfl, htype, count, hkey, hcount⟩
      · rw [if_neg (by simp [hsub])]
        exact ⟨hsub, hproperties, htype, count, hkey, hcount⟩
    have hproperty : s.parserMode = .fields → s.currentProperty = [] := fun hfields =>
      hs.property (.inl hfree) (by simp [hfields]) (by simp [hfields])
    have hbegun := documentBegun_parse (d := d) hfree hserror hproperty hbegins
    obtain ⟨lines, closing, after, last, rfl, hclosed, hdata, hstored⟩ :=
      exists_closes (hs.parse d input hleads.line) hbegun.receives hbegun.document hleads.rest
    rw [Destination.documentData_begun, nil_append] at hdata
    rw [attempt_propertyDestination, ← hleads.parseAll_eq] at hstored
    exact ⟨input :: (lines ++ [closing]), after, key, .document last, by simp,
      .document htype hkey hcount (hbegun.left ▸ hclosed) hdata, hstored⟩

theorem storesProperty_set (hs : s.WellFormed) (hmode : s.TakesProperty)
    (hfree : s.isParsingPropertyData = false) (hleads : LeadsToEnd d s (input :: rest))
    (htype : typeOf input = some .set) :
    StoresProperty d s (input :: rest) (parseAll d s (input :: rest)).attempts := by
  obtain ⟨hdocument, hset⟩ : s.currentDocument = none ∧ s.currentSet = none := by
    simpa [isParsingPropertyData] using hfree
  have hcommand := not_isCommand_of_typeOf (s := s) htype
  have hunfinished : ∀ t, parseFirst d s input = (none, t) → t.error = none := fun _ =>
    error_parseFirst hmode hfree hcommand hleads
  have hword : stringToPropertyDataType (toLowerCopy (getWord input).1) = some .set := htype
  cases hitem : typeOf (getWord input).2 with
  | none =>
    rw [typeOf] at hitem
    simp [parseFirst, hword, hitem, setError] at hunfinished
  | some type =>
    have hitemWord := hitem
    rw [typeOf] at hitemWord
    cases hkey : getKeyValue (getWord (getWord input).2).2 with
    | none => simp [parseFirst, hword, hitemWord, hkey, setError] at hunfinished
    | some pair =>
      obtain ⟨key, count⟩ := pair
      have hfirst : parseFirst d s input = (none,
          (sharedSetParser d { s with currentProperty := key } (some type) count).2) := by
        simp only [parseFirst, hword, hitemWord, hkey, reduceCtorEq, if_false]
      obtain ⟨n, hcount, hbegin⟩ := counts_of_sharedSetParser
        (s := { s with currentProperty := key }) hset (hunfinished _ hfirst)
      have hparse := parse_first_unfinished hmode hfree hcommand hfirst
      rw [hbegin] at hparse
      have hbegun := hleads.rest
      have hwell := hs.parse d input hleads.line
      have hattempts := hleads.parseAll_eq
      rw [hparse] at hbegun hwell hattempts
      obtain ⟨closing, after, rfl, hzero, hend, hstored⟩ :=
        set_closes hwell hdocument rfl hbegun
      obtain rfl : n = 0 := hzero
      rw [← hattempts] at hstored
      exact ⟨input :: ([] ++ [closing]), after, key, .set none [], rfl,
        .set htype hitem hkey hcount hend rfl, hstored⟩

/-- **A property is stored**, if the lines from its first one on lead to the end without an error:
it has a value that can be converted. -/
theorem storesProperty (hs : s.WellFormed) (hserror : s.error = none) (hmode : s.TakesProperty)
    (hfree : s.isParsingPropertyData = false) (hcommand : ¬ IsCommand s input)
    (hloud : ¬ FailsSilently d s input) (hleads : LeadsToEnd d s (input :: rest)) :
    StoresProperty d s (input :: rest) (parseAll d s (input :: rest)).attempts := by
  cases htype : typeOf input with
  | none =>
    have hword : stringToPropertyDataType (toLowerCopy (getWord input).1) = none := htype
    have hfails := error_parseFirst (t := (parseFirst d s input).2) hmode hfree hcommand hleads
      (by simp [parseFirst, hword])
    simp [parseFirst, hword, setError] at hfails
  | some type =>
    cases type with
    | document => exact storesProperty_document hs hserror hmode hfree hleads htype
    | id => exact storesProperty_id hs hmode hfree hleads htype
    | set => exact storesProperty_set hs hmode hfree hleads htype
    | _ => exact storesProperty_simple hs hmode hfree hloud hleads htype (by simp [simpleTypes])

end Property

/-! ### Fields -/

/-- The line is a field with a value. -/
def NamesField (line : ByteString) (field : EntityField) (value : ByteString) : Prop :=
  ∃ word, getKeyValue line = some (word, value) ∧
    stringToEntityField (toLowerCopy word) = some field

/-- The lines begin with a field, and it is stored, or with the end of the fields. -/
inductive StoresField (d : DumpReaderInterface γ) (s : LineParsers γ) (lines : List ByteString)
    (attempts : List (Attempt × Bool)) : Prop
  | ends {line : ByteString} {after : List ByteString} (hlines : lines = line :: after)
      (hend : (getWord (toLowerCopy line)).1 = ascii "end")
      (hfields : (getWord (toLowerCopy line)).2 = ascii "fields")
  | string {line value : ByteString} {after : List ByteString} {field : EntityField}
      (hlines : lines = line :: after) (hfield : NamesField line field value)
      (hmethod : whichSetFieldMethod field = .string ∨ whichSetFieldMethod field = .stringMultiple)
      (hstored : (.call (.setEntityFieldString field value), true) ∈ attempts)
  | id {line value : ByteString} {after : List ByteString} {field : EntityField} {id : Id}
      (hlines : lines = line :: after) (hfield : NamesField line field value)
      (hmethod : whichSetFieldMethod field = .id ∨ whichSetFieldMethod field = .idMultiple)
      (hid : id = s.getVariable value ∨ id = s.getProgReg d value) (hvalid : id.isDefault = false)
      (hstored : (.call (.setEntityFieldId field id), true) ∈ attempts)
  | document {line count closing : ByteString} {text after : List ByteString} {field : EntityField}
      {n : ℕ} {document : DocumentProperty} (hlines : lines = line :: (text ++ closing :: after))
      (hfield : NamesField line field count) (hmethod : whichSetFieldMethod field = .document)
      (hcount : Counts (ascii "lines") count n) (hclosed : ClosedBy n text closing)
      (hdata : document.documentData = text)
      (hstored : (.call (.setEntityFieldDocument field document), true) ∈ attempts)
  /-- It begins a section for a lock. -/
  | lock {line kind : ByteString} {after : List ByteString} {field : EntityField}
      (hlines : lines = line :: after) (hfield : NamesField line field kind)
      (hmethod : whichSetFieldMethod field = .lock)
      (hsection : (s.parse d line).subparserMode = .lockId ∨
        (s.parse d line).subparserMode = .lockProperty)

section Field

variable {input : ByteString} {rest : List ByteString}

/-- What a call has done, if it is no error. -/
theorem mem_attempts_demand {c : DumpCall} {cause : ByteString}
    (herror : (s.demand d c cause id).error = none) :
    (.call c, true) ∈ (s.demand d c cause id).attempts := by
  rcases hperform : d.perform c s.db with ⟨_ | _, db⟩
  · simp [demand, hperform, setError] at herror
  · simp [demand, hperform, attempted]

variable {field : EntityField} {value : ByteString}

/-- An ID that is set, if this is no error and a program can be linked to. -/
theorem mem_attempts_parseIdField (herror : (s.parseIdField d field value).error = none)
    (hlinked : field = .linkedPrograms ∨ field = .actionTargets → isVariable value = false →
      isProgRegName value = true → (s.getProgReg d value).isDefault = false →
      (d.perform (.setEntityFieldId field (s.getProgReg d value)) s.db).1 = true) :
    ∃ id, (id = s.getVariable value ∨ id = s.getProgReg d value) ∧ id.isDefault = false ∧
      (.call (.setEntityFieldId field id), true) ∈ (s.parseIdField d field value).attempts := by
  unfold parseIdField at herror ⊢
  split at herror
  · next hvariable =>
    rw [if_pos hvariable]
    split at herror
    · simp [setError] at herror
    · next hid =>
      rw [if_neg hid]
      exact ⟨_, .inl rfl, by simpa using hid, mem_attempts_demand herror⟩
  next hvariable =>
  rw [if_neg hvariable]
  split at herror
  next hreg =>
    rw [if_pos hreg]
    split at herror
    next hfield =>
      rw [if_pos hfield]
      dsimp only at herror ⊢
      split at herror
      · simp [setError] at herror
      · next hid =>
        rw [if_neg hid]
        refine ⟨_, .inr rfl, by simpa using hid, ?_⟩
        rw [hlinked hfield (by simpa using hvariable) hreg (by simpa using hid)]
        exact mem_append_right _ (mem_singleton_self _)
    · simp [setError] at herror
  · simp [setError] at herror

theorem subparserMode_subparseLock (kind : ByteString)
    (herror : (s.subparseLock kind).error = none) :
    (s.subparseLock kind).subparserMode = .lockId ∨
      (s.subparseLock kind).subparserMode = .lockProperty := by
  unfold subparseLock at herror ⊢
  dsimp only at herror ⊢
  split_ifs at herror ⊢
  · exact .inl rfl
  · exact .inl rfl
  · exact .inr rfl
  · exact .inr rfl
  · simp [setError] at herror

theorem storesField_document (hs : s.WellFormed) (hserror : s.error = none)
    (hsub : s.subparserMode = .none) (hmode : s.parserMode = .fields) {count : ByteString}
    (hfield : NamesField input field count) (hmethod : whichSetFieldMethod field = .document)
    (hparse : s.parse d input =
      subparseDocument d { s with currentEntityField := field, subparserMode := .document } count)
    (hleads : LeadsToEnd d s (input :: rest)) :
    StoresField d s (input :: rest) (parseAll d s (input :: rest)).attempts := by
  have hfree : s.isParsingPropertyData = false := by
    have htakes : ¬ s.TakesDocument := by simp [TakesDocument, TakesProperty, hsub, hmode]
    have hdocument : s.currentDocument.isSome = false :=
      Bool.eq_false_iff.mpr fun h => htakes (hs.document h).1
    have hset : s.currentSet.isSome = false :=
      Bool.eq_false_iff.mpr fun h => htakes (.inr (hs.set h))
    rw [isParsingPropertyData, hdocument, hset]
    rfl
  have hdocument : s.currentDocument = none := by simpa using (Bool.or_eq_false_iff.mp hfree).1
  have hproperty : s.parserMode = .fields → s.currentProperty = [] := fun hfields =>
    hs.property (.inl hfree) (by simp [hfields]) (by simp [hfields])
  obtain ⟨n, hcount⟩ : ∃ n, Counts (ascii "lines") count n := by
    have herror := hleads.line
    rw [hparse, subparseDocument] at herror
    have hnone := (sharedDocumentParser_none (d := d)
      (s := { s with currentEntityField := field, subparserMode := .document }) hdocument count).1
    rcases hshared : sharedDocumentParser d
      { s with currentEntityField := field, subparserMode := .document } count with ⟨result, t⟩
    rw [hshared] at hnone herror
    obtain rfl : result = false := hnone
    refine counts_of_sharedDocumentParser (d := d)
      (s := { s with currentEntityField := field, subparserMode := .document }) hdocument ?_
    rw [hshared]
    exact herror
  obtain ⟨word, hkey, hname⟩ := hfield
  have hbegins : (Destination.entityField field).Begins s n input :=
    ⟨hsub, hmode, word, count, hkey, hname, hmethod, hcount⟩
  have hbegun := documentBegun_parse (d := d) hfree hserror hproperty hbegins
  obtain ⟨lines, closing, after, last, rfl, hclosed, hdata, hstored⟩ :=
    exists_closes (hs.parse d input hleads.line) hbegun.receives hbegun.document hleads.rest
  rw [Destination.documentData_begun, nil_append] at hdata
  rw [← hleads.parseAll_eq] at hstored
  exact .document rfl ⟨word, hkey, hname⟩ hmethod hcount (hbegun.left ▸ hclosed) hdata hstored

theorem storesField_id (hs : s.WellFormed) (hsub : s.subparserMode = .none)
    (hmode : s.parserMode = .fields) (hfield : NamesField input field value)
    (hmethod : whichSetFieldMethod field = .id ∨ whichSetFieldMethod field = .idMultiple)
    (hparse : s.parse d input = parseIdField d { s with currentEntityField := field } field value)
    (hloud : ¬ FailsSilently d s input) (hleads : LeadsToEnd d s (input :: rest)) :
    StoresField d s (input :: rest) (parseAll d s (input :: rest)).attempts := by
  have herror := hleads.line
  have hmem : ∀ a, a ∈ (s.parse d input).attempts →
      a ∈ (parseAll d s (input :: rest)).attempts := fun a => hleads.mem_attempts hs
  rw [hparse] at herror hmem
  obtain ⟨word, hkey, hname⟩ := hfield
  obtain ⟨id, hid, hvalid, hstored⟩ := mem_attempts_parseIdField herror
    fun hprogram hvariable hreg hdefault => by
      by_contra hresult
      exact hloud (.inr ⟨hsub, hmode, word, value, field, hkey, hname, hprogram, hvariable, hreg,
        hdefault, Bool.eq_false_iff.mpr hresult⟩)
  exact .id rfl ⟨word, hkey, hname⟩ hmethod hid hvalid (hmem _ hstored)

/-- A line that names a field goes to what reads the values of its kind. -/
theorem parseFields_of_field (d : DumpReaderInterface γ) {word : ByteString}
    (hkey : getKeyValue input = some (word, value))
    (hname : stringToEntityField (toLowerCopy word) = some field) (hinvalid : field ≠ .invalid) :
    s.parseFields d input =
      match whichSetFieldMethod field with
      | .string | .stringMultiple =>
        demand d { s with currentEntityField := field } (.setEntityFieldString field value)
          (ascii "entity field (string): Cannot set field " ++ toLowerCopy word ++
            ascii " to " ++ value) id
      | .id | .idMultiple => parseIdField d { s with currentEntityField := field } field value
      | .document =>
        subparseDocument d { s with currentEntityField := field, subparserMode := .document } value
      | .lock =>
        subparseLock { s with currentEntityField := field, subparserMode := .lock } value
      | .invalid => setError { s with currentEntityField := field }
          (ascii "entity field: Invalid field for being set: " ++ toLowerCopy word) := by
  unfold parseFields
  rw [hkey]
  dsimp only
  rw [hname]
  cases field <;> first | rfl | exact absurd rfl hinvalid

/-- **A field is stored**, if the lines from its first one on lead to the end without an error. -/
theorem storesField (hs : s.WellFormed) (hserror : s.error = none)
    (hsub : s.subparserMode = .none) (hmode : s.parserMode = .fields)
    (hloud : ¬ FailsSilently d s input) (hleads : LeadsToEnd d s (input :: rest)) :
    StoresField d s (input :: rest) (parseAll d s (input :: rest)).attempts := by
  have herror := hleads.line
  have hparse : s.parse d input = s.parseFields d input := by rw [parse, hsub, hmode]
  have hmem : ∀ a, a ∈ (s.parse d input).attempts →
      a ∈ (parseAll d s (input :: rest)).attempts := fun a => hleads.mem_attempts hs
  rw [hparse] at herror hmem
  cases hkey : getKeyValue input with
  | none =>
    simp only [parseFields, hkey] at herror
    split at herror
    · next hend => exact .ends rfl hend.1 hend.2
    · simp [setError] at herror
  | some pair =>
    obtain ⟨word, value⟩ := pair
    cases hname : stringToEntityField (toLowerCopy word) with
    | none => simp [parseFields, hkey, hname, setError] at herror
    | some field =>
      by_cases hinvalid : field = .invalid
      · simp [parseFields, hkey, hname, hinvalid, setError] at herror
      have hfield : NamesField input field value := ⟨word, hkey, hname⟩
      have hfields := parseFields_of_field (s := s) d hkey hname hinvalid
      rw [hfields] at herror hmem
      cases hmethod : whichSetFieldMethod field with
      | string =>
        rw [hmethod] at herror hmem
        exact .string rfl hfield (.inl hmethod) (hmem _ (mem_attempts_demand herror))
      | stringMultiple =>
        rw [hmethod] at herror hmem
        exact .string rfl hfield (.inr hmethod) (hmem _ (mem_attempts_demand herror))
      | id =>
        refine storesField_id hs hsub hmode hfield (.inl hmethod) ?_ hloud hleads
        rw [hparse, hfields, hmethod]
      | idMultiple =>
        refine storesField_id hs hsub hmode hfield (.inr hmethod) ?_ hloud hleads
        rw [hparse, hfields, hmethod]
      | document =>
        refine storesField_document hs hserror hsub hmode hfield hmethod ?_ hleads
        rw [hparse, hfields, hmethod]
      | lock =>
        rw [hmethod] at herror
        refine .lock rfl hfield hmethod ?_
        rw [hparse, hfields, hmethod]
        exact subparserMode_subparseLock value herror
      | invalid =>
        rw [hmethod] at herror
        simp [setError] at herror

end Field

/-! ### No line does nothing -/

/-- Something has been attempted, or it is an error. -/
def Grows (s t : LineParsers γ) : Prop :=
  t.error = none → s.attempts.length < t.attempts.length

/-- Something has been attempted or the mode has changed, or it is an error. -/
def Acts (s t : LineParsers γ) : Prop :=
  t.error = none → s.attempts.length < t.attempts.length ∨ t.parserMode ≠ s.parserMode ∨
    t.subparserMode ≠ s.subparserMode

theorem Grows.acts {t : LineParsers γ} (h : Grows s t) : Acts s t := fun hnone => .inl (h hnone)

section Acts

variable {input : ByteString}

theorem grows_setError (s t : LineParsers γ) (cause : ByteString) : Grows s (t.setError cause) :=
  fun hnone => by cases hnone

theorem grows_attempted (s t : LineParsers γ) (a : Attempt) (result : Bool)
    (h : s.attempts.length ≤ t.attempts.length) : Grows s (t.attempted a result) := fun _ => by
  simp only [attempted, length_append, length_singleton]
  omega

variable {t : LineParsers γ} {c : Prop} {u : LineParsers γ} {next : LineParsers γ → LineParsers γ}

theorem Grows.ite [Decidable c] (ht : Grows s t) (hu : Grows s u) :
    Grows s (if c then t else u) := by
  split
  · exact ht
  · exact hu

theorem Acts.ite [Decidable c] (ht : Acts s t) (hu : Acts s u) : Acts s (if c then t else u) := by
  split
  · exact ht
  · exact hu

/-- A function of the interface has been called, whatever comes then. -/
theorem grows_demand (c : DumpCall) (cause : ByteString)
    (ht : s.attempts.length ≤ t.attempts.length)
    (h : ∀ u : LineParsers γ, u.attempts.length ≤ (next u).attempts.length) :
    Grows s (t.demand d c cause next) := by
  rcases hperform : d.perform c t.db with ⟨_ | _, db⟩
  · simp only [demand, hperform]
    exact grows_setError _ _ _
  · intro _
    simp only [demand, hperform, if_true]
    refine Nat.lt_of_lt_of_le ?_ (h _)
    simp only [attempted, length_append, length_singleton]
    omega

theorem length_demand (u : LineParsers γ) (c : DumpCall) (cause : ByteString)
    (h : ∀ u : LineParsers γ, u.attempts.length ≤ (next u).attempts.length) :
    u.attempts.length ≤ (u.demand d c cause next).attempts.length := by
  rcases hperform : d.perform c u.db with ⟨_ | _, db⟩
  · simp [demand, hperform, setError, attempted]
  · simp only [demand, hperform, if_true]
    refine Nat.le_trans ?_ (h _)
    simp [attempted]

theorem grows_withVariable {what reference : ByteString} {next : Id → LineParsers γ}
    (h : ∀ id, Grows s (next id)) : Grows s (s.withVariable what reference next) := by
  unfold withVariable
  split_ifs
  · exact grows_setError _ _ _
  · exact grows_setError _ _ _
  · exact h _

theorem grows_parseSecurity (input : ByteString) : Grows s (s.parseSecurity d input) := by
  have hcall : ∀ c cause, Grows s (s.demand d c cause id) := fun c cause =>
    grows_demand c cause le_rfl fun _ => le_rfl
  unfold parseSecurity
  dsimp only
  split_ifs
  · exact grows_withVariable fun _ => hcall _ _
  · exact grows_withVariable fun _ => hcall _ _
  · exact grows_setError _ _ _
  · exact hcall _ _
  · exact hcall _ _
  · exact grows_setError _ _ _
  · exact grows_demand _ _ le_rfl fun _ => le_rfl
  · exact grows_setError _ _ _
  · exact grows_setError _ _ _

theorem grows_makeEntity (typeWord reference : ByteString) :
    Grows s (s.makeEntity d typeWord reference) := by
  rcases hmade : d.makeEntity (stringToEntityType (toLowerCopy typeWord)) s.db with ⟨id, db⟩
  simp only [makeEntity, hmade]
  cases hid : id.isDefault with
  | true => exact grows_setError _ _ _
  | false =>
    rw [if_neg Bool.false_ne_true]
    split
    · exact fun _ => by simp [attempted]
    · unfold setVariable
      split
      · exact fun _ => by simp [attempted]
      · exact grows_setError _ _ _

theorem grows_parseNone (input : ByteString) : Grows s (s.parseNone d input) := by
  have hcall : ∀ c cause next, (∀ u : LineParsers γ,
      u.attempts.length ≤ (next u).attempts.length) → Grows s (s.demand d c cause next) :=
    fun c cause next => grows_demand c cause le_rfl
  have hselect : ∀ id, Grows s
      (s.demand d (.setEntity id) (ascii "modentity: unable to set Entity ") fun s =>
        { s with parserMode := .entity }) := fun id => hcall _ _ _ fun _ => le_rfl
  unfold parseNone
  dsimp only
  apply Grows.ite
  · unfold makeSite
    dsimp only
    split_ifs
    · exact grows_attempted _ _ _ _ le_rfl
    · exact grows_setError _ _ _
  apply Grows.ite
  · exact hcall _ _ _ fun _ => le_rfl
  apply Grows.ite
  · split
    · exact grows_setError _ _ _
    · exact grows_demand _ _ (by simp [attempted]) fun _ => le_rfl
  apply Grows.ite
  · exact grows_makeEntity _ _
  apply Grows.ite
  · apply Grows.ite
    · exact grows_setError _ _ _
    apply Grows.ite
    · exact Grows.ite (grows_setError _ _ _) (hselect _)
    apply Grows.ite
    · exact Grows.ite (grows_setError _ _ _) (hselect _)
    · exact grows_setError _ _ _
  apply Grows.ite
  · apply Grows.ite
    · exact hcall _ _ _ fun _ => le_rfl
    · exact grows_setError _ _ _
  · exact grows_setError _ _ _

theorem acts_parseEntity (hmode : s.parserMode = .entity) (input : ByteString) :
    Acts s (s.parseEntity d input) ∨ toLowerCopy (getWord input).1 = ascii "print" := by
  have hcall : ∀ c cause next, (∀ u : LineParsers γ,
      u.attempts.length ≤ (next u).attempts.length) → Grows s (s.demand d c cause next) :=
    fun c cause next => grows_demand c cause le_rfl
  by_cases hprint : toLowerCopy (getWord input).1 = ascii "print"
  · exact .inr hprint
  refine .inl ?_
  unfold parseEntity
  dsimp only
  rw [if_neg hprint]
  apply Acts.ite
  · exact (grows_withVariable fun _ => hcall _ _ _ fun _ => le_rfl).acts
  apply Acts.ite
  · apply Acts.ite
    · exact (grows_setError _ _ _).acts
    · exact (hcall _ _ id fun _ => le_rfl).acts
  apply Acts.ite
  · apply Acts.ite
    · exact (grows_setError _ _ _).acts
    · exact (hcall _ _ id fun _ => le_rfl).acts
  apply Acts.ite
  · exact (hcall _ _ (fun s => { s with parserMode := .security }) fun _ => le_rfl).acts
  -- the two commands that only change the mode
  apply Acts.ite
  · exact fun _ => .inr (.inl (by simp [hmode]))
  apply Acts.ite
  · exact fun _ => .inr (.inl (by simp [hmode]))
  apply Acts.ite
  · apply Acts.ite
    · exact (hcall _ _ (fun s => { s with currentId := default, parserMode := .none })
        fun _ => le_rfl).acts
    · exact (grows_setError _ _ _).acts
  · exact (grows_setError _ _ _).acts

theorem grows_parseIdField (ht : t.attempts = s.attempts) (field : EntityField)
    (value : ByteString) : Grows s (t.parseIdField d field value) := by
  unfold parseIdField
  dsimp only
  split_ifs
  · exact grows_setError _ _ _
  · exact grows_demand _ _ (by rw [ht]) fun _ => le_rfl
  · exact grows_setError _ _ _
  · exact grows_attempted _ _ _ _ (by rw [ht])
  · exact grows_setError _ _ _
  · exact grows_setError _ _ _

theorem grows_sharedDocumentParser_none (ht : t.attempts = s.attempts)
    (h : t.currentDocument = none) (input : ByteString) :
    Grows s (sharedDocumentParser d t input).2 := by
  obtain ⟨-, hfails | ⟨str, document, lines, -, heq⟩⟩ := sharedDocumentParser_none (d := d) h input
  · exact fun hnone => absurd hnone hfails
  · rw [heq]
    exact fun _ => by simp [attempted, ht]

theorem grows_subparseDocument_none (ht : t.attempts = s.attempts) (h : t.currentDocument = none)
    (input : ByteString) : Grows s (t.subparseDocument d input) := by
  have hgrows := grows_sharedDocumentParser_none (d := d) ht h input
  have hfalse := (sharedDocumentParser_none (d := d) h input).1
  unfold subparseDocument
  rcases hshared : sharedDocumentParser d t input with ⟨result, u⟩
  rw [hshared] at hgrows hfalse
  obtain rfl : result = false := hfalse
  exact hgrows

theorem acts_parseFields (hsub : s.subparserMode = .none) (hmode : s.parserMode = .fields)
    (hdocument : s.currentDocument = none) (input : ByteString) :
    Acts s (s.parseFields d input) := by
  unfold parseFields
  dsimp only
  split
  · split
    · exact fun _ => .inr (.inl (by simp [hmode]))
    · exact (grows_setError _ _ _).acts
  split
  · exact (grows_setError _ _ _).acts
  · exact (grows_setError _ _ _).acts
  split
  · exact (grows_demand _ _ le_rfl fun _ => le_rfl).acts
  · exact (grows_demand _ _ le_rfl fun _ => le_rfl).acts
  · exact (grows_parseIdField rfl _ _).acts
  · exact (grows_parseIdField rfl _ _).acts
  · refine Grows.acts (grows_subparseDocument_none ?_ ?_ _)
    · rfl
    · exact hdocument
  · intro hnone
    refine .inr (.inr ?_)
    rcases subparserMode_subparseLock _ hnone with hlock | hlock
    · rw [hlock, hsub]
      decide
    · rw [hlock, hsub]
      decide
  · exact (grows_setError _ _ _).acts

theorem grows_sharedDocumentParser_some (h : s.currentDocument.isSome = true)
    (hfalse : (sharedDocumentParser d s input).1 = false) :
    Grows s (sharedDocumentParser d s input).2 := by
  obtain ⟨htrue, -⟩ | ⟨-, hfails | ⟨document, lines, heq⟩⟩ :=
    sharedDocumentParser_some (d := d) h input
  · rw [hfalse] at htrue
    cases htrue
  · exact fun hnone => absurd hnone hfails
  · rw [heq]
    exact fun _ => by simp [attempted]

theorem grows_parseFirst (hfree : s.isParsingPropertyData = false)
    (h : parseFirst d s input = (none, t)) : Grows s t := by
  obtain ⟨hdocument, hset⟩ : s.currentDocument = none ∧ s.currentSet = none := by
    simpa [isParsingPropertyData] using hfree
  unfold parseFirst at h
  dsimp only at h
  split at h
  · obtain ⟨-, rfl⟩ := Prod.mk.inj h
    exact grows_setError _ _ _
  · split at h
    · obtain ⟨-, rfl⟩ := Prod.mk.inj h
      exact grows_setError _ _ _
    · obtain ⟨-, rfl⟩ := Prod.mk.inj h
      exact grows_sharedDocumentParser_none (by rfl) (by exact hdocument) _
  · split at h
    · obtain ⟨-, rfl⟩ := Prod.mk.inj h
      exact grows_setError _ _ _
    · split_ifs at h
      · obtain ⟨-, rfl⟩ := Prod.mk.inj h
        exact grows_setError _ _ _
      · obtain ⟨-, rfl⟩ := Prod.mk.inj h
        exact grows_setError _ _ _
      · cases h
  · split_ifs at h
    · obtain ⟨-, rfl⟩ := Prod.mk.inj h
      exact grows_setError _ _ _
    · split at h
      · obtain ⟨-, rfl⟩ := Prod.mk.inj h
        exact grows_setError _ _ _
      · next key value _ =>
        obtain ⟨-, rfl⟩ := Prod.mk.inj h
        obtain ⟨-, hfails | ⟨str, items, heq⟩⟩ := sharedSetParser_none (d := d)
          (s := { s with currentProperty := key }) hset
          (stringToPropertyDataType (toLowerCopy (getWord (getWord input).2).1)) value
        · exact fun hnone => absurd hnone hfails
        · rw [heq]
          exact fun _ => by simp [attempted]
  · unfold parseSimple at h
    split at h
    · obtain ⟨-, rfl⟩ := Prod.mk.inj h
      exact grows_setError _ _ _
    · split at h
      · cases h
      · obtain ⟨-, rfl⟩ := Prod.mk.inj h
        exact grows_attempted _ _ _ _ le_rfl

/-- A property that is not finished has been begun, or read on. -/
theorem grows_sharedPropertyParser (h : sharedPropertyParser d s input = (none, t)) :
    Grows s t := by
  cases hfree : s.isParsingPropertyData with
  | false => exact grows_parseFirst hfree ((sharedPropertyParser_free hfree input).symm.trans h)
  | true =>
    unfold sharedPropertyParser at h
    split at h
    · next document hdocument =>
      have hsome : s.currentDocument.isSome = true := by rw [hdocument]; rfl
      cases hresult : (sharedDocumentParser d s input).1 with
      | true =>
        obtain ⟨-, left, hleft⟩ | ⟨hfalse, -⟩ := sharedDocumentParser_some (d := d) hsome input
        · rw [show sharedDocumentParser d s input = (true, { s with itemsLeft := left }) from
            Prod.ext hresult hleft] at h
          simp [hdocument] at h
        · rw [hresult] at hfalse
          cases hfalse
      | false =>
        have hgrows := grows_sharedDocumentParser_some hsome hresult
        rw [show sharedDocumentParser d s input = (false, _) from Prod.ext hresult rfl] at h
        obtain ⟨-, rfl⟩ := Prod.mk.inj h
        exact hgrows
    · next set _ hset =>
      have hcases := sharedSetParser_some (d := d) (s := s) (by rw [hset]; rfl) s.currentSetType
        input
      rcases hparser : sharedSetParser d s s.currentSetType input with ⟨_ | _, u⟩
      · rw [hparser] at h hcases
        obtain ⟨-, rfl⟩ := Prod.mk.inj h
        obtain hdone | ⟨-, hfails | ⟨data, a, set', items, heq⟩⟩ := hcases
        · cases (Prod.mk.inj hdone).1
        · exact fun hnone => absurd hnone hfails
        · obtain rfl := heq
          exact fun _ => by simp [attempted]
      · rw [hparser] at h hcases
        obtain hdone | ⟨hfalse, -⟩ := hcases
        · obtain ⟨-, rfl⟩ := Prod.mk.inj hdone
          simp [hset] at h
        · cases hfalse
    · next hdocument hset => simp [isParsingPropertyData, hdocument, hset] at hfree

theorem acts_endLock (hsub : s.subparserMode ≠ .none) (kind rest : ByteString) :
    Acts s (s.endLock kind rest) := by
  unfold endLock
  split
  · exact (grows_setError _ _ _).acts
  · exact fun _ => .inr (.inr hsub.symm)

theorem acts_subparseLockId (hsub : s.subparserMode = .lockId) (input : ByteString) :
    Acts s (s.subparseLockId input) := by
  unfold subparseLockId
  dsimp only
  split
  · split
    · exact (grows_setError _ _ _).acts
    · split
      · exact (grows_attempted _ _ _ _ (by exact le_rfl)).acts
      · exact (grows_setError _ _ _).acts
  · split
    · exact (grows_setError _ _ _).acts
    · exact acts_endLock (by simp [hsub]) _ _

theorem acts_subparseLockProperty (hsub : s.subparserMode = .lockProperty) (input : ByteString) :
    Acts s (s.subparseLockProperty d input) := by
  unfold subparseLockProperty
  dsimp only
  split
  · exact acts_endLock (by simp [hsub]) _ _
  · rcases hparser : sharedPropertyParser d s input with ⟨_ | ⟨key, data⟩, t⟩
    · exact (grows_sharedPropertyParser hparser).acts
    · obtain ⟨-, -, -, -, new, hnew⟩ := sharedPropertyParser_finished hparser
      refine Grows.acts ?_
      unfold useLockProperty
      dsimp only
      split
      · exact grows_attempted _ _ _ _ (by simp [hnew])
      · exact grows_setError _ _ _

theorem acts_parseProperties (hmode : s.parserMode = .properties) (input : ByteString) :
    Acts s (s.parseProperties d input) := by
  unfold parseProperties
  dsimp only
  split
  · split
    · exact (grows_setError _ _ _).acts
    split
    · exact (grows_setError _ _ _).acts
    · refine (grows_demand _ _ le_rfl fun u => ?_).acts
      exact length_demand _ _ _ fun _ => le_rfl
  split
  · split
    · exact fun _ => .inr (.inl (by simp [hmode]))
    · exact (grows_setError _ _ _).acts
  · rcases hparser : sharedPropertyParser d s input with ⟨_ | ⟨key, data⟩, t⟩
    · exact (grows_sharedPropertyParser hparser).acts
    · obtain ⟨-, -, -, -, new, hnew⟩ := sharedPropertyParser_finished hparser
      exact (grows_demand _ _ (by simp [hnew]) fun _ => le_rfl).acts

theorem acts_subparseDocument (hsub : s.subparserMode = .document)
    (hdocument : s.currentDocument.isSome = true) (input : ByteString) :
    Acts s (s.subparseDocument d input) := by
  unfold subparseDocument
  rcases hparser : sharedDocumentParser d s input with ⟨_ | _, t⟩
  · have hgrows : Grows s (sharedDocumentParser d s input).2 :=
      grows_sharedDocumentParser_some hdocument (congrArg Prod.fst hparser)
    rw [hparser] at hgrows
    exact hgrows.acts
  · -- the mode is left, whatever becomes of the document
    have hleaves : ∀ u : LineParsers γ, Acts s
        { u with subparserMode := .none, currentDocument := none } := fun u _ =>
      .inr (.inr (by simp [hsub]))
    dsimp only
    split
    · exact hleaves _
    · split
      · exact hleaves _
      · exact hleaves _

/-- **No line does nothing**, but for one that prints the Entity. -/
theorem acts_parse (hs : s.WellFormed) (input : ByteString) :
    Acts s (s.parse d input) ∨
      (s.parserMode = .entity ∧ toLowerCopy (getWord input).1 = ascii "print") := by
  unfold parse
  split
  next hsub => exact absurd hsub hs.lock
  next hsub => exact .inl (acts_subparseLockId hsub input)
  next hsub => exact .inl (acts_subparseLockProperty hsub input)
  next hsub => exact .inl (acts_subparseDocument hsub (hs.inDocument hsub) input)
  next hsub hmode => exact .inl (grows_parseNone input).acts
  next hsub hmode =>
    rcases acts_parseEntity (d := d) hmode input with hacts | hprint
    · exact .inl hacts
    · exact .inr ⟨hmode, hprint⟩
  next hsub hmode => exact .inl (grows_parseSecurity input).acts
  next hsub hmode =>
    refine .inl (acts_parseFields hsub hmode ?_ input)
    by_contra hsome
    have htakes := (hs.document (Option.isSome_iff_ne_none.mpr hsome)).1
    simp [TakesDocument, TakesProperty, hsub, hmode] at htakes
  next hsub hmode => exact .inl (acts_parseProperties hmode input)

end Acts

/-! ### A dump -/

/-- **A dump that is parsed has been applied in full**: what fails is an error, and if `parse`
returns `true` then every line has done something, and every property and every field is stored. -/
structure AppliedInFull (d : DumpReaderInterface γ) (e : DumpSetting (LineParsers γ))
    (db : DumpDatabase γ) (r : DumpFileReader (LineParsers γ)) : Prop where
  reported : ∀ before input rest, r.handed = before ++ input :: rest →
    Reports d (parseAll d (new db) before) input
  refused : r.parsers.error ≠ none → r.errorCondition = true ∧ (e.conclude r).1 = false
  /-- The files have been read. -/
  read : r.unread = false
  acted : (e.conclude r).1 = true → ∀ before input rest, r.handed = before ++ input :: rest →
    let s := parseAll d (new db) before
    (s.parse d input).error = none ∧ (Acts s (s.parse d input) ∨
      (s.parserMode = .entity ∧ toLowerCopy (getWord input).1 = ascii "print"))
  properties : (e.conclude r).1 = true → ∀ before input rest, r.handed = before ++ input :: rest →
    let s := parseAll d (new db) before
    s.TakesProperty → s.isParsingPropertyData = false → ¬ IsCommand s input →
      StoresProperty d s (input :: rest) r.parsers.attempts
  fields : (e.conclude r).1 = true → ∀ before input rest, r.handed = before ++ input :: rest →
    let s := parseAll d (new db) before
    s.subparserMode = .none → s.parserMode = .fields →
      StoresField d s (input :: rest) r.parsers.attempts

section Dump

variable {b fileName : ByteString} {f : ByteString → Option DumpFile} {db : DumpDatabase γ}
  {r : DumpFileReader (LineParsers γ)}

/-- A file has been left unread exactly if one is named where it cannot be read. -/
theorem unread_iff_cutOff {e : DumpSetting (LineParsers γ)}
    (h : e.Parses fileName (new db) r) :
    r.unread = (e.expandDump fileName (new db)).1.cutOff := by
  obtain ⟨r', hreaches, hread⟩ := DumpSetting.reaches_dump e fileName (new db)
  cases hread with
  | cutOff hcut hunread =>
    rw [hcut]
    exact DumpSetting.unread_of_reaches
      (DumpSetting.reaches_of_isOver hreaches h.reaches h.isOver) hunread
  | whole hcut hover _ hunread =>
    obtain rfl := DumpSetting.Parses.unique h ⟨hreaches, hover⟩
    rw [hcut, hunread]

/-- Where `parse` returns `true`, every line leads to the end. -/
theorem leadsToEnd_of_conclude (h : HandedLines d db r)
    (hresult : ((d.setting b f).conclude r).1 = true) {before rest : List ByteString}
    (hsplit : r.handed = before ++ input :: rest) :
    LeadsToEnd d (parseAll d (new db) before) (input :: rest) ∧
      parseAll d (parseAll d (new db) before) (input :: rest) = r.parsers := by
  have herror : r.errorCondition = false := by
    by_contra herror
    rw [DumpSetting.conclude_of_error (by simpa using herror)] at hresult
    cases hresult
  have hnone : r.parsers.error = none := by
    by_contra hfails
    rw [h.stops hfails] at herror
    cases herror
  rw [DumpSetting.conclude_of_no_error herror, Bool.and_eq_true] at hresult
  have hclosed : r.parsers.parserMode = .none ∧ r.parsers.subparserMode = .none := by
    have hclosed := hresult.1
    simpa [DumpReaderInterface.setting, DumpReaderInterface.parsers] using hclosed
  have hparsers : parseAll d (parseAll d (new db) before) (input :: rest) = r.parsers := by
    rw [h.parsers, hsplit, parseAll_append _ (h.noError before input rest hsplit)]
  exact ⟨⟨hparsers ▸ hnone, hparsers ▸ hclosed.1, hparsers ▸ hclosed.2⟩, hparsers⟩

end Dump

/-! ### Two dumps -/

/-- The reader of the dump with a document, at the end. -/
def afterDump : DumpFileReader (LineParsers Unit) :=
  (documentDump likeCommands).iteration^[8] (atDocument likeCommands)

/-- A dump with a property that is no number. -/
def numberDump : DumpSetting (LineParsers Unit) :=
  DumpReaderInterface.ofOneEntity.setting (ascii "data") fun fileName =>
    if fileName = ascii "a" then some ⟨joinLines lineFeed
      [versionLine, ascii "mkentity thing {t}", ascii "properties", ascii "integer count=abc",
        ascii "end properties", ascii "end entity", endLine], false⟩
    else none

/-- The reader of it, at the end. -/
def afterNumber : DumpFileReader (LineParsers Unit) :=
  numberDump.iteration^[6] (numberDump.start (ascii "a") (new .empty))

end Mutgos.DbDump
