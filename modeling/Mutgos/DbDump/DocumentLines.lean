import Mutgos.DbDump.ParserModes

/-!
# Reading a document line by line

In each of the three modes in which a document can be read, a line belongs to it until it is
finished, whatever the line says.

## Main results

* `parseAll_appendLines` — reading lines into a document is appending them.
-/

namespace Mutgos.DbDump

open DbTypes Text

/-- The line says `end`, and what is ended. -/
def EndsValue (what line : ByteString) : Prop :=
  (getWord (toLowerCopy line)).1 = ascii "end" ∧ (getWord (toLowerCopy line)).2 = what

/-- After so many lines there is the end; before that, `.end` ends them. -/
structure ClosedBy (count : ℕ) (lines : List ByteString) (closing : ByteString) : Prop where
  inside : ∀ line ∈ lines, line ≠ ascii ".end"
  closes : (count = lines.length ∧ EndsValue (ascii "lines") closing) ∨
    (lines.length < count ∧ closing = ascii ".end")

namespace LineParsers

variable {γ : Type*} (d : DumpReaderInterface γ) (s : LineParsers γ)

/-- The parsers after lines, up to an error. -/
def parseAll : LineParsers γ → List ByteString → LineParsers γ
  | s, [] => s
  | s, line :: lines =>
    if (s.parse d line).error = none then parseAll (s.parse d line) lines else s.parse d line

variable {d s}

theorem parseAll_cons {line : ByteString} (lines : List ByteString)
    (h : (s.parse d line).error = none) :
    parseAll d s (line :: lines) = parseAll d (s.parse d line) lines := by
  rw [parseAll, if_pos h]

theorem parseAll_of_error {line : ByteString} (lines : List ByteString)
    (h : (s.parse d line).error ≠ none) : parseAll d s (line :: lines) = s.parse d line := by
  rw [parseAll, if_neg h]

@[simp] theorem parseAll_singleton (line : ByteString) : parseAll d s [line] = s.parse d line := by
  rw [parseAll, parseAll, ite_self]

variable {lines : List ByteString} {document : DocumentProperty}

/-- More lines, if there is no error in the first ones. -/
theorem parseAll_append (rest : List ByteString) (h : (parseAll d s lines).error = none) :
    parseAll d s (lines ++ rest) = parseAll d (parseAll d s lines) rest := by
  induction lines generalizing s with
  | nil => rfl
  | cons line lines ih =>
    by_cases hline : (s.parse d line).error = none
    · rw [parseAll_cons _ hline] at h ⊢
      rw [List.cons_append, parseAll_cons _ hline]
      exact ih h
    · rw [parseAll_of_error _ hline] at h
      exact absurd h hline

/-- An error stays the last thing. -/
theorem parseAll_append_of_error (rest : List ByteString) (h : (parseAll d s lines).error ≠ none)
    (hs : s.error = none) : parseAll d s (lines ++ rest) = parseAll d s lines := by
  induction lines generalizing s with
  | nil => exact absurd hs h
  | cons line lines ih =>
    by_cases hline : (s.parse d line).error = none
    · rw [parseAll_cons _ hline] at h ⊢
      rw [List.cons_append, parseAll_cons _ hline]
      exact ih h hline
    · rw [List.cons_append, parseAll_of_error _ hline, parseAll_of_error _ hline]

/-- The line belongs to the document. -/
theorem parse_unfinished (hmode : s.TakesDocument) (hdocument : s.currentDocument.isSome = true)
    {input : ByteString} (h : (sharedDocumentParser d s input).1 = false) :
    s.parse d input = (sharedDocumentParser d s input).2 := by
  obtain ⟨document, hsome⟩ := Option.isSome_iff_exists.mp hdocument
  have hvalue : s.isParsingPropertyData = true := by rw [isParsingPropertyData, hdocument]; rfl
  obtain ⟨t, ht⟩ : ∃ t, sharedDocumentParser d s input = (false, t) := ⟨_, Prod.ext h rfl⟩
  have hproperty : sharedPropertyParser d s input = (none, t) := by
    simp [sharedPropertyParser, hsome, ht]
  rw [ht]
  rcases hmode with hsub | hsub | ⟨hsub, hproperties⟩
  · simp [parse, hsub, subparseDocument, ht]
  · simp [parse, hsub, subparseLockProperty, hvalue, hproperty]
  · simp [parse, hsub, hproperties, parseProperties, hvalue, hproperty]

/-- Lines have been appended to the document. -/
def appended (s : LineParsers γ) (document : DocumentProperty) (lines : List ByteString) :
    LineParsers γ :=
  { s with
    currentDocument := some document
    itemsLeft := s.itemsLeft - lines.length
    attempts := s.attempts ++ lines.map fun line => (.appendLine line, true) }

/-- A line that is appended, or cannot be. -/
theorem parse_appendLine (hmode : s.TakesDocument) (hdocument : s.currentDocument = document)
    (hleft : 0 < s.itemsLeft) {line : ByteString} (hline : line ≠ ascii ".end") :
    (∃ next, document.appendLine d.limits line = (true, next) ∧
      s.parse d line = s.appended next [line]) ∨
    (document.appendLine d.limits line).1 = false ∧ (s.parse d line).error ≠ none ∧
      (s.parse d line).db = s.db := by
  have hsome : s.currentDocument.isSome = true := by rw [hdocument]; rfl
  rcases happend : document.appendLine d.limits line with ⟨_ | _, next⟩
  · have hparser : sharedDocumentParser d s line = (false,
        ({ s with itemsLeft := s.itemsLeft - 1 }.attempted (.appendLine line) false).setError
          (ascii "document:  Unable to append line.")) := by
      simp only [sharedDocumentParser, hdocument, if_pos hleft, if_neg hline, happend]
    have hparse := parse_unfinished hmode hsome (congrArg Prod.fst hparser)
    rw [hparse, hparser]
    exact .inr ⟨rfl, by simp [setError], rfl⟩
  · have hparser : sharedDocumentParser d s line = (false,
        { s.attempted (.appendLine line) true with
          currentDocument := some next, itemsLeft := s.itemsLeft - 1 }) := by
      simp only [sharedDocumentParser, hdocument, if_pos hleft, if_neg hline, happend]
    have hparse := parse_unfinished hmode hsome (congrArg Prod.fst hparser)
    rw [hparse, hparser]
    exact .inl ⟨next, rfl, rfl⟩

theorem appended_appended (s : LineParsers γ) (document next : DocumentProperty)
    (line : ByteString) (lines : List ByteString) :
    (s.appended document [line]).appended next lines = s.appended next (line :: lines) := by
  simp [appended, Nat.sub_sub, Nat.add_comm]

/-- **Reading lines into a document is appending them**, as long as there are lines left. -/
theorem parseAll_appendLines (hmode : s.TakesDocument)
    (hdocument : s.currentDocument = some document) (hleft : lines.length ≤ s.itemsLeft)
    (hinside : ∀ line ∈ lines, line ≠ ascii ".end") (hs : s.error = none) :
    (∃ last, document.appendLines d.limits lines = (true, last) ∧
      parseAll d s lines = s.appended last lines) ∨
    (document.appendLines d.limits lines).1 = false ∧ (parseAll d s lines).error ≠ none ∧
      (parseAll d s lines).db = s.db := by
  induction lines generalizing s document with
  | nil => exact .inl ⟨document, rfl, by simp [parseAll, appended, ← hdocument]⟩
  | cons line lines ih =>
    obtain ⟨hline, hlines⟩ := List.forall_mem_cons.mp hinside
    rw [List.length_cons] at hleft
    rw [DocumentProperty.appendLines]
    obtain ⟨next, happend, hparse⟩ | ⟨happend, herror, hdb⟩ :=
      parse_appendLine (d := d) hmode hdocument (by omega) hline
    · rw [happend, parseAll_cons lines (by rw [hparse]; exact hs), hparse]
      obtain ⟨last, hlast, hrest⟩ | hrest := ih (s := s.appended next [line]) hmode
        rfl (by simp only [appended, List.length_singleton]; omega) hlines hs
      · refine .inl ⟨last, hlast, ?_⟩
        rw [hrest, appended_appended]
      · exact .inr hrest
    · refine .inr ⟨?_, ?_⟩
      · rw [show document.appendLine d.limits line = (false, _) from Prod.ext happend rfl]
      · rw [parseAll_of_error lines herror]
        exact ⟨herror, hdb⟩

end LineParsers

end Mutgos.DbDump
