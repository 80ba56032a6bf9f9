import Mutgos.DbDump.Includes

/-!
# What is handed to the parsers

Four things are asked of a line before a parser is called: whether it ends the dump, whether it is
valid, whether there is anything in it, and whether it names a file or is a comment.  Only the last
of them is not asked within a document.

## Main results

* `iteration_cases` — an iteration hands one line to the parsers, or none.
-/

namespace Mutgos.DbDump

open Text DumpFileReader

variable {σ : Type*}

namespace DumpSetting

variable (d : DumpSetting σ)

/-- The line is handed to the parsers, as this input. -/
structure Hands (s : σ) (raw input : ByteString) : Prop where
  noEnd : raw ≠ endLine
  valid : utf8Valid raw = true
  trimmed : d.inputOf s raw = input
  nonempty : input ≠ []
  noInclude : find includeCommand input ≠ some 0
  noComment : d.inDocument s = true ∨ input.head? ≠ some commentPrefix

variable {d} {r r' : DumpFileReader σ} {raw input : ByteString}

theorem processLine_of_hands (h : d.Hands r.parsers raw input) :
    d.processLine r false raw = d.callParser r input := by
  obtain ⟨hend, hvalid, rfl, hnonempty, hinclude, hcomment⟩ := h
  rw [processLine, if_neg Bool.false_ne_true, if_neg hend, if_neg (not_not_intro hvalid)]
  generalize d.inputOf r.parsers raw = input at *
  cases input with
  | nil => exact absurd rfl hnonempty
  | cons c input =>
    rw [parseLine, if_neg hinclude, if_pos]
    simpa using hcomment

theorem parsers_addFileToStack (d : DumpSetting σ) (r : DumpFileReader σ) (fileName : ByteString) :
    (d.addFileToStack r fileName).parsers = r.parsers ∧
      (d.addFileToStack r fileName).handed = r.handed := by
  unfold addFileToStack
  split
  · exact ⟨rfl, rfl⟩
  · split <;> exact ⟨rfl, rfl⟩

/-- The parsers are called, or they know what they knew. -/
theorem parseLine_cases (r : DumpFileReader σ) (input : ByteString) :
    ((d.parseLine r input).parsers = r.parsers ∧ (d.parseLine r input).handed = r.handed) ∨
      (input ≠ [] ∧ find includeCommand input ≠ some 0 ∧
        (d.inDocument r.parsers = true ∨ input.head? ≠ some commentPrefix) ∧
        d.parseLine r input = d.callParser r input) := by
  cases input with
  | nil => exact .inl ⟨rfl, rfl⟩
  | cons c input =>
    simp only [parseLine]
    split_ifs with hinclude _ hcomment
    · exact .inl ⟨rfl, rfl⟩
    · exact .inl (parsers_addFileToStack d r _)
    · exact .inr ⟨List.cons_ne_nil _ _, hinclude, by simpa using hcomment, rfl⟩
    · exact .inl ⟨rfl, rfl⟩

theorem processLine_cases (r : DumpFileReader σ) (bad : Bool) (raw : ByteString) :
    ((d.processLine r bad raw).parsers = r.parsers ∧
        (d.processLine r bad raw).handed = r.handed) ∨
      ∃ input, d.Hands r.parsers raw input ∧ d.processLine r bad raw = d.callParser r input := by
  unfold processLine
  split_ifs with hbad hend hvalid
  · exact .inl ⟨rfl, rfl⟩
  · exact .inl ⟨rfl, rfl⟩
  · obtain h | ⟨hnonempty, hinclude, hcomment, h⟩ :=
      parseLine_cases (d := d) r (d.inputOf r.parsers raw)
    · exact .inl h
    · exact .inr ⟨_, ⟨hend, hvalid, rfl, hnonempty, hinclude, hcomment⟩, h⟩
  · exact .inl ⟨rfl, rfl⟩

theorem parsers_endFile (r : DumpFileReader σ) (eof : Bool) :
    (endFile r eof).parsers = r.parsers ∧ (endFile r eof).handed = r.handed ∧
      (r.errorCondition = true → (endFile r eof).errorCondition = true) := by
  unfold endFile
  split_ifs
  · exact ⟨rfl, rfl, id⟩
  · exact ⟨rfl, rfl, fun _ => rfl⟩
  · exact ⟨rfl, rfl, id⟩

theorem parsers_callParser (r : DumpFileReader σ) (input : ByteString) :
    (d.callParser r input).parsers = (d.parse r.parsers input).1 ∧
      (d.callParser r input).handed = r.handed ++ [input] ∧
      ((d.parse r.parsers input).2 ≠ none → (d.callParser r input).errorCondition = true) := by
  unfold callParser
  cases h : (d.parse r.parsers input).2 with
  | none => exact ⟨rfl, rfl, fun h => absurd rfl h⟩
  | some cause => exact ⟨rfl, rfl, fun _ => rfl⟩

/-- **An iteration hands one line to the parsers, or none**, and an error of theirs is one. -/
theorem iteration_cases (d : DumpSetting σ) (r : DumpFileReader σ) :
    ((d.iteration r).parsers = r.parsers ∧ (d.iteration r).handed = r.handed) ∨
      ∃ raw input, d.Hands r.parsers raw input ∧
        (d.iteration r).parsers = (d.parse r.parsers input).1 ∧
        (d.iteration r).handed = r.handed ++ [input] ∧
        ((d.parse r.parsers input).2 ≠ none → (d.iteration r).errorCondition = true) := by
  unfold iteration
  split
  · exact .inl ⟨rfl, rfl⟩
  · split
    · exact .inl ⟨rfl, rfl⟩
    next file files hstack =>
      rcases file.getline with ⟨line, file'⟩
      dsimp only
      obtain ⟨hparsers, hhanded, herror⟩ := parsers_endFile
        (d.processLine { r with fileStack := file' :: files } file'.bad line) file'.eof
      rw [hparsers, hhanded]
      obtain ⟨hsame, hsame'⟩ | ⟨input, hhands, hcall⟩ := processLine_cases (d := d)
        { r with fileStack := file' :: files } file'.bad line
      · exact .inl ⟨hsame, hsame'⟩
      · rw [hcall] at herror ⊢
        obtain ⟨hparsers', hhanded', herror'⟩ :=
          parsers_callParser (d := d) { r with fileStack := file' :: files } input
        exact .inr ⟨line, input, hhands, hparsers', hhanded', fun h => herror (herror' h)⟩

/-- An error stays. -/
theorem errorCondition_of_reaches (h : d.Reaches r r') (herror : r.errorCondition = true) :
    r'.errorCondition = true := by
  obtain ⟨n, rfl⟩ := h
  rw [iterate_of_isOver (by simp [isOver, herror])]
  exact herror

/-- **What the parsers keep is kept by the loop**, up to an error. -/
theorem reaches_invariant {I : σ → Prop}
    (hstep : ∀ s raw input, I s → d.Hands s raw input → (d.parse s input).2 = none →
      I (d.parse s input).1)
    (h : d.Reaches r r') (hr : I r.parsers ∨ r.errorCondition = true) :
    I r'.parsers ∨ r'.errorCondition = true := by
  obtain ⟨n, rfl⟩ := h
  induction n generalizing r with
  | zero => exact hr
  | succ n ih =>
    refine ih ?_
    obtain hr | herror := hr
    · obtain ⟨hsame, -⟩ | ⟨raw, input, hhands, hparsers, -, herror⟩ := iteration_cases d r
      · exact .inl (hsame ▸ hr)
      · by_cases hnone : (d.parse r.parsers input).2 = none
        · exact .inl (hparsers ▸ hstep _ raw input hr hhands hnone)
        · exact .inr (herror hnone)
    · exact .inr (errorCondition_of_reaches (reaches_iteration r) herror)

/-- Where the loop begins, the parsers know nothing yet. -/
theorem parsers_start (d : DumpSetting σ) (fileName : ByteString) (s : σ) :
    (d.start fileName s).parsers = s ∧ (d.start fileName s).handed = [] := by
  have hnew : (d.new fileName s).parsers = s ∧ (d.new fileName s).handed = [] := by
    unfold new
    dsimp only
    split_ifs
    · exact ⟨rfl, rfl⟩
    · exact ⟨rfl, rfl⟩
    · exact parsers_addFileToStack d _ _
  unfold start readVersion
  dsimp only
  split_ifs
  · exact hnew
  · split
    · exact hnew
    · split <;> exact hnew

/-- A line that a newline ends, and that is handed to the parsers. -/
theorem iteration_line {rest : ByteString} {breaks : Bool} {files : List FileStream}
    (hr : r.Running) (hraw : lineFeed ∉ raw) (h : d.Hands r.parsers raw input)
    (hstack : r.fileStack = ⟨raw ++ lineFeed :: rest, breaks, false, false⟩ :: files) :
    d.iteration r =
      d.callParser { r with fileStack := ⟨rest, breaks, false, false⟩ :: files } input := by
  rw [iteration_eq hr hstack, FileStream.getline_line hraw]
  exact processLine_of_hands (r := { r with fileStack := ⟨rest, breaks, false, false⟩ :: files }) h

/-- A line without an error. -/
theorem callParser_of_none (h : (d.parse r.parsers input).2 = none) :
    d.callParser r input =
      { r with parsers := (d.parse r.parsers input).1, handed := r.handed ++ [input] } := by
  rw [callParser, h]

theorem running_callParser (hr : r.Running) (h : (d.parse r.parsers input).2 = none) :
    (d.callParser r input).Running ∧ (d.callParser r input).fileStack = r.fileStack := by
  rw [callParser_of_none h]
  exact ⟨⟨hr.fileParsed, hr.errorCondition⟩, rfl⟩

end DumpSetting

end Mutgos.DbDump
