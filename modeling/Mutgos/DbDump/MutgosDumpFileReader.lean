import Mathlib.Logic.Function.Iterate
import Mutgos.Lib.Lines
import Mutgos.Text.StringParsing

/-!
# The reader of dump files

`MutgosDumpFileReader::parse`: a dump is read line by line, and a line may name another file that
is to be read before the rest.  The files that are being read are a stack.

What the lines say is the business of `parse_none`, `parse_entity` and the others of their kind.
They are handed a line and may report an error; none of them has to do with the files.

## Main results

* `Parses.unique` — it returns one thing.
-/

namespace Mutgos.DbDump

open Text

def fileStackLimit : ℕ := 16

/-- What `std::getline` reads up to. -/
def lineFeed : UInt8 := 10

def includeCommand : ByteString := ascii "@@INCLUDE "

def commentPrefix : UInt8 := 35

def versionLine : ByteString := ascii "MUTGOS DUMP VERSION 1"

def endLine : ByteString := ascii "MUTGOS DUMP END"

/-- A file that can be opened. -/
structure DumpFile where
  /-- What can be read of it. -/
  text : ByteString
  /-- Reading more than that is an I/O error. -/
  breaks : Bool
deriving DecidableEq

/-- A `FileStream`, as it is read. -/
structure FileStream where
  /-- What is left of the text. -/
  rest : ByteString
  breaks : Bool
  /-- `stream.eof()` -/
  eof : Bool
  /-- `stream.bad()` -/
  bad : Bool
deriving DecidableEq

namespace FileStream

/-- A file that has just been opened. -/
def ofFile (file : DumpFile) : FileStream := ⟨file.text, file.breaks, false, false⟩

/-- Something is left to be read, if only an error. -/
def isUnread (file : FileStream) : Bool := !file.rest.isEmpty || (file.breaks && !file.bad)

/-- `std::getline`, into an empty line. -/
def getline (file : FileStream) : ByteString × FileStream :=
  if file.eof ∨ file.bad then ([], file)
  else
    (file.rest.takeWhile (· ≠ lineFeed),
      match file.rest.dropWhile (· ≠ lineFeed) with
      | _ :: rest => { file with rest := rest }
      | [] => { file with rest := [], eof := !file.breaks, bad := file.breaks })

@[simp] theorem getline_line {rest : ByteString} {raw : ByteString} (hraw : lineFeed ∉ raw)
    (breaks : Bool) :
    getline ⟨raw ++ lineFeed :: rest, breaks, false, false⟩ =
      (raw, ⟨rest, breaks, false, false⟩) := by
  have htake : ∀ c ∈ raw, decide (c ≠ lineFeed) = true := fun c hc =>
    decide_eq_true fun h => hraw (h ▸ hc)
  have hraw : (raw ++ lineFeed :: rest).takeWhile (· ≠ lineFeed) = raw := by
    rw [List.takeWhile_append_of_pos htake, List.takeWhile_cons_of_neg (by simp), List.append_nil]
  have hrest : (raw ++ lineFeed :: rest).dropWhile (· ≠ lineFeed) = lineFeed :: rest := by
    rw [List.dropWhile_append_of_pos htake, List.dropWhile_cons_of_neg (by simp)]
  simp only [getline, hraw, hrest]
  rfl

@[simp] theorem getline_open {raw : ByteString} (hraw : lineFeed ∉ raw) (breaks : Bool) :
    getline ⟨raw, breaks, false, false⟩ = (raw, ⟨[], breaks, !breaks, breaks⟩) := by
  have htake : ∀ c ∈ raw, decide (c ≠ lineFeed) = true := fun c hc =>
    decide_eq_true fun h => hraw (h ▸ hc)
  have hself : raw.takeWhile (· ≠ lineFeed) = raw := List.takeWhile_eq_self_iff.mpr htake
  have hnil : raw.dropWhile (· ≠ lineFeed) = [] := List.dropWhile_eq_nil_iff.mpr htake
  simp only [getline, hself, hnil]
  rfl

@[simp] theorem getline_eof (rest : ByteString) (breaks bad : Bool) :
    getline ⟨rest, breaks, true, bad⟩ = ([], ⟨rest, breaks, true, bad⟩) := rfl

end FileStream

/-- The parsers of the lines, with what they know. -/
structure DumpParsers (σ : Type*) where
  /-- There is a `current_document_ptr`. -/
  inDocument : σ → Bool
  /-- `parse_none`, `parse_entity`, …, `subparse_document`, by the mode: what is known after a
  line, and the cause of an error. -/
  parse : σ → ByteString → σ × Option ByteString
  /-- The mode is `PARSER_NONE`, and `SUBPARSER_NONE`. -/
  closed : σ → Bool

/-- What a dump is read in. -/
structure DumpSetting (σ : Type*) extends DumpParsers σ where
  baseFilePath : ByteString
  /-- What is opened by a name. -/
  files : ByteString → Option DumpFile

/-- A `MutgosDumpFileReader`. -/
structure DumpFileReader (σ : Type*) where
  /-- `file_stack`, the latest first. -/
  fileStack : List FileStream
  fileParsed : Bool
  errorCondition : Bool
  statusMessage : ByteString
  parsers : σ
  /-- The lines that the parsers have been handed. -/
  handed : List ByteString
  /-- A file has been taken off the stack that had not been read. -/
  unread : Bool

variable {σ : Type*}

namespace DumpFileReader

def setError (r : DumpFileReader σ) (cause : ByteString) : DumpFileReader σ :=
  { r with errorCondition := true, statusMessage := cause }

/-- The latest file is deleted. -/
def popFile (r : DumpFileReader σ) : DumpFileReader σ :=
  { r with
    fileStack := r.fileStack.tail
    unread := r.unread || r.fileStack.head?.any FileStream.isUnread }

/-- The loop of `parse` is over. -/
def isOver (r : DumpFileReader σ) : Bool :=
  r.fileStack.isEmpty || r.fileParsed || r.errorCondition

end DumpFileReader

namespace DumpSetting

variable (d : DumpSetting σ) (r : DumpFileReader σ)

def addFileToStack (fileName : ByteString) : DumpFileReader σ :=
  if r.fileStack.length ≥ fileStackLimit then
    r.setError (ascii "File stack size exceeded.  Too many nested files.")
  else
    match d.files fileName with
    | some file => { r with fileStack := FileStream.ofFile file :: r.fileStack }
    | none => r.setError (ascii "The file " ++ fileName ++ ascii " cannot be read.")

/-- The path of an include may not be absolute, nor go up a directory. -/
def isForbidden (filePath : ByteString) : Bool :=
  filePath.isEmpty || (find (ascii "..") filePath).isSome || filePath.head? = some 47

/-- The parser for the mode is called. -/
def callParser (input : ByteString) : DumpFileReader σ :=
  let after : DumpFileReader σ :=
    { r with parsers := (d.parse r.parsers input).1, handed := r.handed ++ [input] }
  match (d.parse r.parsers input).2 with
  | some cause => after.setError cause
  | none => after

def parseLine (input : ByteString) : DumpFileReader σ :=
  match input with
  | [] => r
  | c :: _ =>
    if find includeCommand input = some 0 then
      let filePath := trimCopy (input.drop includeCommand.length)
      if isForbidden filePath then
        r.setError (ascii "File include path is empty or not allowed: " ++ filePath)
      else d.addFileToStack r (d.baseFilePath ++ ascii "/" ++ filePath)
    else if d.inDocument r.parsers ∨ c ≠ commentPrefix then d.callParser r input
    else r

/-- A line as it is parsed. -/
def inputOf (s : σ) (raw : ByteString) : ByteString :=
  if d.inDocument s then raw else trimCopy raw

/-- What is done with a line that has been read. -/
def processLine (bad : Bool) (line : ByteString) : DumpFileReader σ :=
  if bad then r.setError (ascii "I/O error")
  else if line = endLine then { r with fileParsed := true }
  else if ¬utf8Valid line then r.setError (ascii "Line is not UTF8 compliant.")
  else d.parseLine r (d.inputOf r.parsers line)

/-- At the end of a file, the latest file is deleted, if it is not the only one. -/
def endFile (eof : Bool) : DumpFileReader σ :=
  if eof ∧ ¬r.errorCondition then
    if r.fileStack.length > 1 then r.popFile
    else r.setError (ascii "Primary dump file ended unexpectedly.")
  else r

/-- The loop of `parse`, once around; nothing happens when it is over. -/
def iteration : DumpFileReader σ :=
  if r.isOver then r
  else
    match r.fileStack with
    | [] => r
    | file :: fileStack =>
      let (line, file) := file.getline
      endFile (processLine d { r with fileStack := file :: fileStack } file.bad line) file.eof

/-- The constructor. -/
def new (fileName : ByteString) (parsers : σ) : DumpFileReader σ :=
  let r : DumpFileReader σ := ⟨[], false, false, [], parsers, [], false⟩
  if fileName.isEmpty then r.setError (ascii "The file name provided was empty.")
  else if d.baseFilePath.isEmpty then r.setError (ascii "The base path provided was empty.")
  else d.addFileToStack r fileName

/-- `parse`, up to the loop. -/
def readVersion : DumpFileReader σ :=
  match r.fileStack with
  | [] => r
  | file :: fileStack =>
    let (line, file) := file.getline
    let r := { r with fileStack := file :: fileStack }
    if trimCopy line ≠ versionLine then r.setError (ascii "Not a MUTGOS version 1 dump file!")
    else r

/-- `parse`, after the loop: the result, and the message. -/
def conclude : Bool × ByteString :=
  let r :=
    if ¬r.errorCondition ∧ r.fileStack.length ≠ 1 then
      r.setError (r.statusMessage ++
        ascii "File stack is empty or has more files than expected!")
    else r
  if r.errorCondition then (false, r.statusMessage)
  else if d.closed r.parsers then (true, ascii "Parsing completed successfully.")
  else (false, ascii
    "Parsing error: File is incomplete, not properly closed, or in the wrong mode to close.")

/-- What the loop begins with. -/
def start (fileName : ByteString) (parsers : σ) : DumpFileReader σ :=
  let r := d.new fileName parsers
  if r.errorCondition then r else readVersion r

/-- The loop gets from here to there. -/
def Reaches (r r' : DumpFileReader σ) : Prop := ∃ n, (iteration d)^[n] r = r'

/-- `parse` returns, and this is what the reader has become. -/
structure Parses (fileName : ByteString) (parsers : σ) (r : DumpFileReader σ) : Prop where
  reaches : d.Reaches (d.start fileName parsers) r
  isOver : r.isOver = true

/-! ### The loop -/

section Loop

variable {d : DumpSetting σ} {r r' r'' : DumpFileReader σ}

theorem Reaches.refl (r : DumpFileReader σ) : d.Reaches r r := ⟨0, rfl⟩

theorem Reaches.trans (h : d.Reaches r r') (h' : d.Reaches r' r'') : d.Reaches r r'' := by
  obtain ⟨m, rfl⟩ := h
  obtain ⟨n, rfl⟩ := h'
  exact ⟨n + m, Function.iterate_add_apply _ n m r⟩

theorem reaches_iteration (r : DumpFileReader σ) : d.Reaches r (d.iteration r) := ⟨1, rfl⟩

theorem iterate_of_isOver (h : r.isOver = true) (n : ℕ) : d.iteration^[n] r = r :=
  Function.iterate_fixed (by rw [iteration, if_pos h]) n

/-- Where the loop is over is where it gets to. -/
theorem eq_of_reaches_isOver (h : d.Reaches r r') (h' : d.Reaches r r'') (hr' : r'.isOver = true)
    (hr'' : r''.isOver = true) : r' = r'' := by
  obtain ⟨m, rfl⟩ := h
  obtain ⟨n, rfl⟩ := h'
  rcases Nat.le_total m n with hle | hle
  · rw [← Nat.sub_add_cancel hle, Function.iterate_add_apply, iterate_of_isOver hr']
  · rw [← Nat.sub_add_cancel hle, Function.iterate_add_apply, iterate_of_isOver hr'']

/-- `parse` returns one thing. -/
theorem Parses.unique {fileName : ByteString} {parsers : σ} (h : d.Parses fileName parsers r)
    (h' : d.Parses fileName parsers r') : r = r' :=
  eq_of_reaches_isOver h.reaches h'.reaches h.isOver h'.isOver

@[simp] theorem unread_parseLine (r : DumpFileReader σ) (input : ByteString) :
    (d.parseLine r input).unread = r.unread := by
  unfold parseLine addFileToStack callParser DumpFileReader.setError
  grind

@[simp] theorem unread_processLine (r : DumpFileReader σ) (bad : Bool) (line : ByteString) :
    (d.processLine r bad line).unread = r.unread := by
  unfold processLine
  split_ifs <;> simp [DumpFileReader.setError]

theorem unread_iteration (h : r.unread = true) : (d.iteration r).unread = true := by
  unfold iteration endFile DumpFileReader.popFile
  grind [unread_processLine, DumpFileReader.setError]

/-- What has been left unread stays so. -/
theorem unread_of_reaches (h : d.Reaches r r') (hr : r.unread = true) : r'.unread = true := by
  obtain ⟨n, rfl⟩ := h
  induction n generalizing r with
  | zero => exact hr
  | succ n ih => exact ih (unread_iteration hr)

end Loop

end DumpSetting

end Mutgos.DbDump
