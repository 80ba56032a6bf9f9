import Mutgos.DbDump.MutgosDumpFileReader

/-!
# Includes of dump files

A dump may name other files, to be read where they are named.  It should be as if their lines
stood there: the result of `parse` should be the same, and the parsers should be handed the same
lines.

What the lines say decides what is a line that names a file, since the lines of a document are not
trimmed.  So the text is made line by line, by what the parsers know after the lines before.

## Main results

* `exists_transparent_iff` — **a dump is read as the single text exactly if it is tidy.**
-/

namespace Mutgos.DbDump

open Text FileStream DumpFileReader

variable {σ : Type*}

/-- How lines end. -/
inductive Ending where
  /-- What comes after them is read. -/
  | going
  /-- With a line that is in error. -/
  | stopped
  /-- With the line that ends the dump, in a file with so many on the stack. -/
  | ended (stackSize : ℕ) (terminated : Bool)
  /-- With a file that cannot be read. -/
  | refused
deriving DecidableEq

/-- How the lines end when they are in one text. -/
def Ending.flat : Ending → Ending
  | .ended _ _ => .ended 1 true
  | ending => ending

theorem Ending.flat_eq_going {ending : Ending} : ending.flat = .going ↔ ending = .going := by
  cases ending <;> simp [flat]

/-- What lines come to. -/
structure Expansion (σ : Type*) where
  /-- The lines, with those of the files they name. -/
  lines : List ByteString
  /-- What the parsers know then. -/
  parsers : σ
  /-- What the parsers have been handed. -/
  handed : List ByteString
  ending : Ending
  /-- A file that is not empty has been named by a line that no newline ends. -/
  cutOff : Bool
deriving DecidableEq

namespace Expansion

/-- Nothing. -/
def empty (parsers : σ) : Expansion σ := ⟨[], parsers, [], .going, false⟩

/-- A file that cannot be read. -/
def refusal (parsers : σ) : Expansion σ := ⟨[], parsers, [], .refused, false⟩

/-- More lines, which are kept as they are when they are not read. -/
def andThen (e : Expansion σ) (rest : List ByteString) (next : σ → Expansion σ) : Expansion σ :=
  match e.ending with
  | .going =>
    let e' := next e.parsers
    ⟨e.lines ++ e'.lines, e'.parsers, e.handed ++ e'.handed, e'.ending, e.cutOff || e'.cutOff⟩
  | _ => { e with lines := e.lines ++ rest }

/-- What the lines come to when they are in one text. -/
def flat (e : Expansion σ) : Expansion σ := { e with ending := e.ending.flat, cutOff := false }

variable {e : Expansion σ} {rest : List ByteString} {next : σ → Expansion σ}

theorem andThen_of_going (h : e.ending = .going) : e.andThen rest next =
    ⟨e.lines ++ (next e.parsers).lines, (next e.parsers).parsers,
      e.handed ++ (next e.parsers).handed, (next e.parsers).ending,
      e.cutOff || (next e.parsers).cutOff⟩ := by
  simp only [andThen, h]

theorem andThen_of_ne (h : e.ending ≠ .going) :
    e.andThen rest next = { e with lines := e.lines ++ rest } := by
  unfold andThen
  split
  · contradiction
  · rfl

theorem empty_andThen (s : σ) (rest : List ByteString) (next : σ → Expansion σ) :
    (empty s).andThen rest next = next s := andThen_of_going rfl

theorem andThen_empty (e : Expansion σ) : e.andThen [] empty = e := by
  by_cases h : e.ending = .going
  · rw [andThen_of_going h]
    simp [empty, ← h]
  · rw [andThen_of_ne h, List.append_nil]

theorem andThen_assoc (e : Expansion σ) (rest rest' : List ByteString)
    (next next' : σ → Expansion σ) : (e.andThen rest next).andThen rest' next' =
      e.andThen (rest ++ rest') fun s => (next s).andThen rest' next' := by
  by_cases h : e.ending = .going
  · rw [andThen_of_going h, andThen_of_going h]
    by_cases h' : (next e.parsers).ending = .going
    · rw [andThen_of_going h', andThen_of_going (by exact h')]
      simp [Bool.or_assoc]
    · rw [andThen_of_ne h', andThen_of_ne (by exact h')]
      simp
  · rw [andThen_of_ne h, andThen_of_ne h, andThen_of_ne (by exact h)]
    simp

end Expansion

namespace DumpFile

/-- There is something to be read, if only an error. -/
def isUnread (file : DumpFile) : Bool := !file.text.isEmpty || file.breaks

/-- The line that no newline ends, if it has anything in it. -/
def lastLine (file : DumpFile) : List ByteString :=
  if openLine lineFeed file.text = [] then [] else [openLine lineFeed file.text]

end DumpFile

namespace DumpSetting

variable (d : DumpSetting σ)

section Lines

variable (includeFile : (terminated : Bool) → σ → ByteString → Expansion σ) (stackSize : ℕ)

/-- A line that is parsed. -/
def expandInput (terminated : Bool) (s : σ) (raw : ByteString) : ByteString → Expansion σ
  | [] => ⟨[raw], s, [], .going, false⟩
  | c :: input =>
    if find includeCommand (c :: input) = some 0 then
      let filePath := trimCopy ((c :: input).drop includeCommand.length)
      if isForbidden filePath then .refusal s
      else includeFile terminated s (d.baseFilePath ++ ascii "/" ++ filePath)
    else if d.inDocument s ∨ c ≠ commentPrefix then
      ⟨[raw], (d.parse s (c :: input)).1, [c :: input],
        (d.parse s (c :: input)).2.elim .going fun _ => .stopped, false⟩
    else ⟨[raw], s, [], .going, false⟩

/-- A line. -/
def expandLine (terminated : Bool) (s : σ) (raw : ByteString) : Expansion σ :=
  if raw = endLine then ⟨[raw], s, [], .ended stackSize terminated, false⟩
  else if ¬utf8Valid raw then ⟨[raw], s, [], .stopped, false⟩
  else d.expandInput includeFile terminated s raw (d.inputOf s raw)

/-- Lines that newlines end. -/
def expandLines (s : σ) : List ByteString → Expansion σ
  | [] => .empty s
  | raw :: raws =>
    (d.expandLine includeFile stackSize true s raw).andThen raws fun s => expandLines s raws

/-- What comes after the last newline. -/
def expandEnd (file : DumpFile) (s : σ) : Expansion σ :=
  if file.breaks then .refusal s
  else if openLine lineFeed file.text = [] then .empty s
  else d.expandLine includeFile stackSize false s (openLine lineFeed file.text)

/-- A file. -/
def expandFile (file : DumpFile) (s : σ) : Expansion σ :=
  (d.expandLines includeFile stackSize s (endedLines lineFeed file.text)).andThen file.lastLine
    (d.expandEnd includeFile stackSize file)

end Lines

/-- A file that is named, with room for so many on the stack. -/
def includeFile : (room : ℕ) → (terminated : Bool) → σ → ByteString → Expansion σ
  | 0, _, s, _ => .refusal s
  | room + 1, terminated, s, fileName =>
    match d.files fileName with
    | none => .refusal s
    | some file =>
      let e := d.expandFile (includeFile room) (fileStackLimit - room) file s
      { e with cutOff := e.cutOff || (!terminated && file.isUnread) }

/-- The line names a file. -/
def isIncludeLine (s : σ) (raw : ByteString) : Bool :=
  raw ≠ endLine && utf8Valid raw && find includeCommand (d.inputOf s raw) = some 0

/-- The lines of the primary file after the first, and what comes after the last newline of the
single text. -/
def expandPrimary (file : DumpFile) (raws : List ByteString) (s : σ) : Expansion σ × ByteString :=
  let e := d.expandLines (d.includeFile (fileStackLimit - 1)) 1 s raws
  let last := openLine lineFeed file.text
  if e.ending = .going then
    let e' := d.expandEnd (d.includeFile (fileStackLimit - 1)) 1 file e.parsers
    if d.isIncludeLine e.parsers last then (e.andThen [] fun _ => e', [])
    else (e.andThen [] fun _ => { e' with lines := [] }, last)
  else (e, last)

/-- The primary file, from its first line on. -/
def expandVersion (file : DumpFile) (s : σ) : Expansion σ × ByteString :=
  match endedLines lineFeed file.text with
  | [] => (⟨[], s, [], .stopped, false⟩, openLine lineFeed file.text)
  | first :: raws =>
    if trimCopy first ≠ versionLine then
      (⟨first :: raws, s, [], .stopped, false⟩, openLine lineFeed file.text)
    else
      ({ (d.expandPrimary file raws s).1 with
          lines := first :: (d.expandPrimary file raws s).1.lines },
        (d.expandPrimary file raws s).2)

/-- A dump, and what comes after the last newline of the single text. -/
def expandDump (fileName : ByteString) (s : σ) : Expansion σ × ByteString :=
  if fileName = [] ∨ d.baseFilePath = [] then (.refusal s, [])
  else
    match d.files fileName with
    | none => (.refusal s, [])
    | some file => d.expandVersion file s

/-- The single text that a dump comes to. -/
def singleText (fileName : ByteString) (s : σ) : ByteString :=
  joinLines lineFeed (d.expandDump fileName s).1.lines ++ (d.expandDump fileName s).2

/-- There is no file but this one. -/
def alone (fileName text : ByteString) : DumpSetting σ :=
  { d with files := fun name => if name = fileName then some ⟨text, false⟩ else none }

/-- What `parse` returns. -/
def verdict (e : Expansion σ) : Bool :=
  match e.ending with
  | .ended stackSize terminated => d.closed e.parsers && stackSize = if terminated then 1 else 2
  | _ => false

/-! ### What is promised -/

/-- **Reading the dump is reading the single text**: `r` is what has become of the reader. -/
structure Transparent (fileName : ByteString) (s : σ) (r : DumpFileReader σ) : Prop where
  parses : d.Parses fileName s r
  /-- A file that cannot be read is an error. -/
  refused : (d.expandDump fileName s).1.ending = .refused → (d.conclude r).1 = false
  /-- The result is the same, and so is what the parsers have been handed. -/
  same : (d.expandDump fileName s).1.ending ≠ .refused →
    ∃ r', (d.alone fileName (d.singleText fileName s)).Parses fileName s r' ∧
      (d.conclude r).1 = (d.conclude r').1 ∧ r.handed = r'.handed
  /-- The files have been read. -/
  read : r.unread = false

/-- What has to be so. -/
structure Tidy (fileName : ByteString) (s : σ) : Prop where
  /-- No file that is not empty is named by a line that no newline ends. -/
  whole : (d.expandDump fileName s).1.cutOff = false
  /-- The dump ends in the primary file, or with the last line of a file that is named there and
  no newline, or where it may not end. -/
  ends : ∀ stackSize terminated, (d.expandDump fileName s).1.ending = .ended stackSize terminated →
    stackSize = 1 ∨ (stackSize = 2 ∧ terminated = false) ∨
      d.closed (d.expandDump fileName s).1.parsers = false

end DumpSetting

/-! ### The loop, by what lines come to -/

namespace DumpFileReader

variable (r : DumpFileReader σ)

/-- After what lines come to. -/
def after (e : Expansion σ) (fileStack : List FileStream) : DumpFileReader σ :=
  { r with fileStack := fileStack, parsers := e.parsers, handed := r.handed ++ e.handed }

/-- The loop goes on as long as there are files. -/
structure Running : Prop where
  fileParsed : r.fileParsed = false
  errorCondition : r.errorCondition = false

variable {r}

theorem Running.after (h : r.Running) (e : Expansion σ) (fileStack : List FileStream) :
    (r.after e fileStack).Running := ⟨h.fileParsed, h.errorCondition⟩

/-- What becomes of a reader by what lines come to, when the files are these after them. -/
inductive Becomes (r : DumpFileReader σ) (e : Expansion σ) (fileStack : List FileStream) :
    DumpFileReader σ → Prop
  /-- A file is not read. -/
  | cutOff (hcut : e.cutOff = true) {r' : DumpFileReader σ} (hunread : r'.unread = true) :
      Becomes r e fileStack r'
  | going (hcut : e.cutOff = false) (hending : e.ending = .going) :
      Becomes r e fileStack (r.after e fileStack)
  | failed (hcut : e.cutOff = false) (hending : e.ending = .stopped ∨ e.ending = .refused)
      {r' : DumpFileReader σ} (herror : r'.errorCondition = true)
      (hhanded : r'.handed = r.handed ++ e.handed) (hunread : r'.unread = r.unread) :
      Becomes r e fileStack r'
  /-- A file that has been read to its end is not on the stack any more. -/
  | ended (hcut : e.cutOff = false) {stackSize : ℕ} {terminated : Bool}
      (hending : e.ending = .ended stackSize terminated) {files : List FileStream}
      (hfiles : files.length = if terminated then stackSize else stackSize - 1) :
      Becomes r e fileStack { r.after e files with fileParsed := true }

variable {e e' : Expansion σ} {files files' : List FileStream} {r' : DumpFileReader σ}

/-- What is read after lines is read after what came before them. -/
theorem Becomes.of_after (h : (r.after e files).Becomes e' files' r') (hcut : e.cutOff = false) :
    r.Becomes ⟨e.lines ++ e'.lines, e'.parsers, e.handed ++ e'.handed, e'.ending,
      e.cutOff || e'.cutOff⟩ files' r' := by
  have hafter : ∀ files', (r.after e files).after e' files' = r.after
      ⟨e.lines ++ e'.lines, e'.parsers, e.handed ++ e'.handed, e'.ending,
        e.cutOff || e'.cutOff⟩ files' := fun files' => by simp [after]
  cases h with
  | cutOff hcut' hunread => exact .cutOff (by simp [hcut']) hunread
  | going hcut' hending =>
    rw [hafter]
    exact .going (by simp [hcut, hcut']) hending
  | failed hcut' hending herror hhanded hunread =>
    refine .failed ?_ ?_ herror ?_ hunread
    · simp [hcut, hcut']
    · exact hending
    · simpa [after] using hhanded
  | ended hcut' hending hfiles =>
    rw [hafter]
    refine .ended ?_ ?_ hfiles
    · simp [hcut, hcut']
    · exact hending

/-- What is on the stack makes no difference. -/
theorem Becomes.of_fileStack (h : Becomes { r with fileStack := files' } e files r') :
    r.Becomes e files r' := by
  cases h with
  | cutOff hcut hunread => exact .cutOff hcut hunread
  | going hcut hending => exact .going hcut hending
  | failed hcut hending herror hhanded hunread => exact .failed hcut hending herror hhanded hunread
  | ended hcut hending hfiles => exact .ended hcut hending hfiles

/-- Lines that are not read make no difference. -/
theorem Becomes.with_lines (h : r.Becomes e files r') (hending : e.ending ≠ .going)
    (lines : List ByteString) : r.Becomes { e with lines := lines } files' r' := by
  cases h with
  | cutOff hcut hunread =>
    refine .cutOff ?_ hunread
    exact hcut
  | going _ hgoing => exact absurd hgoing hending
  | failed hcut hfailed herror hhanded hunread =>
    refine .failed ?_ ?_ herror ?_ hunread
    · exact hcut
    · exact hfailed
    · exact hhanded
  | ended hcut hended hfiles =>
    have hafter : ∀ files, r.after e files = r.after { e with lines := lines } files := fun _ => rfl
    rw [hafter]
    refine .ended ?_ ?_ hfiles
    · exact hcut
    · exact hended

end DumpFileReader

namespace DumpSetting

open DumpFileReader

variable {d : DumpSetting σ} {r r' : DumpFileReader σ} {e : Expansion σ}
  {files : List FileStream}

variable (d) in
/-- The loop reads lines by what they come to. -/
def Follows (r : DumpFileReader σ) (e : Expansion σ) (files : List FileStream) : Prop :=
  ∃ r', d.Reaches r r' ∧ r.Becomes e files r'

/-- One piece after the other. -/
theorem Follows.andThen {next : σ → Expansion σ} {files' : List FileStream}
    (h : d.Follows r e files) (rest : List ByteString)
    (h' : e.cutOff = false → e.ending = .going →
      d.Follows (r.after e files) (next e.parsers) files') :
    d.Follows r (e.andThen rest next) files' := by
  obtain ⟨r', hreaches, hbecomes⟩ := h
  by_cases hending : e.ending = .going
  · rw [Expansion.andThen_of_going hending]
    cases hbecomes with
    | cutOff hcut hunread => exact ⟨r', hreaches, .cutOff (by simp [hcut]) hunread⟩
    | going hcut =>
      obtain ⟨r'', hreaches', hbecomes⟩ := h' hcut hending
      exact ⟨r'', hreaches.trans hreaches', hbecomes.of_after hcut⟩
    | failed _ hfailed => rcases hfailed with hfailed | hfailed <;> simp [hending] at hfailed
    | ended _ hended => simp [hending] at hended
  · rw [Expansion.andThen_of_ne hending]
    exact ⟨r', hreaches, hbecomes.with_lines hending _⟩

/-! ### A line -/

/-- What a line comes to, and what is made of the reader by it.  A file that is named is on the
stack then, and has yet to be read. -/
inductive LineStep (d : DumpSetting σ) (room : ℕ) (terminated : Bool) (r : DumpFileReader σ) :
    Expansion σ → DumpFileReader σ → Prop
  | goes {e : Expansion σ} (hcut : e.cutOff = false) (hending : e.ending = .going) :
      LineStep d room terminated r e (r.after e r.fileStack)
  | fails {e : Expansion σ} (hcut : e.cutOff = false)
      (hending : e.ending = .stopped ∨ e.ending = .refused) {r' : DumpFileReader σ}
      (herror : r'.errorCondition = true) (hhanded : r'.handed = r.handed ++ e.handed)
      (hunread : r'.unread = r.unread) : LineStep d room terminated r e r'
  | ends {e : Expansion σ} (hcut : e.cutOff = false)
      (hending : e.ending = .ended r.fileStack.length terminated) :
      LineStep d room terminated r e { r.after e r.fileStack with fileParsed := true }
  | includes (room' : ℕ) (hroom : room = room' + 1) (file : DumpFile) {e : Expansion σ}
      (he : e = d.expandFile (d.includeFile room') (r.fileStack.length + 1) file r.parsers) :
      LineStep d room terminated r
        { e with cutOff := e.cutOff || (!terminated && file.isUnread) }
        { r with fileStack := .ofFile file :: r.fileStack }

theorem after_skip (raw : ByteString) :
    r.after ⟨[raw], r.parsers, [], .going, false⟩ r.fileStack = r := by
  simp [after]

theorem lineStep_addFileToStack {room : ℕ} (terminated : Bool)
    (hroom : r.fileStack.length + room = fileStackLimit) (fileName : ByteString) :
    LineStep d room terminated r (d.includeFile room terminated r.parsers fileName)
      (d.addFileToStack r fileName) := by
  unfold addFileToStack
  cases room with
  | zero =>
    rw [if_pos (by omega)]
    exact .fails rfl (.inr rfl) rfl (List.append_nil _).symm rfl
  | succ room =>
    have hsize : fileStackLimit - room = r.fileStack.length + 1 := by omega
    rw [if_neg (by omega), includeFile]
    cases d.files fileName with
    | none => exact .fails rfl (.inr rfl) rfl (List.append_nil _).symm rfl
    | some file => exact .includes room rfl file (by rw [hsize])

theorem lineStep_parseLine {room : ℕ} (terminated : Bool)
    (hroom : r.fileStack.length + room = fileStackLimit) (raw input : ByteString) :
    LineStep d room terminated r
      (d.expandInput (d.includeFile room) terminated r.parsers raw input)
      (d.parseLine r input) := by
  have hskip : LineStep d room terminated r ⟨[raw], r.parsers, [], .going, false⟩ r := by
    conv => arg 6; rw [← after_skip raw (r := r)]
    exact .goes rfl rfl
  cases input with
  | nil => exact hskip
  | cons c input =>
    simp only [parseLine, expandInput]
    split_ifs with hinclude hforbidden hparse
    · exact .fails rfl (.inr rfl) rfl (List.append_nil _).symm rfl
    · exact lineStep_addFileToStack terminated hroom _
    · unfold callParser
      cases herror : (d.parse r.parsers (c :: input)).2 with
      | none => exact .goes rfl rfl
      | some cause => exact .fails rfl (.inl rfl) rfl rfl rfl
    · exact hskip

/-- **What is done with a line is what it comes to.** -/
theorem lineStep (room : ℕ) (terminated : Bool)
    (hroom : r.fileStack.length + room = fileStackLimit) (raw : ByteString) :
    LineStep d room terminated r
      (d.expandLine (d.includeFile room) r.fileStack.length terminated r.parsers raw)
      (d.processLine r false raw) := by
  simp only [processLine, expandLine, Bool.false_eq_true, if_false]
  split_ifs with hend hvalid
  · have hafter : r = r.after ⟨[raw], r.parsers, [],
        .ended r.fileStack.length terminated, false⟩ r.fileStack := by
      simp [after]
    conv => arg 6; rw [hafter]
    exact .ends rfl rfl
  · exact lineStep_parseLine terminated hroom raw _
  · exact .fails rfl (.inl rfl) rfl (List.append_nil _).symm rfl

/-! ### Lines, and files -/

variable {file : FileStream} {room : ℕ}

theorem iteration_eq (hr : r.Running) (hstack : r.fileStack = file :: files) : d.iteration r =
    endFile (d.processLine { r with fileStack := file.getline.2 :: files } file.getline.2.bad
      file.getline.1) file.getline.2.eof := by
  have hover : ¬r.isOver = true := by
    simp [isOver, hstack, hr.fileParsed, hr.errorCondition]
  rw [iteration, if_neg hover]
  simp only [hstack]

variable (d room) in
/-- A file that has just been opened is read by what it comes to. -/
def ReadsFile : Prop :=
  ∀ (r : DumpFileReader σ) (file : DumpFile) (files : List FileStream), r.Running →
    r.fileStack = .ofFile file :: files → files ≠ [] → files.length + 1 + room = fileStackLimit →
    d.Follows r (d.expandFile (d.includeFile room) (files.length + 1) file r.parsers) files

variable {raw : ByteString} {dumpFile : DumpFile} {breaks : Bool} {raws : List ByteString}

/-- A line that a newline ends. -/
theorem follows_line (hfile : ∀ room', room = room' + 1 → d.ReadsFile room') (hr : r.Running)
    {rest : ByteString} (hraw : lineFeed ∉ raw)
    (hstack : r.fileStack = ⟨raw ++ lineFeed :: rest, breaks, false, false⟩ :: files)
    (hroom : files.length + 1 + room = fileStackLimit) :
    d.Follows r (d.expandLine (d.includeFile room) (files.length + 1) true r.parsers raw)
      (⟨rest, breaks, false, false⟩ :: files) := by
  have hiteration := iteration_eq (d := d) hr hstack
  rw [getline_line hraw] at hiteration
  have hstep := lineStep (d := d) (r := { r with fileStack := ⟨rest, breaks, false, false⟩ :: files })
    room true hroom raw
  have hreaches : d.Reaches r _ := reaches_iteration r
  rw [hiteration] at hreaches
  dsimp only [endFile] at hreaches hstep
  generalize d.expandLine _ _ _ _ _ = e at hstep ⊢
  generalize d.processLine _ _ _ = r' at hstep hreaches
  cases hstep with
  | goes hcut hending => exact ⟨_, hreaches, .going hcut hending⟩
  | fails hcut hending herror hhanded hunread =>
    exact ⟨_, hreaches, .failed hcut hending herror hhanded hunread⟩
  | ends hcut hending => exact ⟨_, hreaches, .ended hcut hending rfl⟩
  | includes room' hroom' file he =>
    obtain ⟨r'', hreaches', hbecomes⟩ := hfile room' hroom'
      { r with fileStack := .ofFile file :: ⟨rest, breaks, false, false⟩ :: files } file _
      ⟨hr.fileParsed, hr.errorCondition⟩ rfl (List.cons_ne_nil _ _)
      (by simp only [List.length_cons]; omega)
    refine ⟨r'', hreaches.trans hreaches', ?_⟩
    rw [he]
    simpa using hbecomes.of_fileStack

theorem becomes_empty (r : DumpFileReader σ) (files : List FileStream) :
    r.Becomes (.empty r.parsers) files { r with fileStack := files } := by
  have hafter : { r with fileStack := files } = r.after (.empty r.parsers) files := by
    simp [after, Expansion.empty]
  rw [hafter]
  exact .going rfl rfl

/-- Lines that newlines end. -/
theorem follows_lines (hfile : ∀ room', room = room' + 1 → d.ReadsFile room')
    (hroom : files.length + 1 + room = fileStackLimit) (hraws : ∀ raw ∈ raws, lineFeed ∉ raw)
    {rest : ByteString} (hr : r.Running)
    (hstack : r.fileStack = ⟨joinLines lineFeed raws ++ rest, breaks, false, false⟩ :: files) :
    d.Follows r (d.expandLines (d.includeFile room) (files.length + 1) r.parsers raws)
      (⟨rest, breaks, false, false⟩ :: files) := by
  induction raws generalizing r with
  | nil =>
    have hbecomes := becomes_empty r (⟨rest, breaks, false, false⟩ :: files)
    rw [joinLines_nil, List.nil_append] at hstack
    rw [← hstack] at hbecomes ⊢
    exact ⟨r, .refl r, hbecomes⟩
  | cons raw raws ih =>
    obtain ⟨hraw, hraws⟩ := List.forall_mem_cons.mp hraws
    rw [joinLines_cons, List.append_assoc, List.cons_append] at hstack
    refine (follows_line hfile hr hraw hstack hroom).andThen raws fun _ _ => ?_
    exact ih hraws (hr.after _ _) rfl

/-- A file that has been read to its end. -/
def readFile : FileStream := ⟨[], false, true, false⟩

@[simp] theorem processLine_nil (r : DumpFileReader σ) : d.processLine r false [] = r := by
  have hinput : d.inputOf r.parsers [] = [] := by
    unfold inputOf
    split <;> rfl
  rw [processLine, if_neg (by simp), if_neg (by decide), if_neg (by decide), hinput, parseLine]

theorem endFile_pop (hstack : r.fileStack = readFile :: files) (hfiles : files ≠ [])
    (herror : r.errorCondition = false) : endFile r true = { r with fileStack := files } := by
  have hlength : 0 < files.length := List.length_pos_iff.mpr hfiles
  rw [endFile, if_pos ⟨rfl, by simp [herror]⟩, if_pos (by simp [hstack, hlength])]
  simp [popFile, hstack, isUnread, readFile]

/-- The primary file may not end before the dump does. -/
theorem endFile_primary (hstack : r.fileStack = [file]) (herror : r.errorCondition = false) :
    endFile r true = r.setError (ascii "Primary dump file ended unexpectedly.") := by
  rw [endFile, if_pos ⟨rfl, by simp [herror]⟩, if_neg (by simp [hstack])]

/-- Nothing is read after the end of a file. -/
theorem iteration_read (hr : r.Running) (hstack : r.fileStack = readFile :: files) :
    d.iteration r = endFile r true := by
  have hself : { r with fileStack := readFile :: files } = r := by rw [← hstack]
  rw [iteration_eq hr hstack, readFile, getline_eof]
  dsimp only
  rw [processLine_nil, ← readFile, hself]

theorem reaches_pop (hr : r.Running) (hstack : r.fileStack = readFile :: files)
    (hfiles : files ≠ []) : d.Reaches r { r with fileStack := files } := by
  have hreaches : d.Reaches r _ := reaches_iteration r
  rwa [iteration_read hr hstack, endFile_pop hstack hfiles hr.errorCondition] at hreaches

theorem reaches_primary_error (hr : r.Running) (hstack : r.fileStack = [readFile]) :
    d.Reaches r (r.setError (ascii "Primary dump file ended unexpectedly.")) := by
  have hreaches : d.Reaches r _ := reaches_iteration r
  rwa [iteration_read hr hstack, endFile_primary hstack hr.errorCondition] at hreaches

/-- The last line of a file, which no newline ends. -/
theorem iteration_last (hraw : lineFeed ∉ raw) (hr : r.Running)
    (hstack : r.fileStack = ⟨raw, false, false, false⟩ :: files) : d.iteration r =
      endFile (d.processLine { r with fileStack := readFile :: files } false raw) true := by
  rw [iteration_eq hr hstack, getline_open hraw]
  rfl

/-- Reading on after the end of a file is an error. -/
theorem iteration_breaks (hraw : lineFeed ∉ raw) (hr : r.Running)
    (hstack : r.fileStack = ⟨raw, true, false, false⟩ :: files) : d.iteration r =
      { r with fileStack := ⟨[], true, false, true⟩ :: files }.setError (ascii "I/O error") := by
  rw [iteration_eq hr hstack, getline_open hraw]
  rfl

/-- A file that the last line names is not read. -/
theorem endFile_include (herror : r.errorCondition = false) :
    endFile { r with fileStack := .ofFile dumpFile :: readFile :: files } true =
      { r with
        fileStack := readFile :: files
        unread := r.unread || dumpFile.isUnread } := by
  rw [endFile, if_pos ⟨rfl, by simp [herror]⟩, if_pos (by simp)]
  simp [popFile, isUnread, ofFile, DumpFile.isUnread]

theorem expandFile_of_read {includeFile : Bool → σ → ByteString → Expansion σ} {stackSize : ℕ}
    (h : dumpFile.isUnread = false) (s : σ) :
    d.expandFile includeFile stackSize dumpFile s = .empty s := by
  obtain ⟨htext, hbreaks⟩ : dumpFile.text = [] ∧ dumpFile.breaks = false := by
    simpa [DumpFile.isUnread] using h
  simp [expandFile, expandLines, expandEnd, htext, hbreaks, Expansion.empty, Expansion.andThen]

/-- What comes after the last newline of a file that another has named. -/
theorem follows_end (hr : r.Running) (hfiles : files ≠ [])
    (hstack : r.fileStack =
      ⟨openLine lineFeed dumpFile.text, dumpFile.breaks, false, false⟩ :: files)
    (hroom : files.length + 1 + room = fileStackLimit) :
    d.Follows r (d.expandEnd (d.includeFile room) (files.length + 1) dumpFile r.parsers) files := by
  have hopen := notMem_openLine lineFeed dumpFile.text
  have hreaches : d.Reaches r _ := reaches_iteration r
  unfold expandEnd
  split_ifs with hbreaks hnil
  · rw [hbreaks] at hstack
    rw [iteration_breaks hopen hr hstack] at hreaches
    exact ⟨_, hreaches, .failed rfl (.inr rfl) rfl (List.append_nil _).symm rfl⟩
  · rw [Bool.eq_false_iff.mpr hbreaks] at hstack
    rw [iteration_last hopen hr hstack, hnil, processLine_nil,
      endFile_pop (r := { r with fileStack := readFile :: files }) rfl hfiles
        hr.errorCondition] at hreaches
    exact ⟨_, hreaches, becomes_empty r files⟩
  · rw [Bool.eq_false_iff.mpr hbreaks] at hstack
    rw [iteration_last hopen hr hstack] at hreaches
    have hstep := lineStep (d := d) (r := { r with fileStack := readFile :: files }) room
      false hroom (openLine lineFeed dumpFile.text)
    dsimp only at hstep
    generalize d.expandLine _ _ _ _ _ = e at hstep ⊢
    generalize d.processLine _ _ _ = r' at hstep hreaches
    cases hstep with
    | goes hcut hending =>
      rw [endFile_pop ?_ hfiles ?_] at hreaches
      · exact ⟨_, hreaches, .going hcut hending⟩
      · rfl
      · exact hr.errorCondition
    | fails hcut hending herror hhanded hunread =>
      rw [endFile, if_neg (by simp [herror])] at hreaches
      exact ⟨_, hreaches, .failed hcut hending herror hhanded hunread⟩
    | ends hcut hending =>
      rw [endFile_pop ?_ hfiles ?_] at hreaches
      · exact ⟨_, hreaches, .ended hcut hending rfl⟩
      · rfl
      · exact hr.errorCondition
    | includes room' hroom' file he =>
      rw [endFile_include hr.errorCondition] at hreaches
      cases hunread : file.isUnread with
      | true => exact ⟨_, hreaches, .cutOff (by simp [hunread]) (by simp [hunread])⟩
      | false =>
        rw [hunread, Bool.or_false] at hreaches
        have hpop := reaches_pop (d := d) (r := { r with fileStack := readFile :: files })
          ⟨hr.fileParsed, hr.errorCondition⟩ rfl hfiles
        rw [he, expandFile_of_read hunread]
        exact ⟨_, hreaches.trans hpop, becomes_empty r files⟩

/-- **A file that another has named is read by what it comes to.** -/
theorem readsFile (d : DumpSetting σ) (room : ℕ) : d.ReadsFile room := by
  induction room using Nat.strong_induction_on with
  | _ room ih =>
    intro r file files hr hstack hfiles hroom
    rw [ofFile, ← endedLines_openLine lineFeed file.text] at hstack
    refine (follows_lines (fun room' hroom' => ih room' (by omega)) hroom
      (fun _ => notMem_of_mem_endedLines) hr hstack).andThen _ fun _ _ => ?_
    exact follows_end (hr.after _ _) hfiles rfl hroom

/-! ### A dump -/

variable (d) in
/-- The dump has been read by what it comes to, or there is a file that has not been. -/
inductive ReadAs (e : Expansion σ) (r : DumpFileReader σ) : Prop
  | cutOff (hcut : e.cutOff = true) (hunread : r.unread = true)
  | whole (hcut : e.cutOff = false) (hover : r.isOver = true) (hhanded : r.handed = e.handed)
      (hunread : r.unread = false) (hresult : (d.conclude r).1 = d.verdict e)

theorem conclude_of_error (h : r.errorCondition = true) : (d.conclude r).1 = false := by
  simp [conclude, h]

theorem conclude_of_no_error (h : r.errorCondition = false) :
    (d.conclude r).1 = (d.closed r.parsers && decide (r.fileStack.length = 1)) := by
  unfold conclude setError
  cases hclosed : d.closed r.parsers <;> by_cases hone : r.fileStack.length = 1 <;>
    simp [h, hclosed, hone]

/-- An error ends the loop. -/
theorem ReadAs.of_error (hcut : e.cutOff = false) (herror : r.errorCondition = true)
    (hhanded : r.handed = e.handed) (hunread : r.unread = false) (hverdict : d.verdict e = false) :
    d.ReadAs e r :=
  .whole hcut (by simp [isOver, herror]) hhanded hunread
    ((conclude_of_error herror).trans hverdict.symm)

theorem ReadAs.with_lines (h : d.ReadAs e r) (lines : List ByteString) :
    d.ReadAs { e with lines := lines } r := by
  cases h with
  | cutOff hcut hunread => exact .cutOff hcut hunread
  | whole hcut hover hhanded hunread hresult => exact .whole hcut hover hhanded hunread hresult

/-- Lines that end the loop. -/
theorem ReadAs.of_becomes (hr : r.Running) (hhanded : r.handed = []) (hunread : r.unread = false)
    (h : r.Becomes e files r') (hending : e.ending ≠ .going) : d.ReadAs e r' := by
  cases h with
  | cutOff hcut hunread => exact .cutOff hcut hunread
  | going _ hgoing => exact absurd hgoing hending
  | failed hcut hfailed herror hhanded' hunread' =>
    refine .of_error hcut herror (by rw [hhanded', hhanded, List.nil_append])
      (hunread'.trans hunread) ?_
    rcases hfailed with hfailed | hfailed <;> simp [verdict, hfailed]
  | @ended hcut stackSize terminated hended files' hfiles =>
    refine .whole hcut (by simp [isOver]) (by simp [after, hhanded]) hunread ?_
    have hsize : files'.length = 1 ↔ stackSize = if terminated then 1 else 2 := by
      cases terminated <;> simp_all
    rw [conclude_of_no_error (by exact hr.errorCondition), verdict, hended]
    exact congrArg (d.closed e.parsers && ·) (decide_eq_decide.mpr hsize)

/-- The loop does not go on after the primary file. -/
theorem reaches_primary_end (hr : r.Running)
    (hstack : r.fileStack = [⟨openLine lineFeed dumpFile.text, dumpFile.breaks, false, false⟩])
    (he : e = d.expandEnd (d.includeFile (fileStackLimit - 1)) 1 dumpFile r.parsers) :
    ∃ r', d.Reaches r r' ∧ (e.cutOff = true ∧ r'.unread = true ∨
      e.cutOff = false ∧ r'.errorCondition = true ∧ r'.handed = r.handed ++ e.handed ∧
        r'.unread = r.unread ∧ d.verdict e = false) := by
  have hopen := notMem_openLine lineFeed dumpFile.text
  have hreaches : d.Reaches r _ := reaches_iteration r
  unfold expandEnd at he
  split_ifs at he with hbreaks hnil
  · rw [hbreaks] at hstack
    rw [iteration_breaks hopen hr hstack] at hreaches
    subst he
    exact ⟨_, hreaches, .inr ⟨rfl, rfl, (List.append_nil _).symm, rfl, rfl⟩⟩
  · rw [Bool.eq_false_iff.mpr hbreaks] at hstack
    rw [iteration_last hopen hr hstack, hnil, processLine_nil,
      endFile_primary (r := { r with fileStack := [readFile] }) rfl hr.errorCondition] at hreaches
    subst he
    exact ⟨_, hreaches, .inr ⟨rfl, rfl, (List.append_nil _).symm, rfl, rfl⟩⟩
  · rw [Bool.eq_false_iff.mpr hbreaks] at hstack
    rw [iteration_last hopen hr hstack] at hreaches
    have hstep := lineStep (d := d) (r := { r with fileStack := [readFile] })
      (fileStackLimit - 1) false rfl (openLine lineFeed dumpFile.text)
    dsimp only [List.length_singleton] at hstep
    rw [← he] at hstep
    generalize d.processLine _ _ _ = r' at hstep hreaches
    cases hstep with
    | goes hcut hending =>
      rw [endFile_primary ?_ ?_] at hreaches
      · exact ⟨_, hreaches, .inr ⟨hcut, rfl, rfl, rfl, by simp [verdict, hending]⟩⟩
      · exact readFile
      · rfl
      · exact hr.errorCondition
    | fails hcut hending herror hhanded hunread =>
      rw [endFile, if_neg (by simp [herror])] at hreaches
      refine ⟨_, hreaches, .inr ⟨hcut, herror, hhanded, hunread, ?_⟩⟩
      rcases hending with hending | hending <;> simp [verdict, hending]
    | ends hcut hending =>
      rw [endFile_primary ?_ ?_] at hreaches
      · exact ⟨_, hreaches, .inr ⟨hcut, rfl, rfl, rfl, by simp [verdict, hending]⟩⟩
      · exact readFile
      · rfl
      · exact hr.errorCondition
    | includes room' hroom' file he' =>
      rw [endFile_include hr.errorCondition] at hreaches
      cases hunread : file.isUnread with
      | true => exact ⟨_, hreaches, .inl ⟨by simp, by simp [hunread]⟩⟩
      | false =>
        rw [hunread, Bool.or_false] at hreaches
        have hprimary := reaches_primary_error (d := d) (r := { r with fileStack := [readFile] })
          ⟨hr.fileParsed, hr.errorCondition⟩ rfl
        rw [he', expandFile_of_read hunread]
        exact ⟨_, hreaches.trans hprimary, .inr ⟨rfl, rfl, (List.append_nil _).symm, rfl, rfl⟩⟩

theorem exists_expandPrimary_eq (dumpFile : DumpFile) (raws : List ByteString) (s : σ)
    (he : e = d.expandLines (d.includeFile (fileStackLimit - 1)) 1 s raws)
    (hending : e.ending = .going) : ∃ lines, (d.expandPrimary dumpFile raws s).1 =
      e.andThen [] fun _ => { d.expandEnd (d.includeFile (fileStackLimit - 1)) 1 dumpFile e.parsers
        with lines := lines } := by
  subst he
  unfold expandPrimary
  dsimp only
  rw [if_pos hending]
  split
  · exact ⟨_, rfl⟩
  · exact ⟨_, rfl⟩

/-- The primary file is read by what it comes to. -/
theorem reaches_primary (dumpFile : DumpFile) (hr : r.Running)
    (hstack : r.fileStack = [⟨joinLines lineFeed raws ++ openLine lineFeed dumpFile.text,
      dumpFile.breaks, false, false⟩]) (hraws : ∀ raw ∈ raws, lineFeed ∉ raw)
    (hhanded : r.handed = []) (hunread : r.unread = false) :
    ∃ r', d.Reaches r r' ∧ d.ReadAs (d.expandPrimary dumpFile raws r.parsers).1 r' := by
  have hroom : ([] : List FileStream).length + 1 + (fileStackLimit - 1) = fileStackLimit := rfl
  obtain ⟨r', hreaches, hbecomes⟩ :=
    follows_lines (d := d) (fun room' _ => readsFile d room') hroom hraws hr hstack
  dsimp only [List.length_nil, Nat.zero_add] at hbecomes
  generalize he : d.expandLines _ _ _ _ = e at hbecomes
  by_cases hending : e.ending = .going
  · obtain ⟨lines, hlines⟩ := exists_expandPrimary_eq dumpFile raws r.parsers he.symm hending
    rw [hlines, Expansion.andThen_of_going hending]
    cases hbecomes with
    | cutOff hcut hunread => exact ⟨r', hreaches, .cutOff (by simp [hcut]) hunread⟩
    | going hcut =>
      obtain ⟨r'', hreaches', hend⟩ := reaches_primary_end (hr.after e _) rfl rfl
      refine ⟨r'', hreaches.trans hreaches', ?_⟩
      rcases hend with ⟨hcut', hunread'⟩ | ⟨hcut', herror, hhanded', hunread', hverdict⟩
      · refine .cutOff ?_ hunread'
        exact (congrArg (e.cutOff || ·) hcut').trans (Bool.or_true _)
      · refine .of_error ?_ herror ?_ (hunread'.trans hunread) hverdict
        · exact (congrArg (e.cutOff || ·) hcut').trans (by rw [hcut]; rfl)
        · rw [hhanded', after, hhanded]
          rfl
    | failed _ hfailed => rcases hfailed with hfailed | hfailed <;> simp [hending] at hfailed
    | ended _ hended => simp [hending] at hended
  · rw [expandPrimary, he]
    dsimp only
    rw [if_neg hending]
    exact ⟨r', hreaches, .of_becomes hr hhanded hunread hbecomes hending⟩

/-- A file that has but one line, without a newline, is in error. -/
theorem reaches_error_of_line (hr : r.Running) (hstack : r.fileStack = [file])
    (hread : file.getline = ([], file)) (hend : file.eof = true ∨ file.bad = true) :
    ∃ r', d.Reaches r r' ∧ r'.errorCondition = true ∧ r'.handed = r.handed ∧
      r'.unread = r.unread := by
  have hself : { r with fileStack := [file] } = r := by rw [← hstack]
  refine ⟨_, reaches_iteration r, ?_⟩
  rw [iteration_eq hr hstack, hread]
  dsimp only
  rw [hself]
  cases hbad : file.bad with
  | true => simp [processLine, endFile, setError]
  | false =>
    rw [processLine_nil, hend.resolve_right (by simp [hbad]),
      endFile_primary hstack hr.errorCondition]
    exact ⟨rfl, rfl, rfl⟩

theorem start_of_file {fileName : ByteString} (s : σ)
    (hname : ¬(fileName = [] ∨ d.baseFilePath = [])) (hfile : d.files fileName = some dumpFile) :
    d.start fileName s =
      readVersion ⟨[.ofFile dumpFile], false, false, [], s, [], false⟩ := by
  obtain ⟨hname, hbase⟩ := not_or.mp hname
  simp [start, new, addFileToStack, hname, hbase, hfile, fileStackLimit]

/-- **A dump is read by what it comes to.** -/
theorem reaches_dump (d : DumpSetting σ) (fileName : ByteString) (s : σ) :
    ∃ r, d.Reaches (d.start fileName s) r ∧ d.ReadAs (d.expandDump fileName s).1 r := by
  unfold expandDump
  split_ifs with hname
  · refine ⟨_, .refl _, .of_error rfl ?_ ?_ ?_ rfl⟩ <;>
      by_cases hempty : fileName = [] <;> simp_all [start, new, setError, Expansion.refusal]
  cases hfile : d.files fileName with
  | none =>
    obtain ⟨hname, hbase⟩ := not_or.mp hname
    refine ⟨_, .refl _, .of_error rfl ?_ ?_ ?_ rfl⟩ <;>
      simp [start, new, addFileToStack, hname, hbase, hfile, fileStackLimit, setError,
        Expansion.refusal]
  | some dumpFile =>
    rw [start_of_file s hname hfile]
    have htext := endedLines_openLine lineFeed dumpFile.text
    have hopen := notMem_openLine lineFeed dumpFile.text
    dsimp only [expandVersion]
    cases hended : endedLines lineFeed dumpFile.text with
    | nil =>
      rw [hended, joinLines_nil, List.nil_append] at htext
      rw [ofFile, ← htext]
      by_cases hversion : trimCopy (openLine lineFeed dumpFile.text) = versionLine
      · obtain ⟨r, hreaches, herror, hhanded, hunread⟩ := reaches_error_of_line (d := d)
          (r := ⟨[⟨[], dumpFile.breaks, !dumpFile.breaks, dumpFile.breaks⟩], false, false, [], s,
            [], false⟩) ⟨rfl, rfl⟩ rfl (by cases dumpFile.breaks <;> rfl)
          (by cases dumpFile.breaks <;> simp)
        refine ⟨r, ?_, .of_error rfl herror hhanded hunread rfl⟩
        simpa [readVersion, getline_open hopen, hversion] using hreaches
      · refine ⟨_, .refl _, .of_error rfl ?_ ?_ ?_ rfl⟩ <;>
          simp [readVersion, getline_open hopen, hversion, setError]
    | cons first raws =>
      have hfirst : ∀ line ∈ first :: raws, lineFeed ∉ line := fun line hline =>
        notMem_of_mem_endedLines (hended ▸ hline)
      obtain ⟨hfirst, hraws⟩ := List.forall_mem_cons.mp hfirst
      rw [hended, joinLines_cons, List.append_assoc, List.cons_append] at htext
      rw [ofFile, ← htext]
      dsimp only
      split_ifs with hversion
      · refine ⟨_, .refl _, .of_error rfl ?_ ?_ ?_ rfl⟩ <;>
          simp [readVersion, getline_line hfirst, hversion, setError]
      · obtain ⟨r, hreaches, hread⟩ := reaches_primary (d := d) dumpFile
          (r := ⟨[⟨joinLines lineFeed raws ++ openLine lineFeed dumpFile.text, dumpFile.breaks,
            false, false⟩], false, false, [], s, [], false⟩) ⟨rfl, rfl⟩ rfl hraws rfl rfl
        refine ⟨r, ?_, hread.with_lines _⟩
        simpa [readVersion, getline_line hfirst, hversion] using hreaches

/-! ### The single text -/

section SingleText

variable {fileName text : ByteString} {s : σ} {stackSize : ℕ} {terminated : Bool}
  {includeFile : Bool → σ → ByteString → Expansion σ}

variable (d fileName text s) in
/-- The lines are those of a single text, which comes to the same. -/
structure Flattens (e : Expansion σ) : Prop where
  lines : ∀ line ∈ e.lines, lineFeed ∉ line
  expand : e.ending ≠ .refused → (d.alone fileName text).expandLines
    ((d.alone fileName text).includeFile (fileStackLimit - 1)) 1 s e.lines = e.flat
  /-- The line that ends the dump in the primary file is ended by a newline. -/
  ends : ∀ terminated, e.ending = .ended 1 terminated → terminated = true

theorem expandLines_append (raws raws' : List ByteString) (s : σ) :
    d.expandLines includeFile stackSize s (raws ++ raws') =
      (d.expandLines includeFile stackSize s raws).andThen raws' fun s =>
        d.expandLines includeFile stackSize s raws' := by
  induction raws generalizing s with
  | nil => rw [List.nil_append, expandLines, Expansion.empty_andThen]
  | cons raw raws ih =>
    rw [List.cons_append, expandLines, expandLines, Expansion.andThen_assoc]
    exact congrArg _ (funext fun s => ih s)

theorem expandLines_singleton (raw : ByteString) (s : σ) :
    d.expandLines includeFile stackSize s [raw] =
      d.expandLine includeFile stackSize true s raw := by
  rw [expandLines]
  exact Expansion.andThen_empty _

theorem Flattens.andThen {rest : List ByteString} (next : σ → Expansion σ)
    (h : d.Flattens fileName text s e) (hrest : ∀ line ∈ rest, lineFeed ∉ line)
    (h' : e.ending = .going → d.Flattens fileName text e.parsers (next e.parsers)) :
    d.Flattens fileName text s (e.andThen rest next) := by
  by_cases hending : e.ending = .going
  · have hnext := h' hending
    rw [Expansion.andThen_of_going hending]
    refine ⟨fun line hline => ?_, fun hrefused => ?_, hnext.ends⟩
    · rcases List.mem_append.mp hline with hline | hline
      · exact h.lines line hline
      · exact hnext.lines line hline
    · have hflat : e.flat.ending = .going := by rw [Expansion.flat, hending]; rfl
      rw [expandLines_append, h.expand (by simp [hending]), Expansion.andThen_of_going hflat]
      rw [show e.flat.parsers = e.parsers from rfl, hnext.expand hrefused]
      rfl
  · rw [Expansion.andThen_of_ne hending]
    refine ⟨fun line hline => ?_, fun hrefused => ?_, h.ends⟩
    · rcases List.mem_append.mp hline with hline | hline
      · exact h.lines line hline
      · exact hrest line hline
    · have hflat : e.flat.ending ≠ .going := by
        unfold Expansion.flat
        cases hcases : e.ending <;> simp_all [Ending.flat]
      rw [expandLines_append, h.expand hrefused, Expansion.andThen_of_ne hflat]
      rfl

variable {raw : ByteString} {raws : List ByteString}

/-- A line that stands in the single text as it is. -/
theorem flattens_of_lines_eq (hraw : lineFeed ∉ raw) (hlines : e.lines = [raw])
    (hends : ∀ terminated, e.ending = .ended 1 terminated → terminated = true)
    (hflat : (d.alone fileName text).expandLine
      ((d.alone fileName text).includeFile (fileStackLimit - 1)) 1 true s raw = e.flat) :
    d.Flattens fileName text s e := by
  refine ⟨by simpa [hlines] using hraw, fun _ => ?_, hends⟩
  rw [hlines, expandLines_singleton, hflat]

theorem flattens_refusal (s : σ) : d.Flattens fileName text s (.refusal s) :=
  ⟨by simp [Expansion.refusal], fun h => absurd rfl h, by simp [Expansion.refusal]⟩

/-- A line, with the lines of the file that it names. -/
theorem flattens_expandLine
    (hinclude : ∀ s name, d.Flattens fileName text s (includeFile terminated s name))
    (hraw : lineFeed ∉ raw) (hsize : raw = endLine → stackSize = 1 → terminated = true) :
    d.Flattens fileName text s
      (d.expandLine includeFile stackSize terminated s raw) := by
  by_cases hend : raw = endLine
  · rw [expandLine, if_pos hend]
    refine flattens_of_lines_eq hraw rfl ?_ (by rw [expandLine, if_pos hend]; rfl)
    rintro _ ⟨⟩
    exact hsize hend rfl
  by_cases hvalid : utf8Valid raw
  swap
  · rw [expandLine, if_neg hend, if_pos hvalid]
    exact flattens_of_lines_eq hraw rfl nofun (by rw [expandLine, if_neg hend, if_pos hvalid]; rfl)
  have hline : (d.alone fileName text).expandLine
      ((d.alone fileName text).includeFile (fileStackLimit - 1)) 1 true s raw =
      d.expandInput ((d.alone fileName text).includeFile (fileStackLimit - 1)) true s raw
        (d.inputOf s raw) := by
    rw [expandLine, if_neg hend, if_neg (by simpa using hvalid)]
    rfl
  rw [expandLine, if_neg hend, if_neg (by simpa using hvalid)]
  generalize d.inputOf s raw = input at hline
  cases input with
  | nil => exact flattens_of_lines_eq hraw rfl nofun hline
  | cons c input =>
    simp only [expandInput] at hline ⊢
    split_ifs with hcommand hforbidden hparse
    · exact flattens_refusal s
    · exact hinclude s _
    · rw [if_neg hcommand, if_pos hparse] at hline
      refine flattens_of_lines_eq hraw rfl ?_ (hline.trans ?_)
      · cases (d.parse s (c :: input)).2 <;> exact nofun
      · unfold Expansion.flat
        cases hparse : (d.parse s (c :: input)).2 <;> simp [Ending.flat]
    · rw [if_neg hcommand, if_neg hparse] at hline
      exact flattens_of_lines_eq hraw rfl nofun hline

theorem flattens_empty (s : σ) : d.Flattens fileName text s (.empty s) :=
  ⟨nofun, fun _ => rfl, nofun⟩

theorem flattens_expandLines (stackSize : ℕ)
    (hinclude : ∀ terminated s name, d.Flattens fileName text s (includeFile terminated s name))
    (hraws : ∀ raw ∈ raws, lineFeed ∉ raw) (s : σ) :
    d.Flattens fileName text s (d.expandLines includeFile stackSize s raws) := by
  induction raws generalizing s with
  | nil => exact flattens_empty s
  | cons raw raws ih =>
    obtain ⟨hraw, hraws⟩ := List.forall_mem_cons.mp hraws
    exact (flattens_expandLine (hinclude true) hraw fun _ _ => rfl).andThen _ hraws fun _ =>
      ih hraws _

theorem flattens_expandFile (hinclude : ∀ terminated s name, d.Flattens fileName text s
      (includeFile terminated s name)) (hsize : stackSize ≠ 1) (file : DumpFile) (s : σ) :
    d.Flattens fileName text s (d.expandFile includeFile stackSize file s) := by
  have hopen := notMem_openLine lineFeed file.text
  refine (flattens_expandLines stackSize hinclude (fun _ => notMem_of_mem_endedLines) s).andThen _ ?_ fun _ => ?_
  · unfold DumpFile.lastLine
    split_ifs <;> simp [hopen]
  · unfold expandEnd
    split_ifs with hbreaks hnil
    · exact flattens_refusal _
    · exact flattens_empty _
    · exact flattens_expandLine (hinclude false) hopen fun _ h => absurd h hsize

/-- The lines of a file that is named at the end of the primary file. -/
theorem flattens_primaryEnd (hinclude : ∀ terminated s name, d.Flattens fileName text s
      (includeFile terminated s name)) {file : DumpFile}
    (hisInclude : d.isIncludeLine s (openLine lineFeed file.text) = true) :
    d.Flattens fileName text s (d.expandEnd includeFile 1 file s) := by
  have hnotEnd : openLine lineFeed file.text ≠ endLine := by
    simp only [isIncludeLine, Bool.and_eq_true, decide_eq_true_eq] at hisInclude
    exact hisInclude.1.1
  unfold expandEnd
  split_ifs with hbreaks hnil
  · exact flattens_refusal _
  · exact flattens_empty _
  · exact flattens_expandLine (hinclude false) (notMem_openLine lineFeed _) fun h =>
      absurd h hnotEnd

variable (fileName text) in
/-- The lines of a file that is named stand in the single text. -/
theorem flattens_includeFile (room : ℕ) (hroom : room < fileStackLimit) (terminated : Bool) (s : σ)
    (name : ByteString) :
    d.Flattens fileName text s (d.includeFile room terminated s name) := by
  induction room generalizing terminated s name with
  | zero => exact flattens_refusal s
  | succ room ih =>
    rw [includeFile]
    cases d.files name with
    | none => exact flattens_refusal s
    | some file =>
      have hsize : fileStackLimit - room ≠ 1 := by omega
      have hfile := flattens_expandFile (ih (by omega)) hsize file s
      exact ⟨hfile.lines, hfile.expand, hfile.ends⟩

/-- What a line that names no file comes to has nothing to do with files. -/
theorem expandLine_of_not_isIncludeLine (h : d.isIncludeLine s raw = false)
    (includeFile' : Bool → σ → ByteString → Expansion σ) :
    d.expandLine includeFile stackSize terminated s raw =
      d.expandLine includeFile' stackSize terminated s raw := by
  unfold expandLine
  split_ifs with hend hvalid
  · rfl
  · have hcommand : ¬find includeCommand (d.inputOf s raw) = some 0 := by
      simpa [isIncludeLine, hend, hvalid] using h
    cases hinput : d.inputOf s raw with
    | nil => rfl
    | cons c input =>
      rw [hinput] at hcommand
      simp only [expandInput, if_neg hcommand]
  · rfl

variable {stackSize' : ℕ} {terminated' : Bool}

theorem ended_of_not_isIncludeLine (h : d.isIncludeLine s raw = false)
    (hended : (d.expandLine includeFile stackSize terminated s raw).ending =
      .ended stackSize' terminated') : stackSize' = stackSize ∧ terminated' = terminated := by
  rw [expandLine_of_not_isIncludeLine h fun _ s _ => .refusal s] at hended
  unfold expandLine expandInput at hended
  split at hended
  · cases hended
    exact ⟨rfl, rfl⟩
  · split at hended
    · simp at hended
    · split at hended
      · simp at hended
      · split_ifs at hended
        · simp [Expansion.refusal] at hended
        · generalize (d.parse s _).2 = error at hended
          cases error <;> simp at hended

variable (d) in
/-- What `parse` returns for the single text. -/
def textVerdict (e : Expansion σ) : Bool :=
  match e.ending with
  | .ended stackSize terminated => d.closed e.parsers && (stackSize ≠ 1 || terminated)
  | _ => false

theorem Flattens.verdict_flat (h : d.Flattens fileName text s e) :
    d.verdict e.flat = d.textVerdict e := by
  have hends := h.ends
  unfold verdict textVerdict Expansion.flat Ending.flat
  cases hending : e.ending with
  | ended stackSize terminated =>
    by_cases hsize : stackSize = 1
    · subst hsize
      simp [hends terminated hending]
    · simp [hsize]
  | _ => rfl

/-- The lines of the single text are lines. -/
theorem lines_expandPrimary (file : DumpFile) (hraws : ∀ raw ∈ raws, lineFeed ∉ raw) (s : σ) :
    (∀ line ∈ (d.expandPrimary file raws s).1.lines, lineFeed ∉ line) ∧
      lineFeed ∉ (d.expandPrimary file raws s).2 := by
  have hopen := notMem_openLine lineFeed file.text
  have hinclude := flattens_includeFile (d := d) [] [] (fileStackLimit - 1) (by decide)
  have hlines := (flattens_expandLines 1 hinclude hraws s).lines
  unfold expandPrimary
  dsimp only
  split_ifs with hending hisInclude
  · rw [Expansion.andThen_of_going hending]
    refine ⟨fun line hline => ?_, List.not_mem_nil⟩
    rcases List.mem_append.mp hline with hline | hline
    · exact hlines line hline
    · exact (flattens_primaryEnd hinclude hisInclude).lines line hline
  · rw [Expansion.andThen_of_going hending]
    exact ⟨by simpa using hlines, hopen⟩
  · exact ⟨hlines, hopen⟩

theorem expandPrimary_of_openLine_eq_nil {file : DumpFile} (hbreaks : file.breaks = false)
    (hopen : openLine lineFeed file.text = []) (raws : List ByteString) (s : σ) :
    (d.expandPrimary file raws s).1 =
      d.expandLines (d.includeFile (fileStackLimit - 1)) 1 s raws := by
  have hend : ∀ s, d.expandEnd (d.includeFile (fileStackLimit - 1)) 1 file s = .empty s :=
    fun s => by rw [expandEnd, if_neg (by simp [hbreaks]), if_pos hopen]
  unfold expandPrimary
  generalize d.expandLines _ _ _ _ = e
  have hsame : e.andThen [] (fun _ => .empty e.parsers) = e := Expansion.andThen_empty e
  dsimp only
  rw [hend]
  split_ifs
  · exact hsame
  · exact hsame
  · rfl

/-- The last line of the primary file, when it names no file. -/
theorem expandPrimary_of_not_isIncludeLine {file : DumpFile}
    (he : d.expandLines (d.includeFile (fileStackLimit - 1)) 1 s raws = e)
    (hending : e.ending = .going)
    (h : d.isIncludeLine e.parsers (openLine lineFeed file.text) = false) :
    d.expandPrimary file raws s = (e.andThen [] fun _ => { d.expandEnd
      (d.includeFile (fileStackLimit - 1)) 1 file e.parsers with lines := [] },
      openLine lineFeed file.text) := by
  unfold expandPrimary
  simp only [he, hending, h, if_true, Bool.false_eq_true, if_false]

theorem expandEnd_of_not_isIncludeLine {file : DumpFile} (hbreaks : file.breaks = false)
    (hlast : openLine lineFeed text = openLine lineFeed file.text)
    (h : d.isIncludeLine s (openLine lineFeed file.text) = false)
    (includeFile' : Bool → σ → ByteString → Expansion σ) :
    (d.alone fileName text).expandEnd includeFile' stackSize ⟨text, false⟩ s =
      d.expandEnd includeFile stackSize file s := by
  unfold expandEnd
  simp only [hbreaks, hlast, Bool.false_eq_true, if_false]
  split_ifs
  · rfl
  · rw [expandLine_of_not_isIncludeLine h includeFile']
    rfl

theorem ended_of_expandEnd {file : DumpFile}
    (h : d.isIncludeLine s (openLine lineFeed file.text) = false)
    (hended : (d.expandEnd includeFile stackSize file s).ending = .ended stackSize' terminated') :
    stackSize' = stackSize ∧ terminated' = false := by
  unfold expandEnd at hended
  split_ifs at hended
  · simp [Expansion.refusal] at hended
  · simp [Expansion.empty] at hended
  · exact ended_of_not_isIncludeLine h hended

variable (fileName) in
/-- **The single text comes to the same.** -/
theorem expandPrimary_singleText {file : DumpFile} (hraws : ∀ raw ∈ raws, lineFeed ∉ raw) (s : σ)
    {last : ByteString} (he : d.expandPrimary file raws s = (e, last))
    (hlast : openLine lineFeed text = last) (hrefused : e.ending ≠ .refused)
    (hcut : e.cutOff = false) :
    ∃ e', ((d.alone fileName text).expandPrimary ⟨text, false⟩ e.lines s).1 = e' ∧
      e'.handed = e.handed ∧ e'.cutOff = false ∧ d.verdict e' = d.textVerdict e := by
  have hinclude := flattens_includeFile (d := d) fileName text (fileStackLimit - 1) (by decide)
  have hlines := flattens_expandLines 1 hinclude hraws s
  generalize he₀ : d.expandLines _ _ _ _ = e₀ at hlines
  by_cases hending : e₀.ending = .going
  · cases hisInclude : d.isIncludeLine e₀.parsers (openLine lineFeed file.text) with
    | true =>
      -- What is named at the end of the primary file is in the lines.
      have hflattens := hlines.andThen
        (fun _ => d.expandEnd (d.includeFile (fileStackLimit - 1)) 1 file e₀.parsers)
        (List.forall_mem_nil _) fun _ => flattens_primaryEnd hinclude hisInclude
      unfold expandPrimary at he
      simp only [he₀, hending, hisInclude, if_true] at he
      obtain ⟨rfl, rfl⟩ := Prod.mk.inj he
      rw [expandPrimary_of_openLine_eq_nil rfl hlast, hflattens.expand hrefused]
      exact ⟨_, rfl, rfl, rfl, hflattens.verdict_flat⟩
    | false =>
      rw [expandPrimary_of_not_isIncludeLine he₀ hending hisInclude] at he
      obtain ⟨rfl, rfl⟩ := Prod.mk.inj he
      rw [Expansion.andThen_of_going hending] at hrefused hcut ⊢
      have hbreaks : file.breaks = false := by
        cases hbreaks : file.breaks with
        | false => rfl
        | true =>
          refine absurd ?_ hrefused
          dsimp only
          rw [expandEnd, if_pos hbreaks, Expansion.refusal]
      obtain ⟨hcut₀, hcut'⟩ := Bool.or_eq_false_iff.mp hcut
      have hflat : e₀.flat = e₀ := by
        cases e₀
        simp_all [Expansion.flat, Ending.flat]
      have hexpand := hlines.expand (by simp [hending])
      rw [hflat] at hexpand
      rw [List.append_nil, expandPrimary_of_not_isIncludeLine hexpand hending
        (by rw [hlast]; exact hisInclude), expandEnd_of_not_isIncludeLine hbreaks hlast hisInclude,
        Expansion.andThen_of_going hending]
      refine ⟨_, rfl, rfl, hcut, ?_⟩
      unfold verdict textVerdict
      dsimp only
      split
      · rename_i stackSize terminated hended
        obtain ⟨rfl, rfl⟩ := ended_of_expandEnd hisInclude hended
        simp
      · rfl
  · unfold expandPrimary at he
    simp only [he₀, if_neg hending] at he
    obtain ⟨rfl, rfl⟩ := Prod.mk.inj he
    have hflat : e₀.flat.ending ≠ .going := fun h => hending (Ending.flat_eq_going.mp h)
    unfold expandPrimary
    simp only [hlines.expand hrefused, if_neg hflat]
    exact ⟨_, rfl, rfl, rfl, hlines.verdict_flat⟩

theorem expandVersion_singleText (file : DumpFile) (s : σ) (hrefused :
      (d.expandVersion file s).1.ending ≠ .refused) (hcut : (d.expandVersion file s).1.cutOff = false)
    (htext : text = joinLines lineFeed (d.expandVersion file s).1.lines ++
      (d.expandVersion file s).2) :
    ∃ e, ((d.alone fileName text).expandVersion ⟨text, false⟩ s).1 = e ∧
      e.handed = (d.expandVersion file s).1.handed ∧ e.cutOff = false ∧
      d.verdict e = d.textVerdict (d.expandVersion file s).1 := by
  have hopen := notMem_openLine lineFeed file.text
  generalize hdump : d.expandVersion file s = dump at *
  unfold expandVersion at hdump ⊢
  cases hended : endedLines lineFeed file.text with
  | nil =>
    simp only [hended] at hdump
    subst hdump
    have htext' : text = openLine lineFeed file.text := htext
    simp only [htext', endedLines_of_notMem hopen]
    exact ⟨_, rfl, rfl, rfl, rfl⟩
  | cons first raws =>
    have hraws : ∀ line ∈ first :: raws, lineFeed ∉ line := fun line hline =>
      notMem_of_mem_endedLines (hended ▸ hline)
    simp only [hended] at hdump
    split_ifs at hdump with hversion
    · subst hdump
      simp only [htext, endedLines_eq hraws hopen, if_pos hversion]
      exact ⟨_, rfl, rfl, rfl, rfl⟩
    · subst hdump
      obtain ⟨hfirst, hraws⟩ := List.forall_mem_cons.mp hraws
      obtain ⟨hlines, hlast⟩ := lines_expandPrimary (d := d) file hraws s
      have hlines : ∀ line ∈ first :: (d.expandPrimary file raws s).1.lines, lineFeed ∉ line :=
        List.forall_mem_cons.mpr ⟨hfirst, hlines⟩
      have hended : endedLines lineFeed text = _ := htext ▸ endedLines_eq hlines hlast
      obtain ⟨e, he, hhanded, hcut', hverdict⟩ := expandPrimary_singleText (d := d) fileName
        hraws s rfl (htext ▸ openLine_eq _ hlast) hrefused hcut
      subst he
      simp only [hended, if_neg hversion]
      exact ⟨_, rfl, hhanded, hcut', hverdict⟩

/-- **The single text of a dump comes to the same.** -/
theorem expandDump_singleText (fileName : ByteString) (s : σ)
    (hrefused : (d.expandDump fileName s).1.ending ≠ .refused)
    (hcut : (d.expandDump fileName s).1.cutOff = false) :
    ∃ e, ((d.alone fileName (d.singleText fileName s)).expandDump fileName s).1 = e ∧
      e.handed = (d.expandDump fileName s).1.handed ∧ e.cutOff = false ∧
      d.verdict e = d.textVerdict (d.expandDump fileName s).1 := by
  generalize htext : d.singleText fileName s = text
  unfold singleText at htext
  unfold expandDump at *
  by_cases hname : fileName = [] ∨ d.baseFilePath = []
  · rw [if_pos hname] at hrefused
    exact absurd rfl hrefused
  have halone : ¬(fileName = [] ∨ (d.alone fileName text).baseFilePath = []) := hname
  rw [if_neg hname] at hrefused hcut htext ⊢
  rw [if_neg halone]
  cases hfile : d.files fileName with
  | none =>
    simp only [hfile] at hrefused
    exact absurd rfl hrefused
  | some file =>
    simp only [hfile] at hrefused hcut htext ⊢
    have halone : (d.alone fileName text).files fileName = some ⟨text, false⟩ := if_pos rfl
    simp only [halone]
    exact expandVersion_singleText file s hrefused hcut htext.symm

end SingleText

/-! ### The result -/

/-- The result is the same, if it is so that the dump ends where it may. -/
theorem verdict_eq_textVerdict_iff (e : Expansion σ) : d.verdict e = d.textVerdict e ↔
    ∀ stackSize terminated, e.ending = .ended stackSize terminated →
      stackSize = 1 ∨ (stackSize = 2 ∧ terminated = false) ∨ d.closed e.parsers = false := by
  unfold verdict textVerdict
  cases e.ending with
  | ended stackSize terminated =>
    cases d.closed e.parsers <;> cases terminated <;> simp <;> grind
  | _ => simp

theorem reaches_of_isOver {r₀ : DumpFileReader σ} (h : d.Reaches r₀ r) (h' : d.Reaches r₀ r')
    (hr' : r'.isOver = true) : d.Reaches r r' := by
  obtain ⟨m, rfl⟩ := h
  obtain ⟨n, rfl⟩ := h'
  rcases Nat.le_total m n with hle | hle
  · refine ⟨n - m, ?_⟩
    rw [← Function.iterate_add_apply, Nat.sub_add_cancel hle]
  · rw [← Nat.sub_add_cancel hle, Function.iterate_add_apply, iterate_of_isOver hr']
    exact .refl _

/-- `parse` returns for the single text, what is read in it, and the result. -/
theorem exists_parses_singleText (fileName : ByteString) (s : σ)
    (hrefused : (d.expandDump fileName s).1.ending ≠ .refused)
    (hcut : (d.expandDump fileName s).1.cutOff = false) :
    ∃ r, (d.alone fileName (d.singleText fileName s)).Parses fileName s r ∧
      (d.conclude r).1 = d.textVerdict (d.expandDump fileName s).1 ∧
      r.handed = (d.expandDump fileName s).1.handed := by
  obtain ⟨e, he, hhanded, hcut', hverdict⟩ := expandDump_singleText fileName s hrefused hcut
  obtain ⟨r, hreaches, hread⟩ := reaches_dump (d.alone fileName (d.singleText fileName s)) fileName s
  rw [he] at hread
  cases hread with
  | cutOff hcut'' => simp [hcut'] at hcut''
  | whole _ hover hhanded' _ hresult =>
    exact ⟨r, ⟨hreaches, hover⟩, hresult.trans hverdict, hhanded'.trans hhanded⟩

/-- **A dump is read as the single text exactly if it is tidy.** -/
theorem exists_transparent_iff (d : DumpSetting σ) (fileName : ByteString) (s : σ) :
    (∃ r, d.Transparent fileName s r) ↔ d.Tidy fileName s := by
  obtain ⟨r', hreaches, hread⟩ := reaches_dump d fileName s
  cases hread with
  | cutOff hcut hunread =>
    refine ⟨fun ⟨r, h⟩ => ?_, fun h => ?_⟩
    · have hr : r.unread = true :=
        unread_of_reaches (reaches_of_isOver hreaches h.parses.reaches h.parses.isOver) hunread
      simp [h.read] at hr
    · simp [h.whole] at hcut
  | whole hcut hover hhanded hunread hresult =>
    constructor
    · intro ⟨r, h⟩
      refine ⟨hcut, fun stackSize terminated hended => ?_⟩
      have hrefused : (d.expandDump fileName s).1.ending ≠ .refused := by simp [hended]
      obtain rfl := Parses.unique h.parses ⟨hreaches, hover⟩
      obtain ⟨r₁, hparses₁, hsame, -⟩ := h.same hrefused
      obtain ⟨r₂, hparses₂, hresult₂, -⟩ := exists_parses_singleText fileName s hrefused hcut
      obtain rfl := Parses.unique hparses₁ hparses₂
      exact (verdict_eq_textVerdict_iff _).mp (hresult.symm.trans (hsame.trans hresult₂)) _ _ hended
    · intro h
      refine ⟨r', ⟨hreaches, hover⟩, fun hrefused => ?_, fun hrefused => ?_, hunread⟩
      · rw [hresult, verdict, hrefused]
      · obtain ⟨r, hparses, hresult', hhanded'⟩ := exists_parses_singleText fileName s hrefused hcut
        refine ⟨r, hparses, ?_, hhanded.trans hhanded'.symm⟩
        have hverdict := (verdict_eq_textVerdict_iff _).mpr h.ends
        rw [hresult, hverdict]
        exact hresult'.symm

/-- Three files: the second is named by the first, and names the third in its last line, which no
newline ends.  The parsers take every line. -/
def threeFiles : DumpSetting Unit where
  inDocument := fun _ => false
  parse := fun s _ => (s, none)
  closed := fun _ => true
  baseFilePath := ascii "data"
  files := fun fileName =>
    if fileName = ascii "data/a" then some ⟨joinLines lineFeed
      [versionLine, ascii "@@INCLUDE b", endLine], false⟩
    else if fileName = ascii "data/b" then some ⟨ascii "mksite one" ++ lineFeed ::
      ascii "@@INCLUDE c", false⟩
    else if fileName = ascii "data/c" then some ⟨joinLines lineFeed [ascii "mksite two"], false⟩
    else none

/-- The third file is not read, and `parse` says nothing of it. -/
theorem includeAtEnd_not_transparent :
    (∃ r, threeFiles.Parses (ascii "data/a") () r ∧ (threeFiles.conclude r).1 = true ∧
      r.handed = [ascii "mksite one"]) ∧
    threeFiles.singleText (ascii "data/a") () = joinLines lineFeed
      [versionLine, ascii "mksite one", ascii "mksite two", endLine] ∧
    ¬∃ r, threeFiles.Transparent (ascii "data/a") () r := by
  have hparses : threeFiles.Parses (ascii "data/a") ()
      (threeFiles.iteration^[5] (threeFiles.start (ascii "data/a") ())) :=
    ⟨⟨5, rfl⟩, by decide +kernel⟩
  refine ⟨⟨_, hparses, by decide +kernel, by decide +kernel⟩, by decide +kernel, fun ⟨r, h⟩ => ?_⟩
  obtain rfl := Parses.unique h.parses hparses
  exact absurd h.read (by decide +kernel)

end DumpSetting

end Mutgos.DbDump
