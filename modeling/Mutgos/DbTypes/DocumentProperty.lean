import Mutgos.Text.ByteString

/-!
# Documents

`dbtype::DocumentProperty`: a list of lines, with a limit on how many there may be
and one on how long each of them is.  As one string, a document is its lines with a
newline after each.  Reading that string again goes by tokens, and a line with
nothing in it is none.

## Main results

* `setFromString_getAsString` — what comes back: the lines that are not empty.
-/

namespace Mutgos.DbTypes

open Text

/-- The limits of `config::db` on what a user can enter. -/
structure DbLimits where
  limitsStringSize : ℕ
  limitsEntityName : ℕ
  limitsPropertyDocumentLines : ℕ
  limitsProgramLines : ℕ

/-- `MG_NewLine` -/
def newLine : UInt8 := 10

structure DocumentProperty where
  documentData : List ByteString
  maxLines : ℕ
  deriving DecidableEq

namespace DocumentProperty

variable (limits : DbLimits)

/-- The constructor of an empty document. -/
def new : DocumentProperty where
  documentData := []
  maxLines := limits.limitsPropertyDocumentLines

def setMaxLines (d : DocumentProperty) (max : ℕ) : DocumentProperty :=
  if 0 < max then { d with maxLines := max } else d

theorem documentData_setMaxLines (d : DocumentProperty) (max : ℕ) :
    (d.setMaxLines max).documentData = d.documentData := by
  unfold setMaxLines
  split <;> rfl

/-- `is_full`: a document of exactly the maximum is not. -/
def isFull (d : DocumentProperty) : Bool := d.maxLines < d.documentData.length

def appendLine (d : DocumentProperty) (data : ByteString) : Bool × DocumentProperty :=
  if d.isFull then (false, d)
  else if limits.limitsStringSize < utf8Size data then (false, d)
  else (true, { d with documentData := d.documentData ++ [data] })

def clear (d : DocumentProperty) : DocumentProperty := { d with documentData := [] }

/-- The loop that appends one line after the other, up to the first one that cannot
be. -/
def appendLines (d : DocumentProperty) : List ByteString → Bool × DocumentProperty
  | [] => (true, d)
  | data :: rest =>
    match d.appendLine limits data with
    | (true, d) => d.appendLines rest
    | (false, d) => (false, d)

def getAsString (d : DocumentProperty) : ByteString :=
  d.documentData.flatMap fun line => line ++ [newLine]

def setFromString (d : DocumentProperty) (str : ByteString) : Bool × DocumentProperty :=
  match d.clear.appendLines limits (tokens newLine str) with
  | (true, d) => (true, d)
  | (false, d) => (false, d.clear)

variable {limits}

/-- A line that is appended is the last one. -/
theorem documentData_appendLine {d next : DocumentProperty} {data : ByteString}
    (h : d.appendLine limits data = (true, next)) :
    next.documentData = d.documentData ++ [data] := by
  unfold appendLine at h
  split at h
  · cases h
  · split at h
    · cases h
    · obtain rfl := (Prod.mk.inj h).2
      rfl

theorem documentData_appendLines {d last : DocumentProperty} {rest : List ByteString}
    (h : d.appendLines limits rest = (true, last)) :
    last.documentData = d.documentData ++ rest := by
  induction rest generalizing d with
  | nil =>
    obtain rfl := (Prod.mk.inj h).2
    exact (List.append_nil _).symm
  | cons line rest ih =>
    rw [appendLines] at h
    rcases happend : d.appendLine limits line with ⟨_ | _, next⟩
    · rw [happend] at h
      cases h
    · rw [happend] at h
      rw [ih h, documentData_appendLine happend, List.append_assoc, List.singleton_append]

/-! ### Lines that are within the limits -/

theorem appendLines_eq {d : DocumentProperty} {rest : List ByteString}
    (hsize : ∀ line ∈ rest, utf8Size line ≤ limits.limitsStringSize)
    (hlines : d.documentData.length + rest.length ≤ d.maxLines + 1) :
    d.appendLines limits rest = (true, { d with documentData := d.documentData ++ rest }) := by
  induction rest generalizing d with
  | nil => simp [appendLines]
  | cons line rest ih =>
    obtain ⟨hline, hrest⟩ := List.forall_mem_cons.mp hsize
    rw [List.length_cons] at hlines
    have hfull : d.isFull = false := by
      simp only [isFull, decide_eq_false_iff_not]
      omega
    have happend : d.appendLine limits line =
        (true, { d with documentData := d.documentData ++ [line] }) := by
      rw [appendLine, if_neg (by simp [hfull]), if_neg (by omega)]
    have hlen : (d.documentData ++ [line]).length + rest.length ≤ d.maxLines + 1 := by
      rw [List.length_append, List.length_singleton]
      omega
    rw [appendLines, happend]
    simpa using ih (d := { d with documentData := d.documentData ++ [line] }) hrest hlen

/-- **What comes back from one string**: the lines with something in them. -/
theorem setFromString_getAsString {d source : DocumentProperty}
    (hnewline : ∀ line ∈ source.documentData, newLine ∉ line)
    (hsize : ∀ line ∈ source.documentData, utf8Size line ≤ limits.limitsStringSize)
    (hlines : source.documentData.length ≤ d.maxLines) :
    d.setFromString limits source.getAsString =
      (true, { d with documentData := source.documentData.filter (· ≠ []) }) := by
  have happend : d.clear.appendLines limits (source.documentData.filter (· ≠ [])) =
      (true, { d with documentData := source.documentData.filter (· ≠ []) }) := by
    rw [appendLines_eq]
    · simp [clear]
    · intro line hline
      exact hsize line (List.mem_of_mem_filter hline)
    · have hfilter := List.length_filter_le (· ≠ []) source.documentData
      simp only [clear, List.length_nil, Nat.zero_add]
      exact Nat.le_succ_of_le (Nat.le_trans hfilter hlines)
  rw [setFromString, getAsString, tokens_flatMap hnewline, happend]

end DocumentProperty

end Mutgos.DbTypes
