import Mathlib.Data.List.Basic

/-!
# Lines

A stream is cut at each newline.  What comes before a newline is a line that has been ended; what
comes after the last one is yet to be ended.

## Main results

* `endedLines_append`, `openLine_append` — **more of a stream continues the line that is open.**
-/

namespace Mutgos

open List

variable {α : Type*} [BEq α] [LawfulBEq α] {newline : α} {s t : List α} {lines : List (List α)}

/-- The lines that have been ended. -/
def endedLines (newline : α) (s : List α) : List (List α) := (s.splitOn newline).dropLast

/-- What comes after the last newline. -/
def openLine (newline : α) (s : List α) : List α :=
  (s.splitOn newline).getLast (splitOn_ne_nil newline s)

/-- Lines, with what ends them. -/
def joinLines (newline : α) (lines : List (List α)) : List α :=
  lines.flatMap fun line => line ++ [newline]

omit [BEq α] [LawfulBEq α] in
@[simp] theorem joinLines_nil : joinLines newline [] = [] := rfl

omit [BEq α] [LawfulBEq α] in
@[simp] theorem joinLines_cons (line : List α) (lines : List (List α)) :
    joinLines newline (line :: lines) = line ++ newline :: joinLines newline lines := by
  simp [joinLines]

omit [BEq α] [LawfulBEq α] in
@[simp] theorem joinLines_append (lines lines' : List (List α)) :
    joinLines newline (lines ++ lines') = joinLines newline lines ++ joinLines newline lines' := by
  simp [joinLines]

/-! ### Without a newline, and up to one -/

theorem endedLines_of_notMem (h : newline ∉ s) : endedLines newline s = [] := by
  rw [endedLines, splitOn_eq_singleton h]
  rfl

theorem openLine_of_notMem (h : newline ∉ s) : openLine newline s = s := by
  simp only [openLine, splitOn_eq_singleton h]
  rfl

@[simp] theorem endedLines_nil : endedLines newline [] = [] := endedLines_of_notMem not_mem_nil

@[simp] theorem openLine_nil : openLine newline [] = [] := openLine_of_notMem not_mem_nil

theorem endedLines_append_cons (h : newline ∉ s) (t : List α) :
    endedLines newline (s ++ newline :: t) = s :: endedLines newline t := by
  rw [endedLines, splitOn_append_cons_self, splitOn_eq_singleton h,
    singleton_append, dropLast_cons_of_ne_nil (splitOn_ne_nil newline t)]
  rfl

theorem openLine_append_cons (s t : List α) :
    openLine newline (s ++ newline :: t) = openLine newline t := by
  simp only [openLine, splitOn_append_cons_self]
  exact getLast_append_of_ne_nil _ (splitOn_ne_nil newline t)

/-! ### The lines of a stream -/

theorem endedLines_eq (hlines : ∀ line ∈ lines, newline ∉ line) (h : newline ∉ t) :
    endedLines newline (joinLines newline lines ++ t) = lines := by
  induction lines with
  | nil => exact endedLines_of_notMem h
  | cons line lines ih =>
    rw [joinLines_cons, append_assoc, cons_append,
      endedLines_append_cons (hlines line mem_cons_self),
      ih fun line' hline' => hlines line' (mem_cons_of_mem line hline')]

theorem openLine_eq (lines : List (List α)) (h : newline ∉ t) :
    openLine newline (joinLines newline lines ++ t) = t := by
  induction lines with
  | nil => exact openLine_of_notMem h
  | cons line lines ih =>
    rw [joinLines_cons, append_assoc, cons_append, openLine_append_cons, ih]

/-- A stream can be cut into lines. -/
theorem exists_lines (newline : α) (s : List α) :
    ∃ lines t, s = joinLines newline lines ++ t ∧ (∀ line ∈ lines, newline ∉ line) ∧
      newline ∉ t := by
  induction s with
  | nil => exact ⟨[], [], rfl, nofun, not_mem_nil⟩
  | cons c s ih =>
    obtain ⟨lines, t, rfl, hlines, ht⟩ := ih
    by_cases hc : c = newline
    · subst hc
      refine ⟨[] :: lines, t, rfl, ?_, ht⟩
      exact forall_mem_cons.mpr ⟨not_mem_nil, hlines⟩
    · cases lines with
      | nil => exact ⟨[], c :: t, rfl, nofun, not_mem_cons_of_ne_of_not_mem (Ne.symm hc) ht⟩
      | cons line lines =>
        obtain ⟨hline, hlines⟩ := forall_mem_cons.mp hlines
        refine ⟨(c :: line) :: lines, t, rfl, ?_, ht⟩
        exact forall_mem_cons.mpr
          ⟨not_mem_cons_of_ne_of_not_mem (Ne.symm hc) hline, hlines⟩

theorem notMem_openLine (newline : α) (s : List α) : newline ∉ openLine newline s := by
  obtain ⟨lines, t, rfl, -, ht⟩ := exists_lines newline s
  rw [openLine_eq lines ht]
  exact ht

theorem notMem_of_mem_endedLines {line : List α} (h : line ∈ endedLines newline s) :
    newline ∉ line := by
  obtain ⟨lines, t, rfl, hlines, ht⟩ := exists_lines newline s
  rw [endedLines_eq hlines ht] at h
  exact hlines line h

/-- A stream is its lines and what comes after them. -/
theorem endedLines_openLine (newline : α) (s : List α) :
    joinLines newline (endedLines newline s) ++ openLine newline s = s := by
  obtain ⟨lines, t, rfl, hlines, ht⟩ := exists_lines newline s
  rw [endedLines_eq hlines ht, openLine_eq lines ht]

/-- A line may be ended further on. -/
theorem endedLines_joinLines_append (hlines : ∀ line ∈ lines, newline ∉ line) (t : List α) :
    endedLines newline (joinLines newline lines ++ t) = lines ++ endedLines newline t := by
  conv_lhs => rw [← endedLines_openLine newline t, ← append_assoc, ← joinLines_append]
  refine endedLines_eq (fun line hline => ?_) (notMem_openLine newline t)
  rcases mem_append.mp hline with hline | hline
  · exact hlines line hline
  · exact notMem_of_mem_endedLines hline

variable (newline) in
theorem openLine_joinLines_append (lines : List (List α)) (t : List α) :
    openLine newline (joinLines newline lines ++ t) = openLine newline t := by
  conv_lhs => rw [← endedLines_openLine newline t, ← append_assoc, ← joinLines_append]
  exact openLine_eq _ (notMem_openLine newline t)

variable (newline) in
/-- **More of a stream continues the line that is open.** -/
theorem endedLines_append (s t : List α) : endedLines newline (s ++ t) =
    endedLines newline s ++ endedLines newline (openLine newline s ++ t) := by
  conv_lhs => rw [← endedLines_openLine newline s, append_assoc]
  exact endedLines_joinLines_append (fun _ => notMem_of_mem_endedLines) _

variable (newline) in
theorem openLine_append (s t : List α) :
    openLine newline (s ++ t) = openLine newline (openLine newline s ++ t) := by
  conv_lhs => rw [← endedLines_openLine newline s, append_assoc]
  exact openLine_joinLines_append newline _ _

end Mutgos
