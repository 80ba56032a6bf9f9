import Mutgos.DbTypes.SetProperty
import Mutgos.Text.Utf8Validity

/-!
# The limits on documents and sets

A document and a set are full only when there is more in them than the limit allows, so
each of them takes one line or item too many.  The limit on the length of a line is
compared with a size that is 0 for what is no text at all, so that there is none on the
length of that.

## Main results

* `limitsKept_iff` — **when the limits are kept.**
-/

namespace Mutgos.DbTypes

open Text ComparatorSet PropertyData

/-! ### Documents -/

namespace DocumentProperty

variable (limits : DbLimits) (d : DocumentProperty)

/-- `get_number_lines`, which is of 32 bits -/
def getNumberLines : ℕ := d.documentData.length % 2 ^ 32

def insertLine (data : ByteString) (line : ℕ) : Bool × DocumentProperty :=
  if d.isFull then (false, d)
  else if limits.limitsStringSize < utf8Size data then (false, d)
  else if d.getNumberLines ≤ line then
    (true, { d with documentData := d.documentData ++ [data] })
  else (true, { d with documentData := d.documentData.insertIdx line data })

def deleteLine (line : ℕ) : Bool × DocumentProperty :=
  if d.getNumberLines ≤ line then (false, d)
  else (true, { d with documentData := d.documentData.eraseIdx line })

/-- `set` of a vector -/
def setLines (data : List ByteString) : Bool × DocumentProperty :=
  match d.clear.appendLines limits data with
  | (true, d) => (true, d)
  | (false, d) => (false, d.clear)

end DocumentProperty

/-- What is done with a document. -/
inductive DocumentOp
  | appendLine (data : ByteString)
  | insertLine (data : ByteString) (line : ℕ)
  | deleteLine (line : ℕ)
  | setFromString (str : ByteString)
  | setLines (data : List ByteString)

namespace DocumentOp

variable (limits : DbLimits)

/-- The document afterwards. -/
def apply (d : DocumentProperty) : DocumentOp → DocumentProperty
  | appendLine data => (d.appendLine limits data).2
  | insertLine data line => (d.insertLine limits data line).2
  | deleteLine line => (d.deleteLine line).2
  | setFromString str => (d.setFromString limits str).2
  | setLines data => (d.setLines limits data).2

/-- The lines are not one more than there may be, or one of them is too long. -/
def LinesFit (d : DocumentProperty) (lines : List ByteString) : Prop :=
  lines.length = d.maxLines + 1 → ∃ line ∈ lines, limits.limitsStringSize < utf8Size line

/-- No line is added to a document that has as many as it may have. -/
def Fits (d : DocumentProperty) : DocumentOp → Prop
  | appendLine data | insertLine data _ =>
    d.documentData.length = d.maxLines → limits.limitsStringSize < utf8Size data
  | deleteLine _ => True
  | setFromString str => LinesFit limits d (tokens newLine str)
  | setLines data => LinesFit limits d data

end DocumentOp

/-- There are no more lines than there may be. -/
def DocumentProperty.Within (d : DocumentProperty) : Prop := d.documentData.length ≤ d.maxLines

instance (d : DocumentProperty) : Decidable d.Within :=
  inferInstanceAs (Decidable (d.documentData.length ≤ d.maxLines))

section Documents

variable {limits : DbLimits} {d : DocumentProperty}

namespace DocumentProperty

theorem isFull_of_within (h : d.Within) : d.isFull = false := by
  rw [isFull, decide_eq_false_iff_not, Nat.not_lt]
  exact h

theorem maxLines_appendLine (d : DocumentProperty) (data : ByteString) :
    (d.appendLine limits data).2.maxLines = d.maxLines := by
  unfold appendLine
  split_ifs <;> rfl

theorem maxLines_appendLines (d : DocumentProperty) (lines : List ByteString) :
    (d.appendLines limits lines).2.maxLines = d.maxLines := by
  induction lines generalizing d with
  | nil => rfl
  | cons line lines ih =>
    have hmax := @maxLines_appendLine limits d line
    rw [appendLines]
    rcases happend : d.appendLine limits line with ⟨_ | _, next⟩
    · rwa [happend] at hmax
    · rw [happend] at hmax
      exact (ih next).trans hmax

/-- **When lines are appended**: if none is too long, and they are not more than one beyond
the maximum. -/
theorem appendLines_fst (lines : List ByteString) :
    (d.appendLines limits lines).1 = true ↔
      (∀ line ∈ lines, utf8Size line ≤ limits.limitsStringSize) ∧
        (lines = [] ∨ d.documentData.length + lines.length ≤ d.maxLines + 1) := by
  induction lines generalizing d with
  | nil => simp [appendLines]
  | cons line lines ih =>
    rw [appendLines, List.forall_mem_cons]
    by_cases hfull : d.maxLines < d.documentData.length
    · have happend : d.appendLine limits line = (false, d) := by
        rw [appendLine, if_pos (by simpa [isFull] using hfull)]
      simp only [happend, List.length_cons, Bool.false_eq_true, reduceCtorEq, false_or, false_iff]
      omega
    · by_cases hlong : limits.limitsStringSize < utf8Size line
      · have happend : d.appendLine limits line = (false, d) := by
          rw [appendLine, if_neg (by simpa [isFull] using hfull), if_pos hlong]
        simp only [happend, Bool.false_eq_true, false_iff]
        omega
      · have happend : d.appendLine limits line =
            (true, { d with documentData := d.documentData ++ [line] }) := by
          rw [appendLine, if_neg (by simpa [isFull] using hfull), if_neg hlong]
        simp only [happend, ih, List.length_append, List.length_cons, List.length_nil,
          reduceCtorEq, false_or]
        have hline : utf8Size line ≤ limits.limitsStringSize := Nat.not_lt.mp hlong
        cases lines with
        | nil =>
          simp [hline]
          omega
        | cons next lines =>
          simp only [reduceCtorEq, false_or, List.length_cons, hline, true_and, and_congr_right_iff]
          intro _
          omega

theorem setLines_within_iff (lines : List ByteString) :
    (d.setLines limits lines).2.Within ↔ DocumentOp.LinesFit limits d lines := by
  have hfst := @appendLines_fst limits d.clear lines
  have hmax := @maxLines_appendLines limits d.clear lines
  rw [setLines]
  rcases happend : d.clear.appendLines limits lines with ⟨_ | _, last⟩
  · -- Nothing is left of them.
    rw [happend] at hfst
    refine iff_of_true (Nat.zero_le _) ?_
    intro hlength
    by_contra hnone
    simp only [not_exists, not_and, Nat.not_lt] at hnone
    exact absurd (hfst.mpr ⟨hnone, .inr (by simp [clear, hlength])⟩) (by simp)
  · have hdata := documentData_appendLines happend
    rw [happend] at hfst hmax
    obtain ⟨hsizes, hroom⟩ := hfst.mp rfl
    have hlines : last.documentData.length = lines.length := by
      rw [hdata]
      simp [clear]
    have hmax' : last.maxLines = d.maxLines := hmax
    simp only [Within, hlines, hmax', DocumentOp.LinesFit]
    have hnot : ¬ ∃ line ∈ lines, limits.limitsStringSize < utf8Size line := by
      rintro ⟨line, hline, hlong⟩
      exact absurd (hsizes line hline) (Nat.not_le.mpr hlong)
    simp only [hnot, imp_false]
    obtain rfl | hroom := hroom
    · simp
    · simp only [clear, List.length_nil] at hroom
      omega

/-- A line that is added is one more. -/
theorem addLine_within_iff (h : d.Within) {data : ByteString} (lines : List ByteString)
    (hlines : lines.length = d.documentData.length + 1) :
    (if limits.limitsStringSize < utf8Size data then d
      else { d with documentData := lines } : DocumentProperty).Within ↔
      (d.documentData.length = d.maxLines → limits.limitsStringSize < utf8Size data) := by
  unfold Within at h ⊢
  split_ifs with hlong
  · exact iff_of_true h fun _ => hlong
  · simp only [hlines, hlong, imp_false]
    omega

end DocumentProperty

/-- **What one operation does**: the document stays within its maximum exactly if no line is
added to one that has as many. -/
theorem DocumentOp.within_iff (h : d.Within) (op : DocumentOp) :
    (op.apply limits d).Within ↔ op.Fits limits d := by
  have hfull := DocumentProperty.isFull_of_within h
  cases op with
  | appendLine data =>
    refine Iff.trans ?_ (DocumentProperty.addLine_within_iff h
      (d.documentData ++ [data]) (by simp))
    rw [apply, DocumentProperty.appendLine, hfull]
    split_ifs <;> first | rfl | contradiction
  | insertLine data line =>
    by_cases hline : d.getNumberLines ≤ line
    · refine Iff.trans ?_ (DocumentProperty.addLine_within_iff h
        (d.documentData ++ [data]) (by simp))
      rw [apply, DocumentProperty.insertLine, hfull]
      split_ifs <;> first | rfl | contradiction
    · refine Iff.trans ?_ (DocumentProperty.addLine_within_iff h
        (d.documentData.insertIdx line data) ?_)
      · rw [apply, DocumentProperty.insertLine, hfull]
        split_ifs <;> first | rfl | contradiction
      · have hmod := Nat.mod_le d.documentData.length (2 ^ 32)
        rw [DocumentProperty.getNumberLines] at hline
        exact List.length_insertIdx_of_le_length (by omega) data
  | deleteLine line =>
    refine iff_of_true ?_ trivial
    have herase := List.length_eraseIdx_le d.documentData line
    unfold DocumentProperty.Within at h ⊢
    rw [apply, DocumentProperty.deleteLine]
    split_ifs
    · exact h
    · exact Nat.le_trans herase h
  | setFromString str => exact DocumentProperty.setLines_within_iff _
  | setLines data => exact DocumentProperty.setLines_within_iff data

end Documents

/-! ### Sets -/

/-- There are no more items than there may be. -/
def SetWithin (limitsPropertySetItems : ℕ) (s : PropertyData) : Prop :=
  s.items.length ≤ limitsPropertySetItems

instance (limit : ℕ) (s : PropertyData) : Decidable (SetWithin limit s) :=
  inferInstanceAs (Decidable (s.items.length ≤ limit))

/-- No item of its type is added to a set that has as many as it may have, unless it is found
there. -/
def SetOp.HasRoom (limitsPropertySetItems : ℕ) : PropertyData → SetOp → Prop
  | .set type items, add item =>
    items.length = limitsPropertySetItems → (∀ t, type = some t → t = item.dataType) →
      (find lt item.clone items).isSome = true
  | _, _ => True

/-- **What one operation does**: the set stays within the limit exactly if no new item is added
to one that has as many. -/
theorem SetOp.within_iff {limit : ℕ} {s : PropertyData} (h : SetWithin limit s) (op : SetOp) :
    SetWithin limit (op.apply limit s).2 ↔ op.HasRoom limit s := by
  cases s with
  | set type items =>
    have hitems : items.length ≤ limit := h
    cases op with
    | add item =>
      -- The number of items, where they are of the type of this one.
      have hinsert : (insertItem item.clone items).length ≤ limit ↔
          (items.length = limit → (find lt item.clone items).isSome = true) := by
        rw [insertItem_eq, length_insert]
        split_ifs with hfound
        · exact iff_of_true hitems fun _ => hfound
        · simp only [hfound, Bool.false_eq_true, imp_false]
          omega
      rw [HasRoom]
      cases type with
      | none => simpa [SetWithin, PropertyData.items, SetOp.apply, PropertyData.add] using hinsert
      | some type =>
        rw [SetOp.apply, PropertyData.add, if_neg (show ¬ limit < items.length by omega)]
        by_cases htype : type = item.dataType
        · rw [if_neg (not_not.mpr htype)]
          simpa [SetWithin, PropertyData.items, htype] using hinsert
        · rw [if_pos htype]
          refine iff_of_true h ?_
          intro _ hsame
          exact absurd (hsame type rfl) htype
    | remove item =>
      refine iff_of_true ?_ trivial
      have herase : (erase lt item items).length ≤ items.length :=
        (erase_sublist item items).length_le
      unfold SetWithin at h ⊢
      rw [SetOp.apply, PropertyData.remove]
      split_ifs
      · exact h
      · exact Nat.le_trans herase hitems
      · exact h
  | _ => cases op <;> exact iff_of_true (Nat.zero_le _) trivial

/-! ### Lines -/

/-- A line is a text of so many code points at most, or of four times as many bytes. -/
def LineWithin (limitsStringSize : ℕ) (data : ByteString) : Prop :=
  (∃ cs : List CodePoint, utf8.encode cs = data ∧ cs.length ≤ limitsStringSize) ∨
    data.length ≤ 4 * limitsStringSize

/-- What `append_line` and `insert_line` accept is within the limit. -/
def AcceptsWithin (limits : DbLimits) (d : DocumentProperty) (data : ByteString) : Prop :=
  ((d.appendLine limits data).1 = true → LineWithin limits.limitsStringSize data) ∧
    ∀ line, (d.insertLine limits data line).1 = true → LineWithin limits.limitsStringSize data

theorem lineWithin_of_not_utf8Valid {limit : ℕ} {data : ByteString}
    (hvalid : utf8Valid data = false) :
    LineWithin limit data ↔ data.length ≤ 4 * limit := by
  refine or_iff_right ?_
  rintro ⟨cs, hcs, -⟩
  rw [utf8Valid_iff.mpr ⟨cs, hcs⟩] at hvalid
  cases hvalid

/-- **Which lines are kept within the limit**: those that are text, and those that are short
enough for one. -/
theorem acceptsWithin_iff {limits : DbLimits} {d : DocumentProperty} {data : ByteString} :
    AcceptsWithin limits d data ↔
      d.isFull = true ∨ utf8Valid data = true ∨ data.length ≤ 4 * limits.limitsStringSize := by
  have happend : (d.appendLine limits data).1 = true ↔
      d.isFull = false ∧ utf8Size data ≤ limits.limitsStringSize := by
    rw [DocumentProperty.appendLine]
    split_ifs with hfull hlong <;> simp_all
  have hinsert : ∀ line, (d.insertLine limits data line).1 = true →
      d.isFull = false ∧ utf8Size data ≤ limits.limitsStringSize := by
    intro line
    rw [DocumentProperty.insertLine]
    split_ifs with hfull hlong <;> simp_all
  constructor
  · rintro ⟨h, -⟩
    by_cases hfull : d.isFull = true
    · exact .inl hfull
    · by_cases hvalid : utf8Valid data = true
      · exact .inr (.inl hvalid)
      · rw [Bool.not_eq_true] at hfull hvalid
        have haccepted := happend.mpr ⟨hfull, by rw [utf8Size_eq_zero hvalid]; omega⟩
        exact .inr (.inr ((lineWithin_of_not_utf8Valid hvalid).mp (h haccepted)))
  · intro h
    have hwithin : d.isFull = false ∧ utf8Size data ≤ limits.limitsStringSize →
        LineWithin limits.limitsStringSize data := by
      rintro ⟨hfull, hsize⟩
      obtain hfull' | hvalid | hshort := h
      · rw [hfull] at hfull'
        cases hfull'
      · obtain ⟨cs, rfl⟩ := utf8Valid_iff.mp hvalid
        rw [utf8Size_encode] at hsize
        exact .inl ⟨cs, rfl, hsize⟩
      · exact .inr hshort
    exact ⟨fun haccepted => hwithin (happend.mp haccepted),
      fun line haccepted => hwithin (hinsert line haccepted)⟩

/-! ### The limits -/

/-- **When the limits are kept**: in the runs of operations none of which adds a line or an
item where there are as many as there may be, and for the lines that are text or short. -/
theorem limitsKept_iff (limits : DbLimits) (limitsPropertySetItems : ℕ) :
    (∀ d : DocumentProperty, d.Within → ∀ ops : List DocumentOp,
      (∀ before after, ops = before ++ after →
        (before.foldl (DocumentOp.apply limits) d).Within) ↔
      ∀ before op after, ops = before ++ op :: after →
        op.Fits limits (before.foldl (DocumentOp.apply limits) d)) ∧
    (∀ ops : List SetOp,
      (∀ before after, ops = before ++ after →
        SetWithin limitsPropertySetItems (setAfter limitsPropertySetItems before)) ↔
      ∀ before op after, ops = before ++ op :: after →
        op.HasRoom limitsPropertySetItems (setAfter limitsPropertySetItems before)) ∧
    ∀ d data, AcceptsWithin limits d data ↔
      d.isFull = true ∨ utf8Valid data = true ∨ data.length ≤ 4 * limits.limitsStringSize := by
  refine ⟨?_, ?_, fun _ _ => acceptsWithin_iff⟩
  · intro d h ops
    refine forall_foldl_iff (I := DocumentProperty.Within) ?_ h ops
    intro d op hd
    exact DocumentOp.within_iff hd op
  · intro ops
    unfold setAfter
    refine forall_foldl_iff (I := SetWithin limitsPropertySetItems) ?_ (Nat.zero_le _) ops
    intro s op hs
    exact SetOp.within_iff hs op

/-- A line in an empty document, a number in an empty set, and a line of text. -/
theorem limitsKept_one :
    ((DocumentOp.appendLine [97]).apply ⟨1, 1, 1, 1⟩ ⟨[], 1⟩).Within ∧
      SetWithin 1 (setAfter 1 [.add (.integer 1)]) ∧ AcceptsWithin ⟨1, 1, 1, 1⟩ ⟨[], 1⟩ [97] := by
  obtain ⟨hdocument, hset, hline⟩ := limitsKept_iff ⟨1, 1, 1, 1⟩ 1
  refine ⟨(hdocument ⟨[], 1⟩ (by decide) [.appendLine [97]]).mpr ?_ [.appendLine [97]] [] rfl,
    (hset [.add (.integer 1)]).mpr ?_ _ [] rfl, (hline _ _).mpr (.inr (.inl (by decide)))⟩
  · intro before op after hops
    obtain ⟨rfl, hop⟩ := List.append_eq_singleton_iff.mp hops.symm |>.resolve_right (by simp)
    obtain rfl : op = .appendLine [97] := (List.cons.inj hop).1
    simp [DocumentOp.Fits]
  · intro before op after hops
    obtain ⟨rfl, hop⟩ := List.append_eq_singleton_iff.mp hops.symm |>.resolve_right (by simp)
    obtain rfl : op = .add (.integer 1) := (List.cons.inj hop).1
    simp [setAfter, SetOp.HasRoom]

/-- A second line and a second item where there may be one, and five tabulators where there may
be one character. -/
theorem not_limitsKept :
    ¬ ([.appendLine [97], .appendLine [97]].foldl (DocumentOp.apply ⟨1, 1, 1, 1⟩)
        (DocumentProperty.new ⟨1, 1, 1, 1⟩)).Within ∧
      ¬ SetWithin 1 (setAfter 1 [.add (.integer 1), .add (.integer 2)]) ∧
      ¬ AcceptsWithin ⟨1, 1, 1, 1⟩ (DocumentProperty.new ⟨1, 1, 1, 1⟩) [9, 9, 9, 9, 9] := by
  refine ⟨by decide, by decide, ?_⟩
  rintro ⟨haccepted, -⟩
  obtain ⟨cs, hcs, -⟩ | hlength := haccepted (by decide)
  · exact absurd (utf8Valid_iff.mpr ⟨cs, hcs⟩) (by decide)
  · revert hlength
    decide

end Mutgos.DbTypes
