import Mutgos.DbTypes.DocumentProperty
import Mutgos.DbTypes.Entity

/-!
# Programs

`dbtype::Program` as far as its source code and its registration name go.  The
caller has the lock of the program.

## Main results

* `setSourceCode_iff` — **the source code of a program is the document it was given
  exactly when no line of that is empty.**
-/

namespace Mutgos.DbTypes

open Text

structure Program where
  entity : Entity
  programRegName : ByteString
  programSourceCode : DocumentProperty

namespace Program

/-- The constructor of a program that is new. -/
def new (limits : DbLimits) (hasDbListeners : Bool) (now : TimeStamp) : Program where
  entity := .new hasDbListeners now
  programRegName := []
  programSourceCode := (DocumentProperty.new limits).setMaxLines limits.limitsProgramLines

def setSourceCode (p : Program) (limits : DbLimits) (sourceCode : DocumentProperty) :
    Bool × Program :=
  let result := p.programSourceCode.setFromString limits sourceCode.getAsString
  (result.1, { p with
    programSourceCode := result.2
    entity := p.entity.notifyFieldChanged .programSourceCode })

def getSourceCode (p : Program) : DocumentProperty := p.programSourceCode

/-- **The source code of a program is what was given, line by line, exactly when no
line of that is empty**, and so is a document that is read back from its string. -/
theorem setSourceCode_iff {limits : DbLimits} {p : Program} {sourceCode : DocumentProperty}
    (hnewline : ∀ line ∈ sourceCode.documentData, newLine ∉ line)
    (hsize : ∀ line ∈ sourceCode.documentData, utf8Size line ≤ limits.limitsStringSize)
    (hlines : sourceCode.documentData.length ≤ p.programSourceCode.maxLines) :
    ((p.setSourceCode limits sourceCode).1 = true ∧
        (p.setSourceCode limits sourceCode).2.getSourceCode.documentData =
          sourceCode.documentData ↔
      ∀ line ∈ sourceCode.documentData, line ≠ []) ∧
    ({ sourceCode with maxLines := p.programSourceCode.maxLines }.setFromString limits
        sourceCode.getAsString =
          (true, { sourceCode with maxLines := p.programSourceCode.maxLines }) ↔
      ∀ line ∈ sourceCode.documentData, line ≠ []) := by
  have hfilter : sourceCode.documentData.filter (· ≠ []) = sourceCode.documentData ↔
      ∀ line ∈ sourceCode.documentData, line ≠ [] := by
    simp [List.filter_eq_self]
  constructor
  · rw [setSourceCode, getSourceCode,
      DocumentProperty.setFromString_getAsString hnewline hsize hlines, ← hfilter]
    simp
  · have hd := DocumentProperty.setFromString_getAsString
      (d := { sourceCode with maxLines := p.programSourceCode.maxLines }) hnewline hsize hlines
    rw [hd, ← hfilter]
    simp

/-- Two lines with an empty one between them: what is stored are the two. -/
theorem setSourceCode_blank :
    let limits : DbLimits := ⟨100, 40, 500, 1000⟩
    let sourceCode : DocumentProperty := ⟨[[97], [], [98]], 500⟩
    let result := (new limits true 0).setSourceCode limits sourceCode
    (∀ line ∈ sourceCode.documentData,
        newLine ∉ line ∧ utf8Size line ≤ limits.limitsStringSize) ∧
      sourceCode.documentData.length ≤ (new limits true 0).programSourceCode.maxLines ∧
      result.1 = true ∧ result.2.getSourceCode.documentData = [[97], [98]] := by
  decide +kernel

/-- Two lines with something in them. -/
theorem setSourceCode_two_lines :
    let limits : DbLimits := ⟨100, 40, 500, 1000⟩
    let sourceCode : DocumentProperty := ⟨[[97], [98]], 500⟩
    let result := (new limits true 0).setSourceCode limits sourceCode
    result.1 = true ∧ result.2.getSourceCode.documentData = sourceCode.documentData :=
  (@setSourceCode_iff ⟨100, 40, 500, 1000⟩ (new ⟨100, 40, 500, 1000⟩ true 0) ⟨[[97], [98]], 500⟩
    (by decide +kernel) (by decide +kernel) (by decide +kernel)).1.mpr (by decide +kernel)

end Program

end Mutgos.DbTypes
