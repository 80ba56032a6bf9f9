import Mathlib.Data.List.Chain
import Mutgos.Text.StyleTags

/-!
# Lines with styles

A line of plain texts and texts with a style, written as markup and read again.  Every
style is read from its tag in turn, and whether it is read back depends on what it is and
on whether there is a separator after the tag.

## Main results

* `toExternal_fromExternal_iff` — **which lines are read back from their markup.**
-/

namespace Mutgos.Text

open ParserStateMachine List

/-! ### Separators -/

/-- The markup of a style has a separator in it. -/
def TextStyle.hasSeparator (style : TextStyle) : Bool :=
  style.color ≠ .default || (style.bold && style.italic) || (style.bold && style.underline) ||
    (style.italic && style.underline)

/-- The markup of an element has a separator in it. -/
def TextSegment.hasSeparator (segment : TextSegment) : Bool :=
  decide (44 ∈ segment.text) || segment.style.any TextStyle.hasSeparator

theorem mem_styleEntries (style : TextStyle) :
    decide (44 ∈ styleEntries style) = style.hasSeparator := by
  obtain ⟨bold, italic, underline, inverse, color, red, green, blue⟩ := style
  cases color
  case custom => simp [TextStyle.hasSeparator, styleEntries_eq, styleTokens, colorTokens, styleSep,
    ascii, intercalate_cons_cons]
  all_goals
    cases bold <;> cases italic <;> cases underline <;> rfl

/-- The markup of an element, the style being written as a tag and reset after the text. -/
def TextSegment.markup (segment : TextSegment) : ByteString :=
  match segment.style with
  | none => segment.text
  | some style => styleMarkup style ++ (segment.text ++ (openStyle ++ closeStyle))

theorem fromExternal_toExternalText (idToString : DbTypes.Id → ByteString)
    (line : List TextSegment) :
    fromExternal idToString (line.map TextSegment.toExternalText) =
      line.flatMap TextSegment.markup := by
  rw [fromExternal, flatMap_map]
  congr 1
  funext segment
  obtain ⟨text, style⟩ := segment
  cases style with
  | none => rfl
  | some style =>
    simp [TextSegment.toExternalText, fromExternalItem, TextSegment.markup, styleMarkup]

theorem mem_markup (segment : TextSegment) :
    decide (44 ∈ segment.markup) = segment.hasSeparator := by
  obtain ⟨text, style⟩ := segment
  cases style with
  | none => exact (Bool.or_false _).symm
  | some style =>
    have hentries := mem_styleEntries style
    have hopen : 44 ∉ openStyle := by decide
    have hclose : 44 ∉ closeStyle := by decide
    simp only [TextSegment.markup, TextSegment.hasSeparator, styleMarkup, mem_append, hopen,
      hclose, Option.any_some, ← hentries]
    by_cases htext : 44 ∈ text <;> by_cases hstyle : 44 ∈ styleEntries style <;>
      simp [htext, hstyle]

theorem mem_flatMap_markup (line : List TextSegment) :
    decide (44 ∈ line.flatMap TextSegment.markup) = line.any TextSegment.hasSeparator := by
  induction line with
  | nil => rfl
  | cons segment line ih =>
    rw [any_cons, ← ih, ← mem_markup, flatMap_cons]
    simp

/-! ### What comes after a tag -/

/-- A tag ends where its entries are closed. -/
theorem exists_length_of_styleTag {text bytes : ByteString} {style : Option TextStyle}
    (h : styleTag false text = some (.styleTag bytes style)) :
    ∃ length, find closeStyle (text.drop openStyle.length) = some length ∧ length ≠ 0 ∧
      bytes = text.take (openStyle.length + length + closeStyle.length) := by
  unfold styleTag at h
  split at h
  · cases h
  · rename_i length hfind
    simp only [] at h
    split at h
    · cases h
    · rename_i hlength
      split at h
      · cases h
      · split at h
        · cases h
        · cases h
          exact ⟨length, hfind, hlength, rfl⟩

/-- The tag of a style that is not clean can end early, but not before a token. -/
theorem exists_next_of_styleTag {style : TextStyle} {c : UInt8} {tail bytes : ByteString}
    {style' : Option TextStyle} (hc : c ≠ 126 ∧ c ≠ 91)
    (h : styleTag false (styleMarkup style ++ c :: tail) = some (.styleTag bytes style')) :
    ∃ d rest, styleMarkup style ++ c :: tail = bytes ++ d :: rest ∧ d ≠ 126 ∧ d ≠ 91 := by
  have hmarkup : styleMarkup style ++ c :: tail =
      openStyle ++ (styleEntries style ++ 96 :: c :: tail) := by
    simp [styleMarkup, closeStyle, ascii]
  obtain ⟨length, hfind, hlength, rfl⟩ := exists_length_of_styleTag h
  rw [hmarkup, drop_left] at hfind
  -- It is enough to know the byte after the closing token.
  suffices hnext : ∃ w d rest, styleEntries style ++ 96 :: c :: tail = w ++ 96 :: d :: rest ∧
      w.length = length ∧ d ≠ 126 ∧ d ≠ 91 by
    obtain ⟨w, d, rest, hentries, hw, hd⟩ := hnext
    refine ⟨d, rest, ?_, hd⟩
    have htake : (openStyle ++ (w ++ 96 :: d :: rest)).take
        (openStyle.length + length + closeStyle.length) = openStyle ++ (w ++ [96]) := by
      have heq : openStyle ++ (w ++ 96 :: d :: rest) =
          (openStyle ++ (w ++ [96])) ++ d :: rest := by simp
      rw [heq]
      refine take_left' ?_
      rw [length_append, length_append, hw, Nat.add_assoc]
      rfl
    rw [hmarkup, hentries, htake]
    simp
  by_cases hmem : 96 ∈ styleEntries style
  · -- An intensity closes the tag.
    have hcustom : style.color = .custom := by
      by_contra hcustom
      exact closeStyle_notMem (fun h => absurd h hcustom) hmem
    obtain ⟨w, hentries, hw⟩ : ∃ w, styleEntries style =
        style.red :: 44 :: style.green :: 44 :: style.blue :: w ∧
          (w = [] ∨ ∃ w', w = 44 :: w') := by
      obtain ⟨bold, italic, underline, inverse, color, red, green, blue⟩ := style
      obtain rfl : color = .custom := hcustom
      cases bold <;> cases italic <;> cases underline <;>
        first | exact ⟨_, rfl, .inl rfl⟩ | exact ⟨_, rfl, .inr ⟨_, rfl⟩⟩
    obtain ⟨d, rest, hrest, hd⟩ : ∃ d rest, w ++ 96 :: c :: tail = d :: rest ∧ d ≠ 126 ∧ d ≠ 91 := by
      obtain rfl | ⟨w', rfl⟩ := hw
      · exact ⟨96, c :: tail, rfl, by decide⟩
      · exact ⟨44, _, rfl, by decide⟩
    have hbyte : style.red = 96 ∨ style.green = 96 ∨ style.blue = 96 := by
      rw [styleEntries_eq] at hmem
      obtain hsep | ⟨token, htoken, hclose⟩ := mem_intercalate hmem
      · cases hsep
      · obtain hcolor | hflag := mem_append.mp htoken
        · simp only [colorTokens, hcustom] at hcolor
          grind
        · exact absurd hclose (mem_flagTokens style token hflag).2.1
    have hclose : closeStyle = [96] := rfl
    have hcomma : (96 : UInt8) ≠ 44 := by decide
    simp only [hentries, cons_append, hrest, hclose, find_singleton_cons, if_neg hcomma]
      at hfind ⊢
    by_cases hred : 96 = style.red
    · rw [if_pos hred] at hfind
      exact absurd (Option.some.inj hfind).symm hlength
    · rw [if_neg hred] at hfind
      by_cases hgreen : 96 = style.green
      · rw [if_pos hgreen] at hfind
        exact ⟨[style.red, 44], 44, _, by rw [hgreen]; rfl, Option.some.inj hfind, by decide⟩
      · have hblue : 96 = style.blue := by
          obtain h | h | h := hbyte
          · exact absurd h.symm hred
          · exact absurd h.symm hgreen
          · exact h.symm
        rw [if_neg hgreen, if_pos hblue] at hfind
        exact ⟨[style.red, 44, style.green, 44], d, rest, by rw [hblue]; rfl,
          Option.some.inj hfind, hd⟩
  · rw [show closeStyle = [96] from rfl, find_append_of_not_mem hmem] at hfind
    have hzero : find [96] (96 :: c :: tail) = some 0 := find_append [96] (c :: tail)
    rw [hzero] at hfind
    exact ⟨styleEntries style, c, tail, rfl, by simpa using hfind, hc⟩

/-! ### Lines -/

/-- An attribute of a style is set. -/
def TextStyle.HasAttribute (style : TextStyle) : Prop :=
  style.bold = true ∨ style.italic = true ∨ style.underline = true ∨ style.inverse = true ∨
    style.color ≠ .default

/-- A line of plain texts and texts with a style, which have no byte of a token in them. -/
structure WellFormed (line : List TextSegment) : Prop where
  text : ∀ segment ∈ line, segment.text ≠ [] ∧ ∀ c ∈ segment.text, c ≠ 126 ∧ c ≠ 96 ∧ c ≠ 91
  style : ∀ segment ∈ line, ∀ style, segment.style = some style →
    style.color ≠ .endInvalid ∧ style.HasAttribute
  /-- There are no two plain texts next to each other. -/
  plain : line.IsChain fun segment segment' => segment.style ≠ none ∨ segment'.style ≠ none

theorem WellFormed.tail {segment : TextSegment} {line : List TextSegment}
    (h : WellFormed (segment :: line)) : WellFormed line where
  text segment' hmem := h.text segment' (mem_cons_of_mem _ hmem)
  style segment' hmem := h.style segment' (mem_cons_of_mem _ hmem)
  plain := h.plain.tail

/-- Every style of the line is read back.  There is a separator after its tag if its text
has one in it, or what comes later. -/
def LineReadsBack : List TextSegment → Prop
  | [] => True
  | segment :: line =>
    (∀ style, segment.style = some style →
      ReadsBack (decide (44 ∈ segment.text) || line.any TextSegment.hasSeparator) style) ∧
      LineReadsBack line

namespace ParserStateMachine

variable {state : ParserStateMachine} {segment : TextSegment} {w rest : ByteString}
  {output : ExternalTextLine}

/-- A text without the bytes of tokens is appended to the current element. -/
theorem At.exists_append (h : state.At segment (w ++ rest) output)
    (hw : ∀ c ∈ w, c ≠ 126 ∧ c ≠ 91) :
    ∃ state' : ParserStateMachine, state'.At (segment.append w) rest output ∧
      state.loop = state'.loop := by
  have hcopied := h.outputSubstring w.length
  rw [take_left, drop_left] at hcopied
  exact ⟨_, hcopied, loop_append h.rest hw⟩

/-- A reset ends the element with a style. -/
theorem At.exists_reset {style : TextStyle} (hstyle : segment.style = some style)
    (h : state.At segment (openStyle ++ closeStyle ++ rest) output) :
    ∃ state' : ParserStateMachine, state'.At ⟨[], none⟩ rest (output ++ segment.flush) ∧
      state.loop = state'.loop := by
  have hpiece : nextPiece segment.style.isSome (openStyle ++ closeStyle ++ rest) =
      some (.styleTag (openStyle ++ closeStyle) none) := by
    rw [hstyle]
    rfl
  obtain ⟨state', htakes, hloop, -⟩ := h.exists_takes hpiece (by
    intro hopen
    exact absurd hopen (not_openUrl_of_openStyle ⟨closeStyle ++ rest, by simp⟩))
  refine ⟨state', ?_, hloop⟩
  have hdrop : (openStyle ++ closeStyle ++ rest).drop (openStyle ++ closeStyle).length = rest :=
    drop_left
  rwa [Takes, Piece.source, hdrop] at htakes

/-- The tag of a style, at the end of a plain text. -/
theorem At.exists_style (hplain : segment.style = none) {style : TextStyle} {tail : ByteString}
    (h : state.At segment (styleMarkup style ++ tail) output) {piece : Piece}
    (hpiece : nextPiece false (styleMarkup style ++ tail) = some piece) :
    ∃ state', Takes piece segment (styleMarkup style ++ tail) output state' ∧
      state.loop = state'.loop := by
  have hnext : nextPiece segment.style.isSome (styleMarkup style ++ tail) = some piece := by
    rw [hplain]
    exact hpiece
  obtain ⟨state', htakes, hloop, -⟩ := h.exists_takes hnext (by
    intro hopen
    refine absurd hopen (not_openUrl_of_openStyle ⟨styleEntries style ++ closeStyle ++ tail, ?_⟩)
    simp [styleMarkup])
  exact ⟨state', htakes, hloop⟩

/-- An element with a style that is not read back from its tag is not read back. -/
theorem At.loop_ne_of_not_readsBack (hplain : segment.style = none) {style : TextStyle}
    (hinvalid : style.color ≠ .endInvalid) {c : UInt8} {text tail : ByteString}
    (hc : c ≠ 126 ∧ c ≠ 91)
    (h : state.At segment (styleMarkup style ++ c :: tail) output)
    (hreads : ¬ ReadsBack (decide (44 ∈ c :: tail)) style) (more : ExternalTextLine) :
    state.loop ≠ output ++ segment.flush ++ .formattedText text style :: more := by
  intro heq
  have hnext := nextPiece_styleMarkup style (c :: tail)
  cases htag : styleTag false (styleMarkup style ++ c :: tail) with
  | none =>
    -- The token is copied to the plain text.
    rw [htag, Option.getD_none] at hnext
    obtain ⟨state', htakes, hloop⟩ := h.exists_style hplain hnext
    obtain ⟨w, more', hmore'⟩ := htakes.exists_loop.2 (by simp [Piece.after, openStyle_eq])
    rw [hloop, hmore', Piece.elements, append_nil, append_assoc,
      append_cancel_left_eq, Piece.after] at heq
    by_cases hempty : segment.text = []
    · rw [TextSegment.flush, if_pos hempty, nil_append, List.cons.injEq] at heq
      simp [TextSegment.toExternalText, TextSegment.append, hplain] at heq
    · rw [TextSegment.flush_of_ne_nil hempty, singleton_append, List.cons.injEq,
        TextSegment.toExternalText_inj] at heq
      have htext := congrArg (fun segment => segment.text.length) heq.1
      simp [openStyle_eq] at htext
  | some piece =>
    obtain ⟨bytes, style', rfl⟩ : ∃ bytes style', piece = .styleTag bytes style' := by
      obtain ⟨n, style', hpiece, -⟩ := styleTag_eq_some htag
      exact ⟨_, style', hpiece⟩
    rw [htag, Option.getD_some] at hnext
    have hstyle : style' ≠ some style := by
      intro hsome
      exact hreads ((nextPiece_style_iff hinvalid (c :: tail)).mp ⟨_, hsome ▸ hnext⟩)
    -- The text after the tag is in another style.
    obtain ⟨d, rest, hrest, hd⟩ := exists_next_of_styleTag hc htag
    obtain ⟨state', htakes, hloop⟩ := h.exists_style hplain hnext
    rw [Takes, Piece.source, hrest, drop_left] at htakes
    obtain ⟨state'', hat, hloop'⟩ := At.exists_append (w := [d]) htakes (by simpa using hd)
    obtain ⟨w, more', hmore'⟩ := hat.exists_loop.2 (by simp)
    rw [hloop, hloop', hmore', Piece.elements, append_cancel_left_eq, List.cons.injEq] at heq
    refine hstyle ?_
    have hsegment : TextSegment.toExternalText ⟨text, some style⟩ = .formattedText text style := rfl
    rw [← hsegment, TextSegment.toExternalText_inj] at heq
    exact congrArg TextSegment.style heq.1

/-- **The rest of a line is read back exactly when its styles are.** -/
theorem At.loop_eq_map_iff {line : List TextSegment} (hwf : WellFormed line)
    (hplain : segment.style = none)
    (hfirst : segment.text ≠ [] → ∀ segment' ∈ line.head?, segment'.style ≠ none)
    (h : state.At segment (line.flatMap TextSegment.markup) output) :
    state.loop = output ++ segment.flush ++ line.map TextSegment.toExternalText ↔
      LineReadsBack line := by
  induction line generalizing state segment output with
  | nil =>
    rw [h.loop_nil.2]
    simp [LineReadsBack]
  | cons next line ih =>
    obtain ⟨hne, htext⟩ := hwf.text next mem_cons_self
    obtain ⟨text, style⟩ := next
    have hbytes : ∀ c ∈ text, c ≠ 126 ∧ c ≠ 91 :=
      fun c hmem => ⟨(htext c hmem).1, (htext c hmem).2.2⟩
    rw [flatMap_cons] at h
    cases style with
    | none =>
      have hempty : segment = ⟨[], none⟩ := by
        by_contra hsegment
        have htext : segment.text ≠ [] := by
          intro htext
          exact hsegment (by rw [← htext, ← hplain])
        exact hfirst htext _ rfl rfl
      subst hempty
      obtain ⟨state', hat, hloop⟩ := At.exists_append (w := text) h hbytes
      have hnext := ih hwf.tail rfl (by
        intro _ segment' hmem
        obtain hhere | hthere := (isChain_cons.mp hwf.plain).1 segment' hmem
        · exact absurd rfl hhere
        · exact hthere) hat
      have hflush : (TextSegment.append ⟨[], none⟩ text).flush = [.plainText text] :=
        TextSegment.flush_of_ne_nil hne
      rw [hloop]
      rw [hflush, append_assoc] at hnext
      refine Iff.trans ?_ (hnext.trans ?_)
      · simp [TextSegment.flush, TextSegment.toExternalText]
      · simp [LineReadsBack]
    | some style =>
      obtain ⟨hinvalid, -⟩ := hwf.style _ mem_cons_self style rfl
      have hmarkup : TextSegment.markup ⟨text, some style⟩ ++ line.flatMap TextSegment.markup =
          styleMarkup style ++
            (text ++ (openStyle ++ closeStyle ++ line.flatMap TextSegment.markup)) := by
        simp [TextSegment.markup]
      have hcomma : decide (44 ∈ text ++ (openStyle ++ closeStyle ++
          line.flatMap TextSegment.markup)) =
          (decide (44 ∈ text) || line.any TextSegment.hasSeparator) := by
        rw [← mem_flatMap_markup]
        simp [openStyle_eq, closeStyle, ascii]
      rw [hmarkup] at h
      by_cases hreads : ReadsBack (decide (44 ∈ text) || line.any TextSegment.hasSeparator) style
      · rw [← hcomma] at hreads
        have hpiece := nextPiece_of_readsBack hinvalid hreads
        obtain ⟨state₁, htakes, hloop₁⟩ := h.exists_style hplain hpiece
        rw [Takes, Piece.source, drop_left] at htakes
        obtain ⟨state₂, hat₂, hloop₂⟩ := At.exists_append (w := text) htakes hbytes
        obtain ⟨state₃, hat₃, hloop₃⟩ := hat₂.exists_reset rfl
        have hnext := ih hwf.tail rfl (by simp) hat₃
        have hflush : (TextSegment.append ⟨[], some style⟩ text).flush =
            [.formattedText text style] := TextSegment.flush_of_ne_nil hne
        rw [hloop₁, hloop₂, hloop₃]
        refine Iff.trans ?_ (hnext.trans ?_)
        · rw [Piece.after, hflush]
          simp [TextSegment.flush, TextSegment.toExternalText, Piece.elements]
        · rw [hcomma] at hreads
          rw [LineReadsBack]
          refine ⟨fun hrest => ⟨?_, hrest⟩, And.right⟩
          intro style' hstyle
          obtain rfl := Option.some.inj hstyle
          exact hreads
      · obtain ⟨c, text, rfl⟩ := exists_cons_of_ne_nil hne
        refine iff_of_false ?_ (fun h => hreads (h.1 style rfl))
        rw [← hcomma] at hreads
        exact h.loop_ne_of_not_readsBack hplain hinvalid (hbytes c mem_cons_self) hreads _

end ParserStateMachine

/-- **A line of plain texts and texts with a style is read back from its markup exactly
when each of its styles is.** -/
theorem toExternal_fromExternal_iff (idToString : DbTypes.Id → ByteString)
    {line : List TextSegment} (hwf : WellFormed line) :
    toExternal (fromExternal idToString (line.map TextSegment.toExternalText)) =
      line.map TextSegment.toExternalText ↔ LineReadsBack line := by
  rw [fromExternal_toExternalText]
  exact (at_new _).loop_eq_map_iff hwf rfl (by simp)

/-- A colour with a name, and a flag after it. -/
theorem toExternal_fromExternal_red_bold :
    toExternal (fromExternal (fun _ => []) [.plainText (ascii "a "),
        .formattedText (ascii "red") ⟨true, false, false, false, .red, 0, 0, 0⟩,
        .plainText (ascii " door")]) =
      [.plainText (ascii "a "),
        .formattedText (ascii "red") ⟨true, false, false, false, .red, 0, 0, 0⟩,
        .plainText (ascii " door")] := by
  have hwf : WellFormed [⟨ascii "a ", none⟩,
      ⟨ascii "red", some ⟨true, false, false, false, .red, 0, 0, 0⟩⟩, ⟨ascii " door", none⟩] :=
    ⟨by decide +kernel, by simp [TextStyle.HasAttribute], by simp⟩
  refine (toExternal_fromExternal_iff (fun _ => []) hwf).mpr ?_
  simp only [LineReadsBack]
  refine ⟨by simp, ?_, by simp⟩
  intro style hstyle
  cases hstyle
  exact ⟨rfl, by decide, rfl, rfl, rfl⟩

/-- Bold text in the default colour comes back with no valid colour. -/
theorem toExternal_fromExternal_broken :
    WellFormed [⟨ascii "hi", some ⟨true, false, false, false, .default, 0, 0, 0⟩⟩] ∧
      toExternal (fromExternal (fun _ => [])
        [.formattedText (ascii "hi") ⟨true, false, false, false, .default, 0, 0, 0⟩]) ≠
      [.formattedText (ascii "hi") ⟨true, false, false, false, .default, 0, 0, 0⟩] :=
  ⟨⟨by decide +kernel, by simp [TextStyle.HasAttribute], by simp⟩, by decide +kernel⟩

end Mutgos.Text
