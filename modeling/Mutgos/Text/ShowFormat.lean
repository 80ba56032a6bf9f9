import Mutgos.Text.StyleLines

/-!
# Showing the format

The option `showfmt` is meant to have the other options of its tag shown, as the text that
they are written as.  It is allowed once, but the test for that is the wrong way round: the
first one is refused already, and the tag is copied as it is, with the option in it.  Where
the option is not read, being the last one with a separator behind the tag, the tag is
taken for a style.

## Main results

* `not_showsFormat` — **no tag is shown without the option.**
-/

namespace Mutgos.Text

open ParserStateMachine TextSegment List

/-- An option that is known: a flag, a colour, or an intensity. -/
def IsStyleOption (entry : ByteString) : Prop :=
  entry ∈ [boldStyle, italicStyle, underlineStyle, underlineShortStyle, inverseStyle,
    showStyle] ∨ stringToColor entry ≠ .endInvalid ∨ ∃ c, isDigit c = true ∧ entry = [c]

/-- The tag with the given options. -/
def optionTag (options : List ByteString) : ByteString :=
  openStyle ++ styleSep.intercalate options ++ closeStyle

/-- A text with no token in it. -/
def MarkupFree (text : ByteString) : Prop := find openStyle text = none ∧ find openUrl text = none

/-- The tag is shown, as literal text in its place, with the options that remain when
`showfmt` is taken out. -/
def ShowsFormat (before : ByteString) (options : List ByteString) (after : ByteString) : Prop :=
  ∃ texts : List ByteString,
    toExternal (before ++ optionTag options ++ after) = texts.map .plainText ∧
      texts.flatten = before ++ optionTag (options.erase showStyle) ++ after

/-! ### Options -/

theorem stringToColor_ne_endInvalid {entry : ByteString} (h : stringToColor entry ≠ .endInvalid) :
    ∃ color, colorToString color = entry := by
  rw [stringToColor, stringToEnum] at h
  cases hfound : List.find? (fun color => colorToString color = entry)
      [.default, .custom, .black, .red, .yellow, .green, .cyan, .blue, .magenta, .white] with
  | none =>
    rw [hfound] at h
    exact absurd rfl h
  | some color => exact ⟨color, by simpa using find?_some hfound⟩

/-- What an option has no part in: separators, tokens and blanks. -/
theorem IsStyleOption.clean {entry : ByteString} (h : IsStyleOption entry) :
    entry ≠ [] ∧ trimCopy entry = entry ∧ ∀ c ∈ entry, c ≠ 44 ∧ c ≠ 96 ∧ c ≠ 126 ∧ c ≠ 91 := by
  obtain hflag | hcolor | ⟨c, hdigit, rfl⟩ := h
  · have hall : ∀ entry ∈ [boldStyle, italicStyle, underlineStyle, underlineShortStyle,
        inverseStyle, showStyle], entry ≠ [] ∧ trimCopy entry = entry ∧
          ∀ c ∈ entry, c ≠ 44 ∧ c ≠ 96 ∧ c ≠ 126 ∧ c ≠ 91 := by decide +kernel
    exact hall entry hflag
  · obtain ⟨color, rfl⟩ := stringToColor_ne_endInvalid hcolor
    cases color <;> decide +kernel
  · obtain ⟨htrim, hcomma, hclose⟩ := trimCopy_clean (.inr hdigit)
    refine ⟨by simp, htrim, ?_⟩
    intro d hd
    obtain rfl := mem_singleton.mp hd
    refine ⟨hcomma, hclose, ?_, ?_⟩ <;>
    · rintro rfl
      cases hdigit

section Options

variable {options : List ByteString}

/-- The options with their separators have no token in them. -/
theorem mem_intercalate_options (hvalid : ∀ entry ∈ options, IsStyleOption entry) :
    ∀ c ∈ styleSep.intercalate options, c ≠ 96 ∧ c ≠ 126 ∧ c ≠ 91 := by
  intro c hc
  obtain rfl | ⟨entry, hentry, hc⟩ := mem_intercalate hc
  · decide
  · exact ((hvalid entry hentry).clean.2.2 c hc).2

theorem length_intercalate_cons (entry : ByteString) :
    (styleSep.intercalate (entry :: options)).length =
      entry.length + if options = [] then 0 else (styleSep.intercalate options).length + 1 := by
  have hsep : styleSep.length = 1 := rfl
  cases options with
  | nil => simp
  | cons entry' options =>
    rw [intercalate_cons_cons, if_neg (by simp)]
    simp only [length_append, hsep]
    omega

/-- The options are shorter without one of them. -/
theorem length_intercalate_erase {entry : ByteString} (hmem : entry ∈ options)
    (hne : entry ≠ []) : (styleSep.intercalate (options.erase entry)).length <
      (styleSep.intercalate options).length := by
  have hpos := length_pos_of_ne_nil hne
  induction options with
  | nil => exact absurd hmem not_mem_nil
  | cons first options ih =>
    rw [length_intercalate_cons]
    by_cases hfirst : first = entry
    · subst hfirst
      rw [erase_cons_head]
      split
      · rename_i hnil
        subst hnil
        simpa using hpos
      · omega
    · have hrest : entry ∈ options := by
        obtain heq | hrest := mem_cons.mp hmem
        · exact absurd heq.symm hfirst
        · exact hrest
      have hlt := ih hrest
      rw [erase_cons_tail (by simpa using hfirst), length_intercalate_cons,
        if_neg (ne_nil_of_mem hrest)]
      split <;> omega

end Options

/-! ### Texts without markup -/

theorem MarkupFree.of_cons {c : UInt8} {w : ByteString} (h : MarkupFree (c :: w)) :
    MarkupFree w ∧ NoToken (c :: w) := by
  obtain ⟨hstyle, hurl⟩ := h
  rw [find] at hstyle hurl
  split_ifs at hstyle with hopenStyle
  split_ifs at hurl with hopenUrl
  rw [Option.map_eq_none_iff] at hstyle hurl
  rw [List.isPrefixOf_iff_prefix] at hopenStyle hopenUrl
  exact ⟨⟨hstyle, hurl⟩, hopenStyle, hopenUrl⟩

/-- No token reaches into what comes after a text, if that does not begin with a second byte
of one. -/
theorem noToken_append {c : UInt8} {w text : ByteString} (h : NoToken (c :: w))
    (htext : ∀ d ∈ text.head?, d ≠ 96 ∧ d ≠ 91) : NoToken (c :: (w ++ text)) := by
  rw [NoToken, openStyle_eq, openUrl_eq] at h ⊢
  cases w with
  | nil =>
    cases text with
    | nil => simp
    | cons d text =>
      obtain ⟨hstyle, hurl⟩ := htext d rfl
      simp [hstyle.symm, hurl.symm]
  | cons d w => simpa using h

namespace ParserStateMachine

variable {state : ParserStateMachine} {segment : TextSegment} {w rest : ByteString}
  {output : ExternalTextLine}

/-- A text without tokens is appended to the current element. -/
theorem At.exists_append_markupFree (h : state.At segment (w ++ rest) output) (hw : MarkupFree w)
    (hrest : ∀ d ∈ rest.head?, d ≠ 96 ∧ d ≠ 91) :
    ∃ state' : ParserStateMachine, state'.At (segment.append w) rest output ∧
      state.loop = state'.loop := by
  induction w generalizing state segment with
  | nil => exact ⟨state, by simpa using h, rfl⟩
  | cons c w ih =>
    obtain ⟨hw, hno⟩ := hw.of_cons
    have hcopied := h.outputSubstring 1
    have hloop : state.loop = (state.outputSubstring 1).loop :=
      loop_copy h.rest (noToken_append hno hrest)
    obtain ⟨state', hat, hloop'⟩ := ih hcopied hw
    refine ⟨state', ?_, hloop.trans hloop'⟩
    simpa using hat

/-- What is left is a text without tokens. -/
theorem At.loop_markupFree (h : state.At segment w output) (hw : MarkupFree w) :
    state.loop = output ++ (segment.append w).flush := by
  rw [← List.append_nil w] at h
  obtain ⟨state', hat, hloop⟩ := h.exists_append_markupFree hw (by simp)
  rw [hloop, hat.loop_nil.2]

end ParserStateMachine

/-- An element of plain texts is the text. -/
theorem flatten_of_flush {text : ByteString} {style : Option TextStyle} {texts : List ByteString}
    (h : texts.map .plainText = flush ⟨text, style⟩) : texts.flatten = text := by
  by_cases hempty : text = []
  · subst hempty
    rw [flush, if_pos rfl, map_eq_nil_iff] at h
    rw [h, flatten_nil]
  · rw [flush_of_ne_nil hempty] at h
    obtain ⟨text', rfl, htext⟩ := map_eq_singleton_iff.mp h
    cases style with
    | none =>
      obtain rfl := ExternalText.plainText.inj htext
      rw [flatten_singleton]
    | some style => cases htext

/-! ### A tag in a text without markup -/

section Tag

variable {before after : ByteString} {options : List ByteString}

theorem find_closeStyle_options (hoptions : ∀ entry ∈ options, IsStyleOption entry) :
    find closeStyle (styleSep.intercalate options ++ (closeStyle ++ after)) =
      some (styleSep.intercalate options).length := by
  have hclose : 96 ∉ styleSep.intercalate options :=
    fun hmem => (mem_intercalate_options hoptions 96 hmem).1 rfl
  refine (find_append_of_not_mem hclose _).trans ?_
  change Option.map _ (find closeStyle (closeStyle ++ after)) = _
  rw [find_append, Option.map_some, Nat.zero_add]

/-- A tag is copied as it is, or it ends what is before it. -/
theorem toExternal_optionTag (hbefore : MarkupFree before) (hafter : MarkupFree after)
    (hoptions : ∀ entry ∈ options, IsStyleOption entry) :
    (styleTag false (optionTag options ++ after) = none ∧
      toExternal (before ++ optionTag options ++ after) =
        [.plainText (before ++ optionTag options ++ after)]) ∨
    ∃ style, styleTag false (optionTag options ++ after) =
        some (.styleTag (optionTag options) style) ∧
      toExternal (before ++ optionTag options ++ after) =
        flush ⟨before, none⟩ ++ flush ⟨after, style⟩ := by
  have htag : optionTag options ++ after =
      openStyle ++ (styleSep.intercalate options ++ (closeStyle ++ after)) := by
    simp [optionTag]
  have hopen : openStyle <+: optionTag options ++ after := ⟨_, htag.symm⟩
  have hnew := at_new (before ++ (optionTag options ++ after))
  obtain ⟨state, hat, hloop⟩ := hnew.exists_append_markupFree hbefore (by
    rw [htag, openStyle_eq]
    rintro d ⟨⟩
    decide)
  have hnext : nextPiece false (optionTag options ++ after) =
      some ((styleTag false (optionTag options ++ after)).getD (.copied openStyle)) := by
    rw [nextPiece, if_pos (List.isPrefixOf_iff_prefix.mpr hopen)]
  obtain ⟨state', htakes, hloop', -⟩ := hat.exists_takes hnext (by
    intro hurl
    exact absurd hurl (not_openUrl_of_openStyle hopen))
  rw [append_assoc, toExternal, hloop, hloop']
  cases hstyle : styleTag false (optionTag options ++ after) with
  | none =>
    refine .inl ⟨rfl, ?_⟩
    -- What follows the token is copied, too: the options and the closing token first.
    rw [hstyle, Option.getD_none, Takes, Piece.source, htag, drop_left] at htakes
    rw [← append_assoc] at htakes
    obtain ⟨state'', hat'', hloop''⟩ := htakes.exists_append (by
      intro c hc
      obtain hc | hc := mem_append.mp hc
      · exact (mem_intercalate_options hoptions c hc).2
      · obtain rfl : c = 96 := mem_singleton.mp hc
        decide)
    rw [hloop'', hat''.loop_markupFree hafter, flush_of_ne_nil (by
      simp [Piece.after, openStyle_eq])]
    simp [Piece.after, Piece.elements, toExternalText, append, optionTag]
  | some piece =>
    obtain ⟨n, style, rfl, -⟩ := styleTag_eq_some hstyle
    obtain ⟨length, hfind, -, hbytes⟩ := exists_length_of_styleTag hstyle
    rw [htag, drop_left, find_closeStyle_options hoptions, Option.some.injEq] at hfind
    have htake : (optionTag options ++ after).take
        (openStyle.length + length + closeStyle.length) = optionTag options := by
      refine take_left' ?_
      simp only [optionTag, length_append, hfind]
    rw [htake] at hbytes
    rw [hstyle, Option.getD_some, hbytes, Takes, Piece.source, drop_left] at htakes
    refine .inr ⟨style, by rw [hbytes], ?_⟩
    rw [htakes.loop_markupFree hafter]
    simp [Piece.after, Piece.elements, append]

end Tag

/-! ### The option -/

namespace StyleParse

variable {p : StyleParse}

end StyleParse

section ShowFormat

variable {before after : ByteString} {options : List ByteString}

/-- **No tag is shown without the option.** -/
theorem not_showsFormat (hbefore : MarkupFree before) (hafter : MarkupFree after)
    (hoptions : ∀ entry ∈ options, IsStyleOption entry) (hshow : showStyle ∈ options) :
    ¬ ShowsFormat before options after := by
  rintro ⟨texts, houtput, hflatten⟩
  have herase := length_intercalate_erase hshow (by decide)
  have hlength := congrArg List.length hflatten
  obtain ⟨-, hcopied⟩ | ⟨style, -, hended⟩ := toExternal_optionTag hbefore hafter hoptions
  · -- There is one text, and it is longer.
    rw [hcopied] at houtput
    obtain ⟨text, rfl, htext⟩ := List.map_eq_singleton_iff.mp houtput.symm
    obtain rfl := ExternalText.plainText.inj htext
    simp only [List.flatten_singleton, optionTag, List.length_append] at hlength
    omega
  · -- There is no text of the tag, and what comes after it is no text if it has a style.
    rw [hended] at houtput
    obtain ⟨first, second, rfl, hfirst, hsecond⟩ := List.map_eq_append_iff.mp houtput.symm
    rw [List.flatten_append, flatten_of_flush hfirst, flatten_of_flush hsecond] at hlength
    have hopen : openStyle.length = 2 := rfl
    simp only [optionTag, List.length_append] at hlength
    omega

/-- Bold, and shown. -/
theorem not_showsFormat_bold : ¬ ShowsFormat (ascii "Use ") [boldStyle, showStyle] (ascii ".") :=
  not_showsFormat ⟨by decide, by decide⟩ ⟨by decide, by decide⟩ (by simp [IsStyleOption])
    (by decide)

/-- The tag is copied with the option in it. -/
theorem not_showsFormat_copied :
    MarkupFree [] ∧ IsStyleOption boldStyle ∧ IsStyleOption showStyle ∧
      toExternal (optionTag [boldStyle, showStyle]) = [.plainText (ascii "~`bold,showfmt`")] ∧
      ¬ ShowsFormat [] [boldStyle, showStyle] [] := by
  have hcopied : toExternal (optionTag [boldStyle, showStyle]) =
      [.plainText (ascii "~`bold,showfmt`")] := by decide +kernel
  refine ⟨⟨by decide, by decide⟩, .inl (by decide), .inl (by decide), hcopied, ?_⟩
  rintro ⟨texts, houtput, hflatten⟩
  rw [List.nil_append, List.append_nil, hcopied] at houtput
  obtain ⟨text, rfl, htext⟩ := List.map_eq_singleton_iff.mp houtput.symm
  obtain rfl := ExternalText.plainText.inj htext
  revert hflatten
  decide

end ShowFormat

end Mutgos.Text
