import Mathlib.Logic.Relation
import Mutgos.Text.MarkupLoop

/-!
# The pieces of a marked up text

A text with markup is cut into pieces from left to right: where a token begins and its
tag is accepted, the piece is that tag, and else it is what is copied as it is.  Every
text has one such cut, and what it amounts to is a line of external text.  This is what
the parser makes of the text unless it comes to a URL the parameters of which are not
accepted: it has gone past the opening brackets by then, and copies what follows them
in their place.

## Main results

* `toExternal_isCut_iff` — **the parser renders the pieces of its text exactly when it
  comes to no URL that it does not accept for its parameters.**
-/

namespace Mutgos.Text

open ParserStateMachine List Option

/-! ### Pieces -/

/-- A piece of a text. -/
inductive Piece
  /-- Copied as it is. -/
  | copied (bytes : ByteString)
  /-- A tripled literal, without its brackets. -/
  | literal (inner : ByteString)
  | styleTag (bytes : ByteString) (style : Option TextStyle)
  | urlTag (bytes : ByteString) (url : ExternalText)
  deriving DecidableEq

namespace Piece

/-- The text of a piece. -/
def source : Piece → ByteString
  | copied bytes => bytes
  | literal inner => openUrlLit :: openUrl ++ inner ++ closeUrl ++ [closeUrlLit]
  | styleTag bytes _ => bytes
  | urlTag bytes _ => bytes

/-- The element that is written to after a piece. -/
def after (segment : TextSegment) : Piece → TextSegment
  | copied bytes => segment.append bytes
  | literal inner => segment.append (openUrl ++ inner ++ closeUrl)
  | styleTag _ style => ⟨[], style⟩
  | urlTag _ _ => ⟨[], segment.style⟩

/-- The style that the text is in after a piece. -/
def styleAfter (style : Option TextStyle) : Piece → Option TextStyle
  | styleTag _ style => style
  | _ => style

@[simp] theorem after_style (segment : TextSegment) (piece : Piece) :
    (piece.after segment).style = piece.styleAfter segment.style := by
  cases piece <;> rfl

/-- The elements that a piece ends or adds. -/
def elements (segment : TextSegment) : Piece → ExternalTextLine
  | copied _ => []
  | literal _ => []
  | styleTag _ _ => segment.flush
  | urlTag _ url => segment.flush ++ [url]

end Piece

/-- The line that pieces amount to. -/
def render (segment : TextSegment) : List Piece → ExternalTextLine
  | [] => segment.flush
  | piece :: pieces => piece.elements segment ++ render (piece.after segment) pieces

/-! ### Tags -/

/-- The style tag at the beginning of a text.  One without parameters is a reset, and
accepted within a style only. -/
def styleTag (inStyle : Bool) (text : ByteString) : Option Piece :=
  match find closeStyle (text.drop openStyle.length) with
  | none => none
  | some length =>
    let bytes := text.take (openStyle.length + length + closeStyle.length)
    if length = 0 then if inStyle then some (.styleTag bytes none) else none
    else if maxStyleSize < length + openStyle.length then none
    else
      let p := StyleParse.new.parameters 0
        (splitString (text.drop openStyle.length) length styleSep 0 false)
      if p.badFormat then none
      else some (.styleTag bytes (if p.isReset then none else some p.style))

/-- The tripled literal at the beginning of a text. -/
def literalTag (text : ByteString) : Option Piece :=
  if isUrlShortcut text then none
  else match find closeUrl text with
  | none => none
  | some index =>
    if isTripled text index then some (.literal ((text.take index).drop (openUrl.length + 1)))
    else none

/-- The URL tag at the beginning of a text. -/
def urlTag (text : ByteString) : Option Piece :=
  if isUrlShortcut text then none
  else match find closeUrl text with
  | none => none
  | some index =>
    if isTripled text index then none
    else (urlOf (urlParams text index)).map (.urlTag (text.take (index + closeUrl.length)))

/-- The URL at the beginning of a text has its brackets, and its parameters are not
those of a URL. -/
def dropsBrackets (text : ByteString) : Bool :=
  !isUrlShortcut text && match find closeUrl text with
  | none => false
  | some index => !isTripled text index && (urlOf (urlParams text index)).isNone

/-- The piece that a text begins with. -/
def nextPiece (inStyle : Bool) (text : ByteString) : Option Piece :=
  if openStyle.isPrefixOf text then some ((styleTag inStyle text).getD (.copied openStyle))
  else if openUrl.isPrefixOf text then
    some ((literalTag text).getD ((urlTag text).getD (.copied openUrl)))
  else text.head?.map fun c => .copied [c]

/-- A text cut into pieces, the first of them being in the given style. -/
inductive IsCut : Option TextStyle → ByteString → List Piece → Prop
  | nil (style : Option TextStyle) : IsCut style [] []
  | cons {style : Option TextStyle} {piece : Piece} {text rest : ByteString}
      {pieces : List Piece} (htext : text = piece.source ++ rest)
      (hpiece : nextPiece style.isSome text = some piece)
      (hrest : IsCut (piece.styleAfter style) rest pieces) : IsCut style text (piece :: pieces)

/-! ### What is accepted -/

variable {inStyle : Bool} {piece : Piece} {token : ByteString}

theorem styleTag_eq_some {text : ByteString} (h : styleTag inStyle text = some piece) :
    ∃ n style, piece = .styleTag (text.take (openStyle.length + n)) style ∧ 0 < n := by
  unfold styleTag at h
  split at h
  · cases h
  · rename_i length _
    have hclose : closeStyle.length = 1 := rfl
    simp only [] at h
    split at h
    · split at h
      · cases h
        exact ⟨length + closeStyle.length, none, by rw [Nat.add_assoc], by omega⟩
      · cases h
    · split at h
      · cases h
      · split at h
        · cases h
        · cases h
          exact ⟨length + closeStyle.length, _, by rw [Nat.add_assoc], by omega⟩

/-- What closes a text with three opening brackets comes after them. -/
theorem exists_of_find_closeUrl {text : ByteString} {index : ℕ} (hopen : openUrl <+: text)
    (hthird : text[openUrl.length]? = some openUrlLit) (h : find closeUrl text = some index) :
    ∃ inner rest, index = openUrl.length + 1 + inner.length ∧
      text = openUrlLit :: openUrl ++ inner ++ closeUrl ++ rest := by
  obtain ⟨w, rest, hw, htext⟩ := exists_of_find h
  obtain ⟨t, ht⟩ := hopen
  rw [htext, openUrl_eq] at hthird ht
  match w with
  | [] => cases ht
  | [a] => cases ht
  | [a, b] => cases hthird
  | a :: b :: c :: inner =>
    refine ⟨inner, rest, ?_, ?_⟩
    · rw [← hw]
      simp only [length_cons, openUrl_eq, length_nil]
      omega
    · simp only [cons_append, nil_append, List.cons.injEq] at ht
      obtain ⟨ha, hb, -⟩ := ht
      have hc : c = openUrlLit := by simpa using hthird
      rw [htext, ← ha, ← hb, hc]
      simp [openUrl_eq, openUrlLit]

/-- A tripled literal is the text that it is read from. -/
theorem literalTag_eq_some {text : ByteString} (hopen : openUrl <+: text)
    (h : literalTag text = some piece) :
    ∃ inner, piece = .literal inner ∧ piece.source <+: text := by
  unfold literalTag at h
  split at h
  · cases h
  · split at h
    · cases h
    · rename_i index hindex
      split at h
      · rename_i htripled
        cases h
        simp only [isTripled, Bool.and_eq_true, decide_eq_true_eq] at htripled
        obtain ⟨⟨⟨hthird, -⟩, -⟩, hlast⟩ := htripled
        obtain ⟨inner, rest, rfl, rfl⟩ := exists_of_find_closeUrl hopen hthird hindex
        have htake : (openUrlLit :: openUrl ++ inner ++ closeUrl ++ rest).take
            (openUrl.length + 1 + inner.length) = openUrlLit :: openUrl ++ inner := by
          rw [append_assoc]
          exact take_left' (by simp only [length_append, length_cons])
        have hinner : (openUrlLit :: openUrl ++ inner).drop (openUrl.length + 1) = inner :=
          drop_left' length_cons
        have hlength : (openUrlLit :: openUrl ++ inner ++ closeUrl).length =
            openUrl.length + 1 + inner.length + closeUrl.length := by
          simp only [length_append, length_cons]
        rw [← hlength, getElem?_append_right (Nat.le_refl _), Nat.sub_self] at hlast
        obtain ⟨r, rfl⟩ : ∃ r, rest = closeUrlLit :: r := by
          cases rest with
          | nil => cases hlast
          | cons c r =>
            rw [getElem?_cons_zero, Option.some.injEq] at hlast
            exact ⟨r, by rw [hlast]⟩
        rw [htake, hinner]
        exact ⟨inner, rfl, r, by simp [Piece.source]⟩
      · cases h

theorem urlTag_eq_some {text : ByteString} (h : urlTag text = some piece) :
    ∃ index url, piece = .urlTag (text.take (index + closeUrl.length)) url := by
  unfold urlTag at h
  split at h
  · cases h
  · split at h
    · cases h
    · split at h
      · cases h
      · obtain ⟨url, -, rfl⟩ := map_eq_some_iff.mp h
        exact ⟨_, url, rfl⟩

/-! ### Every text has one cut -/

theorem take_ne_nil {text : ByteString} {n : ℕ} (htext : text ≠ []) (hn : 0 < n) :
    text.take n ≠ [] := by
  rw [Ne, take_eq_nil_iff, not_or]
  exact ⟨Nat.ne_of_gt hn, htext⟩

theorem ne_nil_of_starts {text : ByteString} (htoken : token ≠ []) (h : token <+: text) :
    text ≠ [] := by
  intro htext
  rw [htext] at h
  exact htoken (prefix_nil.mp h)

/-- The first piece is at the beginning of the text, and there is something in it. -/
theorem nextPiece_source {text : ByteString} (h : nextPiece inStyle text = some piece) :
    piece.source <+: text ∧ piece.source ≠ [] := by
  unfold nextPiece at h
  split at h
  · rename_i hopen
    rw [List.isPrefixOf_iff_prefix] at hopen
    cases htag : styleTag inStyle text with
    | none =>
      rw [htag] at h
      cases h
      exact ⟨hopen, by decide⟩
    | some tag =>
      rw [htag] at h
      cases h
      obtain ⟨n, style, rfl, -⟩ := styleTag_eq_some htag
      exact ⟨List.take_prefix _ _, take_ne_nil (ne_nil_of_starts (by decide) hopen)
        (Nat.lt_add_right _ (by decide))⟩
  · split at h
    · rename_i hopen
      rw [List.isPrefixOf_iff_prefix] at hopen
      have hne : text ≠ [] := ne_nil_of_starts (by decide) hopen
      cases hliteral : literalTag text with
      | some tag =>
        rw [hliteral] at h
        cases h
        obtain ⟨inner, rfl, hsource⟩ := literalTag_eq_some hopen hliteral
        exact ⟨hsource, by simp [Piece.source]⟩
      | none =>
        rw [hliteral] at h
        cases hurl : urlTag text with
        | some tag =>
          rw [hurl] at h
          cases h
          obtain ⟨index, url, rfl⟩ := urlTag_eq_some hurl
          exact ⟨List.take_prefix _ _, take_ne_nil hne (Nat.lt_add_left _ (by decide))⟩
        | none =>
          rw [hurl] at h
          cases h
          exact ⟨hopen, by decide⟩
    · cases text with
      | nil => cases h
      | cons c text =>
        cases h
        exact ⟨⟨text, rfl⟩, by simp [Piece.source]⟩

theorem exists_nextPiece {inStyle : Bool} {text : ByteString} (h : text ≠ []) :
    ∃ piece, nextPiece inStyle text = some piece := by
  unfold nextPiece
  split
  · exact ⟨_, rfl⟩
  · split
    · exact ⟨_, rfl⟩
    · cases text with
      | nil => exact absurd rfl h
      | cons c text => exact ⟨_, rfl⟩

theorem exists_isCut (style : Option TextStyle) (text : ByteString) :
    ∃ pieces, IsCut style text pieces := by
  induction hn : text.length using Nat.strongRecOn generalizing style text with
  | ind n ih =>
    by_cases htext : text = []
    · exact ⟨[], htext ▸ .nil style⟩
    · obtain ⟨piece, hpiece⟩ := @exists_nextPiece style.isSome text htext
      obtain ⟨⟨rest, hrest⟩, hne⟩ := nextPiece_source hpiece
      have hpos := length_pos_of_ne_nil hne
      have hlength : rest.length < n := by
        rw [← hn, ← hrest, length_append]
        omega
      obtain ⟨pieces, hpieces⟩ := ih _ hlength (piece.styleAfter style) rest rfl
      exact ⟨piece :: pieces, .cons hrest.symm hpiece hpieces⟩

theorem IsCut.eq_nil {style : Option TextStyle} {pieces : List Piece}
    (h : IsCut style [] pieces) : pieces = [] := by
  cases h with
  | nil => rfl
  | cons htext hpiece _ =>
    obtain ⟨-, hne⟩ := nextPiece_source hpiece
    exact absurd (append_eq_nil_iff.mp htext.symm).1 hne

theorem IsCut.eq_cons {style : Option TextStyle} {text : ByteString} {pieces : List Piece}
    (h : IsCut style text pieces) (hpiece : nextPiece style.isSome text = some piece) :
    ∃ rest, pieces = piece :: rest ∧
      IsCut (piece.styleAfter style) (text.drop piece.source.length) rest := by
  cases h with
  | nil => cases hpiece
  | cons htext hpiece' hrest =>
    rw [hpiece'] at hpiece
    cases hpiece
    refine ⟨_, rfl, ?_⟩
    rw [htext, drop_left]
    exact hrest

/-! ### The parser at a piece -/

theorem drop_length_take (text : ByteString) (n : ℕ) :
    text.drop (text.take n).length = text.drop n := by
  rw [length_take]
  obtain h | h := Nat.le_total n text.length
  · rw [Nat.min_eq_left h]
  · rw [Nat.min_eq_right h, drop_length, drop_eq_nil_of_le h]

theorem take_of_starts {text : ByteString} (h : token <+: text) :
    text.take token.length = token := by
  obtain ⟨rest, rfl⟩ := h
  exact take_left

namespace StyleParse

variable {p : StyleParse}

theorem parameter_showfmtIter (h : p.showfmtIter = none) (index : ℕ) (entry : ByteString) :
    (p.parameter index entry).showfmtIter = none := by
  cases entry with
  | nil => exact h
  | cons c entry =>
    rw [parameter]
    split
    · unfold number
      grind
    · unfold word
      grind

/-- The options are never written again. -/
theorem parameters_showfmtIter (h : p.showfmtIter = none) (index : ℕ) (entries : List ByteString) :
    (p.parameters index entries).showfmtIter = none := by
  induction entries generalizing p index with
  | nil => exact h
  | cons entry entries ih =>
    rw [parameters]
    split
    · exact h
    · exact ih (parameter_showfmtIter h _ _) _

end StyleParse

namespace ParserStateMachine

variable {state : ParserStateMachine} {segment : TextSegment} {rest : ByteString}
  {output : ExternalTextLine}

/-- The parser has dealt with a piece. -/
def Takes (piece : Piece) (segment : TextSegment) (rest : ByteString) (output : ExternalTextLine)
    (state : ParserStateMachine) : Prop :=
  state.At (piece.after segment) (rest.drop piece.source.length) (output ++ piece.elements segment)

/-- What is copied as it is. -/
theorem At.takes_copied (h : state.At segment rest output) {token : ByteString}
    (hstarts : token <+: rest) :
    Takes (.copied token) segment rest output (state.outputSubstring token.length) := by
  have hcopied := h.outputSubstring token.length
  rw [take_of_starts hstarts] at hcopied
  simpa [Takes, Piece.after, Piece.source, Piece.elements] using hcopied

/-- An accepted style tag, after which there is nothing to write to. -/
theorem takes_styleTag {style : Option TextStyle} {n : ℕ} (htextPtr : state.textPtr = none)
    (hstyle : (if state.inStyle then some state.style else none) = style)
    (hrest : state.rest = rest.drop n) (houtput : state.output = output ++ segment.flush) :
    Takes (.styleTag (rest.take n) style) segment rest output state.newTextSegment := by
  have hnew := At.of_textPtr_none htextPtr hstyle
  rw [hrest, houtput] at hnew
  simpa only [Takes, Piece.after, Piece.source, Piece.elements, drop_length_take] using hnew

@[simp] theorem outputSubstring_inStyle (len : ℕ) :
    (state.outputSubstring len).inStyle = state.inStyle := by
  unfold outputSubstring
  split <;> rfl

/-- Out of a style there is nothing to be ended. -/
theorem At.outputSubstring_of_plain (h : state.At segment rest output)
    (hplain : segment.style = none) (len : ℕ) :
    { state.outputSubstring len with inStyle := false } = state.outputSubstring len := by
  have hstyle := h.style
  rw [hplain] at hstyle
  have hfalse : state.inStyle = false := by
    by_contra htrue
    simp [htrue] at hstyle
  rw [← hfalse, ← @outputSubstring_inStyle state len]

theorem applyStyle_of_badFormat {styleParams : List ByteString} {endStyleIndex : ℕ}
    (hbad : (StyleParse.new.parameters 0 styleParams).badFormat = true) :
    state.applyStyle endStyleIndex styleParams = state.outputSubstring openStyle.length := by
  rw [ParserStateMachine.applyStyle, if_pos hbad]

section

variable (h : state.At segment rest output)
include h

/-- A tag with parameters that are accepted: a style, or a reset if there are none that
mean anything. -/
theorem At.applyStyle {styleParams : List ByteString} {endStyleIndex : ℕ}
    (hbad : (StyleParse.new.parameters 0 styleParams).badFormat = false) :
    let p := StyleParse.new.parameters 0 styleParams
    Takes (.styleTag (rest.take (endStyleIndex + closeStyle.length))
      (if p.isReset then none else some p.style)) segment rest output
      (state.applyStyle endStyleIndex styleParams).newTextSegment := by
  intro p
  have hshow : p.showfmtIter = none := StyleParse.parameters_showfmtIter rfl _ _
  have hclose : closeStyle.length = 1 := rfl
  simp only [ParserStateMachine.applyStyle, hbad, Bool.false_eq_true, if_false, hshow, p,
    h.addTextSegment, h.rest, hclose]
  split
  · exact takes_styleTag rfl rfl rfl rfl
  · refine At.newTextSegment ⟨rfl, rfl, ?_, rfl⟩
    simp only [Piece.source, drop_length_take]

theorem At.convertStyle (hopen : openStyle <+: rest) :
    Takes ((styleTag segment.style.isSome rest).getD (.copied openStyle)) segment rest output
      state.convertStyle.newTextSegment := by
  have hcopied : Takes (.copied openStyle) segment rest output
      (state.outputSubstring openStyle.length).newTextSegment := (h.takes_copied hopen).newTextSegment
  have hadd := h.addTextSegment
  unfold ParserStateMachine.convertStyle styleTag
  rw [h.rest, h.textPtr]
  cases hclose : find closeStyle (rest.drop openStyle.length) with
  | none => exact hcopied
  | some length =>
    have hzero : length + openStyle.length = openStyle.length ↔ length = 0 := by omega
    have hend : length + openStyle.length + closeStyle.length =
        openStyle.length + length + closeStyle.length := by omega
    simp only [map_some, bind_some, hzero]
    by_cases hlength : length = 0
    · rw [if_pos hlength, if_pos hlength]
      by_cases hsome : segment.style.isSome = true
      · rw [if_pos hsome, if_pos hsome, hadd, hend]
        exact takes_styleTag rfl rfl rfl rfl
      · rw [if_neg hsome, if_neg hsome]
        rw [h.outputSubstring_of_plain (by simpa using hsome)]
        exact hcopied
    · rw [if_neg hlength, if_neg hlength]
      by_cases hlong : maxStyleSize < length + openStyle.length
      · rw [if_pos hlong, if_pos hlong]
        exact hcopied
      · rw [if_neg hlong, if_neg hlong, Nat.add_sub_cancel]
        split
        · rename_i hbad
          rw [applyStyle_of_badFormat hbad]
          exact hcopied
        · rename_i hbad
          rw [getD_some, ← hend]
          exact h.applyStyle (by simpa using hbad)

/-- A tripled literal. -/
theorem At.takes_literal (hopen : openUrl <+: rest) {index : ℕ}
    (hfind : find closeUrl rest = some index) (htripled : isTripled rest index = true) :
    Takes (.literal ((rest.take index).drop (openUrl.length + 1))) segment rest output
      { state.outputString
          (openUrl ++ (rest.take index).drop (openUrl.length + 1) ++ closeUrl) with
        rest := rest.drop (index + closeUrl.length + 1) } := by
  have hthird : rest[openUrl.length]? = some openUrlLit := by
    simp only [isTripled, Bool.and_eq_true, decide_eq_true_eq] at htripled
    exact htripled.1.1.1
  obtain ⟨inner, r, hindex, htext⟩ := exists_of_find_closeUrl hopen hthird hfind
  have hlength : index ≤ rest.length := by
    rw [hindex, htext]
    simp only [length_append, length_cons]
    omega
  have hstring := h.outputString
    (openUrl ++ (rest.take index).drop (openUrl.length + 1) ++ closeUrl)
  refine ⟨hstring.textPtr, hstring.style, ?_, by simpa [Piece.elements] using hstring.output⟩
  simp only [Piece.source, length_append, length_cons, length_drop,
    length_take, length_nil]
  congr 1
  omega

/-- The parser at a URL that it does not drop the brackets of. -/
theorem At.convertUrl (hopen : openUrl <+: rest) (hdrops : dropsBrackets rest = false) :
    Takes ((literalTag rest).getD ((urlTag rest).getD (.copied openUrl))) segment rest output
      state.convertUrl.newTextSegment := by
  have hcopied : Takes (.copied openUrl) segment rest output
      (state.outputSubstring openUrl.length).newTextSegment := (h.takes_copied hopen).newTextSegment
  have hadd := h.addTextSegment
  unfold ParserStateMachine.convertUrl literalTag urlTag
  unfold dropsBrackets at hdrops
  rw [h.rest]
  by_cases hshortcut : isUrlShortcut rest = true
  · simpa only [if_pos hshortcut, getD_none] using hcopied
  · rw [if_neg hshortcut, if_neg hshortcut, if_neg hshortcut]
    cases hfind : find closeUrl rest with
    | none => exact hcopied
    | some index =>
      simp only []
      by_cases htripled : isTripled rest index = true
      · simp only [if_pos htripled, getD_some]
        exact (h.takes_literal hopen hfind htripled).newTextSegment
      · rw [if_neg htripled, if_neg htripled, if_neg htripled]
        cases hurl : urlOf (urlParams rest index) with
        | none => simp [hshortcut, htripled, hurl, hfind] at hdrops
        | some url =>
          simp only [hadd, map_some, getD_none, getD_some]
          have hnew := @At.of_textPtr_none
            { state with
              textPtr := none
              output := output ++ segment.flush ++ [url]
              rest := rest.drop (index + closeUrl.length) } segment.style rfl h.style
          simpa only [Takes, Piece.after, Piece.source, Piece.elements, drop_length_take,
            append_assoc] using hnew

/-- **The parser at a URL that it does not accept for its parameters**: the brackets are
gone, and two bytes after them are copied. -/
theorem At.convertUrl_of_dropsBrackets (hdrops : dropsBrackets rest = true) :
    state.convertUrl.newTextSegment.At (segment.append ((rest.drop openUrl.length).take
      openUrl.length)) (rest.drop (openUrl.length + openUrl.length)) output := by
  unfold dropsBrackets at hdrops
  unfold ParserStateMachine.convertUrl
  rw [h.rest]
  cases hfind : find closeUrl rest with
  | none => simp [hfind] at hdrops
  | some index =>
    simp only [hfind, Bool.and_eq_true, Bool.not_eq_true', isNone_iff_eq_none] at hdrops
    obtain ⟨hshortcut, htripled, hurl⟩ := hdrops
    simp only [hshortcut, htripled, hurl, Bool.false_eq_true, if_false]
    have hskip : { state with rest := rest.drop openUrl.length }.At segment
        (rest.drop openUrl.length) output := ⟨h.textPtr, h.style, rfl, h.output⟩
    have hcopied := (hskip.outputSubstring openUrl.length).newTextSegment
    rwa [drop_drop] at hcopied

end

/-! ### URLs that lose their brackets -/

/-- The nearest token is that of a URL that is not accepted for its parameters. -/
def dropsNext (state : ParserStateMachine) : Bool :=
  match find openStyle state.rest, find openUrl state.rest with
  | none, some urlIndex => dropsBrackets (state.rest.drop urlIndex)
  | some styleIndex, some urlIndex =>
    urlIndex < styleIndex && dropsBrackets (state.rest.drop urlIndex)
  | _, none => false

/-- One round of the loop. -/
def Next (state state' : ParserStateMachine) : Prop := state.step = some state'

/-- The parser comes to a URL that it does not accept for its parameters. -/
def Drops (state : ParserStateMachine) : Prop :=
  ∃ state', Relation.ReflTransGen Next state state' ∧ state'.dropsNext = true

theorem drops_iff : Drops state ↔
    state.dropsNext = true ∨ ∃ state', state.step = some state' ∧ Drops state' := by
  constructor
  · intro ⟨state', hreach, hdrops⟩
    obtain rfl | ⟨next, hnext, hreach⟩ := hreach.cases_head
    · exact .inl hdrops
    · exact .inr ⟨next, hnext, state', hreach, hdrops⟩
  · intro h
    obtain hdrops | ⟨next, hnext, state', hreach, hdrops⟩ := h
    · exact ⟨state, .refl, hdrops⟩
    · exact ⟨state', .head hnext hreach, hdrops⟩

theorem drops_congr {state' : ParserStateMachine} (hstep : state'.step = state.step)
    (hdrops : state'.dropsNext = state.dropsNext) : Drops state' ↔ Drops state := by
  rw [drops_iff, drops_iff, hstep, hdrops]

theorem drops_copy {c : UInt8} {text : ByteString} (hrest : state.rest = c :: text)
    (h : NoToken (c :: text)) : Drops (state.outputSubstring 1) ↔ Drops state := by
  refine drops_congr (step_copy hrest h) ?_
  have hstyle : find openStyle (c :: text) = (find openStyle text).map (· + 1) := by
    rw [find, if_neg (by simpa [List.isPrefixOf_iff_prefix] using h.1)]
  have hurl : find openUrl (c :: text) = (find openUrl text).map (· + 1) := by
    rw [find, if_neg (by simpa [List.isPrefixOf_iff_prefix] using h.2)]
  unfold dropsNext
  rw [outputSubstring_rest, hrest, drop_one, tail_cons, hstyle, hurl]
  cases find openStyle text <;> cases find openUrl text <;> simp

theorem drops_openStyle (h : openStyle <+: state.rest) :
    Drops state ↔ Drops state.convertStyle.newTextSegment := by
  obtain ⟨text, htext⟩ := h
  have hstep : state.step = some state.convertStyle.newTextSegment := by
    rw [step, ← htext, find_append]
    cases find openUrl (openStyle ++ text) <;> simp [atStyle, outputSubstring]
  have hnot : state.dropsNext = false := by
    unfold dropsNext
    rw [← htext, find_append]
    cases find openUrl (openStyle ++ text) <;> simp
  rw [drops_iff, hstep, hnot]
  simp

theorem drops_openUrl (h : openUrl <+: state.rest) :
    Drops state ↔ dropsBrackets state.rest = true ∨ Drops state.convertUrl.newTextSegment := by
  obtain ⟨text, htext⟩ := h
  have hstyle : find openStyle (openUrl ++ text) = (find openStyle text).map (· + 2) :=
    find_append_of_not_mem (by decide) text
  have hstep : state.step = some state.convertUrl.newTextSegment := by
    rw [step, ← htext, find_append, hstyle]
    cases find openStyle text <;> simp [atUrl, outputSubstring]
  have hnext : state.dropsNext = dropsBrackets state.rest := by
    unfold dropsNext
    rw [← htext, find_append, hstyle]
    cases find openStyle text <;> simp
  rw [drops_iff, hstep, hnext]
  simp

/-! ### What the parser makes of the pieces -/

/-- The parser at the first piece of what is left of the text. -/
theorem At.exists_takes (h : state.At segment rest output) {piece : Piece}
    (hpiece : nextPiece segment.style.isSome rest = some piece)
    (hdrops : openUrl <+: rest → dropsBrackets rest = false) :
    ∃ state', Takes piece segment rest output state' ∧ state.loop = state'.loop ∧
      (Drops state ↔ Drops state') := by
  unfold nextPiece at hpiece
  rw [← h.rest] at hdrops
  split at hpiece
  · rename_i hopen
    rw [List.isPrefixOf_iff_prefix] at hopen
    cases hpiece
    have hopen' : openStyle <+: state.rest := by rwa [h.rest]
    exact ⟨_, h.convertStyle hopen, loop_openStyle hopen', drops_openStyle hopen'⟩
  · rename_i hstyle
    split at hpiece
    · rename_i hopen
      rw [List.isPrefixOf_iff_prefix] at hopen
      cases hpiece
      have hopen' : openUrl <+: state.rest := by rwa [h.rest]
      have hfalse := hdrops hopen'
      refine ⟨_, h.convertUrl hopen (by rwa [← h.rest]), loop_openUrl hopen', ?_⟩
      rw [drops_openUrl hopen', hfalse]
      simp
    · rename_i hurl
      cases hrest : rest with
      | nil =>
        rw [hrest] at hpiece
        cases hpiece
      | cons c text =>
        rw [hrest, head?_cons, map_some, Option.some.injEq] at hpiece
        subst hpiece
        have htext : state.rest = c :: text := by rw [h.rest, hrest]
        have hno : NoToken (c :: text) := by
          rw [hrest, List.isPrefixOf_iff_prefix] at hstyle hurl
          exact ⟨hstyle, hurl⟩
        rw [hrest] at h
        exact ⟨_, @At.takes_copied _ _ _ _ h [c] ⟨text, rfl⟩, loop_copy htext hno,
          (drops_copy htext hno).symm⟩

theorem At.loop_nil (h : state.At segment [] output) :
    state.step = none ∧ state.loop = output ++ segment.flush := by
  have hstep : state.step = none := by
    rw [step, h.rest]
    rfl
  refine ⟨hstep, ?_⟩
  rw [loop_of_none hstep, h.finish, TextSegment.append_nil]

/-- The parser goes on: it appends to the current element, or it ends that. -/
theorem At.exists_next (h : state.At segment rest output) (hrest : rest ≠ []) :
    ∃ (state' : ParserStateMachine) (segment' : TextSegment) (rest' : ByteString)
      (elements : ExternalTextLine), state'.At segment' rest' (output ++ elements) ∧
      state.loop = state'.loop ∧ rest'.length < rest.length ∧
      ((elements = [] ∧ ∃ w, segment' = segment.append w) ∨
        ∃ more, elements = segment.flush ++ more) := by
  by_cases hdrops : openUrl <+: rest ∧ dropsBrackets rest = true
  · have hopen : openUrl <+: state.rest := by rw [h.rest]; exact hdrops.1
    have hpos := length_pos_of_ne_nil hrest
    have hlength : (rest.drop (openUrl.length + openUrl.length)).length < rest.length := by
      have hurl : openUrl.length = 2 := rfl
      rw [length_drop]
      omega
    have hat := h.convertUrl_of_dropsBrackets hdrops.2
    rw [← append_nil output] at hat
    exact ⟨_, _, _, [], hat, loop_openUrl hopen, hlength, .inl ⟨rfl, _, rfl⟩⟩
  · obtain ⟨piece, hpiece⟩ := @exists_nextPiece segment.style.isSome rest hrest
    obtain ⟨state', htakes, hloop, -⟩ := h.exists_takes hpiece (by
      intro hopen
      by_contra htrue
      exact hdrops ⟨hopen, by simpa using htrue⟩)
    obtain ⟨hstarts, hne⟩ := nextPiece_source hpiece
    refine ⟨state', _, _, _, htakes, hloop, ?_, ?_⟩
    · have hpos := length_pos_of_ne_nil hne
      have hle := hstarts.length_le
      rw [length_drop]
      omega
    · cases piece with
      | copied bytes => exact .inl ⟨rfl, _, rfl⟩
      | literal inner => exact .inl ⟨rfl, _, rfl⟩
      | styleTag bytes style => exact .inr ⟨[], by simp [Piece.elements]⟩
      | urlTag bytes url => exact .inr ⟨[url], rfl⟩

/-- What has been written stays. -/
theorem At.exists_loop (h : state.At segment rest output) :
    (∃ more, state.loop = output ++ more) ∧
      (segment.text ≠ [] → ∃ w more, state.loop =
        output ++ (segment.append w).toExternalText :: more) := by
  induction hn : rest.length using Nat.strongRecOn generalizing state segment rest output with
  | ind n ih =>
    by_cases hrest : rest = []
    · subst hrest
      obtain ⟨-, hloop⟩ := h.loop_nil
      refine ⟨⟨_, hloop⟩, ?_⟩
      intro hne
      refine ⟨[], [], ?_⟩
      rw [hloop, TextSegment.append_nil, TextSegment.flush_of_ne_nil hne]
    · obtain ⟨state', segment', rest', elements, hat, hloop, hlength, hcases⟩ :=
        h.exists_next hrest
      obtain ⟨⟨more, hmore⟩, htext⟩ := ih _ (hn ▸ hlength) hat rfl
      refine ⟨⟨elements ++ more, by rw [hloop, hmore, append_assoc]⟩, ?_⟩
      intro hne
      obtain ⟨rfl, w, rfl⟩ | ⟨ended, rfl⟩ := hcases
      · obtain ⟨w', more', hmore'⟩ := htext (by simp [hne])
        refine ⟨w ++ w', more', ?_⟩
        rw [hloop, hmore', append_nil, TextSegment.append_append]
      · refine ⟨[], ended ++ more, ?_⟩
        rw [hloop, hmore, TextSegment.flush_of_ne_nil hne]
        simp

end ParserStateMachine

/-- What has been written stays, of the pieces too. -/
theorem exists_render {segment : TextSegment} (hne : segment.text ≠ []) (pieces : List Piece) :
    ∃ w more, render segment pieces = (segment.append w).toExternalText :: more := by
  induction pieces generalizing segment with
  | nil => exact ⟨[], [], by rw [render, TextSegment.flush_of_ne_nil hne, TextSegment.append_nil]⟩
  | cons piece pieces ih =>
    have hflush := TextSegment.flush_of_ne_nil hne
    cases piece with
    | copied bytes =>
      obtain ⟨w, more, hmore⟩ := @ih (segment.append bytes) (by simp [hne])
      refine ⟨bytes ++ w, more, ?_⟩
      rw [TextSegment.append_append] at hmore
      exact hmore
    | literal inner =>
      obtain ⟨w, more, hmore⟩ :=
        @ih (segment.append (openUrl ++ inner ++ closeUrl)) (by simp [hne])
      refine ⟨openUrl ++ inner ++ closeUrl ++ w, more, ?_⟩
      rw [TextSegment.append_append] at hmore
      exact hmore
    | styleTag bytes style =>
      exact ⟨[], _, by rw [render, Piece.elements, hflush, TextSegment.append_nil]; rfl⟩
    | urlTag bytes url =>
      exact ⟨[], _, by rw [render, Piece.elements, hflush, TextSegment.append_nil]; rfl⟩

namespace ParserStateMachine

variable {state : ParserStateMachine} {segment : TextSegment} {rest : ByteString}
  {output : ExternalTextLine}

/-- A URL that is dropped would be copied, brackets and all. -/
theorem nextPiece_of_dropsBrackets {inStyle : Bool} (hopen : openUrl <+: rest)
    (hdrops : dropsBrackets rest = true) : nextPiece inStyle rest = some (.copied openUrl) := by
  have hstyle : openStyle.isPrefixOf rest = false := by
    rw [Bool.eq_false_iff, Ne, List.isPrefixOf_iff_prefix]
    intro hopen'
    exact not_openUrl_of_openStyle hopen' hopen
  unfold dropsBrackets at hdrops
  cases hfind : find closeUrl rest with
  | none => simp [hfind] at hdrops
  | some index =>
    simp only [hfind, Bool.and_eq_true, Bool.not_eq_true', isNone_iff_eq_none] at hdrops
    obtain ⟨hshortcut, htripled, hurl⟩ := hdrops
    simp [nextPiece, hstyle, List.isPrefixOf_iff_prefix.mpr hopen, literalTag, urlTag, hshortcut,
      htripled, hurl, hfind]

/-- What is copied in the place of the brackets is not the brackets. -/
theorem take_ne_openUrl (hdrops : dropsBrackets rest = true) :
    openUrl.length + openUrl.length < rest.length ∧
      (rest.drop openUrl.length).take openUrl.length ≠ openUrl := by
  have hshortcut : isUrlShortcut rest = false := by
    unfold dropsBrackets at hdrops
    rw [Bool.and_eq_true, Bool.not_eq_true'] at hdrops
    exact hdrops.1
  simp only [isUrlShortcut, Bool.or_eq_false_iff, decide_eq_false_iff_not, Nat.not_le,
    Bool.and_eq_false_iff] at hshortcut
  obtain ⟨hlong, hnext⟩ := hshortcut
  have hurl : openUrl.length = 2 := rfl
  have hclose : closeUrl.length = 2 := rfl
  refine ⟨by omega, ?_⟩
  intro heq
  have hfourth : rest[openUrl.length + 1]? = some openUrlLit := by
    have hget := congrArg (fun s : ByteString => s[1]?) heq
    simp only [hurl, getElem?_take, getElem?_drop] at hget
    simpa [hurl, openUrl_eq, openUrlLit] using hget
  obtain hshort | hnot := hnext
  · omega
  · exact hnot hfourth

/-- **The loop renders the pieces of what is left exactly when it drops no URL.** -/
theorem At.loop_eq_iff (h : state.At segment rest output) {pieces : List Piece}
    (hcut : IsCut segment.style rest pieces) :
    state.loop = output ++ render segment pieces ↔ ¬ Drops state := by
  induction hn : rest.length using Nat.strongRecOn
    generalizing state segment rest output pieces with
  | ind n ih =>
    by_cases hrest : rest = []
    · subst hrest
      obtain ⟨hstep, hloop⟩ := h.loop_nil
      have hnot : ¬ Drops state := by
        rw [drops_iff, hstep, dropsNext, h.rest]
        simp [find, openStyle_eq, openUrl_eq]
      rw [hcut.eq_nil, render, hloop]
      simp [hnot]
    · by_cases hdrops : openUrl <+: rest ∧ dropsBrackets rest = true
      · obtain ⟨hopen, hdrops⟩ := hdrops
        have hopen' : openUrl <+: state.rest := by rwa [h.rest]
        have hdrops' : Drops state := (drops_openUrl hopen').mpr (.inl (by rwa [h.rest]))
        refine iff_of_false ?_ (not_not.mpr hdrops')
        intro heq
        obtain ⟨hlong, hne⟩ := take_ne_openUrl hdrops
        -- The element that is written to goes on with two bytes, or with the brackets.
        obtain ⟨ps, rfl, -⟩ := hcut.eq_cons (nextPiece_of_dropsBrackets hopen hdrops)
        obtain ⟨-, hloop⟩ := (h.convertUrl_of_dropsBrackets hdrops).exists_loop
        obtain ⟨w, more, hw⟩ := hloop (by
          rw [TextSegment.append_text, Ne, append_eq_nil_iff, not_and]
          intro _ htake
          have hlength := congrArg List.length htake
          rw [length_take, length_drop, length_nil] at hlength
          have hurl : openUrl.length = 2 := rfl
          omega)
        obtain ⟨w', more', hw'⟩ := @exists_render (segment.append openUrl)
          (by simp [openUrl_eq]) ps
        rw [loop_openUrl hopen', hw, render, Piece.elements, nil_append, Piece.after, hw',
          append_cancel_left_eq, List.cons.injEq, TextSegment.toExternalText_inj] at heq
        have htext := congrArg TextSegment.text heq.1
        simp only [TextSegment.append_append, TextSegment.append_text,
          append_cancel_left_eq] at htext
        refine hne (append_inj_left htext ?_)
        rw [length_take, length_drop]
        omega
      · obtain ⟨piece, hpiece⟩ := @exists_nextPiece segment.style.isSome rest hrest
        obtain ⟨state', htakes, hloop, hiff⟩ := h.exists_takes hpiece (by
          intro hopen
          by_contra htrue
          exact hdrops ⟨hopen, by simpa using htrue⟩)
        obtain ⟨ps, rfl, hps⟩ := hcut.eq_cons hpiece
        obtain ⟨hstarts, hne⟩ := nextPiece_source hpiece
        have hlength : (rest.drop piece.source.length).length < n := by
          have hpos := length_pos_of_ne_nil hne
          have hle := hstarts.length_le
          rw [length_drop]
          omega
        have hnext := ih _ hlength htakes (by rwa [Piece.after_style]) rfl
        rw [hloop, hiff, ← hnext, render, append_assoc]

end ParserStateMachine

/-- **A text is cut into consecutive pieces, and the parser renders them, exactly when it
comes to no URL that it does not accept for its parameters.** -/
theorem toExternal_isCut_iff (text : ByteString) :
    (∃ pieces, IsCut none text pieces ∧ toExternal text = render ⟨[], none⟩ pieces) ↔
      ∀ state, Relation.ReflTransGen Next (new text) state → state.dropsNext = false := by
  have hiff : ∀ {pieces}, IsCut none text pieces →
      (toExternal text = render ⟨[], none⟩ pieces ↔ ¬ Drops (new text)) :=
    fun hcut => (at_new text).loop_eq_iff hcut
  have hdrops : ¬ Drops (new text) ↔
      ∀ state, Relation.ReflTransGen Next (new text) state → state.dropsNext = false := by
    simp [Drops]
  rw [← hdrops]
  constructor
  · intro ⟨pieces, hcut, heq⟩
    exact (hiff hcut).mp heq
  · intro hnot
    obtain ⟨pieces, hcut⟩ := exists_isCut none text
    exact ⟨pieces, hcut, (hiff hcut).mpr hnot⟩

/-- Three parameters are as many as are too many: the brackets that open the tag are
lost. -/
theorem toExternal_isCut_broken :
    toExternal (ascii "[[a||b||page]]") = [.plainText (ascii "a||b||page]]")] ∧
      ¬ ∃ pieces, IsCut none (ascii "[[a||b||page]]") pieces ∧
        toExternal (ascii "[[a||b||page]]") = render ⟨[], none⟩ pieces := by
  refine ⟨by decide +kernel, ?_⟩
  intro ⟨pieces, hcut, heq⟩
  have hdrops : Drops (new (ascii "[[a||b||page]]")) := ⟨_, .refl, by decide +kernel⟩
  exact ((at_new _).loop_eq_iff hcut).mp heq hdrops

end Mutgos.Text
