import Mutgos.Text.ExternalText

/-!
# Markup

`text::ExternalTextConverter`: a line of external text from the markup that a user
writes, and the markup for a line.

The parser goes over the text once.  Its position is the rest of the text, and the
element it appends text to is a plain one or one with a style, the pointer to which is
null only between the end of one and the beginning of the next.

## Main results

* `step_rest_lt` — **every token takes the parser further**, so that it comes to an
  end.
-/

namespace Mutgos.Text

/-! ### Constants -/

def openUrl : ByteString := ascii "[["
def openUrlLit : UInt8 := 91
def closeUrl : ByteString := ascii "]]"
def closeUrlLit : UInt8 := 93
def urlSep : ByteString := ascii "||"
def maxUrlParams : ℕ := 3
def openStyle : ByteString := ascii "~`"
def closeStyle : ByteString := ascii "`"
def styleSep : ByteString := ascii ","
def maxStyleSize : ℕ := 64
def showStyle : ByteString := ascii "showfmt"
def boldStyle : ByteString := ascii "bold"
def italicStyle : ByteString := ascii "italic"
def underlineStyle : ByteString := ascii "underline"
def underlineShortStyle : ByteString := ascii "uline"
def inverseStyle : ByteString := ascii "inverse"

/-! ### From external text -/

/-- `text::to_string` of an `UnsignedInt8`, which `lexical_cast` takes for a character. -/
def byteToString (b : UInt8) : ByteString := [b]

/-- A flag of a style, in the markup of a style with or without an entry so far. -/
def appendFlag (flag : Bool) (name : ByteString) (entries : Bool × ByteString) :
    Bool × ByteString :=
  if flag then (true, entries.2 ++ (if entries.1 then styleSep else []) ++ name) else entries

/-- The colour of a style: whether there is an entry for it, and the entry. -/
def colorEntry (style : TextStyle) : Bool × ByteString :=
  match style.color with
  | .default => (false, [])
  | .custom => (true, byteToString style.red ++ styleSep ++ byteToString style.green ++ styleSep ++
      byteToString style.blue)
  | color => (true, colorToString color ++ styleSep)

/-- What is between the tokens of a style.  There is nothing for inverse text. -/
def styleEntries (style : TextStyle) : ByteString :=
  (appendFlag style.underline (ascii "underline")
    (appendFlag style.italic (ascii "italic")
      (appendFlag style.bold (ascii "bold") (colorEntry style)))).2

/-- `from_external(item)`, `idToString` being `Id::to_string(false)`. -/
def fromExternalItem (idToString : DbTypes.Id → ByteString) : ExternalText → ByteString
  | .plainText text => text
  | .formattedText text style =>
    openStyle ++ styleEntries style ++ closeStyle ++ text ++ openStyle ++ closeStyle
  | .url urlType urlText urlName =>
    openUrl ++ urlText ++
      (if urlName = [] then []
       else ascii " " ++ urlSep ++ ascii " " ++ urlName ++ ascii " " ++ urlSep ++ ascii " " ++
        urlTypeToString urlType) ++ closeUrl
  | .id dbId dbIdName _ => dbIdName ++ ascii "(" ++ idToString dbId ++ ascii ")"

def fromExternal (idToString : DbTypes.Id → ByteString) (line : ExternalTextLine) : ByteString :=
  line.flatMap (fromExternalItem idToString)

/-! ### The state of the parser -/

/-- The element that text is appended to: plain, or with a style. -/
structure TextSegment where
  text : ByteString
  style : Option TextStyle
  deriving DecidableEq

namespace TextSegment

def toExternalText (segment : TextSegment) : ExternalText :=
  match segment.style with
  | none => .plainText segment.text
  | some style => .formattedText segment.text style

/-- `append_text` -/
def append (segment : TextSegment) (text : ByteString) : TextSegment :=
  { segment with text := segment.text ++ text }

end TextSegment

/-- `ParserStateMachine`, with the output.  What it keeps of a URL is used within one
call only and is not here. -/
structure ParserStateMachine where
  textPtr : Option TextSegment
  /-- The text from `pos` on. -/
  rest : ByteString
  inStyle : Bool
  style : TextStyle
  output : ExternalTextLine

namespace ParserStateMachine

variable (state : ParserStateMachine)

def outputString (text : ByteString) : ParserStateMachine :=
  { state with textPtr := state.textPtr.map (·.append text) }

def outputSubstring (len : ℕ) : ParserStateMachine :=
  if len = 0 then state
  else { state.outputString (state.rest.take len) with rest := state.rest.drop len }

/-- `add_text_segment`: an element with nothing in it is not added. -/
def addTextSegment : ParserStateMachine :=
  match state.textPtr with
  | none => state
  | some segment =>
    { state with
      textPtr := none
      output := if segment.text = [] then state.output
        else state.output ++ [segment.toExternalText] }

def newTextSegment : ParserStateMachine :=
  match state.textPtr with
  | some _ => state
  | none =>
    { state with textPtr := some ⟨[], if state.inStyle then some state.style else none⟩ }

/-! ### Styles -/

end ParserStateMachine

def isDigit (c : UInt8) : Bool := 48 ≤ c && c ≤ 57

/-- `from_string<UnsignedInt8>`, which `lexical_cast` reads as a character. -/
def byteFromString : ByteString → Option UInt8
  | [b] => some b
  | _ => none

/-- The variables of the loop over the parameters of a style. -/
structure StyleParse where
  color : Color
  red : UInt8
  green : UInt8
  blue : UInt8
  colorIndex : ℕ
  bold : Bool
  italic : Bool
  underline : Bool
  inverse : Bool
  badFormat : Bool
  /-- Where `showfmt_iter` is, if not at the end. -/
  showfmtIter : Option ℕ
  deriving DecidableEq

namespace StyleParse

def new : StyleParse where
  color := .endInvalid
  red := 0
  green := 0
  blue := 0
  colorIndex := 0
  bold := false
  italic := false
  underline := false
  inverse := false
  badFormat := false
  showfmtIter := none

variable (p : StyleParse)

/-- A parameter that begins with a digit. -/
def number (entry : ByteString) : StyleParse :=
  match p.color, byteFromString entry with
  | .endInvalid, some value =>
    { p with red := value, color := .custom, colorIndex := p.colorIndex + 1 }
  | .custom, some value =>
    if p.colorIndex = 1 then { p with green := value, colorIndex := 2 }
    else if p.colorIndex = 2 then { p with blue := value, colorIndex := 3 }
    else { p with badFormat := true }
  | _, _ => { p with badFormat := true }

/-- A parameter that does not, the one at `index`. -/
def word (index : ℕ) (entry : ByteString) : StyleParse :=
  if entry = boldStyle then { p with bold := true }
  else if entry = italicStyle then { p with italic := true }
  else if entry = underlineStyle ∨ entry = underlineShortStyle then { p with underline := true }
  else if entry = inverseStyle then { p with inverse := true }
  else if entry = showStyle then
    -- It is meant to be allowed once, but there is none before the first one.
    if p.showfmtIter.isSome then { p with showfmtIter := some index }
    else { p with badFormat := true }
  else if stringToColor entry ≠ .endInvalid then
    if p.color = .endInvalid then { p with color := stringToColor entry }
    else { p with badFormat := true }
  else p

/-- The body of the loop. -/
def parameter (index : ℕ) : ByteString → StyleParse
  | [] => p
  | c :: entry => if isDigit c then p.number (c :: entry) else p.word index (c :: entry)

/-- The loop, from the parameter at `index` on. -/
def parameters (p : StyleParse) (index : ℕ) : List ByteString → StyleParse
  | [] => p
  | entry :: entries =>
    if p.badFormat then p else (p.parameter index entry).parameters (index + 1) entries

/-- The style that has been parsed. -/
def style : TextStyle where
  bold := p.bold
  italic := p.italic
  underline := p.underline
  inverse := p.inverse
  color := p.color
  red := p.red
  green := p.green
  blue := p.blue

/-- Nothing has been parsed: the tag is a reset. -/
def isReset : Bool :=
  p.color = .endInvalid && !p.bold && !p.italic && !p.underline && !p.inverse

end StyleParse

namespace ParserStateMachine

variable (state : ParserStateMachine)

/-- The loop that writes the parameters again. -/
def outputParams (state : ParserStateMachine) : Bool → List ByteString → ParserStateMachine
  | _, [] => state
  | firstEntry, entry :: entries =>
    let state := state.outputString entry
    let state := if firstEntry then state else state.outputString styleSep
    state.outputParams false entries

/-- `convert_style`, once the parameters are known.  `endStyleIndex` is that of the
closing token. -/
def applyStyle (endStyleIndex : ℕ) (styleParams : List ByteString) : ParserStateMachine :=
  let p := StyleParse.new.parameters 0 styleParams
  if p.badFormat then state.outputSubstring openStyle.length
  else match p.showfmtIter with
  | some index =>
    let state := { state with rest := state.rest.drop (endStyleIndex + 1) }.outputString openStyle
    (state.outputParams true (styleParams.eraseIdx index)).outputString closeStyle
  | none =>
    if p.isReset then
      { state.addTextSegment with inStyle := false, rest := state.rest.drop (endStyleIndex + 1) }
    else
      { state.addTextSegment with
        inStyle := true
        style := p.style
        textPtr := some ⟨[], some p.style⟩
        rest := state.rest.drop (endStyleIndex + 1) }

def convertStyle : ParserStateMachine :=
  match (find closeStyle (state.rest.drop openStyle.length)).map (· + openStyle.length) with
  | none => state.outputSubstring openStyle.length
  | some endStyleIndex =>
    if endStyleIndex = openStyle.length then
      -- A reset, if there is a style to be reset.
      if (state.textPtr.bind (·.style)).isSome then
        { state.addTextSegment with
          inStyle := false, rest := state.rest.drop (endStyleIndex + closeStyle.length) }
      else { state.outputSubstring openStyle.length with inStyle := false }
    else if maxStyleSize < endStyleIndex then state.outputSubstring openStyle.length
    else state.applyStyle endStyleIndex
      (splitString (state.rest.drop openStyle.length) (endStyleIndex - openStyle.length) styleSep 0
        false)

/-! ### URLs -/

/-- The element of a URL, if its parameters are those of one. -/
def urlOf : List ByteString → Option ExternalText
  | [] => none
  | urlText :: params =>
    let urlName := params.head?.getD []
    let urlType := match params with
      | _ :: urlType :: _ => stringToUrlType urlType
      | _ => .page
    if urlType = .endInvalid then none
    else some (.url urlType urlText (if urlName = [] then urlText else urlName))

/-- The shortcut for something like `[[[[`, or for what is too short. -/
def isUrlShortcut (rest : ByteString) : Bool :=
  rest.length ≤ openUrl.length + closeUrl.length ||
    (openUrl.length + 1 < rest.length && rest[openUrl.length + 1]? = some openUrlLit)

/-- Whether the brackets are tripled, those that close it being at `endBracketIndex`. -/
def isTripled (rest : ByteString) (endBracketIndex : ℕ) : Bool :=
  rest[openUrl.length]? = some openUrlLit &&
    endBracketIndex + closeUrl.length < rest.length &&
    rest[openUrl.length + 1]? ≠ some openUrlLit &&
    rest[endBracketIndex + closeUrl.length]? = some closeUrlLit

/-- The parameters of a URL. -/
def urlParams (rest : ByteString) (endBracketIndex : ℕ) : List ByteString :=
  splitString (rest.drop openUrl.length) (endBracketIndex - openUrl.length) urlSep maxUrlParams true

def convertUrl : ParserStateMachine :=
  if isUrlShortcut state.rest then state.outputSubstring openUrl.length
  else match find closeUrl state.rest with
  | none => state.outputSubstring openUrl.length
  | some endBracketIndex =>
    if isTripled state.rest endBracketIndex then
      -- The extra character is stripped off at both ends.  There is an element to append
      -- to: `newTextSegment` comes before every token.
      let literal := (state.rest.take endBracketIndex).drop (openUrl.length + 1)
      { state.outputString (openUrl ++ literal ++ closeUrl) with
        rest := state.rest.drop (endBracketIndex + closeUrl.length + 1) }
    else match urlOf (urlParams state.rest endBracketIndex) with
    | some url =>
      { state.addTextSegment with
        output := state.addTextSegment.output ++ [url]
        rest := state.rest.drop (endBracketIndex + closeUrl.length) }
    | none =>
      -- The position is past the opening token already.
      { state with rest := state.rest.drop openUrl.length }.outputSubstring openUrl.length

/-! ### To external text -/

/-- The body of the loop at a style, at `styleIndex`. -/
def atStyle (styleIndex : ℕ) : ParserStateMachine :=
  ((state.outputSubstring styleIndex).convertStyle).newTextSegment

/-- The body of the loop at a URL, at `urlIndex`. -/
def atUrl (urlIndex : ℕ) : ParserStateMachine :=
  ((state.outputSubstring urlIndex).convertUrl).newTextSegment

/-- The body of the loop, if a token is found. -/
def step : Option ParserStateMachine :=
  match find openStyle state.rest, find openUrl state.rest with
  | none, none => none
  | some styleIndex, none => some (state.atStyle styleIndex)
  | none, some urlIndex => some (state.atUrl urlIndex)
  | some styleIndex, some urlIndex =>
    if styleIndex ≤ urlIndex then some (state.atStyle styleIndex) else some (state.atUrl urlIndex)

/-- What is done when no token is found. -/
def finish : ExternalTextLine :=
  (state.outputSubstring state.rest.length).addTextSegment.output

/-! ### Every token takes the parser further -/

variable {state}

@[simp] theorem outputString_rest (text : ByteString) :
    (state.outputString text).rest = state.rest := rfl

@[simp] theorem outputSubstring_rest (len : ℕ) :
    (state.outputSubstring len).rest = state.rest.drop len := by
  unfold outputSubstring
  split
  · rename_i hlen
    rw [hlen, List.drop_zero]
  · rfl

@[simp] theorem addTextSegment_rest : state.addTextSegment.rest = state.rest := by
  unfold addTextSegment
  split <;> rfl

@[simp] theorem newTextSegment_rest : state.newTextSegment.rest = state.rest := by
  unfold newTextSegment
  split <;> rfl

@[simp] theorem outputParams_rest (firstEntry : Bool) (entries : List ByteString) :
    (state.outputParams firstEntry entries).rest = state.rest := by
  induction entries generalizing state firstEntry with
  | nil => rfl
  | cons entry entries ih =>
    rw [outputParams, ih]
    cases firstEntry <;> rfl

theorem exists_applyStyle_rest (endStyleIndex : ℕ) (styleParams : List ByteString) :
    ∃ n, 0 < n ∧ (state.applyStyle endStyleIndex styleParams).rest = state.rest.drop n := by
  unfold applyStyle
  simp only []
  split
  · exact ⟨openStyle.length, by decide, by simp⟩
  · split
    · exact ⟨endStyleIndex + 1, by omega, by simp⟩
    · split
      · exact ⟨endStyleIndex + 1, by omega, rfl⟩
      · exact ⟨endStyleIndex + 1, by omega, rfl⟩

theorem exists_convertStyle_rest : ∃ n, 0 < n ∧ state.convertStyle.rest = state.rest.drop n := by
  unfold convertStyle
  split
  · exact ⟨openStyle.length, by decide, by simp⟩
  · split
    · split
      · exact ⟨_ + closeStyle.length, Nat.lt_add_left _ (by decide), rfl⟩
      · exact ⟨openStyle.length, by decide, by simp⟩
    · split
      · exact ⟨openStyle.length, by decide, by simp⟩
      · exact exists_applyStyle_rest _ _

theorem exists_convertUrl_rest : ∃ n, 0 < n ∧ state.convertUrl.rest = state.rest.drop n := by
  unfold convertUrl
  split
  · exact ⟨openUrl.length, by decide, by simp⟩
  · split
    · exact ⟨openUrl.length, by decide, by simp⟩
    · split
      · exact ⟨_ + closeUrl.length + 1, by omega, rfl⟩
      · split
        · exact ⟨_ + closeUrl.length, Nat.lt_add_left _ (by decide), rfl⟩
        · exact ⟨openUrl.length + openUrl.length, by decide, by simp⟩

theorem rest_ne_nil_of_find {token : ByteString} {i : ℕ} (htoken : token ≠ [])
    (h : find token state.rest = some i) : i < state.rest.length := by
  obtain ⟨w, t, hw, hs⟩ := exists_of_find h
  have hpos := List.length_pos_of_ne_nil htoken
  rw [hs, List.length_append, List.length_append]
  omega

theorem atStyle_rest_lt {styleIndex : ℕ} (h : find openStyle state.rest = some styleIndex) :
    (state.atStyle styleIndex).rest.length < state.rest.length := by
  have hlt := rest_ne_nil_of_find (by decide) h
  obtain ⟨n, hn, hrest⟩ := (state.outputSubstring styleIndex).exists_convertStyle_rest
  rw [atStyle, newTextSegment_rest, hrest, outputSubstring_rest, List.drop_drop, List.length_drop]
  omega

theorem atUrl_rest_lt {urlIndex : ℕ} (h : find openUrl state.rest = some urlIndex) :
    (state.atUrl urlIndex).rest.length < state.rest.length := by
  have hlt := rest_ne_nil_of_find (by decide) h
  obtain ⟨n, hn, hrest⟩ := (state.outputSubstring urlIndex).exists_convertUrl_rest
  rw [atUrl, newTextSegment_rest, hrest, outputSubstring_rest, List.drop_drop, List.length_drop]
  omega

/-- **Every token takes the parser further.** -/
theorem step_rest_lt {state' : ParserStateMachine} (h : state.step = some state') :
    state'.rest.length < state.rest.length := by
  unfold step at h
  split at h
  · cases h
  · rename_i hstyle hurl
    cases h
    exact atStyle_rest_lt hstyle
  · rename_i hstyle hurl
    cases h
    exact atUrl_rest_lt hurl
  · rename_i hstyle hurl
    split at h
    · cases h
      exact atStyle_rest_lt hstyle
    · cases h
      exact atUrl_rest_lt hurl

/-- The loop of `to_external`. -/
def loop (state : ParserStateMachine) : ExternalTextLine :=
  match _h : state.step with
  | none => state.finish
  | some state' => state'.loop
termination_by state.rest.length
decreasing_by exact step_rest_lt _h

/-- The state of the parser before the loop. -/
def new (text : ByteString) : ParserStateMachine :=
  { textPtr := none
    rest := text
    inStyle := false
    style := ⟨false, false, false, false, .default, 0, 0, 0⟩
    output := [] : ParserStateMachine }.newTextSegment

end ParserStateMachine

def toExternal (text : ByteString) : ExternalTextLine := (ParserStateMachine.new text).loop

end Mutgos.Text
