import Mutgos.Text.MarkupPieces

/-!
# Styles in markup

A style is written as a tag with its colour and its flags, the text, and a reset.  Not
all of it comes back: inverse text and the default colour are not written at all, the
intensities of a custom colour are written and read as characters, and the last entry
of a tag is lost if there is a separator anywhere after the tag.

## Main results

* `nextPiece_style_iff` — **a tag is read as the style it was written for exactly when
  that is one that is read back.**
-/

namespace Mutgos.Text

open ParserStateMachine List

/-! ### The entries of a tag -/

/-- The names of the flags that are written. -/
def flagTokens (style : TextStyle) : List ByteString :=
  (if style.bold then [boldStyle] else []) ++ (if style.italic then [italicStyle] else []) ++
    (if style.underline then [underlineStyle] else [])

/-- What is written for the colour.  After a named one comes a separator of its own. -/
def colorTokens (style : TextStyle) : List ByteString :=
  match style.color with
  | .default => []
  | .custom => [[style.red], [style.green], [style.blue]]
  | color => [colorToString color, []]

/-- The entries of the tag of a style. -/
def styleTokens (style : TextStyle) : List ByteString := colorTokens style ++ flagTokens style

/-- One more token. -/
theorem intercalate_concat (sep : ByteString) (tokens : List ByteString) (token : ByteString) :
    sep.intercalate (tokens ++ [token]) =
      sep.intercalate tokens ++ (if !tokens.isEmpty then sep else []) ++ token := by
  induction tokens with
  | nil => simp
  | cons first tokens ih =>
    cases tokens with
    | nil => simp
    | cons second tokens =>
      rw [isEmpty_cons] at ih ⊢
      rw [cons_append, cons_append, intercalate_cons_cons, ← cons_append, ih,
        intercalate_cons_cons]
      simp only [append_assoc]

/-- A flag that is set has a token of its own. -/
theorem appendFlag_eq (flag : Bool) (name : ByteString) (tokens : List ByteString) :
    appendFlag flag name (!tokens.isEmpty, styleSep.intercalate tokens) =
      (!(tokens ++ if flag then [name] else []).isEmpty,
        styleSep.intercalate (tokens ++ if flag then [name] else [])) := by
  cases flag with
  | false => simp [appendFlag]
  | true =>
    rw [if_pos rfl, intercalate_concat]
    simp [appendFlag]

theorem colorEntry_eq (style : TextStyle) :
    colorEntry style =
      (!(colorTokens style).isEmpty, styleSep.intercalate (colorTokens style)) := by
  rw [colorEntry, colorTokens]
  cases style.color <;> rfl

theorem styleEntries_eq (style : TextStyle) :
    styleEntries style = styleSep.intercalate (styleTokens style) := by
  have htokens : colorTokens style ++ (if style.bold then [boldStyle] else []) ++
      (if style.italic then [italicStyle] else []) ++
      (if style.underline then [underlineStyle] else []) = styleTokens style := by
    rw [styleTokens, flagTokens, append_assoc, append_assoc, ← append_assoc (ite _ _ _)]
  rw [styleEntries, colorEntry_eq, appendFlag_eq, appendFlag_eq, appendFlag_eq, ← htokens]
  rfl

/-- The entries that `split_string` gives: not the last one if it is empty, or if there
is a separator in what follows. -/
def keptTokens (commaAfter : Bool) : List ByteString → List ByteString
  | [] => []
  | [token] => if token = [] || commaAfter then [] else [token]
  | token :: tokens => token :: keptTokens commaAfter tokens

theorem find_singleton_cons (c d : UInt8) (s : ByteString) :
    find [c] (d :: s) = if c = d then some 0 else (find [c] s).map (· + 1) := by
  rw [find]
  simp

theorem find_singleton_isSome (c : UInt8) (s : ByteString) :
    (find [c] s).isSome = decide (c ∈ s) := by
  induction s with
  | nil => rfl
  | cons d s ih =>
    rw [find_singleton_cons]
    by_cases hcd : c = d
    · simp [hcd]
    · rw [if_neg hcd, Option.isSome_map, ih]
      simp [hcd]

/-- **Which entries are read.** -/
theorem splitPieces_intercalate {tokens result : List ByteString} {s : ByteString}
    (hne : tokens ≠ []) (htokens : ∀ token ∈ tokens, 44 ∉ token) :
    splitPieces styleSep (by decide) 0 false result (styleSep.intercalate tokens ++ s)
        (styleSep.intercalate tokens).length =
      result ++ (keptTokens (decide (44 ∈ s)) tokens).map trimCopy := by
  induction tokens generalizing result with
  | nil => exact absurd rfl hne
  | cons token tokens ih =>
    obtain ⟨htoken, htokens⟩ := forall_mem_cons.mp htokens
    cases tokens with
    | nil =>
      rw [intercalate_singleton, keptTokens]
      by_cases hempty : token = []
      · subst hempty
        rw [splitPieces]
        simp
      · have hlast := @splitPieces_last 44 [] 0 false result token s htoken hempty (.inl rfl)
        rw [find_singleton_isSome] at hlast
        refine hlast.trans ?_
        by_cases hcomma : 44 ∈ s <;> simp [hcomma, hempty]
    | cons token' tokens =>
      have hcons : styleSep.intercalate (token :: token' :: tokens) =
          token ++ (styleSep ++ styleSep.intercalate (token' :: tokens)) := by
        simp [intercalate_cons_cons]
      have hstep := @splitPieces_append 44 [] 0 false result token
        (styleSep.intercalate (token' :: tokens) ++ s)
        (styleSep.intercalate (token' :: tokens)).length htoken (.inl rfl)
      rw [hcons, length_append, length_append, append_assoc, append_assoc]
      refine hstep.trans ?_
      refine (ih (by simp) htokens).trans ?_
      simp [keptTokens]

variable {commaAfter : Bool} {c : UInt8}

theorem keptTokens_append (tokens : List ByteString) {tokens' : List ByteString}
    (hne : tokens' ≠ []) :
    keptTokens commaAfter (tokens ++ tokens') = tokens ++ keptTokens commaAfter tokens' := by
  induction tokens with
  | nil => rfl
  | cons token tokens ih =>
    obtain ⟨token', rest, hcons⟩ := exists_cons_of_ne_nil
      (show tokens ++ tokens' ≠ [] by simp [hne])
    rw [cons_append, hcons, keptTokens, ← hcons, ih, cons_append]
    simp

theorem keptTokens_subset (commaAfter : Bool) (tokens : List ByteString) :
    ∀ token ∈ keptTokens commaAfter tokens, token ∈ tokens := by
  induction tokens with
  | nil => simp [keptTokens]
  | cons token tokens ih =>
    cases tokens with
    | nil =>
      rw [keptTokens]
      split <;> simp
    | cons token' tokens =>
      intro x hx
      rw [keptTokens] at hx
      · obtain rfl | hx := mem_cons.mp hx
        · exact mem_cons_self
        · exact mem_cons_of_mem _ (ih x hx)
      · simp

/-- The parameters of a tag are the entries that are kept. -/
theorem splitString_intercalate {tokens : List ByteString} (hne : styleSep.intercalate tokens ≠ [])
    (htokens : ∀ token ∈ tokens, 44 ∉ token ∧ trimCopy token = token) (tail : ByteString) :
    splitString (styleSep.intercalate tokens ++ tail) (styleSep.intercalate tokens).length styleSep
      0 false = keptTokens (decide (44 ∈ tail)) tokens := by
  have hmin : min (styleSep.intercalate tokens).length
      (styleSep.intercalate tokens ++ tail).length = (styleSep.intercalate tokens).length := by
    rw [length_append]
    omega
  have hnil : ¬(styleSep.intercalate tokens ++ tail = [] ∨
      (styleSep.intercalate tokens).length = 0) := by
    simp [hne]
  have htokensNe : tokens ≠ [] := by
    rintro rfl
    exact hne rfl
  rw [splitString, dif_neg (by decide), if_neg hnil, hmin,
    splitPieces_intercalate htokensNe fun token h => (htokens token h).1, nil_append]
  refine (map_congr_left ?_).trans (map_id _)
  intro token htoken
  exact (htokens token (keptTokens_subset _ _ token htoken)).2

/-! ### Reading the entries -/

/-- The bytes that are read back as an intensity, or are none. -/
def Clean (c : UInt8) : Prop := c = 0 ∨ isDigit c = true

namespace StyleParse

variable {p : StyleParse}

theorem parameters_append (xs ys : List ByteString) (index : ℕ) :
    p.parameters index (xs ++ ys) =
      (p.parameters index xs).parameters (index + xs.length) ys := by
  induction xs generalizing p index with
  | nil => rfl
  | cons entry xs ih =>
    rw [cons_append, parameters, parameters]
    by_cases hbad : p.badFormat = true
    · rw [if_pos hbad, if_pos hbad]
      cases ys with
      | nil => rfl
      | cons entry' ys => rw [parameters, if_pos hbad]
    · rw [if_neg hbad, if_neg hbad, ih, length_cons, Nat.add_assoc, Nat.add_comm 1]

/-- The intensities have been read from digits, if at all. -/
theorem parameters_clean (hred : Clean p.red) (hgreen : Clean p.green) (hblue : Clean p.blue)
    (index : ℕ) (entries : List ByteString) :
    let q := p.parameters index entries
    Clean q.red ∧ Clean q.green ∧ Clean q.blue := by
  induction entries generalizing p index with
  | nil => exact ⟨hred, hgreen, hblue⟩
  | cons entry entries ih =>
    rw [parameters]
    split
    · exact ⟨hred, hgreen, hblue⟩
    · refine ih ?_ ?_ ?_ _ <;>
      · cases entry with
        | nil => assumption
        | cons c entry =>
          rw [parameter]
          split
          · unfold number
            cases entry <;> grind [byteFromString, Clean]
          · unfold word
            grind

theorem parameter_zero (index : ℕ) : p.parameter index [0] = p := rfl

theorem parameter_digit {c : UInt8} (hc : isDigit c = true) (index : ℕ) :
    p.parameter index [c] = p.number [c] := by
  rw [parameter, if_pos hc]

/-- The flags that are read: all of them, but for the last one if there is a separator
after the tag. -/
theorem parameters_flagTokens (hbad : p.badFormat = false) (hbold : p.bold = false)
    (hitalic : p.italic = false) (hunderline : p.underline = false) (index : ℕ)
    (commaAfter : Bool) (style : TextStyle) :
    let q := p.parameters index (keptTokens commaAfter (flagTokens style))
    q.badFormat = false ∧ q.color = p.color ∧ q.red = p.red ∧ q.green = p.green ∧
      q.blue = p.blue ∧ q.inverse = p.inverse ∧
      (q.bold = style.bold ∧ q.italic = style.italic ∧ q.underline = style.underline ↔
        (commaAfter = true → flagTokens style = [])) := by
  have hboldEntry : ∀ (p : StyleParse) i, p.parameter i boldStyle = { p with bold := true } :=
    fun _ _ => rfl
  have hitalicEntry : ∀ (p : StyleParse) i,
      p.parameter i italicStyle = { p with italic := true } := fun _ _ => rfl
  have hunderlineEntry : ∀ (p : StyleParse) i,
      p.parameter i underlineStyle = { p with underline := true } := fun _ _ => rfl
  have hne : boldStyle ≠ [] ∧ italicStyle ≠ [] ∧ underlineStyle ≠ [] := by decide
  obtain ⟨bold, italic, underline, inverse, color, red, green, blue⟩ := style
  cases bold <;> cases italic <;> cases underline <;> cases commaAfter <;>
    simp [flagTokens, keptTokens, parameters, hboldEntry, hitalicEntry, hunderlineEntry, hne,
      hbad, hbold, hitalic, hunderline]

end StyleParse

theorem isDigit_zero : isDigit 0 = false := rfl

theorem ne_zero_of_isDigit (h : isDigit c = true) : c ≠ 0 := by
  intro hc
  rw [hc] at h
  cases h

/-- The intensities of a custom colour, all three of them or the first two. -/
theorem parameters_intensities {red green blue : UInt8} (hred : Clean red) (hgreen : Clean green)
    (hblue : Clean blue) (last : Bool) :
    let p := StyleParse.new.parameters 0 ([red] :: [green] :: (if last then [[blue]] else []))
    (p.badFormat = false ∧ p.bold = false ∧ p.italic = false ∧ p.underline = false ∧
      p.inverse = false) ∧
    ((p.color = .custom ∧ p.red = red ∧ p.green = green ∧ p.blue = blue) ↔
      (last = false → blue = 0) ∧ isDigit red = true ∧ (green = 0 → blue = 0)) := by
  obtain rfl | hr := hred <;> obtain rfl | hg := hgreen <;> obtain rfl | hb := hblue <;>
    cases last <;>
    simp [StyleParse.parameters, StyleParse.parameter_zero, StyleParse.parameter_digit,
      StyleParse.number, byteFromString, StyleParse.new, isDigit_zero, *] <;>
    grind [ne_zero_of_isDigit]

/-- What is read of the colour of a style. -/
def colorParse (commaAfter : Bool) (style : TextStyle) : StyleParse :=
  StyleParse.new.parameters 0
    (if flagTokens style = [] then keptTokens commaAfter (colorTokens style) else colorTokens style)

/-- A style whose colour is read back, where its flags are. -/
def ReadsBackColor (commaAfter : Bool) (style : TextStyle) : Prop :=
  match style.color with
  | .default | .endInvalid => False
  | .custom => (commaAfter = true → style.blue = 0) ∧ isDigit style.red = true ∧
      Clean style.green ∧ Clean style.blue ∧ (style.green = 0 → style.blue = 0)
  | _ => style.red = 0 ∧ style.green = 0 ∧ style.blue = 0

/-- **The styles that are read back from their tags.** -/
def ReadsBack (commaAfter : Bool) (style : TextStyle) : Prop :=
  style.inverse = false ∧
    (commaAfter = true →
      style.bold = false ∧ style.italic = false ∧ style.underline = false) ∧
    ReadsBackColor commaAfter style

theorem flagTokens_eq_nil_iff {style : TextStyle} : flagTokens style = [] ↔
    style.bold = false ∧ style.italic = false ∧ style.underline = false := by
  obtain ⟨bold, italic, underline, inverse, color, red, green, blue⟩ := style
  cases bold <;> cases italic <;> cases underline <;> simp [flagTokens]

/-- The intensities of the style, if it has any, are clean. -/
def CleanColor (style : TextStyle) : Prop :=
  style.color = .custom → Clean style.red ∧ Clean style.green ∧ Clean style.blue

/-- A colour with a name is read. -/
theorem colorParse_named (commaAfter : Bool) {style : TextStyle} (hdefault : style.color ≠ .default)
    (hcustom : style.color ≠ .custom) :
    colorParse commaAfter style = { StyleParse.new with color := style.color } := by
  obtain ⟨bold, italic, underline, inverse, color, red, green, blue⟩ := style
  cases color
  case default => exact absurd rfl hdefault
  case custom => exact absurd rfl hcustom
  all_goals
    simp only [colorParse, colorTokens, keptTokens]
    split <;> rfl

/-- The colour is read as something, and nothing else is. -/
theorem colorParse_flags (commaAfter : Bool) {style : TextStyle} (hclean : CleanColor style) :
    let p := colorParse commaAfter style
    p.badFormat = false ∧ p.bold = false ∧ p.italic = false ∧ p.underline = false ∧
      p.inverse = false := by
  obtain ⟨bold, italic, underline, inverse, color, red, green, blue⟩ := style
  cases color
  case custom =>
    obtain ⟨hred, hgreen, hblue⟩ := hclean rfl
    have hboth := fun last => (parameters_intensities hred hgreen hblue last).1
    simp only [colorParse, colorTokens, keptTokens]
    split
    · cases commaAfter
      · exact hboth true
      · exact hboth false
    · exact hboth true
  all_goals
    simp only [colorParse, colorTokens, keptTokens]
    split <;> exact ⟨rfl, rfl, rfl, rfl, rfl⟩

/-- Which colours are read back. -/
theorem colorParse_iff {style : TextStyle} (hinvalid : style.color ≠ .endInvalid)
    (hclean : CleanColor style) (hcomma : commaAfter = true → flagTokens style = []) :
    let p := colorParse commaAfter style
    (p.color = style.color ∧ p.red = style.red ∧ p.green = style.green ∧ p.blue = style.blue) ↔
      ReadsBackColor commaAfter style := by
  obtain ⟨bold, italic, underline, inverse, color, red, green, blue⟩ := style
  cases color
  case custom =>
    obtain ⟨hred, hgreen, hblue⟩ := hclean rfl
    have hboth := fun last => (parameters_intensities hred hgreen hblue last).2
    simp only [colorParse, colorTokens, keptTokens, ReadsBackColor]
    split
    · cases commaAfter
      · refine (hboth true).trans ?_
        simp [hgreen, hblue]
      · refine (hboth false).trans ?_
        simp [hgreen, hblue]
    · rename_i hflags
      have hfalse : commaAfter = false := by
        by_contra htrue
        exact hflags (hcomma (by simpa using htrue))
      refine (hboth true).trans ?_
      simp [hgreen, hblue, hfalse]
  case default =>
    simp only [colorParse, colorTokens, keptTokens, ReadsBackColor]
    split <;> simp [StyleParse.parameters, StyleParse.new]
  case endInvalid => exact absurd rfl hinvalid
  all_goals
    rw [colorParse_named commaAfter (by simp) (by simp)]
    simp [StyleParse.new, ReadsBackColor, eq_comm]

/-! ### Reading a tag -/

/-- What is read of the tag of a style. -/
def styleParse (commaAfter : Bool) (style : TextStyle) : StyleParse :=
  StyleParse.new.parameters 0 (keptTokens commaAfter (styleTokens style))

theorem styleParse_eq (commaAfter : Bool) (style : TextStyle) : ∃ index,
    styleParse commaAfter style =
      (colorParse commaAfter style).parameters index (keptTokens commaAfter (flagTokens style)) := by
  unfold styleParse colorParse styleTokens
  by_cases hflags : flagTokens style = []
  · refine ⟨0, ?_⟩
    rw [if_pos hflags, hflags, append_nil, keptTokens, StyleParse.parameters]
  · rw [keptTokens_append _ hflags, if_neg hflags, StyleParse.parameters_append]
    exact ⟨_, rfl⟩

/-- **The entries are read as the style they were written for exactly when that is one
that is read back.** -/
theorem styleParse_iff {style : TextStyle} (hinvalid : style.color ≠ .endInvalid)
    (hclean : CleanColor style) :
    (styleParse commaAfter style).badFormat = false ∧
      ((styleParse commaAfter style).style = style ↔ ReadsBack commaAfter style) := by
  obtain ⟨index, heq⟩ := styleParse_eq commaAfter style
  obtain ⟨hbad, hbold, hitalic, hunderline, hinverse⟩ := colorParse_flags commaAfter hclean
  obtain ⟨hbad', hcolor', hred', hgreen', hblue', hinverse', hflags⟩ :=
    StyleParse.parameters_flagTokens hbad hbold hitalic hunderline index commaAfter style
  rw [← heq] at hbad' hcolor' hred' hgreen' hblue' hinverse' hflags
  refine ⟨hbad', ?_⟩
  have hstyle : (styleParse commaAfter style).style = style ↔
      ((styleParse commaAfter style).bold = style.bold ∧
        (styleParse commaAfter style).italic = style.italic ∧
        (styleParse commaAfter style).underline = style.underline) ∧
      style.inverse = false ∧
      ((colorParse commaAfter style).color = style.color ∧
        (colorParse commaAfter style).red = style.red ∧
        (colorParse commaAfter style).green = style.green ∧
        (colorParse commaAfter style).blue = style.blue) := by
    rw [← hcolor', ← hred', ← hgreen', ← hblue']
    rw [hinverse] at hinverse'
    obtain ⟨bold, italic, underline, inverse, color, red, green, blue⟩ := style
    simp only [StyleParse.style, TextStyle.mk.injEq, hinverse']
    grind
  rw [hstyle, hflags, ReadsBack, flagTokens_eq_nil_iff]
  constructor
  · intro ⟨hcomma, hinv, hcol⟩
    exact ⟨hinv, hcomma, (colorParse_iff hinvalid hclean
      (fun h => flagTokens_eq_nil_iff.mpr (hcomma h))).mp hcol⟩
  · intro ⟨hinv, hcomma, hcol⟩
    exact ⟨hcomma, hinv, (colorParse_iff hinvalid hclean
      (fun h => flagTokens_eq_nil_iff.mpr (hcomma h))).mpr hcol⟩

theorem trimCopy_clean (h : Clean c) : trimCopy [c] = [c] ∧ c ≠ 44 ∧ c ≠ 96 := by
  have hspace : isSpace c = false := by
    obtain rfl | hc := h
    · rfl
    · rw [isDigit, Bool.and_eq_true, decide_eq_true_eq, decide_eq_true_eq] at hc
      obtain ⟨hlow, -⟩ := hc
      rw [isSpace, Bool.or_eq_false_iff, decide_eq_false_iff_not, Bool.and_eq_false_iff,
        decide_eq_false_iff_not, decide_eq_false_iff_not]
      rw [UInt8.le_iff_toNat_le] at hlow
      refine ⟨?_, .inr ?_⟩
      · rintro rfl
        exact absurd hlow (by decide)
      · intro hhigh
        have h := Nat.le_trans hlow (UInt8.le_iff_toNat_le.mp hhigh)
        exact absurd h (by decide)
  refine ⟨by simp [trimCopy, hspace], ?_, ?_⟩ <;>
  · rintro rfl
    obtain hzero | hdigit := h <;> simp_all [isDigit]

theorem mem_flagTokens (style : TextStyle) :
    ∀ token ∈ flagTokens style, 44 ∉ token ∧ 96 ∉ token ∧ trimCopy token = token := by
  have hall : ∀ token ∈ [boldStyle, italicStyle, underlineStyle],
      (44 : UInt8) ∉ token ∧ (96 : UInt8) ∉ token ∧ trimCopy token = token := by decide
  intro token htoken
  refine hall token ?_
  simp only [flagTokens, mem_append] at htoken
  grind

/-- An entry of a clean style has no separator and no closing token in it, and no blanks
around it. -/
theorem mem_styleTokens {style : TextStyle} (hclean : CleanColor style) :
    ∀ token ∈ styleTokens style, 44 ∉ token ∧ 96 ∉ token ∧ trimCopy token = token := by
  have hcolors : ∀ token ∈ colorTokens style,
      (44 : UInt8) ∉ token ∧ (96 : UInt8) ∉ token ∧ trimCopy token = token := by
    obtain ⟨bold, italic, underline, inverse, color, red, green, blue⟩ := style
    cases color
    case custom =>
      obtain ⟨hred, hgreen, hblue⟩ := hclean rfl
      have hbyte : ∀ {c}, Clean c → (44 : UInt8) ∉ [c] ∧ (96 : UInt8) ∉ [c] ∧ trimCopy [c] = [c] := by
        intro c hc
        obtain ⟨htrim, hcomma, hclose⟩ := trimCopy_clean hc
        simp [htrim, hcomma.symm, hclose.symm]
      simp [colorTokens, hbyte hred, hbyte hgreen, hbyte hblue]
    all_goals
      simp only [colorTokens]
      decide
  intro token htoken
  obtain htoken | htoken := mem_append.mp htoken
  · exact hcolors token htoken
  · exact mem_flagTokens style token htoken

/-! ### The tag of a style in a text -/

/-- The tag that is written for a style. -/
def styleMarkup (style : TextStyle) : ByteString := openStyle ++ styleEntries style ++ closeStyle

theorem mem_intercalate {d : UInt8} {tokens : List ByteString} (h : c ∈ [d].intercalate tokens) :
    c = d ∨ ∃ token ∈ tokens, c ∈ token := by
  induction tokens with
  | nil => simp at h
  | cons token tokens ih =>
    cases tokens with
    | nil => exact .inr ⟨token, mem_cons_self, by simpa using h⟩
    | cons token' tokens =>
      rw [intercalate_cons_cons, mem_append, mem_append] at h
      obtain (h | h) | h := h
      · exact .inr ⟨token, mem_cons_self, h⟩
      · exact .inl (mem_singleton.mp h)
      · obtain hd | ⟨token'', htoken, hc⟩ := ih h
        · exact .inl hd
        · exact .inr ⟨token'', mem_cons_of_mem _ htoken, hc⟩

/-- The entries of a clean style do not close the tag. -/
theorem closeStyle_notMem {style : TextStyle} (hclean : CleanColor style) :
    96 ∉ styleEntries style := by
  intro hmem
  rw [styleEntries_eq] at hmem
  obtain hsep | ⟨token, htoken, hc⟩ := mem_intercalate hmem
  · cases hsep
  · exact (mem_styleTokens hclean token htoken).2.1 hc

theorem length_appendFlag (flag : Bool) (name : ByteString) (entries : Bool × ByteString) :
    (appendFlag flag name entries).2.length ≤ entries.2.length + (name.length + 1) := by
  have hsep : (if entries.1 then styleSep else []).length ≤ 1 := by
    split <;> decide
  rw [appendFlag]
  split
  · simp only [length_append]
    omega
  · exact Nat.le_add_right _ _

theorem length_colorEntry (style : TextStyle) : (colorEntry style).2.length ≤ 40 := by
  rw [colorEntry]
  cases style.color <;> exact Nat.le_of_ble_eq_true rfl

theorem styleEntries_length (style : TextStyle) : (styleEntries style).length ≤ 62 := by
  have hcolor := length_colorEntry style
  have hbold := length_appendFlag style.bold (ascii "bold") (colorEntry style)
  have hitalic := length_appendFlag style.italic (ascii "italic")
    (appendFlag style.bold (ascii "bold") (colorEntry style))
  have hunderline := length_appendFlag style.underline (ascii "underline")
    (appendFlag style.italic (ascii "italic")
      (appendFlag style.bold (ascii "bold") (colorEntry style)))
  have hnames : (ascii "bold").length = 4 ∧ (ascii "italic").length = 6 ∧
      (ascii "underline").length = 9 := ⟨rfl, rfl, rfl⟩
  rw [styleEntries]
  omega

theorem styleEntries_eq_nil {style : TextStyle} (h : styleEntries style = []) :
    style.color = .default := by
  obtain ⟨bold, italic, underline, inverse, color, red, green, blue⟩ := style
  cases bold <;> cases italic <;> cases underline <;> cases color <;> first | rfl | cases h

/-- What the parser makes of the tag of a clean style. -/
theorem styleTag_styleMarkup {style : TextStyle} (hinvalid : style.color ≠ .endInvalid)
    (hclean : CleanColor style) (hne : styleEntries style ≠ []) (tail : ByteString) :
    let p := styleParse (decide (44 ∈ tail)) style
    styleTag false (styleMarkup style ++ tail) =
      some (.styleTag (styleMarkup style) (if p.isReset then none else some p.style)) := by
  intro p
  have hmarkup : styleMarkup style ++ tail =
      openStyle ++ (styleEntries style ++ (closeStyle ++ tail)) := by
    simp [styleMarkup]
  have hfind : find closeStyle (styleEntries style ++ (closeStyle ++ tail)) =
      some (styleEntries style).length := by
    refine (find_append_of_not_mem (closeStyle_notMem hclean) _).trans ?_
    change Option.map _ (find closeStyle (closeStyle ++ tail)) = _
    rw [find_append, Option.map_some, Nat.zero_add]
  have hpos := length_pos_of_ne_nil hne
  have hlength := styleEntries_length style
  have hopen : openStyle.length = 2 := rfl
  have hmaximum : maxStyleSize = 64 := rfl
  have hcomma : decide (44 ∈ closeStyle ++ tail) = decide (44 ∈ tail) := by
    simp [closeStyle, ascii]
  -- The parameters are the entries that are kept.
  have hsplit : splitString (styleEntries style ++ (closeStyle ++ tail)) (styleEntries style).length
      styleSep 0 false = keptTokens (decide (44 ∈ tail)) (styleTokens style) := by
    rw [styleEntries_eq] at hne ⊢
    rw [splitString_intercalate hne fun token h =>
      ⟨(mem_styleTokens hclean token h).1, (mem_styleTokens hclean token h).2.2⟩, hcomma]
  have hbad : ¬ (StyleParse.new.parameters 0
      (keptTokens (decide (44 ∈ tail)) (styleTokens style))).badFormat = true := by
    rw [Bool.not_eq_true]
    exact (styleParse_iff hinvalid hclean).1
  have htake : (openStyle ++ (styleEntries style ++ (closeStyle ++ tail))).take
      (openStyle.length + (styleEntries style).length + closeStyle.length) = styleMarkup style := by
    rw [← append_assoc, ← append_assoc]
    exact take_left' (by simp only [length_append])
  rw [hmarkup, styleTag, drop_left, hfind]
  simp only []
  rw [if_neg (by omega), if_neg (by omega), hsplit, htake]
  exact (if_neg hbad).trans rfl

/-- Intensities that are not clean are not read. -/
theorem cleanColor_of_styleTag {inStyle : Bool} {text bytes : ByteString} {style : TextStyle}
    (h : styleTag inStyle text = some (.styleTag bytes (some style))) : CleanColor style := by
  intro _
  unfold styleTag at h
  split at h
  · cases h
  · simp only [] at h
    split at h
    · split at h <;> cases h
    · split at h
      · cases h
      · split at h
        · cases h
        · rename_i length _ _ _ _
          have hclean := StyleParse.parameters_clean (p := .new) (.inl rfl) (.inl rfl) (.inl rfl) 0
            (splitString (text.drop openStyle.length) length styleSep 0 false)
          simp only [Option.some.injEq, Piece.styleTag.injEq] at h
          obtain ⟨-, hstyle⟩ := h
          split at hstyle
          · cases hstyle
          · cases hstyle
            exact hclean

theorem cleanColor_of_readsBack {style : TextStyle} (h : ReadsBack commaAfter style) :
    CleanColor style := by
  obtain ⟨-, -, hcolor⟩ := h
  intro hcustom
  rw [ReadsBackColor, hcustom] at hcolor
  obtain ⟨-, hred, hgreen, hblue, -⟩ := hcolor
  exact ⟨.inr hred, hgreen, hblue⟩

theorem nextPiece_styleMarkup (style : TextStyle) (tail : ByteString) :
    nextPiece false (styleMarkup style ++ tail) =
      some ((styleTag false (styleMarkup style ++ tail)).getD (.copied openStyle)) := by
  rw [nextPiece, if_pos]
  rw [List.isPrefixOf_iff_prefix, styleMarkup, append_assoc, append_assoc]
  exact prefix_append _ _

theorem nextPiece_of_readsBack {style : TextStyle} (hinvalid : style.color ≠ .endInvalid)
    {tail : ByteString} (hreads : ReadsBack (decide (44 ∈ tail)) style) :
    nextPiece false (styleMarkup style ++ tail) =
      some (.styleTag (styleMarkup style) (some style)) := by
  have hclean := cleanColor_of_readsBack hreads
  have hcolor : style.color ≠ .default := by
    intro hdefault
    have h := hreads.2.2
    rw [ReadsBackColor, hdefault] at h
    exact h
  have hne : styleEntries style ≠ [] := fun h => hcolor (styleEntries_eq_nil h)
  have hstyle := (styleParse_iff hinvalid hclean).2.mpr hreads
  have hreset : (styleParse (decide (44 ∈ tail)) style).isReset = false := by
    have hcol : (styleParse (decide (44 ∈ tail)) style).color = style.color :=
      congrArg TextStyle.color hstyle
    simp [StyleParse.isReset, hcol, hinvalid]
  rw [nextPiece_styleMarkup, styleTag_styleMarkup hinvalid hclean hne]
  simp only [Option.getD_some, hreset, Bool.false_eq_true, if_false, hstyle]

/-- **A tag is read as the style it was written for exactly when that is one that is
read back.** -/
theorem nextPiece_style_iff {style : TextStyle} (hinvalid : style.color ≠ .endInvalid)
    (tail : ByteString) :
    (∃ bytes, nextPiece false (styleMarkup style ++ tail) =
      some (.styleTag bytes (some style))) ↔ ReadsBack (decide (44 ∈ tail)) style := by
  rw [nextPiece_styleMarkup]
  constructor
  · intro ⟨bytes, hpiece⟩
    rw [Option.some.injEq] at hpiece
    cases htag : styleTag false (styleMarkup style ++ tail) with
    | none =>
      rw [htag] at hpiece
      cases hpiece
    | some piece =>
      rw [htag, Option.getD_some] at hpiece
      subst hpiece
      have hclean := cleanColor_of_styleTag htag
      by_cases hne : styleEntries style = []
      · -- The tag is written as a reset, which there is none of outside of a style.
        have hmarkup : styleMarkup style ++ tail = openStyle ++ (closeStyle ++ tail) := by
          simp [styleMarkup, hne]
        rw [hmarkup, styleTag, drop_left, find_append] at htag
        cases htag
      · rw [styleTag_styleMarkup hinvalid hclean hne] at htag
        simp only [Option.some.injEq, Piece.styleTag.injEq] at htag
        obtain ⟨-, hstyle⟩ := htag
        split at hstyle
        · cases hstyle
        · exact (styleParse_iff hinvalid hclean).2.mp (Option.some.inj hstyle)
  · intro hreads
    rw [← nextPiece_styleMarkup]
    exact ⟨_, nextPiece_of_readsBack hinvalid hreads⟩

end Mutgos.Text
