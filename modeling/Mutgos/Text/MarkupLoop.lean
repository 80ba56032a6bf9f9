import Mutgos.Text.ExternalTextConverter

/-!
# The loop of the parser, byte by byte

The parser looks for the nearest token.  It is the same to go on by one byte where no
token begins, and to look at a token only where one does.

## Main results

* `loop_copy`, `loop_append` — a byte where no token begins, and a text in which none
  can.
-/

namespace Mutgos.Text

open List

theorem openStyle_eq : openStyle = [126, 96] := rfl

theorem openUrl_eq : openUrl = [91, 91] := rfl

/-- No token begins at the first byte. -/
def NoToken (text : ByteString) : Prop := ¬ openStyle <+: text ∧ ¬ openUrl <+: text

theorem not_prefix_cons {c d : UInt8} (h : d ≠ c) (token text : ByteString) :
    ¬ c :: token <+: d :: text := by
  intro hstarts
  exact h (cons_prefix_cons.mp hstarts).1.symm

/-- A token begins with one of two bytes only. -/
theorem noToken_cons {c : UInt8} (hstyle : c ≠ 126) (hurl : c ≠ 91) (text : ByteString) :
    NoToken (c :: text) :=
  ⟨not_prefix_cons hstyle _ text, not_prefix_cons hurl _ text⟩

theorem not_openUrl_of_openStyle {text : ByteString} (h : openStyle <+: text) :
    ¬ openUrl <+: text := by
  obtain ⟨rest, rfl⟩ := h
  exact not_prefix_cons (by decide) _ _

namespace TextSegment

@[simp] theorem append_nil (segment : TextSegment) : segment.append [] = segment := by
  simp [append]

@[simp] theorem append_append (segment : TextSegment) (v w : ByteString) :
    (segment.append v).append w = segment.append (v ++ w) := by
  simp [append]

@[simp] theorem append_text (segment : TextSegment) (w : ByteString) :
    (segment.append w).text = segment.text ++ w := rfl

/-- The element, if there is something in it. -/
def flush (segment : TextSegment) : ExternalTextLine :=
  if segment.text = [] then [] else [segment.toExternalText]

theorem flush_of_ne_nil {segment : TextSegment} (h : segment.text ≠ []) :
    segment.flush = [segment.toExternalText] := if_neg h

/-- An element is known by its text and its style. -/
theorem toExternalText_inj {segment segment' : TextSegment} :
    segment.toExternalText = segment'.toExternalText ↔ segment = segment' := by
  obtain ⟨text, style⟩ := segment
  obtain ⟨text', style'⟩ := segment'
  cases style <;> cases style' <;> simp [toExternalText]

end TextSegment

namespace ParserStateMachine

variable {state : ParserStateMachine} {segment : TextSegment} {rest : ByteString}
  {output : ExternalTextLine}

/-! ### One byte after the other -/

theorem outputSubstring_add (m n : ℕ) :
    state.outputSubstring (m + n) = (state.outputSubstring m).outputSubstring n := by
  by_cases hm : m = 0
  · subst hm
    simp [outputSubstring]
  · by_cases hn : n = 0
    · subst hn
      simp [outputSubstring]
    · have happend : state.rest.take (m + n) = state.rest.take m ++ (state.rest.drop m).take n :=
        take_add
      simp only [outputSubstring, outputString, hm, hn, if_false,
        if_neg (show m + n ≠ 0 by omega), drop_drop, Option.map_map, happend]
      congr 2
      funext s
      simp

theorem atStyle_add (m n : ℕ) : state.atStyle (m + n) = (state.outputSubstring m).atStyle n := by
  rw [atStyle, outputSubstring_add, atStyle]

theorem atUrl_add (m n : ℕ) : state.atUrl (m + n) = (state.outputSubstring m).atUrl n := by
  rw [atUrl, outputSubstring_add, atUrl]

theorem loop_of_none (h : state.step = none) : state.loop = state.finish := by
  rw [loop]
  split
  · rfl
  · rename_i hsome
    rw [h] at hsome
    cases hsome

theorem loop_of_some {state' : ParserStateMachine} (h : state.step = some state') :
    state.loop = state'.loop := by
  rw [loop]
  split
  · rename_i hnone
    rw [h] at hnone
    cases hnone
  · rename_i hsome
    rw [h] at hsome
    cases hsome
    rfl

/-- The nearest token is the same one byte on. -/
theorem step_copy {c : UInt8} {text : ByteString} (hrest : state.rest = c :: text)
    (h : NoToken (c :: text)) : (state.outputSubstring 1).step = state.step := by
  have hdrop : (state.outputSubstring 1).rest = text := by
    rw [outputSubstring_rest, hrest, drop_one, tail_cons]
  have hstyle : find openStyle (c :: text) = (find openStyle text).map (· + 1) := by
    rw [find, if_neg (by simpa [List.isPrefixOf_iff_prefix] using h.1)]
  have hurl : find openUrl (c :: text) = (find openUrl text).map (· + 1) := by
    rw [find, if_neg (by simpa [List.isPrefixOf_iff_prefix] using h.2)]
  unfold step
  rw [hdrop, hrest, hstyle, hurl]
  cases find openStyle text <;> cases find openUrl text <;>
    simp [Nat.add_comm _ 1, atStyle_add, atUrl_add]

/-- **A byte where no token begins.** -/
theorem loop_copy {c : UInt8} {text : ByteString} (hrest : state.rest = c :: text)
    (h : NoToken (c :: text)) : state.loop = (state.outputSubstring 1).loop := by
  have hstep := step_copy hrest h
  cases hnext : state.step with
  | none =>
    rw [hnext] at hstep
    rw [loop_of_none hnext, loop_of_none hstep, finish, finish, outputSubstring_rest, hrest]
    rw [length_cons, Nat.add_comm, outputSubstring_add, drop_one, tail_cons]
  | some state' =>
    rw [hnext] at hstep
    rw [loop_of_some hnext, loop_of_some hstep]

/-- A text that has the first byte of no token. -/
theorem loop_append {w text : ByteString} (hrest : state.rest = w ++ text)
    (hw : ∀ c ∈ w, c ≠ 126 ∧ c ≠ 91) : state.loop = (state.outputSubstring w.length).loop := by
  induction w generalizing state with
  | nil => rfl
  | cons c w ih =>
    obtain ⟨⟨hstyle, hurl⟩, hw⟩ := forall_mem_cons.mp hw
    rw [loop_copy hrest (noToken_cons hstyle hurl _), ih (by simp [hrest]) hw,
      ← outputSubstring_add, length_cons, Nat.add_comm]

theorem loop_openStyle (h : openStyle <+: state.rest) :
    state.loop = state.convertStyle.newTextSegment.loop := by
  obtain ⟨text, htext⟩ := h
  refine loop_of_some ?_
  rw [step, ← htext, find_append]
  cases find openUrl (openStyle ++ text) <;> simp [atStyle, outputSubstring]

theorem loop_openUrl (h : openUrl <+: state.rest) :
    state.loop = state.convertUrl.newTextSegment.loop := by
  obtain ⟨text, htext⟩ := h
  refine loop_of_some ?_
  have hstyle : find openStyle (openUrl ++ text) = (find openStyle text).map (· + 2) :=
    find_append_of_not_mem (by decide) text
  rw [step, ← htext, find_append, hstyle]
  cases find openStyle text <;> simp [atUrl, outputSubstring]

/-! ### Between two tokens -/

/-- The parser is between two tokens: what it writes to, what is left, and what it has
written. -/
structure At (state : ParserStateMachine) (segment : TextSegment) (rest : ByteString)
    (output : ExternalTextLine) : Prop where
  textPtr : state.textPtr = some segment
  style : (if state.inStyle then some state.style else none) = segment.style
  rest : state.rest = rest
  output : state.output = output

theorem at_new (text : ByteString) : (new text).At ⟨[], none⟩ text [] := ⟨rfl, rfl, rfl, rfl⟩

theorem At.outputString (h : state.At segment rest output) (text : ByteString) :
    (state.outputString text).At (segment.append text) rest output := by
  refine ⟨?_, h.style, h.rest, h.output⟩
  rw [ParserStateMachine.outputString, h.textPtr, Option.map_some]

theorem At.outputSubstring (h : state.At segment rest output) (len : ℕ) :
    (state.outputSubstring len).At (segment.append (rest.take len)) (rest.drop len) output := by
  unfold ParserStateMachine.outputSubstring
  split
  · rename_i hlen
    simpa [hlen] using h
  · have hstring := h.outputString (rest.take len)
    refine ⟨?_, hstring.style, ?_, hstring.output⟩
    · rw [h.rest]
      exact hstring.textPtr
    · rw [h.rest]

/-- The next element has the style that the parser is in. -/
theorem At.of_textPtr_none {style : Option TextStyle} (htextPtr : state.textPtr = none)
    (hstyle : (if state.inStyle then some state.style else none) = style) :
    state.newTextSegment.At ⟨[], style⟩ state.rest state.output := by
  unfold newTextSegment
  rw [htextPtr]
  exact ⟨by rw [hstyle], hstyle, rfl, rfl⟩

theorem At.newTextSegment (h : state.At segment rest output) :
    state.newTextSegment.At segment rest output := by
  unfold ParserStateMachine.newTextSegment
  rw [h.textPtr]
  exact h

theorem At.addTextSegment (h : state.At segment rest output) :
    state.addTextSegment =
      { state with textPtr := none, output := output ++ segment.flush } := by
  simp only [ParserStateMachine.addTextSegment, h.textPtr, h.output, TextSegment.flush]
  by_cases htext : segment.text = [] <;> simp [htext]

theorem At.finish (h : state.At segment rest output) :
    state.finish = output ++ (segment.append rest).flush := by
  have hcopied := h.outputSubstring state.rest.length
  rw [ParserStateMachine.finish, hcopied.addTextSegment, h.rest, take_length]

end ParserStateMachine

end Mutgos.Text
