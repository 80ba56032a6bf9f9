import Mathlib.Algebra.Group.Nat.Defs
import Mathlib.Data.List.Infix
import Mutgos.Lib.Lines
import Mutgos.Text.ExternalTextConverter

/-!
# Lines of a telnet client

`SocketClientConnection::raw_data` and `process_raw_incoming_data`: what a client sends comes in
chunks, and is cut into lines.  What is kept of a line that has not ended is added to, and the
loop over the lines goes by positions in all of it; but it ends by the size of the chunk.

The commands of the client are not carried out here: `process_input` is handed the lines, and
changes nothing of what is here.

## Main results

* `splitsLines_iff` — **all chunks are split into the lines of the stream exactly if each of them
  is one that can be.**
-/

namespace Mutgos.Socket

open Text List

def telnetLf : UInt8 := 10

def telnetCr : UInt8 := 13

/-- `std::string::npos`, as a number. -/
def npos : ℕ := 2 ^ 64 - 1

/-- Subtraction of a `size_t`. -/
def sizeSub (a b : ℕ) : ℕ := if b ≤ a then a - b else 2 ^ 64 + a - b

/-- `std::string::find` for a character, from a position on. -/
def findFrom (c : UInt8) (s : ByteString) (index : ℕ) : Option ℕ :=
  (find [c] (s.drop index)).map (· + index)

/-- `std::string::substr`, which throws for a position that is not in the string. -/
def substr (s : ByteString) (index count : ℕ) : Option ByteString :=
  if index ≤ s.length then some ((s.drop index).take count) else none

/-- What `text::convert_extended_to_utf8` makes of a character. -/
def extendedToUtf8 (c : UInt8) : ByteString :=
  if c < 32 then [63]
  else if 126 < c then
    if 0xA0 ≤ c ∧ c ≤ 0xFE then [(0xC0 : UInt8) ||| (c >>> 6), (0x80 : UInt8) ||| (c &&& 0x3F)]
    else [0xEF, 0xBF, 0xBD]
  else [c]

/-- `text::convert_extended_to_utf8` -/
def convertExtendedToUtf8 (line : ByteString) : ByteString := line.flatMap extendedToUtf8

/-- What is handed to `process_input` for a line. -/
def inputLine (line : ByteString) : ExternalTextLine := toExternal (convertExtendedToUtf8 line)

/-- What a connection knows of the lines of its client. -/
structure IncomingText where
  incomingTextBuffer : ByteString
  ackLinesReceivedFromClient : ℕ
  clientConnected : Bool
  /-- What `command_processor.process_input` has been handed. -/
  inputs : List ExternalTextLine

namespace IncomingText

/-- A client that has connected. -/
def new : IncomingText := ⟨[], 0, true, []⟩

/-- `disconnect_socket`, as far as it is about this. -/
def disconnectSocket (s : IncomingText) : IncomingText := { s with clientConnected := false }

/-- What is done with a line. -/
def processInput (s : IncomingText) (line : ByteString) : IncomingText :=
  { s with
    ackLinesReceivedFromClient := (s.ackLinesReceivedFromClient + 1) % 2 ^ 32
    inputs := s.inputs ++ [inputLine line] }

/-- The loop over the lines, from `line_start_index` on, with `line_end_index` as the last line
has left it.  A client that has sent too long a line is disconnected. -/
def processLines (maxLine stringEndIndex dataSize : ℕ) (s : IncomingText) :
    (fuel lineStartIndex : ℕ) → (lineEndIndex : Option ℕ) →
      Option (IncomingText × ℕ × Option ℕ)
  | 0, _, _ => none
  | fuel + 1, lineStartIndex, lineEndIndex =>
    if lineStartIndex ≤ stringEndIndex then
      match findFrom telnetLf s.incomingTextBuffer lineStartIndex with
      | none =>
        if sizeSub dataSize lineStartIndex > maxLine then some (s.disconnectSocket, npos, none)
        else some (s, lineStartIndex, none)
      | some lineEndIndex =>
        (substr s.incomingTextBuffer lineStartIndex (lineEndIndex - lineStartIndex)).bind
          fun line =>
            processLines maxLine stringEndIndex dataSize (s.processInput line) fuel
              (lineEndIndex + 1) (some lineEndIndex)
    else some (s, lineStartIndex, lineEndIndex)

/-- The end of `process_raw_incoming_data`: used characters are shifted out of the buffer. -/
def shiftOut (stringEndIndex : ℕ) : IncomingText × ℕ × Option ℕ → IncomingText :=
  fun (s, lineStartIndex, lineEndIndex) =>
    if lineStartIndex > stringEndIndex then { s with incomingTextBuffer := [] }
    else if lineStartIndex ≠ 0 ∧ lineEndIndex = none then
      { s with incomingTextBuffer := s.incomingTextBuffer.drop lineStartIndex }
    else s

/-- A stream without what is not supposed to be there. -/
def withoutCr (s : ByteString) : ByteString := s.filter (· ≠ telnetCr)

/-- `process_raw_incoming_data`.  `maxLine` is `so_input_line_length`. -/
def processRawIncomingData (maxLine : ℕ) (s : IncomingText) (data : ByteString) :
    Option IncomingText :=
  if data.isEmpty then some s
  else
    let data := withoutCr data
    let s := { s with incomingTextBuffer := s.incomingTextBuffer ++ data }
    let stringEndIndex := sizeSub data.length 1
    (processLines maxLine stringEndIndex data.length s (s.incomingTextBuffer.length + 1) 0
      (some 0)).map (shiftOut stringEndIndex)

def rawData (maxLine : ℕ) (s : IncomingText) (data : ByteString) : Option IncomingText :=
  if data.length ≠ 0 then processRawIncomingData maxLine s data else some s

/-- One chunk after the other. -/
def receive (maxLine : ℕ) (chunks : List ByteString) : Option IncomingText :=
  chunks.foldlM (rawData maxLine) new

/-! ### What is promised -/

/-- The lines of the stream have been handed on, and what comes after them is kept; a client
with too long a line has been disconnected. -/
structure SplitsLines (maxLine : ℕ) (stream : ByteString) (s : IncomingText) : Prop where
  inputs : s.inputs = (endedLines telnetLf (withoutCr stream)).map inputLine
  incomingTextBuffer : s.incomingTextBuffer = openLine telnetLf (withoutCr stream)
  disconnected :
    maxLine < (openLine telnetLf (withoutCr stream)).length → s.clientConnected = false

/-- What is kept of a line, and what has come after it. -/
structure Splittable (maxLine : ℕ) (pending data : ByteString) : Prop where
  /-- What follows a newline is longer than what has been kept, if there is anything. -/
  longer : ∀ b, telnetLf :: b <:+ data → b ≠ [] → pending.length < b.length
  /-- What is to be kept is not too long. -/
  fits : (openLine telnetLf (pending ++ data)).length ≤ maxLine

instance (maxLine : ℕ) (pending data : ByteString) :
    Decidable (Splittable maxLine pending data) :=
  decidable_of_iff
    ((∀ t ∈ data.tails, t.head? = some telnetLf → t.tail ≠ [] → pending.length < t.tail.length) ∧
      (openLine telnetLf (pending ++ data)).length ≤ maxLine) <| by
    constructor
    · intro ⟨h, hfits⟩
      exact ⟨fun b hb => h (telnetLf :: b) ((mem_tails _ _).mpr hb) rfl, hfits⟩
    · refine fun h => ⟨fun t ht hhead => ?_, h.fits⟩
      obtain ⟨b, rfl⟩ := head?_eq_some_iff.mp hhead
      exact h.longer b ((mem_tails _ _).mp ht)

/-! ### The loop -/

section Loop

variable {maxLine stringEndIndex dataSize : ℕ} {s : IncomingText}

@[simp] theorem incomingTextBuffer_foldl_processInput (lines : List ByteString)
    (s : IncomingText) :
    (lines.foldl processInput s).incomingTextBuffer = s.incomingTextBuffer := by
  induction lines generalizing s with
  | nil => rfl
  | cons line lines ih => exact ih _

@[simp] theorem clientConnected_foldl_processInput (lines : List ByteString)
    (s : IncomingText) : (lines.foldl processInput s).clientConnected = s.clientConnected := by
  induction lines generalizing s with
  | nil => rfl
  | cons line lines ih => exact ih _

@[simp] theorem inputs_foldl_processInput (lines : List ByteString) (s : IncomingText) :
    (lines.foldl processInput s).inputs = s.inputs ++ lines.map inputLine := by
  induction lines generalizing s with
  | nil => exact (append_nil _).symm
  | cons line lines ih =>
    rw [foldl_cons, ih, processInput, map_cons, append_assoc,
      singleton_append]

theorem findFrom_of_notMem {c : UInt8} {t : ByteString} {index : ℕ} (h : c ∉ t.drop index) :
    findFrom c t index = none := by
  rw [findFrom, find_eq_none_of_not_mem h]
  rfl

theorem findFrom_of_drop {c : UInt8} {t w rest : ByteString} {index : ℕ}
    (hdrop : t.drop index = w ++ c :: rest) (hw : c ∉ w) :
    findFrom c t index = some (index + w.length) := by
  have hfind : find [c] (c :: rest) = some 0 := find_append [c] rest
  rw [findFrom, hdrop, find_append_of_not_mem hw, hfind]
  simp [Nat.add_comm]

/-- How the loop ends. -/
inductive EndsAt (maxLine stringEndIndex dataSize : ℕ) (s : IncomingText) (index : ℕ)
    (rest : ByteString) : IncomingText × ℕ × Option ℕ → Prop
  /-- The position is past the size of the chunk. -/
  | past {lineEndIndex : Option ℕ} (hindex : stringEndIndex < index) :
      EndsAt maxLine stringEndIndex dataSize s index rest (s, index, lineEndIndex)
  /-- The line is too long. -/
  | tooLong (hindex : index ≤ stringEndIndex) (hrest : telnetLf ∉ rest)
      (hlong : maxLine < sizeSub dataSize index) :
      EndsAt maxLine stringEndIndex dataSize s index rest (s.disconnectSocket, npos, none)
  /-- No line is left. -/
  | noLine (hindex : index ≤ stringEndIndex) (hrest : telnetLf ∉ rest)
      (hshort : sizeSub dataSize index ≤ maxLine) :
      EndsAt maxLine stringEndIndex dataSize s index rest (s, index, none)

/-- What begins with a byte that is not in the front is in the rest. -/
theorem suffix_of_suffix_append {c : UInt8} {b w t : ByteString} (h : c :: b <:+ w ++ t)
    (hw : c ∉ w) : c :: b <:+ t := by
  obtain ⟨u, hu⟩ := h
  rcases append_eq_append_iff.mp hu with ⟨v, rfl, hv⟩ | ⟨v, rfl, hv⟩
  · cases v with
    | nil => exact ⟨[], hv⟩
    | cons d v =>
      rw [cons_append, List.cons.injEq] at hv
      exact absurd (by rw [hv.1]; simp) hw
  · exact ⟨v, hv.symm⟩

variable (maxLine stringEndIndex dataSize) in
/-- **The loop takes lines as long as they begin within the size of the chunk.** -/
theorem processLines_spec (fuel index : ℕ) (lineEndIndex : Option ℕ) (s : IncomingText)
    (hindex : index ≤ s.incomingTextBuffer.length)
    (hfuel : (s.incomingTextBuffer.drop index).length < fuel) :
    ∃ lines rest result,
      s.incomingTextBuffer.drop index = joinLines telnetLf lines ++ rest ∧
      (∀ line ∈ lines, telnetLf ∉ line) ∧
      (∀ b, b = s.incomingTextBuffer.drop index ∨
          telnetLf :: b <:+ s.incomingTextBuffer.drop index →
        rest.length < b.length → s.incomingTextBuffer.length - b.length ≤ stringEndIndex) ∧
      processLines maxLine stringEndIndex dataSize s fuel index lineEndIndex = some result ∧
      EndsAt maxLine stringEndIndex dataSize (lines.foldl processInput s)
        (index + (joinLines telnetLf lines).length) rest result := by
  induction fuel generalizing index lineEndIndex s with
  | zero => exact absurd hfuel (Nat.not_lt_zero _)
  | succ fuel ih =>
    -- nothing is longer than the rest where no line is taken
    have hnone : ∀ b, b = s.incomingTextBuffer.drop index ∨
          telnetLf :: b <:+ s.incomingTextBuffer.drop index →
        (s.incomingTextBuffer.drop index).length < b.length →
        s.incomingTextBuffer.length - b.length ≤ stringEndIndex := by
      rintro b (rfl | hb) hlength
      · exact absurd hlength (Nat.lt_irrefl _)
      · have hle := hb.length_le
        rw [length_cons] at hle
        omega
    rw [processLines]
    by_cases hend : index ≤ stringEndIndex
    · rw [if_pos hend]
      by_cases hmem : telnetLf ∈ s.incomingTextBuffer.drop index
      · obtain ⟨w, t, hdrop, hw⟩ := eq_append_cons_of_mem hmem
        have hlength := congrArg List.length hdrop
        rw [length_drop, length_append, length_cons] at hlength
        have hsubstr : substr s.incomingTextBuffer index (index + w.length - index) = some w := by
          rw [substr, if_pos hindex, hdrop, Nat.add_sub_cancel_left, take_left]
        have hnext : s.incomingTextBuffer.drop (index + w.length + 1) = t := by
          have hdrop' := congrArg (List.drop (w.length + 1)) hdrop
          rw [drop_drop, ← singleton_append, ← append_assoc,
            drop_left' (by simp)] at hdrop'
          exact hdrop'
        obtain ⟨lines, rest, result, hrest, hlines, hb, hresult, hends⟩ :=
          ih (index + w.length + 1) (some (index + w.length)) (s.processInput w)
            (by change _ ≤ s.incomingTextBuffer.length; omega)
            (by
              change (s.incomingTextBuffer.drop _).length < _
              rw [hdrop, length_append, length_cons] at hfuel
              rw [hnext]
              omega)
        change s.incomingTextBuffer.drop _ = _ at hrest
        change ∀ b, b = s.incomingTextBuffer.drop _ ∨ _ <:+ s.incomingTextBuffer.drop _ → _ at hb
        rw [hnext] at hrest hb
        rw [findFrom_of_drop hdrop hw]
        dsimp only
        rw [hsubstr, Option.bind_some]
        refine ⟨w :: lines, rest, result, ?_, forall_mem_cons.mpr ⟨hw, hlines⟩, ?_, hresult,
          ?_⟩
        · rw [hdrop, joinLines_cons, hrest, append_assoc, cons_append]
        · rintro b (rfl | hsuffix) hshorter
          · rw [length_drop]
            omega
          · rw [hdrop] at hsuffix
            refine hb b ?_ hshorter
            rcases suffix_cons_iff.mp (suffix_of_suffix_append hsuffix hw) with heq | hsuffix
            · exact .inl (List.cons.inj heq).2
            · exact .inr hsuffix
        · rw [joinLines_cons, length_append, length_cons, foldl_cons]
          convert hends using 1
          omega
      · rw [findFrom_of_notMem hmem]
        dsimp only
        split
        · next hlong => exact ⟨[], _, _, rfl, nofun, hnone, rfl, .tooLong hend hmem hlong⟩
        · next hshort =>
          exact ⟨[], _, _, rfl, nofun, hnone, rfl, .noLine hend hmem (Nat.not_lt.mp hshort)⟩
    · rw [if_neg hend]
      exact ⟨[], _, _, rfl, nofun, hnone, rfl, .past (Nat.not_le.mp hend)⟩

end Loop

/-! ### One chunk -/

section Chunk

variable {maxLine : ℕ} {s : IncomingText} {data : ByteString}

/-- What is known after a chunk has been received. -/
structure Received (maxLine : ℕ) (s : IncomingText) (data : ByteString) (s' : IncomingText) :
    Prop where
  inputs : s'.inputs =
    s.inputs ++ (endedLines telnetLf (s.incomingTextBuffer ++ data)).map inputLine
  incomingTextBuffer : s'.incomingTextBuffer = openLine telnetLf (s.incomingTextBuffer ++ data)
  disconnected : maxLine < (openLine telnetLf (s.incomingTextBuffer ++ data)).length →
    s'.clientConnected = false

section Cut

variable {p d rest : ByteString} {lines : List ByteString}

/-- There is a newline where there is a line. -/
theorem mem_of_cut (hcut : p ++ d = joinLines telnetLf lines ++ rest) (hne : lines ≠ []) :
    telnetLf ∈ p ++ d := by
  obtain ⟨line, lines, rfl⟩ := exists_cons_of_ne_nil hne
  rw [hcut]
  simp

/-- Where the loop is within the size of the chunk, unless it is empty. -/
theorem lt_of_cut (hcut : p ++ d = joinLines telnetLf lines ++ rest) (hp : telnetLf ∉ p)
    (hwithin : (joinLines telnetLf lines).length ≤ sizeSub d.length 1) :
    d = [] ∧ lines = [] ∨ (joinLines telnetLf lines).length < d.length := by
  cases d with
  | nil =>
    refine .inl ⟨rfl, ?_⟩
    by_contra hne
    have hmem := mem_of_cut hcut hne
    rw [append_nil] at hmem
    exact hp hmem
  | cons c d =>
    rw [sizeSub, if_pos (by simp)] at hwithin
    right
    rw [length_cons] at hwithin ⊢
    omega

/-- The loop has gone past the size of the chunk. -/
theorem le_of_cut_past (hpast : sizeSub d.length 1 < (joinLines telnetLf lines).length) :
    lines ≠ [] ∧ d.length ≤ (joinLines telnetLf lines).length := by
  have hne : lines ≠ [] := by
    rintro rfl
    exact absurd hpast (Nat.not_lt_zero _)
  refine ⟨hne, ?_⟩
  cases d with
  | nil => exact Nat.zero_le _
  | cons c d =>
    rw [sizeSub, if_pos (by simp)] at hpast
    rw [length_cons] at hpast ⊢
    omega

section

variable (hcut : p ++ d = joinLines telnetLf lines ++ rest) (hp : telnetLf ∉ p)
include hcut hp

/-- The last newline that has been found is in the chunk. -/
theorem suffix_of_cut (hne : lines ≠ []) : telnetLf :: rest <:+ d := by
  refine suffix_of_suffix_append (w := p) ?_ hp
  obtain ⟨lines, line, rfl⟩ := (eq_nil_or_concat lines).resolve_left hne
  rw [hcut]
  simp only [concat_eq_append, joinLines_append, joinLines_cons, joinLines_nil]
  exact ⟨joinLines telnetLf lines ++ line, by simp⟩

theorem splittable_of_past
    (hb : ∀ b, b = p ++ d ∨ telnetLf :: b <:+ p ++ d → rest.length < b.length →
      (p ++ d).length - b.length ≤ sizeSub d.length 1)
    (hpast : sizeSub d.length 1 < (joinLines telnetLf lines).length)
    (hopen : openLine telnetLf (p ++ d) = openLine telnetLf rest) :
    Splittable maxLine p d ↔ rest = [] := by
  obtain ⟨hne, hle⟩ := le_of_cut_past hpast
  have hlength := congrArg List.length hcut
  rw [length_append, length_append] at hlength
  constructor
  · intro h
    by_contra hrest
    have hlonger := h.longer rest (suffix_of_cut hcut hp hne) hrest
    omega
  · rintro rfl
    refine ⟨fun b hsuffix hbne => ?_, ?_⟩
    · have hpos := length_pos_of_ne_nil hbne
      have hwithin := hb b (.inr (hsuffix.trans (suffix_append p d))) hpos
      have hbd := hsuffix.length_le
      rw [length_cons] at hbd
      rw [length_append, sizeSub, if_pos (by omega)] at hwithin
      omega
    · rw [hopen]
      exact Nat.zero_le _

theorem splittable_of_cut (hrest : telnetLf ∉ rest)
    (hb : ∀ b, b = p ++ d ∨ telnetLf :: b <:+ p ++ d → rest.length < b.length →
      (p ++ d).length - b.length ≤ sizeSub d.length 1)
    (hwithin : (joinLines telnetLf lines).length ≤ sizeSub d.length 1)
    (hopen : openLine telnetLf (p ++ d) = openLine telnetLf rest) :
    Splittable maxLine p d ↔ rest.length ≤ maxLine := by
  rw [openLine_of_notMem hrest] at hopen
  refine ⟨fun h => hopen ▸ h.fits, fun hfits => ⟨fun b hsuffix hbne => ?_, hopen ▸ hfits⟩⟩
  have hlength := congrArg List.length hcut
  rw [length_append, length_append] at hlength
  have hbd := hsuffix.length_le
  rw [length_cons] at hbd
  -- there is no newline after the last line
  have hle : rest.length ≤ b.length := by
    by_contra hshorter
    have hall : telnetLf :: b <:+ joinLines telnetLf lines ++ rest :=
      hcut ▸ hsuffix.trans (suffix_append p d)
    have hin := suffix_of_suffix_length_le hall (suffix_append _ rest)
      (by rw [length_cons]; omega)
    exact hrest (hin.mem mem_cons_self)
  rcases lt_of_cut hcut hp hwithin with ⟨rfl, -⟩ | hlt
  · exact absurd hbd (Nat.not_succ_le_zero _)
  rcases Nat.lt_or_eq_of_le hle with hshorter | heq
  · have hwithin := hb b (.inr (hsuffix.trans (suffix_append p d))) hshorter
    rw [length_append, sizeSub, if_pos (by omega)] at hwithin
    omega
  · omega

end

end Cut

variable (maxLine) in
/-- **A chunk is split into lines exactly if it can be**, and the client stays connected
then. -/
theorem processRawIncomingData_iff (hnewline : telnetLf ∉ s.incomingTextBuffer)
    (hconnected : s.clientConnected = true) (hne : data ≠ []) (hsize : data.length < 2 ^ 64) :
    ∃ s', processRawIncomingData maxLine s data = some s' ∧
      (Received maxLine s (withoutCr data) s' ↔
        Splittable maxLine s.incomingTextBuffer (withoutCr data)) ∧
      (Splittable maxLine s.incomingTextBuffer (withoutCr data) → s'.clientConnected = true) := by
  have hd : (withoutCr data).length < 2 ^ 64 := (length_filter_le _ _).trans_lt hsize
  rw [processRawIncomingData, if_neg (by simpa using hne)]
  generalize withoutCr data = d at hd ⊢
  obtain ⟨lines, rest, result, hcut, hlines, hb, hresult, hends⟩ :=
    processLines_spec maxLine (sizeSub d.length 1) d.length
      ((s.incomingTextBuffer ++ d).length + 1) 0 (some 0)
      { s with incomingTextBuffer := s.incomingTextBuffer ++ d } (Nat.zero_le _)
      (by rw [drop_zero]; exact Nat.lt_succ_self _)
  rw [drop_zero] at hcut hb
  rw [Nat.zero_add] at hends
  dsimp only at hcut hb hends hresult ⊢
  rw [hresult, Option.map_some]
  refine ⟨_, rfl, ?_⟩
  have hended := endedLines_joinLines_append hlines rest
  have hopen := openLine_joinLines_append telnetLf lines rest
  rw [← hcut] at hended hopen
  generalize hpos : (joinLines telnetLf lines).length = position at hends
  cases hends with
  | past hpast =>
    rw [splittable_of_past hcut hnewline hb (hpos ▸ hpast) hopen, shiftOut, if_pos hpast]
    refine ⟨⟨fun h => ?_, ?_⟩, fun _ => ?_⟩
    · have hinputs := congrArg List.length h.inputs
      rw [hended] at hinputs
      have hbuffer := h.incomingTextBuffer
      rw [hopen] at hbuffer
      rw [← endedLines_openLine telnetLf rest, ← hbuffer,
        show endedLines telnetLf rest = [] by simpa using hinputs]
      rfl
    · rintro rfl
      refine ⟨?_, ?_, ?_⟩
      · rw [hended]
        simp
      · rw [hopen]
        rfl
      · rw [hopen]
        exact fun h => absurd h (Nat.not_lt_zero _)
    · simpa using hconnected
  | tooLong hwithin hrest hlong =>
    rw [splittable_of_cut hcut hnewline hrest hb (hpos ▸ hwithin) hopen]
    have hlength := congrArg List.length hcut
    rw [length_append, length_append, hpos] at hlength
    rcases lt_of_cut hcut hnewline (hpos ▸ hwithin) with ⟨rfl, rfl⟩ | hlt
    · rw [← hpos] at hlong
      exact absurd hlong (Nat.not_lt_zero _)
    rw [hpos] at hlt
    rw [sizeSub, if_pos hlt.le] at hlong
    have hnot : ¬ rest.length ≤ maxLine := by omega
    rw [shiftOut, if_pos (by rw [npos, sizeSub, if_pos (by omega)]; omega)]
    refine ⟨iff_of_false (fun h => ?_) hnot, fun h => absurd h hnot⟩
    have hbuffer := congrArg List.length h.incomingTextBuffer
    rw [hopen, openLine_of_notMem hrest] at hbuffer
    change 0 = rest.length at hbuffer
    omega
  | noLine hwithin hrest hshort =>
    rw [splittable_of_cut hcut hnewline hrest hb (hpos ▸ hwithin) hopen]
    have hbuffer : (shiftOut (sizeSub d.length 1) (List.foldl processInput
        { s with incomingTextBuffer := s.incomingTextBuffer ++ d } lines, position,
        none)).incomingTextBuffer = rest := by
      rw [shiftOut, if_neg (Nat.not_lt.mpr hwithin)]
      by_cases hzero : position = 0
      · rw [if_neg (by simp [hzero]), incomingTextBuffer_foldl_processInput, hcut,
          eq_nil_of_length_eq_zero (hpos.trans hzero), nil_append]
      · rw [if_pos ⟨hzero, rfl⟩, incomingTextBuffer_foldl_processInput, hcut, ← hpos,
          drop_left]
    have hframe : ∀ {α : Type} (f : IncomingText → α),
        (∀ s buffer, f { s with incomingTextBuffer := buffer } = f s) →
        f (shiftOut (sizeSub d.length 1) (List.foldl processInput
          { s with incomingTextBuffer := s.incomingTextBuffer ++ d } lines, position, none)) =
        f (List.foldl processInput
          { s with incomingTextBuffer := s.incomingTextBuffer ++ d } lines) := by
      intro α f hf
      rw [shiftOut]
      split
      · exact hf _ _
      · split
        · exact hf _ _
        · rfl
    have hstill := (hframe clientConnected fun _ _ => rfl).trans
      (clientConnected_foldl_processInput lines _)
    refine ⟨⟨fun h => ?_, fun h => ⟨?_, ?_, fun hlong => ?_⟩⟩, fun _ => hstill.trans hconnected⟩
    · by_contra hlong
      have hfalse := h.disconnected (by rw [hopen, openLine_of_notMem hrest]; omega)
      rw [hstill, hconnected] at hfalse
      cases hfalse
    · rw [hframe inputs fun _ _ => rfl, inputs_foldl_processInput, hended,
        endedLines_of_notMem hrest, append_nil]
    · rw [hbuffer, hopen, openLine_of_notMem hrest]
    · rw [hopen, openLine_of_notMem hrest] at hlong
      omega

end Chunk

/-- The loop ends, and takes nothing from outside the buffer. -/
theorem rawData_isSome (maxLine : ℕ) (s : IncomingText) (data : ByteString) :
    (rawData maxLine s data).isSome := by
  rw [rawData]
  split
  · rw [processRawIncomingData]
    split
    · rfl
    · obtain ⟨lines, rest, result, -, -, -, hresult, -⟩ :=
        processLines_spec maxLine (sizeSub (withoutCr data).length 1) (withoutCr data).length
          ((s.incomingTextBuffer ++ withoutCr data).length + 1) 0 (some 0)
          { s with incomingTextBuffer := s.incomingTextBuffer ++ withoutCr data }
          (Nat.zero_le _) (by rw [drop_zero]; exact Nat.lt_succ_self _)
      dsimp only at hresult ⊢
      rw [hresult]
      rfl
  · rfl

/-! ### A stream -/

section Stream

variable {maxLine : ℕ} {chunks : List ByteString}

theorem receive_concat (maxLine : ℕ) (chunks : List ByteString) (chunk : ByteString) :
    receive maxLine (chunks ++ [chunk]) =
      (receive maxLine chunks).bind fun s => rawData maxLine s chunk := by
  rw [receive, foldlM_append]
  simp [receive]

theorem withoutCr_append (s t : ByteString) : withoutCr (s ++ t) = withoutCr s ++ withoutCr t :=
  filter_append s t

/-- What a chunk adds to a stream that has been split into lines. -/
theorem splitsLines_append_iff {stream data : ByteString} {s s' : IncomingText}
    (h : SplitsLines maxLine stream s) :
    SplitsLines maxLine (stream ++ data) s' ↔ Received maxLine s (withoutCr data) s' := by
  have hended := endedLines_append telnetLf (withoutCr stream) (withoutCr data)
  have hopen := openLine_append telnetLf (withoutCr stream) (withoutCr data)
  rw [← withoutCr_append, ← h.incomingTextBuffer] at hended hopen
  constructor
  · intro h'
    refine ⟨?_, ?_, ?_⟩
    · rw [h'.inputs, h.inputs, hended, map_append]
    · rw [h'.incomingTextBuffer, hopen]
    · rw [← hopen]
      exact h'.disconnected
  · intro h'
    refine ⟨?_, ?_, ?_⟩
    · rw [h'.inputs, h.inputs, hended, map_append]
    · rw [h'.incomingTextBuffer, hopen]
    · rw [hopen]
      exact h'.disconnected

/-- One more chunk. -/
theorem rawData_iff {stream chunk : ByteString} {s : IncomingText}
    (h : SplitsLines maxLine stream s) (hconnected : s.clientConnected = true)
    (hsize : chunk.length < 2 ^ 64) :
    ∃ s', rawData maxLine s chunk = some s' ∧
      (SplitsLines maxLine (stream ++ chunk) s' ↔
        Splittable maxLine (openLine telnetLf (withoutCr stream)) (withoutCr chunk)) ∧
      (Splittable maxLine (openLine telnetLf (withoutCr stream)) (withoutCr chunk) →
        s'.clientConnected = true) := by
  have hnewline : telnetLf ∉ s.incomingTextBuffer :=
    h.incomingTextBuffer ▸ notMem_openLine telnetLf _
  rw [← h.incomingTextBuffer]
  by_cases hne : chunk = []
  · subst hne
    refine ⟨s, rfl, ?_, fun _ => hconnected⟩
    rw [append_nil]
    have hopen := openLine_of_notMem hnewline
    refine iff_of_true h ⟨fun b hb => ?_, ?_⟩
    · exact absurd hb.length_le (Nat.not_succ_le_zero _)
    · rw [withoutCr, filter_nil, append_nil, hopen]
      by_contra hlong
      have hfalse := h.disconnected (h.incomingTextBuffer ▸ Nat.lt_of_not_le hlong)
      rw [hconnected] at hfalse
      cases hfalse
  · obtain ⟨s', hs', hiff, hstill⟩ :=
      processRawIncomingData_iff maxLine hnewline hconnected hne hsize
    refine ⟨s', ?_, (splitsLines_append_iff h).trans hiff, hstill⟩
    rw [rawData, if_pos (by simpa using hne)]
    exact hs'

variable (maxLine) in
/-- Chunks that can be split are. -/
theorem splitsLines_receive (hsize : ∀ chunk ∈ chunks, chunk.length < 2 ^ 64)
    (h : ∀ received chunk, received ++ [chunk] <+: chunks →
      Splittable maxLine (openLine telnetLf (withoutCr received.flatten)) (withoutCr chunk)) :
    ∃ s, receive maxLine chunks = some s ∧ SplitsLines maxLine chunks.flatten s ∧
      s.clientConnected = true := by
  induction chunks using List.reverseRecOn with
  | nil => exact ⟨new, rfl, ⟨rfl, rfl, fun h => absurd h (Nat.not_lt_zero _)⟩, rfl⟩
  | append_singleton chunks chunk ih =>
    obtain ⟨s, hs, hsplits, hconnected⟩ := ih
      (fun c hc => hsize c (mem_append_left _ hc))
      (fun received c hc => h received c (hc.trans (prefix_append _ _)))
    obtain ⟨s', hs', hiff, hstill⟩ := rawData_iff hsplits hconnected
      (hsize chunk (mem_append_right _ mem_cons_self))
    have hsplittable := h chunks chunk prefix_rfl
    refine ⟨s', ?_, ?_, hstill hsplittable⟩
    · rw [receive_concat, hs, Option.bind_some, hs']
    · rw [flatten_append, flatten_singleton]
      exact hiff.mpr hsplittable

end Stream

/-- **All chunks are split into the lines of the stream exactly if each of them is one that
can be.** -/
theorem splitsLines_iff {maxLine : ℕ} {chunks : List ByteString}
    (hsize : ∀ chunk ∈ chunks, chunk.length < 2 ^ 64) :
    (∀ received, received <+: chunks →
        ∃ s, receive maxLine received = some s ∧ SplitsLines maxLine received.flatten s) ↔
      ∀ received chunk, received ++ [chunk] <+: chunks →
        Splittable maxLine (openLine telnetLf (withoutCr received.flatten)) (withoutCr chunk) := by
  constructor
  · intro h received chunk hpre
    induction hlength : received.length using Nat.strong_induction_on generalizing received chunk
      with
    | _ n ih =>
      -- what has been received before can be split, so the client is still connected
      have hreceived := (List.prefix_append received [chunk]).trans hpre
      obtain ⟨s, hs, hsplits, hconnected⟩ := splitsLines_receive maxLine
        (fun c hc => hsize c (hreceived.subset hc)) fun received' c hc =>
          ih received'.length (by
            have hle := hc.length_le
            rw [List.length_append, List.length_singleton] at hle
            omega) received' c (hc.trans hreceived) rfl
      obtain ⟨s', hs', hiff, -⟩ := rawData_iff hsplits hconnected
        (hsize chunk (hpre.subset (List.mem_append_right _ List.mem_cons_self)))
      obtain ⟨s'', hs'', hsplits'⟩ := h _ hpre
      rw [receive_concat, hs, Option.bind_some, hs', Option.some.injEq] at hs''
      subst hs''
      rw [List.flatten_append, List.flatten_singleton] at hsplits'
      exact hiff.mp hsplits'
  · intro h received hpre
    obtain ⟨s, hs, hsplits, -⟩ := splitsLines_receive maxLine
      (fun c hc => hsize c (hpre.subset hc))
      fun received' c hc => h received' c (hc.trans hpre)
    exact ⟨s, hs, hsplits⟩


/-- One chunk of several at a time. -/
theorem forall_prefix_concat {α : Type*} {P : List α → α → Prop} {xs : List α}
    (h : ∀ i, ∀ hi : i < xs.length, P (xs.take i) xs[i]) (ys : List α) (x : α)
    (hpre : ys ++ [x] <+: xs) : P ys x := by
  obtain ⟨zs, rfl⟩ := hpre
  have hi := h ys.length (by simp)
  simpa using hi

/-- A line that comes in two pieces, after one that is whole, and before a longer one. -/
theorem splitsLines_pieces :
    let chunks := [ascii "look\ngo", ascii "\r", ascii " w\r", ascii "\nsay hello"]
    ∃ s, receive 16 chunks = some s ∧ SplitsLines 16 chunks.flatten s :=
  (splitsLines_iff (by decide)).mpr (forall_prefix_concat (by decide +kernel)) _ List.prefix_rfl

/-- What has been kept is longer than what comes after the line, which is lost. -/
theorem splitsLines_continued :
    ¬ ∀ maxLine chunks, (∀ chunk ∈ chunks, chunk.length < 2 ^ 64) →
      ∃ s, receive maxLine chunks = some s ∧ SplitsLines maxLine chunks.flatten s := by
  intro h
  obtain ⟨s, hs, hsplits⟩ := h 16 [ascii "loo", ascii "k\ngo"] (by decide)
  have hbuffer : (receive 16 [ascii "loo", ascii "k\ngo"]).map incomingTextBuffer = some [] := by
    decide +kernel
  rw [hs, Option.map_some, Option.some.injEq, hsplits.incomingTextBuffer] at hbuffer
  exact absurd hbuffer (by decide +kernel)

end IncomingText

end Mutgos.Socket
