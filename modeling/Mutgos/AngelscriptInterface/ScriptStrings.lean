import Mutgos.AngelscriptInterface.AString
import Mutgos.Lib.TransitionSystem

/-!
# Script strings as lists of code points

Scripts hold strings by reference, so that a string can be passed to an operation
on itself.  Every operation that scripts can call has a meaning for lists of code
points, and does what that meaning says when it returns and nothing when it throws,
except for four slips: the operations for 64-bit numbers are registered with the
methods for 32-bit ones, a boolean is appended before the limit is checked, filling
appends piece by piece and to itself while it grows, and the search from the end
misses some places.

## Main results

* `conforms_of_step` — a safe call conforms, and leaves good strings good.
-/

namespace Mutgos.AngelscriptInterface

open Mutgos.Text AString List

/-- The operations on strings that scripts can call.  A string is named by when it was made. -/
inductive Operation
  | assign (this str : ℕ)
  | opAdd (this rhs : ℕ)
  | opAddAssign (this rhs : ℕ)
  | append (this rhs : ℕ)
  | opAddNumber (this : ℕ) (rhs : UInt64)
  | opAddAssignNumber (this : ℕ) (rhs : UInt64)
  | appendNumber (this : ℕ) (rhs : UInt64)
  | opAddBool (this : ℕ) (rhs : Bool)
  | opAddAssignBool (this : ℕ) (rhs : Bool)
  | appendBool (this : ℕ) (rhs : Bool)
  | fill (this str : ℕ) (repeats : UInt32)
  | find (this str : ℕ)
  | findAt (this str : ℕ) (pos : UInt32)
  | findLast (this str : ℕ)
  | findLastAt (this str : ℕ) (pos : UInt32)
  | substring (this : ℕ) (startPos : UInt32)
  | substringLen (this : ℕ) (startPos len : UInt32)
  | erase (this : ℕ) (startPos : UInt32)
  | eraseLen (this : ℕ) (startPos len : UInt32)
  | charAt (this : ℕ) (pos : UInt32)
  deriving DecidableEq, Repr

/-- What a script gets from a call. -/
inductive Outcome
  | returned
  | string (made : ℕ)
  | position (found : Option ℕ)
  | threw (thrown : Thrown)
  deriving DecidableEq, Repr

/-- The strings of a script, and what its last call gave. -/
structure Script where
  strings : List AString
  last : Outcome := .returned
  deriving DecidableEq, Repr

namespace Script

/-- The string of this name. -/
def string (script : Script) (i : ℕ) : AString := script.strings.getD i {}

/-- After a call that changes its string. -/
def afterCalled (strings : List AString) (this : ℕ) (called : Called) : Script where
  strings := strings.set this called.2
  last := called.1.elim .returned .threw

/-- After a call that makes a string.  One that throws has made none. -/
def afterMade (strings : List AString) : Except Thrown AString → Script
  | .error thrown => { strings, last := .threw thrown }
  | .ok made => { strings := strings ++ [made], last := .string strings.length }

/-- After a search. -/
def afterFound (strings : List AString) : Except Thrown (Option ℕ) → Script
  | .error thrown => { strings, last := .threw thrown }
  | .ok found => { strings, last := .position found }

end Script

open Script

/-- One call, with the methods that the operations are registered with.  Those for 64-bit numbers
have the methods for `MG_UnsignedInt`. -/
def step (limit : UInt32) (script : Script) : Operation × ℕ → Option Script
  | (operation, room) =>
    let strings := script.strings
    match operation with
    | .assign i j => do
      let this ← strings[i]?
      let str ← strings[j]?
      return afterCalled strings i (this.assign str room)
    | .opAdd i j => do
      let this ← strings[i]?
      let rhs ← strings[j]?
      return afterMade strings (this.concatonate limit rhs room)
    | .opAddAssign i j | .append i j => do
      let this ← strings[i]?
      let rhs ← strings[j]?
      return afterCalled strings i (this.append limit rhs room)
    | .opAddNumber i n => do
      let this ← strings[i]?
      return afterMade strings (this.concatonateNumber limit n.toUInt32 room)
    | .opAddAssignNumber i n | .appendNumber i n => do
      let this ← strings[i]?
      return afterCalled strings i (this.appendNumber limit n.toUInt32 room)
    | .opAddBool i b => do
      let this ← strings[i]?
      return afterMade strings (this.concatonateBool limit b room)
    | .opAddAssignBool i b | .appendBool i b => do
      let this ← strings[i]?
      return afterCalled strings i (this.appendBool limit b room)
    | .fill i j repeats => do
      let this ← strings[i]?
      let str ← strings[j]?
      return afterCalled strings i
        (this.fill limit (if i = j then none else some str) repeats room)
    | .find i j => do
      let this ← strings[i]?
      let str ← strings[j]?
      return afterFound strings (.ok (this.find str))
    | .findAt i j pos => do
      let this ← strings[i]?
      let str ← strings[j]?
      return afterFound strings (this.findAt str pos)
    | .findLast i j => do
      let this ← strings[i]?
      let str ← strings[j]?
      return afterFound strings (.ok (this.findLast str))
    | .findLastAt i j pos => do
      let this ← strings[i]?
      let str ← strings[j]?
      return afterFound strings (this.findLastAt str pos)
    | .substring i startPos => do
      let this ← strings[i]?
      return afterMade strings (this.substring startPos room)
    | .substringLen i startPos len => do
      let this ← strings[i]?
      return afterMade strings (this.substringLen startPos len room)
    | .erase i startPos => do
      let this ← strings[i]?
      return afterCalled strings i (this.erase startPos)
    | .eraseLen i startPos len => do
      let this ← strings[i]?
      return afterCalled strings i (this.eraseLen startPos len)
    | .charAt i pos => do
      let this ← strings[i]?
      return afterMade strings (this.charAt pos room)

/-! ### Lists of code points -/

/-- A printable ASCII character as a code point. -/
def asciiPoint (c : Char) : CodePoint :=
  if h : isCodePoint [c.toNat.toUInt8] = true then ⟨[c.toNat.toUInt8], h⟩
  else ⟨[63], by decide⟩

/-- The decimal digits of a number. -/
def decimal (n : ℕ) : List CodePoint := (Nat.toDigits 10 n).map asciiPoint

/-- `true` or `false`, spelt out. -/
def boolPoints : Bool → List CodePoint
  | true => ['t', 'r', 'u', 'e'].map asciiPoint
  | false => ['f', 'a', 'l', 's', 'e'].map asciiPoint

/-- The meaning of an operation for lists of code points: the lists afterwards, and what the
script gets. -/
def ideal (texts : List (List CodePoint)) : Operation → List (List CodePoint) × Outcome
  | .assign i j => (texts.set i (texts.getD j []), .returned)
  | .opAdd i j => (texts ++ [texts.getD i [] ++ texts.getD j []], .string texts.length)
  | .opAddAssign i j | .append i j =>
    (texts.set i (texts.getD i [] ++ texts.getD j []), .returned)
  | .opAddNumber i n => (texts ++ [texts.getD i [] ++ decimal n.toNat], .string texts.length)
  | .opAddAssignNumber i n | .appendNumber i n =>
    (texts.set i (texts.getD i [] ++ decimal n.toNat), .returned)
  | .opAddBool i b => (texts ++ [texts.getD i [] ++ boolPoints b], .string texts.length)
  | .opAddAssignBool i b | .appendBool i b =>
    (texts.set i (texts.getD i [] ++ boolPoints b), .returned)
  | .fill i j repeats =>
    (texts.set i (texts.getD i [] ++ (List.replicate repeats.toNat (texts.getD j [])).flatten),
      .returned)
  | .find i j => (texts, .position (firstOccurrence (texts.getD j []) (texts.getD i []) 0))
  | .findAt i j pos =>
    (texts, .position (firstOccurrence (texts.getD j []) (texts.getD i []) pos.toNat))
  | .findLast i j => (texts, .position (lastOccurrence (texts.getD j []) (texts.getD i [])))
  | .findLastAt i j pos =>
    (texts, .position
      (lastOccurrence (texts.getD j []) ((texts.getD i []).take (pos.toNat + 1))))
  | .substring i startPos =>
    (texts ++ [(texts.getD i []).drop startPos.toNat], .string texts.length)
  | .substringLen i startPos len =>
    (texts ++ [((texts.getD i []).drop startPos.toNat).take len.toNat], .string texts.length)
  | .erase i startPos => (texts.set i ((texts.getD i []).take startPos.toNat), .returned)
  | .eraseLen i startPos len =>
    (texts.set i ((texts.getD i []).take startPos.toNat ++
      (texts.getD i []).drop (startPos.toNat + len.toNat)), .returned)
  | .charAt i pos =>
    (texts ++ [((texts.getD i []).drop pos.toNat).take 1], .string texts.length)

/-- A string that is this list of code points. -/
def Represents (s : AString) (cs : List CodePoint) : Prop :=
  s.stringValue = utf8.encode cs ∧ s.stringSize = cs.length

/-- What is always true of a string. -/
structure Good (limit : UInt32) (s : AString) : Prop where
  valid : s.stringValue = [] ∨ utf8Valid s.stringValue = true
  represents : ∃ cs, Represents s cs
  size_le : s.stringSize ≤ limit.toNat

/-- What a call shows: the strings as they were where it throws, and else the meaning of the
operation for the lists of code points. -/
def Conforms (before : List AString) (operation : Operation) (after : Script) : Prop :=
  match after.last with
  | .threw _ => after.strings = before
  | outcome =>
    ∃ texts, List.Forall₂ Represents before texts ∧
      List.Forall₂ Represents after.strings (ideal texts operation).1 ∧
        outcome = (ideal texts operation).2

/-- The calls that avoid the slips.  A number is below `2 ^ 32`; a boolean does not take a string
over the limit; filling does not run out of heap after the first piece, nor is a string filled
with itself more than once; `find_last` gets to the last occurrence.  Calls that are refused before
anything is done are safe. -/
def Safe (limit : UInt32) (script : Script) : Operation × ℕ → Prop
  | (operation, room) =>
    match operation with
    | .opAddNumber i n =>
      n.toNat < 2 ^ 32 ∨ room < 3 ∨
        limit.toNat < (script.string i).stringSize + (toText n.toUInt32).length
    | .opAddAssignNumber i n | .appendNumber i n =>
      n.toNat < 2 ^ 32 ∨ room = 0 ∨
        limit.toNat < (script.string i).stringSize + (toText n.toUInt32).length
    | .opAddAssignBool i b | .appendBool i b =>
      (script.string i).stringSize + (boolText b).length ≤ limit.toNat ∨ room = 0
    | .fill i j repeats =>
      (script.string j).stringSize = 0 ∨ room = 0 ∨
        limit.toNat < (script.string i).stringSize + (script.string j).stringSize * repeats.toNat ∨
          (repeats.toNat ≤ room ∧ (i = j → repeats.toNat ≤ 1))
    | .findLast i j =>
      ∀ p ∈ lastOccurrence (script.string j).stringValue (script.string i).stringValue,
        FindsLast (script.string i).stringValue (script.string j).stringValue p
    | .findLastAt i j pos =>
      (script.string i).stringSize ≤ pos.toNat ∨
        ∀ p ∈ lastOccurrence (script.string j).stringValue ((script.string i).upTo pos),
          FindsLast ((script.string i).upTo pos) (script.string j).stringValue p
    | _ => True

instance (limit : UInt32) (script : Script) (call : Operation × ℕ) :
    Decidable (Safe limit script call) := by
  unfold Safe
  obtain ⟨operation, room⟩ := call
  cases operation <;> infer_instance

/-! ### Single operations -/

/-- What a call that changes its string may do: throw, or leave this list of code points. -/
def MayBecome (limit : UInt32) (this : AString) (cs : List CodePoint) (called : Called) : Prop :=
  (∃ thrown, called = (some thrown, this)) ∨
    (called.1 = none ∧ Represents called.2 cs ∧ cs.length ≤ limit.toNat)

/-- What a call that makes a string may do: throw, or make this list of code points. -/
def MayMake (limit : UInt32) (cs : List CodePoint) (made : Except Thrown AString) : Prop :=
  ∀ s, made = .ok s → Represents s cs ∧ cs.length ≤ limit.toNat

/-- What a search may give: throw, or find this. -/
def MayFind (expected : Option ℕ) (result : Except Thrown (Option ℕ)) : Prop :=
  ∀ found, result = .ok found → found = expected

section Operations

variable {limit : UInt32} {this str : AString} {cs cs' : List CodePoint} {room : ℕ}

theorem sizeT_of_lt {n : ℕ} (h : n < 2 ^ 64) : sizeT n = n := Nat.mod_eq_of_lt h

theorem represents_encode (cs : List CodePoint) :
    Represents { stringValue := utf8.encode cs, stringSize := Text.utf8Size (utf8.encode cs) } cs :=
  ⟨rfl, utf8Size_encode cs⟩

theorem checkExceedMax_eq (limit : UInt32) (size : ℕ) :
    (∃ thrown, limit.toNat < size ∧ checkExceedMax limit size = .error thrown) ∨
      (size ≤ limit.toNat ∧ checkExceedMax limit size = .ok ()) := by
  rw [checkExceedMax]
  split_ifs with h
  · exact .inl ⟨_, h, rfl⟩
  · exact .inr ⟨Nat.le_of_not_lt h, rfl⟩

theorem encode_map_asciiPoint {text : List Char}
    (h : ∀ c ∈ text, isCodePoint [c.toNat.toUInt8] = true) :
    utf8.encode (text.map asciiPoint) = text.map fun c => c.toNat.toUInt8 := by
  induction text with
  | nil => rfl
  | cons c text ih =>
    rw [forall_mem_cons] at h
    rw [map_cons, Code.encode_cons, ih h.2, utf8_word, asciiPoint, dif_pos h.1]
    rfl

theorem encode_decimal (n : UInt32) : utf8.encode (decimal n.toNat) = toText n := by
  have hdigits : ∀ n < 58, 48 ≤ n → isCodePoint [n.toUInt8] = true := by decide
  refine encode_map_asciiPoint ?_
  intro c hc
  have hdigit := Nat.isDigit_of_mem_toDigits (by decide) (by decide) hc
  rw [Char.isDigit_iff_toNat] at hdigit
  exact hdigits c.toNat (Nat.lt_succ_of_le hdigit.2) hdigit.1

theorem encode_boolPoints (b : Bool) : utf8.encode (boolPoints b) = boolText b := by
  cases b <;> rfl

theorem length_decimal (n : UInt32) : (decimal n.toNat).length = (toText n).length := by
  simp [decimal, toText]

theorem length_boolPoints (b : Bool) : (boolPoints b).length = (boolText b).length := by
  cases b <;> rfl

theorem length_toText_le (n : UInt32) : (toText n).length ≤ 10 := by
  have hlt := n.toNat_lt
  rw [toText, length_map, Nat.length_toDigits_le_iff (by decide) (by decide)]
  omega

/-- Strings within the limit have small sizes. -/
theorem lt_of_le_limit {n : ℕ} (h : n ≤ limit.toNat) : n < 2 ^ 32 := h.trans_lt limit.toNat_lt

theorem Represents.append {text : ByteString} (h : Represents this cs)
    (htext : utf8.encode cs' = text) :
    Represents { stringValue := this.stringValue ++ text, stringSize := cs.length + cs'.length }
      (cs ++ cs') := by
  refine ⟨?_, length_append.symm⟩
  rw [Code.encode_append, ← h.1, htext]

theorem mayBecome_assign (hstr : Represents str cs) (hle : cs.length ≤ limit.toNat) :
    MayBecome limit this cs (this.assign str room) := by
  rw [assign]
  cases room with
  | zero => exact .inl ⟨_, rfl⟩
  | succ room => exact .inr ⟨rfl, hstr, hle⟩

theorem mayMake_concatonateText {text : ByteString} {textSize : ℕ} (hthis : Represents this cs)
    (hle : cs.length ≤ limit.toNat) (htext : utf8.encode cs' = text)
    (hsize : textSize = cs'.length) (hsmall : cs'.length < 2 ^ 32) :
    MayMake limit (cs ++ cs') (this.concatonateText limit text textSize room) := by
  have hcs := lt_of_le_limit hle
  have hsum : sizeT (this.stringSize + textSize) = cs.length + cs'.length := by
    rw [hthis.2, hsize, sizeT_of_lt (by omega)]
  intro s hs
  match room with
  | 0 => simp [concatonateText, allocate, bind, Except.bind] at hs
  | 1 | 2 =>
    rcases checkExceedMax_eq limit (cs.length + cs'.length) with
      ⟨_, -, hcheck⟩ | ⟨-, hcheck⟩ <;>
      simp [concatonateText, allocate, bind, Except.bind, hsum, hcheck] at hs
  | room + 3 =>
    rcases checkExceedMax_eq limit (cs.length + cs'.length) with
      ⟨_, -, hcheck⟩ | ⟨hfits, hcheck⟩
    · simp [concatonateText, allocate, bind, Except.bind, hsum, hcheck] at hs
    · simp only [concatonateText, allocate, bind, Except.bind, hsum, hcheck, pure,
        Except.pure, Except.ok.injEq] at hs
      rw [← hs]
      exact ⟨hthis.append htext, by rwa [length_append]⟩

theorem mayBecome_appendText {text : ByteString} {textSize : ℕ} (hthis : Represents this cs)
    (hle : cs.length ≤ limit.toNat) (htext : utf8.encode cs' = text)
    (hsize : textSize = cs'.length) (hsmall : cs'.length < 2 ^ 32) :
    MayBecome limit this (cs ++ cs') (this.appendText limit text textSize room) := by
  have hcs := lt_of_le_limit hle
  have hsum : sizeT (this.stringSize + textSize) = cs.length + cs'.length := by
    rw [hthis.2, hsize, sizeT_of_lt (by omega)]
  simp only [appendText, hsum]
  rcases checkExceedMax_eq limit (cs.length + cs'.length) with
    ⟨thrown, -, hcheck⟩ | ⟨hfits, hcheck⟩
  · rw [hcheck]
    exact .inl ⟨thrown, rfl⟩
  · rw [hcheck]
    cases room with
    | zero => exact .inl ⟨_, rfl⟩
    | succ room => exact .inr ⟨rfl, hthis.append htext, by rwa [length_append]⟩

variable {n : UInt64} {pos startPos len : UInt32}

/-- A number is refused, or is what the script gave. -/
theorem toNat_toUInt32_of_lt (h : n.toNat < 2 ^ 32) : n.toUInt32.toNat = n.toNat := by
  rw [UInt64.toNat_toUInt32, Nat.mod_eq_of_lt h]

theorem utf8Size_toText (n : UInt32) : utf8Size (toText n) = (decimal n.toNat).length := by
  rw [← encode_decimal, utf8Size_encode]

theorem length_decimal_lt (n : UInt32) : (decimal n.toNat).length < 2 ^ 32 := by
  have hdigits := length_toText_le n
  rw [length_decimal]
  omega

/-- The size that is checked before a number is appended. -/
theorem sizeT_toText (n : UInt32) (hthis : Represents this cs) (hle : cs.length ≤ limit.toNat) :
    sizeT (this.stringSize + utf8Size (toText n)) = this.stringSize + (toText n).length := by
  have hdigits := length_toText_le n
  have hcs := lt_of_le_limit hle
  rw [utf8Size_toText, length_decimal, hthis.2, sizeT_of_lt (by omega)]

theorem mayMake_concatonateNumber (hthis : Represents this cs) (hle : cs.length ≤ limit.toNat)
    (hsafe : n.toNat < 2 ^ 32 ∨ room < 3 ∨
      limit.toNat < this.stringSize + (toText n.toUInt32).length) :
    MayMake limit (cs ++ decimal n.toNat) (this.concatonateNumber limit n.toUInt32 room) := by
  have hsum := sizeT_toText n.toUInt32 hthis hle
  rcases hsafe with hsmall | hrefused
  · rw [← toNat_toUInt32_of_lt hsmall]
    exact mayMake_concatonateText hthis hle (encode_decimal _) (utf8Size_toText _)
      (length_decimal_lt _)
  · intro s hs
    -- With that little room, or that many digits, nothing is made.
    rcases checkExceedMax_eq limit (this.stringSize + (toText n.toUInt32).length) with
      ⟨thrown, -, hcheck⟩ | ⟨hfits, hcheck⟩
    · match room with
      | 0 | 1 | room + 2 =>
        simp [concatonateNumber, concatonateText, allocate, bind, Except.bind, hsum,
          hcheck] at hs
    · have hroom : room < 3 := by omega
      match room with
      | 0 | 1 | 2 =>
        simp [concatonateNumber, concatonateText, allocate, bind, Except.bind, hsum,
          hcheck] at hs

theorem mayBecome_appendNumber (hthis : Represents this cs) (hle : cs.length ≤ limit.toNat)
    (hsafe : n.toNat < 2 ^ 32 ∨ room = 0 ∨
      limit.toNat < this.stringSize + (toText n.toUInt32).length) :
    MayBecome limit this (cs ++ decimal n.toNat)
      (this.appendNumber limit n.toUInt32 room) := by
  have hsum := sizeT_toText n.toUInt32 hthis hle
  rcases hsafe with hsmall | hrefused
  · rw [← toNat_toUInt32_of_lt hsmall]
    exact mayBecome_appendText hthis hle (encode_decimal _) (utf8Size_toText _)
      (length_decimal_lt _)
  · simp only [appendNumber, appendText, hsum]
    rcases checkExceedMax_eq limit (this.stringSize + (toText n.toUInt32).length) with
      ⟨thrown, -, hcheck⟩ | ⟨hfits, hcheck⟩
    · rw [hcheck]
      exact .inl ⟨thrown, rfl⟩
    · have hroom : room = 0 := by omega
      rw [hcheck, hroom]
      exact .inl ⟨_, rfl⟩

theorem length_boolText_le (b : Bool) : (boolText b).length ≤ 5 := by
  cases b <;> decide

theorem utf8Size_boolText (b : Bool) : utf8Size (boolText b) = (boolPoints b).length := by
  rw [← encode_boolPoints, utf8Size_encode]

theorem checkExceedMax_of_le {size : ℕ} (h : size ≤ limit.toNat) :
    checkExceedMax limit size = .ok () := by
  rw [checkExceedMax, if_neg (by omega)]

/-- The size that is checked after a boolean is appended. -/
theorem sizeT_boolText (b : Bool) (hthis : Represents this cs) (hle : cs.length ≤ limit.toNat) :
    sizeT (this.stringSize + utf8Size (boolText b)) = cs.length + (boolPoints b).length := by
  have hcs := lt_of_le_limit hle
  have hletters := length_boolText_le b
  have hlength := length_boolPoints b
  rw [utf8Size_boolText, hthis.2, sizeT_of_lt (by omega)]

theorem mayMake_concatonateBool {b : Bool} (hthis : Represents this cs)
    (hle : cs.length ≤ limit.toNat) :
    MayMake limit (cs ++ boolPoints b) (this.concatonateBool limit b room) := by
  have hsum := sizeT_boolText b hthis hle
  have hfirst : checkExceedMax limit this.stringSize = .ok () :=
    checkExceedMax_of_le (by rwa [hthis.2])
  intro s hs
  match room with
  | 0 | 1 | 2 =>
    simp [concatonateBool, allocate, bind, Except.bind, hfirst] at hs
  | room + 3 =>
    rcases checkExceedMax_eq limit (cs.length + (boolPoints b).length) with
      ⟨_, -, hcheck⟩ | ⟨hfits, hcheck⟩
    · simp [concatonateBool, allocate, bind, Except.bind, hfirst, hsum, hcheck] at hs
    · simp only [concatonateBool, allocate, bind, Except.bind, hfirst, hsum, hcheck, pure,
        Except.pure, Except.ok.injEq] at hs
      rw [← hs]
      exact ⟨hthis.append (encode_boolPoints b), by rwa [length_append]⟩

theorem mayBecome_appendBool {b : Bool} (hthis : Represents this cs)
    (hle : cs.length ≤ limit.toNat)
    (hsafe : this.stringSize + (boolText b).length ≤ limit.toNat ∨ room = 0) :
    MayBecome limit this (cs ++ boolPoints b) (this.appendBool limit b room) := by
  have hfirst : checkExceedMax limit this.stringSize = .ok () :=
    checkExceedMax_of_le (by rwa [hthis.2])
  simp only [appendBool, hfirst, sizeT_boolText b hthis hle]
  cases room with
  | zero => exact .inl ⟨_, rfl⟩
  | succ room =>
    have hfits : cs.length + (boolPoints b).length ≤ limit.toNat := by
      rw [hthis.2] at hsafe
      rw [length_boolPoints]
      omega
    rw [allocate]
    simp only [checkExceedMax_of_le hfits]
    exact .inr ⟨rfl, hthis.append (encode_boolPoints b), by rwa [length_append]⟩

/-- The loop of `fill` with another string. -/
theorem fillFrom_some (hstr : Represents str cs') {repeats : ℕ} (hroom : repeats ≤ room)
    (hthis : Represents this cs) (hfits : cs.length + cs'.length * repeats ≤ limit.toNat) :
    ∃ filled, fillFrom (some str) repeats room this = (none, filled) ∧
      Represents filled (cs ++ (List.replicate repeats cs').flatten) := by
  induction repeats generalizing this cs room with
  | zero => exact ⟨this, rfl, by simpa using hthis⟩
  | succ repeats ih =>
    obtain ⟨room, rfl⟩ : ∃ k, room = k + 1 := ⟨room - 1, by omega⟩
    rw [Nat.mul_succ] at hfits
    have hsmall := lt_of_le_limit hfits
    have hpiece := hthis.append hstr.1.symm
    rw [replicate_succ, flatten_cons, ← append_assoc]
    have hsum : sizeT (this.stringSize + str.stringSize) = cs.length + cs'.length := by
      rw [hthis.2, hstr.2, sizeT_of_lt (by omega)]
    simp only [fillFrom, allocate, Option.getD_some, hsum]
    exact ih (by omega) hpiece (by rw [length_append]; omega)

theorem mayBecome_fill {source : Option AString} {repeats : UInt32} (hthis : Represents this cs)
    (hstr : Represents str cs') (hle : cs.length ≤ limit.toNat) (hle' : cs'.length ≤ limit.toNat)
    (hsource : source = some str ∨ (source = none ∧ str = this))
    (hsafe : str.stringSize = 0 ∨ room = 0 ∨
      limit.toNat < this.stringSize + str.stringSize * repeats.toNat ∨
        (repeats.toNat ≤ room ∧ (source = none → repeats.toNat ≤ 1))) :
    MayBecome limit this (cs ++ (List.replicate repeats.toNat cs').flatten)
      (this.fill limit source repeats room) := by
  have hget : source.getD this = str := by
    rcases hsource with rfl | ⟨rfl, rfl⟩ <;> rfl
  have hproduct : cs'.length * repeats.toNat ≤ (2 ^ 32 - 1) * (2 ^ 32 - 1) :=
    Nat.mul_le_mul (Nat.le_pred_of_lt (lt_of_le_limit hle')) (Nat.le_pred_of_lt repeats.toNat_lt)
  have hcs := lt_of_le_limit hle
  have hsum : sizeT (this.stringSize + sizeT (str.stringSize * repeats.toNat)) =
      cs.length + cs'.length * repeats.toNat := by
    rw [hthis.2, hstr.2, sizeT_of_lt (n := cs'.length * repeats.toNat) (by omega),
      sizeT_of_lt (by omega)]
  simp only [fill, hget, hsum]
  split_ifs with hsome
  · rcases checkExceedMax_eq limit (cs.length + cs'.length * repeats.toNat) with
      ⟨thrown, -, hcheck⟩ | ⟨hfits, hcheck⟩
    · rw [hcheck]
      exact .inl ⟨thrown, rfl⟩
    · rw [hcheck]
      have hrepeats : 0 < repeats.toNat := by
        rw [Nat.pos_iff_ne_zero]
        intro hzero
        exact hsome.1 (UInt32.toNat_inj.mp hzero)
      by_cases hroom : room = 0
      · obtain ⟨k, hk⟩ : ∃ k, repeats.toNat = k + 1 := ⟨repeats.toNat - 1, by omega⟩
        rw [hk, hroom]
        exact .inl ⟨_, rfl⟩
      · rw [hthis.2, hstr.2] at hsafe
        rw [hstr.2] at hsome
        obtain ⟨henough, honce⟩ : repeats.toNat ≤ room ∧ (source = none → repeats.toNat ≤ 1) := by
          rcases hsafe with hempty | hnone | hlong | hsafe
          · exact absurd hempty hsome.2
          · exact absurd hnone hroom
          · omega
          · exact hsafe
        obtain ⟨filled, hfilled, hrepresents⟩ := fillFrom_some hstr henough hthis hfits
        have hsame : fillFrom source repeats.toNat room this =
            fillFrom (some str) repeats.toNat room this := by
          rcases hsource with rfl | ⟨rfl, rfl⟩
          · rfl
          · obtain ⟨room, rfl⟩ : ∃ k, room = k + 1 := ⟨room - 1, by omega⟩
            rw [show repeats.toNat = 1 by have := honce rfl; omega]
            rfl
        simp only [hsame, hfilled]
        refine .inr ⟨rfl, hrepresents, ?_⟩
        rw [length_append, length_flatten, map_replicate, sum_replicate_nat,
          Nat.mul_comm]
        exact hfits
  · -- Nothing is appended, and there is nothing to append.
    have hnothing : (List.replicate repeats.toNat cs').flatten = [] := by
      rw [not_and_or, not_not, not_not, hstr.2] at hsome
      rcases hsome with rfl | hempty
      · rfl
      · rw [length_eq_zero_iff.mp hempty]
        simp
    rw [hnothing, append_nil]
    exact .inr ⟨rfl, hthis, hle⟩

theorem checkPosition_eq (pos : UInt32) (message : String) (hthis : Represents this cs) :
    (∃ thrown, this.checkPosition pos message = .error thrown) ∨
      (pos.toNat < cs.length ∧ this.checkPosition pos message = .ok ()) := by
  rw [checkPosition, hthis.2]
  split_ifs with h
  · exact .inl ⟨_, rfl⟩
  · exact .inr ⟨Nat.lt_of_not_le h, rfl⟩

theorem mayFind_find (hthis : Represents this cs) (hstr : Represents str cs') :
    MayFind (firstOccurrence cs' cs 0) (.ok (this.find str)) := by
  rintro _ ⟨⟩
  rw [AString.find, hthis.1, hstr.1, utf8Find_encode (Nat.zero_le _)]

theorem mayFind_findAt (hthis : Represents this cs) (hstr : Represents str cs') :
    MayFind (firstOccurrence cs' cs pos.toNat) (this.findAt str pos) := by
  intro found hfound
  rw [findAt] at hfound
  rcases checkPosition_eq pos "find(): Starting position is out of bounds." hthis with
    ⟨thrown, hcheck⟩ | ⟨hpos, hcheck⟩
  · simp [hcheck, bind, Except.bind] at hfound
  · simp only [hcheck, bind, Except.bind, pure, Except.pure, Except.ok.injEq] at hfound
    rw [← hfound, hthis.1, hstr.1, utf8Find_encode hpos.le]

theorem utf8FindLast_of_findsLast
    (h : ∀ p ∈ lastOccurrence (utf8.encode cs') (utf8.encode cs),
      FindsLast (utf8.encode cs) (utf8.encode cs') p) :
    utf8FindLast (utf8.encode cs) (utf8.encode cs') = lastOccurrence cs' cs := by
  refine utf8FindLast_encode ?_
  intro i hi
  exact h _ (by rw [Code.lastOccurrence_encode, hi]; rfl)

theorem mayFind_findLast (hthis : Represents this cs) (hstr : Represents str cs')
    (hsafe : ∀ p ∈ lastOccurrence str.stringValue this.stringValue,
      FindsLast this.stringValue str.stringValue p) :
    MayFind (lastOccurrence cs' cs) (.ok (this.findLast str)) := by
  rintro _ ⟨⟩
  rw [hthis.1, hstr.1] at hsafe
  rw [findLast, hthis.1, hstr.1, utf8FindLast_of_findsLast hsafe]

theorem upTo_eq (hthis : Represents this cs) (hpos : pos.toNat < cs.length) :
    this.upTo pos = utf8.encode (cs.take (pos.toNat + 1)) := by
  rw [upTo, hthis.2, hthis.1]
  split_ifs with hend
  · rw [utf8IndexToByte_encode (by omega), Code.encode_take]
  · rw [take_length, take_of_length_le (by omega)]

theorem mayFind_findLastAt (hthis : Represents this cs) (hstr : Represents str cs')
    (hsafe : this.stringSize ≤ pos.toNat ∨
      ∀ p ∈ lastOccurrence str.stringValue (this.upTo pos),
        FindsLast (this.upTo pos) str.stringValue p) :
    MayFind (lastOccurrence cs' (cs.take (pos.toNat + 1))) (this.findLastAt str pos) := by
  intro found hfound
  rw [findLastAt] at hfound
  rcases checkPosition_eq pos "find_last(): End position is out of bounds." hthis with
    ⟨thrown, hcheck⟩ | ⟨hpos, hcheck⟩
  · simp [hcheck, bind, Except.bind] at hfound
  · simp only [hcheck, bind, Except.bind, pure, Except.pure, Except.ok.injEq] at hfound
    rw [hthis.2, upTo_eq hthis hpos, hstr.1] at hsafe
    rw [← hfound, upTo_eq hthis hpos, hstr.1]
    exact utf8FindLast_of_findsLast (hsafe.resolve_left (by omega))

theorem offset_lt_sizeT {i : ℕ} (hi : i ≤ cs.length) (hle : cs.length ≤ limit.toNat) :
    utf8.offset cs i < 2 ^ 64 := by
  have hbound := (Code.offset_le_offset_iff (C := utf8) hi le_rfl).mpr hi
  have hbytes := length_encode_le cs
  have hcs := lt_of_le_limit hle
  rw [Code.offset_length] at hbound
  omega

theorem endByteIndex_eq (hthis : Represents this cs) :
    this.endByteIndex startPos len =
      utf8.offset cs (min (startPos.toNat + len.toNat) cs.length) := by
  have hstart := startPos.toNat_lt
  have hlen := len.toNat_lt
  simp only [endByteIndex, hthis.2, hthis.1]
  rw [sizeT_of_lt (by omega)]
  split_ifs with hend
  · rw [utf8IndexToByte_encode hend.le, Nat.min_eq_left hend.le]
  · rw [Nat.min_eq_right (by omega), Code.offset_length]

theorem byteCount_offset {i j : ℕ} (hij : i ≤ j) (hj : j ≤ cs.length)
    (hle : cs.length ≤ limit.toNat) :
    byteCount (utf8.offset cs i) (utf8.offset cs j) =
      utf8.offset cs j - utf8.offset cs i := by
  have horder := (Code.offset_le_offset_iff (C := utf8) (hij.trans hj) hj).mpr hij
  have hbytes := offset_lt_sizeT hj hle
  have hsum : utf8.offset cs j + 2 ^ 64 - utf8.offset cs i =
      utf8.offset cs j - utf8.offset cs i + 2 ^ 64 := by
    omega
  rw [byteCount, sizeT, hsum, Nat.add_mod_right, Nat.mod_eq_of_lt (by omega)]

section

variable (hthis : Represents this cs)
include hthis

/-- A part that is made behind the check of its position. -/
theorem mayMake_part {message : String} {part : AString}
    (hpart : pos.toNat < cs.length → Represents part cs' ∧ cs'.length ≤ limit.toNat) :
    MayMake limit cs' (do
      this.checkPosition pos message
      let room ← allocate room
      let _ ← allocate room
      return part) := by
  intro s hs
  rcases checkPosition_eq pos message hthis with ⟨thrown, hcheck⟩ | ⟨hpos, hcheck⟩
  · simp [hcheck, bind, Except.bind] at hs
  · match room with
    | 0 | 1 => simp [hcheck, bind, Except.bind, allocate] at hs
    | room + 2 =>
      simp only [hcheck, bind, Except.bind, allocate, pure, Except.pure, Except.ok.injEq] at hs
      rw [← hs]
      exact hpart hpos

section

variable (hle : cs.length ≤ limit.toNat)
include hle

theorem mayMake_substring :
    MayMake limit (cs.drop startPos.toNat) (this.substring startPos room) := by
  refine mayMake_part hthis ?_
  intro hpos
  rw [hthis.1, utf8IndexToByte_encode hpos.le, ← Code.encode_drop]
  refine ⟨represents_encode _, ?_⟩
  rw [length_drop]
  omega

theorem mayMake_substringLen :
    MayMake limit ((cs.drop startPos.toNat).take len.toNat)
      (this.substringLen startPos len room) := by
  refine mayMake_part hthis ?_
  intro hpos
  have hstart : startPos.toNat ≤ min (startPos.toNat + len.toNat) cs.length := by omega
  have hpart : (cs.drop startPos.toNat).take
      (min (startPos.toNat + len.toNat) cs.length - startPos.toNat) =
        (cs.drop startPos.toNat).take len.toNat := by
    rw [take_eq_take_iff, length_drop]
    omega
  rw [endByteIndex_eq hthis, hthis.1, utf8IndexToByte_encode hpos.le,
    byteCount_offset hstart (Nat.min_le_right _ _) hle, ← Code.encode_drop_take hstart, hpart]
  refine ⟨represents_encode _, ?_⟩
  rw [length_take, length_drop]
  omega

theorem mayMake_charAt : MayMake limit ((cs.drop pos.toNat).take 1) (this.charAt pos room) := by
  refine mayMake_part hthis ?_
  intro hpos
  have hne : cs[pos.toNat].val ≠ [] := utf8.word_ne_nil cs[pos.toNat]
  rw [hthis.1, utf8CharAt_encode hpos, if_neg hne, drop_eq_getElem_cons hpos,
    take_succ_cons, take_zero]
  refine ⟨⟨by simp, rfl⟩, ?_⟩
  rw [length_singleton]
  omega

theorem mayBecome_erase : MayBecome limit this (cs.take startPos.toNat) (this.erase startPos) := by
  rw [erase]
  rcases checkPosition_eq startPos "erase(): Start position is out of bounds." hthis with
    ⟨thrown, hcheck⟩ | ⟨hpos, hcheck⟩
  · rw [hcheck]
    exact .inl ⟨thrown, rfl⟩
  · simp only [hcheck, hthis.1, utf8IndexToByte_encode hpos.le, ← Code.encode_take]
    exact .inr ⟨rfl, represents_encode _, (length_take_le' _ _).trans hle⟩

theorem mayBecome_eraseLen :
    MayBecome limit this (cs.take startPos.toNat ++ cs.drop (startPos.toNat + len.toNat))
      (this.eraseLen startPos len) := by
  rw [eraseLen]
  rcases checkPosition_eq startPos "erase(): Start position is out of bounds." hthis with
    ⟨thrown, hcheck⟩ | ⟨hpos, hcheck⟩
  · rw [hcheck]
    exact .inl ⟨thrown, rfl⟩
  · simp only [hcheck]
    split_ifs with hzero hend
    · subst hzero
      exact .inr ⟨rfl, by simpa using hthis, by simpa using hle⟩
    · have hstart : startPos.toNat ≤ min (startPos.toNat + len.toNat) cs.length := by omega
      have horder := (Code.offset_le_offset_iff (C := utf8) hpos.le
        (Nat.min_le_right (startPos.toNat + len.toNat) cs.length)).mpr hstart
      have hrest : cs.drop (min (startPos.toNat + len.toNat) cs.length) =
          cs.drop (startPos.toNat + len.toNat) := by
        rcases Nat.le_total (startPos.toNat + len.toNat) cs.length with hin | hpast
        · rw [Nat.min_eq_left hin]
        · rw [Nat.min_eq_right hpast, drop_length, drop_eq_nil_of_le hpast]
      rw [endByteIndex_eq hthis, hthis.1, utf8IndexToByte_encode hpos.le,
        byteCount_offset hstart (Nat.min_le_right _ _) hle, Nat.add_sub_cancel' horder,
        ← Code.encode_take, ← Code.encode_drop, hrest, ← Code.encode_append]
      refine .inr ⟨rfl, represents_encode _, ?_⟩
      rw [length_append, length_take, length_drop]
      omega
    · -- The end is behind the start, so that it is not the first byte.
      have hlen : 0 < len.toNat := by
        rw [Nat.pos_iff_ne_zero]
        intro h
        exact hzero (UInt32.toNat_inj.mp h)
      have hlt : utf8.offset cs 0 < utf8.offset cs (min (startPos.toNat + len.toNat) cs.length) :=
        Code.offset_lt_offset (by omega) (Nat.min_le_right _ _)
      rw [endByteIndex_eq hthis] at hend
      omega

end

end

end Operations

/-! ### Calls -/

section Calls

variable {limit : UInt32} {strings : List AString} {texts : List (List CodePoint)}
  {operation : Operation} {i j : ℕ} {this str : AString} {cs : List CodePoint}

theorem good_of_represents (h : Represents this cs) (hle : cs.length ≤ limit.toNat) :
    Good limit this where
  valid := .inr (utf8Valid_iff.mpr ⟨cs, h.1.symm⟩)
  represents := ⟨cs, h⟩
  size_le := by rwa [h.2]

theorem exists_texts (h : ∀ s ∈ strings, Good limit s) :
    ∃ texts, List.Forall₂ Represents strings texts := by
  induction strings with
  | nil => exact ⟨[], .nil⟩
  | cons s strings ih =>
    rw [forall_mem_cons] at h
    obtain ⟨cs, hcs⟩ := h.1.represents
    obtain ⟨texts, htexts⟩ := ih h.2
    exact ⟨cs :: texts, .cons hcs htexts⟩

theorem represents_getD (htexts : List.Forall₂ Represents strings texts)
    (hi : strings[i]? = some this) : Represents this (texts.getD i []) := by
  induction htexts generalizing i with
  | nil => simp at hi
  | cons hs _ ih =>
    cases i with
    | zero => simpa using (Option.some.inj hi) ▸ hs
    | succ i => exact ih hi

theorem forall₂_set (htexts : List.Forall₂ Represents strings texts) (h : Represents this cs) :
    List.Forall₂ Represents (strings.set i this) (texts.set i cs) := by
  induction htexts generalizing i with
  | nil => exact .nil
  | cons hs hrest ih =>
    cases i with
    | zero => exact .cons h hrest
    | succ i => exact .cons hs ih

section

variable (hgood : ∀ s ∈ strings, Good limit s) (htexts : List.Forall₂ Represents strings texts)
include hgood htexts

/-- After a call that changes its string. -/
theorem conforms_afterCalled {called : Called} (hi : strings[i]? = some this)
    (h : MayBecome limit this cs called)
    (hideal : ideal texts operation = (texts.set i cs, .returned)) :
    (∀ s ∈ (Script.afterCalled strings i called).strings, Good limit s) ∧
      Conforms strings operation (Script.afterCalled strings i called) := by
  rcases h with ⟨thrown, rfl⟩ | ⟨hnone, hrepresents, hle⟩
  · have hsame : strings.set i this = strings := by
      obtain ⟨hlt, rfl⟩ := List.getElem?_eq_some_iff.mp hi
      exact set_getElem_self hlt
    simp only [Script.afterCalled, hsame]
    exact ⟨hgood, rfl⟩
  · refine ⟨?_, ?_⟩
    · intro s hs
      rcases mem_or_eq_of_mem_set hs with hs | rfl
      · exact hgood s hs
      · exact good_of_represents hrepresents hle
    · simp only [Conforms, Script.afterCalled, hnone, Option.elim_none]
      refine ⟨texts, htexts, ?_, ?_⟩
      · rw [hideal]
        exact forall₂_set htexts hrepresents
      · rw [hideal]

/-- After a call that makes a string. -/
theorem conforms_afterMade {made : Except Thrown AString} (h : MayMake limit cs made)
    (hideal : ideal texts operation = (texts ++ [cs], .string texts.length)) :
    (∀ s ∈ (Script.afterMade strings made).strings, Good limit s) ∧
      Conforms strings operation (Script.afterMade strings made) := by
  cases made with
  | error thrown => exact ⟨hgood, rfl⟩
  | ok s =>
    obtain ⟨hrepresents, hle⟩ := h s rfl
    refine ⟨?_, ?_⟩
    · intro s' hs'
      rcases mem_append.mp hs' with hs' | hs'
      · exact hgood s' hs'
      · rw [mem_singleton.mp hs']
        exact good_of_represents hrepresents hle
    · refine ⟨texts, htexts, ?_, ?_⟩
      · rw [hideal]
        exact rel_append htexts (.cons hrepresents .nil)
      · simp only [Script.afterMade, hideal, htexts.length_eq]

/-- After a search. -/
theorem conforms_afterFound {expected : Option ℕ} {result : Except Thrown (Option ℕ)}
    (h : MayFind expected result) (hideal : ideal texts operation = (texts, .position expected)) :
    (∀ s ∈ (Script.afterFound strings result).strings, Good limit s) ∧
      Conforms strings operation (Script.afterFound strings result) := by
  cases result with
  | error thrown => exact ⟨hgood, rfl⟩
  | ok found =>
    refine ⟨hgood, texts, htexts, ?_, ?_⟩
    · rw [hideal]
      exact htexts
    · simp only [Script.afterFound, hideal, h found rfl]

end

/-- **A safe call conforms**, and good strings stay good. -/
theorem conforms_of_step {script script' : Script} {room : ℕ}
    (hgood : ∀ s ∈ script.strings, Good limit s) (hsafe : Safe limit script (operation, room))
    (h : step limit script (operation, room) = some script') :
    (∀ s ∈ script'.strings, Good limit s) ∧ Conforms script.strings operation script' := by
  obtain ⟨texts, htexts⟩ := exists_texts hgood
  have hbound : ∀ {i this}, script.strings[i]? = some this →
      (texts.getD i []).length ≤ limit.toNat := by
    intro i this hi
    rw [← (represents_getD htexts hi).2]
    exact (hgood this (mem_of_getElem? hi)).size_le
  have hget : ∀ {i this}, script.strings[i]? = some this → script.string i = this := by
    intro i this hi
    rw [Script.string, getD_eq_getElem?_getD, hi, Option.getD_some]
  have hone : ∀ {i : ℕ} {f : AString → Script},
      (script.strings[i]?.bind fun this => some (f this)) = some script' →
        ∃ this, script.strings[i]? = some this ∧ f this = script' := by
    intro i f hf
    obtain ⟨this, hi, hf⟩ := Option.bind_eq_some_iff.mp hf
    exact ⟨this, hi, Option.some.inj hf⟩
  have htwo : ∀ {i j : ℕ} {f : AString → AString → Script},
      (script.strings[i]?.bind fun this => script.strings[j]?.bind fun str =>
        some (f this str)) = some script' →
          ∃ this str, script.strings[i]? = some this ∧ script.strings[j]? = some str ∧
            f this str = script' := by
    intro i j f hf
    obtain ⟨this, hi, hf⟩ := Option.bind_eq_some_iff.mp hf
    obtain ⟨str, hj, hf⟩ := Option.bind_eq_some_iff.mp hf
    exact ⟨this, str, hi, hj, Option.some.inj hf⟩
  cases operation with
  | assign i j =>
    obtain ⟨this, str, hi, hj, rfl⟩ := htwo h
    exact conforms_afterCalled hgood htexts hi
      (mayBecome_assign (represents_getD htexts hj) (hbound hj)) rfl
  | opAdd i j =>
    obtain ⟨this, str, hi, hj, rfl⟩ := htwo h
    have hstr := represents_getD htexts hj
    exact conforms_afterMade hgood htexts
      (mayMake_concatonateText (represents_getD htexts hi) (hbound hi) hstr.1.symm hstr.2
        (lt_of_le_limit (hbound hj))) rfl
  | opAddAssign i j | append i j =>
    obtain ⟨this, str, hi, hj, rfl⟩ := htwo h
    have hstr := represents_getD htexts hj
    exact conforms_afterCalled hgood htexts hi
      (mayBecome_appendText (represents_getD htexts hi) (hbound hi) hstr.1.symm hstr.2
        (lt_of_le_limit (hbound hj))) rfl
  | opAddNumber i n =>
    obtain ⟨this, hi, rfl⟩ := hone h
    rw [Safe, hget hi] at hsafe
    exact conforms_afterMade hgood htexts
      (mayMake_concatonateNumber (represents_getD htexts hi) (hbound hi) hsafe) rfl
  | opAddAssignNumber i n | appendNumber i n =>
    obtain ⟨this, hi, rfl⟩ := hone h
    rw [Safe, hget hi] at hsafe
    exact conforms_afterCalled hgood htexts hi
      (mayBecome_appendNumber (represents_getD htexts hi) (hbound hi) hsafe) rfl
  | opAddBool i b =>
    obtain ⟨this, hi, rfl⟩ := hone h
    exact conforms_afterMade hgood htexts
      (mayMake_concatonateBool (represents_getD htexts hi) (hbound hi)) rfl
  | opAddAssignBool i b | appendBool i b =>
    obtain ⟨this, hi, rfl⟩ := hone h
    rw [Safe, hget hi] at hsafe
    exact conforms_afterCalled hgood htexts hi
      (mayBecome_appendBool (represents_getD htexts hi) (hbound hi) hsafe) rfl
  | fill i j repeats =>
    obtain ⟨this, str, hi, hj, rfl⟩ := htwo h
    rw [Safe, hget hi, hget hj] at hsafe
    have hsource : (if i = j then none else some str) = some str ∨
        ((if i = j then none else some str) = none ∧ str = this) := by
      by_cases hij : i = j
      · subst hij
        exact .inr ⟨if_pos rfl, Option.some.inj (hj.symm.trans hi)⟩
      · exact .inl (if_neg hij)
    have honce : (if i = j then none else some str) = none → i = j := by
      intro hnone
      by_contra hij
      simp [if_neg hij] at hnone
    refine conforms_afterCalled hgood htexts hi
      (mayBecome_fill (represents_getD htexts hi) (represents_getD htexts hj) (hbound hi)
        (hbound hj) hsource ?_) rfl
    rcases hsafe with hempty | hroom | hlong | ⟨henough, hself⟩
    · exact .inl hempty
    · exact .inr (.inl hroom)
    · exact .inr (.inr (.inl hlong))
    · exact .inr (.inr (.inr ⟨henough, fun hnone => hself (honce hnone)⟩))
  | find i j =>
    obtain ⟨this, str, hi, hj, rfl⟩ := htwo h
    exact conforms_afterFound hgood htexts
      (mayFind_find (represents_getD htexts hi) (represents_getD htexts hj)) rfl
  | findAt i j pos =>
    obtain ⟨this, str, hi, hj, rfl⟩ := htwo h
    exact conforms_afterFound hgood htexts
      (mayFind_findAt (represents_getD htexts hi) (represents_getD htexts hj)) rfl
  | findLast i j =>
    obtain ⟨this, str, hi, hj, rfl⟩ := htwo h
    rw [Safe, hget hi, hget hj] at hsafe
    exact conforms_afterFound hgood htexts
      (mayFind_findLast (represents_getD htexts hi) (represents_getD htexts hj) hsafe) rfl
  | findLastAt i j pos =>
    obtain ⟨this, str, hi, hj, rfl⟩ := htwo h
    rw [Safe, hget hi, hget hj] at hsafe
    exact conforms_afterFound hgood htexts
      (mayFind_findLastAt (represents_getD htexts hi) (represents_getD htexts hj) hsafe) rfl
  | substring i startPos =>
    obtain ⟨this, hi, rfl⟩ := hone h
    exact conforms_afterMade hgood htexts
      (mayMake_substring (represents_getD htexts hi) (hbound hi)) rfl
  | substringLen i startPos len =>
    obtain ⟨this, hi, rfl⟩ := hone h
    exact conforms_afterMade hgood htexts
      (mayMake_substringLen (represents_getD htexts hi) (hbound hi)) rfl
  | erase i startPos =>
    obtain ⟨this, hi, rfl⟩ := hone h
    exact conforms_afterCalled hgood htexts hi
      (mayBecome_erase (represents_getD htexts hi) (hbound hi)) rfl
  | eraseLen i startPos len =>
    obtain ⟨this, hi, rfl⟩ := hone h
    exact conforms_afterCalled hgood htexts hi
      (mayBecome_eraseLen (represents_getD htexts hi) (hbound hi)) rfl
  | charAt i pos =>
    obtain ⟨this, hi, rfl⟩ := hone h
    exact conforms_afterMade hgood htexts
      (mayMake_charAt (represents_getD htexts hi) (hbound hi)) rfl

end Calls

/-! ### Runs -/

/-- **Script strings are lists of code points**: after any number of safe calls the strings are
good, and every safe call shows what it means for lists of code points. -/
theorem conforms_of_steps {limit : UInt32} {start script : Script} {calls : List (Operation × ℕ)}
    (hstart : ∀ s ∈ start.strings, Good limit s)
    (h : Steps (step limit) (Safe limit) start calls script) :
    (∀ s ∈ script.strings, Good limit s) ∧
      ∀ operation room script', Safe limit script (operation, room) →
        step limit script (operation, room) = some script' →
          Conforms script.strings operation script' := by
  have hgood : ∀ s ∈ script.strings, Good limit s := by
    refine h.invariant (I := fun script => ∀ s ∈ script.strings, Good limit s) hstart ?_
    rintro before ⟨operation, room⟩ after hbefore hsafe hstep
    exact (conforms_of_step hbefore hsafe hstep).1
  refine ⟨hgood, ?_⟩
  intro operation room script' hsafe hstep
  exact (conforms_of_step hgood hsafe hstep).2

/-- The string `ab`. -/
def ab : AString where
  stringValue := [97, 98]
  stringSize := 2

theorem good_ab : Good 20 ab := by
  have hab : Represents ab (['a', 'b'].map asciiPoint) := ⟨rfl, rfl⟩
  exact good_of_represents hab (by decide)

theorem conforms_of_steps_ab : ∃ script, Steps (step 20) (Safe 20) { strings := [ab] }
    [(.opAdd 0 0, 3), (.appendNumber 1 12, 1), (.appendBool 0 true, 1), (.eraseLen 1 1 2, 0),
      (.fill 1 0 2, 2)] script ∧
      script.last = .returned ∧
      (∀ s ∈ script.strings, Good 20 s) ∧
      ∀ operation room script', Safe 20 script (operation, room) →
        step 20 script (operation, room) = some script' →
          Conforms script.strings operation script' := by
  have hrun : ∃ script, run (guarded (step 20) (Safe 20)) { strings := [ab] }
      [(.opAdd 0 0, 3), (.appendNumber 1 12, 1), (.appendBool 0 true, 1), (.eraseLen 1 1 2, 0),
        (.fill 1 0 2, 2)] = some script ∧ script.last = .returned := ⟨_, rfl, by decide⟩
  obtain ⟨script, hrun, hlast⟩ := hrun
  have hsteps := steps_of_run_guarded hrun
  have hstart : ∀ s ∈ [ab], Good 20 s := by
    intro s hs
    rw [List.mem_singleton.mp hs]
    exact good_ab
  exact ⟨script, hsteps, hlast, conforms_of_steps hstart hsteps⟩

/-- A number that needs more than 32 bits is appended as another number. -/
theorem appendNumber_truncated :
    let appended : Script := { strings := [{ stringValue := [97, 98, 48], stringSize := 3 }] }
    (∀ s ∈ [ab], Good 20 s) ∧
      step 20 { strings := [ab] } (.appendNumber 0 4294967296, 1) = some appended ∧
        ¬ Conforms [ab] (.appendNumber 0 4294967296) appended := by
  refine ⟨?_, by decide, ?_⟩
  · intro s hs
    rw [List.mem_singleton.mp hs]
    exact good_ab
  · rintro ⟨texts, htexts, hafter, -⟩
    cases htexts with
    | cons hab hrest =>
      cases hafter with
      | cons happended _ =>
        have hsizes := happended.2
        rw [List.length_append, List.getD_cons_zero, ← hab.2, decimal, List.length_map] at hsizes
        have hdigits : ¬ (Nat.toDigits 10 (4294967296 : UInt64).toNat).length ≤ 1 := by
          rw [Nat.length_toDigits_le_iff (by decide) (by decide)]
          decide
        change 3 = 2 + _ at hsizes
        omega

/-- The other slips: the limit is exceeded by a call that throws, a string filled with itself has
become too long, and what is at the end is not found. -/
example :
    step 5 { strings := [ab] } (.appendBool 0 true, 1) =
        some { strings := [{ stringValue := [97, 98, 116, 114, 117, 101], stringSize := 6 }]
               last := .threw (.angelException
                 "check_exceed_max(): String size exceeds maximum allowed.") } ∧
      (step 10 { strings := [ab] } (.fill 0 0 3, 3)).map
          (fun script => script.strings.map stringSize) = some [16] ∧
      (step 10 { strings := [ab] } (.findLast 0 0, 0)).map Script.last =
        some (.position none) := by
  decide

end Mutgos.AngelscriptInterface
