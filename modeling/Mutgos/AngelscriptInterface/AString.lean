import Mutgos.Text.Utf8Tools

/-!
# The script string

A script's string keeps its bytes and, beside them, how many code points they
are.  A call can throw: because the result would exceed the limit for strings,
because a position is out of bounds, or because the script's heap is exhausted.
How much the heap still has is given to each call as a number of steps that can
allocate.
-/

namespace Mutgos.AngelscriptInterface

open Mutgos.Text

/-- What a call can throw. -/
inductive Thrown
  | angelException (message : String)
  | badAlloc
  deriving DecidableEq, Repr

/-- Arithmetic of `size_t`. -/
def sizeT (n : ℕ) : ℕ := n % 2 ^ 64

structure AString where
  stringValue : ByteString := []
  stringSize : ℕ := 0
  deriving DecidableEq, Repr

/-- What a call that changes its string throws, if anything, and the string afterwards. -/
abbrev Called := Option Thrown × AString

/-- A step that can allocate, where `room` of them are possible. -/
def allocate : (room : ℕ) → Except Thrown ℕ
  | 0 => .error .badAlloc
  | room + 1 => .ok room

def checkExceedMax (limit : UInt32) (size : ℕ) : Except Thrown Unit :=
  if limit.toNat < size then
    .error (.angelException "check_exceed_max(): String size exceeds maximum allowed.")
  else .ok ()

/-- `text::to_string` for a number -/
def toText (n : UInt32) : ByteString := (Nat.toDigits 10 n.toNat).map fun c => c.toNat.toUInt8

/-- `TRUE_VALUE` and `FALSE_VALUE` -/
def boolText : Bool → ByteString
  | true => [116, 114, 117, 101]
  | false => [102, 97, 108, 115, 101]

namespace AString

variable (limit : UInt32) (this : AString)

/-- `assign`, `operator=` -/
def assign (str : AString) (room : ℕ) : Called :=
  match allocate room with
  | .error thrown => (some thrown, this)
  | .ok _ => (none, str)

/-! ### Concatenation -/

/-- What the `concatonate` of strings and numbers do with the bytes and the size of what is
appended: the new object, the check, a copy and what is appended to it. -/
def concatonateText (text : ByteString) (textSize : ℕ) (room : ℕ) : Except Thrown AString := do
  let room ← allocate room
  let newSize := sizeT (this.stringSize + textSize)
  checkExceedMax limit newSize
  let room ← allocate room
  let _ ← allocate room
  return { stringValue := this.stringValue ++ text, stringSize := newSize }

/-- What the `operator+=` and `append` of strings and numbers do. -/
def appendText (text : ByteString) (textSize : ℕ) (room : ℕ) : Called :=
  let newSize := sizeT (this.stringSize + textSize)
  match checkExceedMax limit newSize with
  | .error thrown => (some thrown, this)
  | .ok _ =>
    match allocate room with
    | .error thrown => (some thrown, this)
    | .ok _ => (none, { stringValue := this.stringValue ++ text, stringSize := newSize })

/-- `concatonate` of a string -/
def concatonate (rhs : AString) (room : ℕ) : Except Thrown AString :=
  concatonateText limit this rhs.stringValue rhs.stringSize room

/-- `operator+=` of a string, and `append` -/
def append (rhs : AString) (room : ℕ) : Called :=
  appendText limit this rhs.stringValue rhs.stringSize room

/-- `concatonate` of an `MG_UnsignedInt` -/
def concatonateNumber (rhs : UInt32) (room : ℕ) : Except Thrown AString :=
  concatonateText limit this (toText rhs) (utf8Size (toText rhs)) room

/-- `operator+=` of an `MG_UnsignedInt`, and `append` -/
def appendNumber (rhs : UInt32) (room : ℕ) : Called :=
  appendText limit this (toText rhs) (utf8Size (toText rhs)) room

/-- `concatonate` of a boolean, which checks the size afterwards -/
def concatonateBool (rhs : Bool) (room : ℕ) : Except Thrown AString := do
  let room ← allocate room
  checkExceedMax limit this.stringSize
  let room ← allocate room
  let _ ← allocate room
  let newSize := sizeT (this.stringSize + utf8Size (boolText rhs))
  checkExceedMax limit newSize
  return { stringValue := this.stringValue ++ boolText rhs, stringSize := newSize }

/-- `operator+=` of a boolean, and `append`, which check the size afterwards -/
def appendBool (rhs : Bool) (room : ℕ) : Called :=
  match checkExceedMax limit this.stringSize with
  | .error thrown => (some thrown, this)
  | .ok _ =>
    match allocate room with
    | .error thrown => (some thrown, this)
    | .ok _ =>
      let newSize := sizeT (this.stringSize + utf8Size (boolText rhs))
      let appended := { stringValue := this.stringValue ++ boolText rhs, stringSize := newSize }
      match checkExceedMax limit newSize with
      | .error thrown => (some thrown, appended)
      | .ok _ => (none, appended)

/-- The loop of `fill`.  A string can be filled with itself (`str` is `none`), and then every
round appends what it has become. -/
def fillFrom (str : Option AString) : (repeats room : ℕ) → AString → Called
  | 0, _, this => (none, this)
  | repeats + 1, room, this =>
    match allocate room with
    | .error thrown => (some thrown, this)
    | .ok room =>
      let piece := str.getD this
      fillFrom str repeats room
        { stringValue := this.stringValue ++ piece.stringValue
          stringSize := sizeT (this.stringSize + piece.stringSize) }

def fill (str : Option AString) (repeats : UInt32) (room : ℕ) : Called :=
  if repeats ≠ 0 ∧ (str.getD this).stringSize ≠ 0 then
    let newSize := sizeT (this.stringSize + sizeT ((str.getD this).stringSize * repeats.toNat))
    match checkExceedMax limit newSize with
    | .error thrown => (some thrown, this)
    | .ok _ => fillFrom str repeats.toNat room this
  else (none, this)

/-! ### Search -/

/-- The check of a position, with what is reported. -/
def checkPosition (pos : UInt32) (message : String) : Except Thrown Unit :=
  if this.stringSize ≤ pos.toNat then .error (.angelException message) else .ok ()

def find (str : AString) : Option ℕ := utf8Find this.stringValue str.stringValue 0

/-- `find` with a position -/
def findAt (str : AString) (pos : UInt32) : Except Thrown (Option ℕ) := do
  this.checkPosition pos "find(): Starting position is out of bounds."
  return utf8Find this.stringValue str.stringValue pos.toNat

def findLast (str : AString) : Option ℕ := utf8FindLast this.stringValue str.stringValue

/-- The bytes that `find_last` with a position searches. -/
def upTo (pos : UInt32) : ByteString :=
  this.stringValue.take
    (if pos.toNat < this.stringSize - 1 then utf8IndexToByte this.stringValue (pos.toNat + 1)
    else this.stringValue.length)

/-- `find_last` with a position -/
def findLastAt (str : AString) (pos : UInt32) : Except Thrown (Option ℕ) := do
  this.checkPosition pos "find_last(): End position is out of bounds."
  return utf8FindLast (this.upTo pos) str.stringValue

/-! ### Parts -/

/-- Where the part ends that begins at `startPos` and has the length `len`, as a byte. -/
def endByteIndex (startPos len : UInt32) : ℕ :=
  let endPos := sizeT (startPos.toNat + len.toNat)
  if endPos < this.stringSize then utf8IndexToByte this.stringValue endPos
  else this.stringValue.length

/-- How many bytes there are between two of them; the difference is one of `size_t`. -/
def byteCount (startByteIndex endByteIndex : ℕ) : ℕ :=
  sizeT (endByteIndex + 2 ^ 64 - startByteIndex)

def substring (startPos : UInt32) (room : ℕ) : Except Thrown AString := do
  this.checkPosition startPos "substring(): Start position is out of bounds."
  let room ← allocate room
  let startByteIndex := utf8IndexToByte this.stringValue startPos.toNat
  let _ ← allocate room
  let value := this.stringValue.drop startByteIndex
  return { stringValue := value, stringSize := utf8Size value }

/-- `substring` with a length -/
def substringLen (startPos len : UInt32) (room : ℕ) : Except Thrown AString := do
  this.checkPosition startPos "substring(): Start position is out of bounds."
  let room ← allocate room
  let startByteIndex := utf8IndexToByte this.stringValue startPos.toNat
  let _ ← allocate room
  let value := (this.stringValue.drop startByteIndex).take
    (byteCount startByteIndex (this.endByteIndex startPos len))
  return { stringValue := value, stringSize := utf8Size value }

def charAt (pos : UInt32) (room : ℕ) : Except Thrown AString := do
  this.checkPosition pos "char_at(): Position is out of bounds."
  let room ← allocate room
  let foundChar := utf8CharAt this.stringValue pos.toNat
  let _ ← allocate room
  return { stringValue := foundChar, stringSize := if foundChar = [] then 0 else 1 }

def erase (startPos : UInt32) : Called :=
  match this.checkPosition startPos "erase(): Start position is out of bounds." with
  | .error thrown => (some thrown, this)
  | .ok _ =>
    let value := this.stringValue.take (utf8IndexToByte this.stringValue startPos.toNat)
    (none, { stringValue := value, stringSize := utf8Size value })

/-- `erase` with a length -/
def eraseLen (startPos len : UInt32) : Called :=
  match this.checkPosition startPos "erase(): Start position is out of bounds." with
  | .error thrown => (some thrown, this)
  | .ok _ =>
    if len = 0 then (none, this)
    else
      let startByteIndex := utf8IndexToByte this.stringValue startPos.toNat
      let endByteIndex := this.endByteIndex startPos len
      let value :=
        if endByteIndex ≠ 0 then
          this.stringValue.take startByteIndex ++
            this.stringValue.drop (startByteIndex + byteCount startByteIndex endByteIndex)
        else this.stringValue.take startByteIndex
      (none, { stringValue := value, stringSize := utf8Size value })

end AString

end Mutgos.AngelscriptInterface
