import Mathlib.Algebra.Group.Nat.Defs
import Mathlib.Algebra.Group.Int.Defs
import Mathlib.Data.Int.Notation
import Mutgos.Text.ByteString

/-!
# JSON

`json_JsonUtilities`: a map is added to at its end, and searched from its beginning.
What is under it is a library that keeps what it is given.

## Main results

* `addKeyValue_map` — a key that is not empty is added.
-/

namespace Mutgos.Json

open Text

inductive JsonNode
  | null
  | bool (value : Bool)
  | number (value : ℤ)
  | string (value : ByteString)
  | array (nodes : List JsonNode)
  | map (members : List (ByteString × JsonNode))

namespace JsonNode

def isNull : JsonNode → Bool
  | null => true
  | _ => false

def findMember (key : ByteString) : JsonNode → Option JsonNode
  | map members => (members.find? fun member => member.1 = key).map Prod.snd
  | _ => none

end JsonNode

open JsonNode

/-! ### Adding -/

/-- What the functions that add to a map have in common: the check, and `AddMember`. -/
def addKeyValue (key : ByteString) (value : JsonNode) : JsonNode → Bool × JsonNode
  | map members =>
    if key ≠ [] && !value.isNull then (true, map (members ++ [(key, value)]))
    else (false, map members)
  | json => (false, json)

/-- `add_static_key_value`, of a string.  `add_static_key_static_value` does the same. -/
def addStaticKeyString (key value : ByteString) : JsonNode → Bool × JsonNode :=
  addKeyValue key (string value)

/-- `add_static_key_value`, of a node -/
def addStaticKeyNode (key : ByteString) (value : JsonNode) : JsonNode → Bool × JsonNode :=
  addKeyValue key value

/-- `add_static_key_value`, of a `bool` -/
def addStaticKeyBool (key : ByteString) (value : Bool) : JsonNode → Bool × JsonNode :=
  addKeyValue key (bool value)

/-- `add_static_key_value`, of a `MG_UnsignedInt`: `SetUint` -/
def addStaticKeyUnsignedInt (key : ByteString) (value : ℕ) : JsonNode → Bool × JsonNode :=
  addKeyValue key (number value)

/-- `add_static_key_value`, of a `MG_VeryLongUnsignedInt`: `SetInt64` -/
def addStaticKeyVeryLongUnsignedInt (key : ByteString) (value : ℕ) : JsonNode → Bool × JsonNode :=
  addKeyValue key (number ((value : ℤ).bmod (2 ^ 64)))

/-- `add_static_key_value`, of a `MG_SignedInt`: `SetInt` -/
def addStaticKeySignedInt (key : ByteString) (value : ℤ) : JsonNode → Bool × JsonNode :=
  addKeyValue key (number value)

def arrayAddNode (node : JsonNode) : JsonNode → Bool × JsonNode
  | array nodes => (true, array (nodes ++ [node]))
  | json => (false, json)

/-- `success = add(..., json) and success` -/
def andThen (saved : Bool × JsonNode) (add : JsonNode → Bool × JsonNode) : Bool × JsonNode :=
  ((add saved.2).1 && saved.1, (add saved.2).2)

theorem addKeyValue_map {key : ByteString} {value : JsonNode} (hkey : key ≠ [])
    (hvalue : value.isNull = false) (members : List (ByteString × JsonNode)) :
    addKeyValue key value (map members) = (true, map (members ++ [(key, value)])) := by
  simp [addKeyValue, hkey, hvalue]

/-! ### Reading -/

/-- `get_key_value`, of a string -/
def getString (key : ByteString) (json : JsonNode) : Bool × ByteString :=
  match json.findMember key with
  | some (string value) => (true, value)
  | _ => (false, [])

/-- `get_key_value`, of a `MG_UnsignedInt` -/
def getUnsignedInt (key : ByteString) (json : JsonNode) : Bool × ℕ :=
  match json.findMember key with
  | some (number value) => if 0 ≤ value ∧ value < 2 ^ 32 then (true, value.toNat) else (false, 0)
  | _ => (false, 0)

/-- `get_key_value`, of a `MG_VeryLongUnsignedInt` -/
def getVeryLongUnsignedInt (key : ByteString) (json : JsonNode) : Bool × ℕ :=
  match json.findMember key with
  | some (number value) => if 0 ≤ value ∧ value < 2 ^ 64 then (true, value.toNat) else (false, 0)
  | _ => (false, 0)

/-- `get_key_value`, of a `bool` -/
def getBool (key : ByteString) (json : JsonNode) : Bool × Bool :=
  match json.findMember key with
  | some (.bool value) => (true, value)
  | _ => (false, false)

/-- `get_key_value`, of a node -/
def getNode (key : ByteString) (json : JsonNode) : Option JsonNode := json.findMember key

/-- A map is searched from its beginning. -/
theorem findMember_append (key : ByteString) (ms ms' : List (ByteString × JsonNode)) :
    (map (ms ++ ms')).findMember key = ((map ms).findMember key).or ((map ms').findMember key) := by
  simp only [findMember, List.find?_append]
  cases ms.find? fun member => decide (member.1 = key) <;> rfl

theorem getUnsignedInt_of_findMember {key : ByteString} {json : JsonNode} {value : ℕ}
    (h : json.findMember key = some (number value)) (hvalue : value < 2 ^ 32) :
    getUnsignedInt key json = (true, value) := by
  rw [getUnsignedInt, h]
  exact (if_pos ⟨by omega, by exact_mod_cast hvalue⟩).trans (by rw [Int.toNat_natCast])

/-- A number from 2⁶³ on is negative when it is read. -/
theorem getVeryLongUnsignedInt_of_findMember {key : ByteString} {json : JsonNode} {value : ℕ}
    (h : json.findMember key = some (number ((value : ℤ).bmod (2 ^ 64)))) (hvalue : value < 2 ^ 64) :
    getVeryLongUnsignedInt key json = if value < 2 ^ 63 then (true, value) else (false, 0) := by
  rw [getVeryLongUnsignedInt, h]
  simp only []
  by_cases hlt : value < 2 ^ 63
  · have hmod : (value : ℤ).bmod (2 ^ 64) = value := by
      refine Int.bmod_eq_of_le ?_ ?_ <;> omega
    rw [hmod, if_pos hlt, if_pos ⟨by omega, by omega⟩, Int.toNat_natCast]
  · have hmod : (value : ℤ).bmod (2 ^ 64) = value - 2 ^ 64 := by
      have h := @Int.bmod_eq_of_le (value - 2 ^ 64) (2 ^ 64) (by omega) (by omega)
      rw [← h]
      exact (Int.sub_bmod_right value (2 ^ 64)).symm
    rw [hmod, if_neg hlt, if_neg (by omega)]

end Mutgos.Json
