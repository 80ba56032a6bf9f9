import Mutgos.DbTypes.Id
import Mutgos.Lib.VectorSet
import Mathlib.Data.Finset.Basic

/-!
# The Security type

`dbtype::Security`, the permissions on an Entity: the IDs of its administrators,
the IDs in a list of others, and what those in the list and everybody else may do.
A Security does not check permissions, it only gives access to the values.

Both groups of IDs are vectors.  What `std::find` returns is modelled as what it
is, a place in one of the two, since one query compares a place in one vector with
the end of the other.
-/

namespace Mutgos.DbTypes

inductive SecurityFlag where
  | read | write | basic | chown | invalid
  deriving DecidableEq, Repr

/-- A flag as a place in a bitset, and `invalid` as its size. -/
def SecurityFlag.index : SecurityFlag → ℕ
  | .read => 0
  | .write => 1
  | .basic => 2
  | .chown => 3
  | .invalid => 4

abbrev SecurityFlagContainer := BitVec 4

structure Security where
  listFlags : SecurityFlagContainer
  otherFlags : SecurityFlagContainer
  adminIds : List Id
  listIds : List Id
  deriving DecidableEq

namespace Security

/-- The constructor.  A bitset is made from the number 4, not with the size 4. -/
def empty : Security := ⟨4#4, 4#4, [], []⟩

/-! ### Flags -/

def allowFlag (flag : SecurityFlag) : Bool := flag ≠ .invalid

def secureGetFlag (container : SecurityFlagContainer) (flag : SecurityFlag) : Bool :=
  if flag = .invalid then false else container.getLsbD flag.index

/-- `secure_set_flag`: whether the flag could be set, and the flags afterwards. -/
def secureSetFlag (container : SecurityFlagContainer) (flag : SecurityFlag) (value : Bool) :
    Bool × SecurityFlagContainer :=
  if flag = .invalid then (false, container)
  else
    let bit := BitVec.twoPow 4 flag.index
    (true, if value then container ||| bit else container &&& ~~~bit)

def getListSecurityFlag (s : Security) (flag : SecurityFlag) : Bool :=
  secureGetFlag s.listFlags flag

def getOtherSecurityFlag (s : Security) (flag : SecurityFlag) : Bool :=
  secureGetFlag s.otherFlags flag

def setListSecurityFlag (s : Security) (flag : SecurityFlag) (value : Bool) : Bool × Security :=
  if allowFlag flag then
    ((secureSetFlag s.listFlags flag value).1,
      { s with listFlags := (secureSetFlag s.listFlags flag value).2 })
  else (false, s)

def setOtherSecurityFlag (s : Security) (flag : SecurityFlag) (value : Bool) : Bool × Security :=
  if allowFlag flag then
    ((secureSetFlag s.otherFlags flag value).1,
      { s with otherFlags := (secureSetFlag s.otherFlags flag value).2 })
  else (false, s)

/-! ### Places in the vectors -/

/-- The two vectors of a Security. -/
inductive SecurityIds where
  | admin | list
  deriving DecidableEq

/-- `SecurityIds::const_iterator`: a place in one of the vectors.  Places in
different vectors are different. -/
structure IdsIterator where
  vector : SecurityIds
  position : ℕ
  deriving DecidableEq

/-- The vector that is meant. -/
def vector (s : Security) : SecurityIds → List Id
  | .admin => s.adminIds
  | .list => s.listIds

/-- `std::find` over a whole vector. -/
def find (s : Security) (v : SecurityIds) (id : Id) : IdsIterator := ⟨v, (s.vector v).idxOf id⟩

/-- `end` -/
def endOf (s : Security) (v : SecurityIds) : IdsIterator := ⟨v, (s.vector v).length⟩

theorem find_ne_endOf {s : Security} {v : SecurityIds} {id : Id} :
    s.find v id ≠ s.endOf v ↔ id ∈ s.vector v := by
  rw [find, endOf, ne_eq, IdsIterator.mk.injEq, ← List.idxOf_lt_length_iff]
  have hle : (s.vector v).idxOf id ≤ (s.vector v).length := List.idxOf_le_length
  simp only [true_and]
  omega

/-! ### Admin and list IDs -/

/-- `is_admin`.  It looks through the list. -/
def isAdmin (s : Security) (id : Id) : Bool := s.find .list id ≠ s.endOf .admin

def addAdmin (s : Security) (id : Id) : Bool × Security :=
  if id.isDefault then (false, s)
  else
    let s := if s.find .list id ≠ s.endOf .list then { s with listIds := s.listIds.erase id } else s
    if s.find .admin id = s.endOf .admin then (true, { s with adminIds := s.adminIds ++ [id] })
    else (false, s)

def removeAdmin (s : Security) (id : Id) : Bool × Security :=
  if s.find .admin id ≠ s.endOf .admin then
    (true, { s with adminIds := VectorSet.swapRemove id s.adminIds })
  else (false, s)

def clearAdmins (s : Security) : Security := { s with adminIds := [] }

def isInList (s : Security) (id : Id) : Bool := s.find .list id ≠ s.endOf .list

def addToList (s : Security) (id : Id) : Bool × Security :=
  if id.isDefault then (false, s)
  else if s.find .admin id = s.endOf .admin then
    if s.find .list id = s.endOf .list then (true, { s with listIds := s.listIds ++ [id] })
    else (false, s)
  else (false, s)

/-- `remove_from_list`.  It does not report that it has removed the ID. -/
def removeFromList (s : Security) (id : Id) : Bool × Security :=
  if s.find .list id ≠ s.endOf .list then
    (false, { s with listIds := VectorSet.swapRemove id s.listIds })
  else (false, s)

def clearList (s : Security) : Security := { s with listIds := [] }

/-! ### Differences -/

/-- `RemoveAddPair`: the IDs removed, and the IDs added. -/
abbrev RemoveAddPair := List Id × List Id

/-- `diff_id_set`.  An ID is taken for removed if the other side has it as well, and
for added if this side has it as well. -/
def diffIdSet (lhs rhs : List Id) (result : RemoveAddPair) : RemoveAddPair :=
  (result.1 ++ lhs.filter (· ∈ rhs), result.2 ++ rhs.filter (· ∈ lhs))

def diffIds (s rhs : Security) : RemoveAddPair :=
  let result := diffIdSet s.adminIds rhs.adminIds ([], [])
  let result := diffIdSet s.listIds rhs.listIds result
  -- an ID can now be on both sides
  if result.1 ≠ [] ∧ result.2 ≠ [] then VectorSet.cancel result.1 result.2 else result

/-! ### Securities that calls make -/

/-- The calls that change the IDs. -/
inductive Op where
  | addAdmin (id : Id)
  | removeAdmin (id : Id)
  | clearAdmins
  | addToList (id : Id)
  | removeFromList (id : Id)
  | clearList
  deriving DecidableEq

/-- What a call leaves behind. -/
def Op.apply (s : Security) : Op → Security
  | .addAdmin id => (s.addAdmin id).2
  | .removeAdmin id => (s.removeAdmin id).2
  | .clearAdmins => s.clearAdmins
  | .addToList id => (s.addToList id).2
  | .removeFromList id => (s.removeFromList id).2
  | .clearList => s.clearList

/-- A new Security, after a sequence of calls. -/
def build (ops : List Op) : Security := ops.foldl Op.apply empty

/-- The IDs that a Security refers to. -/
def ids (s : Security) : Finset Id := s.adminIds.toFinset ∪ s.listIds.toFinset

theorem mem_ids {s : Security} {id : Id} : id ∈ s.ids ↔ id ∈ s.adminIds ∨ id ∈ s.listIds := by
  rw [ids, Finset.mem_union, List.mem_toFinset, List.mem_toFinset]

end Security

end Mutgos.DbTypes
