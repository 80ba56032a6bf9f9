import Mutgos.DbTypes.FailedWrites
import Mutgos.Lib.KeyedVector

/-!
# The cache as pointers

`get_directory_entry` keeps a pointer to the key and one to the value of the entry it found last,
and `delete_property` erases the key that is pointed to.  Here the nodes of a map have the numbers
with which they were allocated, and no number is used again, so a pointer whose node has been
erased refers to nothing, and a call that follows it is undefined.

`RegistrationDirectory` is the same code with IDs for the data, except for what it copies.

## Main results

* `getDirectoryEntry_of_find`, `getDirectoryEntry_of_find_eq_none` — **the cache finds what the map
  has.**
-/

namespace Mutgos.DbTypes

open Text SortedMap

/-- `PropertyDirectory`, with the pointers that it keeps. -/
structure PointerDirectory (δ : Type) where
  /-- `property_map`: the key, the number and the value of each node -/
  propertyMap : List (ByteString × ℕ × Option δ × Option (PointerDirectory δ))
  /-- `last_accessed_name_ptr`: the node whose key is pointed to -/
  lastAccessedName : Option ℕ
  /-- `last_accessed_entry_ptr`: the node whose value is pointed to -/
  lastAccessedEntry : Option ℕ

/-- `DirectoryEntry` -/
abbrev PointerEntry (δ : Type) := Option δ × Option (PointerDirectory δ)

/-- What `parse_directory_path` finds: the nodes of the directories on the way, and the node that
the entry is in. -/
structure EntryPointer where
  parents : List ℕ
  node : ℕ

/-- The two classes. -/
inductive DirectoryKind
  | property
  | registration

namespace PointerDirectory

variable {δ : Type}

/-- The constructor. -/
def empty : PointerDirectory δ := ⟨[], none, none⟩

/-- A pointer is followed: the key and the value of its node, if that is one of this map. -/
def deref (dir : PointerDirectory δ) (node : ℕ) : Option (ByteString × PointerEntry δ) :=
  (dir.propertyMap.find? fun e => e.2.1 = node).map fun e => (e.1, e.2.2)

/-- The value of a node is written. -/
def write (dir : PointerDirectory δ) (node : ℕ) (entry : PointerEntry δ) : PointerDirectory δ :=
  { dir with
    propertyMap := dir.propertyMap.map fun e => if e.2.1 = node then (e.1, node, entry) else e }

/-- Both pointers are set to a node. -/
def access (node : ℕ) (dir : PointerDirectory δ) : PointerDirectory δ :=
  { dir with lastAccessedName := some node, lastAccessedEntry := some node }

/-- What `get_directory_entry` does where the cache does not help.  A new node has the next
number. -/
def searchMap (next : ℕ) (dir : PointerDirectory δ) (name : ByteString) (create : Bool) :
    Option ℕ × ℕ × PointerDirectory δ :=
  match SortedMap.find name dir.propertyMap with
  | some (node, _) => (some node, next, dir.access node)
  | none =>
    if create then
      (some next, next + 1, access next
        { dir with propertyMap := SortedMap.insert name (next, none, none) dir.propertyMap })
    else (none, next, dir)

/-- `get_directory_entry`: the pointer that it returns, and the directory afterwards. -/
def getDirectoryEntry (next : ℕ) (dir : PointerDirectory δ) (name : ByteString) (create : Bool) :
    Option (Option ℕ × ℕ × PointerDirectory δ) :=
  match dir.lastAccessedName with
  | none => some (dir.searchMap next name create)
  | some pointer => (dir.deref pointer).map fun (key, _) =>
    if key = name then (dir.lastAccessedEntry, next, dir) else dir.searchMap next name create

/-- The loop over the segments of a path. -/
def followSegments (create : Bool) : List ByteString → ℕ → PointerDirectory δ →
    Option (Option EntryPointer × ℕ × PointerDirectory δ)
  | [], next, dir => some (none, next, dir)
  | name :: rest, next, dir =>
    (dir.getDirectoryEntry next name create).bind fun
      | (none, next, dir) => some (none, next, dir)
      | (some node, next, dir) =>
        (dir.deref node).bind fun (_, data, sub) =>
          if rest = [] then some (some ⟨[], node⟩, next, dir)
          else
            match sub with
            | none => some (none, next, dir)
            | some sub =>
              (followSegments create rest next sub).map fun (found, next, sub) =>
                (found.map fun pointer => { pointer with parents := node :: pointer.parents },
                  next, dir.write node (data, some sub))

def parseDirectoryPath (limit next : ℕ) (dir : PointerDirectory δ) (path : ByteString)
    (create : Bool) : Option (Option EntryPointer × ℕ × PointerDirectory δ) :=
  if trimCopy path = [] then some (none, next, dir)
  else if create && (PropertyDirectory.pathTokens path).any
    (fun token => limit < utf8Size token) then some (none, next, dir)
  else followSegments create (PropertyDirectory.pathTokens path) next dir

/-- The directory that a chain of nodes leads to. -/
def directoryAt : List ℕ → PointerDirectory δ → Option (PointerDirectory δ)
  | [], dir => some dir
  | node :: rest, dir => (dir.deref node).bind fun (_, _, sub) => sub.bind (directoryAt rest)

/-- Work in the directory that a chain of nodes leads to. -/
def atDirectory (f : PointerDirectory δ → Option (PointerDirectory δ)) :
    List ℕ → PointerDirectory δ → Option (PointerDirectory δ)
  | [], dir => f dir
  | node :: rest, dir =>
    (dir.deref node).bind fun (_, data, sub) =>
      (sub.bind (atDirectory f rest)).map fun sub => dir.write node (data, some sub)

/-- The entry that a pointer is to. -/
def entryAt (dir : PointerDirectory δ) (found : EntryPointer) : Option (PointerEntry δ) :=
  (directoryAt found.parents dir).bind fun parent => (parent.deref found.node).map Prod.snd

/-- Change a value in place. -/
def writeBack (f : PointerEntry δ → PointerEntry δ) (node : ℕ) (parent : PointerDirectory δ) :
    Option (PointerDirectory δ) :=
  (parent.deref node).map fun (_, entry) => parent.write node (f entry)

/-- `get_property_data`, `get_registered_id` -/
def getPropertyData (limit next : ℕ) (dir : PointerDirectory δ) (path : ByteString) :
    Option (Option δ × ℕ × PointerDirectory δ) :=
  (dir.parseDirectoryPath limit next path false).bind fun
    | (none, next, dir) => some (none, next, dir)
    | (some found, next, dir) => (dir.entryAt found).map fun entry => (entry.1, next, dir)

/-- `does_property_exist`, `does_registration_exist` -/
def doesPropertyExist (limit next : ℕ) (dir : PointerDirectory δ) (path : ByteString) :
    Option (Bool × ℕ × PointerDirectory δ) :=
  (dir.parseDirectoryPath limit next path false).map fun (found, next, dir) =>
    (found.isSome, next, dir)

/-- `is_property_directory`, `is_path_directory` -/
def isPropertyDirectory (limit next : ℕ) (dir : PointerDirectory δ) (path : ByteString) :
    Option (Bool × ℕ × PointerDirectory δ) :=
  (dir.parseDirectoryPath limit next path false).bind fun
    | (none, next, dir) => some (false, next, dir)
    | (some found, next, dir) => (dir.entryAt found).map fun entry => (entry.2.isSome, next, dir)

/-- `set_property`, `add_registration` -/
def setProperty (limit next : ℕ) (dir : PointerDirectory δ) (path : ByteString) (data : δ) :
    Option (Bool × ℕ × PointerDirectory δ) :=
  (dir.parseDirectoryPath limit next path true).bind fun
    | (none, next, dir) => some (false, next, dir)
    | (some found, next, dir) =>
      (dir.atDirectory (writeBack (fun entry => (some data, entry.2)) found.node)
        found.parents).map fun dir => (true, next, dir)

/-- The key that was last accessed is erased. -/
def eraseAccessed (parent : PointerDirectory δ) : Option (PointerDirectory δ) :=
  match parent.lastAccessedName with
  | none => some parent
  | some pointer => (parent.deref pointer).map fun (key, _) =>
    ⟨SortedMap.erase key parent.propertyMap, none, none⟩

/-- `delete_property`, and `delete_registration`, which returns whether there was one: the entry
is emptied, and what was last accessed in its directory is erased. -/
def deleteProperty (limit next : ℕ) (dir : PointerDirectory δ) (path : ByteString) :
    Option (Bool × ℕ × PointerDirectory δ) :=
  (dir.parseDirectoryPath limit next path false).bind fun
    | (none, next, dir) => some (false, next, dir)
    | (some found, next, dir) =>
      (dir.atDirectory (writeBack (fun _ => (none, none)) found.node) found.parents).bind fun dir =>
        (dir.atDirectory eraseAccessed found.parents).map fun dir => (true, next, dir)

def deletePropertyData (limit next : ℕ) (dir : PointerDirectory δ) (path : ByteString) :
    Option (Unit × ℕ × PointerDirectory δ) :=
  (dir.parseDirectoryPath limit next path false).bind fun
    | (none, next, dir) => some ((), next, dir)
    | (some found, next, dir) => (dir.entryAt found).bind fun entry =>
      if entry.2.isSome then
        (dir.atDirectory (writeBack (fun entry => (none, entry.2)) found.node)
          found.parents).map fun dir => ((), next, dir)
      else (dir.deleteProperty limit next path).map fun (_, next, dir) => ((), next, dir)

/-- The path made out of the keys that are pointed to on the way. -/
def accessedPath : List ℕ → PointerDirectory δ → Option ByteString
  | [], dir => (dir.lastAccessedName.bind dir.deref).map fun (key, _) => pathSeparator :: key
  | node :: rest, dir =>
    (dir.lastAccessedName.bind dir.deref).bind fun (key, _) =>
      (dir.deref node).bind fun (_, _, sub) =>
        (sub.bind (accessedPath rest)).map fun path => pathSeparator :: key ++ path

/-- `get_next_property`, `get_previous_property`, and the same for registrations: the iterator of
the key last accessed is moved. -/
def getBeside (beside : ByteString → List ByteString → Option ByteString) (limit next : ℕ)
    (dir : PointerDirectory δ) (path : ByteString) :
    Option (ByteString × ℕ × PointerDirectory δ) :=
  (dir.parseDirectoryPath limit next path false).bind fun
    | (none, next, dir) => some ([], next, dir)
    | (some found, next, dir) => (directoryAt found.parents dir).bind fun parent =>
      (parent.lastAccessedName.bind parent.deref).bind fun (key, _) =>
        match (beside key (parent.propertyMap.map Prod.fst)).bind fun name =>
          SortedMap.find name parent.propertyMap with
        | none => some ([], next, dir)
        | some (node, _) =>
          (dir.atDirectory (fun parent => some (parent.access node)) found.parents).bind fun dir =>
            (accessedPath found.parents dir).map fun path => (path, next, dir)

/-- `get_property_edge`, `get_registration_edge` -/
def getPropertyEdge (limit next : ℕ) (dir : PointerDirectory δ) (path : ByteString)
    (last : Bool) : Option (ByteString × ℕ × PointerDirectory δ) :=
  let trimmedPath := trimCopy path
  if trimmedPath = [] then some ([], next, dir)
  else
    let separator := if trimmedPath.getLast? = some pathSeparator then [] else [pathSeparator]
    (dir.parseDirectoryPath limit next path false).bind fun
      | (none, next, dir) => some ([], next, dir)
      | (some found, next, dir) => (dir.entryAt found).map fun entry =>
        match entry.2 with
        | none => ([], next, dir)
        | some sub =>
          match if last then sub.propertyMap.getLast? else sub.propertyMap.head? with
          | none => ([], next, dir)
          | some (name, _) => (trimmedPath ++ separator ++ name, next, dir)

/-- The directory of an entry with an ID is not copied into a `RegistrationDirectory`. -/
def copiesDirectory (kind : DirectoryKind) (data : Option δ) : Bool :=
  match kind with
  | .property => true
  | .registration => data.isNone

mutual

/-- `operator=`, into an empty directory. -/
def copy (kind : DirectoryKind) (next : ℕ) : PropertyDirectory δ → ℕ × PointerDirectory δ
  | ⟨map, _⟩ =>
    let (after, map) := copyEntries kind next map
    (after, ⟨map, none, none⟩)

/-- The loop of `operator=` over the entries of the other directory. -/
def copyEntries (kind : DirectoryKind) (next : ℕ) :
    List (ByteString × Option δ × Option (PropertyDirectory δ)) →
    ℕ × List (ByteString × ℕ × Option δ × Option (PointerDirectory δ))
  | [] => (next, [])
  | (name, data, sub) :: map =>
    let (after, sub) := if copiesDirectory kind data then cloneSubdirectory kind (next + 1) sub
      else (next + 1, none)
    let (after, map) := copyEntries kind after map
    (after, SortedMap.insert name (next, data, sub) map)

/-- `clone`, where there is a directory -/
def cloneSubdirectory (kind : DirectoryKind) (next : ℕ) :
    Option (PropertyDirectory δ) → ℕ × Option (PointerDirectory δ)
  | none => (next, none)
  | some sub =>
    let (after, sub) := copy kind next sub
    (after, some sub)

end

/-! ### Calls -/

/-- A call on a directory.  What is assigned is another directory, in which the pointers do not
matter, or, where there is none, the directory itself. -/
inductive Call (δ : Type)
  | getPropertyData (path : ByteString)
  | doesPropertyExist (path : ByteString)
  | isPropertyDirectory (path : ByteString)
  | setProperty (path : ByteString) (data : δ)
  | deleteProperty (path : ByteString)
  | deletePropertyData (path : ByteString)
  | getNextProperty (path : ByteString)
  | getPreviousProperty (path : ByteString)
  | getFirstProperty (path : ByteString)
  | getLastProperty (path : ByteString)
  | clear
  | assign (rhs : Option (PropertyDirectory δ))

/-- What a call returns. -/
inductive Answer (δ : Type)
  | done
  | flag (result : Bool)
  | data (result : Option δ)
  | path (result : ByteString)

/-- A call, with what it returns; it is undefined if it follows a pointer that refers to nothing. -/
def call (kind : DirectoryKind) (limit next : ℕ) (dir : PointerDirectory δ) :
    Call δ → Option (Answer δ × ℕ × PointerDirectory δ)
  | .getPropertyData path =>
    (dir.getPropertyData limit next path).map fun (result, s) => (.data result, s)
  | .doesPropertyExist path =>
    (dir.doesPropertyExist limit next path).map fun (result, s) => (.flag result, s)
  | .isPropertyDirectory path =>
    (dir.isPropertyDirectory limit next path).map fun (result, s) => (.flag result, s)
  | .setProperty path data =>
    (dir.setProperty limit next path data).map fun (result, s) => (.flag result, s)
  | .deleteProperty path =>
    (dir.deleteProperty limit next path).map fun (result, s) => (.flag result, s)
  | .deletePropertyData path =>
    (dir.deletePropertyData limit next path).map fun (_, s) => (.done, s)
  | .getNextProperty path =>
    (dir.getBeside nextIn limit next path).map fun (result, s) => (.path result, s)
  | .getPreviousProperty path =>
    (dir.getBeside prevIn limit next path).map fun (result, s) => (.path result, s)
  | .getFirstProperty path =>
    (dir.getPropertyEdge limit next path false).map fun (result, s) => (.path result, s)
  | .getLastProperty path =>
    (dir.getPropertyEdge limit next path true).map fun (result, s) => (.path result, s)
  | .clear => some (.done, next, empty)
  | .assign none => some (.done, next, dir)
  | .assign (some rhs) => some (.done, copy kind next rhs)

/-- The numbers used so far and the directory, after a call. -/
def step (kind : DirectoryKind) (limit : ℕ) (s : ℕ × PointerDirectory δ) (c : Call δ) :
    Option (ℕ × PointerDirectory δ) :=
  (call kind limit s.1 s.2 c).map Prod.snd

/-! ### Live pointers -/

/-- The names of a map are in order, its nodes have numbers of their own, all of them from before
`next`, and the two pointers are null, or to the key and the value of one node. -/
structure Pointed (next : ℕ) (dir : PointerDirectory δ) : Prop where
  sorted : SortedMap.Sorted dir.propertyMap
  distinct : KeyedVector.Distinct (fun e => e.2.1) dir.propertyMap
  allocated : ∀ e ∈ dir.propertyMap, e.2.1 < next
  paired : dir.lastAccessedEntry = dir.lastAccessedName
  live : ∀ node, dir.lastAccessedName = some node →
    ∃ name entry, (name, node, entry) ∈ dir.propertyMap

/-- The whole tree is `Pointed`. -/
inductive Sound (next : ℕ) : PointerDirectory δ → Prop
  | intro {dir : PointerDirectory δ} (here : Pointed next dir)
      (subdirectories : ∀ name node data sub, (name, node, data, some sub) ∈ dir.propertyMap →
        Sound next sub) : Sound next dir

variable {next next' node : ℕ} {dir dir' sub : PointerDirectory δ} {name key : ByteString}
  {entry entry' : PointerEntry δ} {data : Option δ}

theorem Pointed.mono (h : Pointed next dir) (hle : next ≤ next') : Pointed next' dir :=
  { h with allocated := fun e he => (h.allocated e he).trans_le hle }

theorem Sound.mono (h : Sound next dir) (hle : next ≤ next') : Sound next' dir := by
  induction h with
  | intro here _ ih => exact .intro (here.mono hle) ih

theorem Sound.here (h : Sound next dir) : Pointed next dir := by
  cases h with
  | intro here _ => exact here

theorem Sound.subdirectory (h : Sound next dir)
    (hmem : (name, node, data, some sub) ∈ dir.propertyMap) : Sound next sub := by
  cases h with
  | intro _ subdirectories => exact subdirectories name node data sub hmem

theorem sound_empty (next : ℕ) : Sound next (empty : PointerDirectory δ) :=
  .intro ⟨.nil, .nil, nofun, rfl, nofun⟩ nofun

/-- A pointer to a node leads to its key and its value. -/
theorem Pointed.deref_of_mem (h : Pointed next dir) (hmem : (name, node, entry) ∈ dir.propertyMap) :
    dir.deref node = some (name, entry) := by
  rw [deref, h.distinct.find? hmem]
  rfl

theorem mem_of_deref (h : dir.deref node = some (name, entry)) :
    (name, node, entry) ∈ dir.propertyMap := by
  obtain ⟨⟨name', node', entry'⟩, hfind, heq⟩ := Option.map_eq_some_iff.mp h
  have hnode := List.find?_some hfind
  obtain rfl : node' = node := of_decide_eq_true hnode
  cases heq
  exact List.mem_of_find?_eq_some hfind

/-- A node has one name, and a name is in one node. -/
theorem Pointed.node_eq_iff (h : Pointed next dir) {e : ByteString × ℕ × PointerEntry δ}
    (he : e ∈ dir.propertyMap) (hmem : (name, node, entry) ∈ dir.propertyMap) :
    e.2.1 = node ↔ e.1 = name := by
  obtain ⟨name', node', entry'⟩ := e
  constructor
  · rintro rfl
    have hderef := (h.deref_of_mem he).symm.trans (h.deref_of_mem hmem)
    exact congrArg Prod.fst (Option.some.inj hderef)
  · rintro rfl
    have hfind := (h.sorted.mem_iff.mp he).symm.trans (h.sorted.mem_iff.mp hmem)
    exact congrArg Prod.fst (Option.some.inj hfind)

/-- What is written into a node is what its key has then. -/
theorem Pointed.write_eq (h : Pointed next dir) (hmem : (name, node, entry) ∈ dir.propertyMap)
    (entry' : PointerEntry δ) : dir.write node entry' =
      { dir with propertyMap := SortedMap.insert name (node, entry') dir.propertyMap } := by
  rw [write, h.sorted.insert_eq_map hmem]
  congr 1
  refine List.map_congr_left fun e he => ?_
  by_cases heq : e.1 = name
  · rw [if_pos heq, if_pos ((h.node_eq_iff he hmem).mpr heq)]
  · rw [if_neg heq, if_neg (mt (h.node_eq_iff he hmem).mp heq)]

/-- Writing changes no node's number. -/
theorem nodes_write (dir : PointerDirectory δ) (node : ℕ) (entry : PointerEntry δ) :
    (dir.write node entry).propertyMap.map (fun e => e.2.1)
      = dir.propertyMap.map fun e => e.2.1 := by
  rw [write, List.map_map]
  refine List.map_congr_left fun e he => ?_
  rw [Function.comp_apply]
  split
  · next heq => exact heq.symm
  · rfl

theorem Pointed.write (h : Pointed next dir) (hmem : (name, node, entry) ∈ dir.propertyMap)
    (entry' : PointerEntry δ) : Pointed next (dir.write node entry') := by
  refine ⟨?_, ?_, ?_, h.paired, ?_⟩
  · rw [h.write_eq hmem]
    exact h.sorted.insert name _
  · rw [KeyedVector.Distinct, nodes_write]
    exact h.distinct
  · intro e he
    have hnode := List.mem_map_of_mem (f := fun e => e.2.1) he
    rw [nodes_write] at hnode
    obtain ⟨e', he', heq⟩ := List.mem_map.mp hnode
    exact heq ▸ h.allocated e' he'
  · intro other hother
    obtain ⟨name', entry₀, hmem'⟩ := h.live other hother
    have hnode := List.mem_map_of_mem (f := fun e => e.2.1) hmem'
    rw [← nodes_write dir node entry'] at hnode
    obtain ⟨⟨name₁, node₁, entry₁⟩, hmem₁, rfl⟩ := List.mem_map.mp hnode
    exact ⟨name₁, entry₁, hmem₁⟩

/-- A value is written, and what is in it is in order. -/
theorem Sound.write (h : Sound next dir) (hmem : (name, node, entry) ∈ dir.propertyMap)
    (hentry : ∀ sub, entry'.2 = some sub → Sound next sub) :
    Sound next (dir.write node entry') := by
  refine .intro (h.here.write hmem entry') ?_
  intro name' node' data' sub' hmem'
  rw [h.here.write_eq hmem] at hmem'
  rcases mem_of_mem_insert hmem' with heq | hmem'
  · cases heq
    exact hentry sub' rfl
  · exact h.subdirectory hmem'

/-- The pointers are set to a node of the map. -/
theorem Sound.access (h : Sound next dir) (hmem : (name, node, entry) ∈ dir.propertyMap) :
    Sound next (dir.access node) := by
  refine .intro ⟨h.here.sorted, h.here.distinct, h.here.allocated, rfl, ?_⟩
    fun name' node' data' sub' hmem' => h.subdirectory hmem'
  intro node' hnode'
  cases hnode'
  exact ⟨name, entry, hmem⟩

/-- A new node, or one that takes the place of another, with the pointers on it or null. -/
theorem Sound.insert (h : Sound next dir) (hnode : ∀ e ∈ dir.propertyMap, e.2.1 ≠ node)
    (hlt : node < next) (hentry : ∀ sub, entry.2 = some sub → Sound next sub) (name : ByteString)
    {pointer : Option ℕ} (hpointer : ∀ p, pointer = some p → p = node) :
    Sound next ⟨SortedMap.insert name (node, entry) dir.propertyMap, pointer, pointer⟩ := by
  refine .intro ⟨h.here.sorted.insert name _, ?_, ?_, rfl, ?_⟩ ?_
  · exact nodup_insert (fun e : ℕ × PointerEntry δ => e.1) h.here.distinct hnode
  · intro e he
    rcases mem_of_mem_insert he with rfl | he
    · exact hlt
    · exact h.here.allocated e he
  · intro p hp
    obtain rfl := hpointer p hp
    refine ⟨name, entry, mem_of_find ?_⟩
    rw [find_insert, if_pos rfl]
  · intro name' node' data' sub' hmem
    rcases mem_of_mem_insert hmem with heq | hmem
    · cases heq
      exact hentry sub' rfl
    · exact h.subdirectory hmem

/-- An entry is erased, and the pointers are null. -/
theorem Sound.erase (h : Sound next dir) (name : ByteString) :
    Sound next ⟨SortedMap.erase name dir.propertyMap, none, none⟩ := by
  have hsub := erase_sublist name dir.propertyMap
  refine .intro ⟨h.here.sorted.erase name, ?_, ?_, rfl, nofun⟩ ?_
  · exact h.here.distinct.sublist (hsub.map _)
  · exact fun e he => h.here.allocated e (hsub.subset he)
  · exact fun name' node' data' sub' hmem => h.subdirectory (hsub.subset hmem)

/-! ### The cache finds what the map has -/

/-- The key that is pointed to is in the map. -/
theorem Pointed.exists_deref (h : Pointed next dir) (hlast : dir.lastAccessedName = some node) :
    ∃ key entry, dir.deref node = some (key, entry) ∧ (key, node, entry) ∈ dir.propertyMap := by
  obtain ⟨key, entry, hmem⟩ := h.live node hlast
  exact ⟨key, entry, h.deref_of_mem hmem, hmem⟩

/-- **What is there is found**, in the cache or in the map. -/
theorem getDirectoryEntry_of_find (h : Pointed next dir)
    (hfind : SortedMap.find name dir.propertyMap = some (node, entry)) (create : Bool) :
    getDirectoryEntry next dir name create = some (some node, next, dir.access node) := by
  rw [getDirectoryEntry, searchMap, hfind]
  cases hlast : dir.lastAccessedName with
  | none => rfl
  | some pointer =>
    obtain ⟨key, cached, hderef, hmem⟩ := h.exists_deref hlast
    simp only [hderef, Option.map_some]
    split
    · next heq =>
      have hnode : pointer = node := (h.node_eq_iff hmem (mem_of_find hfind)).mpr heq
      have hentry := h.paired.trans hlast
      obtain ⟨propertyMap, lastName, lastEntry⟩ := dir
      dsimp only at hlast hentry
      rw [access, hlast, hentry, hnode]
    · rfl

/-- A name that is not there is not in the cache. -/
theorem getDirectoryEntry_of_find_eq_none (h : Pointed next dir)
    (hfind : SortedMap.find name dir.propertyMap = none) (create : Bool) :
    getDirectoryEntry next dir name create = some (dir.searchMap next name create) := by
  rw [getDirectoryEntry]
  cases hlast : dir.lastAccessedName with
  | none => rfl
  | some pointer =>
    obtain ⟨key, cached, hderef, hmem⟩ := h.exists_deref hlast
    have hne : key ≠ name := by
      rintro rfl
      rw [h.sorted.mem_iff.mp hmem] at hfind
      cases hfind
    simp only [hderef, Option.map_some, if_neg hne]

/-- A pointer to a node that has gone cannot be followed. -/
example : (getDirectoryEntry 5 (⟨[([97], 3, some 1, none)], some 2, some 2⟩ : PointerDirectory ℕ)
    [97] false).isNone = true := by decide

/-- An entry that is made has the next number. -/
theorem sound_create (h : Sound next dir) (name : ByteString) : Sound (next + 1)
    (access next { dir with
      propertyMap := SortedMap.insert name (next, none, none) dir.propertyMap }) := by
  refine (h.mono (Nat.le_succ next)).insert ?_ (Nat.lt_succ_self next) ?_ name ?_
  · exact fun e he => (h.here.allocated e he).ne
  · intro sub hsub
    cases hsub
  · rintro p hp
    exact (Option.some.inj hp).symm

end PointerDirectory

end Mutgos.DbTypes
