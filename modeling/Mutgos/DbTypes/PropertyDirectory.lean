import Mutgos.Lib.SortedMap
import Mutgos.Text.ByteString

/-!
# Property directories

`dbtype::PropertyDirectory`: named entries, each with data, with a directory of
its own, or with both, and a cache of the entry last looked up.  Pointers to
entries are the names that lead to them; the cache, in which the source keeps a
pointer to the name and one to the entry, is the name.  The data are of any type,
as the directory only copies and deletes them.
-/

namespace Mutgos.DbTypes

open Text

def pathSeparator : UInt8 := 47

structure PropertyDirectory (δ : Type) where
  propertyMap : List (ByteString × Option δ × Option (PropertyDirectory δ))
  /-- `last_accessed_name_ptr` and `last_accessed_entry_ptr` -/
  lastAccessed : Option ByteString

/-- `DirectoryEntry`: the data and the directory of a property. -/
abbrev DirectoryEntry (δ : Type) := Option δ × Option (PropertyDirectory δ)

/-- Where an entry is: the names of the directories on the way to it, and its
own. -/
structure EntryPath where
  parents : List ByteString
  name : ByteString

namespace PropertyDirectory

variable {δ : Type}

/-- The constructor. -/
def empty : PropertyDirectory δ := ⟨[], none⟩

def clear (_ : PropertyDirectory δ) : PropertyDirectory δ := ⟨[], none⟩

/-- Write an entry back. -/
def setEntry (dir : PropertyDirectory δ) (name : ByteString) (entry : DirectoryEntry δ) :
    PropertyDirectory δ :=
  { dir with propertyMap := SortedMap.insert name entry dir.propertyMap }

/-- `get_directory_entry`: the entry, if there is one or one is created, and the
directory with its cache afterwards. -/
def getDirectoryEntry (dir : PropertyDirectory δ) (name : ByteString) (create : Bool) :
    Option (DirectoryEntry δ) × PropertyDirectory δ :=
  if dir.lastAccessed = some name then (SortedMap.find name dir.propertyMap, dir)
  else
    match SortedMap.find name dir.propertyMap with
    | some entry => (some entry, { dir with lastAccessed := some name })
    | none =>
      if create then
        (some (none, none), { dir.setEntry name (none, none) with lastAccessed := some name })
      else (none, dir)

/-- The loop over the segments of a path.  The tokenizer has dropped the empty
ones. -/
def followSegments (create : Bool) :
    List ByteString → PropertyDirectory δ → Option EntryPath × PropertyDirectory δ
  | [], dir => (none, dir)
  | name :: rest, dir =>
    match dir.getDirectoryEntry name create with
    | (none, dir) => (none, dir)
    | (some (data, subdir), dir) =>
      if rest = [] then (some ⟨[], name⟩, dir)
      else
        match subdir with
        | none => (none, dir)
        | some subdir =>
          let (found, subdir) := followSegments create rest subdir
          (found.map fun path => { path with parents := name :: path.parents },
            dir.setEntry name (data, some subdir))

/-- The part of `parse_directory_path` that removes separators at the front, which
takes one more character with it. -/
def removePrefix (path : ByteString) : ByteString :=
  match path.findIdx? (· ≠ pathSeparator) with
  | none => path
  | some trimIndex => if trimIndex = 0 then path else path.drop (trimIndex + 1)

/-- The segments that `parse_directory_path` follows. -/
def pathTokens (path : ByteString) : List ByteString :=
  tokens pathSeparator (removePrefix (trimCopy path))

/-- `parse_directory_path`, with the limit for names that is configured: the entry,
if it is found or created. -/
def parseDirectoryPath (limit : ℕ) (dir : PropertyDirectory δ) (path : ByteString)
    (create : Bool) : Option EntryPath × PropertyDirectory δ :=
  if trimCopy path = [] then (none, dir)
  else if create && (pathTokens path).any (fun token => limit < utf8Size token) then (none, dir)
  else followSegments create (pathTokens path) dir

/-- Change the directory that the names lead to. -/
def atDirectory (f : PropertyDirectory δ → PropertyDirectory δ) :
    List ByteString → PropertyDirectory δ → PropertyDirectory δ
  | [], dir => f dir
  | name :: rest, dir =>
    match SortedMap.find name dir.propertyMap with
    | some (data, some subdir) => dir.setEntry name (data, some (atDirectory f rest subdir))
    | _ => dir

/-- The directory that the names lead to. -/
def directoryAt : List ByteString → PropertyDirectory δ → Option (PropertyDirectory δ)
  | [], dir => some dir
  | name :: rest, dir =>
    match SortedMap.find name dir.propertyMap with
    | some (_, some subdir) => directoryAt rest subdir
    | _ => none

/-- The entry at a path. -/
def entryAt (dir : PropertyDirectory δ) (path : EntryPath) : Option (DirectoryEntry δ) :=
  (directoryAt path.parents dir).bind fun parent =>
    SortedMap.find path.name parent.propertyMap

/-- Change the entry at a path. -/
def atEntry (f : DirectoryEntry δ → DirectoryEntry δ) (dir : PropertyDirectory δ)
    (path : EntryPath) : PropertyDirectory δ :=
  dir.atDirectory (fun parent =>
    match SortedMap.find path.name parent.propertyMap with
    | some entry => parent.setEntry path.name (f entry)
    | none => parent) path.parents

def getPropertyData (limit : ℕ) (dir : PropertyDirectory δ) (path : ByteString) :
    Option δ × PropertyDirectory δ :=
  match dir.parseDirectoryPath limit path false with
  | (none, dir) => (none, dir)
  | (some found, dir) => ((dir.entryAt found).bind Prod.fst, dir)

def isPropertyDirectory (limit : ℕ) (dir : PropertyDirectory δ) (path : ByteString) :
    Bool × PropertyDirectory δ :=
  match dir.parseDirectoryPath limit path false with
  | (none, dir) => (false, dir)
  | (some found, dir) => (((dir.entryAt found).bind Prod.snd).isSome, dir)

def setProperty (limit : ℕ) (dir : PropertyDirectory δ) (path : ByteString) (data : δ) :
    Bool × PropertyDirectory δ :=
  match dir.parseDirectoryPath limit path true with
  | (none, dir) => (false, dir)
  | (some found, dir) => (true, dir.atEntry (fun entry => (some data, entry.2)) found)

/-- `delete_property`: the entry is emptied, and the entry last accessed in its
directory is removed from there. -/
def deleteProperty (limit : ℕ) (dir : PropertyDirectory δ) (path : ByteString) :
    PropertyDirectory δ :=
  match dir.parseDirectoryPath limit path false with
  | (none, dir) => dir
  | (some found, dir) =>
    (dir.atEntry (fun _ => (none, none)) found).atDirectory (fun parent =>
      match parent.lastAccessed with
      | none => parent
      | some name => ⟨SortedMap.erase name parent.propertyMap, none⟩) found.parents

def deletePropertyData (limit : ℕ) (dir : PropertyDirectory δ) (path : ByteString) :
    PropertyDirectory δ :=
  match dir.parseDirectoryPath limit path false with
  | (none, dir) => dir
  | (some found, dir) =>
    match (dir.entryAt found).bind Prod.snd with
    | some _ => dir.atEntry (fun entry => (none, entry.2)) found
    | none => dir.deleteProperty limit path

/-! ### What changes a directory -/

/-- A call on a directory. -/
inductive Call (δ : Type)
  | setProperty (path : ByteString) (data : δ)
  | deleteProperty (path : ByteString)
  | deletePropertyData (path : ByteString)
  | clear
  | getPropertyData (path : ByteString)

/-- The directory after a call. -/
def call (limit : ℕ) (dir : PropertyDirectory δ) : Call δ → PropertyDirectory δ
  | .setProperty path data => (dir.setProperty limit path data).2
  | .deleteProperty path => dir.deleteProperty limit path
  | .deletePropertyData path => dir.deletePropertyData limit path
  | .clear => dir.clear
  | .getPropertyData path => (dir.getPropertyData limit path).2

end PropertyDirectory

end Mutgos.DbTypes
