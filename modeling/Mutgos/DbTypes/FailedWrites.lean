import Mutgos.DbTypes.PropertyWalk
import Mutgos.DbTypes.RegistrationDirectory

/-!
# Writes that fail

`set_property` makes the entries of a path as it follows it.  That an entry has no directory it
sees only at the next segment, and what it has made by then stays: an entry without data, which
is a property that exists.  So it is with `add_registration`, in whose directory the entry is
found to be a registration.

## Main results

* `equal_followSegments` — **what a path that is not followed to its end leaves of the tree.**
* `failedWrites_iff` — **a write that fails leaves the tree alone if and only if no name is
  missing before the last one.**
-/

namespace Mutgos.DbTypes

open Text

namespace PropertyDirectory

variable {δ : Type}

section Equal

variable [BEq δ]

mutual

/-- `operator==`, for two objects -/
def equal : PropertyDirectory δ → PropertyDirectory δ → Bool
  | ⟨map, _⟩, ⟨map', _⟩ => map.length = map'.length && equalEntries map map'

/-- The loop of `operator==` over the entries of two directories. -/
def equalEntries : List (ByteString × Option δ × Option (PropertyDirectory δ)) →
    List (ByteString × Option δ × Option (PropertyDirectory δ)) → Bool
  | (name, data, sub) :: map, (name', data', sub') :: map' =>
    name = name' && data == data' && equalSubdirectories sub sub' && equalEntries map map'
  | _, _ => true

/-- The directories of two entries. -/
def equalSubdirectories : Option (PropertyDirectory δ) → Option (PropertyDirectory δ) → Bool
  | some sub, some sub' => equal sub sub'
  | none, none => true
  | _, _ => false

end

/-- The caches are not compared. -/
theorem equal_eq (dir dir' : PropertyDirectory δ) : equal dir dir' =
    (dir.propertyMap.length = dir'.propertyMap.length &&
      equalEntries dir.propertyMap dir'.propertyMap) := by
  cases dir
  cases dir'
  rfl

end Equal

/-- In the whole tree, the names are in order and the caches are of entries that exist. -/
def Valid (dir : PropertyDirectory δ) : Prop :=
  ∀ names sub, directoryAt names dir = some sub → SortedMap.Sorted sub.propertyMap ∧
    ∀ name, sub.lastAccessed = some name → (SortedMap.find name sub.propertyMap).isSome = true

/-- The names come to one that is not there, before the last of them. -/
def breaksOff : List ByteString → PropertyDirectory δ → Bool
  | [], _ => false
  | name :: rest, dir =>
    rest ≠ [] &&
      match SortedMap.find name dir.propertyMap with
      | none => true
      | some (_, some sub) => breaksOff rest sub
      | some (_, none) => false

/-- The path is within the limit, and comes to a name that is not there before its last one. -/
def LeavesEntry (limit : ℕ) (dir : PropertyDirectory δ) (path : ByteString) : Prop :=
  (∀ token ∈ pathTokens path, utf8Size token ≤ limit) ∧ breaksOff (pathTokens path) dir = true

variable {limit : ℕ} {dir sub : PropertyDirectory δ} {name path : ByteString}
  {names : List ByteString} {data : Option δ}

theorem Valid.subdirectory (h : dir.Valid)
    (hfind : SortedMap.find name dir.propertyMap = some (data, some sub)) : sub.Valid := by
  intro names dir' hdir'
  refine h (name :: names) dir' ?_
  rw [directoryAt, hfind]
  exact hdir'

/-- What is not there is not cached. -/
theorem Valid.notCached (h : dir.Valid) (hfind : SortedMap.find name dir.propertyMap = none) :
    dir.lastAccessed ≠ some name := by
  intro hlast
  have hsome := (h [] dir rfl).2 name hlast
  rw [hfind] at hsome
  cases hsome

theorem getDirectoryEntry_create (hcached : dir.lastAccessed ≠ some name)
    (hfind : SortedMap.find name dir.propertyMap = none) : dir.getDirectoryEntry name true
      = (some (none, none), (dir.setEntry name (none, none)).access name) := by
  rw [getDirectoryEntry, if_neg hcached, hfind]
  rfl

/-- A path with a name missing on the way is not followed to its end. -/
theorem followSegments_of_breaksOff (hvalid : dir.Valid) (h : breaksOff names dir = true) :
    (followSegments true names dir).1 = none := by
  induction names generalizing dir with
  | nil => rfl
  | cons name rest ih =>
    rw [breaksOff, Bool.and_eq_true, decide_eq_true_eq] at h
    obtain ⟨hrest, h⟩ := h
    rw [followSegments]
    rcases hfind : SortedMap.find name dir.propertyMap with _ | ⟨data, _ | sub⟩
    · rw [getDirectoryEntry_create (hvalid.notCached hfind) hfind]
      simp [hrest]
    · rw [hfind] at h
      cases h
    · rw [hfind] at h
      rw [getDirectoryEntry_of_find hfind]
      simp [hrest, ih (hvalid.subdirectory hfind) h]

/-- A path that is empty, or has a name that is too long, is not followed. -/
theorem setProperty_or (limit : ℕ) (dir : PropertyDirectory δ) (path : ByteString) (data : δ) :
    dir.setProperty limit path data = (false, dir) ∧ ¬ LeavesEntry limit dir path ∨
    (LeavesEntry limit dir path ↔ breaksOff (pathTokens path) dir = true) ∧
      dir.setProperty limit path data =
        match followSegments true (pathTokens path) dir with
        | (none, dir) => (false, dir)
        | (some found, dir) => (true, dir.atEntry (fun entry => (some data, entry.2)) found) := by
  rw [setProperty, parseDirectoryPath, LeavesEntry]
  by_cases htrim : trimCopy path = []
  · exact .inl ⟨by rw [if_pos htrim], by simp [pathTokens_of_trim htrim, breaksOff]⟩
  · rw [if_neg htrim]
    by_cases hlong : ∃ token ∈ pathTokens path, limit < utf8Size token
    · have hany : (true && (pathTokens path).any fun token => decide (limit < utf8Size token))
          = true := by simpa using hlong
      obtain ⟨token, htoken, hlimit⟩ := hlong
      rw [if_pos hany]
      exact .inl ⟨rfl, fun hleaves => absurd (hleaves.1 token htoken) (by omega)⟩
    · have hany : (true && (pathTokens path).any fun token => decide (limit < utf8Size token))
          ≠ true := by simpa using hlong
      have hshort : ∀ token ∈ pathTokens path, utf8Size token ≤ limit := by simpa using hlong
      rw [if_neg hany]
      exact .inr ⟨and_iff_right hshort, rfl⟩

theorem valid_empty : (empty : PropertyDirectory δ).Valid := by
  intro names sub hsub
  cases names with
  | nil =>
    cases hsub
    exact ⟨.nil, nofun⟩
  | cons name names => cases hsub

section Self

variable [BEq δ] [ReflBEq δ]

mutual

/-- A tree is equal to itself, if its data are. -/
theorem equal_self : ∀ dir : PropertyDirectory δ, equal dir dir = true
  | ⟨map, _⟩ => by rw [equal, equalEntries_self map]; simp

theorem equalEntries_self : ∀ map : List (ByteString × Option δ × Option (PropertyDirectory δ)),
    equalEntries map map = true
  | [] => rfl
  | (name, data, sub) :: map => by
    rw [equalEntries, equalSubdirectories_self sub, equalEntries_self map]
    simp

theorem equalSubdirectories_self : ∀ sub : Option (PropertyDirectory δ),
    equalSubdirectories sub sub = true
  | none => rfl
  | some sub => equal_self sub

end

end Self

section Equal

variable [BEq δ]

/-- What is found in a map that is equal to itself is equal to itself. -/
theorem equal_sub {map : List (ByteString × DirectoryEntry δ)}
    (hself : equalEntries map map = true)
    (hfind : SortedMap.find name map = some (data, some sub)) : equal sub sub = true := by
  induction map with
  | nil => cases hfind
  | cons entry map ih =>
    obtain ⟨name', data', sub'⟩ := entry
    simp only [equalEntries, Bool.and_eq_true] at hself
    rw [SortedMap.find] at hfind
    split at hfind
    · cases hfind
      exact hself.1.2
    · exact ih hself.2 hfind

/-- **Two trees that differ in one directory** are equal if this is. -/
theorem equalEntries_insert {map : List (ByteString × DirectoryEntry δ)}
    (hsorted : SortedMap.Sorted map) (hself : equalEntries map map = true)
    (hfind : SortedMap.find name map = some (data, some sub)) (sub' : PropertyDirectory δ) :
    (SortedMap.insert name (data, some sub') map).length = map.length ∧
      equalEntries (SortedMap.insert name (data, some sub') map) map = equal sub' sub := by
  induction map with
  | nil => cases hfind
  | cons entry map ih =>
    obtain ⟨name', data', sub''⟩ := entry
    obtain ⟨hfirst, hrest⟩ := List.pairwise_cons.mp hsorted
    simp only [equalEntries, Bool.and_eq_true] at hself
    rw [SortedMap.find] at hfind
    rw [SortedMap.insert]
    split at hfind
    · next heq =>
      subst heq
      cases hfind
      rw [if_pos rfl, equalEntries, hself.1.1.2, hself.2, equalSubdirectories]
      exact ⟨rfl, by simp⟩
    · next hne =>
      have hgreater : name' < name := hfirst name (SortedMap.mem_keys_of_find hfind)
      have hnlt : ¬ name < name' := fun hlt => List.lt_irrefl name (List.lt_trans hlt hgreater)
      obtain ⟨hlength, hequal⟩ := ih hrest hself.2 hfind
      rw [if_neg hne, if_neg hnlt, equalEntries, hself.1.1.2, hself.1.2, hequal]
      exact ⟨by rw [List.length_cons, hlength, List.length_cons], by simp⟩

theorem equal_setEntry (hsorted : SortedMap.Sorted dir.propertyMap) (hself : equal dir dir = true)
    (hfind : SortedMap.find name dir.propertyMap = some (data, some sub))
    (sub' : PropertyDirectory δ) :
    equal ((dir.access name).setEntry name (data, some sub')) dir = equal sub' sub := by
  rw [equal_eq, Bool.and_eq_true] at hself
  obtain ⟨hlength, hequal⟩ := equalEntries_insert hsorted hself.2 hfind sub'
  rw [equal_eq]
  simp only [setEntry, propertyMap_access, hlength, hequal, decide_true, Bool.true_and]

/-- **What a path that is not followed to its end leaves of the tree**: the tree, unless a name
on the way is missing.  By induction on the segments. -/
theorem equal_followSegments (hvalid : dir.Valid) (hself : equal dir dir = true)
    (hfails : (followSegments true names dir).1 = none) :
    equal (followSegments true names dir).2 dir = !breaksOff names dir := by
  induction names generalizing dir with
  | nil => rw [followSegments, hself, breaksOff, Bool.not_false]
  | cons name rest ih =>
    obtain ⟨hsorted, -⟩ := hvalid [] dir rfl
    rw [followSegments] at hfails ⊢
    rw [breaksOff]
    rcases hfind : SortedMap.find name dir.propertyMap with _ | ⟨data, sub⟩
    · -- the entry is made
      rw [getDirectoryEntry_create (hvalid.notCached hfind) hfind] at hfails ⊢
      by_cases hrest : rest = []
      · simp [hrest] at hfails
      · have hlength := SortedMap.length_insert_of_find_eq_none hfind
          ((none, none) : DirectoryEntry δ)
        simp only [hrest, if_false, equal_eq, propertyMap_access, setEntry, hlength]
        simp [hrest]
    · rw [getDirectoryEntry_of_find hfind] at hfails ⊢
      by_cases hrest : rest = []
      · simp [hrest] at hfails
      · cases sub with
        | none =>
          simp only [hrest, if_false, ne_eq, not_false_eq_true, decide_true, Bool.true_and]
          rw [equal_eq] at hself ⊢
          exact hself
        | some sub =>
          simp only [hrest, if_false, Option.map_eq_none_iff] at hfails
          have hsub : equal sub sub = true := by
            rw [equal_eq, Bool.and_eq_true] at hself
            exact equal_sub hself.2 hfind
          simp only [hrest, if_false, ne_eq, not_false_eq_true, decide_true, Bool.true_and]
          rw [equal_setEntry hsorted hself hfind]
          exact ih (hvalid.subdirectory hfind) hsub hfails

/-- **A write that fails leaves the tree alone** if and only if no name is missing before the
last one. -/
theorem equal_setProperty_iff (hvalid : dir.Valid) (hself : equal dir dir = true) (limit : ℕ)
    (path : ByteString) (value : δ) :
    ((dir.setProperty limit path value).1 = false →
      equal (dir.setProperty limit path value).2 dir = true) ↔ ¬ LeavesEntry limit dir path := by
  obtain ⟨hcall, hnot⟩ | ⟨hleaves, hcall⟩ := setProperty_or limit dir path value
  · rw [hcall]
    exact iff_of_true (fun _ => hself) hnot
  · rw [hcall, hleaves]
    rcases hfollow : followSegments true (pathTokens path) dir with ⟨_ | found, dir'⟩
    · have hequal : equal (followSegments true (pathTokens path) dir).2 dir
          = !breaksOff (pathTokens path) dir :=
        equal_followSegments hvalid hself (by rw [hfollow])
      rw [hfollow] at hequal
      simp [hequal]
    · refine iff_of_true (by simp) fun hbreaks => ?_
      have hnone := followSegments_of_breaksOff hvalid hbreaks
      rw [hfollow] at hnone
      cases hnone

end Equal

end PropertyDirectory

/-! ### Registrations -/

open PropertyDirectory

/-- `registrations_ptr` of a `ContainerPropertyEntity`: the directory is there once something has
been registered. -/
abbrev ContainerRegistrations := Option RegistrationDirectory

namespace ContainerRegistrations

def addRegistration (limit : ℕ) (registrations : ContainerRegistrations) (path : ByteString)
    (id : Id) : Bool × ContainerRegistrations :=
  let (result, dir) := (registrations.getD empty).addRegistration limit path id
  (result, if !result && dir.propertyMap.isEmpty then none else some dir)

theorem valid_getD {registrations : ContainerRegistrations}
    (h : ∀ dir ∈ registrations, dir.Valid) : (registrations.getD empty).Valid := by
  cases registrations with
  | none => exact valid_empty
  | some dir => exact h dir rfl

/-- What is taken away had nothing in it. -/
theorem equal_addRegistration (limit : ℕ) (registrations : ContainerRegistrations)
    (path : ByteString) (id : Id) (other : RegistrationDirectory) :
    equal ((addRegistration limit registrations path id).2.getD empty) other =
      equal ((registrations.getD empty).addRegistration limit path id).2 other := by
  rw [addRegistration]
  rcases (registrations.getD empty).addRegistration limit path id with ⟨result, dir⟩
  by_cases htaken : (!result && dir.propertyMap.isEmpty) = true
  · have hnil : dir.propertyMap = [] := by
      rw [Bool.and_eq_true, List.isEmpty_iff] at htaken
      exact htaken.2
    simp only [if_pos htaken, Option.getD_none]
    rw [equal_eq, equal_eq, hnil]
    rfl
  · simp only [if_neg htaken, Option.getD_some]

end ContainerRegistrations

/-- **A write that fails leaves the tree alone** if and only if the path comes to no missing name
before its last one, within the limit: for properties, for registrations, and for the
registrations of an Entity. -/
theorem failedWrites_iff {δ : Type} [BEq δ] (limit : ℕ) (path : ByteString) :
    (∀ dir : PropertyDirectory δ, dir.Valid → equal dir dir = true → ∀ value : δ,
      ((dir.setProperty limit path value).1 = false →
        equal (dir.setProperty limit path value).2 dir = true) ↔ ¬ LeavesEntry limit dir path) ∧
    (∀ dir : RegistrationDirectory, dir.Valid → ∀ id : Id,
      ((dir.addRegistration limit path id).1 = false →
        equal (dir.addRegistration limit path id).2 dir = true) ↔ ¬ LeavesEntry limit dir path) ∧
    ∀ registrations : ContainerRegistrations, (∀ dir ∈ registrations, dir.Valid) → ∀ id : Id,
      ((registrations.addRegistration limit path id).1 = false →
        equal ((registrations.addRegistration limit path id).2.getD empty)
          (registrations.getD empty) = true) ↔
        ¬ LeavesEntry limit (registrations.getD empty) path := by
  refine ⟨fun dir hvalid hself value => equal_setProperty_iff hvalid hself limit path value,
    fun dir hvalid id => equal_setProperty_iff hvalid (equal_self dir) limit path id, ?_⟩
  intro registrations hvalid id
  rw [ContainerRegistrations.equal_addRegistration]
  have hdir := ContainerRegistrations.valid_getD hvalid
  exact equal_setProperty_iff hdir (equal_self _) limit path id

/-- A path of two names in an empty directory. -/
theorem failedWrites_iff_empty :
    (((empty : PropertyDirectory ℕ).setProperty 64 [97, 47, 98] 1).1 = false →
      equal ((empty : PropertyDirectory ℕ).setProperty 64 [97, 47, 98] 1).2 empty = true) ↔
      ¬ LeavesEntry 64 (empty : PropertyDirectory ℕ) [97, 47, 98] :=
  (failedWrites_iff 64 [97, 47, 98]).1 empty valid_empty rfl 1

/-- `a/b` cannot be set, and cannot be registered, and there is an `a` afterwards. -/
theorem failedWrites_broken :
    ((empty : PropertyDirectory ℕ).setProperty 64 [97, 47, 98] 1).1 = false ∧
      equal ((empty : PropertyDirectory ℕ).setProperty 64 [97, 47, 98] 1).2 empty = false ∧
      (RegistrationDirectory.addRegistration 64 empty [97, 47, 98] ⟨0, 7⟩).1 = false ∧
      equal (RegistrationDirectory.addRegistration 64 empty [97, 47, 98] ⟨0, 7⟩).2 empty = false ∧
      (ContainerRegistrations.addRegistration 64 none [97, 47, 98] ⟨0, 7⟩).1 = false ∧
      ((ContainerRegistrations.addRegistration 64 none [97, 47, 98] ⟨0, 7⟩).2.map fun dir =>
        (RegistrationDirectory.doesRegistrationExist 64 dir [97]).1) = some true := by
  decide +kernel

end Mutgos.DbTypes
