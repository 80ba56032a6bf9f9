import Mutgos.DbTypes.PropertyWalk

/-!
# What a deletion removes

The content of a directory is the data at each place of its tree.  Following a path changes the
caches and no content, and a deletion, which erases the entry last accessed, takes away the entry
of its path with what is below it.

## Main results

* `content_deleteProperty` — **what is left after a deletion.**
-/

namespace Mutgos.DbTypes

open Text List


namespace PropertyDirectory

variable {δ : Type} {limit : ℕ} {dir sub sub' : PropertyDirectory δ} {name : ByteString}
  {parents names : List ByteString} {data : Option δ}

/-- The data at a path, and whether there is a directory. -/
def content (dir : PropertyDirectory δ) (place : EntryPath) : Option (Option δ × Bool) :=
  (dir.entryAt place).map fun entry => (entry.1, entry.2.isSome)

theorem content_nil (dir : PropertyDirectory δ) (name : ByteString) : dir.content ⟨[], name⟩ =
    (SortedMap.find name dir.propertyMap).map fun entry => (entry.1, entry.2.isSome) := rfl

theorem content_cons (dir : PropertyDirectory δ) (parent : ByteString)
    (parents : List ByteString) (name : ByteString) : dir.content ⟨parent :: parents, name⟩ =
      ((SortedMap.find parent dir.propertyMap).bind Prod.snd).bind
        fun sub => sub.content ⟨parents, name⟩ := by
  rw [content, entryAt_cons, Option.map_bind]
  rfl

/-- The caches are not content. -/
theorem content_access (dir : PropertyDirectory δ) (name : ByteString) (place : EntryPath) :
    (dir.access name).content place = dir.content place := by
  obtain ⟨_ | ⟨parent, parents⟩, other⟩ := place
  · rw [content_nil, content_nil, propertyMap_access]
  · rw [content_cons, content_cons, propertyMap_access]

/-- A directory is replaced by one with the same content. -/
theorem content_setEntry (hfind : SortedMap.find name dir.propertyMap = some (data, some sub))
    (hsame : ∀ place, sub'.content place = sub.content place) (place : EntryPath) :
    (dir.setEntry name (data, some sub')).content place = dir.content place := by
  obtain ⟨_ | ⟨parent, parents⟩, other⟩ := place
  · rw [content_nil, content_nil, find_setEntry]
    split
    · next heq =>
      rw [heq, hfind]
      rfl
    · rfl
  · rw [content_cons, content_cons, find_setEntry]
    split
    · next heq =>
      rw [heq, hfind]
      exact hsame _
    · rfl

/-- Following a path changes nothing but the caches. -/
theorem content_followSegments (names : List ByteString) (dir : PropertyDirectory δ)
    (place : EntryPath) : (followSegments false names dir).2.content place = dir.content place := by
  induction names generalizing dir place with
  | nil => rfl
  | cons name rest ih =>
    rw [followSegments]
    rcases hfind : SortedMap.find name dir.propertyMap with _ | ⟨data, sub⟩
    · rw [getDirectoryEntry_of_find_eq_none hfind]
    · rw [getDirectoryEntry_of_find hfind]
      by_cases hrest : rest = []
      · simp only [hrest, if_true]
        exact content_access dir name place
      · cases sub with
        | none =>
          simp only [hrest, if_false]
          exact content_access dir name place
        | some sub =>
          simp only [hrest, if_false]
          have hfind' : SortedMap.find name (dir.access name).propertyMap
              = some (data, some sub) := hfind
          rw [content_setEntry hfind' (ih sub), content_access]

/-- Work in a directory, seen from there. -/
theorem content_atDirectory (f : PropertyDirectory δ → PropertyDirectory δ)
    (h : directoryAt parents dir = some sub) (below : List ByteString) (name : ByteString) :
    (atDirectory f parents dir).content ⟨parents ++ below, name⟩
      = (f sub).content ⟨below, name⟩ := by
  induction parents generalizing dir with
  | nil =>
    cases h
    rfl
  | cons parent parents ih =>
    rw [directoryAt] at h
    rcases hfind : SortedMap.find parent dir.propertyMap with _ | ⟨data, _ | sub₁⟩
    · rw [hfind] at h
      cases h
    · rw [hfind] at h
      cases h
    · rw [hfind] at h
      rw [atDirectory, hfind, cons_append, content_cons]
      simp only [find_setEntry, if_true, Option.bind_some]
      exact ih h

/-- Work in a directory, seen from elsewhere. -/
theorem content_atDirectory_elsewhere (f : PropertyDirectory δ → PropertyDirectory δ)
    {place : EntryPath} (h : ¬ parents <+: place.parents) :
    (atDirectory f parents dir).content place = dir.content place := by
  obtain ⟨places, name⟩ := place
  induction parents generalizing dir places with
  | nil => exact absurd List.nil_prefix h
  | cons parent parents ih =>
    rw [atDirectory]
    rcases hfind : SortedMap.find parent dir.propertyMap with _ | ⟨data, _ | sub⟩
    · rfl
    · rfl
    · cases places with
      | nil =>
        rw [content_nil, content_nil, find_setEntry]
        split
        · next heq =>
          rw [heq, hfind]
          rfl
        · rfl
      | cons parent' places =>
        rw [content_cons, content_cons, find_setEntry]
        split
        · next heq =>
          subst heq
          rw [hfind]
          refine ih places ?_
          intro hstarts
          exact h ((prefix_cons_inj _).mpr hstarts)
        · rfl

/-- The content below a directory. -/
theorem content_append (h : directoryAt parents dir = some sub) (below : List ByteString)
    (name : ByteString) : dir.content ⟨parents ++ below, name⟩ = sub.content ⟨below, name⟩ := by
  rw [content, content, entryAt, entryAt, directoryAt_append, h]
  rfl

theorem directoryAt_atDirectory (f : PropertyDirectory δ → PropertyDirectory δ)
    (h : directoryAt parents dir = some sub) :
    directoryAt parents (atDirectory f parents dir) = some (f sub) := by
  induction parents generalizing dir with
  | nil =>
    cases h
    rfl
  | cons parent parents ih =>
    rw [directoryAt] at h
    rcases hfind : SortedMap.find parent dir.propertyMap with _ | ⟨data, _ | sub₁⟩
    · rw [hfind] at h
      cases h
    · rw [hfind] at h
      cases h
    · rw [hfind] at h
      rw [atDirectory, hfind, directoryAt]
      simp only [find_setEntry, if_true]
      exact ih h

/-- The directory of an entry that has been changed. -/
theorem directoryAt_atEntry (f : DirectoryEntry δ → DirectoryEntry δ) {found : EntryPath}
    {entry : DirectoryEntry δ} (h : directoryAt found.parents dir = some sub)
    (hfind : SortedMap.find found.name sub.propertyMap = some entry) :
    directoryAt found.parents (dir.atEntry f found)
      = some (sub.setEntry found.name (f entry)) := by
  rw [atEntry, directoryAt_atDirectory _ h, hfind]

/-- Where there is an entry, there is one at every place on the way. -/
theorem exists_entryAt_on_way {place : EntryPath} {entry : DirectoryEntry δ}
    (hentry : dir.entryAt place = some entry) (hnames : names ≠ [])
    (hstarts : names <+: place.parents ++ [place.name]) :
    ∃ found entry', names = found.parents ++ [found.name] ∧ dir.entryAt found = some entry' := by
  obtain ⟨front, last, rfl⟩ := (eq_nil_or_concat' names).resolve_left hnames
  rcases prefix_concat_iff.mp hstarts with heq | ⟨rest, hrest⟩
  · obtain ⟨rfl, hlast⟩ := append_inj' heq rfl
    obtain rfl := singleton_inj.mp hlast
    exact ⟨place, entry, rfl, hentry⟩
  · obtain ⟨parent, hparent, -⟩ := Option.bind_eq_some_iff.mp hentry
    rw [← hrest, append_assoc, directoryAt_append] at hparent
    obtain ⟨sub, hsub, hbelow⟩ := Option.bind_eq_some_iff.mp hparent
    rw [singleton_append, directoryAt] at hbelow
    refine ⟨⟨front, last⟩, ?_⟩
    cases hfind : SortedMap.find last sub.propertyMap with
    | none =>
      rw [hfind] at hbelow
      cases hbelow
    | some entry' => exact ⟨entry', rfl, by rw [entryAt, hsub]; exact hfind⟩

/-- What is left of a directory whose entry is emptied and erased. -/
theorem content_erase (name : ByteString) (entry : DirectoryEntry δ) (dir : PropertyDirectory δ)
    (place : EntryPath) :
    content ⟨SortedMap.erase name (dir.setEntry name entry).propertyMap, none⟩ place =
      if [name] <+: place.parents ++ [place.name] then none else dir.content place := by
  have hfind : ∀ other : ByteString,
      SortedMap.find other (SortedMap.erase name (dir.setEntry name entry).propertyMap)
        = if name = other then none else SortedMap.find other dir.propertyMap := by
    intro other
    rw [SortedMap.find_erase, find_setEntry]
    by_cases heq : other = name
    · rw [if_pos heq, if_pos heq.symm]
    · rw [if_neg heq, if_neg heq, if_neg (Ne.symm heq)]
  obtain ⟨_ | ⟨parent, parents⟩, other⟩ := place
  · rw [content_nil, content_nil, hfind]
    simp only [nil_append, cons_prefix_cons, List.nil_prefix, and_true]
    split <;> rfl
  · rw [content_cons, content_cons, hfind]
    simp only [cons_append, cons_prefix_cons, List.nil_prefix, and_true]
    split <;> rfl

/-- **What `delete_property` erases**: the entry of its path, and what is below it. -/
theorem content_deleteProperty (limit : ℕ) (dir : PropertyDirectory δ) (path : ByteString)
    (place : EntryPath) : (dir.deleteProperty limit path).content place =
      if pathTokens path ≠ [] ∧ pathTokens path <+: place.parents ++ [place.name] then none
      else dir.content place := by
  have hparse := parseDirectoryPath_false limit dir path
  have hsame := content_followSegments (pathTokens path) dir
  by_cases hfound : ∃ found, dir.Denotes limit path found
  · obtain ⟨found, hfound⟩ := hfound
    obtain ⟨htokens, entry, hentry⟩ := denotes_iff.mp hfound
    obtain ⟨sub, hsub, hfind⟩ := Option.bind_eq_some_iff.mp hentry
    have htouch := parseDirectoryPath_of_denotes hfound
    rw [← hparse, htouch] at hsame
    have hdir : directoryAt found.parents (touch found.parents found.name dir)
        = some (sub.access found.name) := by
      rw [directoryAt_touch, hsub]
      rfl
    have hne : found.parents ++ [found.name] ≠ [] := by simp
    rw [deleteProperty, htouch, htokens]
    simp only [ne_eq, hne, not_false_eq_true, true_and]
    by_cases hbelow : found.parents <+: place.parents
    · obtain ⟨places, name⟩ := place
      obtain ⟨below, rfl⟩ := hbelow
      have hemptied := directoryAt_atEntry (fun _ => (none, none)) hdir hfind
      rw [content_atDirectory _ hemptied, content_append hsub]
      simp only [append_assoc, prefix_append_right_inj]
      have herase := content_erase found.name (none, none) (sub.access found.name) ⟨below, name⟩
      rw [content_access] at herase
      exact herase
    · rw [content_atDirectory_elsewhere _ hbelow, atEntry,
        content_atDirectory_elsewhere _ hbelow, hsame, if_neg]
      intro hstarts
      rcases prefix_concat_iff.mp hstarts with heq | hstarts
      · obtain ⟨heq, -⟩ := append_inj' heq rfl
        exact hbelow (heq ▸ prefix_rfl)
      · exact hbelow ((prefix_append ..).trans hstarts)
  · have hnone : (dir.parseDirectoryPath limit path false).1 = none := by
      by_contra hsome
      exact hfound (Option.ne_none_iff_exists'.mp hsome)
    rcases hresult : dir.parseDirectoryPath limit path false with ⟨found, dir'⟩
    rw [hresult] at hnone
    obtain rfl : found = none := hnone
    rw [← hparse, hresult] at hsame
    rw [deleteProperty, hresult]
    simp only [hsame]
    split
    · next hstarts =>
      by_contra hsome
      obtain ⟨_, hcontent⟩ := Option.ne_none_iff_exists'.mp hsome
      obtain ⟨entry, hentry, -⟩ := Option.map_eq_some_iff.mp hcontent
      obtain ⟨found, entry', htokens, hentry'⟩ :=
        exists_entryAt_on_way hentry hstarts.1 hstarts.2
      exact hfound ⟨found, denotes_iff.mpr ⟨htokens, entry', hentry'⟩⟩
    · rfl

end PropertyDirectory

end Mutgos.DbTypes
