import Mutgos.DbTypes.PropertyPaths
import Mutgos.Lib.ListWalk

/-!
# Walking a property directory

`get_first_property` prints the path of the first entry of a directory by appending to the path
that it was given, and `get_next_property` by going through the caches of the directories on the
way, with a separator in front.  The parser takes such a separator away, and one character with
it.  So the first path can be parsed, and none of those that follow.

The paths are compared by how much they say: the characters that are not separators.

## Main results

* `followSegments_false_iff` — **parsing finds what is there, and caches it.**
* `not_denotes_next` — **the path of a next entry leads elsewhere.**
* `walksDirectory_iff` — **a walk is right if and only if there is one entry**, whose name does
  not end with a blank.
-/

namespace Mutgos.DbTypes

open Text List Option

/-! ### How much a path says -/

/-- The number of characters of a path that are not separators. -/
def namesLength (path : ByteString) : ℕ := (path.filter (· ≠ pathSeparator)).length

/-- A path in which each name has a separator in front. -/
def printPath (names : List ByteString) : ByteString := names.flatMap (pathSeparator :: ·)

@[simp] theorem namesLength_nil : namesLength [] = 0 := rfl

@[simp] theorem namesLength_append (s t : ByteString) :
    namesLength (s ++ t) = namesLength s + namesLength t := by
  rw [namesLength, filter_append, length_append]
  rfl

theorem namesLength_cons_of_ne {c : UInt8} (h : c ≠ pathSeparator) (s : ByteString) :
    namesLength (c :: s) = namesLength s + 1 := by
  simp [namesLength, h]

@[simp] theorem namesLength_cons_separator (s : ByteString) :
    namesLength (pathSeparator :: s) = namesLength s := by
  simp [namesLength]

@[simp] theorem namesLength_replicate (n : ℕ) :
    namesLength (List.replicate n pathSeparator) = 0 := by
  simp [namesLength]

theorem namesLength_le (s : ByteString) : namesLength s ≤ s.length := length_filter_le ..

/-- A name without separators says all that is in it. -/
theorem namesLength_of_notMem {name : ByteString} (h : pathSeparator ∉ name) :
    namesLength name = name.length := by
  rw [namesLength, filter_eq_self.mpr]
  intro c hc
  rw [decide_eq_true_eq]
  rintro rfl
  exact h hc

/-- Blanks say something. -/
theorem namesLength_of_isSpace {s : ByteString} (h : ∀ c ∈ s, isSpace c = true) :
    namesLength s = s.length := by
  apply namesLength_of_notMem
  intro hmem
  exact absurd (h pathSeparator hmem) (by decide)

theorem namesLength_trimCopy_le (s : ByteString) : namesLength (trimCopy s) ≤ namesLength s := by
  obtain ⟨front, back, hs, -, -⟩ := exists_trimCopy s
  conv_rhs => rw [hs]
  rw [namesLength_append, namesLength_append]
  omega

/-- Trimming that takes nothing away that is said takes nothing away. -/
theorem trimCopy_eq_self_of_namesLength {s : ByteString}
    (h : namesLength s ≤ namesLength (trimCopy s)) : trimCopy s = s := by
  obtain ⟨front, back, hs, hfront, hback⟩ := exists_trimCopy s
  have hlength := congrArg namesLength hs
  rw [namesLength_append, namesLength_append, namesLength_of_isSpace hfront,
    namesLength_of_isSpace hback] at hlength
  have hfront' : front = [] := length_eq_zero_iff.mp (by omega)
  have hback' : back = [] := length_eq_zero_iff.mp (by omega)
  rw [hfront', hback', nil_append, append_nil] at hs
  exact hs.symm

/-- The separators in front, and the rest, if there is any. -/
theorem separators_or (s : ByteString) : (∃ n, s = List.replicate n pathSeparator) ∨
    ∃ n c rest, s = List.replicate n pathSeparator ++ c :: rest ∧ c ≠ pathSeparator := by
  induction s with
  | nil => exact .inl ⟨0, rfl⟩
  | cons c s ih =>
    by_cases hc : c = pathSeparator
    · subst hc
      rcases ih with ⟨n, rfl⟩ | ⟨n, c, rest, rfl, hc⟩
      · exact .inl ⟨n + 1, rfl⟩
      · exact .inr ⟨n + 1, c, rest, rfl, hc⟩
    · exact .inr ⟨0, c, s, rfl, hc⟩

theorem findIdx?_replicate_append {c : UInt8} (hc : c ≠ pathSeparator) (n : ℕ)
    (rest : ByteString) :
    (List.replicate n pathSeparator ++ c :: rest).findIdx? (fun c => decide (c ≠ pathSeparator))
      = some n := by
  induction n with
  | zero => simp [findIdx?_cons, hc]
  | succ n ih =>
    rw [replicate_succ, cons_append, findIdx?_cons, ih]
    simp

namespace PropertyDirectory

/-- What is removed in front of a path. -/
theorem removePrefix_replicate_append {c : UInt8} (hc : c ≠ pathSeparator) (n : ℕ)
    (rest : ByteString) :
    removePrefix (List.replicate n pathSeparator ++ c :: rest)
      = if n = 0 then c :: rest else rest := by
  rw [removePrefix, findIdx?_replicate_append hc]
  by_cases hn : n = 0
  · subst hn
    rfl
  · have hlength : (List.replicate n pathSeparator ++ [c]).length = n + 1 := by simp
    simp only [hn, if_false]
    rw [← singleton_append, ← append_assoc, ← hlength, drop_left]

theorem removePrefix_replicate (n : ℕ) :
    removePrefix (List.replicate n pathSeparator) = List.replicate n pathSeparator := by
  have hnone : (List.replicate n pathSeparator).findIdx? (fun c => decide (c ≠ pathSeparator))
      = none := by
    rw [findIdx?_eq_none_iff]
    intro c hc
    simp [eq_of_mem_replicate hc]
  rw [removePrefix, hnone]

theorem namesLength_removePrefix (s : ByteString) : namesLength (removePrefix s)
    = namesLength s - if s.head? = some pathSeparator then 1 else 0 := by
  rcases separators_or s with ⟨n, rfl⟩ | ⟨n, c, rest, rfl, hc⟩
  · rw [removePrefix_replicate, namesLength_replicate, Nat.zero_sub]
  · rw [removePrefix_replicate_append hc, namesLength_append, namesLength_replicate, Nat.zero_add,
      namesLength_cons_of_ne hc]
    cases n with
    | zero => simp [namesLength_cons_of_ne hc, hc]
    | succ n => simp [replicate_succ]

/-- **How much of a path is parsed**: all that is trimmed, or one character less. -/
theorem length_flatten_pathTokens (path : ByteString) : (pathTokens path).flatten.length
    = namesLength (trimCopy path)
      - if (trimCopy path).head? = some pathSeparator then 1 else 0 := by
  rw [pathTokens, flatten_tokens, ← namesLength_removePrefix]
  rfl

/-- More at the end of a path that says something stays at the end. -/
theorem removePrefix_append {s : ByteString} (h : ∃ c ∈ s, c ≠ pathSeparator) (t : ByteString) :
    removePrefix (s ++ t) = removePrefix s ++ t := by
  rcases separators_or s with ⟨n, rfl⟩ | ⟨n, c, rest, rfl, hc⟩
  · obtain ⟨c, hmem, hc⟩ := h
    exact absurd (eq_of_mem_replicate hmem) hc
  · rw [append_assoc, cons_append, removePrefix_replicate_append hc,
      removePrefix_replicate_append hc]
    split <;> rfl

theorem exists_ne_of_pathTokens {path : ByteString} (h : pathTokens path ≠ []) :
    ∃ c ∈ trimCopy path, c ≠ pathSeparator := by
  rcases separators_or (trimCopy path) with ⟨n, hs⟩ | ⟨n, c, rest, hs, hc⟩
  · refine absurd (tokens_eq_nil_iff.mpr ?_) h
    rw [hs, removePrefix_replicate]
    intro c hc
    exact eq_of_mem_replicate hc
  · exact ⟨c, by rw [hs]; simp, hc⟩

/-! ### What parsing does to the caches -/

variable {δ : Type} {limit : ℕ} {dir dir' sub : PropertyDirectory δ} {path name : ByteString}
  {parents names : List ByteString}

/-- An entry is the last accessed. -/
def access (name : ByteString) (dir : PropertyDirectory δ) : PropertyDirectory δ :=
  { dir with lastAccessed := some name }

@[simp] theorem propertyMap_access (name : ByteString) (dir : PropertyDirectory δ) :
    (dir.access name).propertyMap = dir.propertyMap := rfl

/-- The entries on a way are the last accessed. -/
def touch : List ByteString → ByteString → PropertyDirectory δ → PropertyDirectory δ
  | [], name, dir => dir.access name
  | parent :: parents, name, dir =>
    match SortedMap.find parent dir.propertyMap with
    | some (data, some sub) =>
      (dir.access parent).setEntry parent (data, some (touch parents name sub))
    | _ => dir

theorem getDirectoryEntry_of_find {entry : DirectoryEntry δ}
    (h : SortedMap.find name dir.propertyMap = some entry) (create : Bool) :
    dir.getDirectoryEntry name create = (some entry, dir.access name) := by
  obtain ⟨propertyMap, lastAccessed⟩ := dir
  unfold getDirectoryEntry access
  split
  · next hcached =>
    rw [h]
    rw [show lastAccessed = some name from hcached]
  · rw [h]

theorem getDirectoryEntry_of_find_eq_none (h : SortedMap.find name dir.propertyMap = none) :
    dir.getDirectoryEntry name false = (none, dir) := by
  unfold getDirectoryEntry
  split
  · rw [h]
  · rw [h]
    rfl

theorem entryAt_nil (dir : PropertyDirectory δ) (name : ByteString) :
    dir.entryAt ⟨[], name⟩ = SortedMap.find name dir.propertyMap := rfl

theorem entryAt_cons (dir : PropertyDirectory δ) (parent : ByteString) (parents : List ByteString)
    (name : ByteString) : dir.entryAt ⟨parent :: parents, name⟩
      = ((SortedMap.find parent dir.propertyMap).bind Prod.snd).bind
          fun sub => sub.entryAt ⟨parents, name⟩ := by
  simp only [entryAt, directoryAt]
  rcases SortedMap.find parent dir.propertyMap with _ | ⟨data, _ | sub⟩ <;> rfl

/-- **Parsing finds what is there**, and caches it. -/
theorem followSegments_of_entryAt {entry : DirectoryEntry δ}
    (h : dir.entryAt ⟨parents, name⟩ = some entry) :
    followSegments false (parents ++ [name]) dir
      = (some ⟨parents, name⟩, touch parents name dir) := by
  induction parents generalizing dir with
  | nil =>
    rw [entryAt_nil] at h
    rw [nil_append, followSegments, getDirectoryEntry_of_find h]
    rfl
  | cons parent parents ih =>
    rw [entryAt_cons, bind_eq_some_iff] at h
    obtain ⟨sub, hsub, h⟩ := h
    obtain ⟨⟨data, sub'⟩, hfind, rfl⟩ := bind_eq_some_iff.mp hsub
    have hmore : parents ++ [name] ≠ [] := by simp
    rw [cons_append, followSegments, getDirectoryEntry_of_find hfind]
    simp only [hmore, if_false, ih h, touch, hfind]
    rfl

/-- What is found is there, at the end of the way. -/
theorem entryAt_of_followSegments {found : EntryPath}
    (h : (followSegments false names dir).1 = some found) :
    names = found.parents ++ [found.name] ∧ ∃ entry, dir.entryAt found = some entry := by
  induction names generalizing dir found with
  | nil => cases h
  | cons name rest ih =>
    rw [followSegments] at h
    cases hfind : SortedMap.find name dir.propertyMap with
    | none =>
      rw [getDirectoryEntry_of_find_eq_none hfind] at h
      cases h
    | some entry =>
      obtain ⟨data, sub⟩ := entry
      rw [getDirectoryEntry_of_find hfind] at h
      by_cases hrest : rest = []
      · subst hrest
        cases h
        exact ⟨rfl, _, hfind⟩
      · simp only [hrest, if_false] at h
        cases sub with
        | none => cases h
        | some sub =>
          obtain ⟨found', hfound', rfl⟩ := map_eq_some_iff.mp h
          obtain ⟨hnames, entry, hentry⟩ := ih hfound'
          refine ⟨by rw [hnames]; rfl, entry, ?_⟩
          rw [entryAt_cons, hfind]
          exact hentry

/-- A path leads to an entry. -/
def Denotes (limit : ℕ) (dir : PropertyDirectory δ) (path : ByteString) (found : EntryPath) :
    Prop :=
  (dir.parseDirectoryPath limit path false).1 = some found

theorem parseDirectoryPath_false (limit : ℕ) (dir : PropertyDirectory δ) (path : ByteString) :
    dir.parseDirectoryPath limit path false = followSegments false (pathTokens path) dir := by
  unfold parseDirectoryPath
  split
  · next htrim =>
    rw [pathTokens_of_trim htrim]
    rfl
  · rfl

/-- **Where a path leads**: to the entry that is there under its tokens. -/
theorem denotes_iff {found : EntryPath} : dir.Denotes limit path found ↔
    pathTokens path = found.parents ++ [found.name] ∧ ∃ entry, dir.entryAt found = some entry := by
  rw [Denotes, parseDirectoryPath_false]
  constructor
  · exact entryAt_of_followSegments
  · rintro ⟨htokens, entry, hentry⟩
    rw [htokens, followSegments_of_entryAt hentry]

theorem parseDirectoryPath_of_denotes {found : EntryPath} (h : dir.Denotes limit path found) :
    dir.parseDirectoryPath limit path false = (some found, touch found.parents found.name dir) := by
  obtain ⟨htokens, entry, hentry⟩ := denotes_iff.mp h
  rw [parseDirectoryPath_false, htokens, followSegments_of_entryAt hentry]

/-! ### The calls -/

/-- The names by which the directories on the way were last accessed, each with a separator. -/
def accessedPath : List ByteString → PropertyDirectory δ → ByteString
  | [], dir => pathSeparator :: dir.lastAccessed.getD []
  | parent :: parents, dir =>
    pathSeparator :: dir.lastAccessed.getD [] ++
      match SortedMap.find parent dir.propertyMap with
      | some (_, some sub) => accessedPath parents sub
      | _ => []

/-- What `get_next_property` and `get_previous_property` do: the entry beside the one that was
last accessed in its directory is accessed, and the path is made out of the caches. -/
def getBeside (beside : ByteString → List ByteString → Option ByteString) (limit : ℕ)
    (dir : PropertyDirectory δ) (path : ByteString) : ByteString × PropertyDirectory δ :=
  match dir.parseDirectoryPath limit path false with
  | (none, dir) => ([], dir)
  | (some found, dir) =>
    let next := (directoryAt found.parents dir).bind fun parent =>
      parent.lastAccessed.bind fun name => beside name (parent.propertyMap.map Prod.fst)
    match next with
    | none => ([], dir)
    | some name =>
      let dir := dir.atDirectory (access name) found.parents
      (accessedPath found.parents dir, dir)

def getNextProperty (limit : ℕ) (dir : PropertyDirectory δ) (path : ByteString) :
    ByteString × PropertyDirectory δ := getBeside nextIn limit dir path

def getPreviousProperty (limit : ℕ) (dir : PropertyDirectory δ) (path : ByteString) :
    ByteString × PropertyDirectory δ := getBeside prevIn limit dir path

def getPropertyEdge (limit : ℕ) (dir : PropertyDirectory δ) (path : ByteString) (last : Bool) :
    ByteString × PropertyDirectory δ :=
  let trimmedPath := trimCopy path
  if trimmedPath = [] then ([], dir)
  else
    let separator := if trimmedPath.getLast? = some pathSeparator then [] else [pathSeparator]
    match dir.parseDirectoryPath limit path false with
    | (none, dir) => ([], dir)
    | (some found, dir) =>
      match (dir.entryAt found).bind Prod.snd with
      | none => ([], dir)
      | some sub =>
        match if last then sub.propertyMap.getLast? else sub.propertyMap.head? with
        | none => ([], dir)
        | some (name, _) => (trimmedPath ++ separator ++ name, dir)

def getFirstProperty (limit : ℕ) (dir : PropertyDirectory δ) (path : ByteString) :
    ByteString × PropertyDirectory δ := dir.getPropertyEdge limit path false

def getLastProperty (limit : ℕ) (dir : PropertyDirectory δ) (path : ByteString) :
    ByteString × PropertyDirectory δ := dir.getPropertyEdge limit path true

/-! ### The path of a first entry -/

/-- The path of a directory, with a separator at its end, and a name. -/
def edgePath (path name : ByteString) : ByteString :=
  trimCopy path ++
    (if (trimCopy path).getLast? = some pathSeparator then [] else [pathSeparator]) ++ name

/-- A name that is read as it is printed, at the end of a path. -/
structure PlainName (name : ByteString) : Prop where
  ne_nil : name ≠ []
  notMem : pathSeparator ∉ name
  last : ∀ c ∈ name.getLast?, isSpace c = false

theorem edgePath_eq (path name : ByteString) : ∃ start : ByteString,
    edgePath path name = start ++ pathSeparator :: name ∧
      (trimCopy path = start ∨ trimCopy path = start ++ [pathSeparator]) := by
  unfold edgePath
  split
  · next hlast =>
    obtain ⟨start, hstart⟩ := getLast?_eq_some_iff.mp hlast
    exact ⟨start, by rw [hstart]; simp, .inr hstart⟩
  · exact ⟨trimCopy path, by simp, .inl rfl⟩

theorem namesLength_edgePath (path name : ByteString) :
    namesLength (edgePath path name) = namesLength (trimCopy path) + namesLength name := by
  unfold edgePath
  split <;> simp

theorem trimCopy_head (path : ByteString) : ∀ c ∈ (trimCopy path).head?, isSpace c = false :=
  (trimCopy_eq_self_iff.mp (trimCopy_trimCopy path)).1

/-- A path that begins with no blank begins as it did when it has been trimmed. -/
theorem head?_trimCopy {s : ByteString} (h : ∀ c ∈ s.head?, isSpace c = false)
    (hs : ∃ c ∈ s, isSpace c = false) : (trimCopy s).head? = s.head? := by
  obtain ⟨front, back, heq, hfront, hback⟩ := exists_trimCopy s
  have hnil : front = [] := by
    cases front with
    | nil => rfl
    | cons c front =>
      have hblank := hfront c mem_cons_self
      rw [heq] at h
      rw [h c rfl] at hblank
      cases hblank
  subst hnil
  cases htrim : trimCopy s with
  | nil =>
    rw [htrim, nil_append, nil_append] at heq
    obtain ⟨c, hc, hspace⟩ := hs
    rw [hback c (heq ▸ hc)] at hspace
    cases hspace
  | cons c rest =>
    rw [htrim] at heq
    rw [heq]
    rfl

theorem tokens_of_plain (h : name ≠ []) (hmem : pathSeparator ∉ name) :
    tokens pathSeparator name = [name] := by
  rw [tokens, splitOn_eq_singleton hmem]
  simp [h]

theorem namesLength_pos {s : ByteString} (h : ∃ c ∈ s, c ≠ pathSeparator) : 0 < namesLength s := by
  obtain ⟨c, hc, hne⟩ := h
  exact length_pos_of_mem (mem_filter.mpr ⟨hc, decide_eq_true hne⟩)

theorem head?_edgePath (hpath : pathTokens path ≠ []) (name : ByteString) :
    (trimCopy (edgePath path name)).head? = (trimCopy path).head? := by
  obtain ⟨c, hc, hne⟩ := exists_ne_of_pathTokens hpath
  have hhead : (edgePath path name).head? = (trimCopy path).head? := by
    unfold edgePath
    rw [append_assoc, head?_append_of_ne_nil _ (ne_nil_of_mem hc)]
  rw [← hhead]
  refine head?_trimCopy ?_ ?_
  · rw [hhead]
    exact trimCopy_head path
  · obtain ⟨start, heq, -⟩ := edgePath_eq path name
    exact ⟨pathSeparator, by rw [heq]; simp, by decide⟩

/-- A plain name is not trimmed. -/
theorem trimCopy_edgePath (hpath : pathTokens path ≠ []) (hname : PlainName name) :
    trimCopy (edgePath path name) = edgePath path name := by
  obtain ⟨c, hc, -⟩ := exists_ne_of_pathTokens hpath
  rw [trimCopy_eq_self_iff]
  constructor
  · rw [edgePath, append_assoc, head?_append_of_ne_nil _ (ne_nil_of_mem hc)]
    exact trimCopy_head path
  · rw [edgePath, getLast?_append_of_ne_nil _ hname.ne_nil]
    exact hname.last

/-- **The path of a first entry is parsed** to what the directory is parsed to, and the name, if
and only if this is a plain one. -/
theorem pathTokens_edgePath_iff (hpath : pathTokens path ≠ []) :
    pathTokens (edgePath path name) = pathTokens path ++ [name] ↔ PlainName name := by
  obtain ⟨start, heq, hstart⟩ := edgePath_eq path name
  obtain ⟨c, hc, hne⟩ := exists_ne_of_pathTokens hpath
  constructor
  · intro htokens
    have hname : name ∈ pathTokens (edgePath path name) := by rw [htokens]; simp
    obtain ⟨hnil, hmem⟩ := tokens_of_mem hname
    -- what is parsed of both paths says how much is trimmed
    have hlength := congrArg (fun names => (List.flatten names).length) htokens
    simp only [flatten_append, length_append, flatten_singleton,
      length_flatten_pathTokens, head?_edgePath hpath] at hlength
    have htrim : trimCopy (edgePath path name) = edgePath path name := by
      apply trimCopy_eq_self_of_namesLength
      have hpos := namesLength_pos ⟨c, hc, hne⟩
      have hlong : 0 < name.length := length_pos_of_ne_nil hnil
      rw [namesLength_edgePath, namesLength_of_notMem hmem]
      by_cases hsep : (trimCopy path).head? = some pathSeparator
      · simp only [hsep, if_true] at hlength
        omega
      · simp only [hsep, if_false, Nat.sub_zero] at hlength
        exact hlength.ge
    refine ⟨hnil, hmem, ?_⟩
    have hlast := (trimCopy_eq_self_iff.mp htrim).2
    rwa [edgePath, getLast?_append_of_ne_nil _ hnil] at hlast
  · intro hname
    have hstart' : ∃ c ∈ start, c ≠ pathSeparator := by
      rcases hstart with hstart | hstart
      · exact ⟨c, hstart ▸ hc, hne⟩
      · rw [hstart, mem_append, mem_singleton] at hc
        exact ⟨c, hc.resolve_right hne, hne⟩
    have hsame : pathTokens path = tokens pathSeparator (removePrefix start) := by
      rw [pathTokens]
      rcases hstart with hstart | hstart
      · rw [hstart]
      · rw [hstart, removePrefix_append hstart', tokens_append_separator]
        simp [tokens]
    rw [hsame, pathTokens, trimCopy_edgePath hpath hname, heq, removePrefix_append hstart',
      tokens_append_separator, tokens_of_plain hname.ne_nil hname.notMem]

/-! ### The path of a next entry -/

theorem namesLength_printPath_le (names : List ByteString) :
    namesLength (printPath names) ≤ names.flatten.length := by
  induction names with
  | nil => exact Nat.le_refl 0
  | cons name names ih =>
    have hname := namesLength_le name
    rw [printPath, flatMap_cons, cons_append, namesLength_cons_separator,
      namesLength_append, flatten_cons, length_append]
    exact Nat.add_le_add hname ih

/-- **The path of a next entry leads elsewhere**: less of it is parsed than it has been made
of. -/
theorem pathTokens_printPath_ne (hnames : names ≠ []) (hnil : ∀ name ∈ names.head?, name ≠ []) :
    pathTokens (printPath names) ≠ names := by
  intro htokens
  have hlength := congrArg (fun names => (List.flatten names).length) htokens
  simp only [length_flatten_pathTokens] at hlength
  have hle := (namesLength_trimCopy_le (printPath names)).trans (namesLength_printPath_le names)
  cases names with
  | nil => exact hnames rfl
  | cons first names =>
    have hhead : (trimCopy (printPath (first :: names))).head? = some pathSeparator := by
      refine head?_trimCopy ?_ ⟨pathSeparator, mem_cons_self, by decide⟩
      intro c hc
      cases hc
      decide
    have hpos : 0 < first.length := length_pos_of_ne_nil (hnil first rfl)
    rw [if_pos hhead] at hlength
    rw [flatten_cons, length_append] at hle hlength
    omega

/-! ### What a walk visits -/

theorem directoryAt_append (front back : List ByteString) (dir : PropertyDirectory δ) :
    directoryAt (front ++ back) dir = (directoryAt front dir).bind (directoryAt back) := by
  induction front generalizing dir with
  | nil => rfl
  | cons name front ih =>
    rw [cons_append, directoryAt, directoryAt]
    rcases SortedMap.find name dir.propertyMap with _ | ⟨data, _ | sub⟩
    · rfl
    · rfl
    · exact ih sub

/-- The directory that a way ends in has its entries still. -/
theorem directoryAt_touch (parents : List ByteString) (name : ByteString)
    (dir : PropertyDirectory δ) : directoryAt parents (touch parents name dir)
      = (directoryAt parents dir).map (access name) := by
  induction parents generalizing dir with
  | nil => rfl
  | cons parent parents ih =>
    simp only [touch, directoryAt]
    rcases hfind : SortedMap.find parent dir.propertyMap with _ | ⟨data, _ | sub⟩
    · simp [hfind]
    · simp [hfind]
    · simp only [find_setEntry, if_true]
      exact ih sub

/-- So does the entry itself. -/
theorem entryAt_touch (found : EntryPath) (dir : PropertyDirectory δ) :
    (touch found.parents found.name dir).entryAt found = dir.entryAt found := by
  rw [entryAt, entryAt, directoryAt_touch]
  cases directoryAt found.parents dir <;> rfl

/-- **The path is made out of the caches**: of the names on the way, and the entry that is now
accessed. -/
theorem accessedPath_touch (h : directoryAt parents dir = some sub) (name next : ByteString) :
    accessedPath parents ((touch parents name dir).atDirectory (access next) parents)
      = printPath (parents ++ [next]) := by
  induction parents generalizing dir with
  | nil => simp [touch, atDirectory, accessedPath, access, printPath]
  | cons parent parents ih =>
    rw [directoryAt] at h
    rcases hfind : SortedMap.find parent dir.propertyMap with _ | ⟨data, _ | sub'⟩
    · rw [hfind] at h
      cases h
    · rw [hfind] at h
      cases h
    · rw [hfind] at h
      have hrest := ih h
      simp only [touch, hfind, atDirectory, find_setEntry, if_true, accessedPath, hrest]
      rfl

/-- **The next entry**, or the previous one, if there is one beside the entry that the path
leads to. -/
theorem getBeside_of_denotes {beside : ByteString → List ByteString → Option ByteString}
    {found : EntryPath} (h : dir.Denotes limit path found)
    (hsub : directoryAt found.parents dir = some sub) :
    (getBeside beside limit dir path).1 =
      ((beside found.name (sub.propertyMap.map Prod.fst)).map fun next =>
        printPath (found.parents ++ [next])).getD [] := by
  rw [getBeside, parseDirectoryPath_of_denotes h]
  simp only [directoryAt_touch, hsub, map_some, bind_some, access]
  cases beside found.name (sub.propertyMap.map Prod.fst) with
  | none => rfl
  | some next => exact accessedPath_touch hsub found.name next

/-- The paths that a walk comes to, and the directory as each of them is returned. -/
def walk (limit : ℕ) (dir : PropertyDirectory δ) (path : ByteString) :
    ℕ → ByteString × PropertyDirectory δ
  | 0 => dir.getFirstProperty limit path
  | n + 1 => (walk limit dir path n).2.getNextProperty limit (walk limit dir path n).1

/-- A path that is returned leads to an entry, in the directory as it is then. -/
def Leads (limit : ℕ) (result : ByteString × PropertyDirectory δ) (found : EntryPath) : Prop :=
  result.2.Denotes limit result.1 found

/-- What a walk is to do: come to the entries of the directory one after the other, then to the
empty path, and back from each but the first. -/
structure WalksDirectory (limit : ℕ) (dir : PropertyDirectory δ) (path : ByteString)
    (parents names : List ByteString) : Prop where
  visits : ∀ n name, names[n]? = some name → Leads limit (walk limit dir path n) ⟨parents, name⟩
  ends : (walk limit dir path names.length).1 = []
  back : ∀ n name, n + 1 < names.length → names[n]? = some name →
    Leads limit ((walk limit dir path (n + 1)).2.getPreviousProperty limit
      (walk limit dir path (n + 1)).1) ⟨parents, name⟩

/-- The first path, of a directory with entries. -/
theorem getFirstProperty_of_denotes {found : EntryPath} {data : Option δ}
    (h : dir.Denotes limit path found) (hentry : dir.entryAt found = some (data, some sub))
    {names : List ByteString} (hnames : sub.propertyMap.map Prod.fst = name :: names) :
    dir.getFirstProperty limit path
      = (edgePath path name, touch found.parents found.name dir) ∧
    directoryAt (found.parents ++ [found.name]) (touch found.parents found.name dir)
      = some sub := by
  obtain ⟨parent, hparent, hfind⟩ := bind_eq_some_iff.mp hentry
  have hafter := (entryAt_touch found dir).trans hentry
  have htrim : trimCopy path ≠ [] := by
    intro htrim
    have htokens := (denotes_iff.mp h).1
    rw [pathTokens_of_trim htrim] at htokens
    simp at htokens
  refine ⟨?_, ?_⟩
  · rw [getFirstProperty, getPropertyEdge]
    simp only [htrim, if_false, parseDirectoryPath_of_denotes h, hafter, bind_some,
      Bool.false_eq_true]
    cases hmap : sub.propertyMap with
    | nil =>
      rw [hmap] at hnames
      cases hnames
    | cons entry entries =>
      rw [hmap] at hnames
      obtain ⟨rfl, -⟩ := List.cons.inj hnames
      rfl
  · rw [directoryAt_append, directoryAt_touch, hparent]
    simp only [map_some, bind_some, directoryAt, propertyMap_access, hfind]

/-- **A walk is right if and only if there is one entry**, and its name is a plain one. -/
theorem walksDirectory_iff {found : EntryPath} {data : Option δ}
    (h : dir.Denotes limit path found) (hentry : dir.entryAt found = some (data, some sub))
    (hne : sub.propertyMap ≠ []) :
    WalksDirectory limit dir path (found.parents ++ [found.name]) (sub.propertyMap.map Prod.fst) ↔
      ∃ name, sub.propertyMap.map Prod.fst = [name] ∧ PlainName name := by
  have htokens := (denotes_iff.mp h).1
  have hpath : pathTokens path ≠ [] := by rw [htokens]; simp
  obtain ⟨name, names, hnames⟩ : ∃ name names, sub.propertyMap.map Prod.fst = name :: names :=
    List.exists_cons_of_ne_nil (mt List.map_eq_nil_iff.mp hne)
  obtain ⟨hfirst, hsub⟩ := getFirstProperty_of_denotes h hentry hnames
  -- the first path leads to the first entry if its name is plain
  have hleads : PlainName name ↔
      Leads limit (dir.getFirstProperty limit path) ⟨found.parents ++ [found.name], name⟩ := by
    rw [hfirst, Leads, denotes_iff, ← htokens, pathTokens_edgePath_iff hpath]
    refine (and_iff_left ?_).symm
    obtain ⟨entry, hfind⟩ := Option.ne_none_iff_exists'.mp
      (SortedMap.find_ne_none (k := name) (m := sub.propertyMap) (by rw [hnames]; simp))
    refine ⟨entry, ?_⟩
    rw [entryAt, htokens, hsub]
    exact hfind
  -- and then the next one is asked for
  have hnext : PlainName name → (walk limit dir path 1).1 =
      ((nextIn name (name :: names)).map fun next =>
        printPath (found.parents ++ [found.name] ++ [next])).getD [] := by
    intro hplain
    have hdenotes := hleads.mp hplain
    rw [Leads, hfirst] at hdenotes
    rw [walk, walk, hfirst, getNextProperty, getBeside_of_denotes hdenotes hsub, hnames]
  have hbegins : nextIn name (name :: names) = names.head? := if_pos rfl
  rw [hbegins] at hnext
  rw [hnames]
  constructor
  · intro hwalk
    have hplain := hleads.mpr (hwalk.visits 0 name rfl)
    cases names with
    | nil => exact ⟨name, rfl, hplain⟩
    | cons next names =>
      -- the path of the second entry leads elsewhere
      have hsecond := (denotes_iff.mp (hwalk.visits 1 next rfl)).1
      rw [hnext hplain] at hsecond
      refine absurd hsecond (pathTokens_printPath_ne (by simp) ?_)
      intro first hhead
      have hmem : first ∈ pathTokens path := by
        rw [htokens]
        rw [List.head?_append_of_ne_nil _ (by simp)] at hhead
        exact List.mem_of_head? hhead
      exact (tokens_of_mem hmem).1
  · rintro ⟨only, honly, hplain⟩
    obtain ⟨rfl, rfl⟩ := List.cons.inj honly
    refine ⟨?_, hnext hplain, ?_⟩
    · intro n other hother
      cases n with
      | zero =>
        cases hother
        exact hleads.mp hplain
      | succ n => cases hother
    · intro n other hlt
      simp at hlt

/-- A directory that has one, `d`, of entries with data. -/
def withEntries (names : List ByteString) : PropertyDirectory ℕ :=
  ⟨[([100], none, some ⟨names.map fun name => (name, some 0, none), none⟩)], none⟩

/-- With the one entry `a`. -/
theorem walksDirectory_single :
    WalksDirectory 64 (withEntries [[97]]) [100] [[100]] [[97]] ↔
      ∃ name : ByteString, [([97] : ByteString)] = [name] ∧ PlainName name :=
  have hdenotes : (withEntries [[97]]).Denotes 64 [100] ⟨[], [100]⟩ := rfl
  have hentry : (withEntries [[97]]).entryAt ⟨[], [100]⟩
      = some (none, some ⟨[([97], some 0, none)], none⟩) := rfl
  walksDirectory_iff hdenotes hentry (by simp)

/-- With `a`, `b` and `c`: the walk comes to `d/a` and `/d/b`, where there is nothing, and ends. -/
theorem walksDirectory_broken :
    (walk 64 (withEntries [[97], [98], [99]]) [100] 0).1 = [100, 47, 97] ∧
      (walk 64 (withEntries [[97], [98], [99]]) [100] 1).1 = [47, 100, 47, 98] ∧
      (walk 64 (withEntries [[97], [98], [99]]) [100] 2).1 = [] ∧
      ¬ WalksDirectory 64 (withEntries [[97], [98], [99]]) [100] [[100]] [[97], [98], [99]] := by
  have hsecond : (walk 64 (withEntries [[97], [98], [99]]) [100] 1).1 = [47, 100, 47, 98] := by
    decide +kernel
  refine ⟨by decide +kernel, hsecond, by decide +kernel, ?_⟩
  intro h
  have htokens := (denotes_iff.mp (h.visits 1 [98] rfl)).1
  rw [hsecond] at htokens
  exact absurd htokens (by decide +kernel)

end PropertyDirectory

end Mutgos.DbTypes
