import Mutgos.DbTypes.Applications
import Mutgos.DbTypes.PropertyWalk

/-!
# Walking the properties of an Entity

The path of a property of an Entity begins with the name of an application, and the rest is a
path in the directory of this.  `get_first_property` and `get_next_property` hand on the rest and
give back what the directory returns, without the name of the application: who passes it on
names another application, or another property.

The names of the applications can be gone through too.  Here the step to the next name finds the
name that it was given.

## Main results

* `not_locate_next`, `locate_first_iff` — **which of the paths that are returned lead back.**
-/

namespace Mutgos.DbTypes

open Text PropertyDirectory List Option

/-! ### The two parts of a path -/

/-- A path without separators in front, cut into the name of the application and what
follows. -/
def cutPath (path : ByteString) : Option (ByteString × ByteString) :=
  match path.findIdx? (· = pathSeparator) with
  | none => none
  | some trimIndex =>
    let applicationName := path.take trimIndex
    let propPath := path.drop (trimIndex + 1)
    if applicationName = [] ∨ propPath = [] then none else some (applicationName, propPath)

/-- What `get_application_properties` makes of a path before it looks for the application. -/
def splitPath (fullPath : ByteString) : Option (ByteString × ByteString) :=
  if trimCopy fullPath = [] then none else cutPath (trimmedPath fullPath)

variable {δ : Type} {path app propPath : ByteString} {n : ℕ} {c : UInt8}

theorem trimmedPath_of_trimCopy {rest : ByteString}
    (h : trimCopy path = List.replicate n pathSeparator ++ c :: rest) (hc : c ≠ pathSeparator) :
    trimmedPath path = c :: rest := by
  rw [trimmedPath, h]
  simp only [findIdx?_replicate_append hc]
  exact drop_left' (length_replicate ..)

/-- The first separator is where a string is cut. -/
theorem findIdx?_separator {rest : ByteString} (h : pathSeparator ∉ app) :
    (app ++ pathSeparator :: rest).findIdx? (fun c => decide (c = pathSeparator))
      = some app.length := by
  induction app with
  | nil => rfl
  | cons c app ih =>
    rw [mem_cons, not_or] at h
    rw [cons_append, findIdx?_cons, ih h.2]
    simp [Ne.symm h.1]

theorem cutPath_eq_some_iff {rest : ByteString} : cutPath path = some (app, rest) ↔
    path = app ++ pathSeparator :: rest ∧ app ≠ [] ∧ pathSeparator ∉ app ∧ rest ≠ [] := by
  constructor
  · intro h
    rw [cutPath] at h
    split at h
    · cases h
    · next trimIndex hindex =>
      obtain ⟨hlt, hsep, hbefore⟩ := findIdx?_eq_some_iff_getElem.mp hindex
      simp only at h
      split at h
      · cases h
      · next hparts =>
        cases h
        rw [not_or] at hparts
        refine ⟨?_, hparts.1, ?_, hparts.2⟩
        · rw [decide_eq_true_eq] at hsep
          rw [← hsep, getElem_cons_drop, take_append_drop]
        · intro hmem
          obtain ⟨i, hi, hget⟩ := mem_take_iff_getElem.mp hmem
          have hnot := hbefore i (by omega)
          rw [decide_eq_true_eq] at hnot
          exact hnot hget
  · rintro ⟨rfl, happ, hmem, hrest⟩
    have htake : (app ++ pathSeparator :: rest).take app.length = app := take_left
    have hdrop : (app ++ pathSeparator :: rest).drop (app.length + 1) = rest := by
      rw [← drop_drop, drop_left]
      rfl
    rw [cutPath, findIdx?_separator hmem]
    simp only [htake, hdrop]
    rw [if_neg (not_or.mpr ⟨happ, hrest⟩)]

/-- **A path is split** after the name of the application. -/
theorem splitPath_eq_some_iff {rest : ByteString} : splitPath path = some (app, rest) ↔
    (∃ n, trimCopy path = List.replicate n pathSeparator ++ (app ++ pathSeparator :: rest)) ∧
      app ≠ [] ∧ pathSeparator ∉ app ∧ rest ≠ [] := by
  -- what stands behind the separators begins with the name
  have hhead : ∀ {app tail : ByteString} {n : ℕ}, app ≠ [] → pathSeparator ∉ app →
      trimCopy path = List.replicate n pathSeparator ++ (app ++ tail) →
        trimmedPath path = app ++ tail := by
    intro app tail n happ hmem hn
    obtain ⟨c, app, rfl⟩ := exists_cons_of_ne_nil happ
    have hc : c ≠ pathSeparator := by
      rintro rfl
      exact hmem mem_cons_self
    rw [cons_append] at hn ⊢
    exact trimmedPath_of_trimCopy hn hc
  rw [splitPath]
  constructor
  · intro h
    split at h
    · cases h
    · obtain ⟨hcut, happ, hmem, hrest⟩ := cutPath_eq_some_iff.mp h
      refine ⟨?_, happ, hmem, hrest⟩
      rcases separators_or (trimCopy path) with ⟨n, hn⟩ | ⟨n, c, tail, hn, hc⟩
      · -- nothing but separators, the first of which would be in the name
        have hall : ∀ c ∈ trimmedPath path, c = pathSeparator := by
          intro c hc
          have htrim : c ∈ trimCopy path := by
            unfold trimmedPath at hc
            simp only at hc
            split at hc
            · exact hc
            · exact mem_of_mem_drop hc
          rw [hn] at htrim
          exact eq_of_mem_replicate htrim
        obtain ⟨c, app, rfl⟩ := exists_cons_of_ne_nil happ
        have hc := hall c (by rw [hcut]; simp)
        exact absurd (hc ▸ mem_cons_self) hmem
      · rw [trimmedPath_of_trimCopy hn hc] at hcut
        exact ⟨n, by rw [hn, hcut]⟩
  · rintro ⟨⟨n, hn⟩, happ, hmem, hrest⟩
    have hne : trimCopy path ≠ [] := by rw [hn]; simp
    rw [if_neg hne, hhead happ hmem hn, cutPath_eq_some_iff]
    exact ⟨rfl, happ, hmem, hrest⟩

/-- How much of a path is left for the application. -/
theorem namesLength_of_splitPath {rest : ByteString} (h : splitPath path = some (app, rest)) :
    0 < app.length ∧ app.length + namesLength rest = namesLength (trimCopy path) := by
  obtain ⟨⟨n, hn⟩, happ, hmem, -⟩ := splitPath_eq_some_iff.mp h
  refine ⟨length_pos_of_ne_nil happ, ?_⟩
  rw [hn, namesLength_append, namesLength_append, namesLength_replicate,
    namesLength_cons_separator, namesLength_of_notMem hmem, Nat.zero_add]

/-- The exception: the application has a name of one character, which stands behind separators
in front of the path, and is the character that the parser takes away with them. -/
def Echoed (app propPath : ByteString) : Prop :=
  ∃ n c d rest, app = [c] ∧ c ≠ pathSeparator ∧ d ≠ pathSeparator ∧ isSpace d = false ∧
    trimCopy propPath
      = List.replicate (n + 1) pathSeparator ++ c :: pathSeparator :: d :: rest

theorem replicate_append_inj {m : ℕ} {c' : UInt8} {s t : ByteString} (hc : c ≠ pathSeparator)
    (hc' : c' ≠ pathSeparator)
    (h : List.replicate n pathSeparator ++ c :: s = List.replicate m pathSeparator ++ c' :: t) :
    n = m ∧ c = c' ∧ s = t := by
  have hn := findIdx?_replicate_append hc n s
  rw [h, findIdx?_replicate_append hc', Option.some.injEq] at hn
  subst hn
  exact ⟨rfl, List.cons.inj (append_cancel_left h)⟩

/-- A path that begins with a character of a name, trimmed. -/
theorem pathTokens_cons {d : UInt8} {rest : ByteString} (hd : d ≠ pathSeparator)
    (htrim : trimCopy (d :: rest) = d :: rest) :
    pathTokens (d :: rest) = tokens pathSeparator (d :: rest) := by
  have hself := removePrefix_replicate_append hd 0 rest
  rw [replicate_zero, nil_append, if_pos rfl] at hself
  rw [pathTokens, htrim, hself]

/-- What is left of a path of the exception. -/
theorem echoed_parts {d : UInt8} {rest : ByteString} (hc : c ≠ pathSeparator)
    (hd : d ≠ pathSeparator) (hspace : isSpace d = false)
    (htrim : trimCopy propPath
      = List.replicate (n + 1) pathSeparator ++ c :: pathSeparator :: d :: rest) :
    trimCopy (d :: rest) = d :: rest ∧ pathTokens (d :: rest) = pathTokens propPath ∧
      (trimCopy propPath).getLast? = (d :: rest).getLast? := by
  have hlast : (trimCopy propPath).getLast? = (d :: rest).getLast? := by
    rw [htrim, getLast?_append_of_ne_nil _ (by simp), getLast?_cons_cons,
      getLast?_cons_cons]
  have htrim' : trimCopy (d :: rest) = d :: rest := by
    rw [trimCopy_eq_self_iff]
    refine ⟨?_, ?_⟩
    · intro c' hc'
      cases hc'
      exact hspace
    · rw [← hlast]
      exact (trimCopy_eq_self_iff.mp (trimCopy_trimCopy propPath)).2
  refine ⟨htrim', ?_, hlast⟩
  rw [pathTokens_cons hd htrim', pathTokens, htrim, removePrefix_replicate_append hc,
    if_neg (Nat.succ_ne_zero n), tokens_cons_separator]

/-- A path whose first entry leads back is of the exception. -/
theorem echoed_of_edgePath {name rest : ByteString} {k : ℕ} (hpath : pathTokens propPath ≠ [])
    (hsep : (trimCopy propPath).head? = some pathSeparator)
    (hk : edgePath propPath name = List.replicate k pathSeparator ++ ([c] ++ pathSeparator :: rest))
    (hc : c ≠ pathSeparator) (htrim : trimCopy rest = rest)
    (hrest : (trimCopy rest).head? ≠ some pathSeparator) : Echoed [c] propPath := by
  rcases separators_or (trimCopy propPath) with ⟨n, hn⟩ | ⟨n, c', tail, hn, hc'⟩
  · obtain ⟨d, hd, hne⟩ := exists_ne_of_pathTokens hpath
    exact absurd (eq_of_mem_replicate (hn ▸ hd)) hne
  · cases n with
    | zero =>
      rw [hn] at hsep
      exact absurd (Option.some.inj hsep) hc'
    | succ n =>
      rw [edgePath, hn, append_assoc, append_assoc, cons_append] at hk
      obtain ⟨-, rfl, htail⟩ := replicate_append_inj hc' hc hk
      have htokens : tokens pathSeparator tail ≠ [] := by
        rwa [pathTokens, hn, removePrefix_replicate_append hc', if_neg (Nat.succ_ne_zero n)]
          at hpath
      cases tail with
      | nil => exact absurd rfl htokens
      | cons t tail =>
        obtain ⟨rfl, htail⟩ := List.cons.inj htail
        rw [tokens_cons_separator] at htokens
        cases tail with
        | nil => exact absurd rfl htokens
        | cons d tail =>
          have hhead : rest.head? = some d := by
            rw [← htail]
            rfl
          refine ⟨n, c', d, tail, rfl, hc', ?_, (trimCopy_eq_self_iff.mp htrim).1 d hhead, hn⟩
          rintro rfl
          rw [htrim] at hrest
          exact hrest hhead

/-- **The path of a first entry leads back** if and only if it is of the exception, and the name
is plain. -/
theorem splitPath_edgePath_iff {name : ByteString} (hpath : pathTokens propPath ≠ []) :
    (∃ rest, splitPath (edgePath propPath name) = some (app, rest) ∧
      pathTokens rest = pathTokens propPath ++ [name]) ↔ Echoed app propPath ∧ PlainName name := by
  constructor
  · rintro ⟨rest, hsplit, htokens⟩
    have hname : name ∈ pathTokens rest := by rw [htokens]; simp
    obtain ⟨hnil, hmem⟩ := tokens_of_mem hname
    obtain ⟨happ, hlength⟩ := namesLength_of_splitPath hsplit
    -- what the application takes is what the parser takes, and nothing else is lost
    have hlong : 0 < name.length := length_pos_of_ne_nil hnil
    have hpos := namesLength_pos (exists_ne_of_pathTokens hpath)
    have hwhole := namesLength_trimCopy_le (edgePath propPath name)
    have hrest := namesLength_trimCopy_le rest
    have hparsed := congrArg (fun names => (List.flatten names).length) htokens
    simp only [flatten_append, length_append, flatten_singleton,
      length_flatten_pathTokens] at hparsed
    rw [namesLength_edgePath, namesLength_of_notMem hmem] at hwhole
    by_cases hsep : (trimCopy propPath).head? = some pathSeparator
    · by_cases hsep' : (trimCopy rest).head? = some pathSeparator
      · simp only [hsep, hsep', if_true] at hparsed
        omega
      · simp only [hsep, hsep', if_true, if_false, Nat.sub_zero] at hparsed
        have htrim : trimCopy rest = rest := trimCopy_eq_self_of_namesLength (by omega)
        have htrim' : trimCopy (edgePath propPath name) = edgePath propPath name := by
          apply trimCopy_eq_self_of_namesLength
          rw [namesLength_edgePath, namesLength_of_notMem hmem]
          omega
        have hplain : PlainName name := by
          refine ⟨hnil, hmem, ?_⟩
          have hlast := (trimCopy_eq_self_iff.mp htrim').2
          rwa [edgePath, getLast?_append_of_ne_nil _ hnil] at hlast
        obtain ⟨⟨k, hk⟩, -, happmem, -⟩ := splitPath_eq_some_iff.mp hsplit
        have hone : app.length = 1 := by omega
        obtain ⟨c, rfl⟩ := length_eq_one_iff.mp hone
        rw [htrim'] at hk
        have hc : c ≠ pathSeparator := fun heq => happmem (mem_singleton.mpr heq.symm)
        exact ⟨echoed_of_edgePath hpath hsep hk hc htrim hsep', hplain⟩
    · simp only [hsep, if_false, Nat.sub_zero] at hparsed
      omega
  · rintro ⟨⟨n, c, d, rest, rfl, hc, hd, hspace, htrim⟩, hname⟩
    obtain ⟨htrim', htokens, hlast⟩ := echoed_parts hc hd hspace htrim
    have hne : pathTokens (d :: rest) ≠ [] := htokens ▸ hpath
    refine ⟨edgePath (d :: rest) name, ?_, ?_⟩
    · have hedge : edgePath propPath name = List.replicate (n + 1) pathSeparator ++
          ([c] ++ pathSeparator :: edgePath (d :: rest) name) := by
        rw [edgePath, edgePath, hlast, htrim', htrim]
        simp
      rw [splitPath_eq_some_iff, trimCopy_edgePath hpath hname, hedge]
      refine ⟨⟨n + 1, rfl⟩, by simp, by simpa using Ne.symm hc, ?_⟩
      simp [edgePath, hname.ne_nil]
    · rw [← htokens]
      exact (pathTokens_edgePath_iff hne).mpr hname

/-- **The path of a next entry never leads back**: the name of the application is missing. -/
theorem splitPath_printPath_ne {names : List ByteString} {rest : ByteString}
    (hsplit : splitPath (printPath names) = some (app, rest)) : pathTokens rest ≠ names := by
  intro htokens
  obtain ⟨hpos, hlength⟩ := namesLength_of_splitPath hsplit
  have hwhole := (namesLength_trimCopy_le (printPath names)).trans (namesLength_printPath_le names)
  have hparsed := congrArg (fun names => (List.flatten names).length) htokens
  simp only [length_flatten_pathTokens] at hparsed
  have hrest := namesLength_trimCopy_le rest
  omega

/-! ### The calls -/

namespace Applications

/-- What a call does with the directory of the application in a path. -/
def onProperties {α : Type} (apps : Applications δ) (fullPath : ByteString)
    (f : PropertyDirectory δ → ByteString → α × PropertyDirectory δ) :
    Option α × Applications δ :=
  match splitPath fullPath with
  | none => (none, apps)
  | some (app, propPath) =>
    match SortedMap.find app apps with
    | none => (none, apps)
    | some properties =>
      let (result, dir) := f properties.properties propPath
      (some result, SortedMap.insert app { properties with properties := dir } apps)

def getFirstProperty (limit : ℕ) (apps : Applications δ) (path : ByteString) :
    ByteString × Applications δ :=
  let (result, apps) := apps.onProperties path fun dir path => dir.getFirstProperty limit path
  (result.getD [], apps)

def getNextProperty (limit : ℕ) (apps : Applications δ) (path : ByteString) :
    ByteString × Applications δ :=
  let (result, apps) := apps.onProperties path fun dir path => dir.getNextProperty limit path
  (result.getD [], apps)

def isProperty (limit : ℕ) (apps : Applications δ) (path : ByteString) : Bool × Applications δ :=
  let (result, apps) := apps.onProperties path fun dir path =>
    let (found, dir) := dir.parseDirectoryPath limit path false
    (found.isSome, dir)
  (result.getD false, apps)

/-- The application and the entry in its directory that a path leads to. -/
def locate (limit : ℕ) (apps : Applications δ) (path : ByteString) :
    Option (ByteString × EntryPath) :=
  (splitPath path).bind fun parts => (SortedMap.find parts.1 apps).bind fun properties =>
    (properties.properties.parseDirectoryPath limit parts.2 false).1.map fun found =>
      (parts.1, found)

variable {limit : ℕ} {apps : Applications δ} {path app : ByteString} {found : EntryPath}

theorem locate_eq_some_iff : apps.locate limit path = some (app, found) ↔
    ∃ propPath properties, splitPath path = some (app, propPath) ∧
      SortedMap.find app apps = some properties ∧
      properties.properties.Denotes limit propPath found := by
  simp only [locate, Denotes, bind_eq_some_iff, map_eq_some_iff, Prod.mk.injEq]
  constructor
  · rintro ⟨⟨app, propPath⟩, hsplit, properties, hfind, found, hfound, rfl, rfl⟩
    exact ⟨propPath, properties, hsplit, hfind, hfound⟩
  · rintro ⟨propPath, properties, hsplit, hfind, hfound⟩
    exact ⟨(app, propPath), hsplit, properties, hfind, found, hfound, rfl, rfl⟩

/-- A property is one if its path leads to an entry. -/
theorem isProperty_eq (limit : ℕ) (apps : Applications δ) (path : ByteString) :
    (apps.isProperty limit path).1 = (apps.locate limit path).isSome := by
  rw [isProperty, onProperties, locate]
  rcases splitPath path with _ | ⟨app, propPath⟩
  · rfl
  · simp only [bind_some]
    cases SortedMap.find app apps with
    | none => rfl
    | some properties => simp

/-- The first entry in the directory of an entry. -/
def firstIn (apps : Applications δ) (place : ByteString × EntryPath) :
    Option (ByteString × EntryPath) :=
  (SortedMap.find place.1 apps).bind fun properties =>
    ((properties.properties.entryAt place.2).bind Prod.snd).bind fun sub =>
      sub.propertyMap.head?.map fun entry =>
        (place.1, ⟨place.2.parents ++ [place.2.name], entry.1⟩)

/-- The entry after an entry. -/
def nextTo (apps : Applications δ) (place : ByteString × EntryPath) :
    Option (ByteString × EntryPath) :=
  (SortedMap.find place.1 apps).bind fun properties =>
    (directoryAt place.2.parents properties.properties).bind fun dir =>
      (nextIn place.2.name (dir.propertyMap.map Prod.fst)).map fun name =>
        (place.1, ⟨place.2.parents, name⟩)

/-- An entry of an application that a call has given another directory. -/
theorem locate_insert_iff {properties : ApplicationProperties δ} {dir : PropertyDirectory δ} :
    locate limit (SortedMap.insert app { properties with properties := dir } apps) path
        = some (app, found) ↔
      ∃ propPath, splitPath path = some (app, propPath) ∧ dir.Denotes limit propPath found := by
  rw [locate_eq_some_iff]
  simp only [SortedMap.find_insert, if_true]
  constructor
  · rintro ⟨propPath, properties', hsplit, hfind, hdenotes⟩
    cases hfind
    exact ⟨propPath, hsplit, hdenotes⟩
  · rintro ⟨propPath, hsplit, hdenotes⟩
    exact ⟨propPath, _, hsplit, rfl, hdenotes⟩

/-- **Which first paths lead back**: those of the exception, with plain names. -/
theorem locate_first_iff {place : ByteString × EntryPath}
    (hplace : apps.locate limit path = some (app, found))
    (hfirst : apps.firstIn (app, found) = some place) :
    (apps.getFirstProperty limit path).2.locate limit (apps.getFirstProperty limit path).1
        = some place ↔
      ∃ propPath, splitPath path = some (app, propPath) ∧ Echoed app propPath ∧
        PlainName place.2.name := by
  obtain ⟨propPath, properties, hsplit, hfind, hdenotes⟩ := locate_eq_some_iff.mp hplace
  rw [firstIn, hfind, bind_some] at hfirst
  obtain ⟨sub, hsub, hhead⟩ := bind_eq_some_iff.mp hfirst
  obtain ⟨⟨data, sub'⟩, hentry, rfl⟩ := bind_eq_some_iff.mp hsub
  obtain ⟨⟨name, entry⟩, hmap, rfl⟩ := map_eq_some_iff.mp hhead
  obtain ⟨entries, hentries⟩ := head?_eq_some_iff.mp hmap
  have hnames : sub.propertyMap.map Prod.fst = name :: entries.map Prod.fst := by
    rw [hentries]
    rfl
  obtain ⟨hreturned, hafter⟩ := getFirstProperty_of_denotes hdenotes hentry hnames
  obtain ⟨htokens, -⟩ := denotes_iff.mp hdenotes
  have hpath : pathTokens propPath ≠ [] := by rw [htokens]; simp
  have hthere : ∃ entry, (touch found.parents found.name properties.properties).entryAt
      ⟨found.parents ++ [found.name], name⟩ = some entry := by
    refine ⟨entry, ?_⟩
    rw [entryAt, hafter, bind_some, hentries]
    exact if_pos rfl
  have hcall : apps.getFirstProperty limit path = (edgePath propPath name,
      SortedMap.insert app { properties with
        properties := touch found.parents found.name properties.properties } apps) := by
    rw [getFirstProperty, onProperties, hsplit]
    simp only [hfind, hreturned]
    rfl
  rw [← htokens] at hthere
  rw [hcall, locate_insert_iff]
  simp only [denotes_iff, ← htokens, hthere, and_true]
  rw [splitPath_edgePath_iff hpath]
  constructor
  · intro h
    exact ⟨propPath, hsplit, h⟩
  · rintro ⟨propPath', hsplit', h⟩
    rw [hsplit] at hsplit'
    cases hsplit'
    exact h

/-- **No next path leads back.** -/
theorem not_locate_next {place : ByteString × EntryPath}
    (hplace : apps.locate limit path = some (app, found))
    (hnext : apps.nextTo (app, found) = some place) :
    (apps.getNextProperty limit path).2.locate limit (apps.getNextProperty limit path).1
      ≠ some place := by
  obtain ⟨propPath, properties, hsplit, hfind, hdenotes⟩ := locate_eq_some_iff.mp hplace
  rw [nextTo, hfind, bind_some] at hnext
  obtain ⟨sub, hsub, hnext⟩ := bind_eq_some_iff.mp hnext
  obtain ⟨name, hname, rfl⟩ := map_eq_some_iff.mp hnext
  have hreturned : (properties.properties.getNextProperty limit propPath).1 =
      ((nextIn found.name (sub.propertyMap.map Prod.fst)).map fun next =>
        printPath (found.parents ++ [next])).getD [] := getBeside_of_denotes hdenotes hsub
  rw [hname, map_some, getD_some] at hreturned
  have hcall : apps.getNextProperty limit path = (printPath (found.parents ++ [name]),
      SortedMap.insert app { properties with
        properties := (properties.properties.getNextProperty limit propPath).2 } apps) := by
    rw [Applications.getNextProperty, onProperties, hsplit]
    simp only [hfind, hreturned]
    rfl
  rw [hcall, Ne, locate_insert_iff]
  rintro ⟨rest, hrest, hleads⟩
  exact splitPath_printPath_ne hrest (denotes_iff.mp hleads).1

/-- What is asked of the paths that are returned for a path: given back, they lead to the first
entry in its directory and to the entry after it. -/
structure Resumes (limit : ℕ) (apps : Applications δ) (path : ByteString) : Prop where
  first : ∀ place, (apps.locate limit path).bind apps.firstIn = some place →
    (apps.getFirstProperty limit path).2.locate limit (apps.getFirstProperty limit path).1
      = some place
  next : ∀ place, (apps.locate limit path).bind apps.nextTo = some place →
    (apps.getNextProperty limit path).2.locate limit (apps.getNextProperty limit path).1
      = some place

/-- **The paths that are returned lead back** if and only if there is no next one, and a first
one is of the exception. -/
theorem resumes_iff (limit : ℕ) (apps : Applications δ) (path : ByteString) :
    Resumes limit apps path ↔ (apps.locate limit path).bind apps.nextTo = none ∧
      ∀ place, (apps.locate limit path).bind apps.firstIn = some place →
        ∃ propPath, splitPath path = some (place.1, propPath) ∧ Echoed place.1 propPath ∧
          PlainName place.2.name := by
  rcases hplace : apps.locate limit path with _ | ⟨app, found⟩
  · refine iff_of_true ⟨?_, ?_⟩ ⟨rfl, nofun⟩
    · intro place hfirst
      rw [hplace] at hfirst
      cases hfirst
    · intro place hnext
      rw [hplace] at hnext
      cases hnext
  · have happ : ∀ place, apps.firstIn (app, found) = some place → place.1 = app := by
      intro place hfirst
      simp only [firstIn, bind_eq_some_iff, map_eq_some_iff] at hfirst
      obtain ⟨properties, -, sub, -, entry, -, rfl⟩ := hfirst
      rfl
    rw [bind_some, bind_some]
    constructor
    · intro h
      refine ⟨?_, fun place hfirst => ?_⟩
      · cases hnext : apps.nextTo (app, found) with
        | none => rfl
        | some place =>
          exact absurd (h.next place (by rw [hplace]; exact hnext)) (not_locate_next hplace hnext)
      · rw [happ place hfirst]
        exact (locate_first_iff hplace hfirst).mp (h.first place (by rw [hplace]; exact hfirst))
    · rintro ⟨hnone, hechoed⟩
      refine ⟨fun place hfirst => ?_, fun place hnext => ?_⟩
      · rw [hplace] at hfirst
        have hback := hechoed place hfirst
        rw [happ place hfirst] at hback
        exact (locate_first_iff hplace hfirst).mpr hback
      · rw [hplace, bind_some, hnone] at hnext
        cases hnext

/-! ### The names of the applications -/

def getFirstApplicationName (apps : Applications δ) : ByteString :=
  (apps.head?.map Prod.fst).getD []

/-- `get_next_application_name`: the name that has been found is the one that is returned. -/
def getNextApplicationName (apps : Applications δ) (path : ByteString) : ByteString :=
  let application := getApplicationNameFromPath path
  if (SortedMap.find application apps).isSome then application else []

def addApplication (limit : ℕ) (apps : Applications δ) (path : ByteString) (owner : Id)
    (security : Security) : Bool × Applications δ :=
  let application := getApplicationNameFromPath path
  if limit < utf8Size application then (false, apps)
  else if application ≠ [] ∧ SortedMap.find application apps = none then
    (true, SortedMap.insert application ⟨owner, security, PropertyDirectory.empty⟩ apps)
  else (false, apps)

def removeApplication (apps : Applications δ) (path : ByteString) : Applications δ :=
  SortedMap.erase (getApplicationNameFromPath path) apps

/-- What adding and removing keeps: the names are in order, and are names. -/
structure Named (apps : Applications δ) : Prop where
  sorted : SortedMap.Sorted apps
  named : ∀ name ∈ apps.map Prod.fst, name ≠ [] ∧ pathSeparator ∉ name

theorem named_nil : Named ([] : Applications δ) := ⟨.nil, nofun⟩

theorem notMem_getApplicationNameFromPath (path : ByteString) :
    pathSeparator ∉ getApplicationNameFromPath path := by
  unfold getApplicationNameFromPath
  split
  · exact not_mem_nil
  · intro hmem
    have hne := mem_takeWhile_imp hmem
    simp at hne

theorem Named.addApplication (h : apps.Named) (limit : ℕ) (path : ByteString) (owner : Id)
    (security : Security) : (apps.addApplication limit path owner security).2.Named := by
  unfold Applications.addApplication
  simp only
  split
  · exact h
  · split
    · next hnew =>
      refine ⟨h.sorted.insert _ _, fun name hname => ?_⟩
      rcases (SortedMap.mem_keys_insert _ _ _ _).mp hname with rfl | hname
      · exact ⟨hnew.1, notMem_getApplicationNameFromPath path⟩
      · exact h.named name hname
    · exact h

/-- A name is the path of its application, blanks at its ends aside. -/
theorem getApplicationNameFromPath_of_notMem {name : ByteString} (h : pathSeparator ∉ name) :
    getApplicationNameFromPath name = trimCopy name := by
  obtain ⟨front, back, hname, -, -⟩ := exists_trimCopy name
  have hmem : ∀ c ∈ trimCopy name, c ≠ pathSeparator := by
    rintro c hc rfl
    rw [hname] at h
    simp [hc] at h
  rcases separators_or (trimCopy name) with ⟨n, hn⟩ | ⟨n, c, rest, hn, hc⟩
  · cases n with
    | zero =>
      rw [replicate_zero] at hn
      rw [getApplicationNameFromPath, if_pos hn, hn]
    | succ n =>
      rw [hn] at hmem
      exact absurd rfl (hmem pathSeparator mem_cons_self)
  · cases n with
    | zero =>
      have hne : trimCopy name ≠ [] := by rw [hn]; simp
      rw [getApplicationNameFromPath, if_neg hne, trimmedPath_of_trimCopy hn hc]
      rw [replicate_zero, nil_append] at hn
      rw [← hn, takeWhile_eq_self_iff]
      intro c hc
      exact decide_eq_true (hmem c hc)
    | succ n =>
      rw [hn] at hmem
      exact absurd rfl (hmem pathSeparator mem_cons_self)

/-- Each application is visited, in their order, and then the empty name. -/
def VisitsNames (apps : Applications δ) : Prop :=
  ∀ n ≤ apps.length, apps.getNextApplicationName^[n] apps.getFirstApplicationName
    = (apps.map Prod.fst)[n]?.getD []

/-- **The names are visited** if and only if there are none, or one that is not found under
itself. -/
theorem visitsNames_iff (h : apps.Named) : apps.VisitsNames ↔
    apps = [] ∨ ∃ name app, apps = [(name, app)] ∧ trimCopy name ≠ name := by
  have hstep : ∀ name ∈ apps.map Prod.fst, apps.getNextApplicationName name =
      if (SortedMap.find (trimCopy name) apps).isSome then trimCopy name else [] := by
    intro name hname
    rw [getNextApplicationName, getApplicationNameFromPath_of_notMem (h.named name hname).2]
  cases apps with
  | nil =>
    refine iff_of_true (fun n hn => ?_) (.inl rfl)
    obtain rfl : n = 0 := Nat.le_zero.mp hn
    rfl
  | cons first rest =>
    obtain ⟨name, app⟩ := first
    have hname : name ∈ ((name, app) :: rest).map Prod.fst := mem_cons_self
    cases rest with
    | nil =>
      have hfind : (SortedMap.find (trimCopy name) [(name, app)]).isSome = true ↔
          trimCopy name = name := by
        rw [SortedMap.find]
        split
        · next heq => simp [heq]
        · next hne => simp [hne]
      constructor
      · intro hvisits
        refine .inr ⟨name, app, rfl, fun heq => ?_⟩
        have hsecond := hvisits 1 (Nat.le_refl 1)
        rw [Function.iterate_one] at hsecond
        have hfound := hstep name hname
        rw [if_pos (hfind.mpr heq), heq] at hfound
        exact (h.named name hname).1 (hfound.symm.trans hsecond)
      · rintro (hnil | ⟨name', app', heq, hne⟩)
        · cases hnil
        · cases heq
          intro n hn
          cases n with
          | zero => rfl
          | succ n =>
            obtain rfl : n = 0 := by simpa using hn
            rw [Nat.zero_add, Function.iterate_one]
            exact (hstep name hname).trans (if_neg (mt hfind.mp hne))
    | cons second rest =>
      refine iff_of_false (fun hvisits => ?_) (by simp)
      have hsecond : second.1 ∈ ((name, app) :: second :: rest).map Prod.fst := by simp
      have hne := (h.named second.1 hsecond).1
      -- the second name has to be found from the first, and then is found from itself
      have hone := hvisits 1 (by simp)
      have htwo := hvisits 2 (by simp)
      rw [Function.iterate_succ_apply', hone] at htwo
      change getNextApplicationName _ name = second.1 at hone
      rw [hstep name hname] at hone
      have htrim : trimCopy name = second.1 := by
        split at hone
        · exact hone
        · exact absurd hone.symm hne
      have hagain : getNextApplicationName ((name, app) :: second :: rest) second.1 = second.1 := by
        rw [hstep second.1 hsecond, ← htrim, trimCopy_trimCopy, htrim,
          if_pos (isSome_iff_ne_none.mpr (SortedMap.find_ne_none hsecond))]
      have hthird : second.1 = (rest.map Prod.fst).head?.getD [] := by
        rw [← hagain, head?_eq_getElem?]
        exact htwo
      cases rest with
      | nil => exact hne hthird
      | cons third rest =>
        have hnodup := h.sorted.nodup
        have hrest := (nodup_cons.mp (nodup_cons.mp hnodup).2).1
        exact hrest (by rw [hthird]; simp)

/-- **The paths that an Entity returns lead back** only where there is no next entry and the first
one is of the exception; **the names of its applications are visited** only where there are none,
or one that is not found under itself. -/
theorem entityWalk_iff (limit : ℕ) (apps : Applications δ) (h : apps.Named) :
    (∀ path, Resumes limit apps path ↔ (apps.locate limit path).bind apps.nextTo = none ∧
      ∀ place, (apps.locate limit path).bind apps.firstIn = some place →
        ∃ propPath, splitPath path = some (place.1, propPath) ∧ Echoed place.1 propPath ∧
          PlainName place.2.name) ∧
    (apps.VisitsNames ↔ apps = [] ∨ ∃ name app, apps = [(name, app)] ∧ trimCopy name ≠ name) :=
  ⟨resumes_iff limit apps, visitsNames_iff h⟩

/-- An application `a` that has just been added. -/
theorem entityWalk_iff_added :
    let apps := (addApplication 64 ([] : Applications ℕ) [97] default .empty).2
    apps.VisitsNames ↔ apps = [] ∨ ∃ name app, apps = [(name, app)] ∧ trimCopy name ≠ name :=
  (entityWalk_iff 64 _ (named_nil.addApplication 64 [97] default .empty)).2

/-- An application `a` with the properties `p` and `q`. -/
def withProperties : Applications ℕ :=
  [([97], ⟨default, .empty, ⟨[([112], some 1, none), ([113], some 2, none)], none⟩⟩)]

/-- After `a/p` comes `/q`, which is no property, and after the application `a` comes `a`. -/
theorem entityWalk_broken :
    (withProperties.getNextProperty 64 [97, 47, 112]).1 = [47, 113] ∧
      ((withProperties.getNextProperty 64 [97, 47, 112]).2.isProperty 64 [47, 113]).1 = false ∧
      ¬ Resumes 64 withProperties [97, 47, 112] ∧
      withProperties.getNextApplicationName [97] = [97] ∧ ¬ withProperties.VisitsNames := by
  have hnext : (withProperties.getNextProperty 64 [97, 47, 112]).1 = [47, 113] := by
    decide +kernel
  have hno : ((withProperties.getNextProperty 64 [97, 47, 112]).2.isProperty 64 [47, 113]).1
      = false := by decide +kernel
  have hname : withProperties.getNextApplicationName [97] = [97] := by decide +kernel
  refine ⟨hnext, hno, fun h => ?_, hname, fun h => ?_⟩
  · have hback := h.next ([97], ⟨[], [113]⟩) rfl
    rw [hnext] at hback
    rw [isProperty_eq, hback] at hno
    cases hno
  · have hsecond := h 1 (Nat.le_refl 1)
    rw [Function.iterate_one] at hsecond
    cases hname.symm.trans hsecond

end Applications

end Mutgos.DbTypes
