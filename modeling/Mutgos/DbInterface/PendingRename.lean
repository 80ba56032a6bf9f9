import Mutgos.DbInterface.UpdateManager

/-!
# Renames in progress

The update manager keeps the renames that the database does not know yet, those of the
programs with registration names and those of the players.  A name that is asked for is
looked up in the database and among the renames; the two functions that do this differ
in what they ask first.

## Main results

* `checkRename_approval` — every check has one of the outcomes.

## Implementation notes

`process_db_commits` deletes the updates before it looks at their fields and IDs for the
last time.  Here they still have the values that they had.
-/

namespace Mutgos.DbInterface

open DbTypes Text SortedMap

structure OldNewName where
  oldName : ByteString
  newName : ByteString
  deriving DecidableEq

/-- `UpdateManager::RenameInfo` -/
abbrev RenameInfo := List (EntityIdType × OldNewName)

/-- `UpdateManager::PendingRename` -/
abbrev PendingRename := List (SiteIdType × RenameInfo)

/-- What the database finds for a name in a site. -/
abbrev NameLookup := SiteIdType → ByteString → Option Id

/-- The rename of an Entity, if one is in progress. -/
def findRename (id : Id) (pendingInfo : PendingRename) : Option OldNewName :=
  (SortedMap.find id.siteId pendingInfo).bind (SortedMap.find id.entityId)

def isNameInProgress (siteId : SiteIdType) (name : ByteString) (pendingInfo : PendingRename) :
    Bool :=
  if name = [] then false
  else
    match SortedMap.find siteId pendingInfo with
    | none => false
    | some info => info.any fun rename => name = rename.2.oldName || name = rename.2.newName

/-- What `check_program_registration_name` and `check_player_name` have in common. -/
def checkRename (lookup : NameLookup) (pendingInfo : PendingRename) (id : Id)
    (oldName newName : ByteString) : Bool × PendingRename :=
  match SortedMap.find id.siteId pendingInfo with
  | none =>
    if lookup id.siteId newName ≠ none then (false, pendingInfo)
    else (true, SortedMap.insert id.siteId [(id.entityId, ⟨oldName, newName⟩)] pendingInfo)
  | some info =>
    match SortedMap.find id.entityId info with
    | some existing =>
      if newName = existing.newName then (true, pendingInfo)
      else if newName = existing.oldName then
        -- The rename is undone.
        let info := SortedMap.erase id.entityId info
        (true,
          if info.isEmpty then SortedMap.erase id.siteId pendingInfo
          else SortedMap.insert id.siteId info pendingInfo)
      else if lookup id.siteId newName ≠ none ∨
          isNameInProgress id.siteId newName pendingInfo = true then (false, pendingInfo)
      else
        (true, SortedMap.insert id.siteId
          (SortedMap.insert id.entityId { existing with newName := newName } info) pendingInfo)
    | none =>
      if lookup id.siteId newName ≠ none ∨
          isNameInProgress id.siteId newName pendingInfo = true then (false, pendingInfo)
      else
        (true, SortedMap.insert id.siteId
          (SortedMap.insert id.entityId ⟨oldName, newName⟩ info) pendingInfo)

def checkProgramRegistrationName (lookup : NameLookup) (pendingProgramRegistrations : PendingRename)
    (id : Id) (oldName newName : ByteString) : Bool × PendingRename :=
  if oldName = newName then (true, pendingProgramRegistrations)
  else if 32 ∈ newName then (false, pendingProgramRegistrations)
  else checkRename lookup pendingProgramRegistrations id oldName newName

/-- `check_player_name`.  A player that is not in the database is just being made. -/
def checkPlayerName (lookup : NameLookup) (entityExists : Bool) (pendingPlayerNames : PendingRename)
    (id : Id) (oldName newName : ByteString) : Bool × PendingRename :=
  if oldName = newName then (true, pendingPlayerNames)
  else if newName = [] ∨ 32 ∈ newName then (false, pendingPlayerNames)
  else if entityExists = false then (true, pendingPlayerNames)
  else checkRename lookup pendingPlayerNames id oldName newName

/-- The rename of an Entity is dropped.  Its site stays for now. -/
def eraseRename (pendingInfo : PendingRename) (id : Id) : PendingRename :=
  match SortedMap.find id.siteId pendingInfo with
  | none => pendingInfo
  | some info => SortedMap.insert id.siteId (SortedMap.erase id.entityId info) pendingInfo

def processProgRegRenameUpdate (lookup : NameLookup) (pendingInfo : PendingRename) (id : Id) :
    PendingRename :=
  match findRename id pendingInfo with
  | none => pendingInfo
  | some rename =>
    match lookup id.siteId rename.newName with
    | none => if rename.newName = [] then eraseRename pendingInfo id else pendingInfo
    | some progId => if id = progId then eraseRename pendingInfo id else pendingInfo

def processPlayerRenameUpdate (lookup : NameLookup) (pendingInfo : PendingRename) (id : Id) :
    PendingRename :=
  match findRename id pendingInfo with
  | none => pendingInfo
  | some rename =>
    if lookup id.siteId rename.newName = some id then eraseRename pendingInfo id else pendingInfo

/-- The updates that have changed a name are processed, as far as their sites have renames. -/
def processRenameUpdates (field : EntityField) (process : PendingRename → Id → PendingRename)
    (updates : List (Id × EntityUpdate)) (pendingInfo : PendingRename) : PendingRename :=
  updates.foldl
    (fun pendingInfo update =>
      if SortedMap.find update.1.siteId pendingInfo ≠ none ∧ field ∈ update.2.fieldsChanged then
        process pendingInfo update.2.entityId
      else pendingInfo)
    pendingInfo

/-- The last section of `process_db_commits`, for one of the two maps. -/
def clearRenames (field : EntityField) (process : PendingRename → Id → PendingRename)
    (updates : List (Id × EntityUpdate)) (deletes : Finset Id) (sites : List SiteIdType)
    (pendingInfo : PendingRename) : PendingRename :=
  let pendingInfo := sites.foldl (fun pendingInfo siteId => SortedMap.erase siteId pendingInfo)
    pendingInfo
  let pendingInfo := pendingInfo.map fun site =>
    (site.1, site.2.filter fun rename => (⟨site.1, rename.1⟩ : Id) ∉ deletes)
  let pendingInfo := processRenameUpdates field process updates pendingInfo
  let toDelete := (pendingInfo.map Prod.fst).filter fun siteId =>
    SortedMap.find siteId pendingInfo = some []
  toDelete.foldl (fun pendingInfo siteId => SortedMap.erase siteId pendingInfo) pendingInfo

/-! ### Finding a rename -/

variable {lookup : NameLookup} {pendingInfo : PendingRename} {id : Id}

theorem findRename_insert (siteId : SiteIdType) (info : RenameInfo) :
    findRename id (SortedMap.insert siteId info pendingInfo) =
      if id.siteId = siteId then SortedMap.find id.entityId info else findRename id pendingInfo := by
  rw [findRename, find_insert]
  split <;> rfl

theorem findRename_erase (siteId : SiteIdType) :
    findRename id (SortedMap.erase siteId pendingInfo) =
      if id.siteId = siteId then none else findRename id pendingInfo := by
  rw [findRename, find_erase]
  split <;> rfl

variable {info : RenameInfo}

theorem findRename_of_find (h : SortedMap.find id.siteId pendingInfo = some info) :
    findRename id pendingInfo = SortedMap.find id.entityId info := by
  rw [findRename, h, Option.bind_some]

/-- The info of a site is replaced by one that differs for one Entity. -/
theorem findRename_insert_info {info' : RenameInfo} (rename : Option OldNewName)
    (h : SortedMap.find id.siteId pendingInfo = some info)
    (hinfo : ∀ entityId, SortedMap.find entityId info' =
      if entityId = id.entityId then rename else SortedMap.find entityId info) (id' : Id) :
    findRename id' (SortedMap.insert id.siteId info' pendingInfo) =
      if id' = id then rename else findRename id' pendingInfo := by
  obtain ⟨siteId, entityId⟩ := id
  obtain ⟨siteId', entityId'⟩ := id'
  rw [findRename_insert, hinfo]
  by_cases hsite : siteId' = siteId
  · subst hsite
    have hfind : findRename ⟨siteId', entityId'⟩ pendingInfo = SortedMap.find entityId' info :=
      findRename_of_find h
    rw [if_pos rfl, hfind]
    by_cases hentity : entityId' = entityId
    · rw [if_pos hentity, if_pos (by rw [hentity])]
    · rw [if_neg hentity, if_neg (by simpa using hentity)]
  · rw [if_neg hsite, if_neg (by simp [hsite])]

theorem findRename_eraseRename (id' : Id) :
    findRename id' (eraseRename pendingInfo id) =
      if id' = id then none else findRename id' pendingInfo := by
  unfold eraseRename
  split
  · rename_i hnone
    split
    · rename_i heq
      rw [heq, findRename, hnone, Option.bind_none]
    · rfl
  · rename_i info hinfo
    refine findRename_insert_info none hinfo ?_ id'
    intro entityId
    exact find_erase id.entityId entityId info

/-- A name that is not in progress is in no rename of the site. -/
theorem ne_of_isNameInProgress_eq_false {siteId : SiteIdType} {name : ByteString}
    (h : isNameInProgress siteId name pendingInfo = false) (hname : name ≠ []) {rename : OldNewName}
    (hfind : findRename id pendingInfo = some rename) (hsite : id.siteId = siteId) :
    rename.oldName ≠ name ∧ rename.newName ≠ name := by
  subst hsite
  rw [findRename, Option.bind_eq_some_iff] at hfind
  obtain ⟨info, hinfo, hrename⟩ := hfind
  rw [isNameInProgress, if_neg hname, hinfo] at h
  have hnot := List.any_eq_false.mp h _ (mem_of_find hrename)
  simp only [Bool.or_eq_true, decide_eq_true_eq, not_or] at hnot
  exact ⟨Ne.symm hnot.1, Ne.symm hnot.2⟩

/-! ### The outcomes of a check -/

/-- The outcomes of a check. -/
inductive Approval (lookup : NameLookup) (pendingInfo : PendingRename) (id : Id)
    (oldName newName : ByteString) : Bool × PendingRename → Prop
  | refused : Approval lookup pendingInfo id oldName newName (false, pendingInfo)
  /-- The name is the one that the Entity has. -/
  | kept (hkept : oldName = newName) : Approval lookup pendingInfo id oldName newName (true, pendingInfo)
  /-- A rename to this name is in progress. -/
  | renamed {rename : OldNewName} (hfind : findRename id pendingInfo = some rename)
      (hnew : rename.newName = newName) :
      Approval lookup pendingInfo id oldName newName (true, pendingInfo)
  /-- A rename is undone. -/
  | undone {rename : OldNewName} {result : PendingRename}
      (hfind : findRename id pendingInfo = some rename) (hold : rename.oldName = newName)
      (hnew : rename.newName ≠ newName)
      (hresult : ∀ id', findRename id' result = if id' = id then none else findRename id' pendingInfo) :
      Approval lookup pendingInfo id oldName newName (true, result)
  /-- Nobody has the name. -/
  | taken (rename : OldNewName) {result : PendingRename}
      (hlookup : lookup id.siteId newName = none)
      (hprogress : isNameInProgress id.siteId newName pendingInfo = false)
      (hnew : rename.newName = newName)
      (hresult : ∀ id', findRename id' result =
        if id' = id then some rename else findRename id' pendingInfo) :
      Approval lookup pendingInfo id oldName newName (true, result)

/-- **Every check has one of the outcomes.** -/
theorem checkRename_approval (lookup : NameLookup) (pendingInfo : PendingRename) (id : Id)
    (oldName newName : ByteString) :
    Approval lookup pendingInfo id oldName newName
      (checkRename lookup pendingInfo id oldName newName) := by
  unfold checkRename
  split
  · rename_i hsite
    split
    · exact .refused
    · rename_i hlookup
      refine .taken ⟨oldName, newName⟩ (not_ne_iff.mp hlookup) ?_ rfl ?_
      · rw [isNameInProgress, hsite, ite_self]
      · intro id'
        obtain ⟨siteId, entityId⟩ := id
        obtain ⟨siteId', entityId'⟩ := id'
        rw [findRename_insert]
        by_cases heq : siteId' = siteId
        · subst heq
          by_cases hentity : entityId' = entityId
          · simp [hentity, SortedMap.find]
          · simp [hentity, SortedMap.find, findRename, hsite]
        · simp [heq]
  · rename_i info hsite
    have hfind := findRename_of_find hsite
    split
    · rename_i existing hexisting
      rw [hexisting] at hfind
      split
      · rename_i hnew
        exact .renamed hfind hnew.symm
      · rename_i hnew
        split
        · rename_i hold
          refine .undone hfind hold.symm (Ne.symm hnew) ?_
          intro id'
          -- A site without renames is as good as none.
          have herase := findRename_insert_info none hsite
            (fun entityId => find_erase id.entityId entityId info) id'
          split
          · rename_i hempty
            rw [List.isEmpty_iff.mp hempty, findRename_insert] at herase
            rw [← herase, findRename_erase]
            rfl
          · exact herase
        · split
          · exact .refused
          · rename_i hfree
            rw [not_or, not_ne_iff, Bool.not_eq_true] at hfree
            exact .taken _ hfree.1 hfree.2 rfl (findRename_insert_info _ hsite
              fun entityId => find_insert id.entityId entityId _ info)
    · split
      · exact .refused
      · rename_i hfree
        rw [not_or, not_ne_iff, Bool.not_eq_true] at hfree
        exact .taken _ hfree.1 hfree.2 rfl (findRename_insert_info _ hsite
          fun entityId => find_insert id.entityId entityId _ info)

theorem checkProgramRegistrationName_approval (lookup : NameLookup) (pendingInfo : PendingRename)
    (id : Id) (oldName newName : ByteString) :
    Approval lookup pendingInfo id oldName newName
      (checkProgramRegistrationName lookup pendingInfo id oldName newName) := by
  unfold checkProgramRegistrationName
  split
  · rename_i hkept
    exact .kept hkept
  · split
    · exact .refused
    · exact checkRename_approval lookup pendingInfo id oldName newName

/-- The same for a player that is in the database. -/
theorem checkPlayerName_approval (lookup : NameLookup) (pendingInfo : PendingRename) (id : Id)
    (oldName newName : ByteString) :
    Approval lookup pendingInfo id oldName newName
      (checkPlayerName lookup true pendingInfo id oldName newName) := by
  unfold checkPlayerName
  split
  · rename_i hkept
    exact .kept hkept
  · split
    · exact .refused
    · exact checkRename_approval lookup pendingInfo id oldName newName

/-! ### Dropping renames -/

/-- A rename is dropped only when it is done. -/
def DropsDone (done : Id → OldNewName → Prop) (process : PendingRename → Id → PendingRename) :
    Prop :=
  ∀ pendingInfo id, process pendingInfo id = pendingInfo ∨
    ∃ rename, findRename id pendingInfo = some rename ∧ done id rename ∧
      process pendingInfo id = eraseRename pendingInfo id

theorem processProgRegRenameUpdate_dropsDone (lookup : NameLookup) :
    DropsDone (fun id rename => rename.newName ≠ [] → lookup id.siteId rename.newName = some id)
      (processProgRegRenameUpdate lookup) := by
  intro pendingInfo id
  unfold processProgRegRenameUpdate
  split
  · exact .inl rfl
  · rename_i rename hfind
    split
    · split
      · rename_i hempty
        exact .inr ⟨rename, hfind, fun hne => absurd hempty hne, rfl⟩
      · exact .inl rfl
    · rename_i progId hlookup
      split
      · rename_i heq
        exact .inr ⟨rename, hfind, fun _ => heq ▸ hlookup, rfl⟩
      · exact .inl rfl

theorem processPlayerRenameUpdate_dropsDone (lookup : NameLookup) :
    DropsDone (fun id rename => lookup id.siteId rename.newName = some id)
      (processPlayerRenameUpdate lookup) := by
  intro pendingInfo id
  unfold processPlayerRenameUpdate
  split
  · exact .inl rfl
  · rename_i rename hfind
    split
    · rename_i hlookup
      exact .inr ⟨rename, hfind, hlookup, rfl⟩
    · exact .inl rfl

/-- A rename is dropped when it is done. -/
def DropsAllDone (done : Id → OldNewName → Prop) (process : PendingRename → Id → PendingRename) :
    Prop :=
  ∀ pendingInfo id rename, findRename id pendingInfo = some rename → done id rename →
    process pendingInfo id = eraseRename pendingInfo id

theorem processPlayerRenameUpdate_dropsAllDone (lookup : NameLookup) :
    DropsAllDone (fun id rename => lookup id.siteId rename.newName = some id)
      (processPlayerRenameUpdate lookup) := by
  intro pendingInfo id rename hfind hlookup
  unfold processPlayerRenameUpdate
  rw [hfind]
  exact if_pos hlookup

section Clear

variable {done : Id → OldNewName → Prop} {process : PendingRename → Id → PendingRename}

/-- What one update does to a rename. -/
theorem findRename_process (hprocess : DropsDone done process) (id' : Id) :
    findRename id (process pendingInfo id') = findRename id pendingInfo ∨
      findRename id (process pendingInfo id') = none ∧ id' = id ∧
        ∃ rename, findRename id pendingInfo = some rename ∧ done id rename := by
  obtain heq | ⟨rename, hfind, hdone, heq⟩ := hprocess pendingInfo id'
  · exact .inl (by rw [heq])
  · rw [heq, findRename_eraseRename]
    by_cases hid : id = id'
    · subst hid
      exact .inr ⟨if_pos rfl, rfl, rename, hfind, hdone⟩
    · exact .inl (if_neg hid)

/-- What all of the updates do to it. -/
theorem findRename_processRenameUpdates (hprocess : DropsDone done process) (field : EntityField)
    (updates : List (Id × EntityUpdate)) :
    findRename id (processRenameUpdates field process updates pendingInfo) =
        findRename id pendingInfo ∨
      findRename id (processRenameUpdates field process updates pendingInfo) = none ∧
        ∃ rename, findRename id pendingInfo = some rename ∧ done id rename := by
  induction updates generalizing pendingInfo with
  | nil => exact .inl rfl
  | cons update updates ih =>
    rw [processRenameUpdates, List.foldl_cons]
    split
    · obtain hsame | ⟨hnone, -, hdone⟩ :=
        @findRename_process pendingInfo id done process hprocess update.2.entityId
      · rw [← hsame]
        exact ih
      · refine .inr ⟨?_, hdone⟩
        obtain hrest | ⟨hrest, -⟩ := @ih (process pendingInfo update.2.entityId)
        · exact hrest.trans hnone
        · exact hrest
    · exact ih

/-- What is left of the sites and Entities that are deleted. -/
theorem findRename_deletes (deletes : Finset Id) (sites : List SiteIdType) :
    findRename id ((sites.foldl (fun p siteId => SortedMap.erase siteId p) pendingInfo).map
        fun site => (site.1, site.2.filter fun rename => (⟨site.1, rename.1⟩ : Id) ∉ deletes)) =
      if id.siteId ∈ sites ∨ id ∈ deletes then none else findRename id pendingInfo := by
  rw [findRename,
    find_map fun siteId (info : RenameInfo) =>
      info.filter fun rename => (⟨siteId, rename.1⟩ : Id) ∉ deletes,
    find_foldl_erase]
  by_cases hsite : id.siteId ∈ sites
  · simp [hsite]
  · cases hfind : SortedMap.find id.siteId pendingInfo with
    | none => simp [hsite, findRename, hfind]
    | some info =>
      have hfilter := find_filter (fun entityId => (⟨id.siteId, entityId⟩ : Id) ∉ deletes)
        id.entityId info
      rw [if_neg hsite, Option.map_some, Option.bind_some, hfilter, findRename_of_find hfind]
      by_cases hdelete : id ∈ deletes
      · simp [hsite, hdelete]
      · simp [hsite, hdelete]

/-- Sites without renames make no difference. -/
theorem findRename_toDelete :
    findRename id (((pendingInfo.map Prod.fst).filter fun siteId =>
        SortedMap.find siteId pendingInfo = some []).foldl
      (fun p siteId => SortedMap.erase siteId p) pendingInfo) = findRename id pendingInfo := by
  rw [findRename, find_foldl_erase]
  split
  · rename_i hmem
    have hempty := of_decide_eq_true (List.mem_filter.mp hmem).2
    rw [findRename, hempty]
    rfl
  · rfl

/-- **What becomes of a rename** when renames are cleared. -/
theorem findRename_clearRenames (hprocess : DropsDone done process) (field : EntityField)
    (updates : List (Id × EntityUpdate)) (deletes : Finset Id) (sites : List SiteIdType) :
    let result := clearRenames field process updates deletes sites pendingInfo
    (findRename id result = findRename id pendingInfo ∧ id.siteId ∉ sites ∧ id ∉ deletes) ∨
      findRename id result = none ∧
        (id.siteId ∈ sites ∨ id ∈ deletes ∨
          ∃ rename, findRename id pendingInfo = some rename ∧ done id rename) := by
  intro result
  have hresult : findRename id result = _ := findRename_toDelete
  rw [hresult]
  have hdeletes := @findRename_deletes pendingInfo id deletes sites
  obtain hsame | ⟨hnone, rename, hfind, hdone⟩ :=
    @findRename_processRenameUpdates _ id done process hprocess field updates
  · rw [hsame, hdeletes]
    by_cases hmem : id.siteId ∈ sites ∨ id ∈ deletes
    · rw [if_pos hmem]
      exact .inr ⟨rfl, or_assoc.mp (.inl hmem)⟩
    · rw [if_neg hmem]
      exact .inl ⟨rfl, not_or.mp hmem⟩
  · rw [hdeletes] at hfind
    split at hfind
    · cases hfind
    · exact .inr ⟨hnone, .inr (.inr ⟨rename, hfind, hdone⟩)⟩

variable {sure : Id → OldNewName → Prop} {field : EntityField} {updates : List (Id × EntityUpdate)}

/-- A rename that is done is dropped with its update. -/
theorem findRename_processRenameUpdates_done (hprocess : DropsDone done process)
    (hall : DropsAllDone sure process) {update : Id × EntityUpdate} (hmem : update ∈ updates)
    (hfield : field ∈ update.2.fieldsChanged) (hkey : update.1 = id) (hid : update.2.entityId = id)
    (hsure : ∀ rename, findRename id pendingInfo = some rename → sure id rename) :
    findRename id (processRenameUpdates field process updates pendingInfo) = none := by
  -- What is gone stays gone.
  have hgone : ∀ updates pendingInfo, findRename id pendingInfo = none →
      findRename id (processRenameUpdates field process updates pendingInfo) = none := by
    intro updates pendingInfo hnone
    obtain hsame | ⟨hnone', -⟩ :=
      @findRename_processRenameUpdates pendingInfo id done process hprocess field updates
    · exact hsame.trans hnone
    · exact hnone'
  induction updates generalizing pendingInfo with
  | nil => cases hmem
  | cons head updates ih =>
    cases hfind : findRename id pendingInfo with
    | none => exact hgone _ _ hfind
    | some rename =>
      rw [processRenameUpdates, List.foldl_cons]
      obtain rfl | hmem := List.mem_cons.mp hmem
      · have hsite : SortedMap.find update.1.siteId pendingInfo ≠ none := by
          intro hnone
          rw [findRename, ← hkey, hnone] at hfind
          cases hfind
        rw [if_pos ⟨hsite, hfield⟩, hid, hall pendingInfo id rename hfind (hsure rename hfind)]
        exact hgone _ _ (by rw [findRename_eraseRename, if_pos rfl])
      · split
        · obtain hsame | ⟨hnone, -⟩ :=
            @findRename_process pendingInfo id done process hprocess head.2.entityId
          · exact ih hmem fun rename hrename => hsure rename (hsame ▸ hrename)
          · exact hgone _ _ hnone
        · exact ih hmem hsure

/-- **A rename that is done is dropped.** -/
theorem findRename_clearRenames_done (hprocess : DropsDone done process)
    (hall : DropsAllDone sure process) {deletes : Finset Id} {sites : List SiteIdType}
    {update : Id × EntityUpdate} (hmem : update ∈ updates) (hfield : field ∈ update.2.fieldsChanged)
    (hkey : update.1 = id) (hid : update.2.entityId = id)
    (hsure : ∀ rename, findRename id pendingInfo = some rename → sure id rename) :
    findRename id (clearRenames field process updates deletes sites pendingInfo) = none := by
  have hresult : findRename id (clearRenames field process updates deletes sites pendingInfo) = _ :=
    findRename_toDelete
  rw [hresult]
  refine findRename_processRenameUpdates_done hprocess hall hmem hfield hkey hid ?_
  intro rename hrename
  rw [findRename_deletes] at hrename
  split at hrename
  · cases hrename
  · exact hsure rename hrename

end Clear

end Mutgos.DbInterface
