import Mutgos.DbInterface.RenameSystem
import Mutgos.Lib.NameClaims

/-!
# Who has which name

The names of the Entities that are not being deleted are claims ahead of the database,
and the renames in progress are the reservations.

## Main results

* `consistent_of_reachable` — **the invariant holds in a run that keeps to the guard.**
-/

namespace Mutgos.DbInterface

open DbTypes Text UpdateSystem Finset

/-- What both kinds of names have in common. -/
structure RenameKind.Lawful (kind : RenameKind) : Prop where
  trim_initialName : ∀ ser, trimCopy (kind.initialName ser) = kind.initialName ser
  trim_candidate : ∀ {name newName}, kind.candidate name = some newName → trimCopy newName = newName
  ne_nil : ∀ {name newName}, kind.candidate name = some newName → kind.isHeld newName = true →
    newName ≠ []
  approval : ∀ lookup pendingInfo id oldName newName,
    Approval lookup pendingInfo id oldName newName
      (kind.check lookup true pendingInfo id oldName newName)
  dropsDone : ∀ lookup, DropsDone
    (fun id rename => kind.isHeld rename.newName = true →
      lookup id.siteId rename.newName = some id)
    (kind.processRenameUpdate lookup)
  find_newRows : ∀ id ser rows id', SortedMap.find id' (kind.newRows id (kind.initialName ser) rows) =
    if id' = id ∧ kind.isHeld (kind.initialName ser) = true then some (kind.initialName ser)
    else SortedMap.find id' rows
  find_save : ∀ id name rows id', SortedMap.find id' (kind.save id name rows).2 =
    if id' = id then
      if kind.isHeld name = true ∧ (kind.save id name rows).1 = true then some name else none
    else SortedMap.find id' rows
  save_eq_true : ∀ id name rows,
    (∀ id' name', SortedMap.find id' rows = some name' → id'.siteId = id.siteId →
      toLowerCopy name' = toLowerCopy name → id' = id) → (kind.save id name rows).1 = true
  find_deleteSiteRows : ∀ siteId rows id, id.siteId ≠ siteId →
    SortedMap.find id (kind.deleteSiteRows siteId rows) = SortedMap.find id rows

/-! ### Finding a name -/

section Find

variable {rows : NameRows} {siteId : SiteIdType} {name : ByteString} {id : Id}

theorem findName_eq_some (h : findName rows siteId name = some id) :
    id.siteId = siteId ∧
      ∃ other, SortedMap.find id rows = some other ∧ toLowerCopy other = toLowerCopy name := by
  have hid := List.find?_some h
  simp only [Bool.and_eq_true, decide_eq_true_eq, Option.any_eq_true] at hid
  exact hid

theorem ne_of_findName_eq_none (h : findName rows siteId name = none) {other : ByteString}
    (hfind : SortedMap.find id rows = some other) (hsite : id.siteId = siteId) :
    toLowerCopy other ≠ toLowerCopy name := by
  have hmem : id ∈ rows.map Prod.fst := List.mem_map_of_mem (SortedMap.mem_of_find hfind)
  have hnot := List.find?_eq_none.mp h id hmem
  simpa [hsite, hfind] using hnot

end Find

namespace RenameSystem

variable {kind : RenameKind} {s s' : RenameSystem}

/-- Names are the same in a site when they are the same without capitals. -/
def key (id : Id) (name : ByteString) : SiteIdType × ByteString := (id.siteId, toLowerCopy name)

/-- An Entity that is not being deleted has a name. -/
def Held (kind : RenameKind) (s : RenameSystem) (id : Id) (k : SiteIdType × ByteString) : Prop :=
  s.isLive id = true ∧ kind.isHeld (s.names id) = true ∧ k = key id (s.names id)

/-- The database has a name for an Entity, and finds it. -/
def Stored (s : RenameSystem) (id : Id) (k : SiteIdType × ByteString) : Prop :=
  ∃ name, SortedMap.find id s.rows = some name ∧
    s.updates.siteDeletePending id.siteId = false ∧ k = key id name

/-- A rename is in progress. -/
def Reserved (s : RenameSystem) (id : Id) : Prop := findRename id s.pendingInfo ≠ none

/-- **The guard.**  A name may be set if it is stored as it is checked, if no rename in
progress has led to it written in another way, and if a rename to another name that it
undoes has not come to the database.  A new Entity gets an ID that is not among those to
be deleted, and a name that is free. -/
def ok (kind : RenameKind) (s : RenameSystem) : RenameStep → Prop
  | .setName id name => ∀ newName, kind.candidate name = some newName →
      kind.assigned name = some newName ∧
      (s.lookup id.siteId newName = none → ∀ id', id' ≠ id → id'.siteId = id.siteId →
        s.isLive id' = true → findRename id' s.pendingInfo ≠ none →
        toLowerCopy (s.names id') = toLowerCopy newName → s.names id' = newName) ∧
      (∀ rename, findRename id s.pendingInfo = some rename → rename.oldName = newName →
        rename.newName ≠ newName → kind.isHeld newName = true →
        s.lookup id.siteId newName = some id)
  | .newEntity id _ =>
      id ∉ s.updates.manager.pendingDeletes ∪ s.deletesCopy ∧
      (kind.isHeld (kind.initialName s.playerNameSer) = true →
        s.lookup id.siteId (kind.initialName s.playerNameSer) = none ∧
        ∀ id', id' ≠ id → id'.siteId = id.siteId → s.isLive id' = true →
          toLowerCopy (s.names id') ≠ toLowerCopy (kind.initialName s.playerNameSer))
  | .update _ => True

/-- The invariant. -/
structure Consistent (kind : RenameKind) (s : RenameSystem) : Prop where
  claims : NameClaims (Held kind s) s.Stored s.Reserved
  renamed : ∀ id rename, findRename id s.pendingInfo = some rename → s.names id = rename.newName
  owned : ∀ id, findRename id s.pendingInfo ≠ none →
    id ∈ s.entities ∨ id ∈ s.deletesCopy ∨ s.updates.siteDeletePending id.siteId = true
  trimmed : ∀ id ∈ s.entities, trimCopy (s.names id) = s.names id
  flagged : ∀ id ∈ s.updates.manager.pendingDeletes ∪ s.deletesCopy,
    s.updates.deletedFlag id = true
  phase : s.updates.phase.deletes ⊆ s.deletesCopy
  idle : s.updates.phase.isCommitting = false → s.deletesCopy = ∅
  sites : ∀ siteId ∈ s.updates.manager.pendingSiteDeletes ++ s.siteDeletesCopy,
    s.updates.siteDeletePending siteId = true
  keyed : Keyed s.updates.manager.pendingUpdates ∧ Keyed s.updatesCopy

theorem consistent_init : Consistent kind init where
  claims := .empty (fun _ _ h => by simp [Held, isLive, init] at h)
    (fun _ _ h => by simp [Stored, init] at h)
  renamed := nofun
  owned _ h := absurd rfl h
  trimmed := nofun
  flagged := nofun
  phase := Finset.Subset.refl _
  idle _ := rfl
  sites := nofun
  keyed := ⟨nofun, nofun⟩

theorem isLive_iff {id : Id} : s.isLive id = true ↔
    id ∈ s.entities ∧ s.updates.deletedFlag id = false ∧
      s.updates.siteDeletePending id.siteId = false := by
  simp [isLive, isDeletePending]

/-! ### What the database finds -/

variable {name : ByteString} {updates : UpdateSystem} {label : UpdateStep}

/-- Nothing is found for a name that nobody has. -/
theorem not_stored_of_lookup {id : Id} (h : s.lookup id.siteId name = none)
    (hsite : s.updates.siteDeletePending id.siteId = false) (id' : Id) :
    ¬ s.Stored id' (key id name) := by
  intro ⟨other, hfind, _, hkey⟩
  have hnone : findName s.rows id.siteId name = none := by
    rw [lookup, hsite] at h
    exact h
  have hkey' := Prod.ext_iff.mp hkey
  exact ne_of_findName_eq_none hnone hfind hkey'.1.symm hkey'.2.symm

/-- What is found has the name. -/
theorem stored_of_lookup {id id' : Id} (h : s.lookup id.siteId name = some id') :
    s.Stored id' (key id name) := by
  rw [lookup] at h
  split at h
  · cases h
  · rename_i hsite
    obtain ⟨heq, other, hfind, hlower⟩ := findName_eq_some h
    refine ⟨other, hfind, ?_, ?_⟩
    · rw [heq]
      exact Bool.not_eq_true _ ▸ hsite
    · rw [key, key, heq, hlower]

/-! ### The update manager -/

theorem isLive_of_effect (heffect : UpdateSystem.StepEffect s.updates updates label) {id : Id}
    (hlabel : label ≠ .newEntity id)
    (hlive : ({ s with updates := updates } : RenameSystem).isLive id = true) :
    s.isLive id = true := by
  rw [isLive_iff] at hlive ⊢
  obtain ⟨hmem, hflag, hsite⟩ := hlive
  refine ⟨hmem, ?_, ?_⟩
  · rw [← Bool.not_eq_true]
    intro h
    rw [heffect.flagged id hlabel h] at hflag
    cases hflag
  · rw [← Bool.not_eq_true]
    intro h
    rw [heffect.siteFlagged id.siteId h] at hsite
    cases hsite

section

variable (h : Consistent kind s) (heffect : UpdateSystem.StepEffect s.updates updates label)
  (hnew : ∀ id, label = .newEntity id → id ∉ s.entities ∧ id ∉ s.updates.manager.pendingDeletes ∪ s.deletesCopy)
include h heffect hnew

/-- A step of the update manager, with what it does to names done. -/
theorem Consistent.setUpdates {updatesCopy : List (Id × EntityUpdate)} {deletesCopy : Finset Id}
    {siteDeletesCopy : List SiteIdType} (hkeyed : Keyed updatesCopy)
    (hphase : updates.phase.deletes ⊆ deletesCopy)
    (hidle : updates.phase.isCommitting = false → deletesCopy = ∅)
    (hkept : s.deletesCopy ⊆ deletesCopy)
    (hdeletes : deletesCopy ⊆ s.updates.manager.pendingDeletes ∪ s.deletesCopy)
    (hsites : siteDeletesCopy ⊆ s.updates.manager.pendingSiteDeletes ++ s.siteDeletesCopy) :
    Consistent kind { s with
      updates := updates
      updatesCopy := updatesCopy
      deletesCopy := deletesCopy
      siteDeletesCopy := siteDeletesCopy } := by
  refine ⟨?_, h.renamed, ?_, h.trimmed, ?_, hphase, hidle, ?_, ⟨heffect.keyed h.keyed.1, hkeyed⟩⟩
  · refine h.claims.mono ?_ ?_ ?_
    · intro id k ⟨hlive, hheld, hk⟩
      have hlabel : label ≠ .newEntity id := fun hlabel =>
        (hnew id hlabel).1 (isLive_iff.mp hlive).1
      exact ⟨isLive_of_effect heffect hlabel hlive, hheld, hk⟩
    · intro id k ⟨name, hfind, hsite, hk⟩
      refine ⟨name, hfind, ?_, hk⟩
      rw [← Bool.not_eq_true]
      intro hpending
      rw [heffect.siteFlagged id.siteId hpending] at hsite
      cases hsite
    · intro id k ⟨hlive, _⟩ hcovered
      refine hcovered.imp_right ?_
      intro ⟨name, hfind, _, hk⟩
      exact ⟨name, hfind, (isLive_iff.mp hlive).2.2, hk⟩
  · intro id hid
    obtain hmem | hcopy | hsite := h.owned id hid
    · exact .inl hmem
    · exact .inr (.inl (hkept hcopy))
    · exact .inr (.inr (heffect.siteFlagged id.siteId hsite))
  · intro id hid
    have hold : id ∈ s.updates.manager.pendingDeletes ∪ s.deletesCopy →
        updates.deletedFlag id = true := fun hid =>
      heffect.flagged id (fun hlabel => (hnew id hlabel).2 hid) (h.flagged id hid)
    obtain hid | hid := mem_union.mp hid
    · obtain hid | hflag := heffect.pendingDeletes id hid
      · exact hold (union_subset_union_right h.phase hid)
      · exact hflag
    · exact hold (hdeletes hid)
  · intro siteId hsite
    obtain hsite | hsite := List.mem_append.mp hsite
    · obtain hsite | hflag := heffect.pendingSites siteId hsite
      · exact heffect.siteFlagged siteId (h.sites siteId (List.mem_append_left _ hsite))
      · exact hflag
    · exact heffect.siteFlagged siteId (h.sites siteId (hsites hsite))

/-- A step other than the first of `process_db_commits`. -/
theorem Consistent.update (htake : label ≠ .takePending)
    (hfinish : label = .finishCommits → s.deletesCopy = ∅) :
    Consistent kind { s with updates := updates } := by
  refine h.setUpdates heffect hnew h.keyed.2 ((heffect.deletes htake).trans h.phase) ?_
    (Finset.Subset.refl _) subset_union_right (List.subset_append_right _ _)
  intro hidle
  by_cases hcommitting : s.updates.phase.isCommitting = true
  · refine hfinish ?_
    by_contra hlabel
    rw [heffect.committing hcommitting hlabel] at hidle
    cases hidle
  · exact h.idle (Bool.not_eq_true _ ▸ hcommitting)

end

/-- The first step of `process_db_commits`. -/
theorem Consistent.takePending (h : Consistent kind s)
    (hs' : s.updates.step .takePending = some updates) :
    Consistent kind { s.takePending with updates := updates } := by
  have heffect := step_effect hs'
  obtain ⟨hidle, hcommitting, hdeletes⟩ := heffect.taken rfl
  have hempty := h.idle hidle
  refine h.setUpdates heffect nofun h.keyed.1 hdeletes ?_ (hempty ▸ empty_subset _)
    subset_union_left (List.subset_append_left _ _)
  intro hidle'
  rw [hcommitting] at hidle'
  cases hidle'

/-! ### What the update manager does to names -/

/-- The name of an Entity is saved. -/
theorem Consistent.commitEntity (hkind : kind.Lawful) (h : Consistent kind s) (id : Id) :
    Consistent kind (s.commitEntity kind id) := by
  unfold RenameSystem.commitEntity
  split
  · rename_i hlive
    have hsite := (isLive_iff.mp hlive).2.2
    -- Nobody else has the name in the database, if it is one.
    have hsave : kind.isHeld (s.names id) = true → (kind.save id (s.names id) s.rows).1 = true := by
      intro hheld
      refine hkind.save_eq_true id (s.names id) s.rows ?_
      intro id' name' hfind hsite' hlower
      refine (h.claims.ahead id id' (key id (s.names id)) ⟨hlive, hheld, rfl⟩ ?_).symm
      exact ⟨name', hfind, hsite' ▸ hsite, by rw [key, key, hsite', hlower]⟩
    refine ⟨?_, h.renamed, h.owned, h.trimmed, h.flagged, h.phase, h.idle, h.sites, h.keyed⟩
    refine @NameClaims.flush _ _ _ (Held kind s) s.Stored _ h.claims id ?_ ?_
    · rintro id' k ⟨name, hfind, hsite', hk⟩
      rw [hkind.find_save] at hfind
      split at hfind
      · rename_i heq
        subst heq
        split at hfind
        · rename_i hheld
          cases hfind
          exact .inl ⟨rfl, hlive, hheld.1, hk⟩
        · cases hfind
      · rename_i hne
        exact .inr ⟨hne, name, hfind, hsite', hk⟩
    · rintro id' k ⟨_, hheld, hk⟩ ⟨name, hfind, hsite', hk'⟩
      by_cases heq : id' = id
      · subst heq
        refine ⟨s.names id', ?_, hsite', hk⟩
        rw [hkind.find_save, if_pos rfl, if_pos ⟨hheld, hsave hheld⟩]
      · refine ⟨name, ?_, hsite', hk'⟩
        rw [hkind.find_save, if_neg heq]
        exact hfind
  · exact h

/-- An Entity that is marked for its deletion is deleted. -/
theorem Consistent.deleteEntity (h : Consistent kind s) {id : Id} (hid : id ∈ s.deletesCopy) :
    Consistent kind (s.deleteEntity id) := by
  unfold RenameSystem.deleteEntity
  split
  · exact h
  · have hsub : ∀ id', id' ∈ s.entities.erase id → id' ∈ s.entities :=
      fun _ => mem_of_mem_erase
    refine ⟨?_, h.renamed, ?_, ?_, h.flagged, h.phase, h.idle, h.sites, h.keyed⟩
    · have hheld : ∀ id' k, Held kind { s with
            entities := s.entities.erase id, rows := SortedMap.erase id s.rows } id' k →
          id' ≠ id ∧ Held kind s id' k := by
        rintro id' k ⟨hlive, hheld, hk⟩
        obtain ⟨hmem, hflags⟩ := isLive_iff.mp hlive
        exact ⟨ne_of_mem_erase hmem, isLive_iff.mpr ⟨hsub id' hmem, hflags⟩, hheld, hk⟩
      refine h.claims.mono (fun id' k hk => (hheld id' k hk).2) ?_ ?_
      · rintro id' k ⟨name, hfind, hrest⟩
        rw [SortedMap.find_erase] at hfind
        split at hfind
        · cases hfind
        · exact ⟨name, hfind, hrest⟩
      · intro id' k hk hcovered
        refine hcovered.imp_right ?_
        rintro ⟨name, hfind, hrest⟩
        refine ⟨name, ?_, hrest⟩
        rw [SortedMap.find_erase, if_neg (hheld id' k hk).1]
        exact hfind
    · intro id' hid'
      by_cases heq : id' = id
      · exact .inr (.inl (heq ▸ hid))
      · exact (h.owned id' hid').imp_left fun hmem => mem_erase.mpr ⟨heq, hmem⟩
    · intro id' hid'
      exact h.trimmed id' (hsub id' hid')

/-- A site that is marked for its deletion is deleted. -/
theorem Consistent.deleteSite (hkind : kind.Lawful) (h : Consistent kind s) {siteId : SiteIdType}
    (hsite : s.updates.siteDeletePending siteId = true) :
    Consistent kind (s.deleteSite kind siteId) := by
  refine ⟨?_, h.renamed, ?_, ?_, h.flagged, h.phase, h.idle, h.sites, h.keyed⟩
  · have hrows : ∀ id k, s.updates.siteDeletePending id.siteId = false →
        ((s.deleteSite kind siteId).Stored id k ↔ s.Stored id k) := by
      intro id k hid
      have hne : id.siteId ≠ siteId := by
        intro heq
        rw [heq, hsite] at hid
        cases hid
      rw [Stored, Stored, RenameSystem.deleteSite, hkind.find_deleteSiteRows siteId s.rows id hne]
    refine h.claims.mono ?_ ?_ ?_
    · intro id k ⟨hlive, hheld, hk⟩
      obtain ⟨hmem, hflags⟩ := isLive_iff.mp hlive
      exact ⟨isLive_iff.mpr ⟨(mem_filter.mp hmem).1, hflags⟩, hheld, hk⟩
    · intro id k hstored
      have hid : s.updates.siteDeletePending id.siteId = false := by
        obtain ⟨_, _, hid, _⟩ := hstored
        exact hid
      exact (hrows id k hid).mp hstored
    · intro id k ⟨hlive, _⟩ hcovered
      exact hcovered.imp_right (hrows id k (isLive_iff.mp hlive).2.2).mpr
  · intro id hid
    by_cases heq : id.siteId = siteId
    · exact .inr (.inr (heq ▸ hsite))
    · exact (h.owned id hid).imp_left fun hmem => mem_filter.mpr ⟨hmem, by simpa using heq⟩
  · intro id hid
    exact h.trimmed id (mem_filter.mp hid).1

/-- Renames that are done are dropped. -/
theorem Consistent.finishCommits (hkind : kind.Lawful) (h : Consistent kind s)
    (hdeletes : s.updates.phase.deletes = ∅) : Consistent kind (s.finishCommits kind) := by
  have hclear := fun id => @findRename_clearRenames s.pendingInfo id _ _
    (hkind.dropsDone s.lookup) kind.field s.updatesCopy s.deletesCopy s.siteDeletesCopy
  refine ⟨?_, ?_, ?_, h.trimmed, ?_, ?_, fun _ => rfl, ?_, ⟨h.keyed.1, nofun⟩⟩
  · refine h.claims.mono (fun _ _ hk => hk) (fun _ _ hk => hk) ?_
    intro id k ⟨hlive, hheld, hk⟩ hcovered
    obtain ⟨-, hflag, hpending⟩ := isLive_iff.mp hlive
    obtain hreserved | hstored := hcovered
    · obtain ⟨hsame, -⟩ | ⟨-, hsite | hdelete | ⟨rename, hfind, hdone⟩⟩ := hclear id
      · exact .inl fun hnone => hreserved (hsame ▸ hnone)
      · cases hpending.symm.trans (h.sites id.siteId (List.mem_append_right _ hsite))
      · cases hflag.symm.trans (h.flagged id (mem_union_right _ hdelete))
      · -- The database has the name that the rename leads to.
        have hheld' : kind.isHeld (s.names id) = true := hheld
        have hk' : k = key id (s.names id) := hk
        rw [h.renamed id rename hfind] at hheld' hk'
        exact .inr (hk' ▸ stored_of_lookup (hdone hheld'))
    · exact .inr hstored
  · intro id rename hfind
    obtain ⟨hsame, -⟩ | ⟨hnone, -⟩ := hclear id
    · exact h.renamed id rename (hsame ▸ hfind)
    · cases hnone.symm.trans hfind
  · intro id hne
    obtain ⟨hsame, hsite, hdelete⟩ | ⟨hnone, -⟩ := hclear id
    · obtain hmem | hcopy | hpending := h.owned id fun hnone => hne (hsame.trans hnone)
      · exact .inl hmem
      · exact absurd hcopy hdelete
      · exact .inr (.inr hpending)
    · exact absurd hnone hne
  · intro id hid
    exact h.flagged id (union_subset_union_right (empty_subset _) hid)
  · exact hdeletes.subset
  · intro siteId hsite
    have hsite' : siteId ∈ s.updates.manager.pendingSiteDeletes ++ [] := hsite
    rw [List.append_nil] at hsite'
    exact h.sites siteId (List.mem_append_left _ hsite')

/-! ### A name is set -/

section Assign

variable {id : Id} {newName : ByteString} {result : PendingRename} {k : SiteIdType × ByteString}

/-- What is held when a name has been assigned. -/
theorem held_assign {id' : Id} (hk : Held kind (s.assign id newName result) id' k) :
    id' = id ∧ s.isLive id = true ∧ kind.isHeld newName = true ∧ k = key id newName ∨
      id' ≠ id ∧ Held kind s id' k := by
  obtain ⟨hlive, hheld, hk⟩ := hk
  by_cases heq : id' = id
  · subst heq
    simp only [assign, Function.update_self] at hheld hk
    exact .inl ⟨rfl, hlive, hheld, hk⟩
  · simp only [assign, Function.update_of_ne heq] at hheld hk
    exact .inr ⟨heq, hlive, hheld, hk⟩

/-- The Entity has the name, and the others have what they had. -/
theorem held_assign_self (hk : Held kind (s.assign id newName result) id k) :
    k = key id newName := by
  obtain ⟨-, -, -, hk⟩ | ⟨hne, -⟩ := held_assign hk
  · exact hk
  · exact absurd rfl hne

theorem held_assign_of_ne {id' : Id} (hne : id' ≠ id)
    (hk : Held kind (s.assign id newName result) id' k) : Held kind s id' k := by
  obtain ⟨heq, -⟩ | ⟨-, hk⟩ := held_assign hk
  · exact absurd heq hne
  · exact hk

/-- What does not count as a name, or is not a name of an Entity that counts. -/
theorem Consistent.claims_of_not_held (h : Consistent kind s)
    (hreserved : ∀ id', id' ≠ id → s.Reserved id' → (s.assign id newName result).Reserved id')
    (hnot : ¬ (s.isLive id = true ∧ kind.isHeld newName = true)) :
    NameClaims (Held kind (s.assign id newName result)) s.Stored
      (s.assign id newName result).Reserved := by
  have hothers : ∀ id' k, Held kind (s.assign id newName result) id' k →
      id' ≠ id ∧ Held kind s id' k := by
    intro id' k hk
    obtain ⟨-, hlive, hheld, -⟩ | hk := held_assign hk
    · exact absurd ⟨hlive, hheld⟩ hnot
    · exact hk
  refine h.claims.mono (fun id' k hk => (hothers id' k hk).2) (fun _ _ hst => hst) ?_
  intro id' k hk hcovered
  exact hcovered.imp_left (hreserved id' (hothers id' k hk).1)

/-- A rename is undone. -/
theorem Consistent.claims_undone (h : Consistent kind s)
    (hback : kind.isHeld newName = true → s.lookup id.siteId newName = some id)
    (hresult : ∀ id', findRename id' result =
      if id' = id then none else findRename id' s.pendingInfo) :
    NameClaims (Held kind (s.assign id newName result)) s.Stored
      (s.assign id newName result).Reserved := by
  have hreserved : ∀ id', id' ≠ id → s.Reserved id' → findRename id' result ≠ none := by
    intro id' hne hres
    rw [hresult, if_neg hne]
    exact hres
  by_cases hholds : s.isLive id = true ∧ kind.isHeld newName = true
  · exact h.claims.giveBack (stored_of_lookup (hback hholds.2)) (fun _ hk => held_assign_self hk)
      (fun _ _ hne hk => held_assign_of_ne hne hk) hreserved
  · exact h.claims_of_not_held hreserved hholds

/-- A name is taken that nobody has. -/
theorem Consistent.claims_taken (h : Consistent kind s) {rename : OldNewName}
    (hnil : kind.isHeld newName = true → newName ≠ [])
    (hlookup : s.lookup id.siteId newName = none)
    (hprogress : isNameInProgress id.siteId newName s.pendingInfo = false)
    (hvariant : ∀ id', id' ≠ id → id'.siteId = id.siteId → s.isLive id' = true →
      findRename id' s.pendingInfo ≠ none →
      toLowerCopy (s.names id') = toLowerCopy newName → s.names id' = newName)
    (hresult : ∀ id', findRename id' result =
      if id' = id then some rename else findRename id' s.pendingInfo) :
    NameClaims (Held kind (s.assign id newName result)) s.Stored
      (s.assign id newName result).Reserved := by
  have hreserved : ∀ id', id' ≠ id → s.Reserved id' → findRename id' result ≠ none := by
    intro id' hne hres
    rw [hresult, if_neg hne]
    exact hres
  by_cases hholds : s.isLive id = true ∧ kind.isHeld newName = true
  · refine h.claims.take (not_stored_of_lookup hlookup (isLive_iff.mp hholds.1).2.2) ?_
      (fun _ hk => held_assign_self hk) (fun _ _ hne hk => held_assign_of_ne hne hk) hreserved ?_
    · -- Who has a rename in progress to this name has it as it is asked for.
      intro id' hne hres ⟨hlive, _, hk⟩
      have hk' := Prod.ext_iff.mp hk
      have hsite : id'.siteId = id.siteId := hk'.1.symm
      have hname := hvariant id' hne hsite hlive hres hk'.2.symm
      obtain ⟨rename', hfind⟩ := Option.ne_none_iff_exists'.mp hres
      have hnew := (ne_of_isNameInProgress_eq_false hprogress (hnil hholds.2) hfind hsite).2
      exact hnew ((h.renamed id' rename' hfind).symm.trans hname)
    · change findRename id result ≠ none
      rw [hresult, if_pos rfl]
      exact nofun
  · exact h.claims_of_not_held hreserved hholds

/-- A name that has been approved is assigned. -/
theorem Consistent.assign (hkind : kind.Lawful) (h : Consistent kind s) {name : ByteString}
    (hmem : id ∈ s.entities) (hcandidate : kind.candidate name = some newName)
    (hok : ok kind s (.setName id name))
    (happroval : Approval s.lookup s.pendingInfo id (s.names id) newName (true, result)) :
    Consistent kind (s.assign id newName result) := by
  obtain ⟨-, hvariant, hback⟩ := hok newName hcandidate
  have htrimmed : ∀ id' ∈ s.entities, trimCopy (Function.update s.names id newName id') =
      Function.update s.names id newName id' := by
    intro id' hmem'
    by_cases heq : id' = id
    · rw [heq, Function.update_self]
      exact hkind.trim_candidate hcandidate
    · rw [Function.update_of_ne heq]
      exact h.trimmed id' hmem'
  cases happroval with
  | kept hkept =>
    rw [RenameSystem.assign, ← hkept, Function.update_eq_self]
    exact h
  | renamed hfind hnew =>
    rw [RenameSystem.assign, ← hnew, ← h.renamed id _ hfind, Function.update_eq_self]
    exact h
  | undone hfind hold hnew hresult =>
    refine ⟨h.claims_undone (hback _ hfind hold hnew) hresult, ?_, ?_, htrimmed, h.flagged, h.phase,
      h.idle, h.sites, h.keyed⟩
    · intro id' rename' hfind'
      rw [RenameSystem.assign, hresult] at hfind'
      split at hfind'
      · cases hfind'
      · rename_i hne
        exact (Function.update_of_ne hne _ _).trans (h.renamed id' rename' hfind')
    · intro id' hne
      rw [RenameSystem.assign, hresult] at hne
      split at hne
      · exact absurd rfl hne
      · exact h.owned id' hne
  | taken rename hlookup hprogress hnew hresult =>
    refine ⟨h.claims_taken (hkind.ne_nil hcandidate) hlookup hprogress (hvariant hlookup) hresult,
      ?_, ?_, htrimmed, h.flagged, h.phase, h.idle, h.sites, h.keyed⟩
    · intro id' rename' hfind'
      rw [RenameSystem.assign, hresult] at hfind'
      split at hfind'
      · rename_i heq
        cases hfind'
        subst heq
        exact (Function.update_self ..).trans hnew.symm
      · rename_i hne
        exact (Function.update_of_ne hne _ _).trans (h.renamed id' rename' hfind')
    · intro id' hne
      rw [RenameSystem.assign, hresult] at hne
      split at hne
      · rename_i heq
        exact .inl (heq ▸ hmem)
      · exact h.owned id' hne

end Assign

section

variable (hkind : kind.Lawful) (h : Consistent kind s)
include hkind h

/-- A name is set. -/
theorem Consistent.setName {id : Id} (hmem : id ∈ s.entities) (hok : ok kind s (.setName id name))
    (hs' : s.setName kind id name = some s') : Consistent kind s' := by
  unfold RenameSystem.setName at hs'
  split at hs'
  · cases hs'
    exact h
  · rename_i newName hcandidate
    have happroval := hkind.approval s.lookup s.pendingInfo id (s.names id) newName
    rw [decide_eq_true hmem] at hs'
    generalize kind.check s.lookup true s.pendingInfo id (s.names id) newName = check at *
    obtain ⟨approved, result⟩ := check
    cases approved with
    | false =>
      cases happroval
      cases hs'
      exact h
    | true =>
      have hassigned := (hok newName hcandidate).1
      simp only [if_true, hassigned] at hs'
      rw [Option.map_eq_some_iff] at hs'
      obtain ⟨updates, hupdates, rfl⟩ := hs'
      exact (h.assign hkind hmem hcandidate hok happroval).update
        (step_effect hupdates) nofun nofun nofun

/-! ### An Entity is new -/

/-- A new Entity has the name of one that is new, if that is one, and nobody else has. -/
theorem Consistent.enter {id : Id} (hmem : id ∉ s.entities)
    (hflag : s.updates.deletedFlag id = false)
    (hsite : s.updates.siteDeletePending id.siteId = false) (hcopy : id ∉ s.deletesCopy)
    (hfree : kind.isHeld (kind.initialName s.playerNameSer) = true →
      s.lookup id.siteId (kind.initialName s.playerNameSer) = none ∧
      ∀ id', id' ≠ id → id'.siteId = id.siteId → s.isLive id' = true →
        toLowerCopy (s.names id') ≠ toLowerCopy (kind.initialName s.playerNameSer)) :
    Consistent kind (s.enter kind id) := by
  have hnone : findRename id s.pendingInfo = none := by
    by_contra hne
    obtain h | h | h := h.owned id hne
    · exact hmem h
    · exact hcopy h
    · exact absurd (hsite.symm.trans h) nofun
  have hlive : (s.enter kind id).isLive id = true :=
    isLive_iff.mpr ⟨mem_insert_self id s.entities, hflag, hsite⟩
  -- The others have what they had.
  have hothers : ∀ id' k, id' ≠ id → Held kind (s.enter kind id) id' k → Held kind s id' k := by
    intro id' k hne ⟨hlive, hheld, hk⟩
    obtain ⟨hmem, hflags⟩ := isLive_iff.mp hlive
    simp only [RenameSystem.enter, Function.update_of_ne hne] at hheld hk
    exact ⟨isLive_iff.mpr ⟨mem_of_mem_insert_of_ne hmem hne, hflags⟩, hheld, hk⟩
  have hself : ∀ k, Held kind (s.enter kind id) id k →
      kind.isHeld (kind.initialName s.playerNameSer) = true ∧
        k = key id (kind.initialName s.playerNameSer) := by
    intro k ⟨_, hheld, hk⟩
    simp only [RenameSystem.enter, Function.update_self] at hheld hk
    exact ⟨hheld, hk⟩
  refine ⟨?_, ?_, ?_, ?_, h.flagged, h.phase, h.idle, h.sites, h.keyed⟩
  · by_cases hheld : kind.isHeld (kind.initialName s.playerNameSer) = true
    · obtain ⟨hlookup, hnobody⟩ := hfree hheld
      have hnew : ∀ k, k = key id (kind.initialName s.playerNameSer) →
          Held kind (s.enter kind id) id k := by
        intro k hk
        refine ⟨hlive, ?_, ?_⟩
        · simpa only [RenameSystem.enter, Function.update_self] using hheld
        · simpa only [RenameSystem.enter, Function.update_self] using hk
      refine h.claims.enroll (not_stored_of_lookup hlookup hsite) ?_ (fun k hk => (hself k hk).2)
        (fun id' k hne hk => hothers id' k hne hk) ?_ ?_ ?_
      · intro id' hne ⟨hlive, _, hk⟩
        have hk' := Prod.ext_iff.mp hk
        exact hnobody id' hne hk'.1.symm hlive hk'.2.symm
      · intro id' k ⟨name, hfind, hsite', hk⟩
        rw [RenameSystem.enter, hkind.find_newRows] at hfind
        by_cases heq : id' = id
        · subst heq
          rw [if_pos ⟨rfl, hheld⟩] at hfind
          cases hfind
          exact .inl ⟨rfl, hnew k hk⟩
        · rw [if_neg (fun h => heq h.1)] at hfind
          exact .inr ⟨heq, name, hfind, hsite', hk⟩
      · intro id' k hne ⟨name, hfind, hsite', hk⟩
        refine ⟨name, ?_, hsite', hk⟩
        rw [RenameSystem.enter, hkind.find_newRows, if_neg (fun h => hne h.1)]
        exact hfind
      · intro k hk
        refine ⟨kind.initialName s.playerNameSer, ?_, hsite, (hself k hk).2⟩
        rw [RenameSystem.enter, hkind.find_newRows, if_pos ⟨rfl, hheld⟩]
    · have hne : ∀ id' k, Held kind (s.enter kind id) id' k → id' ≠ id := by
        intro id' k hk heq
        subst heq
        exact hheld (hself k hk).1
      have hrows : ∀ id' k, (s.enter kind id).Stored id' k ↔ s.Stored id' k := by
        intro id' k
        rw [Stored, Stored, RenameSystem.enter, hkind.find_newRows, if_neg (fun h => hheld h.2)]
      refine h.claims.mono (fun id' k hk => hothers id' k (hne id' k hk) hk)
        (fun id' k => (hrows id' k).mp) ?_
      intro id' k _ hcovered
      exact hcovered.imp_right (hrows id' k).mpr
  · intro id' rename hfind
    have hne : id' ≠ id := by
      intro heq
      subst heq
      cases hnone.symm.trans hfind
    exact (Function.update_of_ne hne _ _).trans (h.renamed id' rename hfind)
  · intro id' hne
    exact (h.owned id' hne).imp_left (mem_insert_of_mem ·)
  · intro id' hmem'
    by_cases heq : id' = id
    · subst heq
      simp only [RenameSystem.enter, Function.update_self]
      exact hkind.trim_initialName s.playerNameSer
    · simp only [RenameSystem.enter, Function.update_of_ne heq]
      exact h.trimmed id' (mem_of_mem_insert_of_ne hmem' heq)

theorem Consistent.newEntity {id : Id} (hok : ok kind s (.newEntity id name))
    (hs' : s.newEntity kind id name = some s') : Consistent kind s' := by
  unfold RenameSystem.newEntity at hs'
  split at hs'
  · cases hs'
    exact h
  · split at hs'
    · cases hs'
    · rename_i hnew
      rw [not_or, Bool.not_eq_true] at hnew
      rw [Option.map_eq_some_iff] at hs'
      obtain ⟨updates, hupdates, rfl⟩ := hs'
      obtain ⟨hdeletes, hfree⟩ := hok
      obtain ⟨hflag, hsite⟩ := step_newEntity hupdates
      have heffect := step_effect hupdates
      have hlabel : ∀ id', UpdateStep.newEntity id = .newEntity id' →
          id' ∉ s.entities ∧ id' ∉ s.updates.manager.pendingDeletes ∪ s.deletesCopy := by
        intro id' heq
        cases heq
        exact ⟨hnew.1, hdeletes⟩
      have hcopy : id ∉ s.deletesCopy := fun hcopy => hdeletes (mem_union_right _ hcopy)
      refine (h.update heffect hlabel nofun nofun).enter hkind hnew.1 hflag
        ((congrFun hsite id.siteId).trans hnew.2) hcopy ?_
      intro hheld
      obtain ⟨hlookup, hnobody⟩ := hfree hheld
      refine ⟨?_, ?_⟩
      · rw [← hlookup, lookup, lookup, hsite]
      · intro id' hne hsite' hlive
        refine hnobody id' hne hsite' (isLive_of_effect heffect ?_ hlive)
        intro heq
        cases heq
        exact hne rfl

/-! ### Every step -/

/-- A step of the update manager. -/
theorem Consistent.follow (hnew : ∀ id, label ≠ .newEntity id)
    (hupdates : s.updates.step label = some updates) :
    Consistent kind { s.follow kind label s.updates.phase with updates := updates } := by
  have heffect := step_effect hupdates
  have hnew' : ∀ id, label = .newEntity id →
      id ∉ s.entities ∧ id ∉ s.updates.manager.pendingDeletes ∪ s.deletesCopy :=
    fun id heq => absurd heq (hnew id)
  cases label with
  | takePending => exact h.takePending hupdates
  | newEntity id => exact absurd rfl (hnew id)
  | finishCommits =>
    exact (h.finishCommits hkind (heffect.finished rfl)).update heffect nofun nofun fun _ => rfl
  | commitEntity =>
    cases hphase : s.updates.phase with
    | committing saves deletes sites =>
      cases saves with
      | nil => exact h.update heffect nofun nofun nofun
      | cons save saves =>
        have hsame : (s.commitEntity kind save.1).updates = s.updates := by
          unfold RenameSystem.commitEntity
          split <;> rfl
        rw [← hsame] at heffect
        exact (h.commitEntity hkind save.1).update heffect nofun nofun nofun
    | _ => exact h.update heffect nofun nofun nofun
  | deleteEntity inUse =>
    cases hphase : s.updates.phase with
    | deleting id deletes sites =>
      cases inUse with
      | true => exact h.update heffect nofun nofun nofun
      | false =>
        have hid : id ∈ s.deletesCopy := by
          refine h.phase ?_
          rw [hphase]
          exact mem_insert_self id deletes
        have hsame : (s.deleteEntity id).updates = s.updates := by
          unfold RenameSystem.deleteEntity
          split <;> rfl
        rw [← hsame] at heffect
        exact (h.deleteEntity hid).update heffect nofun nofun nofun
    | _ => cases inUse <;> exact h.update heffect nofun nofun nofun
  | deleteSite siteId referenced =>
    cases referenced with
    | true => exact h.update heffect nofun nofun nofun
    | false =>
      exact (h.update heffect nofun nofun nofun).deleteSite hkind
        (step_deleteSite hupdates)
  | deleteNextSite referenced =>
    cases hphase : s.updates.phase with
    | committing saves deletes sites =>
      cases sites with
      | nil => cases referenced <;> exact h.update heffect nofun nofun nofun
      | cons siteId sites =>
        cases referenced with
        | true => exact h.update heffect nofun nofun nofun
        | false =>
          exact (h.update heffect nofun nofun nofun).deleteSite hkind
            (step_deleteNextSite hphase hupdates)
    | _ => cases referenced <;> exact h.update heffect nofun nofun nofun
  | _ => exact h.update heffect hnew' nofun nofun

/-- **Every step that keeps to the guard keeps the invariant.** -/
theorem Consistent.step {label : RenameStep} (hok : ok kind s label)
    (hs' : s.step kind label = some s') : Consistent kind s' := by
  cases label with
  | setName id name =>
    rw [RenameSystem.step] at hs'
    split at hs'
    · rename_i hmem
      exact h.setName hkind hmem hok hs'
    · cases hs'
  | newEntity id name => exact h.newEntity hkind hok hs'
  | update label =>
    have hupdates : (∀ id, label ≠ .newEntity id) ∧ ∃ updates, s.updates.step label = some updates ∧
        s' = { s.follow kind label s.updates.phase with updates := updates } := by
      cases label with
      | newEntity id => cases hs'
      | _ =>
        obtain ⟨updates, hupdates, heq⟩ := Option.map_eq_some_iff.mp hs'
        exact ⟨nofun, updates, hupdates, heq.symm⟩
    obtain ⟨hnew, updates, hstep, rfl⟩ := hupdates
    exact h.follow hkind hnew hstep

end

/-- **The invariant holds in a run that keeps to the guard.** -/
theorem consistent_of_reachable (hkind : kind.Lawful)
    (h : Reachable (RenameSystem.step kind) (ok kind) init s) : Consistent kind s :=
  h.invariant consistent_init fun _ _ _ hs hok hstep => hs.step hkind hok hstep

end RenameSystem

end Mutgos.DbInterface
