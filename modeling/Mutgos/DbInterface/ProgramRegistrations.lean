import Mutgos.DbInterface.RenameClaims
import Mutgos.DbTypes.DocumentProperty

/-!
# Program registration names

`dbtype::Program::set_program_reg_name` and the table of the database that these names
go to, where the name is the key.  Names with capitals and without are the same there,
but not to the update manager while they are renames in progress.

## Main results

* `registrationsUnique_of_reachable` — **in a run that keeps to the guard no two programs
  have the same name**, and the table takes every name.
-/

namespace Mutgos.DbInterface

open DbTypes Text

/-- The part of `save_entity_db` for programs: the insertion fails where the key is there. -/
def saveProgramReg (id : Id) (registrationName : ByteString) (rows : NameRows) : Bool × NameRows :=
  let rows := SortedMap.erase id rows
  if registrationName = [] then (true, rows)
  else if findName rows id.siteId registrationName ≠ none then (false, rows)
  else (true, SortedMap.insert id registrationName rows)

/-- The registration names of programs.  A program that is new has none, and a site that
is deleted leaves them behind. -/
def programRegistrations (limits : DbLimits) : RenameKind where
  field := .programRegName
  isCreatable name := decide (name ≠ [])
  initialName _ := []
  isHeld name := decide (name ≠ [])
  candidate regName :=
    let trimRegName := trimCopy regName
    if 32 ∈ trimRegName then none
    else if limits.limitsEntityName < utf8Size trimRegName then none
    else some trimRegName
  check lookup _ := checkProgramRegistrationName lookup
  assigned regName := some (trimCopy regName)
  newRows _ _ rows := rows
  save := saveProgramReg
  deleteSiteRows _ rows := rows
  processRenameUpdate := processProgRegRenameUpdate

theorem lawful_programRegistrations (limits : DbLimits) : (programRegistrations limits).Lawful where
  trim_initialName _ := rfl
  trim_candidate := by
    intro name newName h
    simp only [programRegistrations] at h
    split at h
    · cases h
    · split at h
      · cases h
      · cases h
        exact trimCopy_trimCopy name
  ne_nil _ hheld := of_decide_eq_true hheld
  approval lookup := checkProgramRegistrationName_approval lookup
  dropsDone lookup := by
    intro pendingInfo id
    obtain heq | ⟨rename, hfind, hdone, heq⟩ :=
      processProgRegRenameUpdate_dropsDone lookup pendingInfo id
    · exact .inl heq
    · exact .inr ⟨rename, hfind, fun hheld => hdone (of_decide_eq_true hheld), heq⟩
  find_newRows id ser rows id' := by simp [programRegistrations]
  find_save id name rows id' := by
    simp only [programRegistrations, saveProgramReg, decide_eq_true_eq]
    split
    · rename_i hnil
      rw [SortedMap.find_erase]
      exact if_congr Iff.rfl (if_neg fun h => h.1 hnil).symm rfl
    · rename_i hname
      split
      · rw [SortedMap.find_erase]
        exact if_congr Iff.rfl (if_neg fun h => absurd h.2 Bool.false_ne_true).symm rfl
      · rw [SortedMap.find_insert, SortedMap.find_erase]
        split
        · rw [if_pos ⟨hname, rfl⟩]
        · rfl
  save_eq_true id name rows hother := by
    simp only [programRegistrations, saveProgramReg]
    split
    · rfl
    · rw [if_neg]
      rw [not_ne_iff, ← Option.not_isSome_iff_eq_none, Option.isSome_iff_exists]
      rintro ⟨id', hfind⟩
      obtain ⟨hsite, other, hother', hlower⟩ := findName_eq_some hfind
      rw [SortedMap.find_erase] at hother'
      split at hother'
      · cases hother'
      · rename_i hne
        exact hne (hother id' other hother' hsite hlower)
  find_deleteSiteRows _ _ _ _ := rfl

namespace RenameSystem

variable {s : RenameSystem}

/-- What is promised of a state: programs of a site that are not being deleted have
different names, and the table takes the name of each of them. -/
structure RegistrationsUnique (s : RenameSystem) : Prop where
  unique : ∀ id id', s.isLive id = true → s.isLive id' = true → id.siteId = id'.siteId →
    s.names id ≠ [] → toLowerCopy (s.names id) = toLowerCopy (s.names id') → id = id'
  inserted : ∀ id, s.isLive id = true → (saveProgramReg id (s.names id) s.rows).1 = true

/-- **In a run that keeps to the guard the registration names are unique.** -/
theorem registrationsUnique_of_reachable {limits : DbLimits}
    (h : Reachable (step (programRegistrations limits)) (ok (programRegistrations limits)) init s) :
    RegistrationsUnique s := by
  have hkind := lawful_programRegistrations limits
  have hconsistent := consistent_of_reachable hkind h
  refine ⟨?_, ?_⟩
  · intro id id' hlive hlive' hsite hname hlower
    have hname' : s.names id' ≠ [] := by
      intro hnil
      rw [hnil] at hlower
      exact hname (List.map_eq_nil_iff.mp hlower)
    refine hconsistent.claims.held_unique id id' (key id (s.names id))
      ⟨hlive, decide_eq_true hname, rfl⟩ ⟨hlive', decide_eq_true hname', ?_⟩
    rw [key, key, hsite, hlower]
  · intro id hlive
    by_cases hname : s.names id = []
    · rw [saveProgramReg, if_pos hname]
    · refine hkind.save_eq_true id (s.names id) s.rows ?_
      intro id' name' hfind hsite hlower
      refine (hconsistent.claims.ahead id id' (key id (s.names id))
        ⟨hlive, decide_eq_true hname, rfl⟩ ⟨name', hfind, ?_, ?_⟩).symm
      · rw [hsite]
        exact (isLive_iff.mp hlive).2.2
      · rw [key, key, hsite, hlower]

/-- A program gets a name. -/
theorem registrationsUnique_foo : ∃ s,
    let limits : DbLimits := ⟨100, 40, 500, 1000⟩
    run (step (programRegistrations limits)) init [.newEntity ⟨1, 7⟩ [112], .newEntity ⟨1, 8⟩ [113],
      .setName ⟨1, 7⟩ [32, 102, 111, 111]] = some s ∧
    s.isLive ⟨1, 7⟩ = true ∧ s.names ⟨1, 7⟩ = [102, 111, 111] ∧ RegistrationsUnique s := by
  let limits : DbLimits := ⟨100, 40, 500, 1000⟩
  have h₁ : Reachable (step (programRegistrations limits)) (ok (programRegistrations limits)) init _ :=
    .step (a := .newEntity ⟨1, 7⟩ [112]) .init ⟨by decide, nofun⟩ rfl
  have h₂ : Reachable (step (programRegistrations limits)) (ok (programRegistrations limits)) init _ :=
    .step (a := .newEntity ⟨1, 8⟩ [113]) h₁ ⟨by decide, nofun⟩ rfl
  -- No rename is in progress.
  have h₃ : Reachable (step (programRegistrations limits)) (ok (programRegistrations limits)) init _ :=
    .step (a := .setName ⟨1, 7⟩ [32, 102, 111, 111]) h₂
      (fun newName hcandidate => by
        cases hcandidate
        exact ⟨rfl, fun _ _ _ _ _ hfind => absurd rfl hfind, nofun⟩) rfl
  exact ⟨_, rfl, rfl, rfl, registrationsUnique_of_reachable h₃⟩

/-- Two programs have the same name, in small letters and in capitals, and the table does
not take it again; and two have the same name after one has gone back to it when the
database had forgotten it. -/
theorem registrationsUnique_broken :
    let limits : DbLimits := ⟨100, 40, 500, 1000⟩
    (∃ s, run (step (programRegistrations limits)) init
        [.newEntity ⟨1, 7⟩ [112], .newEntity ⟨1, 8⟩ [113], .setName ⟨1, 7⟩ [102, 111, 111],
          .setName ⟨1, 8⟩ [70, 79, 79], .update .takeImmediate, .update .mergeImmediate,
          .update .takePending, .update .commitEntity] = some s ∧
      s.isLive ⟨1, 7⟩ = true ∧ s.isLive ⟨1, 8⟩ = true ∧ s.names ⟨1, 7⟩ = [102, 111, 111] ∧
      s.names ⟨1, 8⟩ = [70, 79, 79] ∧
      (saveProgramReg ⟨1, 8⟩ (s.names ⟨1, 8⟩) s.rows).1 = false ∧ ¬ RegistrationsUnique s) ∧
    ∃ s, run (step (programRegistrations limits)) init
        [.newEntity ⟨1, 7⟩ [112], .newEntity ⟨1, 8⟩ [113], .setName ⟨1, 7⟩ [102, 111, 111],
          .update .takeImmediate, .update .mergeImmediate, .update .takePending,
          .update .commitEntity, .update .finishCommits, .setName ⟨1, 7⟩ [98, 97, 114],
          .update .exitTest, .update .takeImmediate, .update .mergeImmediate,
          .update .takePending, .update .commitEntity, .setName ⟨1, 7⟩ [102, 111, 111],
          .setName ⟨1, 8⟩ [102, 111, 111]] = some s ∧
      s.isLive ⟨1, 7⟩ = true ∧ s.isLive ⟨1, 8⟩ = true ∧ s.names ⟨1, 7⟩ = s.names ⟨1, 8⟩ ∧
      ¬ RegistrationsUnique s := by
  refine ⟨⟨_, rfl, rfl, rfl, rfl, rfl, rfl, ?_⟩, _, rfl, rfl, rfl, rfl, ?_⟩
  · intro h
    exact absurd (h.unique ⟨1, 7⟩ ⟨1, 8⟩ rfl rfl rfl (by decide) rfl) (by decide)
  · intro h
    exact absurd (h.unique ⟨1, 7⟩ ⟨1, 8⟩ rfl rfl rfl (by decide) rfl) (by decide)

end RenameSystem

end Mutgos.DbInterface
