import Mutgos.Lib.IdPool
import Mutgos.Lib.TransitionSystem
import Mutgos.SqliteInterface.SiteTables

/-!
# The allocation of site and Entity IDs

Every history of the backend that starts with an empty database.  The IDs of all sites
together are one pool: those in `id_reuse` are free, those of Entities are in use, and
those a call of `new_entity` is about to insert have been taken.

Making a site anew out of a deleted one marks its row as not deleted and nothing else,
but deleting it had removed its row of `next_id`, and left its program registrations
alone.  So the allocation works in exactly those histories in which no site is made
while one is deleted, as long as no site runs out of 64-bit IDs.

## Main results

* `idAllocation_iff` — **the IDs are allocated properly all along a history exactly if
  no site is recycled in it and IDs do not run out.**
-/

namespace Mutgos.SqliteInterface

open DbTypes Text SiteRow List Option

namespace Backend

/-! ### What is promised -/

/-- A site that exists and is not marked as deleted. -/
def Live (b : Backend) (site : SiteIdType) : Prop :=
  ∃ row ∈ b.tables.sites, row.siteId = site ∧ row.deleted = false

/-- What holds of the IDs of every site. -/
structure IdsAllocated (b : Backend) : Prop where
  /-- A site has one row of `next_id`. -/
  one_nextRow : ∀ site, b.Live site → (b.tables.nextId.map Prod.fst).count site = 1
  /-- Its IDs in use are below it. -/
  lt_next : ∀ site, b.Live site → ∀ id ∈ b.inUse, id.siteId = site →
    ∃ next, b.tables.nextEntityId site = some next ∧ id.entityId < next
  /-- IDs in use are not to be used again. -/
  notMem_idReuse : ∀ id ∈ b.inUse, id ∉ b.tables.idReuse

/-- On a live site `new_entity` finds an ID, whichever row it is given, and not one in
use. -/
def FindsId (b : Backend) : Prop :=
  ∀ site, b.Live site → ∀ reused, QueryGives b.tables.idReuse (reusableId site) reused →
    ∃ id, (newEntityId b.tables site reused).2 = some id ∧ id.siteId = site ∧ id ∉ b.inUse

/-- A site without Entities, program registrations and IDs to use again. -/
structure StartsEmpty (b : Backend) (site : SiteIdType) : Prop where
  inUse : ∀ id ∈ b.inUse, id.siteId ≠ site
  programRegistrations : ∀ row ∈ b.tables.programRegistrations, row.1.siteId ≠ site
  idReuse : ∀ id ∈ b.tables.idReuse, id.siteId ≠ site

/-- What is promised of a step. -/
structure Allocates (b : Backend) (a : BackendStep) (b' : Backend) : Prop where
  allocated : b'.IdsAllocated
  finds : b'.FindsId
  starts_empty : ∀ recycled site, a = .newSiteInDb recycled →
    (newSiteInDb b.tables recycled).2 = some site → b'.StartsEmpty site

/-- No site is recycled, and IDs do not run out. -/
def ok (b : Backend) : BackendStep → Prop
  | .newSiteInDb _ => ∀ row ∈ b.tables.sites, row.deleted = false
  | .newEntityId site none => ∀ next, b.tables.nextEntityId site = some next → next + 1 < 2 ^ 64
  | _ => True

/-! ### The pool -/

/-- An ID that its site has made, as far as the site's row of `next_id` goes. -/
def Issued (t : Tables) (id : Id) : Prop :=
  ∀ next, (id.siteId, next) ∈ t.nextId → id.entityId < next

/-- The IDs of all sites. -/
def pool (b : Backend) : IdPool Id := ⟨b.tables.idReuse, b.tables.entities, b.inFlight⟩

/-- What every step that is `ok` preserves. -/
structure Inv (b : Backend) : Prop where
  valid : IdPool.Valid (Issued b.tables) b.pool
  ne_zero : ∀ id ∈ b.pool.ids, id.entityId ≠ 0
  known : ∀ id ∈ b.pool.ids, id.siteId ∈ b.tables.sites.map siteId
  regs_known : ∀ row ∈ b.tables.programRegistrations,
    row.1.siteId ∈ b.tables.sites.map siteId
  sites_nodup : (b.tables.sites.map siteId).Nodup
  next_nodup : (b.tables.nextId.map Prod.fst).Nodup
  next_live : ∀ site, site ∈ b.tables.nextId.map Prod.fst ↔ b.Live site
  next_range : ∀ row ∈ b.tables.nextId, row.2 ≠ 0 ∧ row.2 < 2 ^ 64

variable {b : Backend} {t : Tables} {site : ℕ}

theorem mem_inUse {id : Id} :
    id ∈ b.inUse ↔ id ∈ b.tables.entities ∨ id ∈ b.inFlight := mem_append

theorem mem_pool {id : Id} : id ∈ b.pool.ids ↔ id ∈ b.tables.idReuse ∨ id ∈ b.inUse := by
  rw [IdPool.mem_ids, mem_inUse]
  rfl

/-- The row that a query for `next_id` finds. -/
theorem nextEntityId_mem {next : ℕ} (h : t.nextEntityId site = some next) :
    (site, next) ∈ t.nextId := by
  rw [Tables.nextEntityId, map_eq_some_iff] at h
  obtain ⟨⟨site', next'⟩, hfind, heq⟩ := h
  have hsite : site' = site := by simpa using find?_some hfind
  obtain rfl : next' = next := heq
  exact hsite ▸ mem_of_find?_eq_some hfind

/-- A site with a row of `next_id` has a next ID. -/
theorem exists_nextEntityId (h : site ∈ t.nextId.map Prod.fst) :
    ∃ next, t.nextEntityId site = some next := by
  obtain ⟨row, hrow, hsite⟩ := List.mem_map.mp h
  have hfind : (t.nextId.find? fun row => row.1 = site).isSome := by
    rw [find?_isSome]
    exact ⟨row, hrow, by simpa using hsite⟩
  obtain ⟨found, hfound⟩ := isSome_iff_exists.mp hfind
  exact ⟨found.2, by rw [Tables.nextEntityId, hfound, map_some]⟩

namespace Inv

variable {b : Backend} {site next : ℕ} {a : BackendStep} {b' : Backend}

/-- A new ID has not been made before. -/
theorem not_issued (h : b.tables.nextEntityId site = some next) : ¬ Issued b.tables ⟨site, next⟩ :=
  fun hissued => lt_irrefl next (hissued next (nextEntityId_mem h))

/-- The invariant says what is promised of the IDs. -/
theorem idsAllocated (h : b.Inv) : b.IdsAllocated where
  one_nextRow site hlive :=
    count_eq_one_of_mem h.next_nodup ((h.next_live site).mpr hlive)
  lt_next site hlive id hid hsite := by
    obtain ⟨next, hnext⟩ := exists_nextEntityId ((h.next_live site).mpr hlive)
    refine ⟨next, hnext, ?_⟩
    have hissued := h.valid.issued_of_mem id (mem_pool.mpr (.inr hid))
    exact hissued next (hsite ▸ nextEntityId_mem hnext)
  notMem_idReuse id hid hreuse := by
    have hout := h.valid.notMem_of_free (k := id) hreuse
    rcases mem_inUse.mp hid with hused | htaken
    · exact hout.1 hused
    · exact hout.2 htaken

/-- The row of `id_reuse` that a query gave. -/
theorem mem_idReuse_of_queryGives {entity : ℕ}
    (h : QueryGives b.tables.idReuse (reusableId site) (some entity)) :
    (⟨site, entity⟩ : Id) ∈ b.tables.idReuse := by
  obtain ⟨⟨site', entity'⟩, hid, heq⟩ := List.mem_map.mp h
  rw [reusableId, ite_none_right_eq_some] at heq
  obtain ⟨rfl, hentity⟩ := heq
  obtain rfl : entity' = entity := Option.some.inj hentity
  exact hid

/-- The invariant says that `new_entity` finds an ID. -/
theorem findsId (h : b.Inv) : b.FindsId := by
  intro site hlive reused hreused
  cases reused with
  | some entity =>
    have hid := mem_idReuse_of_queryGives hreused
    have hentity : entity ≠ 0 := h.ne_zero _ (mem_pool.mpr (.inl hid))
    refine ⟨⟨site, entity⟩, by rw [newEntityId, if_neg hentity], rfl, ?_⟩
    exact fun huse => h.idsAllocated.notMem_idReuse _ huse hid
  | none =>
    obtain ⟨next, hnext⟩ := exists_nextEntityId ((h.next_live site).mpr hlive)
    have hrange := h.next_range _ (nextEntityId_mem hnext)
    obtain ⟨n, rfl⟩ := Nat.exists_eq_succ_of_ne_zero hrange.1
    refine ⟨⟨site, n.succ⟩, by rw [newEntityId, hnext]; rfl, rfl, fun huse => ?_⟩
    exact h.valid.notMem_of_not_issued (not_issued hnext) (mem_pool.mpr (.inr huse))

/-! ### What the operations preserve -/

/-- A site is made where none is deleted: either it cannot be made, or its ID is new. -/
theorem newSiteId_cases (h : b.Inv) (hdeleted : ∀ row ∈ b.tables.sites, row.deleted = false) :
    (∃ nextSiteId site, newSiteId b.tables =
      ({ b.tables with
        nextSiteId := nextSiteId, entities := b.tables.entities.filter (·.siteId ≠ site) },
        none)) ∨
    ∃ nextSiteId site row, newSiteId b.tables =
      ({ b.tables with
        nextSiteId := nextSiteId, entities := b.tables.entities.filter (·.siteId ≠ site)
        sites := row :: b.tables.sites, nextId := (site, 1) :: b.tables.nextId }, some site) ∧
      row.siteId = site ∧ row.deleted = false ∧
      site ∉ b.tables.sites.map siteId := by
  rw [newSiteId]
  set site := b.tables.nextSiteId.headD 1
  set nextSiteId := if b.tables.nextSiteId.isEmpty then [2]
    else b.tables.nextSiteId.map fun _ => (site + 1) % 2 ^ 32 with hnextSiteId
  have ht : (if b.tables.nextSiteId.isEmpty then { b.tables with nextSiteId := [2] }
      else { b.tables with
        nextSiteId := b.tables.nextSiteId.map fun _ => (site + 1) % 2 ^ 32 }) =
      { b.tables with nextSiteId := nextSiteId } := by
    rw [hnextSiteId]
    split <;> rfl
  rw [ht, Tables.insertNewSite]
  by_cases hsite : b.tables.sites.any fun row => row.siteId = site && !row.deleted
  · rw [if_pos hsite]
    exact .inl ⟨nextSiteId, site, rfl⟩
  · rw [if_neg hsite]
    -- no site is deleted, so one that is not live is not known
    have hnew : site ∉ b.tables.sites.map siteId := by
      intro hmem
      obtain ⟨row, hrow, heq⟩ := List.mem_map.mp hmem
      refine hsite (List.any_eq_true.mpr ⟨row, hrow, ?_⟩)
      simp [heq, hdeleted row hrow]
    have hnext : ¬ b.tables.nextId.any fun row => row.1 = site := by
      intro hmem
      obtain ⟨row, hrow, heq⟩ := List.any_eq_true.mp hmem
      have hlive : b.Live site := (h.next_live site).mp
        (List.mem_map.mpr ⟨row, hrow, by simpa using heq⟩)
      obtain ⟨r, hr, heq, -⟩ := hlive
      exact hnew (List.mem_map.mpr ⟨r, hr, heq⟩)
    have hinsert : ∀ t : Tables, t.nextId = b.tables.nextId →
        t.insertFirstSiteEntityId site = some { t with nextId := (site, 1) :: t.nextId } := by
      intro t ht
      rw [Tables.insertFirstSiteEntityId, ht, if_neg hnext]
    refine .inr ⟨nextSiteId, site, ⟨site, false, defaultSiteName site, []⟩, ?_, rfl, rfl, hnew⟩
    dsimp only
    generalize ht : Tables.deleteSiteEntityData _ site = t
    have hrows : t.nextId = b.tables.nextId := by rw [← ht]; rfl
    rw [hinsert t hrows, ← ht]
    rfl

/-- IDs are only taken away. -/
theorem of_sublist {c : Backend} (h : b.Inv) (hfree : c.tables.idReuse.Sublist b.tables.idReuse)
    (hused : c.tables.entities.Sublist b.tables.entities)
    (htaken : c.inFlight.Sublist b.inFlight)
    (hregs : ∀ row ∈ c.tables.programRegistrations,
      row.1.siteId ∈ b.tables.sites.map siteId)
    (hsites : c.tables.sites = b.tables.sites) (hnext : c.tables.nextId = b.tables.nextId) :
    c.Inv := by
  have hids : c.pool.ids.Sublist b.pool.ids := hfree.append (hused.append htaken)
  have hvalid : IdPool.Valid (Issued b.tables) c.pool := h.valid.sublist hfree hused htaken
  refine ⟨hvalid.mono fun id _ hid next hmem => hid next (hnext ▸ hmem),
    fun id hid => h.ne_zero id (hids.subset hid),
    fun id hid => hsites ▸ h.known id (hids.subset hid), fun row hrow => hsites ▸ hregs row hrow,
    hsites ▸ h.sites_nodup, hnext ▸ h.next_nodup, ?_, hnext ▸ h.next_range⟩
  intro site
  rw [hnext, h.next_live, Live, Live, hsites]

/-- A site is made. -/
theorem newSite (h : b.Inv) (hdeleted : ∀ row ∈ b.tables.sites, row.deleted = false) :
    Inv { b with tables := (newSiteId b.tables).1 } ∧
      ∀ site, (newSiteId b.tables).2 = some site →
        StartsEmpty { b with tables := (newSiteId b.tables).1 } site := by
  rcases h.newSiteId_cases hdeleted with ⟨nextSiteId, site, heq⟩ |
    ⟨nextSiteId, site, row, heq, hrow, hlive, hnew⟩
  · rw [heq]
    exact ⟨h.of_sublist (.refl _) filter_sublist (.refl _) h.regs_known rfl rfl, nofun⟩
  · rw [heq]
    -- nothing known belongs to the site
    have hids : ∀ id ∈ b.pool.ids, id.siteId ≠ site := fun id hid hsite =>
      hnew (hsite ▸ h.known id hid)
    have hentities : b.tables.entities.filter (·.siteId ≠ site) = b.tables.entities := by
      refine filter_eq_self.mpr fun id hid => ?_
      simpa using hids id (mem_pool.mpr (.inr (mem_inUse.mpr (.inl hid))))
    simp only [hentities]
    have hnextId : site ∉ b.tables.nextId.map Prod.fst := by
      intro hmem
      obtain ⟨r, hr, hsite, -⟩ := (h.next_live site).mp hmem
      exact hnew (List.mem_map.mpr ⟨r, hr, hsite⟩)
    constructor
    · constructor
      case valid =>
        refine h.valid.mono fun id hid hissued next hmem => ?_
        rcases mem_cons.mp hmem with hfst | hmem
        · exact absurd (congrArg Prod.fst hfst) (hids id hid)
        · exact hissued next hmem
      case ne_zero => exact h.ne_zero
      case known => exact fun id hid => mem_cons_of_mem _ (h.known id hid)
      case regs_known => exact fun r hr => mem_cons_of_mem _ (h.regs_known r hr)
      case sites_nodup => exact nodup_cons.mpr ⟨hrow ▸ hnew, h.sites_nodup⟩
      case next_nodup => exact nodup_cons.mpr ⟨hnextId, h.next_nodup⟩
      case next_live =>
        intro site'
        rw [map_cons, mem_cons, h.next_live]
        constructor
        · rintro (rfl | ⟨r, hr, hlive'⟩)
          · exact ⟨row, mem_cons_self, hrow, hlive⟩
          · exact ⟨r, mem_cons_of_mem _ hr, hlive'⟩
        · rintro ⟨r, hr, hsite', hlive'⟩
          rcases mem_cons.mp hr with rfl | hr
          · exact .inl (hsite'.symm.trans hrow)
          · exact .inr ⟨r, hr, hsite', hlive'⟩
      case next_range =>
        intro r hr
        rcases mem_cons.mp hr with rfl | hr
        · exact ⟨Nat.one_ne_zero, Nat.one_lt_two_pow (by decide)⟩
        · exact h.next_range r hr
    · intro site' heq'
      obtain rfl : site = site' := Option.some.inj heq'
      refine ⟨fun id hid => hids id (mem_pool.mpr (.inr hid)), fun r hr hsite => ?_,
        fun id hid => hids id (mem_pool.mpr (.inl hid))⟩
      exact hnew (hsite ▸ h.regs_known r hr)

/-- The rows of a site are marked as deleted. -/
theorem map_siteId_markSite (t : Tables) (site : SiteIdType) (deleted : Bool) :
    (t.markSite site deleted).sites.map siteId = t.sites.map siteId := by
  rw [Tables.markSite, List.map_map]
  refine map_congr_left fun row _ => ?_
  rw [Function.comp_apply]
  split <;> rfl

/-- A site is deleted. -/
theorem deleteSite (h : b.Inv) (site : SiteIdType) :
    Inv { b with tables := deleteSiteInDb b.tables site } := by
  have hids : (pool { b with tables := deleteSiteInDb b.tables site }).ids.Sublist b.pool.ids :=
    filter_sublist.append (filter_sublist.append (.refl _))
  have hsites : (deleteSiteInDb b.tables site).sites.map siteId =
      b.tables.sites.map siteId := map_siteId_markSite _ site true
  have hnext : (deleteSiteInDb b.tables site).nextId.Sublist b.tables.nextId :=
    filter_sublist
  constructor
  case valid =>
    have hvalid := h.valid.sublist
      (q := pool { b with tables := deleteSiteInDb b.tables site })
      filter_sublist filter_sublist (.refl _)
    exact hvalid.mono fun id _ hissued next hmem => hissued next (hnext.subset hmem)
  case ne_zero => exact fun id hid => h.ne_zero id (hids.subset hid)
  case known => exact fun id hid => hsites ▸ h.known id (hids.subset hid)
  case regs_known => exact fun row hrow => hsites ▸ h.regs_known row hrow
  case sites_nodup => exact hsites ▸ h.sites_nodup
  case next_nodup => exact h.next_nodup.sublist (hnext.map Prod.fst)
  case next_range => exact fun row hrow => h.next_range row (hnext.subset hrow)
  case next_live =>
    intro site'
    have hleft : site' ∈ (deleteSiteInDb b.tables site).nextId.map Prod.fst ↔
        site' ∈ b.tables.nextId.map Prod.fst ∧ site' ≠ site := by
      simp only [deleteSiteInDb, List.mem_map, mem_filter]
      constructor
      · rintro ⟨row, ⟨hrow, hne⟩, rfl⟩
        exact ⟨⟨row, hrow, rfl⟩, by simpa using hne⟩
      · rintro ⟨⟨row, hrow, rfl⟩, hne⟩
        exact ⟨row, ⟨hrow, by simpa using hne⟩, rfl⟩
    rw [hleft, h.next_live]
    constructor
    · rintro ⟨⟨row, hrow, rfl, hlive⟩, hne⟩
      exact ⟨row, List.mem_map.mpr ⟨row, hrow, if_neg hne⟩, rfl, hlive⟩
    · rintro ⟨row, hrow, rfl, hlive⟩
      obtain ⟨old, hold, rfl⟩ := List.mem_map.mp hrow
      split at hlive
      · cases hlive
      · rename_i hne
        rw [if_neg hne]
        exact ⟨⟨old, hold, rfl, hlive⟩, hne⟩

/-! An ID that is free is handed out, or one that is new. -/

/-- The rows of `next_id` after one is updated. -/
theorem updateNextEntityId_keys (t : Tables) (site : SiteIdType) (next : EntityIdType) :
    (t.updateNextEntityId site next).nextId.map Prod.fst = t.nextId.map Prod.fst := by
  rw [Tables.updateNextEntityId, List.map_map]
  refine map_congr_left fun row _ => ?_
  rw [Function.comp_apply]
  split
  · rename_i heq
    exact heq.symm
  · rfl

/-- The first half of `new_entity`. -/
theorem newEntityId (h : b.Inv) (site : SiteIdType) (reused : Option EntityIdType)
    (hreused : QueryGives b.tables.idReuse (reusableId site) reused)
    (hok : b.ok (.newEntityId site reused)) :
    Inv ⟨(Backend.newEntityId b.tables site reused).1,
      (Backend.newEntityId b.tables site reused).2.toList ++ b.inFlight⟩ := by
  cases reused with
  | some entity =>
    have hid := mem_idReuse_of_queryGives hreused
    have hentity : entity ≠ 0 := h.ne_zero _ (mem_pool.mpr (.inl hid))
    rw [Backend.newEntityId, if_neg hentity]
    have hvalid := h.valid.reuse (k := ⟨site, entity⟩) hid
    have hids : ∀ id ∈ IdPool.ids ⟨b.tables.idReuse.erase ⟨site, entity⟩, b.tables.entities,
        ⟨site, entity⟩ :: b.inFlight⟩, id ∈ b.pool.ids := by
      intro id hmem
      rw [IdPool.mem_ids] at hmem
      rcases hmem with hfree | hused | htaken
      · exact mem_pool.mpr (.inl (mem_of_mem_erase hfree))
      · exact mem_pool.mpr (.inr (mem_inUse.mpr (.inl hused)))
      · rcases mem_cons.mp htaken with rfl | htaken
        · exact mem_pool.mpr (.inl hid)
        · exact mem_pool.mpr (.inr (mem_inUse.mpr (.inr htaken)))
    exact ⟨hvalid, fun id hmem => h.ne_zero id (hids id hmem),
      fun id hmem => h.known id (hids id hmem), h.regs_known, h.sites_nodup, h.next_nodup,
      h.next_live, h.next_range⟩
  | none =>
    rw [Backend.newEntityId]
    cases hnext : b.tables.nextEntityId site with
    | none => exact h
    | some next =>
      have hmem := nextEntityId_mem hnext
      obtain ⟨n, rfl⟩ := Nat.exists_eq_succ_of_ne_zero (h.next_range _ hmem).1
      have hlt : n.succ + 1 < 2 ^ 64 := hok _ hnext
      have hmod : (n.succ + 1) % 2 ^ 64 = n.succ + 1 := Nat.mod_eq_of_lt hlt
      have hsite : site ∈ b.tables.nextId.map Prod.fst := List.mem_map.mpr ⟨_, hmem, rfl⟩
      have hlive := (h.next_live site).mp hsite
      change Inv ⟨b.tables.updateNextEntityId site ((n.succ + 1) % 2 ^ 64),
        ⟨site, n.succ⟩ :: b.inFlight⟩
      rw [hmod]
      have hrows : ∀ (id : Id) (n' : ℕ), (id.siteId, n') ∈
          (b.tables.updateNextEntityId site (n.succ + 1)).nextId →
          id.siteId = site ∧ n' = n.succ + 1 ∨
            id.siteId ≠ site ∧ (id.siteId, n') ∈ b.tables.nextId := by
        intro id n' hrow
        obtain ⟨old, hold, heq⟩ := List.mem_map.mp hrow
        split at heq
        · exact .inl ⟨(congrArg Prod.fst heq).symm, (congrArg Prod.snd heq).symm⟩
        · rename_i hne
          subst heq
          exact .inr ⟨hne, hold⟩
      have hvalid : IdPool.Valid (Issued (b.tables.updateNextEntityId site (n.succ + 1)))
          ⟨b.tables.idReuse, b.tables.entities, ⟨site, n.succ⟩ :: b.inFlight⟩ := by
        refine h.valid.fresh (not_issued hnext) fun id _ hid n' hrow => ?_
        rcases hrows id n' hrow with ⟨hsite', rfl⟩ | ⟨hne, hold⟩
        · rcases hid with rfl | hissued
          · exact Nat.lt_succ_self _
          · exact Nat.lt_succ_of_lt (hissued _ (hsite' ▸ hmem))
        · rcases hid with rfl | hissued
          · exact absurd rfl hne
          · exact hissued _ hold
      have hids : ∀ id ∈ IdPool.ids ⟨b.tables.idReuse, b.tables.entities,
          ⟨site, n.succ⟩ :: b.inFlight⟩, id = ⟨site, n.succ⟩ ∨ id ∈ b.pool.ids := by
        intro id hid
        rw [IdPool.mem_ids] at hid
        rcases hid with hfree | hused | htaken
        · exact .inr (mem_pool.mpr (.inl hfree))
        · exact .inr (mem_pool.mpr (.inr (mem_inUse.mpr (.inl hused))))
        · rcases mem_cons.mp htaken with rfl | htaken
          · exact .inl rfl
          · exact .inr (mem_pool.mpr (.inr (mem_inUse.mpr (.inr htaken))))
      constructor
      case valid => exact hvalid
      case ne_zero =>
        intro id hid
        rcases hids id hid with rfl | hid
        · exact Nat.succ_ne_zero n
        · exact h.ne_zero id hid
      case known =>
        intro id hid
        rcases hids id hid with rfl | hid
        · obtain ⟨row, hrow, heq, -⟩ := hlive
          exact List.mem_map.mpr ⟨row, hrow, heq⟩
        · exact h.known id hid
      case regs_known => exact h.regs_known
      case sites_nodup => exact h.sites_nodup
      case next_nodup => exact updateNextEntityId_keys b.tables site _ ▸ h.next_nodup
      case next_live =>
        intro site'
        rw [updateNextEntityId_keys]
        exact h.next_live site'
      case next_range =>
        rintro ⟨site', n'⟩ hrow
        rcases hrows ⟨site', 0⟩ n' hrow with ⟨-, rfl⟩ | ⟨-, hold⟩
        · exact ⟨Nat.succ_ne_zero _, hlt⟩
        · exact h.next_range _ hold

/-- The second half of `new_entity`. -/
theorem newEntityRow (h : b.Inv) {id : Id} (hid : id ∈ b.inFlight) (made : Bool) :
    Inv ⟨if made then Backend.newEntityRow b.tables id else b.tables, b.inFlight.erase id⟩ := by
  have hout : id ∉ b.tables.entities := by
    intro hused
    have hnodup := (nodup_append.mp (nodup_append.mp h.valid.nodup).2.1).2.2
    exact hnodup id hused id hid rfl
  cases made with
  | false =>
    exact h.of_sublist (.refl _) (.refl _) erase_sublist h.regs_known rfl rfl
  | true =>
    rw [if_pos rfl, Backend.newEntityRow, if_neg hout]
    have hvalid := h.valid.use (k := id) hid
    have hids : ∀ id' ∈ IdPool.ids ⟨b.tables.idReuse, id :: b.tables.entities,
        b.inFlight.erase id⟩, id' ∈ b.pool.ids := by
      intro id' hid'
      rw [IdPool.mem_ids] at hid'
      rcases hid' with hfree | hused | htaken
      · exact mem_pool.mpr (.inl hfree)
      · rcases mem_cons.mp hused with rfl | hused
        · exact mem_pool.mpr (.inr (mem_inUse.mpr (.inr hid)))
        · exact mem_pool.mpr (.inr (mem_inUse.mpr (.inl hused)))
      · exact mem_pool.mpr (.inr (mem_inUse.mpr (.inr (mem_of_mem_erase htaken))))
    exact ⟨hvalid, fun id' hid' => h.ne_zero id' (hids id' hid'),
      fun id' hid' => h.known id' (hids id' hid'), h.regs_known, h.sites_nodup, h.next_nodup,
      h.next_live, h.next_range⟩

/-- `delete_entity_db` -/
theorem deleteEntity (h : b.Inv) (id : Id) (memOwned : Bool) :
    Inv { b with tables := deleteEntityDb b.tables id memOwned } := by
  rw [deleteEntityDb]
  split
  · exact h
  · split
    · rename_i hid
      have hfree : id ∉ b.tables.idReuse := by
        intro hreuse
        exact (h.valid.notMem_of_free (k := id) hreuse).1 hid
      simp only [if_neg hfree, Tables.deleteProgramReg]
      have hvalid := h.valid.release (k := id) hid
      have hids : ∀ id' ∈ IdPool.ids ⟨id :: b.tables.idReuse, b.tables.entities.erase id,
          b.inFlight⟩, id' ∈ b.pool.ids := by
        intro id' hid'
        rw [IdPool.mem_ids] at hid'
        rcases hid' with hfree | hused | htaken
        · rcases mem_cons.mp hfree with rfl | hfree
          · exact mem_pool.mpr (.inr (mem_inUse.mpr (.inl hid)))
          · exact mem_pool.mpr (.inl hfree)
        · exact mem_pool.mpr (.inr (mem_inUse.mpr (.inl (mem_of_mem_erase hused))))
        · exact mem_pool.mpr (.inr (mem_inUse.mpr (.inr htaken)))
      exact ⟨hvalid, fun id' hid' => h.ne_zero id' (hids id' hid'),
        fun id' hid' => h.known id' (hids id' hid'),
        fun row hrow => h.regs_known row (mem_of_mem_filter hrow), h.sites_nodup,
        h.next_nodup, h.next_live, h.next_range⟩
    · exact h

/-- `save_entity_db` -/
theorem saveProgram (h : b.Inv) {id : Id} (regName : ByteString)
    (hid : id.siteId ∈ b.tables.sites.map siteId) :
    Inv { b with tables := saveProgramReg b.tables id regName } := by
  have hkept : ∀ row ∈ (b.tables.deleteProgramReg id).programRegistrations,
      row.1.siteId ∈ b.tables.sites.map siteId :=
    fun row hrow => h.regs_known row (mem_of_mem_filter hrow)
  rw [saveProgramReg]
  split
  · exact h.of_sublist (.refl _) (.refl _) (.refl _) hkept rfl rfl
  · rw [Tables.insertProgramReg]
    split
    · exact h.of_sublist (.refl _) (.refl _) (.refl _) hkept rfl rfl
    · refine h.of_sublist (.refl _) (.refl _) (.refl _) (fun row hrow => ?_) rfl rfl
      rcases mem_cons.mp hrow with rfl | hrow
      · exact hid
      · exact hkept row hrow

/-- A step that is `ok` preserves the invariant and does what is promised. -/
theorem step (h : b.Inv) (hok : b.ok a) (hstep : b.step a = some b') :
    b'.Inv ∧ b.Allocates a b' := by
  have hkept (h' : b'.Inv) (hother : ∀ recycled, a ≠ .newSiteInDb recycled) :
      b'.Inv ∧ b.Allocates a b' :=
    ⟨h', h'.idsAllocated, h'.findsId, fun recycled _ ha => absurd ha (hother recycled)⟩
  cases a with
  | newSiteInDb recycled =>
    rw [Backend.step, ite_none_right_eq_some] at hstep
    obtain ⟨hgives, hb'⟩ := hstep
    obtain rfl := Option.some.inj hb'
    cases recycled with
    | some site =>
      obtain ⟨row, hrow, hkey⟩ := List.mem_map.mp hgives
      rw [deletedSite, hok row hrow] at hkey
      cases hkey
    | none =>
      obtain ⟨h', hempty⟩ := h.newSite hok
      refine ⟨h', h'.idsAllocated, h'.findsId, ?_⟩
      rintro _ site ⟨⟩ hsite
      exact hempty _ hsite
  | deleteSiteInDb site =>
    obtain rfl := Option.some.inj hstep
    exact hkept (h.deleteSite site) nofun
  | newEntityId site reused =>
    rw [Backend.step, ite_none_right_eq_some] at hstep
    obtain ⟨hgives, hb'⟩ := hstep
    obtain rfl := Option.some.inj hb'
    exact hkept (h.newEntityId site reused hgives hok) nofun
  | newEntityRow id made =>
    rw [Backend.step, ite_none_right_eq_some] at hstep
    obtain ⟨hid, hb'⟩ := hstep
    obtain rfl := Option.some.inj hb'
    exact hkept (h.newEntityRow hid made) nofun
  | deleteEntityDb id memOwned =>
    obtain rfl := Option.some.inj hstep
    exact hkept (h.deleteEntity id memOwned) nofun
  | saveProgramReg id regName =>
    rw [Backend.step, ite_none_right_eq_some] at hstep
    obtain ⟨hsite, hb'⟩ := hstep
    obtain rfl := Option.some.inj hb'
    have hknown : id.siteId ∈ b.tables.sites.map siteId := by
      obtain ⟨row, hrow, heq⟩ := List.any_eq_true.mp hsite
      exact List.mem_map.mpr ⟨row, hrow, by simpa using heq⟩
    exact hkept (h.saveProgram regName hknown) nofun

/-- A recycled site has no row of `next_id`. -/
theorem not_allocated_of_recycled (h : b.Inv) {site : SiteIdType}
    (hgives : QueryGives b.tables.sites deletedSite (some site)) :
    ¬ IdsAllocated { b with tables := (Backend.newSiteInDb b.tables (some site)).1 } := by
  intro halloc
  obtain ⟨row, hrow, hkey⟩ := List.mem_map.mp hgives
  rw [deletedSite, ite_none_right_eq_some] at hkey
  obtain ⟨hdeleted, hsite⟩ := hkey
  obtain rfl : row.siteId = site := Option.some.inj hsite
  have hlive : Live { b with
      tables := (Backend.newSiteInDb b.tables (some row.siteId)).1 } row.siteId :=
    ⟨{ row with deleted := false }, List.mem_map.mpr ⟨row, hrow, if_pos rfl⟩, rfl, rfl⟩
  have hcount : (b.tables.nextId.map Prod.fst).count row.siteId = 1 :=
    halloc.one_nextRow _ hlive
  have hmem : row.siteId ∈ b.tables.nextId.map Prod.fst :=
    count_pos_iff.mp (hcount ▸ Nat.one_pos)
  -- so a live row had the ID of the site, and the deleted one had it too
  obtain ⟨row', hrow', hsite', hlive'⟩ := (h.next_live _).mp hmem
  have heq : row' = row := inj_on_of_nodup_map h.sites_nodup hrow' hrow hsite'
  rw [heq, hdeleted] at hlive'
  cases hlive'

/-- The last 64-bit ID is not below the next one. -/
theorem not_allocated_of_overflow (h : b.Inv) (hnext : b.tables.nextEntityId site = some next)
    (hlast : ¬ next + 1 < 2 ^ 64) :
    ¬ IdsAllocated ⟨(Backend.newEntityId b.tables site none).1,
      (Backend.newEntityId b.tables site none).2.toList ++ b.inFlight⟩ := by
  intro halloc
  have hmem := nextEntityId_mem hnext
  have hrange := h.next_range _ hmem
  obtain ⟨n, rfl⟩ := Nat.exists_eq_succ_of_ne_zero hrange.1
  have hlt : n.succ < 2 ^ 64 := hrange.2
  have hwrap : (n.succ + 1) % 2 ^ 64 = 0 := by omega
  rw [Backend.newEntityId, hnext] at halloc
  change IdsAllocated ⟨b.tables.updateNextEntityId site ((n.succ + 1) % 2 ^ 64),
    ⟨site, n.succ⟩ :: b.inFlight⟩ at halloc
  rw [hwrap] at halloc
  have hlive := (h.next_live site).mp (List.mem_map.mpr ⟨_, hmem, rfl⟩)
  obtain ⟨next', hnext', hbelow⟩ := halloc.lt_next site hlive ⟨site, n.succ⟩
    (mem_inUse.mpr (.inr mem_cons_self)) rfl
  have hzero : next' = 0 := by
    obtain ⟨old, -, heq⟩ := List.mem_map.mp (nextEntityId_mem hnext')
    split at heq
    · exact (congrArg Prod.snd heq).symm
    · rename_i hne
      exact absurd (congrArg Prod.fst heq) hne
  exact absurd hbelow (hzero ▸ Nat.not_lt_zero _)

/-- A step that is not `ok` does not do what is promised. -/
theorem ok_of_allocates (h : b.Inv) (hstep : b.step a = some b') (ha : b.Allocates a b') :
    b.ok a := by
  cases a with
  | newSiteInDb recycled =>
    rw [Backend.step, ite_none_right_eq_some] at hstep
    obtain ⟨hgives, hb'⟩ := hstep
    obtain rfl := Option.some.inj hb'
    cases recycled with
    | some site => exact absurd ha.allocated (h.not_allocated_of_recycled hgives)
    | none =>
      intro row hrow
      have hkey := hgives row hrow
      rw [deletedSite, ite_eq_right_iff] at hkey
      by_contra hdeleted
      exact nomatch hkey (by simpa using hdeleted)
  | newEntityId site reused =>
    rw [Backend.step, ite_none_right_eq_some] at hstep
    obtain ⟨hgives, hb'⟩ := hstep
    obtain rfl := Option.some.inj hb'
    cases reused with
    | some entity => trivial
    | none =>
      intro next hnext
      by_contra hlast
      exact h.not_allocated_of_overflow hnext hlast ha.allocated
  | deleteSiteInDb site => trivial
  | newEntityRow id made => trivial
  | deleteEntityDb id memOwned => trivial
  | saveProgramReg id regName => trivial

/-- An empty database. -/
theorem empty : Inv Backend.empty where
  valid := ⟨nodup_nil, nofun⟩
  ne_zero := nofun
  known := nofun
  regs_known := nofun
  sites_nodup := nodup_nil
  next_nodup := nodup_nil
  next_live site := ⟨nofun, fun ⟨_, hrow, _⟩ => nomatch hrow⟩
  next_range := nofun

end Inv

end Backend

/-! ### Histories -/

/-- **The IDs are allocated properly all along a history exactly if no site is recycled in
it and IDs do not run out.** -/
theorem idAllocation_iff {history : List BackendStep} {b : Backend}
    (h : run Backend.step .empty history = some b) :
    (∀ before a after c c', history = before ++ a :: after →
        run Backend.step .empty before = some c → c.step a = some c' → c.Allocates a c') ↔
      Steps Backend.step Backend.ok .empty history b :=
  steps_iff_forall_step (I := Backend.Inv) (P := Backend.Allocates) (fun _ _ _ hI hok hstep => hI.step hok hstep)
    (fun _ _ _ hI hstep ha => hI.ok_of_allocates hstep ha) Backend.Inv.empty h

/-- Two sites, the second of which is deleted; an Entity is made, deleted and made again. -/
theorem idAllocation_two_sites :
    let history := [BackendStep.newSiteInDb none, .newSiteInDb none, .newEntityId 1 none,
      .newEntityRow ⟨1, 1⟩ true, .deleteEntityDb ⟨1, 1⟩ false, .deleteSiteInDb 2,
      .newEntityId 1 (some 1), .newEntityRow ⟨1, 1⟩ true]
    ∃ b, run Backend.step .empty history = some b ∧
      ∀ before a after c c', history = before ++ a :: after →
        run Backend.step .empty before = some c → c.step a = some c' → c.Allocates a c' :=
  ⟨_, rfl, (idAllocation_iff rfl).mpr <|
    .cons nofun rfl <| .cons (by decide : ∀ _ ∈ _, _) rfl <|
    .cons (by rintro _ ⟨⟩; decide) rfl <| .cons trivial rfl <| .cons trivial rfl <|
    .cons trivial rfl <| .cons trivial rfl <| .cons trivial rfl <| .nil _⟩

/-- A site with a Program is deleted and made again: it has no row of `next_id`, so
`new_entity` finds no ID, and the registration of its predecessor's Program is still
there. -/
theorem idAllocation_recycled :
    ∃ b, run Backend.step .empty [.newSiteInDb none, .newEntityId 1 none,
        .newEntityRow ⟨1, 1⟩ true, .saveProgramReg ⟨1, 1⟩ [97], .deleteSiteInDb 1,
        .newSiteInDb (some 1)] = some b ∧
      b.Live 1 ∧ b.tables.nextId = [] ∧ ¬ b.IdsAllocated ∧ ¬ b.FindsId ∧ ¬ b.StartsEmpty 1 := by
  refine ⟨_, rfl, ⟨_, List.mem_cons_self, rfl, rfl⟩, rfl, fun h => ?_, fun h => ?_, fun h => ?_⟩
  · exact absurd (h.one_nextRow 1 ⟨_, List.mem_cons_self, rfl, rfl⟩) (by decide)
  · obtain ⟨id, hid, -⟩ := h 1 ⟨_, List.mem_cons_self, rfl, rfl⟩ none (by decide)
    cases hid
  · exact h.programRegistrations _ List.mem_cons_self rfl

end Mutgos.SqliteInterface
