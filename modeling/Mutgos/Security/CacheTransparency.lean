import Mutgos.Lib.TransitionSystem
import Mutgos.Security.SecurityAccess

/-!
# The cache of a context

A check that has been made for a context is not made again: its result is cached, with
the defaults for what the overload is not given.  But a look-up compares only what its
own overload is given, so that the result of another overload may answer.  As long as
every check is answered by its own result, if it is cached, the cache makes no
difference.

## Main results

* `transparent_of_reachable` — **the cache is transparent** to the calls that are
  answered by themselves.
-/

namespace Mutgos.Security

open DbTypes DbInterface Text Option

variable {δ : Type}

/-! ### Calls on a database -/

/-- A call of `security_check`.  It is given references to what it is about. -/
structure Check where
  operation : Operation
  request : Request Id
  throwExceptionOnDenied : Bool

namespace Check

/-- The request, as far as it is valid. -/
def valid (db : Database δ) (check : Check) : Option (Request (EntityData δ)) :=
  (check.request.map db.object).validate

/-- `security_check`, in a context. -/
def perform [BEq δ] (db : Database δ) (ctx : Context) (check : Check) :
    Option (Outcome × Context) :=
  securityCheck db check.operation ctx (check.request.map db.object) check.throwExceptionOnDenied

end Check

/-- A check whose result is cached. -/
structure SavedCheck where
  operation : Operation
  request : Request Id
  result : Result

namespace SavedCheck

/-- What is cached. -/
def entry (check : SavedCheck) : ContextCacheEntry :=
  .saved check.operation check.request check.result

/-- Whether what is cached answers another check. -/
def answers (check : SavedCheck) (operation : Operation) (request : Request Id) : Bool :=
  check.entry.answers operation request

/-- The result is that of the checkers for the Entities of the request. -/
def Sound [BEq δ] (db : Database δ) (ctx : Context) (check : SavedCheck) : Prop :=
  ∃ valid : Request (EntityData δ), valid.map (·.id) = check.request ∧
    check.request.map db.object = valid.map some ∧
    evaluate db check.operation ctx valid = some check.result

@[simp] theorem operationResult_entry (check : SavedCheck) :
    check.entry.operationResult = check.result :=
  ContextCacheEntry.operationResult_saved _ _ _

end SavedCheck

/-! ### Contexts that remember what has been checked -/

/-- A context, and the checks that its cache has the results of. -/
structure CheckedContext where
  context : Context
  saved : Ring SavedCheck

namespace CheckedContext

/-- A context that no check has been made for since its cache was cleared. -/
def start (ctx : Context) : CheckedContext := ⟨ctx.clearSecurityCheckCache, Ring.empty⟩

/-- A call.  A result that is not cached is cached then. -/
def step [BEq δ] (db : Database δ) (s : CheckedContext) (check : Check) :
    Option CheckedContext :=
  (check.perform db s.context).bind fun (_, ctx) =>
    match check.valid db with
    | none => some ⟨ctx, s.saved⟩
    | some valid =>
      match s.context.securityCheckCache check.operation (valid.map (·.id)) with
      | some _ => some ⟨ctx, s.saved⟩
      | none => (evaluate db check.operation s.context valid).map fun result =>
        ⟨ctx, s.saved.push contextCacheSize ⟨check.operation, valid.map (·.id), result⟩⟩

end CheckedContext

/-- A call ends as it would if nothing were cached. -/
def Transparent [BEq δ] (db : Database δ) (ctx : Context) (check : Check) : Prop :=
  (check.perform db ctx).map Prod.fst =
    (check.perform db ctx.clearSecurityCheckCache).map Prod.fst

/-- The check that answers a call, if there is one, is the call itself. -/
def AnsweredByItself (db : Database δ) (s : CheckedContext) (check : Check) : Prop :=
  ∀ valid ∈ check.valid db,
    ∀ saved ∈ s.saved.items.find? (·.answers check.operation (valid.map (·.id))),
      saved.operation = check.operation ∧ saved.request = valid.map (·.id)

/-- The invariant: the cache has the results of the checks that are remembered, and they
are what the checkers say. -/
structure CheckedContext.Sound [BEq δ] (db : Database δ) (s : CheckedContext) : Prop where
  contextCache_eq : s.context.contextCache = s.saved.map SavedCheck.entry
  sound : ∀ check ∈ s.saved.items, check.Sound db s.context

/-! ### The checkers do not read the cache -/

theorem evaluate_setCache [BEq δ] (db : Database δ) (operation : Operation) (ctx : Context)
    (cache : Ring ContextCacheEntry) (request : Request (EntityData δ)) :
    evaluate db operation { ctx with contextCache := cache } request =
      evaluate db operation ctx request := by
  have hchecker : ∀ checker : SecurityChecker,
      checker.securityCheck db operation { ctx with contextCache := cache } request =
        checker.securityCheck db operation ctx request := by
    intro checker
    cases checker <;> rfl
  suffices ∀ checkers result,
      runCheckers db operation { ctx with contextCache := cache } request checkers result =
        runCheckers db operation ctx request checkers result from this _ _
  intro checkers
  induction checkers with
  | nil => exact fun result => rfl
  | cons checker checkers ih =>
    intro result
    rw [runCheckers, runCheckers, hchecker]
    simp only [ih]

theorem evaluate_clear [BEq δ] (db : Database δ) (operation : Operation) (ctx : Context)
    (request : Request (EntityData δ)) :
    evaluate db operation ctx.clearSecurityCheckCache request = evaluate db operation ctx request :=
  evaluate_setCache db operation ctx Ring.empty request

theorem SavedCheck.Sound.setCache [BEq δ] {db : Database δ} {ctx : Context} {check : SavedCheck}
    (h : check.Sound db ctx) (cache : Ring ContextCacheEntry) :
    check.Sound db { ctx with contextCache := cache } := by
  obtain ⟨valid, hids, hheld, heval⟩ := h
  exact ⟨valid, hids, hheld, (evaluate_setCache _ _ _ _ _).trans heval⟩

/-! ### Requests and their IDs -/

/-- A valid request is about the Entities that the database has for its IDs. -/
theorem map_object_of_valid {db : Database δ} {check : Check} {valid : Request (EntityData δ)}
    (h : check.valid db = some valid) :
    (valid.map (·.id)).map db.object = valid.map some := by
  have hobject : ∀ {id : Id} {e : EntityData δ}, db.object id = some e →
      db.object e.id = some e := by
    intro id e he
    rw [Database.id_eq_of_object he, he]
  rw [Check.valid] at h
  cases hrequest : check.request with
  | contextOnly =>
    rw [hrequest] at h
    cases h
    rfl
  | entityType type =>
    rw [hrequest] at h
    cases h
    rfl
  | target id =>
    rw [hrequest] at h
    obtain ⟨e, he, rfl⟩ := map_eq_some_iff.mp h
    exact congrArg Request.target (hobject he)
  | application id path =>
    rw [hrequest] at h
    obtain ⟨e, he, h⟩ := bind_eq_some_iff.mp h
    obtain ⟨_, h⟩ := ite_none_left_eq_some.mp h
    cases h
    exact congrArg (Request.application · _) (hobject he)
  | field id entityField =>
    rw [hrequest] at h
    obtain ⟨e, he, rfl⟩ := map_eq_some_iff.mp h
    exact congrArg (Request.field · _) (hobject he)
  | source id id' =>
    rw [hrequest] at h
    obtain ⟨e, he, h⟩ := bind_eq_some_iff.mp h
    obtain ⟨e', he', rfl⟩ := map_eq_some_iff.mp h
    exact congrArg₂ Request.source (hobject he) (hobject he')

theorem map_some_injective : Function.Injective (Request.map (some : EntityData δ → EntityRef δ)) := by
  intro request request' h
  cases request <;> cases request' <;> simp_all [Request.map]

/-! ### The invariant -/

section Invariant

variable [BEq δ] {db : Database δ} {s s' : CheckedContext} {check : Check}
  {valid : Request (EntityData δ)}

/-- What the cache answers is the result of the check that answers. -/
theorem CheckedContext.Sound.securityCheckCache_eq (hs : s.Sound db) (operation : Operation)
    (request : Request Id) :
    s.context.securityCheckCache operation request =
      (s.saved.items.find? (·.answers operation request)).map (·.result) := by
  rw [Context.securityCheckCache, hs.contextCache_eq, Ring.items_map, List.find?_map,
    map_map]
  exact congrArg (fun f => Option.map f _) (funext fun c => c.operationResult_entry)

/-- A check that is answered by itself is answered with what the checkers say. -/
theorem CheckedContext.Sound.evaluate_of_cached (hs : s.Sound db)
    (hok : AnsweredByItself db s check) (hvalid : check.valid db = some valid) {result : Result}
    (hcached : s.context.securityCheckCache check.operation (valid.map (·.id)) = some result) :
    evaluate db check.operation s.context valid = some result := by
  rw [hs.securityCheckCache_eq] at hcached
  obtain ⟨saved, hfind, rfl⟩ := map_eq_some_iff.mp hcached
  obtain ⟨hoperation, hrequest⟩ := hok valid hvalid saved hfind
  obtain ⟨valid', _, hheld, heval⟩ := hs.sound saved (List.mem_of_find?_eq_some hfind)
  -- there is one Entity for each ID
  obtain rfl : valid' = valid := by
    apply map_some_injective
    rw [← hheld, hrequest, map_object_of_valid hvalid]
  rwa [← hoperation]

/-- **Without the cache the call would end in the same way.** -/
theorem CheckedContext.Sound.transparent (hs : s.Sound db) (hok : AnsweredByItself db s check) :
    Transparent db s.context check := by
  rw [Transparent, Check.perform, Check.perform]
  cases hvalid : check.valid db with
  | none => rw [securityCheck_of_refused hvalid, securityCheck_of_refused hvalid]; rfl
  | some valid =>
    rw [securityCheck_of_valid hvalid, securityCheck_of_valid hvalid,
      Context.securityCheckCache_clear, evaluate_clear]
    cases hcached : s.context.securityCheckCache check.operation (valid.map (·.id)) with
    | none =>
      dsimp only
      rw [map_map, map_map]
      rfl
    | some result =>
      rw [hs.evaluate_of_cached hok hvalid hcached]
      rfl

theorem CheckedContext.sound_start (ctx : Context) : (start ctx).Sound db where
  contextCache_eq := rfl
  sound check hcheck := by cases hcheck

/-- Contexts stay sound, whatever answers. -/
theorem CheckedContext.Sound.step (hs : s.Sound db) (h : CheckedContext.step db s check = some s') :
    s'.Sound db := by
  rw [CheckedContext.step, Check.perform] at h
  cases hvalid : check.valid db with
  | none =>
    rw [securityCheck_of_refused hvalid, hvalid] at h
    cases h
    exact hs
  | some valid =>
    rw [securityCheck_of_valid hvalid, hvalid] at h
    dsimp only at h
    cases hcached : s.context.securityCheckCache check.operation (valid.map (·.id)) with
    | some result =>
      rw [hcached] at h
      cases h
      exact hs
    | none =>
      rw [hcached] at h
      cases heval : evaluate db check.operation s.context valid with
      | none =>
        rw [heval] at h
        cases h
      | some result =>
        rw [heval] at h
        cases h
        refine ⟨?_, fun c hc => ?_⟩
        · rw [Ring.map_push, ← hs.contextCache_eq]
          rfl
        · rcases Ring.mem_push hc with rfl | hc
          · exact SavedCheck.Sound.setCache
              ⟨valid, rfl, map_object_of_valid hvalid, heval⟩ _
          · exact (hs.sound c hc).setCache _

end Invariant

/-- **The cache is transparent to the calls that are answered by themselves.** -/
theorem transparent_of_reachable [BEq δ] {db : Database δ} {ctx : Context} {s : CheckedContext}
    {check : Check}
    (hs : Reachable (CheckedContext.step db) (AnsweredByItself db) (.start ctx) s)
    (hok : AnsweredByItself db s check) : Transparent db s.context check := by
  have hsound : s.Sound db :=
    hs.invariant (CheckedContext.sound_start ctx) fun _ _ _ hs _ hstep => hs.step hstep
  exact hsound.transparent hok

instance (db : Database δ) (s : CheckedContext) (check : Check) :
    Decidable (AnsweredByItself db s check) :=
  inferInstanceAs (Decidable (∀ valid ∈ check.valid db,
    ∀ saved ∈ s.saved.items.find? (·.answers check.operation (valid.map (·.id))),
      saved.operation = check.operation ∧ saved.request = valid.map (·.id)))

instance [BEq δ] (db : Database δ) (ctx : Context) (check : Check) :
    Decidable (Transparent db ctx check) :=
  inferInstanceAs (Decidable ((check.perform db ctx).map Prod.fst = _))

/-- A player who may see who is online. -/
def onlineContext : Context :=
  { Context.new ⟨2, 5⟩ default with capabilities := [.connectionCheck] }

/-- That player, another one, and one of another site. -/
def twoSites : Database Unit :=
  ⟨[EntityData.ofType ⟨2, 5⟩ .player, EntityData.ofType ⟨2, 6⟩ .player,
    EntityData.ofType ⟨3, 5⟩ .player]⟩

/-- Whether a player is online. -/
def isOnline (id : Id) : Check := ⟨.characterOnline, .target id, false⟩

/-- Who is online. -/
def whoIsOnline : Check := ⟨.characterOnline, .contextOnly, false⟩

/-- After two players have been asked for, the first is asked for again. -/
theorem transparent_of_reachable_online :
    ∃ s, Reachable (CheckedContext.step twoSites) (AnsweredByItself twoSites)
        (.start onlineContext) s ∧ s.saved.items.length = 2 ∧
      Transparent twoSites s.context (isOnline ⟨2, 5⟩) := by
  have hrun : (run (guarded (CheckedContext.step twoSites) (AnsweredByItself twoSites))
      (.start onlineContext) [isOnline ⟨2, 5⟩, isOnline ⟨3, 5⟩]).map (fun s =>
        (s.saved.items.length, decide (AnsweredByItself twoSites s (isOnline ⟨2, 5⟩)))) =
      some (2, true) := by decide +kernel
  obtain ⟨s, hs, heq⟩ := Option.map_eq_some_iff.mp hrun
  obtain ⟨hlength, hok⟩ := Prod.mk.inj heq
  have hreach := reachable_of_run_guarded .init hs
  exact ⟨s, hreach, hlength, transparent_of_reachable hreach (of_decide_eq_true hok)⟩

/-- **The cache is not transparent**: who asks for a player of another site is refused, and
after that may not see who is online either. -/
theorem transparent_broken :
    ∃ s, Reachable (CheckedContext.step twoSites) (fun _ _ => True) (.start onlineContext) s ∧
      ¬Transparent twoSites s.context whoIsOnline := by
  have hrun : (run (CheckedContext.step twoSites) (.start onlineContext)
      [isOnline ⟨3, 5⟩]).map (fun s => decide (Transparent twoSites s.context whoIsOnline)) =
      some false := by decide +kernel
  obtain ⟨s, hs, heq⟩ := Option.map_eq_some_iff.mp hrun
  have hsteps := steps_of_run hs fun _ _ _ => True.intro
  exact ⟨s, Reachable.init.steps hsteps, of_decide_eq_false heq⟩

end Mutgos.Security
