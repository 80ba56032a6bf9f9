import Mutgos.Lib.TransitionSystem
import Mutgos.Socket.SocketDriver

/-!
# The lifetime of connections

A connection is deleted once, when there are no references to it, and the driver has it nowhere
then: but for two things.  Service that a connection has asked for during `do_work` is still
deferred when it is deleted in the same `do_work`; and `stop` goes through the connections while
those that have no session remove themselves.

## Main results

* `SocketDriver.sound_iff` — **all is as it should be, all through a run, exactly if each step is
  careful.**
-/

namespace Mutgos.Socket

open Function DriverConnection List Option

namespace SocketDriver

/-- The connections that are still to be deleted. -/
def waiting (d : SocketDriver) : List ConnectionPtr := d.pendingDeletes.drop d.phase.passed

/-- **Who is deleted, and who is where.** -/
structure Sound (d : SocketDriver) : Prop where
  /-- No connection is deleted twice. -/
  once : d.deleted.Nodup
  /-- One that has been deleted is nowhere. -/
  gone : ∀ p ∈ d.deleted, d.objects p = none ∧ d.clientConnections p = none ∧
    p ∉ d.pendingActions ∧ p ∉ d.pendingActionsDeferred ∧ p ∉ d.waiting
  /-- Each has its references counted, or has none and will be deleted, or has been. -/
  owned : ∀ p < d.next, p ∈ d.deleted ∨ ∃ c, d.objects p = some c ∧
    (c.references = 0 ∧ p ∈ d.waiting ∧ d.clientConnections p = none ∨
      c.references ≠ 0 ∧ p ∉ d.waiting ∧ d.clientConnections p = some c.references)
  /-- The driver calls only connections that there are. -/
  works : ∀ p ∈ d.pendingActions, (d.objects p).isSome = true

/-- What is right about a step. -/
structure SoundStep (d d' : SocketDriver) : Prop where
  sound : d'.Sound
  /-- What is deleted has no references. -/
  unreferenced : ∀ p ∈ d'.deleted, p ∈ d.deleted ∨ ∃ c, d.objects p = some c ∧ c.references = 0
  /-- Where a loop goes on, what it goes over is as it was. -/
  working : ∀ i j, d.phase = .working i → d'.phase = .working j →
    d'.pendingActions = d.pendingActions
  deleting : ∀ i j, d.phase = .deleting i → d'.phase = .deleting j →
    d'.pendingDeletes = d.pendingDeletes
  stopping : ∀ rest rest', d.phase = .stopping rest → d'.phase = .stopping rest' →
    d'.connections = d.connections
  /-- When the connections have been deleted, none has been left out. -/
  deletes : ∀ i, d.phase = .deleting i → d'.phase = .idle → ∀ p ∈ d.pendingDeletes, p ∈ d'.deleted

/-- A step that neither deletes a connection that is deferred, nor stops one that has no
session. -/
def Careful (d : SocketDriver) : Action → Prop
  | .deleteNext =>
    match d.phase with
    | .deleting index => ∀ p ∈ d.pendingDeletes[index]?, p ∉ d.pendingActionsDeferred
    | _ => True
  | .stopNext =>
    match d.phase with
    | .stopping (p :: _) =>
      ∀ c ∈ d.objects p, c.clientConnected = true → c.socketConnected = true →
        c.clientPtr = true → c.session = .routed
    | _ => True
  | _ => True

/-! ### The invariant -/

/-- Where a connection is. -/
structure Located (d : SocketDriver) (p : ConnectionPtr) : Prop where
  absent : d.objects p = none → d.clientConnections p = none ∧ p ∉ d.pendingActions ∧
    p ∉ d.pendingActionsDeferred ∧ p ∉ d.waiting ∧ (p ∈ d.deleted ↔ p < d.next)
  present : ∀ c, d.objects p = some c → p ∉ d.deleted ∧ p < d.next ∧
    (c.references = 0 ∧ p ∈ d.waiting ∧ d.clientConnections p = none ∨
      c.references ≠ 0 ∧ p ∉ d.waiting ∧ d.clientConnections p = some c.references)

/-- A connection is where it was. -/
structure SameAt (d d' : SocketDriver) (p : ConnectionPtr) : Prop where
  objects : d'.objects p = d.objects p
  clientConnections : d'.clientConnections p = d.clientConnections p
  pendingActions : p ∈ d'.pendingActions → p ∈ d.pendingActions
  pendingActionsDeferred : p ∈ d'.pendingActionsDeferred → p ∈ d.pendingActionsDeferred
  waiting : p ∈ d'.waiting ↔ p ∈ d.waiting
  deleted : p ∈ d'.deleted ↔ p ∈ d.deleted
  next : p < d'.next ↔ p < d.next

theorem Located.congr {d d' : SocketDriver} {p : ConnectionPtr} (h : d.Located p)
    (hsame : SameAt d d' p) : d'.Located p where
  absent hnone := by
    rw [hsame.objects] at hnone
    obtain ⟨hcount, hactions, hdeferred, hwaiting, hdeleted⟩ := h.absent hnone
    rw [hsame.clientConnections, hsame.waiting, hsame.deleted, hsame.next]
    exact ⟨hcount, fun h => hactions (hsame.pendingActions h),
      fun h => hdeferred (hsame.pendingActionsDeferred h), hwaiting, hdeleted⟩
  present c hc := by
    rw [hsame.objects] at hc
    rw [hsame.clientConnections, hsame.waiting, hsame.deleted, hsame.next]
    exact h.present c hc

theorem located_of_eq_some {d : SocketDriver} {p : ConnectionPtr} {c : DriverConnection}
    (hc : d.objects p = some c) (hdeleted : p ∉ d.deleted) (hnext : p < d.next)
    (hplace : c.references = 0 ∧ p ∈ d.waiting ∧ d.clientConnections p = none ∨
      c.references ≠ 0 ∧ p ∉ d.waiting ∧ d.clientConnections p = some c.references) :
    d.Located p where
  absent hnone := absurd (hnone.symm.trans hc) nofun
  present c' hc' := by
    obtain rfl := Option.some.inj (hc.symm.trans hc')
    exact ⟨hdeleted, hnext, hplace⟩

/-- **Each connection is in one place.** -/
structure Invariant (d : SocketDriver) : Prop where
  located : ∀ p, d.Located p
  once : d.deleted.Nodup
  nodup : d.waiting.Nodup
  passed : d.phase.passed ≤ d.pendingDeletes.length
  took : ∀ p ∈ d.pendingDeletes.take d.phase.passed, p ∈ d.deleted
  empty : ∀ i, d.phase = .deleting i → d.pendingActions = []
  inside : d.insideDoWork = d.phase.isInside

variable {d d' : SocketDriver} {p : ConnectionPtr} {c c' : DriverConnection}

theorem Invariant.sound (h : d.Invariant) : d.Sound where
  once := h.once
  gone p hp := by
    have hnone : d.objects p = none := by
      cases hc : d.objects p with
      | none => rfl
      | some c => exact absurd hp ((h.located p).present c hc).1
    obtain ⟨hcount, hactions, hdeferred, hwaiting, -⟩ := (h.located p).absent hnone
    exact ⟨hnone, hcount, hactions, hdeferred, hwaiting⟩
  owned p hp := by
    cases hc : d.objects p with
    | none => exact .inl (((h.located p).absent hc).2.2.2.2.mpr hp)
    | some c => exact .inr ⟨c, rfl, ((h.located p).present c hc).2.2⟩
  works p hp := by
    by_contra hnone
    exact ((h.located p).absent (not_isSome_iff_eq_none.mp hnone)).2.1 hp

/-- The driver is not deleting connections. -/
def Calm (d : SocketDriver) : Prop := ∀ i, d.phase ≠ .deleting i

theorem Calm.passed (h : d.Calm) : d.phase.passed = 0 := by
  cases hphase : d.phase with
  | deleting i => exact absurd hphase (h i)
  | _ => rfl

theorem Calm.waiting (h : d.Calm) : d.waiting = d.pendingDeletes := by
  rw [SocketDriver.waiting, h.passed, drop_zero]

section

variable (h : d.Invariant)
include h

/-- Only one connection has changed, and none has been deleted. -/
theorem Invariant.congr (hcalm : d'.Calm) (hsame : ∀ q, q ≠ p → SameAt d d' q)
    (hlocated : d'.Located p) (hdeleted : d'.deleted = d.deleted) (hnodup : d'.pendingDeletes.Nodup)
    (hinside : d'.insideDoWork = d'.phase.isInside) : d'.Invariant where
  located q := by
    by_cases hq : q = p
    · rw [hq]
      exact hlocated
    · exact (h.located q).congr (hsame q hq)
  once := hdeleted ▸ h.once
  nodup := hcalm.waiting ▸ hnodup
  passed := hcalm.passed ▸ Nat.zero_le _
  took := by
    rw [hcalm.passed]
    exact nofun
  empty i hi := absurd hi (hcalm i)
  inside := hinside

/-- No connection has changed, and none has been deleted. -/
theorem Invariant.of_same (hcalm : d'.Calm) (hsame : ∀ q, SameAt d d' q)
    (hdeleted : d'.deleted = d.deleted) (hnodup : d'.pendingDeletes.Nodup)
    (hinside : d'.insideDoWork = d'.phase.isInside) : d'.Invariant :=
  h.congr (p := 0) hcalm (fun q _ => hsame q) ((h.located 0).congr (hsame 0)) hdeleted hnodup
    hinside

/-! ### What happens to one connection -/

section

variable (hcalm : d.Calm)
include hcalm

/-- A connection changes, but not its references. -/
theorem Invariant.setConnection (hc : d.objects p = some c) (c' : DriverConnection)
    (hreferences : c'.references = c.references) : (d.setConnection p c').Invariant := by
  refine h.congr (p := p) hcalm (fun q hq => ?_) ?_ rfl (hcalm.waiting ▸ h.nodup) h.inside
  · exact ⟨update_of_ne hq _ _, rfl, id, id, .rfl, .rfl, .rfl⟩
  · obtain ⟨hdeleted, hnext, hplace⟩ := (h.located p).present c hc
    exact located_of_eq_some (update_self _ _ _) hdeleted hnext (hreferences ▸ hplace)

/-- A connection loses a reference: the last one, or another. -/
theorem Invariant.release (hc : d.objects p = some c)
    (hreferences : c.references = c'.references + 1) :
    ((d.setConnection p c').release p).Invariant ∧
      ((d.setConnection p c').release p).phase = d.phase := by
  obtain ⟨hdeleted, hnext, hplace⟩ := (h.located p).present c hc
  obtain ⟨-, hwaiting, hcount⟩ := hplace.resolve_left fun hzero => by omega
  have hdeletes : p ∉ d.pendingDeletes := hcalm.waiting ▸ hwaiting
  rw [hreferences] at hcount
  have hrelease : (d.setConnection p c').release p =
      if c'.references ≤ 0 then
        { d.setConnection p c' with
          pendingDeletes := d.pendingDeletes ++ [p]
          clientConnections := update d.clientConnections p none }
      else
        { d.setConnection p c' with
          clientConnections :=
            update d.clientConnections p (some c'.references) } := by
    rw [SocketDriver.release]
    simp only [SocketDriver.setConnection, hcount, Nat.add_sub_cancel]
  rw [hrelease]
  split
  · next hzero =>
    have hwaits : SocketDriver.waiting
        { d.setConnection p c' with
          pendingDeletes := d.pendingDeletes ++ [p]
          clientConnections := update d.clientConnections p none } =
        d.waiting ++ [p] := by
      rw [hcalm.waiting]
      exact Calm.waiting hcalm
    refine ⟨h.congr (p := p) hcalm (fun q hq => ?_) ?_ rfl ?_ h.inside, rfl⟩
    · refine ⟨update_of_ne hq _ _, update_of_ne hq _ _, id, id, ?_, .rfl, .rfl⟩
      rw [hwaits]
      simp [hq]
    · refine located_of_eq_some (update_self _ _ _) hdeleted hnext (.inl ⟨?_, ?_, ?_⟩)
      · exact Nat.le_zero.mp hzero
      · simp [hwaits]
      · exact update_self _ _ _
    · refine nodup_append.mpr ⟨hcalm.waiting ▸ h.nodup, by simp, ?_⟩
      rintro q hq _ hp rfl
      exact hdeletes (mem_singleton.mp hp ▸ hq)
  · next hzero =>
    refine ⟨h.congr (p := p) hcalm (fun q hq => ?_) ?_ rfl (hcalm.waiting ▸ h.nodup) h.inside, rfl⟩
    · exact ⟨update_of_ne hq _ _, update_of_ne hq _ _, id, id, .rfl, .rfl, .rfl⟩
    · refine located_of_eq_some (update_self _ _ _) hdeleted hnext (.inr ⟨?_, ?_, ?_⟩)
      · omega
      · exact hwaiting
      · exact update_self _ _ _

/-- A connection gets one reference more. -/
theorem Invariant.addReference (hc : d.objects p = some c)
    (hreferences : c'.references = c.references + 1) (hfirst : c.references ≠ 0) :
    ((d.setConnection p c').addReference p).Invariant := by
  obtain ⟨hdeleted, hnext, hplace⟩ := (h.located p).present c hc
  obtain ⟨-, hwaiting, hcount⟩ := hplace.resolve_left fun hzero => hfirst hzero.1
  refine h.congr (p := p) hcalm (fun q hq => ?_) ?_ rfl (hcalm.waiting ▸ h.nodup) h.inside
  · exact ⟨update_of_ne hq _ _, update_of_ne hq _ _, id, id, .rfl, .rfl, .rfl⟩
  · refine located_of_eq_some (update_self _ _ _) hdeleted hnext (.inr ⟨?_, ?_, ?_⟩)
    · omega
    · exact hwaiting
    · refine (update_self _ _ _).trans ?_
      rw [SocketDriver.setConnection, hcount, hreferences]
      rfl

/-- There is a connection that has not been there. -/
theorem Invariant.accept (socketStarted clientConnected : Bool) :
    (d.accept socketStarted clientConnected).Invariant := by
  have hfresh : d.objects d.next = none := by
    cases hc : d.objects d.next with
    | none => rfl
    | some c => exact absurd ((h.located d.next).present c hc).2.1 (Nat.lt_irrefl _)
  obtain ⟨hcount, -, -, hwaiting, hdeleted⟩ := (h.located d.next).absent hfresh
  refine h.congr (p := d.next) hcalm (fun q hq => ?_) ?_ rfl (hcalm.waiting ▸ h.nodup) h.inside
  · refine ⟨update_of_ne hq _ _, update_of_ne hq _ _, id, id, .rfl, .rfl, ?_⟩
    exact ⟨fun hlt => Nat.lt_of_le_of_ne (Nat.lt_succ_iff.mp hlt) hq, Nat.lt_succ_of_lt⟩
  · refine located_of_eq_some (update_self _ _ _) ?_ (Nat.lt_succ_self _)
      (.inr ⟨Nat.one_ne_zero, hwaiting, ?_⟩)
    · exact fun hmem => Nat.lt_irrefl _ (hdeleted.mp hmem)
    · refine (update_self _ _ _).trans ?_
      simp only [SocketDriver.setConnection, hcount]
      rfl

/-- A connection asks for service. -/
theorem Invariant.connectionHasPendingActions (hc : d.objects p = some c) :
    (d.connectionHasPendingActions p).Invariant := by
  have hpresent := (h.located p).present c hc
  unfold SocketDriver.connectionHasPendingActions
  split
  · refine h.congr (p := p) hcalm (fun q hq => ?_) ?_ rfl (hcalm.waiting ▸ h.nodup) h.inside
    · exact ⟨rfl, rfl, id, by simp [hq], .rfl, .rfl, .rfl⟩
    · exact located_of_eq_some hc hpresent.1 hpresent.2.1 hpresent.2.2
  · refine h.congr (p := p) hcalm (fun q hq => ?_) ?_ rfl (hcalm.waiting ▸ h.nodup) h.inside
    · exact ⟨rfl, rfl, by simp [hq], id, .rfl, .rfl, .rfl⟩
    · exact located_of_eq_some hc hpresent.1 hpresent.2.1 hpresent.2.2

theorem Invariant.requestService (hc : d.objects p = some c) :
    (d.requestService p c).Invariant := by
  unfold SocketDriver.requestService
  split
  · exact h
  · have hset := h.setConnection hcalm hc { c with requestedService := true } rfl
    exact hset.connectionHasPendingActions hcalm
      (update_self _ _ _)

/-- The socket has a reference, until it disconnects. -/
theorem Invariant.handleDisconnect (hc : d.objects p = some c) :
    (d.handleDisconnect p c).Invariant ∧ (d.handleDisconnect p c).phase = d.phase := by
  unfold SocketDriver.handleDisconnect
  split_ifs with hdisconnected hclient
  · exact ⟨h, rfl⟩
  · refine h.release hcalm hc ?_
    simp [references, hclient, Nat.add_comm]
  · exact ⟨h.setConnection hcalm hc _ rfl, rfl⟩

theorem Invariant.disconnectSocket (hc : d.objects p = some c) :
    (d.disconnectSocket p c).Invariant ∧ (d.disconnectSocket p c).phase = d.phase := by
  unfold SocketDriver.disconnectSocket
  split
  · have hset := h.setConnection hcalm hc { c with clientConnected := false } rfl
    exact hset.handleDisconnect hcalm (update_self _ _ _)
  · exact ⟨h, rfl⟩

/-! ### The loops -/

/-- The driver goes on to something else. -/
theorem Invariant.turn (started insideDoWork : Bool) (phase : DriverPhase)
    (hphase : ∀ i, phase ≠ .deleting i) (hinside : insideDoWork = phase.isInside) :
    Invariant { d with started := started, insideDoWork := insideDoWork, phase := phase } := by
  have hcalm' :
      Calm { d with started := started, insideDoWork := insideDoWork, phase := phase } := hphase
  refine h.of_same hcalm' (fun q => ⟨rfl, rfl, id, id, ?_, .rfl, .rfl⟩) rfl
    (hcalm.waiting ▸ h.nodup) hinside
  rw [hcalm.waiting, hcalm'.waiting]

end

/-- The next connection does its work. -/
theorem Invariant.workNext (hstep : d.step .workNext = some d') : d'.Invariant := by
  rw [step] at hstep
  split at hstep
  · next index hphase =>
    obtain ⟨p, hp, rfl⟩ := map_eq_some_iff.mp hstep
    have hcalm : d.Calm := fun i hi => by simp [hphase] at hi
    obtain ⟨c, hc⟩ := isSome_iff_exists.mp (h.sound.works p (mem_of_getElem? hp))
    have hinside := h.inside
    rw [hphase] at hinside
    have hset := h.setConnection hcalm hc { c with requestedService := false } rfl
    refine hset.of_same (fun i hi => by simp at hi) (fun q => ?_) rfl (hcalm.waiting ▸ h.nodup)
      hinside
    refine ⟨?_, rfl, id, id, ?_, .rfl, .rfl⟩
    · simp only [hc, map_some]
      rfl
    · simp [SocketDriver.waiting, SocketDriver.setConnection, hphase, DriverPhase.passed]
  · cases hstep

theorem Invariant.endWork (hstep : d.step .endWork = some d') : d'.Invariant := by
  rw [step] at hstep
  split at hstep
  · next index hphase =>
    rw [ite_none_right_eq_some] at hstep
    obtain rfl := Option.some.inj hstep.2
    have hcalm : d.Calm := fun i hi => by simp [hphase] at hi
    have hinside := h.inside
    rw [hphase] at hinside
    refine ⟨fun q => (h.located q).congr ⟨rfl, rfl, nofun, id, ?_, .rfl, .rfl⟩, h.once,
      hcalm.waiting ▸ h.nodup, Nat.zero_le _, nofun, fun _ _ => rfl, hinside⟩
    rw [hcalm.waiting]
    rfl
  · cases hstep

/-- A connection is deleted. -/
theorem Invariant.deleteNext (hcareful : d.Careful .deleteNext)
    (hstep : d.step .deleteNext = some d') :
    d'.Invariant ∧ d'.pendingDeletes = d.pendingDeletes ∧
      ∀ p ∈ d'.deleted, p ∈ d.deleted ∨ ∃ c, d.objects p = some c ∧ c.references = 0 := by
  rw [step] at hstep
  rw [Careful] at hcareful
  split at hstep
  · next index hphase =>
    rw [hphase] at hcareful
    obtain ⟨p, hp, hstep⟩ := bind_eq_some_iff.mp hstep
    obtain ⟨c, hc, rfl⟩ := map_eq_some_iff.mp hstep
    obtain ⟨hindex, hget⟩ := List.getElem?_eq_some_iff.mp hp
    have hwaiting : d.waiting = p :: d.pendingDeletes.drop (index + 1) := by
      rw [SocketDriver.waiting, hphase, DriverPhase.passed, drop_eq_getElem_cons hindex, hget]
    have hmem : p ∈ d.waiting := hwaiting ▸ mem_cons_self
    have hnodup := h.nodup
    rw [hwaiting, nodup_cons] at hnodup
    obtain ⟨hdeleted, hnext, hplace⟩ := (h.located p).present c hc
    obtain ⟨hreferences, -, hcount⟩ := hplace.resolve_right fun hplace => hplace.2.1 hmem
    have hclient : c.clientPtr = false := by
      cases hclient : c.clientPtr with
      | false => rfl
      | true => simp [references, hclient] at hreferences
    have hdestroy : d.destroy p c =
        { d with
          objects := update d.objects p none
          deleted := d.deleted ++ [p] } := by
      simp [destroy, hclient]
    have htook := h.took
    rw [hphase, DriverPhase.passed] at htook
    rw [hdestroy]
    refine ⟨⟨fun q => ?_, ?_, hnodup.2, hindex, ?_, fun i hi => h.empty index hphase, ?_⟩, rfl, ?_⟩
    · by_cases hq : q = p
      · subst hq
        refine ⟨fun _ => ⟨hcount, ?_, hcareful q hp, hnodup.1, ?_⟩, fun c' hc' => ?_⟩
        · rw [h.empty index hphase]
          exact nofun
        · simp [hnext]
        · simp at hc'
      · refine (h.located q).congr ⟨update_of_ne hq _ _, rfl, id, id, ?_, ?_, .rfl⟩
        · rw [hwaiting, mem_cons, or_iff_right hq]
          rfl
        · simp [hq]
    · refine nodup_append.mpr ⟨h.once, by simp, ?_⟩
      rintro q hq _ hp rfl
      exact hdeleted (mem_singleton.mp hp ▸ hq)
    · intro q hq
      rw [DriverPhase.passed, take_succ_eq_append_getElem hindex, hget] at hq
      exact mem_append.mpr ((mem_append.mp hq).imp_left (htook q))
    · exact h.inside.trans (by rw [hphase]; rfl)
    · intro q hq
      rcases mem_append.mp hq with hq | hq
      · exact .inl hq
      · rw [mem_singleton.mp hq]
        exact .inr ⟨c, hc, hreferences⟩
  · cases hstep

/-- What was to be deleted has been, and what has been deferred is to be done. -/
theorem Invariant.endDelete (hstep : d.step .endDelete = some d') :
    d'.Invariant ∧ d'.deleted = d.deleted ∧ ∀ p ∈ d.pendingDeletes, p ∈ d.deleted := by
  rw [step] at hstep
  split at hstep
  · next index hphase =>
    rw [ite_none_right_eq_some] at hstep
    obtain ⟨hlength, hstep⟩ := hstep
    obtain rfl := Option.some.inj hstep
    have hwaiting : d.waiting = [] := by
      rw [SocketDriver.waiting, hphase]
      exact drop_eq_nil_of_le hlength
    have htook := h.took
    rw [hphase, DriverPhase.passed, take_of_length_le hlength] at htook
    refine ⟨⟨fun q => ?_, h.once, nodup_nil, Nat.zero_le _, nofun, nofun, rfl⟩, rfl, htook⟩
    constructor
    · intro hnone
      obtain ⟨hcount, hactions, hdeferred, -, hdeleted⟩ := (h.located q).absent hnone
      exact ⟨hcount, by simp [hactions, hdeferred], nofun, nofun, hdeleted⟩
    · intro c hc
      obtain ⟨hdeleted, hnext, hplace⟩ := (h.located q).present c hc
      rw [hwaiting] at hplace
      exact ⟨hdeleted, hnext, hplace⟩
  · cases hstep

end

/-! ### What stays as it is -/

/-- A driver that is where it was, with nobody deleted, and nothing added to what it goes
over. -/
structure Event (d d' : SocketDriver) : Prop where
  phase : d'.phase = d.phase
  deleted : d'.deleted = d.deleted
  insideDoWork : d'.insideDoWork = d.insideDoWork
  pendingActions : d.insideDoWork = true → d'.pendingActions = d.pendingActions

theorem Event.refl (d : SocketDriver) : Event d d := ⟨rfl, rfl, rfl, fun _ => rfl⟩

theorem event_release (d : SocketDriver) (p : ConnectionPtr) (c : DriverConnection) :
    Event d ((d.setConnection p c).release p) := by
  unfold SocketDriver.release
  split
  · exact ⟨rfl, rfl, rfl, fun _ => rfl⟩
  · split <;> exact ⟨rfl, rfl, rfl, fun _ => rfl⟩

theorem event_connectionHasPendingActions (d : SocketDriver) (p : ConnectionPtr) :
    Event d (d.connectionHasPendingActions p) := by
  unfold SocketDriver.connectionHasPendingActions
  split
  · exact ⟨rfl, rfl, rfl, fun _ => rfl⟩
  · next houtside => exact ⟨rfl, rfl, rfl, fun hinside => absurd hinside houtside⟩

theorem event_requestService (d : SocketDriver) (p : ConnectionPtr) (c : DriverConnection) :
    Event d (d.requestService p c) := by
  unfold SocketDriver.requestService
  split
  · exact .refl d
  · have hevent := event_connectionHasPendingActions
      (d.setConnection p { c with requestedService := true }) p
    exact ⟨hevent.1, hevent.2, hevent.3, hevent.4⟩

theorem event_handleDisconnect (d : SocketDriver) (p : ConnectionPtr) (c : DriverConnection) :
    Event d (d.handleDisconnect p c) := by
  unfold SocketDriver.handleDisconnect
  split_ifs
  · exact .refl d
  · exact event_release d p _
  · exact ⟨rfl, rfl, rfl, fun _ => rfl⟩

theorem event_disconnectSocket (d : SocketDriver) (p : ConnectionPtr) (c : DriverConnection) :
    Event d (d.disconnectSocket p c) := by
  unfold SocketDriver.disconnectSocket
  split
  · have hevent := event_handleDisconnect
      (d.setConnection p { c with clientConnected := false }) p { c with clientConnected := false }
    exact ⟨hevent.1, hevent.2, hevent.3, hevent.4⟩
  · exact .refl d

theorem whenOpen_eq_some {f : DriverConnection → Option SocketDriver}
    (h : d.whenOpen p f = some d') :
    d.phase.isOpen = true ∧ ∃ c, d.objects p = some c ∧ f c = some d' := by
  unfold whenOpen at h
  split at h
  · next hopen => exact ⟨hopen, bind_eq_some_iff.mp h⟩
  · cases h

theorem calm_of_isOpen (h : d.phase.isOpen = true) : d.Calm := fun i hi => by
  rw [hi] at h
  cases h

/-- It is not the driver that does it. -/
def Action.isEvent : Action → Bool
  | .accept _ _ | .rawReady _ | .requestService _ | .handleDisconnect _ | .disconnectSocket _
  | .rawDisconnected _ | .clientSetSession _ | .releaseConnection _ => true
  | _ => false

/-- What happens outside of the loops that delete and stop. -/
theorem Invariant.open_step (h : d.Invariant) {a : Action} (hstep : d.step a = some d')
    (ha : a.isEvent = true) :
    d.phase.isOpen = true ∧ d'.Invariant ∧ Event d d' := by
  cases a with
  | accept socketStarted clientConnected =>
    rw [step, ite_none_right_eq_some] at hstep
    obtain ⟨hphase, hstep⟩ := hstep
    obtain rfl := Option.some.inj hstep
    have hopen : d.phase.isOpen = true := by rw [hphase]; rfl
    exact ⟨hopen, h.accept (calm_of_isOpen hopen) _ _, rfl, rfl, rfl, fun _ => rfl⟩
  | rawReady p =>
    obtain ⟨hopen, c, hc, hstep⟩ := whenOpen_eq_some hstep
    rw [ite_none_right_eq_some] at hstep
    obtain rfl := Option.some.inj hstep.2
    exact ⟨hopen, h.setConnection (calm_of_isOpen hopen) hc _ rfl, rfl, rfl, rfl, fun _ => rfl⟩
  | requestService p =>
    obtain ⟨hopen, c, hc, hstep⟩ := whenOpen_eq_some hstep
    obtain rfl := Option.some.inj hstep
    exact ⟨hopen, h.requestService (calm_of_isOpen hopen) hc, event_requestService d p c⟩
  | handleDisconnect p =>
    obtain ⟨hopen, c, hc, hstep⟩ := whenOpen_eq_some hstep
    obtain rfl := Option.some.inj hstep
    exact ⟨hopen, (h.handleDisconnect (calm_of_isOpen hopen) hc).1, event_handleDisconnect d p c⟩
  | disconnectSocket p =>
    obtain ⟨hopen, c, hc, hstep⟩ := whenOpen_eq_some hstep
    obtain rfl := Option.some.inj hstep
    exact ⟨hopen, (h.disconnectSocket (calm_of_isOpen hopen) hc).1, event_disconnectSocket d p c⟩
  | rawDisconnected p =>
    obtain ⟨hopen, c, hc, hstep⟩ := whenOpen_eq_some hstep
    obtain rfl := Option.some.inj hstep
    exact ⟨hopen, h.setConnection (calm_of_isOpen hopen) hc _ rfl, rfl, rfl, rfl, fun _ => rfl⟩
  | clientSetSession p =>
    obtain ⟨hopen, c, hc, hstep⟩ := whenOpen_eq_some hstep
    rw [ite_none_right_eq_some] at hstep
    obtain ⟨⟨hclient, hsession⟩, hstep⟩ := hstep
    obtain rfl := Option.some.inj hstep
    refine ⟨hopen, h.addReference (calm_of_isOpen hopen) hc ?_ ?_, rfl, rfl, rfl, fun _ => rfl⟩
    · simp [references, hsession]
    · simp [references, hclient]
  | releaseConnection p =>
    obtain ⟨hopen, c, hc, hstep⟩ := whenOpen_eq_some hstep
    rw [ite_none_right_eq_some] at hstep
    obtain ⟨hrouted, hstep⟩ := hstep
    obtain rfl := Option.some.inj hstep
    refine ⟨hopen, (h.release (calm_of_isOpen hopen) hc ?_).1, event_release d p _⟩
    simp [references, hrouted]
  | _ => cases ha

/-- What `stop` does to a connection that the socket has a reference to. -/
theorem disconnectSocket_eq_release (hconnected : c.clientConnected = true)
    (hsocket : c.socketConnected = true) (hclient : c.clientPtr = true) :
    ∃ c', c.references = c'.references + 1 ∧ c'.session = c.session ∧ c'.clientPtr = false ∧
      d.disconnectSocket p c = (d.setConnection p c').release p := by
  refine ⟨{ c with socketConnected := false, clientConnected := false, clientPtr := false }, ?_,
    rfl, rfl, ?_⟩
  · simp [references, hclient, Nat.add_comm]
  · simp [disconnectSocket, handleDisconnect, hconnected, hsocket, hclient,
      SocketDriver.setConnection]

/-- What `stop` does otherwise. -/
theorem clientConnections_disconnectSocket
    (h : ¬(c.clientConnected = true ∧ c.socketConnected = true ∧ c.clientPtr = true)) :
    (d.disconnectSocket p c).clientConnections = d.clientConnections := by
  unfold disconnectSocket handleDisconnect
  split_ifs <;> first | rfl | simp_all

theorem next_disconnectSocket : (d.disconnectSocket p c).next = d.next := by
  unfold disconnectSocket handleDisconnect SocketDriver.release
  split_ifs <;> first | rfl | (split <;> first | rfl | (split <;> rfl))

/-- The connections that `stop` goes over stay where they are, if each that is connected has a
session. -/
theorem Invariant.connections_disconnectSocket (h : d.Invariant)
    (hc : d.objects p = some c) (hcareful : c.clientConnected = true → c.socketConnected = true →
      c.clientPtr = true → c.session = .routed) :
    (d.disconnectSocket p c).connections = d.connections := by
  have hsome : ∀ q, ((d.disconnectSocket p c).clientConnections q).isSome =
      (d.clientConnections q).isSome := by
    intro q
    by_cases hall : c.clientConnected = true ∧ c.socketConnected = true ∧ c.clientPtr = true
    · obtain ⟨hconnected, hsocket, hclient⟩ := hall
      have hrouted := hcareful hconnected hsocket hclient
      obtain ⟨c', hreferences, hsession, hclient', hrelease⟩ :=
        disconnectSocket_eq_release (d := d) (p := p) hconnected hsocket hclient
      have hone : c'.references = 1 := by
        simp [references, hsession, hclient', hrouted]
      obtain ⟨-, -, hplace⟩ := (h.located p).present c hc
      obtain ⟨-, -, hcount⟩ := hplace.resolve_left fun hzero => by omega
      rw [hreferences, hone] at hcount
      rw [hrelease, SocketDriver.release]
      simp only [SocketDriver.setConnection, hcount]
      by_cases hq : q = p <;> simp [hq, hcount]
    · rw [clientConnections_disconnectSocket hall]
  simp only [connections, hsome, next_disconnectSocket]

/-- What happens outside of the loops that delete and stop is right. -/
theorem Event.soundStep (hevent : Event d d') (hopen : d.phase.isOpen = true) (h : d.Invariant)
    (h' : d'.Invariant) : d.SoundStep d' where
  sound := h'.sound
  unreferenced p hp := .inl (hevent.deleted ▸ hp)
  working i j hi _ := hevent.pendingActions (by rw [h.inside, hi]; rfl)
  deleting i j hi _ := absurd hi (calm_of_isOpen hopen i)
  stopping rest rest' hrest _ := by
    rw [hrest] at hopen
    cases hopen
  deletes i hi _ := absurd hi (calm_of_isOpen hopen i)

/-- A step that only goes on to something else is right. -/
theorem soundStep_of_phase (h' : d'.Invariant) (hdeleted : d'.deleted = d.deleted)
    (hcalm : d.Calm) (hworking : ∀ i j, d.phase = .working i → d'.phase = .working j →
      d'.pendingActions = d.pendingActions)
    (hstopping : ∀ rest rest', d.phase = .stopping rest → d'.phase ≠ .stopping rest') :
    d.SoundStep d' where
  sound := h'.sound
  unreferenced _ hp := .inl (hdeleted ▸ hp)
  working := hworking
  deleting i _ hi _ := absurd hi (hcalm i)
  stopping rest rest' hrest hrest' := absurd hrest' (hstopping rest rest' hrest)
  deletes i hi _ := absurd hi (hcalm i)

/-- **Each step keeps each connection in one place**, where it is careful. -/
theorem Invariant.step (h : d.Invariant) {a : Action} (hcareful : d.Careful a)
    (hstep : d.step a = some d') : d.SoundStep d' ∧ d'.Invariant := by
  have hevent : a.isEvent = true → d.SoundStep d' ∧ d'.Invariant := fun ha =>
    have hopen := h.open_step hstep ha
    ⟨hopen.2.2.soundStep hopen.1 h hopen.2.1, hopen.2.1⟩
  cases a with
  | doWork =>
    rw [SocketDriver.step, ite_none_right_eq_some] at hstep
    obtain ⟨hphase, hstep⟩ := hstep
    obtain rfl := Option.some.inj hstep
    have hcalm : d.Calm := fun i hi => by simp [hphase] at hi
    have h' := h.turn hcalm d.started true .polling nofun rfl
    exact ⟨soundStep_of_phase h' rfl hcalm (fun _ _ _ _ => rfl) (fun _ _ _ => nofun), h'⟩
  | endPoll =>
    rw [SocketDriver.step, ite_none_right_eq_some] at hstep
    obtain ⟨hphase, hstep⟩ := hstep
    obtain rfl := Option.some.inj hstep
    have hcalm : d.Calm := fun i hi => by simp [hphase] at hi
    have h' := h.turn hcalm d.started d.insideDoWork (.working 0) nofun
      (h.inside.trans (by rw [hphase]; rfl))
    exact ⟨soundStep_of_phase h' rfl hcalm (fun _ _ _ _ => rfl) (fun _ _ _ => nofun), h'⟩
  | workNext =>
    have h' := h.workNext hstep
    rw [SocketDriver.step] at hstep
    split at hstep
    · next index hphase =>
      obtain ⟨p, hp, rfl⟩ := map_eq_some_iff.mp hstep
      have hcalm : d.Calm := fun i hi => by simp [hphase] at hi
      exact ⟨soundStep_of_phase h' rfl hcalm (fun _ _ _ _ => rfl) (fun _ _ _ => nofun), h'⟩
    · cases hstep
  | endWork =>
    have h' := h.endWork hstep
    rw [SocketDriver.step] at hstep
    split at hstep
    · next index hphase =>
      rw [ite_none_right_eq_some] at hstep
      obtain rfl := Option.some.inj hstep.2
      have hcalm : d.Calm := fun i hi => by simp [hphase] at hi
      exact ⟨soundStep_of_phase h' rfl hcalm (fun _ _ _ => nofun) (fun _ _ _ => nofun), h'⟩
    · cases hstep
  | deleteNext =>
    obtain ⟨h', hdeletes, hunreferenced⟩ := h.deleteNext hcareful hstep
    rw [SocketDriver.step] at hstep
    split at hstep
    · next index hphase =>
      obtain ⟨p, hp, hstep⟩ := bind_eq_some_iff.mp hstep
      obtain ⟨c, hc, rfl⟩ := map_eq_some_iff.mp hstep
      refine ⟨⟨h'.sound, hunreferenced, fun i j hi => ?_, fun _ _ _ _ => hdeletes,
        fun rest rest' hrest => ?_, fun _ _ => nofun⟩, h'⟩
      · exact absurd (hphase.symm.trans hi) nofun
      · exact absurd (hphase.symm.trans hrest) nofun
    · cases hstep
  | endDelete =>
    obtain ⟨h', hdeleted, hall⟩ := h.endDelete hstep
    rw [SocketDriver.step] at hstep
    split at hstep
    · next index hphase =>
      rw [ite_none_right_eq_some] at hstep
      obtain rfl := Option.some.inj hstep.2
      exact ⟨⟨h'.sound, fun _ => .inl, fun _ _ _ => nofun, fun _ _ _ => nofun, fun _ _ _ => nofun,
        fun _ _ _ => hall⟩, h'⟩
    · cases hstep
  | stop =>
    rw [SocketDriver.step, ite_none_right_eq_some] at hstep
    obtain ⟨⟨hphase, -⟩, hstep⟩ := hstep
    obtain rfl := Option.some.inj hstep
    have hcalm : d.Calm := fun i hi => by simp [hphase] at hi
    have h' := h.turn hcalm d.started d.insideDoWork (.stopping d.connections) nofun
      (h.inside.trans (by rw [hphase]; rfl))
    refine ⟨soundStep_of_phase h' rfl hcalm (fun _ _ _ => nofun) (fun rest _ hrest => ?_), h'⟩
    exact absurd (hphase.symm.trans hrest) nofun
  | stopNext =>
    rw [SocketDriver.step] at hstep
    rw [Careful] at hcareful
    split at hstep
    · next p rest hphase =>
      rw [hphase] at hcareful
      obtain ⟨c, hc, rfl⟩ := map_eq_some_iff.mp hstep
      have hcalm : d.Calm := fun i hi => by simp [hphase] at hi
      obtain ⟨hinvariant, hphase'⟩ := h.disconnectSocket hcalm hc
      have hcalm' : (d.disconnectSocket p c).Calm := fun i hi => hcalm i (hphase'.symm.trans hi)
      have h' := hinvariant.turn hcalm' (d.disconnectSocket p c).started
        (d.disconnectSocket p c).insideDoWork (.stopping rest) nofun
        (hinvariant.inside.trans (by rw [hphase', hphase]; rfl))
      have hdeleted := (event_disconnectSocket d p c).deleted
      refine ⟨⟨h'.sound, fun q hq => .inl (hdeleted ▸ hq), fun i j hi => ?_, fun i j hi => ?_,
        fun _ _ _ _ => h.connections_disconnectSocket hc (hcareful c hc), fun i hi => ?_⟩, h'⟩
      · exact absurd (hphase.symm.trans hi) nofun
      · exact absurd hi (hcalm i)
      · exact absurd hi (hcalm i)
    · cases hstep
  | endStop =>
    rw [SocketDriver.step] at hstep
    split at hstep
    · next hphase =>
      obtain rfl := Option.some.inj hstep
      have hcalm : d.Calm := fun i hi => by simp [hphase] at hi
      have h' := h.turn hcalm false d.insideDoWork .idle nofun
        (h.inside.trans (by rw [hphase]; rfl))
      exact ⟨soundStep_of_phase h' rfl hcalm (fun _ _ _ => nofun) (fun _ _ _ => nofun), h'⟩
    · cases hstep
  | _ => exact hevent rfl

/-! ### Steps that are not careful -/

theorem pendingActionsDeferred_destroy :
    (d.destroy p c).pendingActionsDeferred = d.pendingActionsDeferred := by
  unfold destroy SocketDriver.release
  split_ifs
  · dsimp only
    split
    · rfl
    · split <;> rfl
  · rfl

/-- A step that is right has been careful. -/
theorem Invariant.careful_of_soundStep (h : d.Invariant) {a : Action}
    (hstep : d.step a = some d') (hsound : d.SoundStep d') : d.Careful a := by
  cases a with
  | deleteNext =>
    rw [SocketDriver.step] at hstep
    split at hstep
    · next index hphase =>
      rw [Careful, hphase]
      intro p hp
      rw [hp, bind_some] at hstep
      obtain ⟨c, hc, rfl⟩ := map_eq_some_iff.mp hstep
      have hdeleted : p ∈ (d.destroy p c).deleted := by simp [destroy]
      obtain ⟨-, -, -, hdeferred, -⟩ := hsound.sound.gone p hdeleted
      exact pendingActionsDeferred_destroy (d := d) ▸ hdeferred
    · cases hstep
  | stopNext =>
    rw [SocketDriver.step] at hstep
    split at hstep
    · next p rest hphase =>
      rw [Careful, hphase]
      intro c hc hconnected hsocket hclient
      rw [hc, map_some] at hstep
      obtain rfl := Option.some.inj hstep
      by_contra hrouted
      have hsame : (d.disconnectSocket p c).connections = d.connections :=
        hsound.stopping _ rest hphase rfl
      obtain ⟨c', hreferences, hsession, hclient', hrelease⟩ :=
        disconnectSocket_eq_release (d := d) (p := p) hconnected hsocket hclient
      have hzero : c'.references = 0 := by
        simp [references, hsession, hclient', hrouted]
      obtain ⟨-, hnext, hplace⟩ := (h.located p).present c hc
      obtain ⟨-, -, hcount⟩ := hplace.resolve_left fun hfalse => by omega
      rw [hreferences, hzero] at hcount
      have hmem : p ∈ d.connections := by simp [connections, hnext, hcount]
      rw [← hsame, hrelease] at hmem
      simp [connections, SocketDriver.release, SocketDriver.setConnection, hcount] at hmem
    · cases hstep
  | _ => trivial

theorem invariant_start : start.Invariant where
  located _ := ⟨fun _ => ⟨rfl, nofun, nofun, nofun, nofun, nofun⟩, nofun⟩
  once := nodup_nil
  nodup := nodup_nil
  passed := Nat.le_refl _
  took := nofun
  empty := nofun
  inside := rfl

/-- **Each connection is deleted once, when nobody has a reference to it, and nobody calls it
afterwards, all through a run, exactly if each step is careful.** -/
theorem sound_iff {actions : List Action} (h : run step start actions = some d) :
    (∀ as a bs t t', actions = as ++ a :: bs → run step start as = some t → step t a = some t' →
        t.SoundStep t') ↔
      Steps step Careful start actions d :=
  steps_iff_forall_step (P := fun t _ t' => t.SoundStep t')
    (fun _ _ _ ht hcareful hstep => (ht.step hcareful hstep).symm)
    (fun _ _ _ ht hstep => ht.careful_of_soundStep hstep) invariant_start h

/-- A client that leaves after its login screen has been asked for in one `do_work`, and sent in the
next one. -/
def laterLeave : List Action :=
  [.doWork, .accept true true, .requestService 0, .endPoll, .endWork, .endDelete, .doWork,
    .handleDisconnect 0, .endPoll, .workNext, .endWork, .deleteNext, .endDelete]

theorem sound_iff_laterLeave : ∃ d, run step start laterLeave = some d ∧
    ((∀ as a bs t t', laterLeave = as ++ a :: bs → run step start as = some t →
        step t a = some t' → t.SoundStep t') ↔
      Steps step Careful start laterLeave d) :=
  ⟨_, rfl, sound_iff rfl⟩

/-- A client that leaves in the `do_work` in which it has come. -/
def leaveAtOnce : List Action :=
  [.doWork, .accept true true, .requestService 0, .handleDisconnect 0, .endPoll, .endWork,
    .deleteNext, .endDelete, .doWork, .endPoll]

/-- **The next connection to do its work has been deleted**, when a client leaves at once; and
`stop` removes a connection that has not logged in from what it goes over. -/
theorem leaveAtOnce_works :
    (∃ d, run step start leaveAtOnce = some d ∧ d.phase = .working 0 ∧ d.pendingActions = [0] ∧
      d.deleted = [0] ∧ d.objects 0 = none) ∧
    ∃ d d', run step start [.doWork, .accept true true, .endPoll, .endWork, .endDelete, .stop] =
        some d ∧ step d .stopNext = some d' ∧ d.phase = .stopping [0] ∧ d'.phase = .stopping [] ∧
      d.connections = [0] ∧ d'.connections = [] :=
  ⟨⟨_, rfl, rfl, rfl, rfl, rfl⟩, _, _, rfl, rfl, rfl, rfl, rfl, rfl⟩

end SocketDriver

end Mutgos.Socket
